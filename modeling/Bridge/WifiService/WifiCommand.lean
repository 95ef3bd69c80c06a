import Bridge.WifiService.SetWifi

namespace Bridge

open Cbor

section Object

variable {Obj : Type} {format : Format Obj} {change : Obj → Obj}

def Outcome.map (change : Obj → Obj) : Outcome Obj → Outcome Obj
  | .returns err obj => .returns err (change obj)
  | .continues err content obj => .continues err content (change obj)

/-- What the object holds otherwise makes no difference to a field. -/
def TakesAlike (format : Format Obj) (change : Obj → Obj) : Prop :=
  ∀ field ∈ format.fields, ∀ content obj,
    field.take content (change obj) = (field.take content obj).map fun (err, next, obj) => (err, next, change obj)

theorem switch_map (alike : TakesAlike format change) (tagId : Int) (content : CborValue) (obj : Obj) :
    format.switch tagId content (change obj) = (format.switch tagId content obj).map (Outcome.map change) := by
  unfold Format.switch
  split
  · split
    · rfl
    · simp only [Option.map_map]
      rfl
  · unfold Format.fallThrough
    cases found : (format.casesFrom tagId).find? fun field => field.type.cborType == content.type with
    | none =>
      simp only
      split
      · rfl
      · rfl
    | some field =>
      simp only [alike field (casesFrom_subset (List.mem_of_find?_eq_some found)), Option.map_map]
      congr 1
      funext result
      obtain ⟨err, next, obj⟩ := result
      simp only [Function.comp_apply]
      split
      · rfl
      · rfl

theorem loop_map (alike : TakesAlike format change) (fuel : Nat) (content : CborValue) (err : CborError) (obj : Obj) :
    format.loop fuel content err (change obj) = (format.loop fuel content err obj).map (Prod.map id change) := by
  induction fuel generalizing content err obj with
  | zero => rfl
  | succ fuel ih =>
    rw [Format.loop, Format.loop]
    split
    · rfl
    · split
      · rfl
      · rw [Option.map_bind]
        congr 1
        funext result
        obtain ⟨err, next⟩ := result
        simp only [Function.comp_apply]
        split
        · rfl
        · rw [switch_map alike, Option.map_bind, Option.bind_map]
          congr 1
          funext outcome
          cases outcome with
          | returns err obj => rfl
          | continues err content obj => exact ih content err obj

theorem decode_map (alike : TakesAlike format change) (garbage : CborValue) (buf : List UInt8) (obj : Obj) :
    format.decode garbage buf (change obj) = (format.decode garbage buf obj).map (Prod.map id change) := by
  unfold Format.decode
  simp only
  split
  · rfl
  · rw [Option.map_bind]
    congr 1
    funext result
    obtain ⟨err, content⟩ := result
    simp only [Function.comp_apply]
    split
    · rfl
    · exact loop_map alike _ _ _ _

end Object

/-- A request whose absent fields are what the variable held before. -/
def SetWIFIInfoRequest.over (request stack : SetWIFIInfoRequest) : SetWIFIInfoRequest :=
  ⟨request.ssid.or stack.ssid, request.password.or stack.password, request.token.or stack.token⟩

theorem over_takes (stack : SetWIFIInfoRequest) :
    TakesAlike SetWIFIInfoRequest.format fun request => request.over stack := by
  intro field inside content obj
  simp only [SetWIFIInfoRequest.format, List.mem_cons, List.not_mem_nil, or_false] at inside
  rcases inside with rfl | rfl | rfl
  all_goals
    simp only [Field.take, rawBytesField, bytesField, FieldType.store, Option.bind_some, itemBytes]
    split
    · rfl
    · split
      · rfl
      · rfl

theorem decode_over {garbage : CborValue} {bytes : List UInt8} {request : SetWIFIInfoRequest}
    (accepted : SetWIFIInfoRequest.format.decode garbage bytes initWifiInfoRequest = some (.noError, request))
    (stack : SetWIFIInfoRequest) : SetWIFIInfoRequest.format.decode garbage bytes stack = some (.noError, request.over stack) := by
  have started : stack = initWifiInfoRequest.over stack := rfl
  rw [started, decode_map (over_takes stack), accepted]
  rfl

section Line

/-- The words of `nmcli` for a network. -/
def connectWords (ssid password : List UInt8) : List (List UInt8) :=
  [ascii "nmcli", ascii "dev", ascii "wifi", ascii "connect", ssid, ascii "password", password, ascii "ifname", ascii "wlan0"]

/-- The bytes that double quotes and an array of 256 bytes leave as they are. -/
def Quotable (field : List UInt8) : Prop := field.length ≤ 255 ∧ 0 ∉ field ∧ Shell.literal field = true

variable {ssid password : List UInt8}

theorem connectLine_eq (ssidFits : ssid.length ≤ 255) (passwordFits : password.length ≤ 255) :
    connectLine ssid password = ascii "nmcli dev wifi connect " ++ Shell.quote :: (ssid ++ Shell.quote :: 0x20 ::
      (ascii "password " ++ Shell.quote :: (password ++ Shell.quote :: 0x20 :: ascii "ifname wlan0"))) := by
  have whole : ascii "nmcli dev wifi connect \"" ++ ssid ++ ascii "\" password \"" ++ password ++ ascii "\" ifname wlan0" =
      ascii "nmcli dev wifi connect " ++ Shell.quote :: (ssid ++ Shell.quote :: 0x20 ::
      (ascii "password " ++ Shell.quote :: (password ++ Shell.quote :: 0x20 :: ascii "ifname wlan0"))) := by
    have first : ascii "nmcli dev wifi connect \"" = ascii "nmcli dev wifi connect " ++ [Shell.quote] := by decide
    have middle : ascii "\" password \"" = Shell.quote :: 0x20 :: ascii "password " ++ [Shell.quote] := by decide
    have last : ascii "\" ifname wlan0" = Shell.quote :: 0x20 :: ascii "ifname wlan0" := by decide
    simp only [first, middle, last, List.append_assoc, List.cons_append, List.nil_append]
  rw [connectLine, whole]
  apply List.take_of_length_le
  have a : (ascii "nmcli dev wifi connect ").length = 23 := by decide
  have b : (ascii "password ").length = 9 := by decide
  have c : (ascii "ifname wlan0").length = 12 := by decide
  simp only [List.length_append, List.length_cons, a, b, c]
  omega

theorem read_connect (rest : List UInt8) : Shell.words (ascii "nmcli dev wifi connect " ++ rest) =
    Shell.Reading.read ⟨[ascii "nmcli", ascii "dev", ascii "wifi", ascii "connect"], none, .plain⟩ rest := by
  have start : (ascii "nmcli dev wifi connect ").foldlM Shell.Reading.next Shell.Reading.start =
      some ⟨[ascii "nmcli", ascii "dev", ascii "wifi", ascii "connect"], none, .plain⟩ := by decide
  rw [Shell.words, Shell.read_append, start, Option.bind_some]

theorem read_password (before : List (List UInt8)) (rest : List UInt8) :
    Shell.Reading.read ⟨before, none, .plain⟩ (ascii "password " ++ rest) =
      Shell.Reading.read ⟨before ++ [ascii "password"], none, .plain⟩ rest := by
  rw [Shell.read_append]
  rfl

theorem connectLine_words (ssidFits : Quotable ssid) (passwordFits : Quotable password) :
    Shell.words (connectLine ssid password) = some (connectWords ssid password) := by
  have blank : (0x20 : UInt8) ∈ Shell.blanks := by decide
  rw [connectLine_eq ssidFits.1 passwordFits.1, read_connect, Shell.read_quoted ssidFits.2.2 blank, read_password,
    Shell.read_quoted passwordFits.2.2 blank]
  rfl

theorem connectLine_cost {ssidWord passwordWord : List UInt8} (ssidFits : ssid.length ≤ 255) (passwordFits : password.length ≤ 255)
    (read : Shell.words (connectLine ssid password) = some (connectWords ssidWord passwordWord)) :
    ssidWord.length + passwordWord.length + ssid.count Shell.quote + password.count Shell.quote ≤
      ssid.length + password.length := by
  rw [connectLine_eq ssidFits passwordFits] at read
  have counted := Shell.quotes_read read
  have a : (ascii "nmcli dev wifi connect ").length = 23 ∧ (ascii "nmcli dev wifi connect ").count Shell.quote = 0 := by decide
  have b : (ascii "password ").length = 9 ∧ (ascii "password ").count Shell.quote = 0 := by decide
  have c : (ascii "ifname wlan0").length = 12 ∧ (ascii "ifname wlan0").count Shell.quote = 0 := by decide
  have total : ((connectWords ssidWord passwordWord).map fun word => word.length + 1).sum =
      ssidWord.length + passwordWord.length + 47 := by
    have fixed : (ascii "nmcli").length = 5 ∧ (ascii "dev").length = 3 ∧ (ascii "wifi").length = 4 ∧ (ascii "connect").length = 7 ∧
        (ascii "password").length = 8 ∧ (ascii "ifname").length = 6 ∧ (ascii "wlan0").length = 5 := by decide
    simp only [connectWords, List.map_cons, List.map_nil, List.sum_cons, List.sum_nil, fixed]
    omega
  have weight : Shell.Reading.start.weight = 0 := by decide
  have space : ((0x20 : UInt8) == Shell.quote) = false := by decide
  simp only [total, weight, List.count_append, List.count_cons, List.length_append, List.length_cons, a, b, c, beq_self_eq_true,
    if_true, space] at counted
  omega

theorem connectLine_literal (ssidFits : ssid.length ≤ 255) (passwordFits : password.length ≤ 255)
    (read : Shell.words (connectLine ssid password) = some (connectWords ssid password)) :
    Shell.literal ssid = true ∧ Shell.literal password = true := by
  have cost := connectLine_cost ssidFits passwordFits read
  have ssidPlain : Shell.quote ∉ ssid := List.count_eq_zero.mp (by omega)
  have passwordPlain : Shell.quote ∉ password := List.count_eq_zero.mp (by omega)
  have blank : (0x20 : UInt8) ∈ Shell.blanks := by decide
  rw [connectLine_eq ssidFits passwordFits, read_connect] at read
  have ssidLiteral := Shell.literal_of_read blank ssidPlain read rfl
  rw [Shell.read_quoted ssidLiteral blank, read_password] at read
  exact ⟨ssidLiteral, Shell.literal_of_read blank passwordPlain read rfl⟩

end Line

section Fields

variable {field behind written : List UInt8}

theorem printString_whole (fits : field.length ≤ 255) (nonzero : 0 ∉ field) (behind : List UInt8) :
    printString 256 field behind = some field := by
  have text : ((field ++ behind).takeWhile (· != 0)).take field.length = field := by
    rw [List.takeWhile_append_of_pos]
    · exact List.take_left' rfl
    · intro byte inside
      exact bne_iff_ne.mpr fun zero => nonzero (zero ▸ inside)
  simp only [printString, text]
  exact if_pos (by omega)

theorem printString_prefix (printed : printString 256 field behind = some written) :
    written <+: field ∧ written.length ≤ 255 ∧ 0 ∉ written := by
  simp only [printString] at printed
  split at printed
  · rename_i room
    cases printed
    refine ⟨?_, by omega, ?_⟩
    · obtain ⟨rest, text⟩ := List.takeWhile_prefix (l := field ++ behind) (· != 0)
      have whole : (field ++ behind).take field.length = field := List.take_left' rfl
      rw [← text, List.take_append] at whole
      exact ⟨_, whole⟩
    · intro inside
      have kept := List.all_eq_true.mp List.all_takeWhile 0 (List.mem_of_mem_take inside)
      exact absurd kept (by decide)
  · cases printed

end Fields


section Request

variable {garbage : CborValue} {bytes : List UInt8} {request : SetWIFIInfoRequest}

/-- The handler refuses the request and runs nothing but the lamps, or has `nmcli` called with the request's own
    bytes, whatever its variables and the heap held before. -/
def RunsExactly (garbage : CborValue) (bytes : List UInt8) (request : SetWIFIInfoRequest) : Prop :=
  ∀ stack data, stack.content = garbage → data.status = .running → getPkgFromRecvData data.recvPairingData = some bytes →
    ((handleSetWifiRequest stack data).2 ≠ 0 ∧ (handleSetWifiRequest stack data).1.status = .running ∧
        (handleSetWifiRequest stack data).1.commands = data.commands ++ ledBlinks) ∨
      ∃ ssid password line, request.ssid = some ssid ∧ request.password = some password ∧
        (handleSetWifiRequest stack data).1.commands = data.commands ++ ledBlinks ++ line :: ledOn ∧
        Shell.words line = some (connectWords ssid password)

def SetWIFIInfoRequest.Whole (request : SetWIFIInfoRequest) : Prop :=
  request.ssid.isSome ∧ request.password.isSome ∧ request.token.isSome

theorem whole_iff (request : SetWIFIInfoRequest) :
    request.Whole ↔ ¬(request.ssid.isNone || request.password.isNone || request.token.isNone) = true := by
  obtain ⟨ssid, password, token⟩ := request
  cases ssid <;> cases password <;> cases token <;> simp [SetWIFIInfoRequest.Whole]

theorem handle_connects {stack : RequestStack} {data : SetWifiData} {ssid passwd : List UInt8}
    (held : getPkgFromRecvData data.recvPairingData = some bytes) (room : bytes.length ≤ 70000)
    (accepted : SetWIFIInfoRequest.format.decode stack.content bytes stack.request = some (.noError, request))
    (whole : request.Whole)
    (printed : printField request.ssid stack.behindSsid = some ssid)
    (printed' : printField request.password stack.behindPassword = some passwd) :
    (handleSetWifiRequest stack data).1.commands = data.commands ++ ledBlinks ++ connectLine ssid passwd :: ledOn := by
  simp only [handleSetWifiRequest, held, Nat.not_lt.mpr room, if_false, accepted, (whole_iff request).mp whole, printed, printed',
    ne_eq, not_true_eq_false, Bool.false_eq_true]

theorem handle_accepted {stack : RequestStack} {data : SetWifiData} (held : getPkgFromRecvData data.recvPairingData = some bytes)
    (accepted : SetWIFIInfoRequest.format.decode stack.content bytes stack.request = some (.noError, request)) :
    (handleSetWifiRequest stack data).1.status = .faulted ∧
        (handleSetWifiRequest stack data).1.commands.length ≤ data.commands.length + 4 ∨
      bytes.length ≤ 70000 ∧ request.Whole ∧ (handleSetWifiRequest stack data).2 = 0 ∧
        ∃ ssid passwd, printField request.ssid stack.behindSsid = some ssid ∧
          printField request.password stack.behindPassword = some passwd := by
  have lamps : (data.commands ++ ledBlinks).length ≤ data.commands.length + 4 := by
    rw [List.length_append]
    exact Nat.le_refl _
  by_cases room : bytes.length ≤ 70000
  · have small := Nat.not_lt.mpr room
    by_cases whole : request.Whole
    · have logged := (whole_iff request).mp whole
      cases printed : printField request.ssid stack.behindSsid with
      | none =>
        apply Or.inl
        simp only [handleSetWifiRequest, held, small, if_false, accepted, logged, printed, ne_eq, not_true_eq_false,
          Bool.false_eq_true, true_and]
        exact lamps
      | some ssid =>
        cases printed' : printField request.password stack.behindPassword with
        | none =>
          apply Or.inl
          simp only [handleSetWifiRequest, held, small, if_false, accepted, logged, printed, printed', ne_eq, not_true_eq_false,
            Bool.false_eq_true, true_and]
          exact lamps
        | some passwd =>
          refine .inr ⟨room, whole, ?_, ssid, passwd, rfl, rfl⟩
          simp only [handleSetWifiRequest, held, small, if_false, accepted, logged, printed, printed', ne_eq, not_true_eq_false,
            Bool.false_eq_true]
    · have unset := not_not.mp ((whole_iff request).not.mp whole)
      apply Or.inl
      simp only [handleSetWifiRequest, held, small, if_false, accepted, unset, if_true, ne_eq, not_true_eq_false, true_and]
      exact lamps
  · apply Or.inl
    simp only [handleSetWifiRequest, held, Nat.not_le.mp room, if_true, true_and]
    exact Nat.le_add_right _ _

theorem field_kept {word : List UInt8} {field : Option (List UInt8)} (has : field = some word) {behind written : List UInt8}
    (printed : printField field behind = some written) : written <+: word ∧ written.length ≤ 255 ∧ 0 ∉ written := by
  subst has
  exact printString_prefix printed

def sampleData (bytes : List UInt8) : SetWifiData :=
  ⟨⟨some bytes, bytes.length, bytes.length, 0, bytes.length, .finishedSuccess⟩, 0, [], [], .running⟩

theorem sampleData_held (bytes : List UInt8) : getPkgFromRecvData (sampleData bytes).recvPairingData = some bytes := by
  simp [getPkgFromRecvData, sampleData]

theorem quotable_of_runsExactly
    (accepted : SetWIFIInfoRequest.format.decode garbage bytes initWifiInfoRequest = some (.noError, request))
    (exactly : RunsExactly garbage bytes request) : bytes.length ≤ 70000 ∧ request.token.isSome ∧ ∃ ssid password,
      request.ssid = some ssid ∧ request.password = some password ∧ Quotable ssid ∧ Quotable password := by
  let stack : RequestStack := ⟨garbage, initWifiInfoRequest, [], []⟩
  have ran := exactly stack (sampleData bytes) rfl rfl (sampleData_held bytes)
  rcases @handle_accepted _ _ stack _ (sampleData_held bytes) accepted with ⟨faulted, short⟩ | ⟨room, whole, done, ssidText,
    passwordText, printed, printed'⟩
  · rcases ran with ⟨_, running, _⟩ | ⟨_, _, _, _, _, commands, _⟩
    · cases faulted.symm.trans running
    · rw [commands] at short
      have lamps : ledBlinks.length = 4 ∧ ledOn.length = 4 := by decide
      simp only [List.length_append, List.length_cons, lamps] at short
      omega
  · rcases ran with ⟨refused, _⟩ | ⟨ssid, password, line, hasSsid, hasPassword, commands, words⟩
    · exact absurd done refused
    · rw [handle_connects (sampleData_held bytes) room accepted whole printed printed'] at commands
      obtain ⟨rfl, _⟩ := List.cons.inj (List.append_cancel_left commands)
      obtain ⟨ssidPart, ssidFits, ssidNonzero⟩ := field_kept hasSsid printed
      obtain ⟨passwordPart, passwordFits, passwordNonzero⟩ := field_kept hasPassword printed'
      -- The words cost the line its quotes, so nothing of the fields was cut.
      have cost := connectLine_cost ssidFits passwordFits words
      have ssidLength := ssidPart.length_le
      have passwordLength := passwordPart.length_le
      cases ssidPart.eq_of_length (by omega)
      cases passwordPart.eq_of_length (by omega)
      obtain ⟨ssidLiteral, passwordLiteral⟩ := connectLine_literal ssidFits passwordFits words
      exact ⟨room, whole.2.2, ssidText, passwordText, hasSsid, hasPassword, ⟨ssidFits, ssidNonzero, ssidLiteral⟩,
        passwordFits, passwordNonzero, passwordLiteral⟩

end Request

/-- An accepted request is applied as it is exactly if it has a token and both strings, these of at most 255
    bytes, without a NUL and without what is special in double quotes. -/
theorem wifi_command_exact_iff {garbage : CborValue} {bytes : List UInt8} {request : SetWIFIInfoRequest}
    (accepted : SetWIFIInfoRequest.format.decode garbage bytes initWifiInfoRequest = some (.noError, request)) :
    RunsExactly garbage bytes request ↔ bytes.length ≤ 70000 ∧ request.token.isSome ∧ ∃ ssid password,
      request.ssid = some ssid ∧ request.password = some password ∧ Quotable ssid ∧ Quotable password := by
  constructor
  · exact quotable_of_runsExactly accepted
  · rintro ⟨room, hasToken, ssid, password, hasSsid, hasPassword, ssidFits, passwordFits⟩ stack data rfl _ held
    refine .inr ⟨ssid, password, _, hasSsid, hasPassword, ?_, connectLine_words ssidFits passwordFits⟩
    apply handle_connects held room (decode_over accepted stack.request)
    · simp [SetWIFIInfoRequest.over, SetWIFIInfoRequest.Whole, hasSsid, hasPassword, hasToken]
    · rw [SetWIFIInfoRequest.over, hasSsid]
      exact printString_whole ssidFits.1 ssidFits.2.1 _
    · rw [SetWIFIInfoRequest.over, hasPassword]
      exact printString_whole passwordFits.1 passwordFits.2.1 _

def noContent : CborValue := ⟨[], 0, 0, .invalid, false, false, false⟩

/-- A map with the id and a name, a password and a token of one-byte headers. -/
def wifiRequestBytes (ssid password token : List UInt8) : List UInt8 :=
  [0xa4, 0x00, 0x18, 0x51, 0x0b, 0x40 + UInt8.ofNat ssid.length] ++ ssid ++ [0x0c, 0x40 + UInt8.ofNat password.length] ++
    password ++ [0x0d, 0x40 + UInt8.ofNat token.length] ++ token

theorem plain_request_exact : RunsExactly noContent (wifiRequestBytes (ascii "home net") (ascii "pass\\word") (ascii "t"))
    ⟨some (ascii "home net"), some (ascii "pass\\word"), some (ascii "t")⟩ := by
  have accepted : SetWIFIInfoRequest.format.decode noContent
      (wifiRequestBytes (ascii "home net") (ascii "pass\\word") (ascii "t")) initWifiInfoRequest =
        some (.noError, ⟨some (ascii "home net"), some (ascii "pass\\word"), some (ascii "t")⟩) := by decide +kernel
  apply (wifi_command_exact_iff accepted).mpr
  exact ⟨by decide, rfl, _, _, rfl, rfl, ⟨by decide, by decide, by decide⟩, by decide, by decide, by decide⟩

/-- A name that the shell replaces by what a command prints. -/
theorem substituted_name :
    SetWIFIInfoRequest.format.decode noContent (wifiRequestBytes (ascii "$(reboot)") (ascii "x") (ascii "t"))
        initWifiInfoRequest = some (.noError, ⟨some (ascii "$(reboot)"), some (ascii "x"), some (ascii "t")⟩) ∧
      ¬RunsExactly noContent (wifiRequestBytes (ascii "$(reboot)") (ascii "x") (ascii "t"))
        ⟨some (ascii "$(reboot)"), some (ascii "x"), some (ascii "t")⟩ := by
  have accepted : SetWIFIInfoRequest.format.decode noContent
      (wifiRequestBytes (ascii "$(reboot)") (ascii "x") (ascii "t")) initWifiInfoRequest =
        some (.noError, ⟨some (ascii "$(reboot)"), some (ascii "x"), some (ascii "t")⟩) := by decide +kernel
  refine ⟨accepted, ?_⟩
  intro exactly
  obtain ⟨_, _, ssid, _, hasSsid, _, quotable, _⟩ := quotable_of_runsExactly accepted exactly
  cases hasSsid
  exact absurd quotable.2.2 (by decide)

end Bridge
