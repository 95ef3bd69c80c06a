import Bridge.Messages.Wire

namespace Bridge

open ByteCounter Cbor

section Reject

variable {Obj Other : Type}

theorem decode_reject (format : Format Obj) {input : List UInt8} {id : Int} {rest : List (Item × Item)}
    (opens : Opens input (flat ((.int 0, .int id) :: rest)))
    (other : Int.bmod id (2 ^ 64) ≠ format.acceptedId) (garbage : CborValue) (obj : Obj) :
    format.decode garbage input obj = some (.invalidMsgIdValue, obj) := by
  obtain ⟨it, content, after, init, opened, stream⟩ := openContent_opens opens
  rw [Format.decode, init]
  simp only [ne_eq, not_true_eq_false, if_false, opened, Option.bind_some]
  cases stream with
  | @next _ second bytes tail _ _ _ more prepared start scalar moved stream =>
    cases stream with
    | @next _ third bytes' tail' _ _ _ more' prepared' start' scalar' moved' stream' =>
      obtain ⟨type, signed, _, _⟩ := cursor_int prepared start scalar
      have zero : Int.bmod 0 (2 ^ 64) = 0 := by decide
      have idCase : isIdCase 0 (.int id) = true := rfl
      have different : ¬(itemInt (.int id)).map (Int.bmod · (2 ^ 64)) = some (format.acceptedId : Int) := by
        simpa [itemInt] using other
      rw [Format.loop, if_neg (by simp [CborValue.atEnd, more]), if_neg (by simp [type]),
        advanceFixed_int prepared start scalar more, moved, Option.bind_some]
      simp only [ne_eq, not_true_eq_false, if_false]
      rw [signed, zero, switch_scalar prepared' start' scalar' more' moved', if_pos idCase, if_neg different]
      rfl

theorem foreign_reject {format : Format Obj} (lawful : format.Lawful) {obj : Obj} (typed : format.WellTyped obj)
    (sized : format.Sized (2 ^ 64) obj) {other : Format Other} (distinct : format.msgId ≠ other.acceptedId)
    (garbage : CborValue) (retval : Other) :
    other.decode garbage (format.wire obj) retval = some (.invalidMsgIdValue, retval) := by
  have opens : Opens (format.wire obj ++ []) (flat (format.mapOf obj)) := .map (wire_box lawful typed sized)
  rw [List.append_nil] at opens
  apply decode_reject other opens
  rw [tag_bmod lawful.ids.1]
  exact Int.ofNat_inj.not.mpr distinct

end Reject

def setWifiInfoRequestSSID (info : SetWIFIInfoRequest) (ssid : List UInt8) : SetWIFIInfoRequest :=
  { info with ssid := some ssid }

def setWifiInfoRequestToken (info : SetWIFIInfoRequest) (token : List UInt8) : SetWIFIInfoRequest :=
  { info with token := some token }

def setWifiInfoRequestPassword (info : SetWIFIInfoRequest) (password : List UInt8) : SetWIFIInfoRequest :=
  { info with password := some password }

def initWifiInfoRequest : SetWIFIInfoRequest := ⟨none, none, none⟩

def wifiInfoRequest (ssid password token : List UInt8) : SetWIFIInfoRequest :=
  setWifiInfoRequestToken (setWifiInfoRequestPassword (setWifiInfoRequestSSID initWifiInfoRequest ssid) password) token

/-- In a buffer of this length the request is encoded, and decoded into the same object. -/
def SetWIFIInfoRequest.RoundTripsIn (length : Nat) (request : SetWIFIInfoRequest) : Prop :=
  ∃ bytes, format.encode request length = some bytes ∧
    ∀ garbage, format.decode garbage bytes initWifiInfoRequest = some (.noError, request)

theorem wifi_info_typed (request : SetWIFIInfoRequest) : SetWIFIInfoRequest.format.WellTyped request := by
  simp [Format.WellTyped, SetWIFIInfoRequest.format, rawBytesField, bytesField, FieldType.admits]

theorem wifi_info_rejected {request : SetWIFIInfoRequest} (sized : SetWIFIInfoRequest.format.Sized (2 ^ 64) request)
    {length : Nat} {bytes : List UInt8} (encoded : SetWIFIInfoRequest.format.encode request length = some bytes)
    (garbage : CborValue) (retval : SetWIFIInfoRequest) :
    SetWIFIInfoRequest.format.decode garbage bytes retval = some (.invalidMsgIdValue, retval) := by
  rw [encode_eq SetWIFIInfoRequest.format_lawful] at encoded
  split at encoded
  · cases encoded
    exact foreign_reject SetWIFIInfoRequest.format_lawful (wifi_info_typed request) sized (by decide) garbage retval
  · cases encoded

theorem wifi_info_sized {ssid password token : List UInt8} (ssidSize : ssid.length < 2 ^ 64)
    (passwordSize : password.length < 2 ^ 64) (tokenSize : token.length < 2 ^ 64) :
    SetWIFIInfoRequest.format.Sized (2 ^ 64) (wifiInfoRequest ssid password token) := by
  simp only [Format.Sized, itemSized, SetWIFIInfoRequest.format, rawBytesField, bytesField, wifiInfoRequest,
    setWifiInfoRequestToken, setWifiInfoRequestPassword, setWifiInfoRequestSSID, List.forall_mem_cons]
  refine ⟨?_, ?_, ?_, by simp⟩
  · rintro item ⟨⟩ content ⟨⟩
    exact ssidSize
  · rintro item ⟨⟩ content ⟨⟩
    exact passwordSize
  · rintro item ⟨⟩ content ⟨⟩
    exact tokenSize

theorem wifi_info_not_round_trip {ssid password token : List UInt8} (ssidSize : ssid.length < 2 ^ 64)
    (passwordSize : password.length < 2 ^ 64) (tokenSize : token.length < 2 ^ 64) (length : Nat) :
    ¬(wifiInfoRequest ssid password token).RoundTripsIn length := by
  intro trip
  obtain ⟨bytes, encoded, decoded⟩ := trip
  have garbage : CborValue := ⟨[], 0, 0, .invalid, false, false, false⟩
  have rejected := wifi_info_rejected (wifi_info_sized ssidSize passwordSize tokenSize) encoded garbage
    initWifiInfoRequest
  rw [decoded garbage] at rejected
  cases rejected

/-- No request comes back, in whatever buffer: the encoder writes an id that the decoder refuses. -/
theorem wifi_info_never_round_trips (ssid password token : List UInt8) (ssidSize : ssid.length < 2 ^ 64)
    (passwordSize : password.length < 2 ^ 64) (tokenSize : token.length < 2 ^ 64) :
    (∀ length, ¬(wifiInfoRequest ssid password token).RoundTripsIn length) ∧
    ∃ room, ∀ length, room ≤ length → ∃ bytes,
      SetWIFIInfoRequest.format.encode (wifiInfoRequest ssid password token) length = some bytes ∧
      ∀ garbage retval, SetWIFIInfoRequest.format.decode garbage bytes retval = some (.invalidMsgIdValue, retval) := by
  constructor
  · exact wifi_info_not_round_trip ssidSize passwordSize tokenSize
  · refine ⟨(SetWIFIInfoRequest.format.wire (wifiInfoRequest ssid password token)).length, fun length enough => ?_⟩
    have encoded : SetWIFIInfoRequest.format.encode (wifiInfoRequest ssid password token) length =
        some (SetWIFIInfoRequest.format.wire (wifiInfoRequest ssid password token)) := by
      rw [encode_eq SetWIFIInfoRequest.format_lawful, if_pos ⟨rfl, enough⟩]
    exact ⟨_, encoded, wifi_info_rejected (wifi_info_sized ssidSize passwordSize tokenSize) encoded⟩

theorem wifi_info_one_byte_strings :
    (∀ length, ¬(wifiInfoRequest [1] [2] [3]).RoundTripsIn length) ∧
    ∃ room, ∀ length, room ≤ length → ∃ bytes,
      SetWIFIInfoRequest.format.encode (wifiInfoRequest [1] [2] [3]) length = some bytes ∧
      ∀ garbage retval, SetWIFIInfoRequest.format.decode garbage bytes retval = some (.invalidMsgIdValue, retval) :=
  wifi_info_never_round_trips [1] [2] [3] (by decide) (by decide) (by decide)

/-- "ab", "cd" and "ef". -/
theorem wifi_info_request_lost :
    SetWIFIInfoRequest.format.encode (wifiInfoRequest [97, 98] [99, 100] [101, 102]) 100 =
      some [164, 0, 24, 51, 11, 66, 97, 98, 12, 66, 99, 100, 13, 66, 101, 102] ∧
    ¬(wifiInfoRequest [97, 98] [99, 100] [101, 102]).RoundTripsIn 100 :=
  ⟨by decide, wifi_info_not_round_trip (by decide) (by decide) (by decide) 100⟩

inductive MessageKind
  | createPin
  | deletePin
  | pairingStep2
  | pairingStep3
  | pairingStep4
  | pairingCommit
  | guestConnectionStep4
  | crypt
  | setWifiInfo
deriving DecidableEq, Repr

@[reducible]
def MessageKind.Message : MessageKind → Type
  | .createPin => CreatePinRequest
  | .deletePin => DeletePinRequest
  | .pairingStep2 => PairingStep2
  | .pairingStep3 => PairingStep3
  | .pairingStep4 => PairingStep4
  | .pairingCommit => PairingCommit
  | .guestConnectionStep4 => GuestConnectionStep4
  | .crypt => CryptObject
  | .setWifiInfo => SetWIFIInfoRequest

def MessageKind.format : (kind : MessageKind) → Format kind.Message
  | .createPin => CreatePinRequest.format
  | .deletePin => DeletePinRequest.format
  | .pairingStep2 => PairingStep2.format
  | .pairingStep3 => PairingStep3.format
  | .pairingStep4 => PairingStep4.format
  | .pairingCommit => PairingCommit.format
  | .guestConnectionStep4 => GuestConnectionStep4.format
  | .crypt => CryptObject.format
  | .setWifiInfo => SetWIFIInfoRequest.format

theorem MessageKind.format_lawful (kind : MessageKind) : kind.format.Lawful := by
  cases kind with
  | createPin => exact CreatePinRequest.format_lawful
  | deletePin => exact DeletePinRequest.format_lawful
  | pairingStep2 => exact PairingStep2.format_lawful
  | pairingStep3 => exact PairingStep3.format_lawful
  | pairingStep4 => exact PairingStep4.format_lawful
  | pairingCommit => exact PairingCommit.format_lawful
  | guestConnectionStep4 => exact GuestConnectionStep4.format_lawful
  | crypt => exact CryptObject.format_lawful
  | setWifiInfo => exact SetWIFIInfoRequest.format_lawful

theorem MessageKind.ids_clash {x y : MessageKind} (distinct : x ≠ y) (same : y.format.msgId = x.format.acceptedId) :
    x = .crypt ∧ y = .setWifiInfo := by
  cases x <;> cases y <;>
    first | exact absurd rfl distinct | exact ⟨rfl, rfl⟩ | exact absurd same (by decide)

def MessageKind.Rejects (x y : MessageKind) (obj : y.Message) : Prop :=
  ∀ length bytes, y.format.encode obj length = some bytes → ∀ garbage, ∃ err, err ≠ .noError ∧
    x.format.decode garbage bytes x.format.init = some (err, x.format.init)

/-- The envelope that the bytes of a request make up too. -/
def SetWIFIInfoRequest.asCrypt (request : SetWIFIInfoRequest) : CryptObject :=
  ⟨some (request.ssid.getD []), some (request.password.getD []), some (request.token.getD [])⟩

theorem wifi_info_wire (request : SetWIFIInfoRequest) :
    SetWIFIInfoRequest.format.wire request = CryptObject.format.wire request.asCrypt := by
  obtain ⟨ssid, password, token⟩ := request
  cases ssid <;> cases password <;> cases token <;> rfl

theorem wifi_info_read_as_crypt {request : SetWIFIInfoRequest}
    (sized : SetWIFIInfoRequest.format.Sized (2 ^ 64) request) (garbage : CborValue) :
    CryptObject.format.decode garbage (SetWIFIInfoRequest.format.wire request) CryptObject.format.init =
      some (.noError, request.asCrypt) := by
  have empty : ([] : List UInt8).length < 2 ^ 64 := by decide
  rw [wifi_info_wire]
  apply decode_wire CryptObject.format_lawful
  · simp [Format.WellTyped, CryptObject.format, rawBytesField, bytesField, FieldType.admits]
  · obtain ⟨ssid, password, token⟩ := request
    cases ssid <;> cases password <;> cases token <;>
      simp_all [Format.Sized, itemSized, CryptObject.format, SetWIFIInfoRequest.format, rawBytesField, bytesField,
        SetWIFIInfoRequest.asCrypt]
  · simp [CryptObject.format, rawBytesField, bytesField, SetWIFIInfoRequest.asCrypt]
  · rfl

theorem wifi_info_taken {request : SetWIFIInfoRequest} (valid : SetWIFIInfoRequest.format.isValid request = true)
    (sized : SetWIFIInfoRequest.format.Sized (2 ^ 64) request) :
    ¬MessageKind.Rejects .crypt .setWifiInfo request := by
  intro rejects
  have encoded : SetWIFIInfoRequest.format.encode request (SetWIFIInfoRequest.format.wire request).length =
      some (SetWIFIInfoRequest.format.wire request) := by
    rw [encode_eq SetWIFIInfoRequest.format_lawful, if_pos ⟨valid, Nat.le_refl _⟩]
  obtain ⟨err, failed, decoded⟩ := rejects _ _ encoded ⟨[], 0, 0, .invalid, false, false, false⟩
  have taken := wifi_info_read_as_crypt sized ⟨[], 0, 0, .invalid, false, false, false⟩
  rw [show CryptObject.format = MessageKind.format .crypt from rfl, decoded] at taken
  exact failed (congrArg Prod.fst (Option.some.inj taken))

/-- The kinds are told apart, except that the envelope's decoder takes the wifi settings for its own. -/
theorem kinds_never_confused (x y : MessageKind) (distinct : x ≠ y) (obj : y.Message)
    (valid : y.format.isValid obj = true) (typed : y.format.WellTyped obj) (sized : y.format.Sized (2 ^ 64) obj) :
    MessageKind.Rejects x y obj ↔ ¬(x = .crypt ∧ y = .setWifiInfo) := by
  constructor
  · rintro rejects ⟨rfl, rfl⟩
    exact wifi_info_taken valid sized rejects
  · intro apart length bytes encoded garbage
    have ids : y.format.msgId ≠ x.format.acceptedId := fun same => apart (MessageKind.ids_clash distinct same)
    rw [encode_eq y.format_lawful] at encoded
    split at encoded
    · cases encoded
      refine ⟨.invalidMsgIdValue, by decide, ?_⟩
      exact foreign_reject y.format_lawful typed sized ids garbage _
    · cases encoded

theorem kinds_never_confused_commit :
    MessageKind.Rejects .pairingStep2 .pairingCommit ⟨some 70000⟩ ↔
      ¬((MessageKind.pairingStep2 = .crypt) ∧ (MessageKind.pairingCommit = .setWifiInfo)) := by
  apply kinds_never_confused .pairingStep2 .pairingCommit (by decide) ⟨some 70000⟩ rfl
  · simp [MessageKind.format, Format.WellTyped, PairingCommit.format, uintField, FieldType.admits]
    exact ⟨70000, rfl, by decide⟩
  · simp [MessageKind.format, Format.Sized, itemSized, PairingCommit.format, uintField]

theorem wifi_info_taken_for_crypt :
    ¬MessageKind.Rejects .crypt .setWifiInfo (wifiInfoRequest [97, 98] [99, 100] [101, 102]) :=
  wifi_info_taken rfl (wifi_info_sized (by decide) (by decide) (by decide))

end Bridge
