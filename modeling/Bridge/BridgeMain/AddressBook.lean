import Bridge.Ble.Discovery

namespace Bridge

open CString (Text)

/-- `ble_addr_t` as bytes: nothing says that the two arrays hold a NUL. -/
structure BleRecord where
  name : Vector UInt8 32
  addr : Vector UInt8 32
deriving DecidableEq, Repr

structure BleList where
  bleList : List BleRecord
  bleListN : UInt8
  room : bleListN.toNat ≤ bleList.length

def BleList.records (si : BleList) : List BleRecord := si.bleList.take si.bleListN.toNat

def bleRecord (name addr : Text) : Option BleRecord := do
  let size ← CString.strlen name.array
  let name ← CString.copy (Vector.replicate 32 0) name.array size
  let size ← CString.strlen addr.array
  let addr ← CString.copy (Vector.replicate 32 0) addr.array size
  return ⟨name, addr⟩

def BleList.add (si : BleList) (record : BleRecord) : BleList where
  bleList := si.records ++ [record]
  bleListN := si.bleListN + 1
  room := by
    have counted : si.records.length = si.bleListN.toNat := List.length_take_of_le si.room
    rw [List.length_append, counted, UInt8.toNat_add]
    exact Nat.mod_le _ _

def bleDiscoveredCb (si : BleList) (ad : Advertisement) : Option BleList :=
  match ad.name with
  | some name => (bleRecord name ad.addr).map si.add
  | none => some si

/-- A scan that calls back for these advertisements; the block of the scan before is used again. -/
def scanBle (si : BleList) (ads : List Advertisement) : Option BleList :=
  ads.foldlM bleDiscoveredCb { si with bleListN := 0, room := Nat.zero_le _ }

def findAddr (lockId : List UInt8) : List BleRecord → Option (Option (Vector UInt8 32))
  | [] => some none
  | ble :: rest => (CString.equal lockId ble.name.toList).bind fun same =>
    if same then some (some ble.addr) else findAddr lockId rest

def BleList.getAddrBle (si : BleList) (lockId : List UInt8) : Option (Option (Vector UInt8 32)) := findAddr lockId si.records

structure Device where
  name : Text
  addr : Text
deriving DecidableEq, Repr

def heard (ads : List Advertisement) : List Device := ads.filterMap fun ad => ad.name.map fun name => ⟨name, ad.addr⟩

/-- Nothing is written outside of a field, each name is found with an address that came under it, and the count is that
    of the records, one for each named callback. -/
def AddressesKept (si : BleList) (ads : List Advertisement) : Prop := ∃ si', scanBle si ads = some si' ∧
  (∀ device ∈ heard ads, ∃ found addr, si'.getAddrBle device.name.array = some (some found) ∧
    CString.chars found.toList = some addr.bytes ∧ ⟨device.name, addr⟩ ∈ heard ads) ∧
  si'.bleListN.toNat = (heard ads).length ∧ si'.records.length = (heard ads).length

/-- There are at most 255 devices, their names leave room for a NUL, their addresses fit, and the first address under
    a name leaves room for a NUL too. -/
structure AddressesFit (devices : List Device) : Prop where
  few : devices.length ≤ 255
  names : ∀ device ∈ devices, device.name.bytes.length ≤ 31
  addrs : ∀ device ∈ devices, device.addr.bytes.length ≤ 32
  first : ∀ name device, devices.find? (fun device => device.name == name) = some device → device.addr.bytes.length ≤ 31

section Scanning

structure BleRecord.Holds (record : BleRecord) (device : Device) : Prop where
  name : CString.chars record.name.toList = if device.name.bytes.length ≤ 31 then some device.name.bytes else none
  addr : CString.chars record.addr.toList = if device.addr.bytes.length ≤ 31 then some device.addr.bytes else none
  shortName : device.name.bytes.length ≤ 32
  shortAddr : device.addr.bytes.length ≤ 32

theorem copy_text {text : Text} (fits : text.bytes.length ≤ 32) : ∃ field : Vector UInt8 32,
    CString.copy (Vector.replicate 32 0) text.array text.bytes.length = some field ∧
      CString.chars field.toList = if text.bytes.length ≤ 31 then some text.bytes else none := by
  have held : text.bytes.length ≤ text.array.length := by simp [Text.array]
  rcases CString.copy_some (Vector.replicate 32 0) fits held with ⟨field, done, bytes⟩
  refine ⟨field, done, ?_⟩
  have whole : text.array.take text.bytes.length = text.bytes := List.take_left' rfl
  rw [bytes, whole]
  split
  · rename_i short
    have cleared : (Vector.replicate 32 (0 : UInt8)).toList.drop text.bytes.length =
        0 :: List.replicate (31 - text.bytes.length) 0 := by
      rw [Vector.toList_replicate, List.drop_replicate, ← List.replicate_succ]
      congr 1
      omega
    rw [cleared]
    exact CString.chars_append text.nonzero _
  · rename_i long
    rw [List.drop_of_length_le (by simp only [Vector.length_toList]; omega), List.append_nil, CString.chars_eq,
      if_neg text.nonzero]

theorem strlen_text (text : Text) : CString.strlen text.array = some text.bytes.length := by
  rw [CString.strlen, text.chars_eq]
  rfl

theorem bleRecord_holds {device : Device} (name : device.name.bytes.length ≤ 32) (addr : device.addr.bytes.length ≤ 32) :
    ∃ record, bleRecord device.name device.addr = some record ∧ record.Holds device := by
  rcases copy_text name with ⟨names, copied, nameIs⟩
  rcases copy_text addr with ⟨addrs, placed, addrIs⟩
  refine ⟨⟨names, addrs⟩, ?_, ⟨nameIs, addrIs, name, addr⟩⟩
  simp only [bleRecord, strlen_text, copied, placed, Option.bind_eq_bind, Option.bind_some, Option.pure_def]

theorem bleRecord_some {device : Device} {record : BleRecord} (made : bleRecord device.name device.addr = some record) :
    record.Holds device := by
  by_cases name : device.name.bytes.length ≤ 32
  · by_cases addr : device.addr.bytes.length ≤ 32
    · rcases bleRecord_holds name addr with ⟨record', made', holds⟩
      cases made.symm.trans made'
      exact holds
    · rcases copy_text name with ⟨names, copied, _⟩
      simp only [bleRecord, strlen_text, copied, CString.copy_none _ (Nat.not_le.mp addr), Option.bind_eq_bind,
        Option.bind_some, Option.bind_none, reduceCtorEq] at made
  · rw [bleRecord, strlen_text, Option.bind_eq_bind, Option.bind_some, CString.copy_none _ (Nat.not_le.mp name)] at made
    cases made

theorem BleList.add_records (si : BleList) (record : BleRecord) (few : si.bleListN.toNat < 255) :
    (si.add record).records = si.records ++ [record] ∧ (si.add record).bleListN.toNat = si.bleListN.toNat + 1 := by
  have counted : si.records.length = si.bleListN.toNat := List.length_take_of_le si.room
  have next : (si.bleListN + 1).toNat = si.bleListN.toNat + 1 := by
    rw [UInt8.toNat_add]
    exact Nat.mod_eq_of_lt (by simp only [UInt8.toNat_one]; omega)
  refine ⟨?_, next⟩
  rw [records, add, next]
  apply List.take_of_length_le
  rw [List.length_append, counted, List.length_singleton]

theorem scanBle_snoc (si : BleList) (ads : List Advertisement) (ad : Advertisement) :
    scanBle si (ads ++ [ad]) = (scanBle si ads).bind fun si' => bleDiscoveredCb si' ad := by
  simp only [scanBle, List.foldlM_append, Option.bind_eq_bind, List.foldlM_cons, List.foldlM_nil, Option.pure_def,
    Option.bind_fun_some]

theorem heard_snoc (ads : List Advertisement) (ad : Advertisement) :
    heard (ads ++ [ad]) = heard ads ++ (ad.name.map fun name => (⟨name, ad.addr⟩ : Device)).toList := by
  rw [heard, List.filterMap_append, ← heard]
  congr 1

theorem scanBle_stores {si si' : BleList} {ads : List Advertisement} (done : scanBle si ads = some si') :
    si'.bleListN = UInt8.ofNat (heard ads).length ∧
      ((heard ads).length ≤ 255 → List.Forall₂ BleRecord.Holds si'.records (heard ads)) := by
  induction ads using List.reverseRecOn generalizing si' with
  | nil =>
    cases done
    exact ⟨rfl, fun _ => List.Forall₂.nil⟩
  | append_singleton ads ad ih =>
    rw [scanBle_snoc] at done
    rcases Option.bind_eq_some_iff.mp done with ⟨before, earlier, stepped⟩
    rcases ih earlier with ⟨count, stored⟩
    rw [heard_snoc]
    rw [bleDiscoveredCb] at stepped
    cases given : ad.name with
    | none =>
      simp only [given, Option.some.injEq] at stepped
      subst stepped
      simpa using ⟨count, stored⟩
    | some name =>
      simp only [given] at stepped
      rcases Option.map_eq_some_iff.mp stepped with ⟨record, made, rfl⟩
      simp only [Option.map_some, Option.toList_some, List.length_append, List.length_singleton]
      constructor
      · show before.bleListN + 1 = _
        rw [count, UInt8.ofNat_add]
        rfl
      · intro few
        have counted : before.bleListN.toNat = (heard ads).length := by
          rw [count]
          exact UInt8.toNat_ofNat_of_lt' (by simp only [UInt8.size]; omega)
        rw [(before.add_records record (by omega)).1]
        have last : record.Holds ⟨name, ad.addr⟩ := bleRecord_some made
        exact List.rel_append (stored (by omega)) (List.Forall₂.cons last List.Forall₂.nil)

theorem scanBle_returns (si : BleList) {ads : List Advertisement}
    (fits : ∀ device ∈ heard ads, device.name.bytes.length ≤ 32 ∧ device.addr.bytes.length ≤ 32) :
    ∃ si', scanBle si ads = some si' := by
  induction ads using List.reverseRecOn with
  | nil => exact ⟨_, rfl⟩
  | append_singleton ads ad ih =>
    rw [heard_snoc, List.forall_mem_append] at fits
    rcases ih fits.1 with ⟨before, earlier⟩
    rw [scanBle_snoc, earlier, Option.bind_some, bleDiscoveredCb]
    cases given : ad.name with
    | none => exact ⟨before, rfl⟩
    | some name =>
      have last := fits.2 ⟨name, ad.addr⟩ (by simp [given])
      rcases bleRecord_holds last.1 last.2 with ⟨record, made, _⟩
      exact ⟨before.add record, by simp only [made, Option.map_some]⟩

theorem findAddr_found {lockId : List UInt8} {records : List BleRecord} {found : Vector UInt8 32}
    (lookup : findAddr lockId records = some (some found)) :
    ∃ record ∈ records, ∃ string, CString.chars lockId = some string ∧ CString.chars record.name.toList = some string := by
  induction records with
  | nil => cases lookup
  | cons record rest ih =>
    rw [findAddr] at lookup
    rcases Option.bind_eq_some_iff.mp lookup with ⟨same, compared, lookup⟩
    cases same with
    | true => exact ⟨record, List.mem_cons_self, CString.equal_true compared⟩
    | false =>
      rcases ih lookup with ⟨record', inside, found⟩
      exact ⟨record', List.mem_cons_of_mem _ inside, found⟩

theorem findAddr_first {records : List BleRecord} {devices : List Device} (stored : List.Forall₂ BleRecord.Holds records devices)
    (names : ∀ device ∈ devices, device.name.bytes.length ≤ 31) {name : Text} {device : Device}
    (first : devices.find? (fun device => device.name == name) = some device) :
    ∃ record : BleRecord, findAddr name.array records = some (some record.addr) ∧ record.Holds device := by
  induction stored with
  | nil => cases first
  | @cons record head records rest holds stored ih =>
    rw [List.forall_mem_cons] at names
    have field : CString.chars record.name.toList = some head.name.bytes := by rw [holds.name, if_pos names.1]
    have compared := CString.equal_strings name.chars_eq field
    rw [findAddr, compared, Option.bind_some]
    by_cases same : head.name = name
    · rw [List.find?_cons_of_pos (by simpa using same)] at first
      cases first
      exact ⟨record, by rw [if_pos (decide_eq_true (congrArg Text.bytes same.symm))], holds⟩
    · rw [List.find?_cons_of_neg (by simpa using same)] at first
      have differ : decide (name.bytes = head.name.bytes) = false := decide_eq_false fun bytes => same (text_ext bytes.symm)
      rw [differ]
      exact ih names.2 first

theorem AddressesKept.fit {si : BleList} {ads : List Advertisement} (kept : AddressesKept si ads) :
    AddressesFit (heard ads) := by
  rcases kept with ⟨si', done, finds, counted, _⟩
  rcases scanBle_stores done with ⟨_, stores⟩
  have few : (heard ads).length ≤ 255 := by
    have byte := UInt8.toNat_lt si'.bleListN
    omega
  have stored := stores few
  have names : ∀ device ∈ heard ads, device.name.bytes.length ≤ 31 := by
    intro device listed
    rcases finds device listed with ⟨found, _, lookup, _⟩
    rcases findAddr_found lookup with ⟨record, _, string, read, read'⟩
    cases device.name.chars_eq.symm.trans read
    have short := CString.chars_lt read'
    rw [Vector.length_toList] at short
    omega
  constructor
  case few => exact few
  case names => exact names
  case addrs =>
    have short := stored.flip.imp fun device (record : BleRecord) (holds : record.Holds device) => And.intro holds.shortAddr trivial
    exact ((List.forall₂_and_left _ _).mp short).1
  case first =>
    intro name device first
    have listed := List.mem_of_find?_eq_some first
    have named : device.name = name := by simpa using List.find?_some first
    rcases finds device listed with ⟨found, addr, lookup, read, _⟩
    rcases findAddr_first stored names first with ⟨record, lookup', holds⟩
    rw [named] at lookup
    cases lookup.symm.trans lookup'
    by_contra long
    rw [holds.addr, if_neg long] at read
    cases read

theorem AddressesFit.kept {ads : List Advertisement} (fit : AddressesFit (heard ads)) (si : BleList) : AddressesKept si ads := by
  have fits : ∀ device ∈ heard ads, device.name.bytes.length ≤ 32 ∧ device.addr.bytes.length ≤ 32 :=
    fun device listed => ⟨(fit.names device listed).trans (by decide), fit.addrs device listed⟩
  rcases scanBle_returns si fits with ⟨si', done⟩
  rcases scanBle_stores done with ⟨count, stores⟩
  have stored := stores fit.few
  have few := fit.few
  refine ⟨si', done, ?_, ?_, stored.length_eq⟩
  · intro device listed
    have some : ((heard ads).find? fun other => other.name == device.name).isSome = true :=
      List.find?_isSome.mpr ⟨device, listed, beq_self_eq_true _⟩
    rcases Option.isSome_iff_exists.mp some with ⟨first, found⟩
    rcases findAddr_first stored fit.names found with ⟨record, lookup, holds⟩
    have named : first.name = device.name := by simpa using List.find?_some found
    refine ⟨record.addr, first.addr, lookup, ?_, ?_⟩
    · rw [holds.addr, if_pos (fit.first _ _ found)]
    · rw [← named]
      exact List.mem_of_find?_eq_some found
  · rw [count]
    exact UInt8.toNat_ofNat_of_lt' (by simp only [UInt8.size]; omega)

end Scanning

/-- The address book keeps every device exactly if the devices that were heard fit it, whatever the scan before has left. -/
theorem addresses_kept_iff (si : BleList) (ads : List Advertisement) : AddressesKept si ads ↔ AddressesFit (heard ads) :=
  ⟨AddressesKept.fit, fun fit => fit.kept si⟩

def BleAddr.record (ble : BleAddr) : BleRecord := ⟨ble.name.array, ble.addr.array⟩

/-- On records that hold a NUL in each field this is the lookup of `SysInfo`. -/
theorem findAddr_record (lockId : List UInt8) (bleList : List BleAddr) :
    findAddr lockId (bleList.map BleAddr.record) = (getAddrBle lockId bleList).map (Option.map CString.Buffer.array) := by
  induction bleList with
  | nil => rfl
  | cons ble rest ih =>
    rw [List.map_cons, findAddr, getAddrBle, ih]
    show Option.bind (CString.equal lockId ble.name.array.toList) _ = _
    cases CString.equal lockId ble.name.array.toList with
    | none => rfl
    | some same => cases same <;> rfl

def BufferedAs (bleList : List BleAddr) (devices : List Device) : Prop :=
  List.Forall₂ (fun ble device => ble.name.string = device.name.bytes ∧ ble.addr.string = device.addr.bytes) bleList devices

theorem bufferedAs_of_stored {records : List BleRecord} {devices : List Device}
    (stored : List.Forall₂ BleRecord.Holds records devices)
    (short : ∀ device ∈ devices, device.name.bytes.length ≤ 31 ∧ device.addr.bytes.length ≤ 31) :
    ∃ bleList, records = bleList.map BleAddr.record ∧ BufferedAs bleList devices := by
  induction stored with
  | nil => exact ⟨[], rfl, List.Forall₂.nil⟩
  | @cons record device records devices holds stored ih =>
    rw [List.forall_mem_cons] at short
    rcases ih short.2 with ⟨bleList, rfl, same⟩
    rcases CString.exists_buffer (holds.name.trans (if_pos short.1.1)) with ⟨name, nameIs, names⟩
    rcases CString.exists_buffer (holds.addr.trans (if_pos short.1.2)) with ⟨addr, addrIs, addrs⟩
    refine ⟨⟨name, addr⟩ :: bleList, ?_, List.Forall₂.cons ⟨names, addrs⟩ same⟩
    rw [List.map_cons, BleAddr.record, nameIs, addrIs]

/-- Where every name and every address leaves room for a NUL, the scan leaves a list as `SysInfo` has it. -/
theorem scanBle_bleList (si : BleList) {ads : List Advertisement} (few : (heard ads).length ≤ 255)
    (short : ∀ device ∈ heard ads, device.name.bytes.length ≤ 31 ∧ device.addr.bytes.length ≤ 31) :
    ∃ si' bleList, scanBle si ads = some si' ∧ si'.records = bleList.map BleAddr.record ∧ BufferedAs bleList (heard ads) := by
  rcases scanBle_returns si fun device listed =>
    ⟨(short device listed).1.trans (by decide), (short device listed).2.trans (by decide)⟩ with ⟨si', done⟩
  rcases bufferedAs_of_stored ((scanBle_stores done).2 few) short with ⟨bleList, records, same⟩
  exact ⟨si', bleList, done, records, same⟩

def longNamed : Advertisement := ⟨sampleAddr, some ⟨List.replicate 32 0x41, by decide⟩⟩

theorem long_name_lost : ¬AddressesKept ⟨[], 0, Nat.zero_le _⟩ [longNamed] := by
  rintro ⟨si', done, finds, _⟩
  have lookup : (scanBle ⟨[], 0, Nat.zero_le _⟩ [longNamed]).bind
      (fun si' => si'.getAddrBle (List.replicate 32 0x41 ++ [0])) = none := by decide +kernel
  rcases finds ⟨⟨List.replicate 32 0x41, by decide⟩, ⟨[0x30], by decide⟩⟩ List.mem_cons_self with ⟨found, addr, sought, _⟩
  rw [done, Option.bind_some] at lookup
  cases lookup.symm.trans sought

end Bridge
