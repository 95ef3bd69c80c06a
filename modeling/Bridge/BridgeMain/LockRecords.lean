import Bridge.BridgeMain.DealCmd

namespace Bridge

open CString (Buffer)

def discoveredAddr (bleList : List BleAddr) (entry : LockEntry) : Option (Buffer 32) :=
  (bleList.find? fun ble => entry.btId.string == ble.name.string).map BleAddr.addr

def LockEntry.HexFits (entry : LockEntry) : Prop :=
  entry.ekey.guestAesKey.size ≤ 128 ∧ entry.ekey.guestToken.size ≤ 128 ∧ entry.ekey.password.size ≤ 128

structure LockInfo.Holds (info : LockInfo) (entry : LockEntry) (found : Buffer 32) : Prop where
  addr : info.lockAddr.toList = found.string ++ (List.replicate 32 0).drop found.string.length
  addrSize : info.lockAddrSize.toNat = found.string.length
  ekey : info.lockEkey.toList = entry.ekey.guestAesKey.bytes.toList.take 32
  ekeySize : info.lockEkeySize = UInt8.ofNat entry.ekey.guestAesKey.size
  token : info.lockToken.toList = entry.ekey.guestToken.bytes.toList.take 128
  tokenSize : info.lockTokenSize = UInt8.ofNat entry.ekey.guestToken.size
  passwd : info.lockPasswd.toList = entry.ekey.password.bytes.toList.take 32
  passwdSize : info.lockPasswdSize = UInt8.ofNat entry.ekey.password.size
  id : info.lockId.toList = entry.btId.array.toList.take 32
  idSize : info.lockIdSize = UInt8.ofNat entry.btId.string.length

section Storing

variable {si : SysInfo} {entry : LockEntry}

theorem getAddrBle_eq {lockId : List UInt8} (long : 32 ≤ lockId.length) (bleList : List BleAddr) :
    getAddrBle lockId bleList =
      some ((bleList.find? fun ble => CString.chars lockId == some ble.name.string).map BleAddr.addr) := by
  induction bleList with
  | nil => rfl
  | cons ble rest ih =>
    have short := ble.name.length_lt
    have compared : CString.equal lockId ble.name.array.toList = _ := CString.equal_eq ble.name.chars_eq (by omega)
    rw [getAddrBle, compared, Option.bind_some, List.find?_cons]
    by_cases same : CString.chars lockId = some ble.name.string
    · simp [same]
    · have test : (CString.chars lockId == some ble.name.string) = false := beq_eq_false_iff_ne.mpr same
      simp [same, test, ih]

/-- A name of 32 characters or more is cut in the record and then equals no name of the scan. -/
theorem cut_id_eq (btId : Buffer 100) (name : Buffer 32) :
    CString.chars (btId.array.toList.take 32) = some name.string ↔ btId.string = name.string := by
  have short := name.length_lt
  rw [CString.chars_take btId.chars_eq]
  split
  · exact Option.some_inj
  · rename_i long
    apply iff_of_false
    · intro same
      cases same
    · intro same
      rw [same] at long
      exact long short

theorem getAddrBle_entry (bleList : List BleAddr) (entry : LockEntry) :
    getAddrBle (entry.btId.array.toList.take 32) bleList = some (discoveredAddr bleList entry) := by
  rw [getAddrBle_eq (by simp), discoveredAddr]
  congr 3
  funext ble
  rw [Bool.eq_iff_iff, beq_iff_eq, beq_iff_eq]
  exact cut_id_eq entry.btId ble.name

theorem lockInfoOf_holds (entry : LockEntry) (addr : Buffer 32) : ∃ li, lockInfoOf entry = some li ∧
    li.lockAddr = Vector.replicate 32 0 ∧ li.lockId.toList = entry.btId.array.toList.take 32 ∧ ∀ lockAddr lockAddrSize,
      lockAddr.toList = addr.string ++ (List.replicate 32 0).drop addr.string.length →
      lockAddrSize.toNat = addr.string.length → { li with lockAddr, lockAddrSize }.Holds entry addr := by
  have whole : ∀ {n m : Nat} (field : Vector UInt8 n), m ≤ n → ∃ copied,
      CString.copy (Vector.replicate m 0) field.toList m = some copied ∧ copied.toList = field.toList.take m := by
    intro n m field room
    obtain ⟨copied, done, bytes⟩ := CString.copy_some (Vector.replicate m 0) (Nat.le_refl m)
      (show m ≤ field.toList.length by simpa using room)
    refine ⟨copied, done, ?_⟩
    rw [bytes, List.drop_of_length_le (by simp), List.append_nil]
  obtain ⟨ekey, ekeyDone, ekeyIs⟩ := whole entry.ekey.guestAesKey.bytes (by decide : 32 ≤ 500)
  obtain ⟨token, tokenDone, tokenIs⟩ := whole entry.ekey.guestToken.bytes (by decide : 128 ≤ 500)
  obtain ⟨passwd, passwdDone, passwdIs⟩ := whole entry.ekey.password.bytes (by decide : 32 ≤ 500)
  obtain ⟨id, idDone, idIs⟩ := whole entry.btId.array (by decide : 32 ≤ 100)
  refine ⟨_, by simp only [lockInfoOf, CString.strlen, entry.btId.chars_eq, ekeyDone, tokenDone, passwdDone, idDone,
    Option.map_some, Option.bind_eq_bind, Option.bind_some, Option.pure_def]; rfl, rfl, idIs, ?_⟩
  intro lockAddr lockAddrSize bytes size
  exact ⟨bytes, size, ekeyIs, rfl, tokenIs, rfl, passwdIs, rfl, idIs, rfl⟩

theorem hex_some {capacity : Nat} {field : PbBytes capacity} (fits : field.size ≤ 128) :
    ∃ hex, byteToHexStr field.bytes.toList 256 field.size = some hex := by
  have within := field.within
  exact ⟨_, if_pos ⟨by simpa using within, by omega⟩⟩

theorem hex_none {source : List UInt8} {len : Nat} (long : 128 < len) : byteToHexStr source 256 len = none :=
  if_neg fun fits => by omega

def storedEntries (bleList : List BleAddr) (entries : List LockEntry) (room : Nat) : List LockEntry :=
  (entries.filter fun entry => (discoveredAddr bleList entry).isSome).take room

/-- The record of an entry, with the address that the scan has for it. -/
def RecordOf (bleList : List BleAddr) (entry : LockEntry) (info : LockInfo) : Prop :=
  ∃ addr, discoveredAddr bleList entry = some addr ∧ info.Holds entry addr

def Stores (si : SysInfo) (entries : List LockEntry) (si' : SysInfo) : Prop := ∃ infos, si'.bleList = si.bleList ∧
  si'.lockinfo = si.lockinfo ++ infos ∧
    List.Forall₂ (RecordOf si.bleList) (storedEntries si.bleList entries (4 - si.lockinfo.length)) infos

theorem addLockinfo_unknown {li : LockInfo} (room : si.lockinfo.length < 4)
    (unknown : getAddrBle li.lockId.toList si.bleList = some none) : addLockinfo si li = some (si, 0) := by
  rw [addLockinfo, if_pos (show si.lockinfo.length < maxLockCount - 1 from room), unknown]
  rfl

/-- The address is copied over the start of the one that the record has, without a NUL behind it. -/
theorem addLockinfo_known {li : LockInfo} {addr : Buffer 32} (room : si.lockinfo.length < 4)
    (known : getAddrBle li.lockId.toList si.bleList = some (some addr)) : ∃ lockAddr lockAddrSize,
    addLockinfo si li = some ({ si with lockinfo := si.lockinfo ++ [{ li with lockAddr, lockAddrSize }] }, 0) ∧
      lockAddr.toList = addr.string ++ li.lockAddr.toList.drop addr.string.length ∧
      lockAddrSize.toNat = addr.string.length := by
  have short := addr.length_lt
  have small : (UInt8.ofNat addr.string.length).toNat = addr.string.length :=
    UInt8.toNat_ofNat_of_lt' (by simp only [UInt8.size]; omega)
  have narrow : UInt8.ofNat addr.string.length < (32 : UInt8) := by
    rw [UInt8.lt_iff_toNat_lt, small]
    exact short
  obtain ⟨rest, array⟩ := CString.chars_some addr.chars_eq
  obtain ⟨copied, done, bytes⟩ := CString.copy_some li.lockAddr
    (show addr.string.length ≤ 32 by omega) (show addr.string.length ≤ addr.array.toList.length by simpa using short.le)
  refine ⟨copied, UInt8.ofNat addr.string.length, ?_, ?_, small⟩
  · rw [addLockinfo, if_pos (show si.lockinfo.length < maxLockCount - 1 from room), known]
    simp only [Option.bind_some, CString.strlen, addr.chars_eq, Option.map_some, if_pos narrow, small, done]
  · rw [bytes, array, List.take_left' rfl]

theorem storeEntry_stores (fits : entry.HexFits) (si : SysInfo) : ∃ si', storeEntry si entry = some si' ∧ Stores si [entry] si' := by
  obtain ⟨_, ekeyHex⟩ := hex_some fits.1
  obtain ⟨_, tokenHex⟩ := hex_some fits.2.1
  obtain ⟨_, passwordHex⟩ := hex_some fits.2.2
  have stored : ∀ {li : LockInfo} {si' : SysInfo} {ret : Int}, lockInfoOf entry = some li →
      addLockinfo si li = some (si', ret) → storeEntry si entry = some si' := by
    intro li si' ret filled added
    simp only [storeEntry, filled, added, ekeyHex, tokenHex, passwordHex, Option.bind_eq_bind, Option.bind_some,
      Option.pure_def]
  by_cases room : si.lockinfo.length < 4
  · obtain ⟨k, count⟩ : ∃ k, 4 - si.lockinfo.length = k + 1 := ⟨3 - si.lockinfo.length, by omega⟩
    cases discovered : discoveredAddr si.bleList entry with
    | none =>
      obtain ⟨li, filled, _, id, _⟩ := lockInfoOf_holds entry ⟨Vector.replicate 32 0, by simp⟩
      have skipped : addLockinfo si li = some (si, 0) := addLockinfo_unknown room (by rw [id, getAddrBle_entry, discovered])
      exact ⟨si, stored filled skipped, [], rfl, (List.append_nil _).symm, by simp [storedEntries, discovered]⟩
    | some addr =>
      obtain ⟨li, filled, cleared, id, holds⟩ := lockInfoOf_holds entry addr
      obtain ⟨lockAddr, lockAddrSize, added, bytes, size⟩ :=
        addLockinfo_known room (show getAddrBle li.lockId.toList si.bleList = some (some addr) by
          rw [id, getAddrBle_entry, discovered])
      rw [cleared, Vector.toList_replicate] at bytes
      have info := holds lockAddr lockAddrSize bytes size
      refine ⟨_, stored filled added, [_], rfl, rfl, ?_⟩
      have first : storedEntries si.bleList [entry] (4 - si.lockinfo.length) = [entry] := by
        simp [storedEntries, discovered, count]
      rw [first]
      exact .cons ⟨addr, discovered, info⟩ .nil
  · obtain ⟨li, filled, _⟩ := lockInfoOf_holds entry ⟨Vector.replicate 32 0, by simp⟩
    have full : 4 - si.lockinfo.length = 0 := by omega
    refine ⟨si, stored filled (if_neg room), [], rfl, (List.append_nil _).symm, ?_⟩
    rw [full]
    exact .nil

theorem storeEntry_faults (long : ¬entry.HexFits) (si : SysInfo) : storeEntry si entry = none := by
  unfold storeEntry
  cases lockInfoOf entry with
  | none => rfl
  | some li =>
    cases added : addLockinfo si li with
    | none => simp [added]
    | some stored =>
      simp only [Option.bind_eq_bind, Option.bind_some, added]
      by_cases ekey : entry.ekey.guestAesKey.size ≤ 128
      · obtain ⟨_, ekeyHex⟩ := hex_some ekey
        by_cases token : entry.ekey.guestToken.size ≤ 128
        · obtain ⟨_, tokenHex⟩ := hex_some token
          have password : 128 < entry.ekey.password.size := by
            by_contra short
            exact long ⟨ekey, token, Nat.not_lt.mp short⟩
          simp [ekeyHex, tokenHex, hex_none password]
        · simp [ekeyHex, hex_none (Nat.not_le.mp token)]
      · simp [hex_none (Nat.not_le.mp ekey)]

theorem storedEntries_cons (bleList : List BleAddr) (entry : LockEntry) (rest : List LockEntry) (room : Nat) :
    storedEntries bleList (entry :: rest) room = storedEntries bleList [entry] room ++
      storedEntries bleList rest (room - (storedEntries bleList [entry] room).length) := by
  cases room with
  | zero => simp [storedEntries]
  | succ room =>
    cases discovered : discoveredAddr bleList entry with
    | none => simp [storedEntries, discovered]
    | some addr => simp [storedEntries, discovered]

theorem storeEntries_stores {entries : List LockEntry} (fits : ∀ entry ∈ entries, entry.HexFits) (si : SysInfo) :
    ∃ si', entries.foldlM storeEntry si = some si' ∧ Stores si entries si' := by
  induction entries generalizing si with
  | nil => exact ⟨si, rfl, [], rfl, (List.append_nil _).symm, by simp [storedEntries]⟩
  | cons entry rest ih =>
    rw [List.forall_mem_cons] at fits
    obtain ⟨middle, stored, infos, sameList, appended, first⟩ := storeEntry_stores fits.1 si
    obtain ⟨si', others, infos', sameList', appended', match'⟩ := ih fits.2 middle
    refine ⟨si', ?_, infos ++ infos', sameList'.trans sameList, ?_, ?_⟩
    · rw [List.foldlM_cons, stored]
      exact others
    · rw [appended', appended, List.append_assoc]
    · have count : 4 - middle.lockinfo.length =
          4 - si.lockinfo.length - (storedEntries si.bleList [entry] (4 - si.lockinfo.length)).length := by
        rw [appended, List.length_append, ← first.length_eq]
        omega
      rw [storedEntries_cons, ← count]
      rw [sameList] at match'
      exact List.rel_append first match'

theorem storeEntries_faults {entries : List LockEntry} (long : ¬∀ entry ∈ entries, entry.HexFits) (si : SysInfo) :
    entries.foldlM storeEntry si = none := by
  induction entries generalizing si with
  | nil => exact absurd (List.forall_mem_nil _) long
  | cons entry rest ih =>
    rw [List.foldlM_cons]
    by_cases fits : entry.HexFits
    · obtain ⟨middle, stored, _⟩ := storeEntry_stores fits si
      rw [stored]
      apply ih
      intro others
      exact long (List.forall_mem_cons.mpr ⟨fits, others⟩)
    · rw [storeEntry_faults fits]
      rfl

end Storing

structure LockInfo.Fits (info : LockInfo) : Prop where
  addr : info.lockAddrSize.toNat ≤ 32
  ekey : info.lockEkeySize.toNat ≤ 32
  token : info.lockTokenSize.toNat ≤ 128
  passwd : info.lockPasswdSize.toNat ≤ 32
  idSize : info.lockIdSize.toNat ≤ 32
  id : 0 ∈ info.lockId.toList

structure LockInfo.Sound (info : LockInfo) : Prop extends info.Fits where
  ends : 0 ∈ info.lockAddr.toList

def LockInfo.NamesFit (info : LockInfo) : Prop :=
  (∃ id, CString.chars info.lockId.toList = some id ∧ id.length ≤ maxDeviceName) ∧
    ∃ addr, CString.chars info.lockAddr.toList = some addr ∧ addr.length ≤ maxDeviceAddr

structure IgmLock.CopyOf (lock : IgmLock) (info : LockInfo) : Prop where
  name : CString.chars info.lockId.toList = some (lock.name.toList.take lock.nameLen)
  addr : CString.chars info.lockAddr.toList = some (lock.addr.toList.take lock.addrLen)
  key : lock.key = info.lockEkey.toList.take info.lockEkeySize.toNat
  keyLen : lock.keyLen = info.lockEkeySize.toNat
  token : lock.token = info.lockToken.toList.take info.lockTokenSize.toNat
  tokenLen : lock.tokenLen = info.lockTokenSize.toNat
  password : lock.password = info.lockPasswd.toList.take info.lockPasswdSize.toNat
  passwordSize : lock.passwordSize = info.lockPasswdSize.toNat

section Jobs

theorem setLockString_some {room : Nat} {array string : List UInt8} (read : CString.chars array = some string)
    (fits : string.length ≤ room) : ∃ copied : Vector UInt8 room,
    setLockString room array = some (copied, string.length) ∧ copied.toList.take string.length = string := by
  have short := CString.chars_lt read
  obtain ⟨rest, rfl⟩ := CString.chars_some read
  obtain ⟨copied, done, bytes⟩ := CString.copy_some (Vector.replicate room 0) fits short.le
  refine ⟨copied, ?_, ?_⟩
  · simp only [setLockString, CString.strlen, read, Option.map_some, Option.bind_eq_bind, Option.bind_some, done,
      Option.pure_def]
  · rw [bytes, List.take_left' rfl, List.take_left' rfl]

theorem setLockString_faults {room : Nat} {array string : List UInt8} (read : CString.chars array = some string)
    (long : room < string.length) : setLockString room array = none := by
  simp only [setLockString, CString.strlen, read, Option.map_some, Option.bind_eq_bind, Option.bind_some,
    CString.copy_none _ long, Option.bind_none]

theorem chars_of_mem {array : List UInt8} (inside : 0 ∈ array) : ∃ string, CString.chars array = some string :=
  ⟨_, by rw [CString.chars_eq, if_pos inside]⟩

theorem clone_some {n : Nat} {field : Vector UInt8 n} {size : Nat} (fits : size ≤ n) :
    CString.clone field.toList size = some (field.toList.take size) :=
  if_pos (by simpa using fits)

theorem lockOf_copies {info : LockInfo} (fits : info.Fits) (names : info.NamesFit) :
    ∃ lock, lockOf info = some lock ∧ lock.CopyOf info := by
  obtain ⟨⟨id, idRead, idFits⟩, addr, addrRead, addrFits⟩ := names
  obtain ⟨name, named, nameIs⟩ := setLockString_some idRead idFits
  obtain ⟨place, placed, placeIs⟩ := setLockString_some addrRead addrFits
  refine ⟨_, by simp only [lockOf, named, placed, clone_some fits.ekey, clone_some fits.passwd, clone_some fits.token,
    Option.bind_eq_bind, Option.bind_some, Option.pure_def]; rfl, ?_⟩
  exact ⟨by rw [nameIs]; exact idRead, by rw [placeIs]; exact addrRead, rfl, rfl, rfl, rfl, rfl, rfl⟩

theorem lockOf_faults {info : LockInfo} (sound : info.Sound) (long : ¬info.NamesFit) : lockOf info = none := by
  obtain ⟨id, idRead⟩ := chars_of_mem sound.id
  obtain ⟨addr, addrRead⟩ := chars_of_mem sound.ends
  by_cases idFits : id.length ≤ maxDeviceName
  · have addrLong : maxDeviceAddr < addr.length := by
      by_contra addrFits
      exact long ⟨⟨id, idRead, idFits⟩, addr, addrRead, Nat.not_lt.mp addrFits⟩
    obtain ⟨name, named, _⟩ := setLockString_some idRead idFits
    simp only [lockOf, named, setLockString_faults addrRead addrLong, Option.bind_eq_bind, Option.bind_some, Option.bind_none]
  · simp only [lockOf, setLockString_faults idRead (Nat.not_le.mp idFits), Option.bind_eq_bind, Option.bind_none]

theorem searchLockInfo_eq {infos : List LockInfo} (sound : ∀ info ∈ infos, info.Sound) (btId : Buffer 100) :
    searchLockInfo btId.array.toList infos =
      some (infos.find? fun info => CString.chars info.lockId.toList == some btId.string) := by
  induction infos with
  | nil => rfl
  | cons info rest ih =>
    rw [List.forall_mem_cons] at sound
    obtain ⟨id, idRead⟩ := chars_of_mem sound.1.id
    have short := CString.chars_lt idRead
    have compared : CString.equal btId.array.toList info.lockId.toList = _ :=
      CString.equal_eq idRead (by simp at short ⊢; omega)
    rw [searchLockInfo, CString.equal_comm, compared, btId.chars_eq, Option.bind_some, List.find?_cons, idRead]
    by_cases same : btId.string = id
    · simp [same]
    · have test : (some id == some btId.string) = false := beq_eq_false_iff_ne.mpr fun eq => same (Option.some.inj eq).symm
      simp [same, test, ih sound.2]

theorem pinRequestOf_some {info : LockInfo} (fits : info.Fits) (time : Int × Int) (job : DemoLockJob) :
    ∃ request, pinRequestOf time info job = some request := by
  have pin := @clone_some _ job.pin.bytes _ job.pin.within
  unfold pinRequestOf
  split
  · simp only [clone_some fits.passwd, pin, Option.bind_eq_bind, Option.bind_some, Option.pure_def]
    exact ⟨_, rfl⟩
  · simp only [clone_some fits.passwd, pin, Option.bind_eq_bind, Option.bind_some, Option.pure_def]
    exact ⟨_, rfl⟩
  · exact ⟨none, rfl⟩

theorem record_hex {n : Nat} {field : Vector UInt8 n} {size : Nat} (inside : size ≤ n) (room : n ≤ 128) :
    ∃ hex, byteToHexStr field.toList 256 size = some hex :=
  ⟨_, if_pos ⟨by simpa using inside, by omega⟩⟩

theorem newJob_unknown {si : SysInfo} {job : DemoLockJob} (time : Int × Int)
    (unknown : searchLockInfo job.btId.array.toList si.lockinfo = some none) : newJob time si job = some (-1, none) := by
  simp only [newJob, unknown, Option.bind_eq_bind, Option.bind_some, Option.pure_def]

theorem newJob_known {si : SysInfo} {job : DemoLockJob} {pli : LockInfo} (time : Int × Int) (fits : pli.Fits)
    (known : searchLockInfo job.btId.array.toList si.lockinfo = some (some pli)) : ∃ request,
    newJob time si job = (lockOf pli).map fun lock => (0, some ⟨lock, job.opCmd, request⟩) := by
  obtain ⟨request, requested⟩ := pinRequestOf_some fits time job
  obtain ⟨_, passwd⟩ := @record_hex _ pli.lockPasswd _ fits.passwd (by decide)
  obtain ⟨_, ekey⟩ := @record_hex _ pli.lockEkey _ fits.ekey (by decide)
  obtain ⟨_, token⟩ := @record_hex _ pli.lockToken _ fits.token (by decide)
  refine ⟨request, ?_⟩
  cases locked : lockOf pli with
  | none => simp only [newJob, known, locked, Option.bind_eq_bind, Option.bind_some, Option.bind_none, Option.map_none]
  | some lock =>
    simp only [newJob, known, locked, requested, passwd, ekey, token, Option.bind_eq_bind, Option.bind_some, Option.pure_def,
      Option.map_some]

end Jobs

section Messages

theorem RecordOf.ends {bleList : List BleAddr} {entry : LockEntry} {info : LockInfo} (record : RecordOf bleList entry info) :
    0 ∈ info.lockAddr.toList := by
  obtain ⟨addr, _, holds⟩ := record
  have short := addr.length_lt
  rw [holds.addr, List.drop_replicate]
  apply List.mem_append_right
  rw [List.mem_replicate]
  exact ⟨by omega, rfl⟩

theorem RecordOf.id {bleList : List BleAddr} {entry : LockEntry} {info : LockInfo} (record : RecordOf bleList entry info) :
    CString.chars info.lockId.toList = some entry.btId.string ∧ entry.btId.string.length < 32 := by
  obtain ⟨addr, discovered, holds⟩ := record
  obtain ⟨ble, found, _⟩ := Option.map_eq_some_iff.mp discovered
  have same : entry.btId.string = ble.name.string := by simpa using List.find?_some found
  rw [holds.id, same]
  exact ⟨(cut_id_eq entry.btId ble.name).mpr same, ble.name.length_lt⟩

theorem RecordOf.fits_iff {bleList : List BleAddr} {entry : LockEntry} {info : LockInfo} (record : RecordOf bleList entry info)
    (hex : entry.HexFits) : info.Fits ↔ entry.ekey.guestAesKey.size ≤ 32 ∧ entry.ekey.password.size ≤ 32 := by
  obtain ⟨ekey, token, password⟩ := hex
  obtain ⟨read, idShort⟩ := record.id
  obtain ⟨addr, _, holds⟩ := record
  have small : ∀ size, size ≤ 128 → (UInt8.ofNat size).toNat = size :=
    fun size bound => UInt8.toNat_ofNat_of_lt' (by simp only [UInt8.size]; omega)
  have addrShort := addr.length_lt
  have ekeySize : info.lockEkeySize.toNat = entry.ekey.guestAesKey.size := by rw [holds.ekeySize, small _ ekey]
  have passwdSize : info.lockPasswdSize.toNat = entry.ekey.password.size := by rw [holds.passwdSize, small _ password]
  constructor
  · intro fits
    exact ⟨ekeySize ▸ fits.ekey, passwdSize ▸ fits.passwd⟩
  · rintro ⟨ekeyFits, passwdFits⟩
    refine ⟨by rw [holds.addrSize]; omega, by rwa [ekeySize], by rwa [holds.tokenSize, small _ token], by rwa [passwdSize],
      by rw [holds.idSize, small _ (by omega)]; omega, ?_⟩
    obtain ⟨rest, array⟩ := CString.chars_some read
    rw [array]
    exact List.mem_append_right _ List.mem_cons_self

theorem storedEntries_subset {bleList : List BleAddr} {entries : List LockEntry} {entry : LockEntry} {room : Nat}
    (inside : entry ∈ storedEntries bleList entries room) : entry ∈ entries :=
  (List.mem_filter.mp (List.mem_of_mem_take inside)).1

theorem forall_iff_of_forall₂ {α β : Type} {R : α → β → Prop} {P : α → Prop} {Q : β → Prop} {as : List α} {bs : List β}
    (related : List.Forall₂ R as bs) (same : ∀ a ∈ as, ∀ b, R a b → (Q b ↔ P a)) : (∀ b ∈ bs, Q b) ↔ ∀ a ∈ as, P a := by
  induction related with
  | nil => exact iff_of_true (List.forall_mem_nil _) (List.forall_mem_nil _)
  | cons first _ ih =>
    rw [List.forall_mem_cons] at same
    rw [List.forall_mem_cons, List.forall_mem_cons, same.1 _ first, ih same.2]

def deals (si : SysInfo) (step : (Int × Int) × MsgInfo) : Option SysInfo := (dealCMD step.1 si step.2).map Prod.fst

/-- The entries of an update fit the log, and those that are stored their records. The lock of a job has a
    name and an address that fit those of an `igm_lock_t`. -/
def MessageFits (si : SysInfo) (step : (Int × Int) × MsgInfo) : Prop :=
  match step.2.eventType with
  | .updateUserInfo => step.2.hasServerData = true →
      (∀ entry ∈ step.2.serverData.lockEntries, entry.HexFits) ∧
        ∀ entry ∈ storedEntries si.bleList step.2.serverData.lockEntries 4,
          entry.ekey.guestAesKey.size ≤ 32 ∧ entry.ekey.password.size ≤ 32
  | .newJobNotify => ∀ info, (si.lockinfo.find? fun info =>
      CString.chars info.lockId.toList == some step.2.serverData.demoJob.btId.string) = some info → info.NamesFit
  | .heartbeat => True
  | .other => True

theorem deals_update {si : SysInfo} {imsg : MsgInfo} (time : Int × Int) (type : imsg.eventType = .updateUserInfo) :
    deals si (time, imsg) = if imsg.hasServerData then imsg.serverData.lockEntries.foldlM storeEntry (initLockinfo si)
      else some (initLockinfo si) := by
  rw [deals, dealCMD, type]
  simp only [Option.map_map]
  exact Option.map_id'

theorem deals_job {si : SysInfo} {imsg : MsgInfo} (time : Int × Int) (type : imsg.eventType = .newJobNotify) :
    deals si (time, imsg) = (newJob time si imsg.serverData.demoJob).map fun _ => si := by
  rw [deals, dealCMD, type]
  simp only [Option.map_map]
  rfl

theorem initLockinfo_stores {si si' : SysInfo} {entries : List LockEntry} (stores : Stores (initLockinfo si) entries si') :
    List.Forall₂ (RecordOf si.bleList) (storedEntries si.bleList entries 4) si'.lockinfo := by
  obtain ⟨infos, _, appended, records⟩ := stores
  rw [appended]
  exact records

theorem update_sharp {si : SysInfo} {imsg : MsgInfo} (time : Int × Int) (type : imsg.eventType = .updateUserInfo) :
    MessageFits si (time, imsg) ↔ ∃ si', deals si (time, imsg) = some si' ∧ ∀ info ∈ si'.lockinfo, info.Fits := by
  simp only [MessageFits, type, deals_update time type]
  by_cases data : imsg.hasServerData = true
  · simp only [data, if_true, forall_const]
    by_cases hex : ∀ entry ∈ imsg.serverData.lockEntries, entry.HexFits
    · obtain ⟨si', stored, stores⟩ := storeEntries_stores hex (initLockinfo si)
      have records := initLockinfo_stores stores
      have same := forall_iff_of_forall₂ (Q := LockInfo.Fits) records fun entry inside info record =>
        record.fits_iff (hex entry (storedEntries_subset inside))
      simp only [stored, Option.some.injEq, exists_eq_left', same]
      exact and_iff_right hex
    · apply iff_of_false
      · exact fun fits => hex fits.1
      · rintro ⟨si', stored, _⟩
        rw [storeEntries_faults hex] at stored
        cases stored
  · simp only [data, if_false, Bool.false_eq_true, false_implies, true_iff]
    exact ⟨_, rfl, List.forall_mem_nil _⟩

theorem job_sharp {si : SysInfo} {imsg : MsgInfo} (sound : ∀ info ∈ si.lockinfo, info.Sound) (time : Int × Int)
    (type : imsg.eventType = .newJobNotify) :
    MessageFits si (time, imsg) ↔ ∃ si', deals si (time, imsg) = some si' ∧ ∀ info ∈ si'.lockinfo, info.Fits := by
  simp only [MessageFits, type, deals_job time type]
  have searched := searchLockInfo_eq sound imsg.serverData.demoJob.btId
  have fits := fun info inside => (sound info inside).toFits
  cases found : si.lockinfo.find? fun info => CString.chars info.lockId.toList == some imsg.serverData.demoJob.btId.string with
  | none =>
    rw [found] at searched
    simp only [newJob_unknown time searched, Option.map_some, Option.some.injEq, exists_eq_left']
    exact iff_of_true (fun info none => by cases none) fits
  | some info =>
    rw [found] at searched
    have stored := sound info (List.mem_of_find?_eq_some found)
    obtain ⟨request, done⟩ := newJob_known time stored.toFits searched
    simp only [done, Option.map_map, Option.some.injEq, forall_eq']
    by_cases names : info.NamesFit
    · obtain ⟨lock, locked, _⟩ := lockOf_copies stored.toFits names
      exact iff_of_true names ⟨si, by rw [locked]; rfl, fits⟩
    · apply iff_of_false names
      rintro ⟨si', dealt, _⟩
      rw [lockOf_faults stored names] at dealt
      cases dealt

theorem message_sharp {si : SysInfo} (step : (Int × Int) × MsgInfo) (sound : ∀ info ∈ si.lockinfo, info.Sound) :
    MessageFits si step ↔ ∃ si', deals si step = some si' ∧ ∀ info ∈ si'.lockinfo, info.Fits := by
  obtain ⟨time, imsg⟩ := step
  cases type : imsg.eventType with
  | updateUserInfo => exact update_sharp time type
  | newJobNotify => exact job_sharp sound time type
  | heartbeat =>
    simp only [MessageFits, deals, dealCMD, type, Option.map_some, Option.some.injEq, exists_eq_left', true_iff]
    exact fun info inside => (sound info inside).toFits
  | other =>
    simp only [MessageFits, deals, dealCMD, type, Option.map_some, Option.some.injEq, exists_eq_left', true_iff]
    exact fun info inside => (sound info inside).toFits

theorem deals_ends {si si' : SysInfo} {step : (Int × Int) × MsgInfo} (ends : ∀ info ∈ si.lockinfo, 0 ∈ info.lockAddr.toList)
    (dealt : deals si step = some si') : ∀ info ∈ si'.lockinfo, 0 ∈ info.lockAddr.toList := by
  obtain ⟨time, imsg⟩ := step
  cases type : imsg.eventType with
  | updateUserInfo =>
    rw [deals_update time type] at dealt
    split at dealt
    · by_cases hex : ∀ entry ∈ imsg.serverData.lockEntries, entry.HexFits
      · obtain ⟨stored, done, stores⟩ := storeEntries_stores hex (initLockinfo si)
        cases done.symm.trans dealt
        have same := forall_iff_of_forall₂ (P := fun _ => True) (Q := fun info : LockInfo => 0 ∈ info.lockAddr.toList)
          (initLockinfo_stores stores) fun _ _ _ record => iff_of_true record.ends trivial
        exact same.mpr fun _ _ => trivial
      · rw [storeEntries_faults hex] at dealt
        cases dealt
    · cases dealt
      exact List.forall_mem_nil _
  | newJobNotify =>
    rw [deals_job time type] at dealt
    obtain ⟨_, _, rfl⟩ := Option.map_eq_some_iff.mp dealt
    exact ends
  | heartbeat =>
    simp only [deals, dealCMD, type, Option.map_some, Option.some.injEq] at dealt
    exact dealt ▸ ends
  | other =>
    simp only [deals, dealCMD, type, Option.map_some, Option.some.injEq] at dealt
    exact dealt ▸ ends

end Messages

/-- All accesses of a run of messages are inside of their arrays and all records that it stores keep to
    theirs, exactly if every message fits. -/
theorem records_inside_iff_fits (bleList : List BleAddr) (steps : List ((Int × Int) × MsgInfo)) :
    ((Runs.run deals ⟨[], bleList⟩ steps).isSome = true ∧
        Runs.Always deals (fun si => ∀ info ∈ si.lockinfo, info.Fits) ⟨[], bleList⟩ steps) ↔
      Runs.Along deals MessageFits ⟨[], bleList⟩ steps := by
  apply @Runs.completes_iff_along _ _ deals (fun si => ∀ info ∈ si.lockinfo, info.Sound)
  · exact fun si sound info inside => (sound info inside).toFits
  · exact fun si step sound => message_sharp step sound
  · intro si step si' sound dealt fits info inside
    exact ⟨fits info inside, deals_ends (fun info inside => (sound info inside).ends) dealt info inside⟩
  · exact List.forall_mem_nil _

def sampleField (size : Nat) (within : size ≤ 500) : PbBytes 500 := ⟨size, Vector.replicate 500 7, within⟩

def sampleEntry (name : UInt8) (keySize : Nat) (within : keySize ≤ 500) : LockEntry :=
  ⟨Buffer.of 100 [name] (by decide : 1 < 100),
    ⟨sampleField keySize within, sampleField 68 (by decide), sampleField 8 (by decide)⟩⟩

def sampleBle (name : UInt8) : BleAddr := ⟨Buffer.of 32 [name] (by decide : 1 < 32), Buffer.of 32 [0x30, name] (by decide : 2 < 32)⟩

def sampleJob (name : UInt8) : DemoLockJob :=
  ⟨Buffer.of 100 [name] (by decide : 1 < 100), .unlock, ⟨4, Vector.replicate 100 1, by decide⟩⟩

def sampleUpdate (entries : List LockEntry) (few : entries.length ≤ 5) : MsgInfo :=
  ⟨.updateUserInfo, true, entries, sampleJob 0x41, few⟩

theorem sample_discovered {name : UInt8} (nonzero : name ≠ 0) (keySize : Nat) (within : keySize ≤ 500) :
    discoveredAddr [sampleBle name] (sampleEntry name keySize within) = some (sampleBle name).addr := by
  have string : ∀ n room, (Buffer.of n [name] room).string = [name] :=
    fun n room => Buffer.of_string room (by simpa using nonzero.symm)
  simp [discoveredAddr, sampleEntry, sampleBle, string]

/-- A key of 33 bytes for a lock that the scan has found. -/
theorem long_key_overruns : ¬((Runs.run deals ⟨[], [sampleBle 0x41]⟩
      [((0, 0), sampleUpdate [sampleEntry 0x41 33 (by decide)] (by decide))]).isSome = true ∧
    Runs.Always deals (fun si => ∀ info ∈ si.lockinfo, info.Fits) ⟨[], [sampleBle 0x41]⟩
      [((0, 0), sampleUpdate [sampleEntry 0x41 33 (by decide)] (by decide))]) := by
  rintro ⟨returns, always⟩
  obtain ⟨last, done⟩ := Option.isSome_iff_exists.mp returns
  obtain ⟨si', dealt, _⟩ := Runs.run_cons deals done
  have fits := (update_sharp (0, 0) rfl).mpr ⟨si', dealt, always.2 si' dealt⟩ rfl
  have stored := sample_discovered (by decide : (0x41 : UInt8) ≠ 0) 33 (by decide)
  have inside : sampleEntry 0x41 33 (by decide) ∈ storedEntries [sampleBle 0x41] [sampleEntry 0x41 33 (by decide)] 4 := by
    simp [storedEntries, stored]
  exact absurd (fits.2 _ inside).1 (by decide)

end Bridge
