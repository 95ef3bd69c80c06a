import Mathlib.Data.List.Find
import Bridge.BridgeMain.LockRecords

namespace Bridge

open CString (Buffer)

/-- The lock has what the server has sent for it and the address of the scan. -/
structure IgmLock.Of (lock : IgmLock) (entry : LockEntry) (found : Buffer 32) : Prop where
  name : lock.name.toList.take lock.nameLen = entry.btId.string
  addr : lock.addr.toList.take lock.addrLen = found.string
  key : lock.key = entry.ekey.guestAesKey.content
  keyLen : lock.keyLen = entry.ekey.guestAesKey.size
  token : lock.token = entry.ekey.guestToken.content
  tokenLen : lock.tokenLen = entry.ekey.guestToken.size
  password : lock.password = entry.ekey.password.content
  passwordSize : lock.passwordSize = entry.ekey.password.size

/-- Every job for the lock of an entry is given to `HandleLockCMD` with the lock of that entry. -/
def JobsBuild (si : SysInfo) (entry : LockEntry) (found : Buffer 32) : Prop :=
  ∀ (time : Int × Int) (imsg : MsgInfo), imsg.eventType = .newJobNotify → imsg.serverData.demoJob.btId.string = entry.btId.string →
    ∃ lock request, dealCMD time si imsg = some (si, 0, some ⟨lock, imsg.serverData.demoJob.opCmd, request⟩) ∧ lock.Of entry found

/-- After an update, each of its locks is found and its jobs are built from its own entry. -/
def DeliversLocks (si : SysInfo) (imsg : MsgInfo) : Prop :=
  ∀ time, ∃ si', dealCMD time si imsg = some (si', 0, none) ∧ ∀ entry ∈ imsg.serverData.lockEntries,
    (∃ info, searchLockInfo entry.btId.array.toList si'.lockinfo = some (some info)) ∧
      ∀ found, discoveredAddr si.bleList entry = some found → JobsBuild si' entry found

def LockEntry.Sized (entry : LockEntry) : Prop :=
  entry.ekey.guestAesKey.size ≤ 32 ∧ entry.ekey.guestToken.size ≤ 128 ∧ entry.ekey.password.size ≤ 32

structure UserInfo (si : SysInfo) (imsg : MsgInfo) : Prop where
  type : imsg.eventType = .updateUserInfo
  data : imsg.hasServerData = true
  distinct : (imsg.serverData.lockEntries.map fun entry => entry.btId.string).Nodup
  discovered : ∀ entry ∈ imsg.serverData.lockEntries, (discoveredAddr si.bleList entry).isSome = true
  sized : ∀ entry ∈ imsg.serverData.lockEntries, entry.Sized

section Pipeline

variable {si : SysInfo} {imsg : MsgInfo} {entry : LockEntry} {info : LockInfo}

theorem LockEntry.Sized.hexFits (sized : entry.Sized) : entry.HexFits :=
  ⟨sized.1.trans (by decide), sized.2.1, sized.2.2.trans (by decide)⟩

theorem RecordOf.sound {bleList : List BleAddr} (record : RecordOf bleList entry info) (sized : entry.Sized) : info.Sound :=
  ⟨(record.fits_iff sized.hexFits).mpr ⟨sized.1, sized.2.2⟩, record.ends⟩

section Keys

variable {α β κ : Type} [BEq κ] [LawfulBEq κ] {R : α → β → Prop} {name : α → κ} {key : β → Option κ} {as : List α} {bs : List β}

theorem find_of_forall₂ (related : List.Forall₂ R as bs) (same : ∀ a b, R a b → key b = some (name a))
    (distinct : (as.map name).Nodup) {a : α} (inside : a ∈ as) :
    ∃ b, (bs.find? fun b => key b == some (name a)) = some b ∧ R a b := by
  induction related with
  | nil => cases inside
  | @cons first b rest others head tail ih =>
    rw [List.map_cons, List.nodup_cons] at distinct
    rcases List.mem_cons.mp inside with rfl | later
    · exact ⟨b, List.find?_cons_of_pos (by simp [same _ _ head]), head⟩
    · have apart : (key b == some (name a)) = false := by
        apply beq_eq_false_iff_ne.mpr
        intro equal
        rw [same first b head, Option.some.injEq] at equal
        exact distinct.1 (List.mem_map.mpr ⟨a, later, equal.symm⟩)
      simp only [List.find?_cons, apart]
      exact ih distinct.2 later

theorem find_none_of_forall₂ (related : List.Forall₂ R as bs) (same : ∀ a b, R a b → key b = some (name a)) {k : κ}
    (absent : k ∉ as.map name) : (bs.find? fun b => key b == some k) = none := by
  induction related with
  | nil => rfl
  | @cons first b _ _ head _ ih =>
    rw [List.map_cons, List.mem_cons, not_or] at absent
    have apart : (key b == some k) = false := by
      rw [same first b head, beq_eq_false_iff_ne, ne_eq, Option.some.injEq]
      exact Ne.symm absent.1
    simp only [List.find?_cons, apart]
    exact ih absent.2

end Keys

theorem UserInfo.stored (user : UserInfo si imsg) (time : Int × Int) : ∃ si', dealCMD time si imsg = some (si', 0, none) ∧
    List.Forall₂ (RecordOf si.bleList) (imsg.serverData.lockEntries.take 4) si'.lockinfo ∧
      ∀ info ∈ si'.lockinfo, info.Sound := by
  obtain ⟨si', stored, stores⟩ := storeEntries_stores (fun entry inside => (user.sized entry inside).hexFits) (initLockinfo si)
  have records := initLockinfo_stores stores
  have all : storedEntries si.bleList imsg.serverData.lockEntries 4 = imsg.serverData.lockEntries.take 4 := by
    rw [storedEntries, List.filter_eq_self.mpr user.discovered]
  rw [all] at records
  refine ⟨si', ?_, records, ?_⟩
  · rw [dealCMD, user.type]
    simp only [user.data, if_true, stored, Option.map_some]
  · have sound := forall_iff_of_forall₂ (P := fun _ => True) (Q := LockInfo.Sound) records fun entry inside info record =>
      iff_of_true (record.sound (user.sized entry (List.mem_of_mem_take inside))) trivial
    exact sound.mpr fun _ _ => trivial

theorem RecordOf.idRead {bleList : List BleAddr} (record : RecordOf bleList entry info) :
    CString.chars info.lockId.toList = some entry.btId.string :=
  record.id.1

theorem RecordOf.addrRead {bleList : List BleAddr} {found : Buffer 32} (record : RecordOf bleList entry info)
    (discovered : discoveredAddr bleList entry = some found) : CString.chars info.lockAddr.toList = some found.string := by
  obtain ⟨addr, first, holds⟩ := record
  cases first.symm.trans discovered
  have short := found.length_lt
  obtain ⟨k, count⟩ : ∃ k, 32 - found.string.length = k + 1 := ⟨31 - found.string.length, by omega⟩
  rw [holds.addr, List.drop_replicate, count, List.replicate_succ]
  exact CString.chars_append (CString.chars_nonzero found.chars_eq) _

theorem UserInfo.found {si' : SysInfo} (user : UserInfo si imsg)
    (records : List.Forall₂ (RecordOf si.bleList) (imsg.serverData.lockEntries.take 4) si'.lockinfo)
    (sound : ∀ info ∈ si'.lockinfo, info.Sound) (inside : entry ∈ imsg.serverData.lockEntries.take 4) :
    ∃ info, RecordOf si.bleList entry info ∧ info.Sound ∧ ∀ btId : Buffer 100, btId.string = entry.btId.string →
      searchLockInfo btId.array.toList si'.lockinfo = some (some info) := by
  have distinct := user.distinct.sublist ((List.take_sublist 4 imsg.serverData.lockEntries).map fun entry => entry.btId.string)
  obtain ⟨info, found, record⟩ := find_of_forall₂ records (fun _ _ record => record.idRead) distinct inside
  refine ⟨info, record, sound info (List.mem_of_find?_eq_some found), ?_⟩
  intro btId same
  rw [searchLockInfo_eq sound, same, found]

theorem UserInfo.unfound {si' : SysInfo} (user : UserInfo si imsg)
    (records : List.Forall₂ (RecordOf si.bleList) (imsg.serverData.lockEntries.take 4) si'.lockinfo)
    (sound : ∀ info ∈ si'.lockinfo, info.Sound) (inside : entry ∈ imsg.serverData.lockEntries.drop 4) :
    searchLockInfo entry.btId.array.toList si'.lockinfo = some none := by
  have distinct := user.distinct
  rw [← List.take_append_drop 4 imsg.serverData.lockEntries, List.map_append] at distinct
  have apart := List.disjoint_of_nodup_append distinct
  rw [searchLockInfo_eq sound, find_none_of_forall₂ records fun _ _ record => record.idRead]
  intro kept
  exact apart kept (List.mem_map.mpr ⟨entry, inside, rfl⟩)

theorem RecordOf.namesFit_iff {bleList : List BleAddr} {found : Buffer 32} (record : RecordOf bleList entry info)
    (discovered : discoveredAddr bleList entry = some found) :
    info.NamesFit ↔ entry.btId.string.length ≤ maxDeviceName ∧ found.string.length ≤ maxDeviceAddr := by
  have addrRead := record.addrRead discovered
  simp only [LockInfo.NamesFit, record.idRead, addrRead, Option.some.injEq, exists_eq_left']

theorem kept_content {capacity room : Nat} {field : PbBytes capacity} {stored : List UInt8} {size : UInt8}
    (kept : stored = field.bytes.toList.take room) (sizeIs : size = UInt8.ofNat field.size) (fits : field.size ≤ room)
    (narrow : room ≤ 128) : size.toNat = field.size ∧ stored.take size.toNat = field.content := by
  have small : size.toNat = field.size := by
    rw [sizeIs]
    apply UInt8.toNat_ofNat_of_lt'
    simp only [UInt8.size]
    omega
  refine ⟨small, ?_⟩
  rw [small, kept, List.take_take, Nat.min_eq_left fits]
  rfl

theorem RecordOf.copyOf {bleList : List BleAddr} {found : Buffer 32} {lock : IgmLock} (record : RecordOf bleList entry info)
    (sized : entry.Sized) (discovered : discoveredAddr bleList entry = some found) (copy : lock.CopyOf info) :
    lock.Of entry found := by
  have addrRead := record.addrRead discovered
  have idRead := record.idRead
  obtain ⟨_, _, holds⟩ := record
  have ekey := kept_content holds.ekey holds.ekeySize sized.1 (by decide)
  have token := kept_content holds.token holds.tokenSize sized.2.1 (by decide)
  have passwd := kept_content holds.passwd holds.passwdSize sized.2.2 (by decide)
  constructor
  case name => exact Option.some.inj (copy.name.symm.trans idRead)
  case addr => exact Option.some.inj (copy.addr.symm.trans addrRead)
  case key => exact copy.key.trans ekey.2
  case keyLen => exact copy.keyLen.trans ekey.1
  case token => exact copy.token.trans token.2
  case tokenLen => exact copy.tokenLen.trans token.1
  case password => exact copy.password.trans passwd.2
  case passwordSize => exact copy.passwordSize.trans passwd.1

/-- A job for a lock whose record is found gives its lock, exactly if the record fits the names of a lock. -/
theorem jobsBuild_iff {found : Buffer 32} (sized : entry.Sized) (discovered : discoveredAddr si.bleList entry = some found)
    {si' : SysInfo} (record : RecordOf si.bleList entry info) (sound : info.Sound)
    (search : ∀ btId : Buffer 100, btId.string = entry.btId.string →
      searchLockInfo btId.array.toList si'.lockinfo = some (some info)) :
    JobsBuild si' entry found ↔ info.NamesFit := by
  constructor
  · intro build
    by_contra long
    let job : DemoLockJob := ⟨entry.btId, .unlock, ⟨0, Vector.replicate 100 0, by decide⟩⟩
    obtain ⟨lock, request, done, _⟩ := build (0, 0) ⟨.newJobNotify, true, [], job, by decide⟩ rfl rfl
    obtain ⟨_, known⟩ := @newJob_known _ job _ (0, 0) sound.toFits (search entry.btId rfl)
    simp only [dealCMD, known, lockOf_faults sound long, Option.map_none] at done
    cases done
  · intro names time imsg type same
    obtain ⟨request, known⟩ := newJob_known time sound.toFits (search imsg.serverData.demoJob.btId same)
    obtain ⟨lock, built, copy⟩ := lockOf_copies sound.toFits names
    refine ⟨lock, request, ?_, record.copyOf sized discovered copy⟩
    simp only [dealCMD, type, known, built, Option.map_some]

theorem UserInfo.builds_iff {si' : SysInfo} (user : UserInfo si imsg)
    (records : List.Forall₂ (RecordOf si.bleList) (imsg.serverData.lockEntries.take 4) si'.lockinfo)
    (sound : ∀ info ∈ si'.lockinfo, info.Sound) (inside : entry ∈ imsg.serverData.lockEntries.take 4) :
    (∃ info, searchLockInfo entry.btId.array.toList si'.lockinfo = some (some info)) ∧
      ∀ found, discoveredAddr si.bleList entry = some found →
        (JobsBuild si' entry found ↔ entry.btId.string.length ≤ maxDeviceName ∧ found.string.length ≤ maxDeviceAddr) := by
  obtain ⟨info, record, fits, search⟩ := user.found records sound inside
  refine ⟨⟨info, search entry.btId rfl⟩, ?_⟩
  intro found discovered
  rw [jobsBuild_iff (user.sized entry (List.mem_of_mem_take inside)) discovered record fits search,
    record.namesFit_iff discovered]

theorem UserInfo.few (user : UserInfo si imsg) (delivers : DeliversLocks si imsg) : imsg.serverData.lockEntries.length ≤ 4 := by
  obtain ⟨si', done, records, sound⟩ := user.stored (0, 0)
  obtain ⟨_, done', each⟩ := delivers (0, 0)
  cases done.symm.trans done'
  by_contra many
  have fifth : 0 < (imsg.serverData.lockEntries.drop 4).length := by
    rw [List.length_drop]
    omega
  obtain ⟨entry, inside⟩ := List.exists_mem_of_length_pos fifth
  obtain ⟨info, found⟩ := (each entry (List.mem_of_mem_drop inside)).1
  rw [user.unfound records sound inside] at found
  cases found

end Pipeline

/-- The locks of an update are all found, and their jobs built from their own entries, exactly if there are at
    most four of them and their names and addresses fit those of an `igm_lock_t`. -/
theorem user_locks_delivered_iff {si : SysInfo} {imsg : MsgInfo} (user : UserInfo si imsg) :
    DeliversLocks si imsg ↔ imsg.serverData.lockEntries.length ≤ 4 ∧ ∀ entry ∈ imsg.serverData.lockEntries,
      entry.btId.string.length ≤ maxDeviceName ∧
        ∀ found, discoveredAddr si.bleList entry = some found → found.string.length ≤ maxDeviceAddr := by
  constructor
  · intro delivers
    have few := user.few delivers
    refine ⟨few, ?_⟩
    intro entry inside
    obtain ⟨si', done, records, sound⟩ := user.stored (0, 0)
    obtain ⟨_, done', each⟩ := delivers (0, 0)
    cases done.symm.trans done'
    obtain ⟨_, builds⟩ := each entry inside
    obtain ⟨first, discovered⟩ := Option.isSome_iff_exists.mp (user.discovered entry inside)
    rw [← List.take_of_length_le few] at inside
    obtain ⟨_, sharp⟩ := user.builds_iff records sound inside
    refine ⟨((sharp first discovered).mp (builds first discovered)).1, ?_⟩
    intro found discovered
    exact ((sharp found discovered).mp (builds found discovered)).2
  · rintro ⟨few, short⟩ time
    obtain ⟨si', done, records, sound⟩ := user.stored time
    refine ⟨si', done, ?_⟩
    intro entry inside
    obtain ⟨id, addr⟩ := short entry inside
    rw [← List.take_of_length_le few] at inside
    obtain ⟨search, sharp⟩ := user.builds_iff records sound inside
    refine ⟨search, ?_⟩
    intro found discovered
    exact (sharp found discovered).mpr ⟨id, addr found discovered⟩

def sampleNames : List UInt8 := [0x41, 0x42, 0x43, 0x44, 0x45]

def sampleScan : List BleAddr := sampleNames.map sampleBle

def sampleUser (names : List UInt8) (few : names.length ≤ 5) : MsgInfo :=
  sampleUpdate (names.map fun name => sampleEntry name 16 (by decide)) (by rwa [List.length_map])

theorem sampleNames_string {n : Nat} {name : UInt8} (known : name ∈ sampleNames) (room : [name].length < n) :
    (Buffer.of n [name] room).string = [name] := by
  have nonzero : ∀ name ∈ sampleNames, 0 ∉ [name] := by simp [sampleNames]
  exact Buffer.of_string room (nonzero name known)

theorem sampleUser_discovered {name : UInt8} (known : name ∈ sampleNames) :
    discoveredAddr sampleScan (sampleEntry name 16 (by decide)) = some (sampleBle name).addr := by
  have compared : ∀ other ∈ sampleNames,
      ((sampleEntry name 16 (by decide)).btId.string == (sampleBle other).name.string) = ([name] == [other]) := by
    intro other listed
    rw [sampleEntry, sampleBle, sampleNames_string known, sampleNames_string listed]
  have first : ∀ name ∈ sampleNames, sampleNames.find? (fun other => [name] == [other]) = some name := by
    simp [sampleNames]
  have found : sampleNames.find? ((fun ble => (sampleEntry name 16 (by decide)).btId.string == ble.name.string) ∘ sampleBle) =
      some name := (List.find?_congr compared).trans (first name known)
  rw [discoveredAddr, sampleScan, List.find?_map, Option.map_map, found]
  rfl

theorem sampleUser_userInfo {names : List UInt8} (few : names.length ≤ 5) (known : ∀ name ∈ names, name ∈ sampleNames)
    (distinct : names.Nodup) : UserInfo ⟨[], sampleScan⟩ (sampleUser names few) := by
  constructor
  case type => rfl
  case data => rfl
  case distinct =>
    have strings : (sampleUser names few).serverData.lockEntries.map (fun entry => entry.btId.string) = names.map fun name => [name] := by
      apply List.map_map.trans
      apply List.map_congr_left
      intro name listed
      exact sampleNames_string (known name listed) (by decide : 1 < 100)
    rw [strings]
    exact distinct.map fun _ _ equal => List.singleton_inj.mp equal
  case discovered =>
    intro entry inside
    obtain ⟨name, listed, rfl⟩ := List.mem_map.mp inside
    rw [sampleUser_discovered (known name listed)]
    rfl
  case sized =>
    intro entry inside
    obtain ⟨name, _, rfl⟩ := List.mem_map.mp inside
    exact ⟨(by decide : 16 ≤ 32), (by decide : 68 ≤ 128), (by decide : 8 ≤ 32)⟩

theorem user_locks_delivered_two : DeliversLocks ⟨[], sampleScan⟩ (sampleUser [0x41, 0x42] (by decide)) := by
  have known : ∀ name ∈ [0x41, 0x42], name ∈ sampleNames := by simp [sampleNames]
  apply (user_locks_delivered_iff (sampleUser_userInfo (by decide) known (by decide))).mpr
  refine ⟨by decide, ?_⟩
  intro entry inside
  obtain ⟨name, listed, rfl⟩ := List.mem_map.mp inside
  have id : (sampleEntry name 16 (by decide)).btId.string = [name] := sampleNames_string (known name listed) (by decide : 1 < 100)
  rw [id, sampleUser_discovered (known name listed)]
  refine ⟨(by decide : 1 ≤ 13), ?_⟩
  rintro found ⟨⟩
  have nonzero : ∀ name ∈ sampleNames, 0 ∉ [0x30, name] := by simp [sampleNames]
  have addr : (sampleBle name).addr.string = [0x30, name] := Buffer.of_string (by decide : 2 < 32) (nonzero name (known name listed))
  rw [addr]
  exact (by decide : 2 ≤ 18)

theorem fifth_lock_lost : UserInfo ⟨[], sampleScan⟩ (sampleUser sampleNames (by decide)) ∧
    ¬DeliversLocks ⟨[], sampleScan⟩ (sampleUser sampleNames (by decide)) := by
  have user : UserInfo ⟨[], sampleScan⟩ (sampleUser sampleNames (by decide)) :=
    sampleUser_userInfo (by decide) (fun _ known => known) (by decide)
  exact ⟨user, fun delivers => absurd (user.few delivers) (by decide)⟩

end Bridge
