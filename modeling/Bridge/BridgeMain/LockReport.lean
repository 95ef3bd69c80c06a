import Bridge.BridgeMain.LockRecords

namespace Bridge

open CString (Buffer)

def LockInfo.discovered (li : LockInfo) (bleList : List BleAddr) : Option (Buffer 32) :=
  (bleList.find? fun ble => CString.chars li.lockId.toList == some ble.name.string).map BleAddr.addr

structure LockInfo.Given (info li : LockInfo) (found : Buffer 32) : Prop where
  credentials : { info with lockAddr := li.lockAddr, lockAddrSize := li.lockAddrSize } = li
  addr : CString.chars info.lockAddr.toList = some found.string
  addrSize : info.lockAddrSize.toNat = found.string.length

def SysInfo.Finds (si : SysInfo) (li : LockInfo) : Prop := ∃ info found,
  searchLockInfo li.lockId.toList si.lockinfo = some (some info) ∧ li.discovered si.bleList = some found ∧ info.Given li found

/-- `AddLockinfo` returns 0 exactly if the lock is found afterwards, no other lock changes, and an error changes nothing. -/
def ReportsTruth (si : SysInfo) (li : LockInfo) : Prop := ∃ si' ret, addLockinfo si li = some (si', ret) ∧
  (ret = 0 ↔ si'.Finds li) ∧ (∀ (i : Nat) (info : LockInfo), si.lockinfo[i]? = some info → si'.lockinfo[i]? = some info) ∧
    (ret ≠ 0 → si' = si)

section Reports

variable {si : SysInfo} {li : LockInfo} {found : Buffer 32}

theorem getAddrBle_discovered (li : LockInfo) (bleList : List BleAddr) :
    getAddrBle li.lockId.toList bleList = some (li.discovered bleList) :=
  getAddrBle_eq (by simp) bleList

theorem searchLockInfo_append {lockId : List UInt8} {infos : List LockInfo} (missed : searchLockInfo lockId infos = some none)
    (more : List LockInfo) : searchLockInfo lockId (infos ++ more) = searchLockInfo lockId more := by
  induction infos with
  | nil => rfl
  | cons info rest ih =>
    rcases Option.bind_eq_some_iff.mp missed with ⟨same, compared, searched⟩
    cases same with
    | true => cases searched
    | false =>
      rw [List.cons_append, searchLockInfo, compared]
      exact ih searched

theorem discovered_chars (known : li.discovered si.bleList = some found) : ∃ id, CString.chars li.lockId.toList = some id := by
  rcases Option.map_eq_some_iff.mp known with ⟨ble, first, _⟩
  have same := List.find?_some first
  exact ⟨_, beq_iff_eq.mp same⟩

theorem equal_self {array string : List UInt8} (read : CString.chars array = some string) :
    CString.equal array array = some true := by
  rw [CString.equal_eq read (CString.chars_lt read), read, decide_eq_true rfl]

theorem chars_overwritten_iff {array rest : List UInt8} (bytes : array = found.string ++ rest) (room : rest ≠ []) :
    CString.chars array = some found.string ↔ rest.head? = some 0 := by
  have nonzero := CString.chars_nonzero found.chars_eq
  cases rest with
  | nil => exact absurd rfl room
  | cons byte rest =>
    rw [List.head?_cons, Option.some.injEq, bytes]
    constructor
    · intro read
      rcases CString.chars_some read with ⟨after, split⟩
      exact (List.cons.inj (List.append_cancel_left split)).1
    · rintro rfl
      exact CString.chars_append nonzero rest

end Reports

/-- For a lock that is not stored yet, `AddLockinfo` reports the truth exactly if the list is full, or the scan knows
    the lock and the given record has a NUL where the address will end. -/
theorem reports_truth_iff (si : SysInfo) (li : LockInfo) (fresh : searchLockInfo li.lockId.toList si.lockinfo = some none) :
    ReportsTruth si li ↔ 4 ≤ si.lockinfo.length ∨
      ∃ found, li.discovered si.bleList = some found ∧ li.lockAddr.toList[found.string.length]? = some 0 := by
  by_cases room : si.lockinfo.length < 4
  · cases known : li.discovered si.bleList with
    | none =>
      have added := addLockinfo_unknown room (by rw [getAddrBle_discovered, known])
      apply iff_of_false
      · rintro ⟨si', ret, done, truth, _⟩
        cases added.symm.trans done
        rcases truth.mp rfl with ⟨info, found, searched, _⟩
        cases fresh.symm.trans searched
      · rintro (full | ⟨found, ⟨⟩, _⟩)
        omega
    | some found =>
      have addr : getAddrBle li.lockId.toList si.bleList = some (some found) := by rw [getAddrBle_discovered, known]
      rcases addLockinfo_known room addr with ⟨lockAddr, lockAddrSize, added, bytes, size⟩
      have searched : searchLockInfo li.lockId.toList (si.lockinfo ++ [{ li with lockAddr, lockAddrSize }]) =
          some (some { li with lockAddr, lockAddrSize }) := by
        rcases discovered_chars known with ⟨id, read⟩
        rw [searchLockInfo_append fresh, searchLockInfo, equal_self read]
        rfl
      have nul : CString.chars lockAddr.toList = some found.string ↔ li.lockAddr.toList[found.string.length]? = some 0 := by
        have short := found.length_lt
        have behind : li.lockAddr.toList.drop found.string.length ≠ [] := by
          rw [ne_eq, List.drop_eq_nil_iff, Vector.length_toList]
          omega
        rw [chars_overwritten_iff bytes behind, List.head?_drop]
      constructor
      · rintro ⟨si', ret, done, truth, _⟩
        cases added.symm.trans done
        rcases truth.mp rfl with ⟨info, found', searched', known', given⟩
        cases known.symm.trans known'
        cases searched.symm.trans searched'
        exact .inr ⟨found, rfl, nul.mp given.addr⟩
      · rintro (full | ⟨_, ⟨⟩, behind⟩)
        · omega
        · refine ⟨_, 0, added, iff_of_true rfl ⟨_, found, searched, known, ⟨rfl, nul.mpr behind, size⟩⟩, ?_,
            fun error => absurd rfl error⟩
          intro i info kept
          rw [List.getElem?_append_left (List.getElem?_eq_some_iff.mp kept).1]
          exact kept
  · have added : addLockinfo si li = some (si, -1) := if_neg room
    apply iff_of_true _ (.inl (Nat.not_lt.mp room))
    refine ⟨si, -1, added, ?_, fun _ _ kept => kept, fun _ => rfl⟩
    apply iff_of_false (by decide)
    rintro ⟨info, found, searched, _⟩
    cases fresh.symm.trans searched

def sampleRecord (name : UInt8) : LockInfo where
  lockAddrSize := 0
  lockAddr := Vector.replicate 32 0
  lockEkeySize := 16
  lockEkey := Vector.replicate 32 7
  lockTokenSize := 68
  lockToken := Vector.replicate 128 8
  lockPasswdSize := 8
  lockPasswd := Vector.replicate 32 9
  lockIdSize := 1
  lockId := (Buffer.of 32 [name] (by simp)).array

theorem known_lock_reported : ReportsTruth ⟨[], [sampleBle 0x41]⟩ (sampleRecord 0x41) := by
  apply (reports_truth_iff ⟨[], [sampleBle 0x41]⟩ (sampleRecord 0x41) rfl).mpr
  exact .inr ⟨(sampleBle 0x41).addr, rfl, by decide⟩

/-- A lock that the scan has not found, with an empty list: nothing is stored, and 0 is returned. -/
theorem unknown_lock_reported :
    searchLockInfo (sampleRecord 0x42).lockId.toList [] = some none ∧
      ¬ReportsTruth ⟨[], [sampleBle 0x41]⟩ (sampleRecord 0x42) := by
  refine ⟨rfl, ?_⟩
  rintro ⟨si', ret, done, truth, _⟩
  have added : addLockinfo ⟨[], [sampleBle 0x41]⟩ (sampleRecord 0x42) = some (⟨[], [sampleBle 0x41]⟩, 0) := rfl
  cases added.symm.trans done
  rcases truth.mp rfl with ⟨info, found, searched, _⟩
  cases searched

end Bridge
