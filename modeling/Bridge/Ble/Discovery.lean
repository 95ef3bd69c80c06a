import Mathlib.Data.List.Induction
import Bridge.BridgeMain.LockRecords

namespace Bridge

open CString (Text)

/-- What the scan calls its callback with; some devices have no name. -/
structure Advertisement where
  addr : Text
  name : Option Text
deriving DecidableEq, Repr

def initLock : IgmLock :=
  ⟨Vector.replicate maxDeviceAddr 0, 0, Vector.replicate maxDeviceName 0, 0, [], 0, [], 0, [], 0⟩

def setLockName (lock : IgmLock) (name : Text) : Option IgmLock :=
  (setLockString maxDeviceName name.array).map fun (name, nameLen) => { lock with name, nameLen }

def setLockAddr (lock : IgmLock) (addr : Text) : Option IgmLock :=
  (setLockString maxDeviceAddr addr.array).map fun (addr, addrLen) => { lock with addr, addrLen }

/-- The credentials keep their blocks: only the name and the address are copied. -/
def copyLock (source : IgmLock) : Option IgmLock := do
  let addr ← CString.copy (Vector.replicate maxDeviceAddr 0) source.addr.toList source.addrLen
  let name ← CString.copy (Vector.replicate maxDeviceName 0) source.name.toList source.nameLen
  return { source with addr, name }

/-- The list of the locks, from its head on: `list_add` puts a new one in front. -/
def insertLock (locks : List IgmLock) (lock : IgmLock) : Option (List IgmLock) := (copyLock lock).map (· :: locks)

def findLockByName (name : List UInt8) : List IgmLock → Option (Option IgmLock)
  | [] => some none
  | pnode :: rest => (CString.equalUpTo pnode.nameLen pnode.name.toList name).bind fun same =>
    if same then some (some pnode) else findLockByName name rest

def IsIgm (name : Text) : Prop := [0x49, 0x47, 0x4d] <+: name.bytes

instance (name : Text) : Decidable (IsIgm name) := inferInstanceAs (Decidable (_ <+: _))

def continueDiscoveredDevice (locks : List IgmLock) (ad : Advertisement) : Option (List IgmLock) :=
  match ad.name with
  | none => some locks
  | some name =>
    if IsIgm name then
      (findLockByName name.array locks).bind fun
        | some _ => some locks
        | none => (setLockName initLock name).bind fun lock => (setLockAddr lock ad.addr).bind (insertLock locks)
    else some locks

def discover (ads : List Advertisement) : Option (List IgmLock) := ads.foldlM continueDiscoveredDevice []

def IgmLock.nameBytes (lock : IgmLock) : List UInt8 := lock.name.toList.take lock.nameLen

def IgmLock.addrBytes (lock : IgmLock) : List UInt8 := lock.addr.toList.take lock.addrLen

def firstAddr (ads : List Advertisement) (name : Text) : Option Text :=
  (ads.find? fun ad => ad.name == some name).map Advertisement.addr

def Advertised (ads : List Advertisement) (name : Text) : Prop := IsIgm name ∧ ∃ ad ∈ ads, ad.name = some name

structure OneEntryEach (ads : List Advertisement) (locks : List IgmLock) : Prop where
  distinct : (locks.map IgmLock.nameBytes).Nodup
  entries : ∀ name addr : Text, (∃ lock ∈ locks, lock.nameBytes = name.bytes ∧ lock.addrBytes = addr.bytes) ↔
    IsIgm name ∧ firstAddr ads name = some addr
  named : ∀ lock ∈ locks, ∃ name, Advertised ads name ∧ lock.nameBytes = name.bytes

/-- Nothing is written outside of a field, the list has one entry for each name, and a name is found exactly if a
    lock of this name is in the list. -/
def DiscoveryLaw (ads : List Advertisement) (name : Text) : Prop := ∃ locks found, discover ads = some locks ∧
  OneEntryEach ads locks ∧ findLockByName name.array locks = some found ∧
    (found.isSome = true ↔ ∃ lock ∈ locks, lock.nameBytes = name.bytes)

/-- A new name fits its field, its address fits too, and it does not begin with a name from before. -/
def Discoverable (before : List Advertisement) (ad : Advertisement) : Prop :=
  ∀ name, ad.name = some name → IsIgm name → Advertised before name ∨
    (name.bytes.length ≤ maxDeviceName ∧ ad.addr.bytes.length ≤ maxDeviceAddr ∧
      ∀ other, Advertised before other → ¬other.bytes <+: name.bytes)

def AllDiscoverable (ads : List Advertisement) : Prop := ∀ before ad, before ++ [ad] <+: ads → Discoverable before ad

structure IgmLock.Named (lock : IgmLock) : Prop where
  short : lock.nameLen ≤ maxDeviceName
  nonzero : 0 ∉ lock.nameBytes

section Discovery

theorem IgmLock.Named.compare {lock : IgmLock} (named : lock.Named) (name : Text) :
    CString.equalUpTo lock.nameLen lock.name.toList name.array = some (lock.nameBytes.isPrefixOf name.bytes) := by
  have length : lock.nameBytes.length = lock.nameLen := by
    rw [IgmLock.nameBytes, List.length_take, Vector.length_toList]
    exact Nat.min_eq_left named.short
  have split : lock.name.toList = lock.nameBytes ++ lock.name.toList.drop lock.nameLen := (List.take_append_drop _ _).symm
  have compared := CString.equalUpTo_eq named.nonzero name.nonzero (lock.name.toList.drop lock.nameLen)
  rw [length, ← split] at compared
  exact compared

theorem findLockByName_eq {locks : List IgmLock} (named : ∀ lock ∈ locks, lock.Named) (name : Text) :
    findLockByName name.array locks = some (locks.find? fun lock => lock.nameBytes.isPrefixOf name.bytes) := by
  induction locks with
  | nil => rfl
  | cons lock rest ih =>
    rw [List.forall_mem_cons] at named
    rw [findLockByName, named.1.compare, Option.bind_some, List.find?_cons]
    cases lock.nameBytes.isPrefixOf name.bytes with
    | true => rfl
    | false => exact ih named.2

theorem text_ext {name other : Text} (same : name.bytes = other.bytes) : name = other := by
  cases name
  cases other
  cases same
  rfl

/-- What the callback does with a list of named entries; `none` is a copy that leaves its field. -/
inductive DiscoveryStep (locks : List IgmLock) (ad : Advertisement) : Option (List IgmLock) → Prop
  | ignored (unnamed : ∀ name, ad.name = some name → ¬IsIgm name) : DiscoveryStep locks ad (some locks)
  | known {name : Text} {lock : IgmLock} (named : ad.name = some name) (igm : IsIgm name) (listed : lock ∈ locks)
      (begins : lock.nameBytes <+: name.bytes) : DiscoveryStep locks ad (some locks)
  | long {name : Text} (named : ad.name = some name) (igm : IsIgm name)
      (fresh : ∀ lock ∈ locks, ¬lock.nameBytes <+: name.bytes)
      (long : ¬(name.bytes.length ≤ maxDeviceName ∧ ad.addr.bytes.length ≤ maxDeviceAddr)) : DiscoveryStep locks ad none
  | new {name : Text} {lock : IgmLock} (named : ad.name = some name) (igm : IsIgm name)
      (fresh : ∀ lock ∈ locks, ¬lock.nameBytes <+: name.bytes)
      (fits : name.bytes.length ≤ maxDeviceName ∧ ad.addr.bytes.length ≤ maxDeviceAddr) (entry : lock.Named)
      (nameIs : lock.nameBytes = name.bytes) (addrIs : lock.addrBytes = ad.addr.bytes) :
      DiscoveryStep locks ad (some (lock :: locks))

theorem copyLock_copies {source : IgmLock} (name : source.nameLen ≤ maxDeviceName) (addr : source.addrLen ≤ maxDeviceAddr) :
    ∃ lock, copyLock source = some lock ∧ lock.nameLen = source.nameLen ∧ lock.nameBytes = source.nameBytes ∧
      lock.addrBytes = source.addrBytes := by
  have whole : ∀ {room : Nat} (field : Vector UInt8 room) {len : Nat}, len ≤ room → ∃ copied,
      CString.copy (Vector.replicate room 0) field.toList len = some copied ∧
        copied.toList.take len = field.toList.take len := by
    intro room field len fits
    have held : len ≤ field.toList.length := by rwa [Vector.length_toList]
    rcases CString.copy_some (Vector.replicate room 0) fits held with ⟨copied, done, bytes⟩
    refine ⟨copied, done, ?_⟩
    rw [bytes, List.take_left' (by rw [List.length_take, Nat.min_eq_left held])]
  rcases whole source.name name with ⟨copiedName, named, nameIs⟩
  rcases whole source.addr addr with ⟨copiedAddr, placed, addrIs⟩
  refine ⟨{ source with addr := copiedAddr, name := copiedName }, ?_, rfl, nameIs, addrIs⟩
  simp only [copyLock, placed, named, Option.bind_eq_bind, Option.bind_some, Option.pure_def]

theorem insertLock_fits (locks : List IgmLock) {name addr : Text} (short : name.bytes.length ≤ maxDeviceName)
    (short' : addr.bytes.length ≤ maxDeviceAddr) :
    ∃ lock, ((setLockName initLock name).bind fun lock => (setLockAddr lock addr).bind (insertLock locks)) =
        some (lock :: locks) ∧ lock.Named ∧ lock.nameBytes = name.bytes ∧ lock.addrBytes = addr.bytes := by
  rcases setLockString_some name.chars_eq short with ⟨name', stored, nameIs⟩
  rcases setLockString_some addr.chars_eq short' with ⟨addr', placed, addrIs⟩
  rcases @copyLock_copies { initLock with
      name := name', nameLen := name.bytes.length, addr := addr', addrLen := addr.bytes.length } short short' with
    ⟨lock, copied, length, names, addrs⟩
  have nameBytes : lock.nameBytes = name.bytes := names.trans nameIs
  refine ⟨lock, ?_, ⟨?_, ?_⟩, nameBytes, addrs.trans addrIs⟩
  · simp only [setLockName, setLockAddr, stored, placed, insertLock, Option.map_some, Option.bind_some, copied]
  · rw [length]
    exact short
  · rw [nameBytes]
    exact name.nonzero

theorem insertLock_overruns (locks : List IgmLock) {name addr : Text}
    (long : ¬(name.bytes.length ≤ maxDeviceName ∧ addr.bytes.length ≤ maxDeviceAddr)) :
    ((setLockName initLock name).bind fun lock => (setLockAddr lock addr).bind (insertLock locks)) = none := by
  by_cases short : name.bytes.length ≤ maxDeviceName
  · have far : maxDeviceAddr < addr.bytes.length := Nat.not_le.mp fun short' => long ⟨short, short'⟩
    rcases setLockString_some name.chars_eq short with ⟨name', stored, _⟩
    simp only [setLockName, setLockAddr, stored, setLockString_faults addr.chars_eq far, Option.map_some, Option.map_none,
      Option.bind_some, Option.bind_none]
  · simp only [setLockName, setLockString_faults name.chars_eq (Nat.not_le.mp short), Option.map_none, Option.bind_none]

theorem continueDiscoveredDevice_step {locks : List IgmLock} (named : ∀ lock ∈ locks, lock.Named) (ad : Advertisement) :
    DiscoveryStep locks ad (continueDiscoveredDevice locks ad) := by
  unfold continueDiscoveredDevice
  cases given : ad.name with
  | none => exact .ignored fun name same => by cases given.symm.trans same
  | some name =>
    by_cases igm : IsIgm name
    · simp only [if_pos igm, findLockByName_eq named, Option.bind_some]
      cases found : locks.find? fun lock => lock.nameBytes.isPrefixOf name.bytes with
      | some lock =>
        have begins := List.find?_some found
        exact .known given igm (List.mem_of_find?_eq_some found) (List.isPrefixOf_iff_prefix.mp begins)
      | none =>
        have fresh : ∀ lock ∈ locks, ¬lock.nameBytes <+: name.bytes := by
          intro lock listed begins
          exact List.find?_eq_none.mp found lock listed (List.isPrefixOf_iff_prefix.mpr begins)
        by_cases fits : name.bytes.length ≤ maxDeviceName ∧ ad.addr.bytes.length ≤ maxDeviceAddr
        · rcases insertLock_fits locks fits.1 fits.2 with ⟨lock, inserted, entry, nameIs, addrIs⟩
          simp only [inserted]
          exact .new given igm fresh fits entry nameIs addrIs
        · simp only [insertLock_overruns locks fits]
          exact .long given igm fresh fits
    · simp only [if_neg igm]
      exact .ignored fun other same => by
        cases given.symm.trans same
        exact igm

theorem discover_snoc (ads : List Advertisement) (ad : Advertisement) :
    discover (ads ++ [ad]) = (discover ads).bind fun locks => continueDiscoveredDevice locks ad := by
  simp only [discover, List.foldlM_append, Option.bind_eq_bind, List.foldlM_cons, List.foldlM_nil, Option.pure_def,
    Option.bind_fun_some]

theorem allDiscoverable_snoc (ads : List Advertisement) (ad : Advertisement) :
    AllDiscoverable (ads ++ [ad]) ↔ AllDiscoverable ads ∧ Discoverable ads ad := by
  constructor
  · intro all
    exact ⟨fun before earlier part => all before earlier (part.trans (List.prefix_append ads [ad])), all ads ad (List.prefix_refl _)⟩
  · rintro ⟨all, last⟩ before earlier part
    rcases List.prefix_concat_iff.mp part with same | part
    · rcases List.append_inj' same rfl with ⟨rfl, ⟨⟩⟩
      exact last
    · exact all before earlier part

theorem firstAddr_snoc (ads : List Advertisement) (ad : Advertisement) (name : Text) :
    firstAddr (ads ++ [ad]) name = (firstAddr ads name).or (if ad.name = some name then some ad.addr else none) := by
  unfold firstAddr
  rw [List.find?_append, Option.map_or]
  congr 1
  by_cases same : ad.name = some name <;> simp [same]

theorem firstAddr_isSome_iff {ads : List Advertisement} {name : Text} :
    (firstAddr ads name).isSome = true ↔ ∃ ad ∈ ads, ad.name = some name := by
  rw [firstAddr, Option.isSome_map, List.find?_isSome]
  simp only [beq_iff_eq]

variable {ads : List Advertisement} {locks : List IgmLock} {ad : Advertisement}

theorem OneEntryEach.listed (one : OneEntryEach ads locks) {name : Text} (advertised : Advertised ads name) :
    ∃ lock ∈ locks, lock.nameBytes = name.bytes := by
  rcases Option.isSome_iff_exists.mp (firstAddr_isSome_iff.mpr advertised.2) with ⟨addr, first⟩
  rcases (one.entries name addr).mpr ⟨advertised.1, first⟩ with ⟨lock, inside, nameIs, _⟩
  exact ⟨lock, inside, nameIs⟩

theorem OneEntryEach.ignore (one : OneEntryEach ads locks)
    (old : ∀ name, ad.name = some name → IsIgm name → Advertised ads name) : OneEntryEach (ads ++ [ad]) locks := by
  constructor
  case distinct => exact one.distinct
  case entries =>
    intro name addr
    rw [one.entries]
    apply and_congr_right
    intro igm
    rw [firstAddr_snoc]
    cases first : firstAddr ads name with
    | some _ => rfl
    | none =>
      have other : ad.name ≠ some name := by
        intro same
        have known := firstAddr_isSome_iff.mpr (old name same igm).2
        rw [first] at known
        cases known
      rw [if_neg other]
      rfl
  case named =>
    intro lock inside
    rcases one.named lock inside with ⟨name, ⟨igm, earlier, listed, given⟩, nameIs⟩
    exact ⟨name, ⟨igm, earlier, List.mem_append_left _ listed, given⟩, nameIs⟩

theorem OneEntryEach.add (one : OneEntryEach ads locks) {name : Text} {lock : IgmLock} (given : ad.name = some name)
    (igm : IsIgm name) (fresh : ∀ lock ∈ locks, lock.nameBytes ≠ name.bytes) (nameIs : lock.nameBytes = name.bytes)
    (addrIs : lock.addrBytes = ad.addr.bytes) : OneEntryEach (ads ++ [ad]) (lock :: locks) := by
  have unknown : firstAddr ads name = none := by
    by_contra known
    rcases one.listed ⟨igm, firstAddr_isSome_iff.mp (Option.isSome_iff_ne_none.mpr known)⟩ with ⟨lock, inside, same⟩
    exact fresh lock inside same
  constructor
  case distinct =>
    rw [List.map_cons, List.nodup_cons]
    refine ⟨?_, one.distinct⟩
    rw [nameIs, List.mem_map]
    rintro ⟨lock, inside, same⟩
    exact fresh lock inside same
  case entries =>
    intro other addr
    rw [firstAddr_snoc, given]
    by_cases same : name = other
    · subst same
      rw [unknown, if_pos rfl, Option.none_or]
      constructor
      · rintro ⟨entry, inside, sameName, sameAddr⟩
        rcases List.mem_cons.mp inside with rfl | later
        · exact ⟨igm, congrArg some (text_ext (addrIs.symm.trans sameAddr))⟩
        · exact absurd sameName (fresh entry later)
      · rintro ⟨_, ⟨⟩⟩
        exact ⟨lock, List.mem_cons_self, nameIs, addrIs⟩
    · rw [if_neg fun equal => same (Option.some.inj equal), Option.or_none, ← one.entries]
      constructor
      · rintro ⟨entry, inside, sameName, sameAddr⟩
        rcases List.mem_cons.mp inside with rfl | later
        · exact absurd (text_ext (nameIs.symm.trans sameName)) same
        · exact ⟨entry, later, sameName, sameAddr⟩
      · rintro ⟨entry, inside, sameName, sameAddr⟩
        exact ⟨entry, List.mem_cons_of_mem _ inside, sameName, sameAddr⟩
  case named =>
    intro entry inside
    rcases List.mem_cons.mp inside with rfl | later
    · exact ⟨name, ⟨igm, ad, List.mem_append_right _ List.mem_cons_self, given⟩, nameIs⟩
    · rcases one.named entry later with ⟨other, ⟨igm', earlier, listed, given'⟩, same⟩
      exact ⟨other, ⟨igm', earlier, List.mem_append_left _ listed, given'⟩, same⟩

/-- A name that can no longer get into the list: an entry that it begins with hides it. -/
structure Shadowed (locks : List IgmLock) (name : Text) : Prop where
  covered : ∃ lock ∈ locks, lock.nameBytes <+: name.bytes
  missing : ∀ lock ∈ locks, lock.nameBytes ≠ name.bytes

theorem Shadowed.step {name : Text} (shadowed : Shadowed locks name) {after : List IgmLock}
    (step : DiscoveryStep locks ad (some after)) : Shadowed after name := by
  cases step with
  | ignored | known => exact shadowed
  | @new other lock given igm fresh fits entry nameIs addrIs =>
    rcases shadowed.covered with ⟨cover, inside, begins⟩
    refine ⟨⟨cover, List.mem_cons_of_mem _ inside, begins⟩, ?_⟩
    intro entry listed
    rcases List.mem_cons.mp listed with rfl | later
    · intro same
      rw [← same, nameIs] at begins
      exact fresh cover inside begins
    · exact shadowed.missing entry later

theorem DiscoveryStep.named (named : ∀ lock ∈ locks, lock.Named) {after : List IgmLock}
    (step : DiscoveryStep locks ad (some after)) : ∀ lock ∈ after, lock.Named := by
  cases step with
  | ignored | known => exact named
  | new _ _ _ _ entry => exact List.forall_mem_cons.mpr ⟨entry, named⟩

/-- After advertisements that can all be taken the list has an entry for each name; after others, if the copies have
    stayed inside, some name is hidden. -/
inductive Discovered (ads : List Advertisement) : Prop
  | whole {locks : List IgmLock} (all : AllDiscoverable ads) (done : discover ads = some locks)
      (named : ∀ lock ∈ locks, lock.Named) (one : OneEntryEach ads locks)
  | broken (lost : ¬AllDiscoverable ads) (hidden : ∀ locks, discover ads = some locks →
      (∀ lock ∈ locks, lock.Named) ∧ ∃ name, Advertised ads name ∧ Shadowed locks name)

theorem Advertised.snoc {name : Text} (advertised : Advertised ads name) : Advertised (ads ++ [ad]) name := by
  rcases advertised with ⟨igm, earlier, listed, given⟩
  exact ⟨igm, earlier, List.mem_append_left _ listed, given⟩

theorem discovered_step (all : AllDiscoverable ads) (done : discover ads = some locks) (named : ∀ lock ∈ locks, lock.Named)
    (one : OneEntryEach ads locks) (ad : Advertisement) : Discovered (ads ++ [ad]) := by
  have next : discover (ads ++ [ad]) = continueDiscoveredDevice locks ad := by rw [discover_snoc, done, Option.bind_some]
  have step := continueDiscoveredDevice_step named ad
  rw [← next] at step
  -- a name that begins with no entry is that of none, and new
  have apart : ∀ {name : Text}, (∀ lock ∈ locks, ¬lock.nameBytes <+: name.bytes) → ∀ lock ∈ locks, lock.nameBytes ≠ name.bytes :=
    fun fresh lock inside same => fresh lock inside (same ▸ List.prefix_refl _)
  have new : ∀ {name : Text}, (∀ lock ∈ locks, ¬lock.nameBytes <+: name.bytes) → ¬Advertised ads name := by
    intro name fresh advertised
    rcases one.listed advertised with ⟨lock, inside, same⟩
    exact apart fresh lock inside same
  generalize result : discover (ads ++ [ad]) = after at step
  cases step with
  | ignored unnamed =>
    have fits : Discoverable ads ad := fun name given igm => absurd igm (unnamed name given)
    have old : ∀ name, ad.name = some name → IsIgm name → Advertised ads name := fun name given igm => absurd igm (unnamed name given)
    exact .whole ((allDiscoverable_snoc ads ad).mpr ⟨all, fits⟩) result named (one.ignore old)
  | @known name lock given igm listed begins =>
    by_cases old : Advertised ads name
    · have same : ∀ other, ad.name = some other → IsIgm other → Advertised ads other := by
        intro other given' _
        cases given.symm.trans given'
        exact old
      exact .whole ((allDiscoverable_snoc ads ad).mpr ⟨all, fun other given' igm' => .inl (same other given' igm')⟩) result
        named (one.ignore same)
    · apply Discovered.broken
      · intro all'
        rcases (allDiscoverable_snoc ads ad).mp all' with ⟨_, last⟩
        rcases last name given igm with advertised | ⟨_, _, clear⟩
        · exact old advertised
        · rcases one.named lock listed with ⟨cover, advertised, same⟩
          exact clear cover advertised (same ▸ begins)
      · intro locks' done'
        cases result.symm.trans done'
        refine ⟨named, name, ⟨igm, ad, List.mem_append_right _ List.mem_cons_self, given⟩, ⟨lock, listed, begins⟩, ?_⟩
        intro entry inside same
        rcases one.named entry inside with ⟨other, advertised, same'⟩
        exact old (text_ext (same.symm.trans same') ▸ advertised)
  | @long name given igm fresh long =>
    apply Discovered.broken
    · intro all'
      rcases (allDiscoverable_snoc ads ad).mp all' with ⟨_, last⟩
      rcases last name given igm with advertised | ⟨short, short', _⟩
      · exact new fresh advertised
      · exact long ⟨short, short'⟩
    · intro locks' done'
      cases result.symm.trans done'
  | @new name lock given igm fresh fits entry nameIs addrIs =>
    have last : Discoverable ads ad := by
      intro other given' _
      cases given.symm.trans given'
      refine .inr ⟨fits.1, fits.2, ?_⟩
      intro other' advertised begins
      rcases one.listed advertised with ⟨lock, inside, same⟩
      exact fresh lock inside (same ▸ begins)
    exact .whole ((allDiscoverable_snoc ads ad).mpr ⟨all, last⟩) result (List.forall_mem_cons.mpr ⟨entry, named⟩)
      (one.add given igm (apart fresh) nameIs addrIs)

theorem discovered (ads : List Advertisement) : Discovered ads := by
  induction ads using List.reverseRecOn with
  | nil =>
    have none : AllDiscoverable [] := fun before ad part => by simp at part
    exact .whole none rfl (List.forall_mem_nil _) ⟨List.nodup_nil, by simp [firstAddr], List.forall_mem_nil _⟩
  | append_singleton ads ad ih =>
    cases ih with
    | whole all done named one => exact discovered_step all done named one ad
    | broken lost hidden =>
      apply Discovered.broken
      · exact fun all => lost ((allDiscoverable_snoc ads ad).mp all).1
      · intro after done
        rw [discover_snoc] at done
        rcases Option.bind_eq_some_iff.mp done with ⟨locks, before, stepped⟩
        rcases hidden locks before with ⟨named, name, advertised, shadowed⟩
        have step := continueDiscoveredDevice_step named ad
        rw [stepped] at step
        exact ⟨step.named named, name, advertised.snoc, shadowed.step step⟩

end Discovery

/-- The law of the discovery list holds of some advertisements and a name to look for exactly if every new name and its
    address fit their fields, none begins with a name from before, and the name is in the list or begins with none in it. -/
theorem discovery_law_iff (ads : List Advertisement) (name : Text) :
    DiscoveryLaw ads name ↔ AllDiscoverable ads ∧
      (Advertised ads name ∨ ∀ other, Advertised ads other → ¬other.bytes <+: name.bytes) := by
  cases discovered ads with
  | @whole locks all done named one =>
    have found := findLockByName_eq named name
    have sharp : DiscoveryLaw ads name ↔ ((locks.find? fun lock => lock.nameBytes.isPrefixOf name.bytes).isSome = true ↔
        ∃ lock ∈ locks, lock.nameBytes = name.bytes) := by
      constructor
      · rintro ⟨locks', found', done', _, found'', law⟩
        cases done.symm.trans done'
        cases found.symm.trans found''
        exact law
      · exact fun law => ⟨locks, _, done, one, found, law⟩
    rw [sharp, and_iff_right all, List.find?_isSome]
    simp only [List.isPrefixOf_iff_prefix]
    constructor
    · intro law
      by_cases begins : ∃ lock ∈ locks, lock.nameBytes <+: name.bytes
      · rcases law.mp begins with ⟨lock, inside, same⟩
        rcases one.named lock inside with ⟨other, advertised, same'⟩
        exact .inl (text_ext (same.symm.trans same') ▸ advertised)
      · apply Or.inr
        intro other advertised begins'
        rcases one.listed advertised with ⟨lock, inside, same⟩
        exact begins ⟨lock, inside, same ▸ begins'⟩
    · intro either
      constructor
      · rintro ⟨lock, inside, begins⟩
        rcases either with advertised | apart
        · exact one.listed advertised
        · rcases one.named lock inside with ⟨other, advertised, same⟩
          exact absurd (same ▸ begins) (apart other advertised)
      · rintro ⟨lock, inside, same⟩
        exact ⟨lock, inside, same ▸ List.prefix_refl _⟩
  | broken lost hidden =>
    apply iff_of_false
    · rintro ⟨locks, _, done, one, _⟩
      rcases hidden locks done with ⟨_, name, advertised, shadowed⟩
      rcases one.listed advertised with ⟨lock, inside, same⟩
      exact shadowed.missing lock inside same
    · exact fun both => lost both.1

def sampleAddr : Text := ⟨[0x30], by decide⟩

def sampleName : Text := ⟨[0x49, 0x47, 0x4d, 0x31], by decide⟩

def longerName : Text := ⟨[0x49, 0x47, 0x4d, 0x31, 0x32], by decide⟩

def sampleDevices : List Advertisement := [⟨sampleAddr, some sampleName⟩, ⟨⟨[0x31], by decide⟩, some longerName⟩]

theorem longer_name_lost : ¬DiscoveryLaw sampleDevices longerName := by
  rintro ⟨locks, _, done, one, _⟩
  have names : (discover sampleDevices).map (List.map IgmLock.nameBytes) = some [sampleName.bytes] := by decide +kernel
  have advertised : Advertised sampleDevices longerName := ⟨by decide, _, List.mem_cons_of_mem _ List.mem_cons_self, rfl⟩
  rcases one.listed advertised with ⟨lock, inside, same⟩
  rw [done, Option.map_some, Option.some.injEq] at names
  have listed := List.mem_map_of_mem (f := IgmLock.nameBytes) inside
  rw [names, same] at listed
  exact absurd listed (by decide)

end Bridge
