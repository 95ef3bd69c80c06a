import Mathlib.Data.Fintype.Card
import Bridge.Library.Runs
import Bridge.Connection.Table

namespace Bridge

variable (libc : Libc)

inductive SlotCall
  | begin (time : Int) (type : ConnectionType) (jKey : List UInt8) (keyLen : Int)
  | finish (connectionId : Int)

/-- The table beside the ids that its users hold: those returned by successful begins and not
    ended since. -/
structure Ledger where
  table : Connections
  outstanding : List Int

def Ledger.start : Ledger := ⟨Connections.zero, []⟩

def Ledger.next (ledger : Ledger) : SlotCall → Option Ledger
  | .begin time type jKey keyLen =>
    let (table, id) := beginConnection libc time ledger.table type jKey keyLen
    if id = errorConnectionId then some ⟨table, ledger.outstanding⟩
    else some ⟨table, id :: ledger.outstanding⟩
  | .finish connectionId =>
    some ⟨endConnection ledger.table connectionId, ledger.outstanding.filter (· ≠ connectionId)⟩

/-- The ids held are distinct slots, and a begin with a proper key fails only when all are held. -/
structure Ledger.Sound (ledger : Ledger) : Prop where
  distinct : ledger.outstanding.Nodup
  slots : ∀ id ∈ ledger.outstanding, 0 ≤ id ∧ id ≤ 31
  full : ∀ time type jKey,
    (beginConnection libc time ledger.table type jKey kConnectionKeyLength).2 = errorConnectionId →
      ledger.outstanding.length = 32

/-- A begin whose key has another length is only made when no slot is free. -/
def KeepsSlots (ledger : Ledger) : SlotCall → Prop
  | .begin _ _ _ keyLen => keyLen = kConnectionKeyLength ∨ ledger.table.firstFree = none
  | .finish _ => True

structure Ledger.Inv (ledger : Ledger) : Prop where
  distinct : ledger.outstanding.Nodup
  slots : ∀ id ∈ ledger.outstanding, 0 ≤ id ∧ id ≤ 31
  active : ∀ i : Fin 32, (ledger.table.at i.val).active = true ↔ (i.val : Int) ∈ ledger.outstanding

theorem endConnection_active (m : Connections) (connectionId : Int) (i : Fin 32) :
    ((endConnection m connectionId).at i.val).active = true ↔
      (m.at i.val).active = true ∧ connectionId ≠ i.val := by
  cases slot : getConnection connectionId with
  | none =>
    have other : connectionId ≠ i.val := by
      intro same
      rw [same, getConnection_of_range (by omega)] at slot
      cases slot
    simp [endConnection, slot, other]
  | some j =>
    obtain ⟨rfl, inside⟩ := getConnection_some slot
    have zeroed : ∀ (freed : Connections) (k : Fin 32),
        ((freed.put 0 { freed.at 0 with rxNonce := zeroNonce }).at k.val).active = (freed.at k.val).active := by
      intro freed k
      by_cases first : k.val = 0
      · rw [first, Connections.at_put_self]
      · rw [Connections.at_put_ne _ _ first (by omega)]
    simp only [endConnection, slot, zeroed]
    by_cases same : i.val = j
    · subst same
      simp
    · rw [Connections.at_put_ne _ _ same (by omega)]
      have other : (j : Int) ≠ i.val := by omega
      simp [other]

theorem Ledger.Inv.begin {ledger ledger' : Ledger} (inv : ledger.Inv) (time : Int) (type : ConnectionType)
    (jKey : List UInt8) (keyLen : Int) (keeps : KeepsSlots ledger (.begin time type jKey keyLen))
    (stepped : ledger.next libc (.begin time type jKey keyLen) = some ledger') : ledger'.Inv := by
  cases found : ledger.table.firstFree with
  | none =>
    simp only [Ledger.next, begin_full libc time type jKey keyLen found, if_true] at stepped
    cases stepped
    exact inv
  | some i =>
    rcases keeps with rfl | full
    · have taken : ((i.val : Int)) ≠ errorConnectionId := by
        unfold errorConnectionId
        omega
      simp only [Ledger.next, begin_free libc time type jKey found, taken, if_false] at stepped
      cases stepped
      have free := firstFree_some found
      have unheld : (i.val : Int) ∉ ledger.outstanding := by
        intro held
        rw [(inv.active i).mpr held] at free
        cases free
      refine ⟨List.nodup_cons.mpr ⟨unheld, inv.distinct⟩, ?_, ?_⟩
      · intro id held
        rcases List.mem_cons.mp held with rfl | held
        · omega
        · exact inv.slots id held
      · intro k
        by_cases same : k.val = i.val
        · rw [same, Connections.at_put_self]
          simp
        · rw [Connections.at_put_ne _ _ same (by omega), inv.active k, List.mem_cons]
          have other : (k.val : Int) ≠ i.val := by omega
          simp [other]
    · rw [full] at found
      cases found

theorem Ledger.Inv.finish {ledger ledger' : Ledger} (inv : ledger.Inv) (connectionId : Int)
    (stepped : ledger.next libc (.finish connectionId) = some ledger') : ledger'.Inv := by
  cases stepped
  refine ⟨inv.distinct.filter _, ?_, ?_⟩
  · intro id held
    exact inv.slots id (List.mem_of_mem_filter held)
  · intro i
    rw [endConnection_active, inv.active i, List.mem_filter]
    apply and_congr_right
    intro _
    rw [decide_eq_true_iff]
    exact ne_comm

theorem Ledger.Inv.next {ledger ledger' : Ledger} (inv : ledger.Inv) (call : SlotCall)
    (keeps : KeepsSlots ledger call) (stepped : ledger.next libc call = some ledger') : ledger'.Inv := by
  cases call with
  | begin time type jKey keyLen => exact inv.begin libc time type jKey keyLen keeps stepped
  | finish connectionId => exact inv.finish libc connectionId stepped

theorem Ledger.Inv.start : Ledger.start.Inv where
  distinct := List.nodup_nil
  slots := by simp [Ledger.start]
  active := by
    intro i
    have idle : (Ledger.start.table.at i.val).active = false := by
      rw [Ledger.start, Connections.zero_at]
      rfl
    rw [idle, Ledger.start]
    constructor
    · intro active
      cases active
    · intro held
      cases held

theorem Ledger.Inv.full {ledger : Ledger} (inv : ledger.Inv) (full : ledger.table.firstFree = none) :
    ledger.outstanding.length = 32 := by
  have perm : ledger.outstanding.Perm ((List.finRange 32).map fun i => (i.val : Int)) := by
    rw [List.perm_ext_iff_of_nodup inv.distinct]
    · intro id
      rw [List.mem_map]
      constructor
      · intro held
        obtain ⟨low, high⟩ := inv.slots id held
        exact ⟨⟨id.toNat, by omega⟩, List.mem_finRange _, by simp; omega⟩
      · intro listed
        obtain ⟨i, _, rfl⟩ := listed
        exact (inv.active i).mp (firstFree_none full i)
    · refine (List.nodup_finRange 32).map ?_
      intro i j same
      exact Fin.ext (Int.ofNat_inj.mp same)
  simpa using perm.length_eq

theorem Ledger.Inv.sound {ledger : Ledger} (inv : ledger.Inv) : ledger.Sound libc where
  distinct := inv.distinct
  slots := inv.slots
  full := by
    intro time type jKey failed
    cases found : ledger.table.firstFree with
    | none => exact inv.full found
    | some i =>
      rw [begin_free libc time type jKey found] at failed
      unfold errorConnectionId at failed
      exact absurd failed (by simp)

/-- In every run in which no slot is lost to a key of the wrong length, the ids handed out are
    distinct slots and the table refuses a session only when all 32 are taken. -/
theorem connection_table_sound (calls : List SlotCall) (ledger : Ledger)
    (keeps : Runs.Along (Ledger.next libc) KeepsSlots Ledger.start calls)
    (reached : Runs.run (Ledger.next libc) Ledger.start calls = some ledger) : ledger.Sound libc := by
  have inv : ledger.Inv :=
    Runs.run_invariant (Ledger.next libc) (fun _ call _ inv keeps stepped => inv.next libc call keeps stepped)
      Ledger.Inv.start keeps reached
  exact inv.sound libc

def oneSession : List SlotCall := [.begin 0 .guest (List.replicate 16 1) 16, .finish 40, .finish 0]

theorem connection_table_sound_one_session :
    ∃ ledger, Runs.run (Ledger.next ⟨fun _ _ => 0⟩) Ledger.start oneSession = some ledger ∧
      ledger.Sound ⟨fun _ _ => 0⟩ := by
  have returns : (Runs.run (Ledger.next ⟨fun _ _ => 0⟩) Ledger.start oneSession).isSome = true := by
    decide +kernel
  obtain ⟨ledger, reached⟩ := Option.isSome_iff_exists.mp returns
  have keeps : Runs.Along (Ledger.next ⟨fun _ _ => 0⟩) KeepsSlots Ledger.start oneSession :=
    ⟨Or.inl rfl, fun _ _ => ⟨trivial, fun _ _ => ⟨trivial, fun _ _ => trivial⟩⟩⟩
  exact ⟨ledger, reached, connection_table_sound ⟨fun _ _ => 0⟩ oneSession ledger keeps reached⟩

def emptyKeys : List SlotCall := List.replicate 32 (.begin 0 .guest [] 0)

theorem slots_lost :
    ∃ ledger, Runs.run (Ledger.next ⟨fun _ _ => 0⟩) Ledger.start emptyKeys = some ledger ∧
      ¬ledger.Sound ⟨fun _ _ => 0⟩ := by
  have lost : (Runs.run (Ledger.next ⟨fun _ _ => 0⟩) Ledger.start emptyKeys).map
      (fun ledger => (ledger.outstanding, ledger.table.firstFree)) = some ([], none) := by
    decide +kernel
  obtain ⟨ledger, reached, facts⟩ := Option.map_eq_some_iff.mp lost
  obtain ⟨none_, full⟩ := Prod.mk.inj facts
  refine ⟨ledger, reached, ?_⟩
  intro sound
  have all := sound.full 0 .guest [] (by rw [begin_full _ _ _ _ _ full])
  rw [none_] at all
  cases all

end Bridge
