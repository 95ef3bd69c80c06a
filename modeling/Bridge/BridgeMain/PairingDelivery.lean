import Bridge.Ble.Pairing
import Bridge.BridgeMain.BleData

namespace Bridge

open BlePairing (Result Run)
open Memory (Struct)

inductive PairingResultField
  | addr
  | pairingSuccessed
  | hasAdminKey
  | adminKey
  | adminKeyLen
  | hasPassword
  | password
  | passwordSize
deriving DecidableEq, Repr

def blePairingResult (target : Target) : Struct PairingResultField where
  fields := [.addr, .pairingSuccessed, .hasAdminKey, .adminKey, .adminKeyLen, .hasPassword, .password, .passwordSize]
  member
    | .addr => charsMember maxDeviceAddr
    | .pairingSuccessed | .hasAdminKey | .hasPassword => intMember
    | .adminKey | .adminKeyLen | .password | .passwordSize => target.wordMember
  complete field := by cases field <;> decide

def storedNumber (size n : Nat) : Vector UInt8 size := Vector.ofFn fun i => UInt8.ofNat (n / 256 ^ i.val)

/-- Where the two blocks of a result lie. -/
structure ResultBlocks where
  adminKey : Nat
  password : Nat

variable (target : Target)

def pairingFields (blocks : ResultBlocks) (result : Result) :
    (field : PairingResultField) → Vector UInt8 ((blePairingResult target).member field).size
  | .addr => Vector.ofFn fun i => result.addr.getD i 0
  | .pairingSuccessed => storedNumber _ result.pairingSuccessed.toNat
  | .hasAdminKey => storedNumber _ result.adminKey.isSome.toNat
  | .adminKey => storedNumber _ (if result.adminKey.isSome then blocks.adminKey else 0)
  | .adminKeyLen => storedNumber _ (result.adminKey.getD []).length
  | .hasPassword => storedNumber _ result.password.isSome.toNat
  | .password => storedNumber _ (if result.password.isSome then blocks.password else 0)
  | .passwordSize => storedNumber _ (result.password.getD []).length

/-- A caller takes the pointer `ble_result` for one to a `ble_pairing_result_t`, or has the result copied into a record of
    this type. -/
inductive ResultReader
  | inPlace
  | copied (record : Vector UInt8 (blePairingResult target).size)

variable {target} in
def ResultReader.record (data : BleData) : ResultReader target → Option (List UInt8)
  | .inPlace => data.bleResult
  | .copied record => bleGetBleResult data record.toList

/-- The result of a run is handed over within its records, and each field that the caller reads is the one of the run. -/
def ResultDelivered (data : BleData) (blocks : ResultBlocks) (run : Run) (reader : ResultReader target) : Prop :=
  ∃ data' record, bleSetBleResult target data
      ((blePairingResult target).fill (pairingFields target blocks run.connection.pairingResult)) = some data' ∧
    reader.record data' = some record ∧ ∀ field, (blePairingResult target).get record field =
      some (pairingFields target blocks run.connection.pairingResult field).toList

/-- The fields behind the size of a `ble_guest_result_t`. -/
def PairingResultField.cut : PairingResultField → Bool
  | .addr | .pairingSuccessed | .hasAdminKey | .adminKey => false
  | .adminKeyLen | .hasPassword | .password | .passwordSize => true

section Layouts

variable {target}

theorem kept_inside {field : PairingResultField} (kept : field.cut = false) :
    (blePairingResult target).offset field + ((blePairingResult target).member field).size ≤ (bleGuestResult target).size := by
  revert kept
  cases target <;> cases field <;> decide

theorem cut_behind {field : PairingResultField} (cut : field.cut = true) :
    (bleGuestResult target).size ≤ (blePairingResult target).offset field := by
  revert cut
  cases target <;> cases field <;> decide

theorem guest_size_le : (bleGuestResult target).size ≤ (blePairingResult target).size := by
  cases target <;> decide

theorem member_positive (field : PairingResultField) : 0 < ((blePairingResult target).member field).size := by
  cases target <;> cases field <;> decide

theorem bleSetBleResult_eq (data : BleData) {result : List UInt8} (whole : result.length = (blePairingResult target).size) :
    ∃ data', bleSetBleResult target data result = some data' ∧
      data'.bleResult = some (result.take (bleGuestResult target).size) ∧
      data'.bleResultLen = (bleGuestResult target).size := by
  have short : (bleGuestResult target).size ≤ result.length := whole ▸ guest_size_le
  have bytes : Memory.read result 0 (bleGuestResult target).size = some (result.take (bleGuestResult target).size) := by
    rw [Memory.read, if_pos (by omega), List.drop_zero]
  have length : (result.take (bleGuestResult target).size).length = (bleGuestResult target).size := List.length_take_of_le short
  have written : Memory.write (List.replicate (bleGuestResult target).size 0) 0 (result.take (bleGuestResult target).size) =
      some (result.take (bleGuestResult target).size) := by
    apply Memory.write_eq_some_iff.mpr
    rw [length, List.length_replicate]
    refine ⟨by omega, ?_⟩
    rw [Memory.place, length, List.drop_of_length_le (by simp), List.take_zero, List.nil_append, List.append_nil]
  refine ⟨{ bleReleaseBleResult data with
    bleResult := some (result.take (bleGuestResult target).size), bleResultLen := (bleGuestResult target).size }, ?_, rfl, rfl⟩
  simp only [bleSetBleResult, bytes, written, Option.bind_eq_bind, Option.bind_some, Option.pure_def]

theorem bleGetBleResult_eq {data : BleData} {result record : List UInt8} (whole : result.length = (blePairingResult target).size)
    (room : record.length = (blePairingResult target).size)
    (held : data.bleResult = some (result.take (bleGuestResult target).size))
    (length : data.bleResultLen = (bleGuestResult target).size) :
    bleGetBleResult data record = some (Memory.place record 0 (result.take (bleGuestResult target).size)) := by
  have short := @guest_size_le target
  have taken : (result.take (bleGuestResult target).size).length = (bleGuestResult target).size :=
    List.length_take_of_le (whole ▸ short)
  have bytes : Memory.read (result.take (bleGuestResult target).size) 0 (bleGuestResult target).size =
      some (result.take (bleGuestResult target).size) := by
    rw [Memory.read, taken, if_pos (by omega), List.drop_zero, List.take_take, Nat.min_self]
  simp only [bleGetBleResult, held, length, bytes, Option.bind_eq_bind, Option.bind_some]
  apply Memory.write_eq_some_iff.mpr
  exact ⟨by omega, rfl⟩

theorem get_inPlace {result : List UInt8} (whole : result.length = (blePairingResult target).size) (field : PairingResultField) :
    (blePairingResult target).get (result.take (bleGuestResult target).size) field =
      if field.cut then none else (blePairingResult target).get result field := by
  rw [Struct.get_take _ (whole ▸ guest_size_le)]
  have positive := @member_positive target field
  cases kept : field.cut with
  | true =>
    have behind := @cut_behind target field kept
    rw [if_neg (by omega)]
    rfl
  | false =>
    rw [if_pos (kept_inside kept)]
    rfl

theorem get_copied {result record : List UInt8} (whole : result.length = (blePairingResult target).size)
    (room : record.length = (blePairingResult target).size) (field : PairingResultField) :
    (blePairingResult target).get (Memory.place record 0 (result.take (bleGuestResult target).size)) field =
      if field.cut then (blePairingResult target).get record field else (blePairingResult target).get result field := by
  have short := @guest_size_le target
  have taken : (result.take (bleGuestResult target).size).length = (bleGuestResult target).size :=
    List.length_take_of_le (whole ▸ short)
  have fits : 0 + (result.take (bleGuestResult target).size).length ≤ record.length := by omega
  cases kept : field.cut with
  | true =>
    have behind := @cut_behind target field kept
    rw [if_pos rfl]
    apply Memory.read_place_apart fits
    omega
  | false =>
    have inside := @kept_inside target field kept
    have read := Memory.read_place_inside fits (inside.trans taken.ge)
    rw [Nat.zero_add] at read
    rw [if_neg Bool.false_ne_true, Struct.get, read]
    exact (Struct.get_take _ (whole ▸ short) field).trans (if_pos inside)

variable {data : BleData} {blocks : ResultBlocks} {run : Run}

theorem inPlace_not_delivered : ¬ResultDelivered target data blocks run .inPlace := by
  rintro ⟨data', record, set, read, fields⟩
  have whole := (blePairingResult target).fill_length (pairingFields target blocks run.connection.pairingResult)
  rcases bleSetBleResult_eq data whole with ⟨data'', set', held, _⟩
  cases set.symm.trans set'
  cases held.symm.trans read
  have cut := fields .adminKeyLen
  rw [get_inPlace whole] at cut
  cases cut

theorem copied_delivered_iff (record : Vector UInt8 (blePairingResult target).size) :
    ResultDelivered target data blocks run (.copied record) ↔ ∀ field, field.cut = true →
      (blePairingResult target).get record.toList field =
        some (pairingFields target blocks run.connection.pairingResult field).toList := by
  have whole := (blePairingResult target).fill_length (pairingFields target blocks run.connection.pairingResult)
  rcases bleSetBleResult_eq data whole with ⟨data', set, held, length⟩
  have copied := bleGetBleResult_eq whole record.length_toList held length
  constructor
  · rintro ⟨data'', record', set', read, fields⟩
    cases set.symm.trans set'
    cases copied.symm.trans read
    intro field cut
    rw [← fields field, get_copied whole record.length_toList, if_pos cut]
  · intro fields
    refine ⟨data', _, set, copied, ?_⟩
    intro field
    rw [get_copied whole record.length_toList]
    split
    · rename_i cut
      exact fields field cut
    · exact (blePairingResult target).get_fill _ field

theorem storedNumber_zero (size : Nat) : storedNumber size 0 = Vector.replicate size 0 := by
  ext i inside
  rw [storedNumber, Vector.getElem_ofFn, Vector.getElem_replicate, Nat.zero_div]
  rfl

theorem error_delivered {result : Result} (error : run.connection.pairingResult = BlePairing.blePairingResultErr result) :
    ResultDelivered target data blocks run (.copied (Vector.replicate _ 0)) := by
  apply (copied_delivered_iff _).mpr
  intro field cut
  have zeros : pairingFields target blocks run.connection.pairingResult field = Vector.replicate _ 0 := by
    rw [error]
    cases field with
    | addr | pairingSuccessed | hasAdminKey | adminKey => cases cut
    | adminKeyLen | hasPassword | password | passwordSize => exact storedNumber_zero _
  have bound := (blePairingResult target).offset_bound field
  rw [zeros, Vector.toList_replicate, Vector.toList_replicate, Struct.get, Memory.read, List.length_replicate, if_pos bound,
    List.drop_replicate, List.take_replicate, Nat.min_eq_left (by omega)]

end Layouts

/-- A result is delivered exactly if it is copied into a record whose last four fields already are those of the result. -/
theorem pairing_delivered_iff (data : BleData) (blocks : ResultBlocks) (run : Run) (reader : ResultReader target) :
    ResultDelivered target data blocks run reader ↔ ∃ record, reader = .copied record ∧ ∀ field, field.cut = true →
      (blePairingResult target).get record.toList field =
        some (pairingFields target blocks run.connection.pairingResult field).toList := by
  cases reader with
  | inPlace =>
    apply iff_of_false inPlace_not_delivered
    rintro ⟨record, ⟨⟩, _⟩
  | copied record =>
    rw [copied_delivered_iff]
    constructor
    · exact fun fields => ⟨record, rfl, fields⟩
    · rintro ⟨_, ⟨⟩, fields⟩
      exact fields

def unconnectedRun : Run :=
  (BlePairing.registerPairingNotfication []
    { now := 0, heap := fun _ => 0, gattWrite := fun _ => gattlibSuccess, entropy := 0, gattlibConnect := false,
      gattlibNotificationStart := 0, unreturned := 0 }
    (.start ⟨[], [], [], Vector.replicate 12 0, Vector.replicate 12 0, Vector.replicate 16 0⟩)).1

theorem unconnected_not_delivered :
    unconnectedRun.returned = true ∧ ¬ResultDelivered .bits64 ⟨none, 0, 0⟩ ⟨0, 0⟩ unconnectedRun .inPlace := by
  refine ⟨rfl, ?_⟩
  rintro ⟨data, record, set, read, fields⟩
  have outside : (bleSetBleResult .bits64 ⟨none, 0, 0⟩ ((blePairingResult .bits64).fill
      (pairingFields .bits64 ⟨0, 0⟩ unconnectedRun.connection.pairingResult))).bind (fun data => data.bleResult.bind fun record =>
        (blePairingResult .bits64).get record .adminKeyLen) = none := by decide +kernel
  have held : data.bleResult = some record := read
  rw [set, Option.bind_some, held, Option.bind_some, fields] at outside
  cases outside

end Bridge
