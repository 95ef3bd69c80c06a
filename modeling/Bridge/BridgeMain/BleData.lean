import Bridge.BridgeMain.DealCmd
import Bridge.Library.Memory
import Mathlib.Data.List.Induction

namespace Bridge

open Memory (Member Struct)

inductive Target
  | bits32
  | bits64
deriving DecidableEq, Repr

def Target.word : Target → Nat
  | .bits32 => 4
  | .bits64 => 8

theorem Target.word_positive (target : Target) : 0 < target.word := by
  cases target <;> decide

def Target.wordMember (target : Target) : Member := ⟨target.word, target.word, target.word_positive⟩

def intMember : Member := ⟨4, 4, Target.word_positive .bits32⟩

def charsMember (n : Nat) : Member := ⟨n, 1, Nat.zero_lt_one⟩

inductive GuestResultField
  | addr
  | result
  | cmdResponseSize
  | cmdResponse
deriving DecidableEq, Repr

def bleGuestResult (target : Target) : Struct GuestResultField where
  fields := [.addr, .result, .cmdResponseSize, .cmdResponse]
  member
    | .addr => charsMember maxDeviceAddr
    | .result => intMember
    | .cmdResponseSize => target.wordMember
    | .cmdResponse => target.wordMember
  complete field := by cases field <;> decide

/-- The results of `ble_data_t`. The pointer has the type of a `ble_guest_result_t`, whatever lies there. -/
structure BleData where
  bleResult : Option (List UInt8)
  bleResultLen : Nat
  nOfResult : Nat
deriving DecidableEq, Repr

def bleReleaseBleResult (data : BleData) : BleData :=
  if data.bleResult.isSome then { data with bleResult := none, bleResultLen := 0 } else data

def bleInitResults (data : BleData) (nResults sizeOfResult : Nat) : BleData :=
  { bleReleaseBleResult data with
    bleResult := some (List.replicate (nResults * sizeOfResult) 0), bleResultLen := nResults, nOfResult := 0 }

variable (target : Target)

/-- The result is copied as a `ble_guest_result_t`, whatever its own type is. -/
def bleSetBleResult (data : BleData) (bleResult : List UInt8) : Option BleData := do
  let bleResultLen := (bleGuestResult target).size
  let bytes ← Memory.read bleResult 0 bleResultLen
  let block ← Memory.write (List.replicate bleResultLen 0) 0 bytes
  return { bleReleaseBleResult data with bleResult := some block, bleResultLen }

def bleGetBleResult (data : BleData) (result : List UInt8) : Option (List UInt8) := do
  let bleResult ← data.bleResult
  let bytes ← Memory.read bleResult 0 data.bleResultLen
  Memory.write result 0 bytes

/-- What is added to the pointer counts records of its type, and is an `int` product. -/
def resultOffset (n sizeOfResult : Nat) : Option Nat :=
  if n * sizeOfResult < 2 ^ 31 then some ((bleGuestResult target).size * (n * sizeOfResult)) else none

def blePutResults (data : BleData) (result : List UInt8) : Option (BleData × Int) := do
  let bleResult ← data.bleResult
  let resultStart ← resultOffset target data.nOfResult result.length
  let bleResult ← Memory.write bleResult resultStart result
  if data.nOfResult + 1 < 2 ^ 31 then
    some ({ data with bleResult := some bleResult, nOfResult := data.nOfResult + 1 }, 0)
  else none

def bleGetNResult (n sizeOfResult : Nat) : Option Nat := resultOffset target n sizeOfResult

/-- What a caller sees behind the pointer of `bleGetNResult`. -/
def readNResult (data : BleData) (n sizeOfResult : Nat) : Option (List UInt8) := do
  let bleResult ← data.bleResult
  let start ← bleGetNResult target n sizeOfResult
  Memory.read bleResult start sizeOfResult

variable {size : Nat}

def putResults (data : BleData) (results : List (Vector UInt8 size)) : Option BleData :=
  results.foldlM (fun data result => (blePutResults target data result.toList).map Prod.fst) data

structure ResultListLaw (data : BleData) (n : Nat) (results : List (Vector UInt8 size)) : Prop where
  fetched : ∃ data', putResults target (bleInitResults data n size) results = some data' ∧
    ∀ i result, i < n → results[i]? = some result → readNResult target data' i size = some result.toList
  refused : ∀ before result after, results = before ++ result :: after → n ≤ before.length → ∃ data' data'' ret,
    putResults target (bleInitResults data n size) before = some data' ∧
      blePutResults target data' result.toList = some (data'', ret) ∧ ret ≠ 0 ∧ data''.bleResult = data'.bleResult

section Results

/-- A result has room at this index: the product is an `int`, the count stays one, and the block does not end before it. -/
structure ResultFits (size n i : Nat) : Prop where
  product : i * size < 2 ^ 31
  count : i + 1 < 2 ^ 31
  inside : size = 0 ∨ (bleGuestResult target).size * i < n

structure Filled (n : Nat) (results : List (Vector UInt8 size)) (data : BleData) : Prop where
  count : data.nOfResult = results.length
  stored : ∃ block, data.bleResult = some block ∧ block.length = n * size ∧ ∀ i result, results[i]? = some result →
    Memory.read block ((bleGuestResult target).size * (i * size)) size = some result.toList

variable {target}

theorem bleGuestResult_size_positive : 0 < (bleGuestResult target).size := by cases target <;> decide

theorem ResultFits.mono {n i j : Nat} (fits : ResultFits target size n j) (before : i ≤ j) : ResultFits target size n i := by
  constructor
  case product => exact (Nat.mul_le_mul_right size before).trans_lt fits.product
  case count =>
    have count := fits.count
    omega
  case inside => exact fits.inside.imp_right (Nat.mul_le_mul_left _ before).trans_lt

theorem inside_iff (n i : Nat) : (bleGuestResult target).size * (i * size) + size ≤ n * size ↔
    size = 0 ∨ (bleGuestResult target).size * i < n := by
  have one : (bleGuestResult target).size * (i * size) + size = ((bleGuestResult target).size * i + 1) * size := by
    rw [Nat.add_mul, Nat.one_mul, Nat.mul_assoc]
  rw [one]
  cases size with
  | zero => simp
  | succ size => rw [Nat.mul_le_mul_right_iff (Nat.succ_pos size), Nat.succ_le_iff, or_iff_right (Nat.succ_ne_zero size)]

theorem Filled.start (data : BleData) (n size : Nat) :
    Filled target n ([] : List (Vector UInt8 size)) (bleInitResults data n size) :=
  ⟨rfl, _, rfl, List.length_replicate, fun i result listed => by cases listed⟩

variable {n : Nat} {results : List (Vector UInt8 size)} {data : BleData}

theorem Filled.fits (filled : Filled target n results data) {result : Vector UInt8 size} {put : BleData × Int}
    (done : blePutResults target data result.toList = some put) : ResultFits target size n results.length ∧ put.2 = 0 := by
  rcases filled.stored with ⟨block, held, length, _⟩
  simp only [blePutResults, held, resultOffset, filled.count, Vector.length_toList, Option.bind_eq_bind,
    Option.bind_some] at done
  by_cases product : results.length * size < 2 ^ 31
  · rw [if_pos product, Option.bind_some] at done
    rcases Option.bind_eq_some_iff.mp done with ⟨after, written, done⟩
    have inside := (Memory.write_eq_some_iff.mp written).1
    rw [Vector.length_toList, length, inside_iff] at inside
    by_cases count : results.length + 1 < 2 ^ 31
    · rw [if_pos count] at done
      cases done
      exact ⟨⟨product, count, inside⟩, rfl⟩
    · rw [if_neg count] at done
      cases done
  · rw [if_neg product] at done
    cases done

theorem Filled.put (filled : Filled target n results data) (fits : ResultFits target size n results.length)
    (result : Vector UInt8 size) :
    ∃ data', blePutResults target data result.toList = some (data', 0) ∧ Filled target n (results ++ [result]) data' := by
  rcases filled.stored with ⟨block, held, length, reads⟩
  have inside : (bleGuestResult target).size * (results.length * size) + result.toList.length ≤ block.length := by
    rw [Vector.length_toList, length, inside_iff]
    exact fits.inside
  have written := Memory.write_eq_some_iff.mpr ⟨inside, rfl⟩
  refine ⟨{ data with bleResult := some _, nOfResult := data.nOfResult + 1 }, ?_, ?_, _, rfl,
    (Memory.place_length inside).trans length, ?_⟩
  · simp only [blePutResults, held, resultOffset, filled.count, Vector.length_toList, if_pos fits.product, if_pos fits.count,
      written, Option.bind_eq_bind, Option.bind_some]
  · rw [List.length_append, ← filled.count]
    rfl
  · intro i stored listed
    rcases Nat.lt_trichotomy i results.length with earlier | rfl | later
    · rw [List.getElem?_append_left earlier] at listed
      rw [Memory.read_place_apart inside]
      · exact reads i stored listed
      · -- records of the pointer's type lie between the two
        have next : (i + 1) * size ≤ results.length * size := Nat.mul_le_mul_right size earlier
        have wide := Nat.mul_le_mul_left (bleGuestResult target).size next
        have one : size ≤ (bleGuestResult target).size * size := Nat.le_mul_of_pos_left size bleGuestResult_size_positive
        rw [Nat.add_mul, Nat.one_mul, Nat.mul_add] at wide
        left
        omega
    · rw [List.getElem?_concat_length, Option.some.injEq] at listed
      subst listed
      have read := Memory.read_place inside
      rwa [Vector.length_toList] at read
    · rw [List.getElem?_eq_none (by rw [List.length_append]; exact later)] at listed
      cases listed

theorem putResults_snoc (data : BleData) (results : List (Vector UInt8 size)) (result : Vector UInt8 size) :
    putResults target data (results ++ [result]) =
      (putResults target data results).bind fun data' => (blePutResults target data' result.toList).map Prod.fst := by
  simp only [putResults, List.foldlM_append, List.foldlM_cons, List.foldlM_nil, Option.bind_eq_bind, Option.pure_def,
    Option.bind_fun_some]

theorem putResults_some (data : BleData) (n : Nat) (results : List (Vector UInt8 size)) {data' : BleData}
    (done : putResults target (bleInitResults data n size) results = some data') :
    Filled target n results data' ∧ ∀ i < results.length, ResultFits target size n i := by
  induction results using List.reverseRecOn generalizing data' with
  | nil =>
    cases done
    exact ⟨Filled.start data n size, fun i before => absurd before (Nat.not_lt_zero i)⟩
  | append_singleton results result ih =>
    rw [putResults_snoc] at done
    rcases Option.bind_eq_some_iff.mp done with ⟨middle, earlier, last⟩
    rcases Option.map_eq_some_iff.mp last with ⟨put, stepped, rfl⟩
    have filled := (ih earlier).1
    have fits := (filled.fits stepped).1
    rcases filled.put fits result with ⟨data', stepped', filled'⟩
    cases stepped.symm.trans stepped'
    refine ⟨filled', ?_⟩
    intro i before
    rw [List.length_append] at before
    exact fits.mono (Nat.le_of_lt_succ before)

theorem putResults_returns (data : BleData) {n : Nat} {results : List (Vector UInt8 size)}
    (fits : ∀ i < results.length, ResultFits target size n i) :
    ∃ data', putResults target (bleInitResults data n size) results = some data' := by
  induction results using List.reverseRecOn with
  | nil => exact ⟨_, rfl⟩
  | append_singleton results result ih =>
    rw [List.length_append] at fits
    rcases ih fun i before => fits i (Nat.lt_succ_of_lt before) with ⟨middle, earlier⟩
    rcases (putResults_some data n results earlier).1.put (fits _ (Nat.lt_succ_self _)) result with ⟨data', stepped, _⟩
    exact ⟨data', by rw [putResults_snoc, earlier, Option.bind_some, stepped, Option.map_some]⟩

end Results

/-- The law of the result list holds exactly if nothing is put, or if the results are not more than the capacity and the
    last one has room. -/
theorem result_list_law_iff (data : BleData) (n : Nat) (results : List (Vector UInt8 size)) :
    ResultListLaw target data n results ↔ results = [] ∨
      results.length ≤ n ∧ ResultFits target size n (results.length - 1) := by
  constructor
  · intro law
    rcases law.fetched with ⟨data', done, _⟩
    have fits := (putResults_some data n results done).2
    cases results with
    | nil => exact .inl rfl
    | cons first rest =>
      refine .inr ⟨?_, fits _ (Nat.lt_succ_self _)⟩
      by_contra more
      have split := List.take_append_drop n (first :: rest)
      have long : ((first :: rest).drop n) ≠ [] := List.drop_eq_nil_iff.not.mpr (by omega)
      rcases List.exists_cons_of_ne_nil long with ⟨result, after, dropped⟩
      rw [dropped] at split
      have before : ((first :: rest).take n).length = n := List.length_take_of_le (by omega)
      rcases law.refused _ result after split.symm before.ge with ⟨middle, middle', ret, earlier, stepped, refused, _⟩
      exact refused ((putResults_some data n _ earlier).1.fits stepped).2
  · intro fit
    have fits : ∀ i < results.length, ResultFits target size n i := by
      intro i before
      rcases fit with rfl | ⟨_, last⟩
      · exact absurd before (Nat.not_lt_zero i)
      · exact last.mono (by omega)
    constructor
    case fetched =>
      rcases putResults_returns data fits with ⟨data', done⟩
      rcases (putResults_some data n results done).1.stored with ⟨block, held, _, reads⟩
      refine ⟨data', done, ?_⟩
      intro i result _ listed
      rcases List.getElem?_eq_some_iff.mp listed with ⟨before, _⟩
      simp only [readNResult, held, bleGetNResult, resultOffset, if_pos (fits i before).product, Option.bind_eq_bind,
        Option.bind_some]
      exact reads i result listed
    case refused =>
      rintro before result after rfl full
      rcases fit with none | ⟨few, _⟩
      · simp at none
      · simp only [List.length_append, List.length_cons] at few
        omega

/-- Two locks in a list for 30 of them, each of 176 bytes. -/
theorem second_lock_outside :
    ¬ResultListLaw .bits64 ⟨none, 0, 0⟩ 30 (List.replicate 2 (Vector.replicate 176 (0 : UInt8))) := by
  intro law
  rcases law.fetched with ⟨data', done, _⟩
  have fits := (putResults_some _ _ _ done).2 1 (by decide)
  exact absurd fits.inside (by decide)

end Bridge
