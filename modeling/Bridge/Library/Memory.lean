import Mathlib.Data.List.Basic
import Mathlib.Data.Vector.Basic

namespace Memory

/-- The bytes of a part of an object; `none` if the part is not inside. -/
def read (object : List UInt8) (start size : Nat) : Option (List UInt8) :=
  if start + size ≤ object.length then some ((object.drop start).take size) else none

def place (object : List UInt8) (start : Nat) (bytes : List UInt8) : List UInt8 :=
  object.take start ++ bytes ++ object.drop (start + bytes.length)

/-- `memcpy` into an object; `none` if it leaves it. -/
def write (object : List UInt8) (start : Nat) (bytes : List UInt8) : Option (List UInt8) :=
  if start + bytes.length ≤ object.length then some (place object start bytes) else none

def load (array : List UInt8) (i : Int) : Option UInt8 := if 0 ≤ i then array[i.toNat]? else none

def store (array : List UInt8) (i : Int) (byte : UInt8) : Option (List UInt8) :=
  if 0 ≤ i ∧ i.toNat < array.length then some (array.set i.toNat byte) else none

structure Member where
  size : Nat
  align : Nat
  positive : 0 < align

def roundUp (n align : Nat) : Nat := (n + (align - 1)) / align * align

/-- The fields of a struct in their order. -/
structure Struct (Field : Type) where
  fields : List Field
  member : Field → Member
  complete : ∀ field, field ∈ fields

section Blocks

variable {object bytes : List UInt8} {start : Nat}

theorem place_length (fits : start + bytes.length ≤ object.length) : (place object start bytes).length = object.length := by
  simp only [place, List.length_append, List.length_take, List.length_drop]
  omega

theorem place_cleared (n : Nat) (bytes : List UInt8) :
    place (List.replicate n 0) 0 bytes = bytes ++ List.replicate (n - bytes.length) 0 := by
  rw [place, List.take_zero, List.nil_append, List.drop_replicate, Nat.zero_add]

theorem write_eq_some_iff {after : List UInt8} :
    write object start bytes = some after ↔ start + bytes.length ≤ object.length ∧ place object start bytes = after := by
  rw [write]
  split
  · rename_i fits
    rw [Option.some.injEq, and_iff_right fits]
  · rename_i long
    exact iff_of_false (fun same => by cases same) fun both => long both.1

theorem getElem?_place (fits : start + bytes.length ≤ object.length) (i : Nat) : (place object start bytes)[i]? =
    if i < start then object[i]? else if i < start + bytes.length then bytes[i - start]? else object[i]? := by
  have before : (object.take start).length = start := List.length_take_of_le (by omega)
  have middle : (object.take start ++ bytes).length = start + bytes.length := by rw [List.length_append, before]
  rw [place, List.getElem?_append, middle, List.getElem?_append, before]
  by_cases early : i < start
  · rw [if_pos early, if_pos early, if_pos (by omega), List.getElem?_take_of_lt early]
  · rw [if_neg early, if_neg early]
    by_cases inside : i < start + bytes.length
    · rw [if_pos inside, if_pos inside]
    · rw [if_neg inside, if_neg inside, List.getElem?_drop]
      congr 1
      omega

@[simp] theorem load_natCast (array : List UInt8) (k : Nat) : load array k = array[k]? := by
  rw [load, if_pos (Int.natCast_nonneg k), Int.toNat_natCast]

theorem store_append (front back : List UInt8) (old byte : UInt8) {i : Int} (here : i = front.length) :
    store (front ++ old :: back) i byte = some (front ++ byte :: back) := by
  rw [here, store, Int.toNat_natCast, if_pos ⟨Int.natCast_nonneg _, by simp⟩, List.set_append_right _ _ (Nat.le_refl _),
    Nat.sub_self, List.set_cons_zero]

theorem read_congr {other : List UInt8} {size : Nat} (length : object.length = other.length)
    (same : ∀ i, start ≤ i → i < start + size → object[i]? = other[i]?) : read object start size = read other start size := by
  rw [read, read, length]
  congr 2
  apply List.ext_getElem?
  intro i
  rw [List.getElem?_take, List.getElem?_take]
  split
  · rw [List.getElem?_drop, List.getElem?_drop]
    exact same _ (by omega) (by omega)
  · rfl

theorem read_place (fits : start + bytes.length ≤ object.length) :
    read (place object start bytes) start bytes.length = some bytes := by
  have before : (object.take start).length = start := List.length_take_of_le (by omega)
  rw [read, place_length fits, if_pos fits, place, List.append_assoc, List.drop_left' before, List.take_left' rfl]

theorem read_place_inside (fits : start + bytes.length ≤ object.length) {offset size : Nat}
    (inside : offset + size ≤ bytes.length) : read (place object start bytes) (start + offset) size = read bytes offset size := by
  have before : (object.take start).length = start := List.length_take_of_le (by omega)
  have enough : start + offset + size ≤ object.length := by omega
  rw [read, read, place_length fits, if_pos enough, if_pos inside, place, List.append_assoc, ← List.drop_drop,
    List.drop_left' before, List.drop_append_of_le_length (by omega), List.take_append_of_le_length]
  rw [List.length_drop]
  omega

theorem read_place_apart (fits : start + bytes.length ≤ object.length) {other size : Nat}
    (apart : other + size ≤ start ∨ start + bytes.length ≤ other) :
    read (place object start bytes) other size = read object other size := by
  apply read_congr (place_length fits)
  intro i first last
  rw [getElem?_place fits]
  rcases apart with before | behind
  · rw [if_pos (by omega)]
  · rw [if_neg (by omega), if_neg (by omega)]

theorem read_take {size n : Nat} (short : n ≤ object.length) :
    read (object.take n) start size = if start + size ≤ n then read object start size else none := by
  rw [read, List.length_take_of_le short]
  split
  · rename_i fits
    rw [read, if_pos (by omega), List.drop_take, List.take_take, Nat.min_eq_left (by omega)]
  · rfl

end Blocks

theorem le_roundUp {align : Nat} (positive : 0 < align) (n : Nat) : n ≤ roundUp n align := by
  have whole := Nat.div_add_mod (n + (align - 1)) align
  have rest := Nat.mod_lt (n + (align - 1)) positive
  rw [roundUp, Nat.mul_comm]
  omega

namespace Struct

variable {Field : Type} (struct : Struct Field)

/-- Where the fields from here on end, if they start here. -/
def endFrom (start : Nat) : List Field → Nat
  | [] => start
  | field :: rest => endFrom (roundUp start (struct.member field).align + (struct.member field).size) rest

def offsetFrom [DecidableEq Field] (start : Nat) (field : Field) : List Field → Nat
  | [] => start
  | first :: rest =>
    let offset := roundUp start (struct.member first).align
    if first = field then offset else offsetFrom (offset + (struct.member first).size) field rest

def offset [DecidableEq Field] (field : Field) : Nat := struct.offsetFrom 0 field struct.fields

def align : Nat := struct.fields.foldr (fun field align => max (struct.member field).align align) 1

def size : Nat := roundUp (struct.endFrom 0 struct.fields) struct.align

def get [DecidableEq Field] (object : List UInt8) (field : Field) : Option (List UInt8) :=
  read object (struct.offset field) (struct.member field).size

def fill [DecidableEq Field] (values : (field : Field) → Vector UInt8 (struct.member field).size) : List UInt8 :=
  struct.fields.foldl (fun object field => place object (struct.offset field) (values field).toList)
    (List.replicate struct.size 0)

theorem align_positive : 0 < struct.align := by
  rw [align]
  induction struct.fields with
  | nil => exact Nat.one_pos
  | cons field rest ih => exact Nat.lt_of_lt_of_le ih (Nat.le_max_right _ _)

theorem le_endFrom (start : Nat) (fields : List Field) : start ≤ struct.endFrom start fields := by
  induction fields generalizing start with
  | nil => exact Nat.le_refl start
  | cons field rest ih =>
    have rounded := le_roundUp (struct.member field).positive start
    have rest := ih (roundUp start (struct.member field).align + (struct.member field).size)
    rw [endFrom]
    omega

variable [DecidableEq Field]

theorem offsetFrom_bounds {fields : List Field} {field : Field} (listed : field ∈ fields) (start : Nat) :
    start ≤ struct.offsetFrom start field fields ∧
      struct.offsetFrom start field fields + (struct.member field).size ≤ struct.endFrom start fields := by
  induction fields generalizing start with
  | nil => cases listed
  | cons first rest ih =>
    have rounded := le_roundUp (struct.member first).positive start
    rw [offsetFrom, endFrom]
    by_cases same : first = field
    · subst same
      rw [if_pos rfl]
      exact ⟨rounded, struct.le_endFrom _ rest⟩
    · have later : field ∈ rest := (List.mem_cons.mp listed).resolve_left (Ne.symm same)
      have bounds := ih later (roundUp start (struct.member first).align + (struct.member first).size)
      rw [if_neg same]
      exact ⟨by omega, bounds.2⟩

theorem offsetFrom_apart {fields : List Field} {field other : Field} (listed : field ∈ fields) (listed' : other ∈ fields)
    (differ : field ≠ other) (start : Nat) :
    struct.offsetFrom start field fields + (struct.member field).size ≤ struct.offsetFrom start other fields ∨
      struct.offsetFrom start other fields + (struct.member other).size ≤ struct.offsetFrom start field fields := by
  induction fields generalizing start with
  | nil => cases listed
  | cons first rest ih =>
    rw [offsetFrom, offsetFrom]
    by_cases same : first = field
    · subst same
      have later : other ∈ rest := (List.mem_cons.mp listed').resolve_left (Ne.symm differ)
      rw [if_pos rfl, if_neg differ]
      exact .inl (struct.offsetFrom_bounds later _).1
    · have later : field ∈ rest := (List.mem_cons.mp listed).resolve_left (Ne.symm same)
      rw [if_neg same]
      by_cases same' : first = other
      · subst same'
        rw [if_pos rfl]
        exact .inr (struct.offsetFrom_bounds later _).1
      · rw [if_neg same']
        exact ih later ((List.mem_cons.mp listed').resolve_left (Ne.symm same')) _

theorem offset_apart {field other : Field} (differ : field ≠ other) :
    struct.offset field + (struct.member field).size ≤ struct.offset other ∨
      struct.offset other + (struct.member other).size ≤ struct.offset field :=
  struct.offsetFrom_apart (struct.complete field) (struct.complete other) differ 0

theorem offset_bound (field : Field) : struct.offset field + (struct.member field).size ≤ struct.size :=
  (struct.offsetFrom_bounds (struct.complete field) 0).2.trans (le_roundUp struct.align_positive _)

variable (values : (field : Field) → Vector UInt8 (struct.member field).size)

theorem assign_fields (fields : List Field) {object : List UInt8} (length : object.length = struct.size) :
    let assigned := fields.foldl (fun object field => place object (struct.offset field) (values field).toList) object
    assigned.length = struct.size ∧
      ∀ field, struct.get assigned field = if field ∈ fields then some (values field).toList else struct.get object field := by
  induction fields generalizing object with
  | nil => exact ⟨length, fun field => (if_neg List.not_mem_nil).symm⟩
  | cons first rest ih =>
    have room : struct.offset first + (values first).toList.length ≤ object.length := by
      rw [Vector.length_toList, length]
      exact struct.offset_bound first
    rcases ih ((place_length room).trans length) with ⟨length', later⟩
    refine ⟨length', ?_⟩
    intro field
    rw [List.foldl_cons, later]
    by_cases listed : field ∈ rest
    · rw [if_pos listed, if_pos (List.mem_cons_of_mem _ listed)]
    · rw [if_neg listed]
      by_cases same : field = first
      · subst same
        have written := read_place room
        rw [Vector.length_toList] at written
        rw [if_pos List.mem_cons_self]
        exact written
      · rw [if_neg (fun inside => (List.mem_cons.mp inside).elim same listed)]
        apply read_place_apart room
        rw [Vector.length_toList]
        exact struct.offset_apart same

theorem fill_length : (struct.fill values).length = struct.size :=
  (struct.assign_fields values struct.fields List.length_replicate).1

theorem get_fill (field : Field) : struct.get (struct.fill values) field = some (values field).toList := by
  have assigned : struct.get (struct.fill values) field = _ :=
    (struct.assign_fields values struct.fields List.length_replicate).2 field
  rw [assigned, if_pos (struct.complete field)]

/-- In the first bytes of an object the fields that end there are still whole, and no other one is. -/
theorem get_take {object : List UInt8} {n : Nat} (short : n ≤ object.length) (field : Field) :
    struct.get (object.take n) field =
      if struct.offset field + (struct.member field).size ≤ n then struct.get object field else none :=
  read_take short

end Struct

end Memory
