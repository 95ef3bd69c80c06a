import Bridge.Messages.Lawful
import Bridge.Messages.Opening
import Mathlib.Data.List.Nodup

namespace Bridge

open ByteCounter Cbor

variable {Obj : Type}

def FieldType.admits : FieldType → Item → Prop
  | .uint bits, item => ∃ n : Nat, item = .int n ∧ n < 2 ^ bits
  | .int32, item => ∃ n : Int, item = .int n ∧ -2 ^ 31 ≤ n ∧ n < 2 ^ 31
  | .bytes, item => ∃ content, item = .bytes content ∧ content ≠ []
  | .rawBytes, item => ∃ content, item = .bytes content
  | .boolean, item => ∃ value : Bool, item = .simple (20 + value.toNat)

def Format.WellTyped (format : Format Obj) (obj : Obj) : Prop :=
  ∀ field ∈ format.fields, ∀ item, field.get obj = some item → field.type.admits item

/-- A byte string has a length that a `size_t` can hold. -/
def itemSized (limit : Nat) (item : Item) : Prop := ∀ content, item = .bytes content → content.length < limit

def Format.Sized (format : Format Obj) (limit : Nat) (obj : Obj) : Prop :=
  ∀ field ∈ format.fields, ∀ item, field.get obj = some item → itemSized limit item

def FieldType.wire : FieldType → Item → List UInt8
  | .uint _, .int n => numberBytes (n.toNat % 2 ^ 64) 0
  | .int32, .int n =>
    if n < 0 then numberBytes ((-1 - n).toNat % 2 ^ 64) 1 else numberBytes (n.toNat % 2 ^ 64) 0
  | .bytes, .bytes content | .rawBytes, .bytes content => numberBytes (content.length % 2 ^ 64) 2 ++ content
  | .boolean, .simple value => numberBytes ((20 + (value == 21).toNat) % 2 ^ 64) 7
  | _, _ => []

def pairWire (pair : Field Obj × Item) : List UInt8 := numberBytes (pair.1.tag % 2 ^ 64) 0 ++ pair.1.type.wire pair.2

def Format.wire (format : Format Obj) (obj : Obj) : List UInt8 :=
  numberBytes ((1 + (format.entries obj).length) % 2 ^ 64) 5 ++
    (numberBytes (0 % 2 ^ 64) 0 ++ (numberBytes (format.msgId % 2 ^ 64) 0 ++ (format.entries obj).flatMap pairWire))

def Format.mapOf (format : Format Obj) (obj : Obj) : List (Item × Item) :=
  (.int 0, .int format.msgId) :: (format.entries obj).map fun pair => (.int pair.1.tag, pair.2)

theorem encode_wire {type : FieldType} {item : Item} (shaped : type.shaped item) (encoder : CborEncoder) :
    type.encode encoder item = appendToBuffer encoder (type.wire item) := by
  cases type with
  | uint bits =>
    obtain ⟨n, rfl⟩ := shaped
    rfl
  | int32 =>
    obtain ⟨n, rfl⟩ := shaped
    simp only [FieldType.encode, FieldType.wire, cborEncodeInt, encodeNumber]
    split
    · rfl
    · rfl
  | bytes | rawBytes =>
    obtain ⟨content, rfl⟩ := shaped
    exact appendToBuffer_append encoder (numberBytes (content.length % 2 ^ 64) 2) content
  | boolean =>
    obtain ⟨value, rfl⟩ := shaped
    rfl

theorem encodeFields_wire (pairs : List (Field Obj × Item)) (shaped : ∀ pair ∈ pairs, pair.1.type.shaped pair.2)
    (encoder : CborEncoder) : encodeFields pairs encoder = appendToBuffer encoder (pairs.flatMap pairWire) := by
  induction pairs generalizing encoder with
  | nil => rw [encodeFields, List.flatMap_nil, appendToBuffer_fits (Nat.zero_le _), List.append_nil]; rfl
  | cons pair rest ih =>
    have value := encode_wire (shaped pair (by simp))
    have onward := ih fun other inside => shaped other (by simp [inside])
    simp only [encodeFields, cborEncodeUint, encodeNumber, value, onward, List.flatMap_cons, pairWire]
    rw [List.append_assoc, ← appendToBuffer_append]
    congr 1
    funext middle
    exact appendToBuffer_append middle _ _

theorem entry_shaped {format : Format Obj} (lawful : format.Lawful) {obj : Obj} {pair : Field Obj × Item}
    (inside : pair ∈ format.entries obj) : pair.1 ∈ format.fields ∧ pair.1.type.shaped pair.2 := by
  obtain ⟨field, member, made⟩ := List.mem_filterMap.mp inside
  obtain ⟨item, entry, rfl⟩ := Option.map_eq_some_iff.mp made
  refine ⟨member, ?_⟩
  have blank : field.type.shaped field.type.blank := by
    cases field.type with
    | uint bits => exact ⟨0, rfl⟩
    | int32 => exact ⟨0, rfl⟩
    | bytes | rawBytes => exact ⟨[], rfl⟩
    | boolean => exact ⟨false, rfl⟩
  unfold Field.entry at entry
  split at entry
  · cases entry
    cases held : field.get obj with
    | none => exact blank
    | some item => exact (lawful.regular field member).get_shaped obj item held
  · exact (lawful.regular field member).get_shaped obj item entry

theorem encode_eq {format : Format Obj} (lawful : format.Lawful) (obj : Obj) (length : Nat) :
    format.encode obj length =
      if format.isValid obj = true ∧ (format.wire obj).length ≤ length then some (format.wire obj) else none := by
  have shaped : ∀ pair ∈ format.entries obj, pair.1.type.shaped pair.2 :=
    fun pair inside => (entry_shaped lawful inside).2
  have written : ((cborEncoderCreateMap (cborEncoderInit length) (1 + (format.entries obj).length)).bind fun encoder =>
      (cborEncodeUint encoder 0).bind fun encoder => (cborEncodeUint encoder format.msgId).bind fun encoder =>
        (encodeFields (format.entries obj) encoder).map CborEncoder.data) =
      (appendToBuffer (cborEncoderInit length) (format.wire obj)).map CborEncoder.data := by
    simp only [Format.wire, ← appendToBuffer_append, Option.map_bind, Function.comp_def, encodeFields_wire _ shaped]
    rfl
  rw [Format.encode, written]
  by_cases valid : format.isValid obj = true
  · by_cases fits : (format.wire obj).length ≤ length
    · rw [if_neg (by simp [valid]), if_pos ⟨valid, fits⟩, appendToBuffer_fits fits]
      rfl
    · rw [if_neg (by simp [valid]), if_neg (by simp [fits]), appendToBuffer, if_pos (by simpa [cborEncoderInit] using fits)]
      rfl
  · rw [if_pos (by simpa using valid), if_neg (by simp [valid])]

/-- What the encoder writes without a loss. -/
def FieldType.encodable : FieldType → Item → Prop
  | .uint _, item => ∃ n : Nat, item = .int n ∧ n < 2 ^ 64
  | .int32, item => ∃ n : Int, item = .int n ∧ -2 ^ 63 ≤ n ∧ n < 2 ^ 63
  | .bytes, item | .rawBytes, item => ∃ content, item = .bytes content ∧ content.length < 2 ^ 64
  | .boolean, item => ∃ value : Bool, item = .simple (20 + value.toNat)

theorem number_scalar {n : Nat} (fits : n < 2 ^ 64) : Scalar (numberBytes (n % 2 ^ 64) 0) (.int n) := by
  rw [Nat.mod_eq_of_lt fits]
  exact .natural (numberBytes_head fits)

theorem wire_scalar {type : FieldType} {item : Item} (encodable : type.encodable item) :
    Scalar (type.wire item) item := by
  cases type with
  | uint bits =>
    obtain ⟨n, rfl, fits⟩ := encodable
    exact number_scalar fits
  | int32 =>
    obtain ⟨n, rfl, low, high⟩ := encodable
    simp only [FieldType.wire]
    split
    · have below : (-1 - n).toNat < 2 ^ 64 := by omega
      have header : Head 1 (-1 - n).toNat (numberBytes (-1 - n).toNat 1) := numberBytes_head below
      have negative := Scalar.negative header
      have same : -1 - ((-1 - n).toNat : Int) = n := by omega
      rw [Nat.mod_eq_of_lt below]
      rwa [same] at negative
    · have natural := number_scalar (by omega : n.toNat < 2 ^ 64)
      rwa [Int.toNat_of_nonneg (by omega)] at natural
  | bytes | rawBytes =>
    obtain ⟨content, rfl, fits⟩ := encodable
    simp only [FieldType.wire]
    rw [Nat.mod_eq_of_lt fits]
    exact .bytes (numberBytes_head fits)
  | boolean =>
    obtain ⟨value, rfl⟩ := encodable
    cases value
    · exact .boolean false
    · exact .boolean true

theorem blank_encodable (type : FieldType) : type.encodable type.blank := by
  cases type with
  | uint bits => exact ⟨0, rfl, by decide⟩
  | int32 => exact ⟨0, rfl, by decide, by decide⟩
  | bytes | rawBytes => exact ⟨[], rfl, by decide⟩
  | boolean => exact ⟨false, rfl⟩

theorem admits_encodable {type : FieldType} {item : Item} (admits : type.admits item)
    (narrow : ∀ bits, type = .uint bits → bits ≤ 32) (sized : itemSized (2 ^ 64) item) : type.encodable item := by
  cases type with
  | uint bits =>
    obtain ⟨n, rfl, fits⟩ := admits
    have width : 2 ^ bits ≤ 2 ^ 32 := Nat.pow_le_pow_right (by decide) (narrow bits rfl)
    exact ⟨n, rfl, by omega⟩
  | int32 =>
    obtain ⟨n, rfl, low, high⟩ := admits
    exact ⟨n, rfl, by omega, by omega⟩
  | bytes =>
    obtain ⟨content, rfl, _⟩ := admits
    exact ⟨content, rfl, sized content rfl⟩
  | rawBytes =>
    obtain ⟨content, rfl⟩ := admits
    exact ⟨content, rfl, sized content rfl⟩
  | boolean => exact admits

theorem entry_cases {format : Format Obj} {obj : Obj} {pair : Field Obj × Item} (inside : pair ∈ format.entries obj) :
    pair.1 ∈ format.fields ∧ (pair.1.get obj = some pair.2 ∨
      (pair.1.required = true ∧ pair.1.get obj = none ∧ pair.2 = pair.1.type.blank)) := by
  obtain ⟨field, member, made⟩ := List.mem_filterMap.mp inside
  obtain ⟨item, entry, rfl⟩ := Option.map_eq_some_iff.mp made
  refine ⟨member, ?_⟩
  unfold Field.entry at entry
  split at entry
  · rename_i required
    cases held : field.get obj with
    | none =>
      rw [held] at entry
      exact .inr ⟨required, rfl, (Option.some.inj entry).symm⟩
    | some value =>
      rw [held] at entry
      exact .inl entry
  · exact .inl entry

section Entries

variable {format : Format Obj} (lawful : format.Lawful) {obj : Obj} (typed : format.WellTyped obj)
  (sized : format.Sized (2 ^ 64) obj)
include lawful typed sized

theorem entry_encodable {pair : Field Obj × Item} (inside : pair ∈ format.entries obj) :
    pair.1.type.encodable pair.2 := by
  obtain ⟨member, held | ⟨_, _, blank⟩⟩ := entry_cases inside
  · exact admits_encodable (typed _ member _ held) (lawful.widths _ member) (sized _ member _ held)
  · rw [blank]
    exact blank_encodable _

theorem wire_scalars : Scalars ((format.entries obj).flatMap pairWire)
    (flat ((format.entries obj).map fun pair => (.int pair.1.tag, pair.2))) := by
  have encodable : ∀ pair ∈ format.entries obj, pair.1.tag < 2 ^ 64 ∧ pair.1.type.encodable pair.2 := by
    intro pair inside
    have range := (lawful.tag_range _ (entry_cases inside).1).2
    exact ⟨by omega, entry_encodable lawful typed sized inside⟩
  generalize format.entries obj = pairs at encodable
  induction pairs with
  | nil => exact .nil
  | cons pair rest ih =>
    obtain ⟨small, value⟩ := encodable pair (by simp)
    have others := ih fun other inside => encodable other (by simp [inside])
    simp only [List.flatMap_cons, pairWire, List.map_cons, flat, List.append_assoc]
    exact .cons (number_scalar small) (.cons (wire_scalar value) others)

theorem wire_box : Box 5 (format.wire obj) (flat (format.mapOf obj)) := by
  have few : (format.entries obj).length < 256 :=
    Nat.lt_of_le_of_lt (List.length_filterMap_le _ _) lawful.few
  have ids := lawful.ids.1
  have length : (flat (format.mapOf obj)).length = (1 + (format.entries obj).length) * 2 := by
    rw [flat_length, Format.mapOf, List.length_cons, List.length_map]
    omega
  have scalars : Scalars (numberBytes (0 % 2 ^ 64) 0 ++ (numberBytes (format.msgId % 2 ^ 64) 0 ++
      (format.entries obj).flatMap pairWire)) (flat (format.mapOf obj)) := by
    have zero : Scalar (numberBytes (0 % 2 ^ 64) 0) (.int (0 : Nat)) := number_scalar (by decide)
    exact .cons zero (.cons (number_scalar (by omega)) (wire_scalars lawful typed sized))
  have count : (1 + (format.entries obj).length) % 2 ^ 64 = 1 + (format.entries obj).length := Nat.mod_eq_of_lt (by omega)
  have header : Head 5 (1 + (format.entries obj).length) (numberBytes ((1 + (format.entries obj).length) % 2 ^ 64) 5) := by
    rw [count]
    exact numberBytes_head (by omega)
  have whole : uint32Max = 2 ^ 32 - 1 := rfl
  exact .counted header scalars length (by omega)

end Entries

theorem dropWhile_tag {fields : List (Field Obj)} (tags : (fields.map Field.tag).Nodup) {field : Field Obj}
    (member : field ∈ fields) :
    ∃ suffix, fields.dropWhile (fun other => (other.tag : Int) != field.tag) = field :: suffix := by
  induction fields with
  | nil => cases member
  | cons first rest ih =>
    rw [List.map_cons, List.nodup_cons] at tags
    rcases List.mem_cons.mp member with rfl | inside
    · exact ⟨rest, by simp⟩
    · have other : (first.tag : Int) ≠ field.tag := by
        intro same
        exact tags.1 (Int.ofNat_inj.mp same ▸ List.mem_map_of_mem inside)
      obtain ⟨suffix, dropped⟩ := ih tags.2 inside
      exact ⟨suffix, by rw [List.dropWhile_cons_of_pos (by simpa using other), dropped]⟩

theorem shaped_type {type : FieldType} {item : Item} (shaped : type.shaped item) : type.cborType = itemType item := by
  cases type with
  | uint bits | int32 | bytes | rawBytes | boolean =>
    obtain ⟨_, rfl⟩ := shaped
    rfl

theorem admits_shaped {type : FieldType} {item : Item} (admits : type.admits item) : type.shaped item := by
  cases type with
  | uint bits | int32 | bytes =>
    obtain ⟨value, same, _⟩ := admits
    exact ⟨value, same⟩
  | rawBytes | boolean => exact admits

theorem admits_store {type : FieldType} {item : Item} (admits : type.admits item) :
    type.store item = some item ∧ type.accepts item = true := by
  cases type with
  | uint bits =>
    obtain ⟨n, rfl, fits⟩ := admits
    have cut : (n : Int) % 2 ^ bits = n := by
      have bound : (n : Int) < 2 ^ bits := by exact_mod_cast fits
      exact Int.emod_eq_of_lt (Int.natCast_nonneg n) bound
    exact ⟨by rw [FieldType.store, cut], by simp [FieldType.accepts]⟩
  | int32 =>
    obtain ⟨n, rfl, low, high⟩ := admits
    exact ⟨by rw [FieldType.store, Int.bmod_eq_of_le (by omega) (by omega)], rfl⟩
  | bytes =>
    obtain ⟨content, rfl, some⟩ := admits
    exact ⟨by rw [FieldType.store, if_neg some], rfl⟩
  | rawBytes =>
    obtain ⟨content, rfl⟩ := admits
    exact ⟨rfl, rfl⟩
  | boolean =>
    obtain ⟨value, rfl⟩ := admits
    exact ⟨rfl, rfl⟩

theorem tag_bmod {tag : Nat} (small : tag < 256) : Int.bmod tag (2 ^ 64) = tag :=
  Int.bmod_eq_of_le (by omega) (by omega)

section Run

variable {format : Format Obj} (lawful : format.Lawful)
include lawful

theorem caseOf_tag {field : Field Obj} (member : field ∈ format.fields) {item : Item}
    (shaped : field.type.shaped item) : format.caseOf field.tag item = some field := by
  obtain ⟨suffix, dropped⟩ := dropWhile_tag lawful.tags member
  have range := (lawful.tag_range field member).1
  rw [Format.caseOf, Format.casesFrom, if_neg (by omega), dropped, List.find?_cons_of_pos]
  simp [shaped_type shaped]

theorem step_pair {field : Field Obj} (member : field ∈ format.fields) {item : Item}
    (admits : field.type.admits item) (obj : Obj) :
    format.step obj (.int field.tag, item) = some (field.set (some item) obj) := by
  obtain ⟨positive, range⟩ := lawful.tag_range field member
  obtain ⟨stored, accepts⟩ := admits_store admits
  have other : isIdCase (field.tag : Int) item = false := by
    have nonzero : field.tag ≠ 0 := by omega
    simp [isIdCase, nonzero]
  simp only [Format.step, tag_bmod (by omega : field.tag < 256), other, Bool.false_eq_true, if_false,
    caseOf_tag lawful member (admits_shaped admits), Option.bind_some, accepts, if_true, stored]

theorem run_pairs (pairs : List (Field Obj × Item)) (distinct : (pairs.map fun pair => pair.1.tag).Nodup)
    (members : ∀ pair ∈ pairs, pair.1 ∈ format.fields) (admits : ∀ pair ∈ pairs, pair.1.type.admits pair.2) (obj : Obj) :
    ∃ obj', format.run (pairs.map fun pair => (.int pair.1.tag, pair.2)) obj = some obj' ∧
      (∀ pair ∈ pairs, pair.1.get obj' = some pair.2) ∧
      ∀ field ∈ format.fields, (∀ pair ∈ pairs, pair.1.tag ≠ field.tag) → field.get obj' = field.get obj := by
  induction pairs generalizing obj with
  | nil =>
    refine ⟨obj, rfl, ?_, fun field _ _ => rfl⟩
    intro pair inside
    cases inside
  | cons pair rest ih =>
    rw [List.map_cons, List.nodup_cons] at distinct
    have member := members pair (by simp)
    have admitted := admits pair (by simp)
    obtain ⟨obj', ran, set, kept⟩ := ih distinct.2 (fun other inside => members other (by simp [inside]))
      (fun other inside => admits other (by simp [inside])) (pair.1.set (some pair.2) obj)
    refine ⟨obj', ?_, ?_, ?_⟩
    · rw [List.map_cons, Format.run, step_pair lawful member admitted, Option.bind_some, ran]
    · intro other inside
      rcases List.mem_cons.mp inside with rfl | inside
      · have apart : ∀ later ∈ rest, later.1.tag ≠ other.1.tag := by
          intro later within same
          exact distinct.1 (List.mem_map.mpr ⟨later, within, same⟩)
        rw [kept other.1 member apart]
        exact (lawful.regular other.1 member).get_set _ _ fun item same =>
          Option.some.inj same ▸ admits_shaped admitted
      · exact set other inside
    · intro field inside apart
      rw [kept field inside fun other within => apart other (by simp [within])]
      exact lawful.get_other pair.1 member field inside (apart pair (by simp)) _ _

/-- What the encoder writes of an object, the decoder makes into that object. -/
theorem decode_wire {obj : Obj} (typed : format.WellTyped obj) (sized : format.Sized (2 ^ 64) obj)
    (required : ∀ field ∈ format.fields, field.required = true → (field.get obj).isSome = true)
    (same : format.msgId = format.acceptedId) (garbage : CborValue) :
    format.decode garbage (format.wire obj) format.init = some (.noError, obj) := by
  have held : ∀ pair ∈ format.entries obj, pair.1 ∈ format.fields ∧ pair.1.get obj = some pair.2 := by
    intro pair inside
    obtain ⟨member, held | ⟨needed, absent, _⟩⟩ := entry_cases inside
    · exact ⟨member, held⟩
    · have present := required pair.1 member needed
      rw [absent] at present
      cases present
  have distinct : ((format.entries obj).map fun pair => pair.1.tag).Nodup := by
    have tags : (format.entries obj).map (fun pair => pair.1.tag) =
        (format.fields.filter fun field => (field.entry obj).isSome).map Field.tag := by
      unfold Format.entries
      induction format.fields with
      | nil => rfl
      | cons field rest ih =>
        cases entry : field.entry obj with
        | none => simp [entry, ih]
        | some item => simp [entry, ih]
    rw [tags]
    exact lawful.tags.sublist (List.filter_sublist.map Field.tag)
  obtain ⟨obj', ran, set, kept⟩ := run_pairs lawful (format.entries obj) distinct (fun pair inside => (held pair inside).1)
    (fun pair inside => typed _ (held pair inside).1 _ (held pair inside).2) format.init
  have all : obj' = obj := by
    apply lawful.ext
    intro field member
    cases value : field.get obj with
    | some item =>
      have entry : field.entry obj = some item := by
        unfold Field.entry
        split
        · rw [value]
          rfl
        · exact value
      exact set (field, item) (List.mem_filterMap.mpr ⟨field, member, by rw [entry]; rfl⟩)
    | none =>
      rw [kept field member ?_, lawful.get_init field member]
      intro pair inside clash
      have twin : pair.1 = field := List.inj_on_of_nodup_map lawful.tags (held pair inside).1 member clash
      have present := (held pair inside).2
      rw [twin, value] at present
      cases present
  subst all
  have ids := lawful.ids
  have first : format.step format.init (.int 0, .int format.msgId) = some format.init := by
    have zero : Int.bmod 0 (2 ^ 64) = 0 := by decide
    simp only [Format.step, zero, isIdCase, itemType, beq_self_eq_true, Bool.and_self, if_true, itemInt, Option.map_some,
      tag_bmod ids.2, same]
  have opens : Opens (format.wire obj' ++ []) (flat (format.mapOf obj')) := .map (wire_box lawful typed sized)
  rw [List.append_nil] at opens
  refine decode_complete format opens ?_ garbage
  rw [Format.mapOf, Format.run, first, Option.bind_some, ran]

end Run

end Bridge
