import Bridge.Library.Ccm
import Mathlib.Data.List.Basic

namespace Cbor

open ByteCounter Ccm

/-- The initial byte of an item: the major type in the upper three bits. -/
def initial (major info : Nat) : UInt8 := UInt8.ofNat (32 * major + info)

/-- What an item starts with: the lower bits of the initial byte are either the argument itself or
    the width of the argument that follows. -/
inductive Head (major : Nat) : Nat → List UInt8 → Prop
  | direct {n : Nat} (small : n < 24) : Head major n [initial major n]
  | wide {n : Nat} (k : Nat) (width : k < 4) (fits : n < 256 ^ 2 ^ k) :
      Head major n (initial major (24 + k) :: bigEndian (2 ^ k) n)

/-- The major type, the argument and what follows the head. -/
def readHead : List UInt8 → Option (Nat × Nat × List UInt8)
  | [] => none
  | first :: tail =>
    let info := first.toNat % 32
    if info < 24 then some (first.toNat / 32, info, tail)
    else if info < 28 ∧ 2 ^ (info - 24) ≤ tail.length then
      some (first.toNat / 32, number (tail.take (2 ^ (info - 24))), tail.drop (2 ^ (info - 24)))
    else none

/-- The data items. A simple value is kept as its number, a float as the bytes of its encoding. -/
inductive Item
  | int (value : Int)
  | bytes (content : List UInt8)
  | text (content : List UInt8)
  | array (items : List Item)
  | map (entries : List (Item × Item))
  | tagged (tag : Nat) (item : Item)
  | simple (value : Nat)
  | float (bits : List UInt8)

/-- The bytes between the initial byte of an open string and its break. -/
inductive Chunks (major : Nat) : List UInt8 → List UInt8 → Prop
  | nil : Chunks major [] []
  | cons {head chunk bytes content : List UInt8} (header : Head major chunk.length head)
      (rest : Chunks major bytes content) : Chunks major (head ++ chunk ++ bytes) (chunk ++ content)

def flat (entries : List (Item × Item)) : List Item := entries.flatMap fun entry => [entry.1, entry.2]

mutual

/-- `Spells bytes item`: the bytes are an encoding of the item, with a known length or open. -/
inductive Spells : List UInt8 → Item → Prop
  | natural {n : Nat} {head : List UInt8} (header : Head 0 n head) : Spells head (.int n)
  | negative {n : Nat} {head : List UInt8} (header : Head 1 n head) : Spells head (.int (-1 - n))
  | bytes {head content : List UInt8} (header : Head 2 content.length head) :
      Spells (head ++ content) (.bytes content)
  | openBytes {chunks content : List UInt8} (inner : Chunks 2 chunks content) :
      Spells (initial 2 31 :: chunks ++ [0xff]) (.bytes content)
  | text {head content : List UInt8} (header : Head 3 content.length head) :
      Spells (head ++ content) (.text content)
  | openText {chunks content : List UInt8} (inner : Chunks 3 chunks content) :
      Spells (initial 3 31 :: chunks ++ [0xff]) (.text content)
  | array {head body : List UInt8} {items : List Item} (header : Head 4 items.length head)
      (inner : SpellsAll body items) : Spells (head ++ body) (.array items)
  | openArray {body : List UInt8} {items : List Item} (inner : SpellsAll body items) :
      Spells (initial 4 31 :: body ++ [0xff]) (.array items)
  | map {head body : List UInt8} {entries : List (Item × Item)} (header : Head 5 entries.length head)
      (inner : SpellsAll body (flat entries)) : Spells (head ++ body) (.map entries)
  | openMap {body : List UInt8} {entries : List (Item × Item)} (inner : SpellsAll body (flat entries)) :
      Spells (initial 5 31 :: body ++ [0xff]) (.map entries)
  | tagged {tag : Nat} {head body : List UInt8} {item : Item} (header : Head 6 tag head)
      (inner : Spells body item) : Spells (head ++ body) (.tagged tag item)
  | simple {value : Nat} (small : value < 24) : Spells [initial 7 value] (.simple value)
  | wideSimple {value : UInt8} (large : 32 ≤ value.toNat) :
      Spells [initial 7 24, value] (.simple value.toNat)
  | float {k : Nat} {bits : List UInt8} (width : 1 ≤ k ∧ k ≤ 3) (sized : bits.length = 2 ^ k) :
      Spells (initial 7 (24 + k) :: bits) (.float bits)

inductive SpellsAll : List UInt8 → List Item → Prop
  | nil : SpellsAll [] []
  | cons {bytes body : List UInt8} {item : Item} {items : List Item} (first : Spells bytes item)
      (rest : SpellsAll body items) : SpellsAll (bytes ++ body) (item :: items)

end

/-- The item has arrays and maps inside one another up to this depth. -/
inductive Item.Within : Nat → Item → Prop
  | int {depth : Nat} (value : Int) : Within depth (.int value)
  | bytes {depth : Nat} (content : List UInt8) : Within depth (.bytes content)
  | text {depth : Nat} (content : List UInt8) : Within depth (.text content)
  | array {depth : Nat} {items : List Item} (inner : ∀ item ∈ items, Within depth item) :
      Within (depth + 1) (.array items)
  | map {depth : Nat} {entries : List (Item × Item)} (inner : ∀ item ∈ flat entries, Within depth item) :
      Within (depth + 1) (.map entries)
  | tagged {depth tag : Nat} {item : Item} (inner : Within depth item) : Within depth (.tagged tag item)
  | simple {depth : Nat} (value : Nat) : Within depth (.simple value)
  | float {depth : Nat} (bits : List UInt8) : Within depth (.float bits)

inductive Scalar : List UInt8 → Item → Prop
  | natural {n : Nat} {head : List UInt8} (header : Head 0 n head) : Scalar head (.int n)
  | negative {n : Nat} {head : List UInt8} (header : Head 1 n head) : Scalar head (.int (-1 - n))
  | bytes {head content : List UInt8} (header : Head 2 content.length head) :
      Scalar (head ++ content) (.bytes content)
  | boolean (value : Bool) : Scalar [initial 7 (20 + value.toNat)] (.simple (20 + value.toNat))

inductive Scalars : List UInt8 → List Item → Prop
  | nil : Scalars [] []
  | cons {bytes body : List UInt8} {item : Item} {items : List Item} (first : Scalar bytes item)
      (rest : Scalars body items) : Scalars (bytes ++ body) (item :: items)

theorem bigEndian_length (width value : Nat) : (bigEndian width value).length = width := by
  induction width generalizing value with
  | zero => rfl
  | succ width ih => simp [bigEndian, ih]

theorem number_bigEndian (width value : Nat) : number (bigEndian width value) = value % 256 ^ width := by
  induction width generalizing value with
  | zero => simp [bigEndian, Nat.mod_one]
  | succ width ih =>
    have byte : (UInt8.ofNat (value % 256)).toNat = value % 256 := by
      rw [UInt8.toNat_ofNat']
      omega
    have split := Nat.mod_mul (x := value) (a := 256) (b := 256 ^ width)
    rw [bigEndian, number_append_byte, ih, byte, Nat.pow_succ, Nat.mul_comm (256 ^ width), split]
    omega

theorem bigEndian_number (bytes : List UInt8) : bigEndian bytes.length (number bytes) = bytes := by
  induction bytes using List.reverseRecOn with
  | nil => rfl
  | append_singleton bytes byte ih =>
    have bound := byte.toNat_lt
    have quotient : (256 * number bytes + byte.toNat) / 256 = number bytes := by omega
    have remainder : (256 * number bytes + byte.toNat) % 256 = byte.toNat := by omega
    rw [List.length_append, List.length_singleton, number_append_byte, bigEndian, quotient, remainder, ih,
      UInt8.ofNat_toNat]

theorem initial_toNat {major info : Nat} (kind : major < 8) (low : info < 32) :
    (initial major info).toNat = 32 * major + info := by
  rw [initial, UInt8.toNat_ofNat']
  omega

theorem initial_major {major info : Nat} (kind : major < 8) (low : info < 32) :
    (initial major info).toNat / 32 = major ∧ (initial major info).toNat % 32 = info := by
  rw [initial_toNat kind low]
  omega

theorem readHead_head {major n : Nat} {head : List UInt8} (kind : major < 8) (header : Head major n head)
    (rest : List UInt8) : readHead (head ++ rest) = some (major, n, rest) := by
  cases header with
  | direct small =>
    obtain ⟨upper, lower⟩ := initial_major kind (by omega : n < 32)
    simp only [readHead, List.cons_append, List.nil_append, upper, lower, small, if_true]
  | wide k width fits =>
    obtain ⟨upper, lower⟩ := initial_major kind (by omega : 24 + k < 32)
    have size := bigEndian_length (2 ^ k) n
    have value := number_bigEndian (2 ^ k) n
    rw [Nat.mod_eq_of_lt fits] at value
    have whole : ((bigEndian (2 ^ k) n) ++ rest).take (2 ^ k) = bigEndian (2 ^ k) n := List.take_left' size
    have after : ((bigEndian (2 ^ k) n) ++ rest).drop (2 ^ k) = rest := List.drop_left' size
    have room : 24 + k < 28 ∧ 2 ^ k ≤ (bigEndian (2 ^ k) n ++ rest).length := by
      rw [List.length_append, size]
      omega
    have large : ¬24 + k < 24 := by omega
    simp only [readHead, List.cons_append, upper, lower, large, if_false, Nat.add_sub_cancel_left, room,
      and_self, if_true, whole, after, value]

theorem head_of_readHead {bytes rest : List UInt8} {major n : Nat} (read : readHead bytes = some (major, n, rest)) :
    major < 8 ∧ ∃ head, bytes = head ++ rest ∧ Head major n head := by
  rcases bytes with _ | ⟨first, tail⟩
  · cases read
  have range := first.toNat_lt
  have whole : 32 * (first.toNat / 32) + first.toNat % 32 = first.toNat := Nat.div_add_mod _ _
  simp only [readHead] at read
  split at read
  · rename_i small
    cases read
    refine ⟨by omega, [first], rfl, ?_⟩
    have direct : Head (first.toNat / 32) _ _ := .direct small
    rwa [initial, whole, UInt8.ofNat_toNat] at direct
  · split at read
    · rename_i large wide
      cases read
      obtain ⟨width, enough⟩ := wide
      refine ⟨by omega, first :: tail.take (2 ^ (first.toNat % 32 - 24)), ?_, ?_⟩
      · rw [List.cons_append, List.take_append_drop]
      · have size : (tail.take (2 ^ (first.toNat % 32 - 24))).length = 2 ^ (first.toNat % 32 - 24) := by
          rw [List.length_take]
          omega
        have bound := number_lt (tail.take (2 ^ (first.toNat % 32 - 24)))
        have same := bigEndian_number (tail.take (2 ^ (first.toNat % 32 - 24)))
        rw [size] at bound same
        have info : 24 + (first.toNat % 32 - 24) = first.toNat % 32 := by omega
        have header : Head (first.toNat / 32) _ _ := .wide (first.toNat % 32 - 24) (by omega) bound
        rwa [same, info, initial, whole, UInt8.ofNat_toNat] at header
    · cases read

theorem head_first {major n : Nat} {head : List UInt8} (kind : major < 8) (header : Head major n head) :
    ∃ first tail, head = first :: tail ∧ first.toNat / 32 = major ∧ first.toNat % 32 < 28 := by
  cases header with
  | direct small =>
    obtain ⟨upper, lower⟩ := initial_major kind (by omega : n < 32)
    exact ⟨_, _, rfl, upper, by omega⟩
  | wide k width fits =>
    obtain ⟨upper, lower⟩ := initial_major kind (by omega : 24 + k < 32)
    exact ⟨_, _, rfl, upper, by omega⟩

theorem readHead_major {first : UInt8} {tail rest : List UInt8} {major n : Nat}
    (read : readHead (first :: tail) = some (major, n, rest)) : first.toNat / 32 = major := by
  simp only [readHead] at read
  split at read
  · cases read
    rfl
  · split at read
    · cases read
      rfl
    · cases read

theorem readHead_open {major : Nat} (kind : major < 8) (rest : List UInt8) :
    readHead (initial major 31 :: rest) = none := by
  obtain ⟨_, lower⟩ := initial_major kind (by decide : 31 < 32)
  simp [readHead, lower]

theorem spells_first {bytes : List UInt8} {item : Item} (spelled : Spells bytes item) :
    ∃ first tail, bytes = first :: tail ∧ first ≠ 0xff ∧
      (first.toNat / 32 = 7 → first.toNat % 32 < 24 → item = .simple (first.toNat % 32) ∧ tail = []) := by
  have headed : ∀ {major n : Nat} {head : List UInt8} (_ : major < 7) (_ : Head major n head) (body : List UInt8),
      ∃ first tail, head ++ body = first :: tail ∧ first ≠ 0xff ∧
        (first.toNat / 32 = 7 → first.toNat % 32 < 24 → item = .simple (first.toNat % 32) ∧ tail = []) := by
    intro major n head kind header body
    obtain ⟨first, tail, rfl, upper, _⟩ := head_first (by omega) header
    refine ⟨first, tail ++ body, rfl, ?_, fun last _ => by omega⟩
    rintro rfl
    have byte : (0xff : UInt8).toNat = 255 := rfl
    omega
  have opened : ∀ {major : Nat} (_ : major < 7) (body : List UInt8),
      ∃ first tail, initial major 31 :: body = first :: tail ∧ first ≠ 0xff ∧
        (first.toNat / 32 = 7 → first.toNat % 32 < 24 → item = .simple (first.toNat % 32) ∧ tail = []) := by
    intro major kind body
    obtain ⟨upper, _⟩ := initial_major (by omega : major < 8) (by decide : 31 < 32)
    refine ⟨_, body, rfl, ?_, fun last _ => by omega⟩
    intro same
    rw [same] at upper
    have byte : (0xff : UInt8).toNat = 255 := rfl
    omega
  cases spelled with
  | natural header => simpa using headed (by decide) header []
  | negative header => simpa using headed (by decide) header []
  | bytes header | text header => exact headed (by decide) header _
  | array header inner | map header inner | tagged header inner => exact headed (by decide) header _
  | openBytes inner | openText inner | openArray inner | openMap inner => exact opened (by decide) _
  | @simple value small =>
    have byte := initial_toNat (by decide : 7 < 8) (by omega : value < 32)
    refine ⟨_, _, rfl, ?_, fun _ _ => ⟨by rw [(initial_major (by decide) (by omega)).2], rfl⟩⟩
    intro same
    rw [same] at byte
    have last : (0xff : UInt8).toNat = 255 := rfl
    omega
  | wideSimple large => exact ⟨_, _, rfl, by decide, fun _ narrow => absurd narrow (by decide)⟩
  | @float k _ width sized =>
    have byte := initial_toNat (by decide : 7 < 8) (by omega : 24 + k < 32)
    refine ⟨_, _, rfl, ?_, fun _ narrow => by omega⟩
    intro same
    rw [same] at byte
    have last : (0xff : UInt8).toNat = 255 := rfl
    omega

theorem spells_head {bytes rest after : List UInt8} {item : Item} {major n : Nat} (spelled : Spells bytes item)
    (read : readHead (bytes ++ rest) = some (major, n, after)) :
    (major = 0 → item = .int n ∧ after = rest) ∧ (major = 1 → item = .int (-1 - n) ∧ after = rest) ∧
      (major = 2 → ∃ content, item = .bytes content ∧ content.length = n ∧ after = content ++ rest) := by
  cases spelled with
  | natural header | negative header =>
    rw [readHead_head (by decide) header] at read
    cases read
    simp
  | bytes header =>
    rw [List.append_assoc, readHead_head (by decide) header] at read
    cases read
    simp
  | text header | array header inner | map header inner | tagged header inner =>
    rw [List.append_assoc, readHead_head (by decide) header] at read
    cases read
    simp
  | openBytes inner | openText inner | openArray inner | openMap inner =>
    rw [List.cons_append, List.cons_append, readHead_open (by decide)] at read
    cases read
  | @simple value small =>
    have upper := readHead_major read
    rw [(initial_major (by decide) (by omega)).1] at upper
    omega
  | wideSimple large =>
    have upper := readHead_major read
    rw [(initial_major (by decide) (by omega)).1] at upper
    omega
  | @float k _ width sized =>
    have upper := readHead_major read
    rw [(initial_major (by decide) (by omega)).1] at upper
    omega

theorem scalar_unique {bytes bytes' rest rest' : List UInt8} {item item' : Item} (scalar : Scalar bytes item)
    (spelled : Spells bytes' item') (same : bytes ++ rest = bytes' ++ rest') : item = item' ∧ rest = rest' := by
  cases scalar with
  | natural header =>
    have read := readHead_head (by decide) header rest
    rw [same] at read
    obtain ⟨rfl, rfl⟩ := (spells_head spelled read).1 rfl
    exact ⟨rfl, rfl⟩
  | negative header =>
    have read := readHead_head (by decide) header rest
    rw [same] at read
    obtain ⟨rfl, rfl⟩ := (spells_head spelled read).2.1 rfl
    exact ⟨rfl, rfl⟩
  | @bytes _ content header =>
    have read := readHead_head (by decide) header (content ++ rest)
    rw [← List.append_assoc, same] at read
    obtain ⟨content', rfl, sized, after⟩ := (spells_head spelled read).2.2 rfl
    obtain ⟨rfl, rfl⟩ := List.append_inj after sized.symm
    exact ⟨rfl, rfl⟩
  | boolean value =>
    obtain ⟨first, tail, rfl, _, short⟩ := spells_first spelled
    have small : 20 + value.toNat < 24 := by cases value <;> decide
    obtain ⟨upper, lower⟩ := initial_major (by decide : 7 < 8) (by omega : 20 + value.toNat < 32)
    simp only [List.cons_append, List.nil_append, List.cons.injEq] at same
    obtain ⟨rfl, rfl⟩ := same
    rw [lower] at short
    obtain ⟨rfl, rfl⟩ := short upper small
    exact ⟨rfl, rfl⟩

theorem scalar_spells {bytes : List UInt8} {item : Item} (scalar : Scalar bytes item) : Spells bytes item := by
  cases scalar with
  | natural header => exact .natural header
  | negative header => exact .negative header
  | bytes header => exact .bytes header
  | boolean value => exact .simple (by cases value <;> decide)

theorem scalar_of_int {bytes : List UInt8} {value : Int} (spelled : Spells bytes (.int value)) :
    Scalar bytes (.int value) := by
  cases spelled with
  | natural header => exact .natural header
  | negative header => exact .negative header

theorem scalars_spell {bytes : List UInt8} {items : List Item} (scalars : Scalars bytes items) :
    SpellsAll bytes items := by
  induction scalars with
  | nil => exact .nil
  | cons first rest ih => exact .cons (scalar_spells first) ih

theorem scalars_unique {bytes bytes' rest rest' : List UInt8} {items items' : List Item}
    (scalars : Scalars bytes items) (spelled : SpellsAll bytes' items') (length : items.length = items'.length)
    (same : bytes ++ rest = bytes' ++ rest') : items = items' ∧ rest = rest' := by
  induction scalars generalizing bytes' items' with
  | nil =>
    cases spelled with
    | nil => exact ⟨rfl, same⟩
    | cons first others => cases length
  | cons first others ih =>
    cases spelled with
    | nil => cases length
    | cons first' others' =>
      rw [List.append_assoc, List.append_assoc] at same
      obtain ⟨rfl, tail⟩ := scalar_unique first first' same
      obtain ⟨rfl, rest⟩ := ih others' (by simpa using length) tail
      exact ⟨rfl, rest⟩

theorem scalars_unique_open {bytes bytes' rest rest' : List UInt8} {items items' : List Item}
    (scalars : Scalars bytes items) (spelled : SpellsAll bytes' items')
    (same : bytes ++ 0xff :: rest = bytes' ++ 0xff :: rest') : items = items' ∧ rest = rest' := by
  induction scalars generalizing bytes' items' with
  | nil =>
    cases spelled with
    | nil => exact ⟨rfl, List.tail_eq_of_cons_eq same⟩
    | cons first others =>
      obtain ⟨byte, tail, rfl, noBreak, _⟩ := spells_first first
      exact absurd (List.head_eq_of_cons_eq same).symm noBreak
  | cons first others ih =>
    cases spelled with
    | nil =>
      obtain ⟨byte, tail, rfl, noBreak, _⟩ := spells_first (scalar_spells first)
      exact absurd (List.head_eq_of_cons_eq same) noBreak
    | cons first' others' =>
      rw [List.append_assoc, List.append_assoc] at same
      obtain ⟨rfl, tail⟩ := scalar_unique first first' same
      obtain ⟨rfl, rest⟩ := ih others' tail
      exact ⟨rfl, rest⟩

theorem spellsAll_length {body : List UInt8} {items : List Item} (spelled : SpellsAll body items) :
    items.length ≤ body.length := by
  induction items generalizing body with
  | nil => exact Nat.zero_le _
  | cons item items ih =>
    cases spelled with
    | cons first rest =>
      obtain ⟨byte, tail, rfl, _⟩ := spells_first first
      have others := ih rest
      simp only [List.length_cons, List.length_append]
      omega

theorem chunks_length {major : Nat} {chunks content : List UInt8} (inner : Chunks major chunks content) :
    content.length ≤ chunks.length := by
  induction inner with
  | nil => exact Nat.le_refl 0
  | cons header rest ih =>
    simp only [List.length_append]
    omega

theorem simple_head {value : Nat} (small : value < 24) : Head 7 value [initial 7 value] := .direct small

theorem wideSimple_head (value : UInt8) : Head 7 value.toNat [initial 7 24, value] := by
  have one : bigEndian (2 ^ 0) value.toNat = [value] := by
    have single : number [value] = value.toNat := by simp [number]
    have same := bigEndian_number [value]
    rwa [single] at same
  have header : Head 7 value.toNat (initial 7 (24 + 0) :: bigEndian (2 ^ 0) value.toNat) :=
    .wide 0 (by decide) value.toNat_lt
  rwa [one] at header

theorem float_head {k : Nat} {bits : List UInt8} (width : k ≤ 3) (sized : bits.length = 2 ^ k) :
    Head 7 (number bits) (initial 7 (24 + k) :: bits) := by
  have bound := number_lt bits
  have same := bigEndian_number bits
  rw [sized] at bound same
  have header : Head 7 (number bits) (initial 7 (24 + k) :: bigEndian (2 ^ k) (number bits)) :=
    .wide k (by omega) bound
  rwa [same] at header

theorem flat_length (entries : List (Item × Item)) : (flat entries).length = 2 * entries.length := by
  induction entries with
  | nil => rfl
  | cons entry entries ih =>
    simp only [flat, List.flatMap_cons, List.length_append, List.length_cons, List.length_nil] at ih ⊢
    omega

theorem flat_injective {entries entries' : List (Item × Item)} (same : flat entries = flat entries') :
    entries = entries' := by
  induction entries generalizing entries' with
  | nil =>
    cases entries' with
    | nil => rfl
    | cons entry rest => cases same
  | cons entry rest ih =>
    cases entries' with
    | nil => cases same
    | cons entry' rest' =>
      simp only [flat, List.flatMap_cons, List.cons_append, List.nil_append, List.cons.injEq] at same
      obtain ⟨key, value, tail⟩ := same
      rw [ih tail, Prod.ext key value]

/-- A map of scalars, with its count or open. -/
inductive ScalarMap : List UInt8 → List (Item × Item) → Prop
  | counted {head body : List UInt8} {entries : List (Item × Item)} (header : Head 5 entries.length head)
      (inner : Scalars body (flat entries)) : ScalarMap (head ++ body) entries
  | opened {body : List UInt8} {entries : List (Item × Item)} (inner : Scalars body (flat entries)) :
      ScalarMap (initial 5 31 :: body ++ [0xff]) entries

theorem scalarMap_unique {bytes bytes' rest rest' : List UInt8} {entries entries' : List (Item × Item)}
    (scalars : ScalarMap bytes entries) (spelled : Spells bytes' (.map entries'))
    (same : bytes ++ rest = bytes' ++ rest') : entries = entries' ∧ rest = rest' := by
  cases scalars with
  | @counted head body _ header inner =>
    have read := readHead_head (by decide) header (body ++ rest)
    rw [← List.append_assoc, same] at read
    cases spelled with
    | map header' inner' =>
      rw [List.append_assoc, readHead_head (by decide) header'] at read
      simp only [Option.some.injEq, Prod.mk.injEq, true_and] at read
      obtain ⟨count, tail⟩ := read
      obtain ⟨items, after⟩ := scalars_unique inner inner' (by rw [flat_length, flat_length, count]) tail.symm
      exact ⟨flat_injective items, after⟩
    | openMap inner' =>
      rw [List.cons_append, List.cons_append, readHead_open (by decide)] at read
      cases read
  | @opened body _ inner =>
    cases spelled with
    | @map head' body' _ header' inner' =>
      have read := readHead_head (by decide) header' (body' ++ rest')
      rw [← List.append_assoc, ← same, List.cons_append, List.cons_append, readHead_open (by decide)] at read
      cases read
    | openMap inner' =>
      simp only [List.cons_append, List.append_assoc, List.nil_append, List.cons.injEq, true_and] at same
      obtain ⟨items, after⟩ := scalars_unique_open inner inner' same
      exact ⟨flat_injective items, after⟩

end Cbor
