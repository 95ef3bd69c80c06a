import Bridge.Messages.Wire

namespace Bridge

open ByteCounter Cbor

variable {Obj : Type}

def Format.target (format : Format Obj) : Item × Item → Option (Field Obj)
  | (.int key, value) =>
    if isIdCase (Int.bmod key (2 ^ 64)) value then none else format.caseOf (Int.bmod key (2 ^ 64)) value
  | _ => none

/-- The decoder goes on past an entry: it is a message id, and the right one, or a field takes it. -/
def Format.takes (format : Format Obj) : Item × Item → Bool
  | (.int key, value) =>
    if isIdCase (Int.bmod key (2 ^ 64)) value then
      (itemInt value).map (Int.bmod · (2 ^ 64)) == some (format.acceptedId : Int)
    else (format.caseOf (Int.bmod key (2 ^ 64)) value).any fun field => field.type.accepts value
  | _ => false

def Format.stored (format : Format Obj) (obj : Obj) (entry : Item × Item) : Obj :=
  match format.target entry with
  | some field => field.set (field.type.store entry.2) obj
  | none => obj

theorem step_takes (format : Format Obj) (obj : Obj) (entry : Item × Item) :
    format.step obj entry = if format.takes entry then some (format.stored obj entry) else none := by
  obtain ⟨key, value⟩ := entry
  cases key with
  | int key =>
    by_cases idCase : isIdCase (Int.bmod key (2 ^ 64)) value = true
    · have takes : format.takes (.int key, value) =
          ((itemInt value).map (Int.bmod · (2 ^ 64)) == some (format.acceptedId : Int)) := if_pos idCase
      have target : format.target (.int key, value) = none := if_pos idCase
      simp only [Format.step, if_pos idCase, takes, Format.stored, target, beq_iff_eq]
    · have takes : format.takes (.int key, value) = (format.caseOf (Int.bmod key (2 ^ 64)) value).any fun field =>
          field.type.accepts value := if_neg idCase
      have target : format.target (.int key, value) = format.caseOf (Int.bmod key (2 ^ 64)) value := if_neg idCase
      rw [Format.step, if_neg idCase, takes, Format.stored, target]
      cases format.caseOf (Int.bmod key (2 ^ 64)) value with
      | none => rfl
      | some field => rfl
  | bytes | text | array | map | tagged | simple | float => rfl

theorem run_takes (format : Format Obj) (entries : List (Item × Item)) (obj : Obj) :
    format.run entries obj =
      if ∀ entry ∈ entries, format.takes entry = true then some (entries.foldl format.stored obj) else none := by
  induction entries generalizing obj with
  | nil => rfl
  | cons entry rest ih =>
    have both : (∀ other ∈ entry :: rest, format.takes other = true) ↔
        format.takes entry = true ∧ ∀ other ∈ rest, format.takes other = true := List.forall_mem_cons
    rw [Format.run, step_takes]
    by_cases taken : format.takes entry = true
    · rw [if_pos taken, Option.bind_some, ih]
      by_cases others : ∀ entry ∈ rest, format.takes entry = true
      · rw [if_pos others, if_pos (both.mpr ⟨taken, others⟩), List.foldl_cons]
      · rw [if_neg others, if_neg fun all => others (both.mp all).2]
    · rw [if_neg taken, if_neg fun all => taken (both.mp all).1, Option.bind_none]

theorem store_shaped {type : FieldType} {bytes : List UInt8} {value item : Item} (scalar : Scalar bytes value)
    (stored : type.store value = some item) : type.shaped item := by
  cases type with
  | uint bits =>
    cases value with
    | int n =>
      cases stored
      have natural : 0 ≤ n % 2 ^ bits := Int.emod_nonneg n (by positivity)
      exact ⟨(n % 2 ^ bits).toNat, by rw [Int.toNat_of_nonneg natural]⟩
    | bytes | text | array | map | tagged | simple | float => cases stored
  | int32 =>
    cases value with
    | int n =>
      cases stored
      exact ⟨_, rfl⟩
    | bytes | text | array | map | tagged | simple | float => cases stored
  | bytes =>
    cases value with
    | bytes content =>
      simp only [FieldType.store] at stored
      split at stored
      · cases stored
      · cases stored
        exact ⟨content, rfl⟩
    | int | text | array | map | tagged | simple | float => cases stored
  | rawBytes =>
    cases value with
    | bytes content =>
      cases stored
      exact ⟨content, rfl⟩
    | int | text | array | map | tagged | simple | float => cases stored
  | boolean =>
    cases scalar with
    | boolean flag =>
      cases stored
      exact ⟨flag, rfl⟩
    | natural | negative | bytes => cases stored

theorem store_admits {type : FieldType} {bytes : List UInt8} {value item : Item} (scalar : Scalar bytes value)
    (stored : type.store value = some item) : type.admits item := by
  obtain shaped := store_shaped scalar stored
  cases type with
  | uint bits =>
    obtain ⟨m, rfl⟩ := shaped
    refine ⟨m, rfl, ?_⟩
    cases value with
    | int n =>
      have same : n % 2 ^ bits = m := Item.int.inj (Option.some.inj stored)
      have bound : n % 2 ^ bits < 2 ^ bits := Int.emod_lt_of_pos n (by positivity)
      rw [same] at bound
      exact_mod_cast bound
    | bytes | text | array | map | tagged | simple | float => cases stored
  | int32 =>
    obtain ⟨m, rfl⟩ := shaped
    refine ⟨m, rfl, ?_⟩
    cases value with
    | int n =>
      have same : Int.bmod n (2 ^ 32) = m := Item.int.inj (Option.some.inj stored)
      have low := @Int.le_bmod n (2 ^ 32) (by decide)
      have high := @Int.bmod_lt n (2 ^ 32) (by decide)
      omega
    | bytes | text | array | map | tagged | simple | float => cases stored
  | bytes =>
    obtain ⟨content, rfl⟩ := shaped
    refine ⟨content, rfl, ?_⟩
    rintro rfl
    cases value with
    | bytes data =>
      simp only [FieldType.store] at stored
      split at stored
      · cases stored
      · rename_i some
        exact some (Item.bytes.inj (Option.some.inj stored))
    | int | text | array | map | tagged | simple | float => cases stored
  | rawBytes | boolean => exact shaped

theorem last_split {α : Type} (p : α → Prop) (items : List α) : (∀ item ∈ items, ¬p item) ∨
    ∃ before item after, items = before ++ item :: after ∧ p item ∧ ∀ later ∈ after, ¬p later := by
  induction items with
  | nil => exact .inl fun item inside => by cases inside
  | cons first rest ih =>
    rcases ih with none | ⟨before, item, after, rfl, holds, last⟩
    · by_cases holds : p first
      · exact .inr ⟨[], first, rest, rfl, holds, none⟩
      · refine .inl fun item inside => ?_
        rcases List.mem_cons.mp inside with rfl | inside
        · exact holds
        · exact none item inside
    · exact .inr ⟨first :: before, item, after, rfl, holds, last⟩

theorem target_member {format : Format Obj} {entry : Item × Item} {field : Field Obj}
    (lands : format.target entry = some field) : field ∈ format.fields := by
  obtain ⟨key, value⟩ := entry
  cases key with
  | int key =>
    simp only [Format.target] at lands
    split at lands
    · cases lands
    · exact casesFrom_subset (List.mem_of_find?_eq_some lands)
  | bytes | text | array | map | tagged | simple | float => cases lands

section Stored

variable {format : Format Obj} (lawful : format.Lawful) {field : Field Obj} (member : field ∈ format.fields)
include lawful member

theorem stored_other {entry : Item × Item} (apart : format.target entry ≠ some field) (obj : Obj) :
    field.get (format.stored obj entry) = field.get obj := by
  cases lands : format.target entry with
  | none => rw [Format.stored, lands]
  | some other =>
    have different : other.tag ≠ field.tag := by
      intro same
      have twin := List.inj_on_of_nodup_map lawful.tags (target_member lands) member same
      exact apart (twin ▸ lands)
    rw [Format.stored, lands]
    exact lawful.get_other other (target_member lands) field member different _ _

theorem stored_same {entry : Item × Item} {bytes : List UInt8} (scalar : Scalar bytes entry.2)
    (lands : format.target entry = some field) (obj : Obj) :
    field.get (format.stored obj entry) = field.type.store entry.2 := by
  rw [Format.stored, lands]
  exact (lawful.regular field member).get_set _ _ fun item kept => store_shaped scalar kept

theorem foldl_other {entries : List (Item × Item)} (apart : ∀ entry ∈ entries, format.target entry ≠ some field)
    (obj : Obj) : field.get (entries.foldl format.stored obj) = field.get obj := by
  induction entries generalizing obj with
  | nil => rfl
  | cons entry rest ih =>
    rw [List.foldl_cons, ih fun other inside => apart other (by simp [inside])]
    exact stored_other lawful member (apart entry (by simp)) obj

theorem foldl_last {before after : List (Item × Item)} {entry : Item × Item} {bytes : List UInt8}
    (scalar : Scalar bytes entry.2) (lands : format.target entry = some field)
    (last : ∀ later ∈ after, format.target later ≠ some field) (obj : Obj) :
    field.get ((before ++ entry :: after).foldl format.stored obj) = field.type.store entry.2 := by
  rw [List.foldl_append, List.foldl_cons, foldl_other lawful member last]
  exact stored_same lawful member scalar lands _

theorem foldl_admits {entries : List (Item × Item)} (scalars : ∀ entry ∈ entries, ∃ bytes, Scalar bytes entry.2)
    {item : Item} (held : field.get (entries.foldl format.stored format.init) = some item) : field.type.admits item := by
  rcases last_split (fun entry => format.target entry = some field) entries with
    none | ⟨before, entry, after, rfl, lands, last⟩
  · rw [foldl_other lawful member none, lawful.get_init field member] at held
    cases held
  · obtain ⟨bytes, scalar⟩ := scalars entry (by simp)
    rw [foldl_last lawful member scalar lands last] at held
    exact store_admits scalar held

end Stored

/-- The whole input is a map of these entries, or an array of maps of which that is the first. -/
def MapInput (input : List UInt8) (entries : List (Item × Item)) : Prop :=
  Spells input (.map entries) ∨ ∃ others : List (List (Item × Item)),
    Spells input (.array (.map entries :: others.map .map))

section Unique

variable {bytes rest : List UInt8} {entries : List (Item × Item)}

theorem map_first (spelled : Spells bytes (.map entries)) :
    ∃ first tail, bytes = first :: tail ∧ first.toNat / 32 = 5 := by
  cases spelled with
  | map header inner =>
    obtain ⟨first, tail, rfl, upper, _⟩ := head_first (by decide) header
    exact ⟨first, tail ++ _, rfl, upper⟩
  | openMap inner => exact ⟨_, _, rfl, (initial_major (by decide) (by decide)).1⟩

theorem array_first {items : List Item} (spelled : Spells bytes (.array items)) :
    ∃ first tail, bytes = first :: tail ∧ first.toNat / 32 = 4 := by
  cases spelled with
  | array header inner =>
    obtain ⟨first, tail, rfl, upper, _⟩ := head_first (by decide) header
    exact ⟨first, tail ++ _, rfl, upper⟩
  | openArray inner => exact ⟨_, _, rfl, (initial_major (by decide) (by decide)).1⟩

theorem box_first {major : Nat} (container : major = 4 ∨ major = 5) {items : List Item} (box : Box major bytes items) :
    ∃ first tail, bytes = first :: tail ∧ first.toNat / 32 = major := by
  have low : major < 8 := by omega
  cases box with
  | counted header inner sized few =>
    obtain ⟨first, tail, rfl, upper, _⟩ := head_first low header
    exact ⟨first, tail ++ _, rfl, upper⟩
  | opened inner => exact ⟨_, _, rfl, (initial_major low (by decide)).1⟩

theorem arrayHead_first {head after : List UInt8} (outer : ArrayHead head after) :
    ∃ first tail, head = first :: tail ∧ first.toNat / 32 = 4 := by
  cases outer with
  | only header | several header _ _ _ =>
    obtain ⟨first, tail, rfl, upper, _⟩ := head_first (by decide) header
    exact ⟨first, tail, rfl, upper⟩
  | last | more _ => exact ⟨_, _, rfl, (initial_major (by decide) (by decide)).1⟩

theorem box_scalarMap (box : Box 5 bytes (flat entries)) : ScalarMap bytes entries := by
  generalize same : flat entries = items at box
  cases box with
  | @counted count _ _ _ header inner sized few =>
    subst same
    have length := flat_length entries
    rw [if_pos rfl] at sized
    have exact_count : count = entries.length := by omega
    exact .counted (exact_count ▸ header) inner
  | opened inner =>
    subst same
    exact .opened inner

theorem box_unique {major : Nat} (container : major = 4 ∨ major = 5) (box : Box major bytes (flat entries))
    {bytes' rest' : List UInt8} {entries' : List (Item × Item)} (spelled : Spells bytes' (.map entries'))
    (same : bytes ++ rest = bytes' ++ rest') : entries = entries' := by
  obtain ⟨first, tail, start, upper⟩ := box_first container box
  obtain ⟨first', tail', start', upper'⟩ := map_first spelled
  rw [start, start', List.cons_append, List.cons_append] at same
  obtain rfl : major = 5 := by rw [← upper, ← upper', List.head_eq_of_cons_eq same]
  rw [← List.cons_append, ← List.cons_append, ← start, ← start'] at same
  exact (scalarMap_unique (box_scalarMap box) spelled same).1

theorem arrayHead_body {head after rest : List UInt8} (outer : ArrayHead head after) {input : List UInt8}
    {item : Item} {items : List Item} (spelled : Spells input (.array (item :: items))) (same : head ++ rest = input) :
    ∃ bytes others, Spells bytes item ∧ rest = bytes ++ others := by
  have counted : ∀ {count : Nat}, Head 4 count head → ∃ bytes others, Spells bytes item ∧ rest = bytes ++ others := by
    intro count header
    have read := readHead_head (by decide) header rest
    rw [same] at read
    cases spelled with
    | @array head' body _ header' inner =>
      rw [readHead_head (by decide) header' body] at read
      cases inner with
      | cons first others =>
        simp only [Option.some.injEq, Prod.mk.injEq, true_and] at read
        exact ⟨_, _, first, read.2.symm⟩
    | openArray inner =>
      rw [List.cons_append, readHead_open (by decide)] at read
      cases read
  have opened : head = [initial 4 31] → ∃ bytes others, Spells bytes item ∧ rest = bytes ++ others := by
    rintro rfl
    cases spelled with
    | @array head' body _ header' inner =>
      have read := readHead_head (by decide) header' body
      rw [← same, List.cons_append, List.nil_append, readHead_open (by decide)] at read
      cases read
    | openArray inner =>
      cases inner with
      | cons first others =>
        simp only [List.cons_append, List.nil_append, List.append_assoc, List.cons.injEq, true_and] at same
        exact ⟨_, _, first, same⟩
  cases outer with
  | only header | several header _ _ _ => exact counted header
  | last | more _ => exact opened rfl

theorem opens_unique {input : List UInt8} (opens : Opens input (flat entries)) {entries' : List (Item × Item)}
    (whole : MapInput input entries') : entries = entries' := by
  generalize start : input = all at opens
  generalize items : flat entries = flattened at opens
  cases opens with
  | @map bytes tail _ box =>
    subst items
    rcases whole with spelled | ⟨others, spelled⟩
    · exact box_unique (.inr rfl) box spelled (start.symm.trans (List.append_nil input).symm)
    · obtain ⟨first, _, head, upper⟩ := box_first (.inr rfl) box
      obtain ⟨first', _, head', upper'⟩ := array_first spelled
      rw [head, head', List.cons_append] at start
      rw [List.head_eq_of_cons_eq start, upper] at upper'
      cases upper'
  | @array major head bytes after _ container outer box =>
    subst items
    rcases whole with spelled | ⟨others, spelled⟩
    · obtain ⟨first, _, begin, upper⟩ := arrayHead_first outer
      obtain ⟨first', _, head', upper'⟩ := map_first spelled
      rw [begin, head', List.cons_append, List.cons_append] at start
      rw [List.head_eq_of_cons_eq start, upper] at upper'
      cases upper'
    · rw [List.append_assoc] at start
      obtain ⟨inner, rest, first, same⟩ := arrayHead_body outer spelled start.symm
      exact box_unique container box first same

end Unique

structure Format.Matches (format : Format Obj) (entries : List (Item × Item)) (obj : Obj) : Prop where
  id : (.int 0, .int format.msgId) ∈ entries
  idType : ∀ value, (.int 0, value) ∈ entries → itemType value = .integer
  types : ∀ field ∈ format.fields, ∀ value, (.int field.tag, value) ∈ entries → itemType value = field.type.cborType
  values : ∀ field ∈ format.fields, ∀ value, field.get obj = some value ↔ (.int field.tag, value) ∈ entries

/-- What is decoded without an error is a map that the object matches, whatever the stack holds. -/
def Format.Exact (format : Format Obj) (input : List UInt8) : Prop :=
  ∀ garbage obj, format.decode garbage input format.init = some (.noError, obj) →
    ∃ entries, MapInput input entries ∧ format.Matches entries obj

/-- Entries that the decoder does not get wrong: the id is among them, recognised tags have values of
    the domain of their field and no two of them, and where the last value to land in a field has
    another key (one that is cut to the tag), it is what the tag has too. -/
structure Format.Clean (format : Format Obj) (entries : List (Item × Item)) : Prop where
  id : (.int 0, .int format.msgId) ∈ entries
  idType : ∀ value, (.int 0, value) ∈ entries → itemType value = .integer
  admits : ∀ field ∈ format.fields, ∀ value, (.int field.tag, value) ∈ entries → field.type.admits value
  single : ∀ field ∈ format.fields, ∀ value other, (.int field.tag, value) ∈ entries →
    (.int field.tag, other) ∈ entries → value = other
  strays : ∀ field ∈ format.fields, ∀ before entry after, entries = before ++ entry :: after →
    format.target entry = some field → (∀ later ∈ after, format.target later ≠ some field) →
    entry.1 ≠ .int field.tag → ∀ value, field.type.store entry.2 = some value ↔ (.int field.tag, value) ∈ entries

def Format.CleanInput (format : Format Obj) (input : List UInt8) : Prop :=
  (∀ it, cborParserInit input = (.noError, it) → it.isContainer = true) ∧
  ∀ entries, Opens input (flat entries) → (∀ entry ∈ entries, format.takes entry = true) →
    MapInput input entries ∧ format.Clean entries

theorem opens_scalars {input : List UInt8} {entries : List (Item × Item)} (opens : Opens input (flat entries)) :
    ∀ entry ∈ entries, ∃ bytes, Scalar bytes entry.2 := by
  have members : ∀ {body : List UInt8} {items : List Item}, Scalars body items →
      ∀ item ∈ items, ∃ bytes, Scalar bytes item := by
    intro body items scalars
    induction scalars with
    | nil => exact fun item inside => by cases inside
    | cons first rest ih =>
      intro item inside
      rcases List.mem_cons.mp inside with rfl | inside
      · exact ⟨_, first⟩
      · exact ih item inside
  have boxed : ∀ {major : Nat} {bytes : List UInt8}, Box major bytes (flat entries) →
      ∀ item ∈ flat entries, ∃ bytes, Scalar bytes item := by
    intro major bytes box
    cases box with
    | counted header inner sized few => exact members inner
    | opened inner => exact members inner
  intro entry inside
  have value : entry.2 ∈ flat entries := List.mem_flatMap.mpr ⟨entry, inside, by simp⟩
  cases opens with
  | map box => exact boxed box _ value
  | array container outer box => exact boxed box _ value

theorem mapInput_container {input : List UInt8} {entries : List (Item × Item)} (whole : MapInput input entries)
    {it : CborValue} (init : cborParserInit input = (.noError, it)) : it.isContainer = true := by
  have counted : ∀ {major n : Nat} {after : List UInt8}, (major = 4 ∨ major = 5) →
      readHead input = some (major, n, after) → it.isContainer = true := by
    intro major n after container read
    obtain ⟨other, done, shape⟩ := @preparseValue_counted ⟨input, 1, 0, .invalid, false, false, false⟩ _ _ _ read
      (by omega)
    rw [cborParserInit, done] at init
    cases init
    rcases container with rfl | rfl
    · simp [CborValue.isContainer, shape.type, CborValue.kind]
    · simp [CborValue.isContainer, shape.type, CborValue.kind]
  have opened : ∀ {major : Nat} {tail : List UInt8}, (major = 4 ∨ major = 5) → input = initial major 31 :: tail →
      it.isContainer = true := by
    intro major tail container start
    rw [cborParserInit, preparseValue_unknown (by omega) (by omega) start] at init
    cases init
    rcases container with rfl | rfl <;> rfl
  rcases whole with spelled | ⟨others, spelled⟩
  · cases spelled with
    | map header inner => exact counted (.inr rfl) (readHead_head (by decide) header _)
    | openMap inner => exact opened (.inr rfl) rfl
  · cases spelled with
    | array header inner => exact counted (.inl rfl) (readHead_head (by decide) header _)
    | openArray inner => exact opened (.inl rfl) rfl

theorem scalar_root_accepted (format : Format Obj) {input : List UInt8} {it : CborValue}
    (init : cborParserInit input = (.noError, it)) (scalar : it.isContainer = false) (obj : Obj) :
    format.decode ⟨[], 0, 0, .invalid, false, false, false⟩ input obj = some (.noError, obj) := by
  have types : it.type ≠ .array ∧ it.type ≠ .map := by simpa [CborValue.isContainer] using scalar
  rw [Format.decode, init]
  simp only [ne_eq, not_true_eq_false, if_false, openContent, types.1, types.2, Option.bind_some]
  rfl

section ExactIff

variable {format : Format Obj} (lawful : format.Lawful)
include lawful

theorem admitted_target {field : Field Obj} (member : field ∈ format.fields) {value : Item}
    (admits : field.type.admits value) : format.target (.int field.tag, value) = some field := by
  obtain ⟨positive, range⟩ := lawful.tag_range field member
  have other : isIdCase (field.tag : Int) value = false := by
    have nonzero : field.tag ≠ 0 := by omega
    simp [isIdCase, nonzero]
  simp only [Format.target, tag_bmod (by omega : field.tag < 256), other, Bool.false_eq_true, if_false]
  exact caseOf_tag lawful member (admits_shaped admits)

theorem clean_matches {entries : List (Item × Item)} (scalars : ∀ entry ∈ entries, ∃ bytes, Scalar bytes entry.2)
    (clean : format.Clean entries) : format.Matches entries (entries.foldl format.stored format.init) := by
  refine ⟨clean.id, clean.idType, ?_, ?_⟩
  · intro field member value inside
    exact (shaped_type (admits_shaped (clean.admits field member value inside))).symm
  · intro field member value
    rcases last_split (fun entry => format.target entry = some field) entries with
      none | ⟨before, entry, after, split, lands, last⟩
    · rw [foldl_other lawful member none, lawful.get_init field member]
      constructor
      · intro held
        cases held
      · intro inside
        exact absurd (admitted_target lawful member (clean.admits field member value inside)) (none _ inside)
    · have inside : entry ∈ entries := by simp [split]
      obtain ⟨bytes, scalar⟩ := scalars entry inside
      have held : field.get (entries.foldl format.stored format.init) = field.type.store entry.2 := by
        rw [split]
        exact foldl_last lawful member scalar lands last _
      rw [held]
      by_cases key : entry.1 = .int field.tag
      · have own : (.int field.tag, entry.2) ∈ entries := key ▸ inside
        rw [(admits_store (clean.admits field member entry.2 own)).1]
        constructor
        · intro equal
          exact Option.some.inj equal ▸ own
        · intro twin
          rw [clean.single field member _ _ own twin]
      · exact clean.strays field member before entry after split lands last key value

theorem matches_clean {entries : List (Item × Item)} (scalars : ∀ entry ∈ entries, ∃ bytes, Scalar bytes entry.2)
    (matched : format.Matches entries (entries.foldl format.stored format.init)) : format.Clean entries := by
  refine ⟨matched.id, matched.idType, ?_, ?_, ?_⟩
  · intro field member value inside
    exact foldl_admits lawful member scalars ((matched.values field member value).mpr inside)
  · intro field member value other first second
    have one := (matched.values field member value).mpr first
    rw [(matched.values field member other).mpr second] at one
    exact (Option.some.inj one).symm
  · intro field member before entry after split lands last _ value
    obtain ⟨bytes, scalar⟩ := scalars entry (by simp [split])
    have held : field.get (entries.foldl format.stored format.init) = field.type.store entry.2 := by
      rw [split]
      exact foldl_last lawful member scalar lands last _
    rw [← held]
    exact matched.values field member value

theorem exact_iff (returns : format.breaksAtEnd = false) (input : List UInt8) :
    format.Exact input ↔ format.CleanInput input := by
  constructor
  · intro exact
    constructor
    · intro it init
      by_contra scalar
      obtain ⟨entries, whole, _⟩ := exact _ _
        (scalar_root_accepted format init (Bool.eq_false_iff.mpr scalar) format.init)
      exact scalar (mapInput_container whole init)
    · intro entries opens taken
      have ran := run_takes format entries format.init
      rw [if_pos taken] at ran
      obtain ⟨entries', whole, matched⟩ := exact ⟨[], 0, 0, .invalid, false, false, false⟩ _
        (decode_complete format opens ran _)
      obtain rfl := opens_unique opens whole
      exact ⟨whole, matches_clean lawful (opens_scalars opens) matched⟩
  · intro clean garbage obj done
    obtain ⟨container, entered⟩ := clean
    have fine : (cborParserInit input).1 = .noError := by
      by_contra failed
      rw [Format.decode] at done
      simp only [ne_eq, failed, not_false_eq_true, if_true, Option.some.injEq, Prod.mk.injEq] at done
      exact failed (IgSerializerError.cbor.inj done.1)
    have init : cborParserInit input = (.noError, (cborParserInit input).2) := Prod.ext fine rfl
    obtain ⟨entries, opens, ran⟩ := decode_sound format returns init (container _ init) done
    rw [run_takes] at ran
    split at ran
    · rename_i taken
      cases ran
      obtain ⟨whole, clean⟩ := entered entries opens taken
      exact ⟨entries, whole, clean_matches lawful (opens_scalars opens) clean⟩
    · cases ran

end ExactIff

/-- The four decoders are exact on just the clean inputs. -/
theorem decoders_exact (input : List UInt8) :
    (CreatePinRequest.format.Exact input ↔ CreatePinRequest.format.CleanInput input) ∧
    (GuestToken.format.Exact input ↔ GuestToken.format.CleanInput input) ∧
    (LogEntry.format.Exact input ↔ LogEntry.format.CleanInput input) ∧
    (PairingStep3.format.Exact input ↔ PairingStep3.format.CleanInput input) := by
  refine ⟨?_, ?_, ?_, ?_⟩
  · exact exact_iff CreatePinRequest.format_lawful rfl input
  · exact exact_iff GuestToken.format_lawful rfl input
  · exact exact_iff LogEntry.format_lawful rfl input
  · exact exact_iff PairingStep3.format_lawful rfl input

/-- The map 0: 43, 11: 7. The number under the tag of the password becomes the start date. -/
theorem number_for_password :
    (∀ garbage, CreatePinRequest.format.decode garbage [0xa2, 0, 24, 43, 11, 7] CreatePinRequest.format.init =
      some (.noError, { CreatePinRequest.format.init with startDate := some 7 })) ∧
    ¬CreatePinRequest.format.Exact [0xa2, 0, 24, 43, 11, 7] := by
  have zero : Scalar [0] (.int (0 : Nat)) := .natural (.direct (by decide))
  have id : Scalar [24, 43] (.int (43 : Nat)) := .natural (.wide 0 (by decide) (by decide))
  have tag : Scalar [11] (.int (11 : Nat)) := .natural (.direct (by decide))
  have seven : Scalar [7] (.int (7 : Nat)) := .natural (.direct (by decide))
  have header : Head 5 2 [0xa2] := .direct (by decide)
  have box : Box 5 [0xa2, 0, 24, 43, 11, 7] (flat [(.int 0, .int 43), (.int 11, .int 7)]) :=
    .counted header (.cons zero (.cons id (.cons tag (.cons seven .nil)))) rfl (by decide)
  have opens : Opens ([0xa2, 0, 24, 43, 11, 7] ++ []) (flat [(.int 0, .int 43), (.int 11, .int 7)]) := .map box
  constructor
  · intro garbage
    exact decode_complete CreatePinRequest.format opens rfl garbage
  · rw [exact_iff CreatePinRequest.format_lawful rfl]
    rintro ⟨_, entered⟩
    obtain ⟨_, clean⟩ := entered _ opens (by decide)
    obtain ⟨content, text, _⟩ := clean.admits _ (List.mem_cons_self) (.int 7) (by simp [bytesField])
    cases text

end Bridge
