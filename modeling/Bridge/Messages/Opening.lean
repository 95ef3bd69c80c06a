import Bridge.Messages.Reading

namespace Bridge

open ByteCounter Cbor

variable {Obj : Type}

def Readable (input : List UInt8) : Prop := (cborParserInit input).1 = .noError

/-- The head of an array and what comes after its first item: nothing more of the array, or the next
    item. -/
inductive ArrayHead : List UInt8 → List UInt8 → Prop
  | only {head after : List UInt8} (header : Head 4 1 head) : ArrayHead head after
  | several {count : Nat} {head after : List UInt8} (header : Head 4 count head) (many : 1 < count)
      (few : count < uint32Max) (readable : Readable after) : ArrayHead head after
  | last {after : List UInt8} : ArrayHead [initial 4 31] (breakByte :: after)
  | more {after : List UInt8} (readable : Readable after) : ArrayHead [initial 4 31] after

/-- The input is, or is an array that starts with, a container of these scalars. -/
inductive Opens : List UInt8 → List Item → Prop
  | map {bytes tail : List UInt8} {items : List Item} (box : Box 5 bytes items) : Opens (bytes ++ tail) items
  | array {major : Nat} {head bytes after : List UInt8} {items : List Item} (container : major = 4 ∨ major = 5)
      (outer : ArrayHead head after) (box : Box major bytes items) : Opens (head ++ bytes ++ after) items

theorem preparseSimple_error_congr (it other : CborValue) (descriptor next : Nat) :
    (preparseSimple it descriptor next).1 = (preparseSimple other descriptor next).1 := by
  unfold preparseSimple
  repeat' split
  all_goals rfl

theorem preparseValue_error_congr {it other : CborValue} (rest : it.rest = other.rest) :
    (preparseValue it).1 = (preparseValue other).1 := by
  rcases start : it.rest with _ | ⟨first, tail⟩
  · simp only [preparseValue, ← rest, start]
  · simp only [preparseValue, ← rest, start]
    repeat' split
    all_goals first | rfl | exact preparseSimple_error_congr _ _ _ _

theorem readable_iff {it : CborValue} : Readable it.rest ↔ ∃ it', preparseValue it = (.noError, it') := by
  have same : (cborParserInit it.rest).1 = (preparseValue it).1 := preparseValue_error_congr rfl
  rw [Readable, same]
  constructor
  · intro fine
    exact ⟨_, Prod.ext fine rfl⟩
  · intro done
    obtain ⟨it', done⟩ := done
    rw [done]

section Arrays

variable {it : CborValue} {head bytes after : List UInt8} {items : List Item} {major : Nat}

theorem next_readable {first : CborValue} (plain : first.type ≠ .tag) (more : first.remaining ≠ 0) :
    (∃ next, preparseNextValue { first with rest := after } = (.noError, next)) ↔
      first.remaining = 1 ∨ Readable after ∨ (first.remaining = uint32Max ∧ after.head? = some breakByte) := by
  have preparse : ∀ remaining, (∃ next, preparseValue { first with rest := after, remaining } = (.noError, next)) ↔
      Readable after := fun remaining => (@readable_iff { first with rest := after, remaining }).symm
  by_cases unbounded : first.remaining = uint32Max
  · have several : ¬first.remaining = 1 := by
      rw [unbounded]
      decide
    rw [preparseNextValue, if_neg (by simpa using unbounded)]
    by_cases last : after.head? = some breakByte
    · rw [if_pos last]
      simp [unbounded, last]
    · rw [if_neg last, preparse]
      simp [several, last]
  · rw [preparseNextValue, if_pos unbounded, if_pos plain]
    by_cases single : first.remaining = 1
    · rw [if_pos (by simp [single])]
      simp [single]
    · rw [if_neg (by show first.remaining - 1 ≠ 0; omega), preparse]
      simp [single, unbounded]

theorem enter_array (container : major = 4 ∨ major = 5) (outer : ArrayHead head after) (box : Box major bytes items)
    (prepared : Prepared it) (start : it.rest = head ++ (bytes ++ after)) : it.type = .array ∧
      ∃ first next, enterContainer it = some (.noError, first) ∧ Prepared first ∧ first.rest = bytes ++ after ∧
        first.remaining ≠ 0 ∧ preparseNextValue { first with rest := after } = (.noError, next) := by
  have inside : ∀ remaining, ∃ first, preparseValue { it with rest := bytes ++ after, remaining } = (.noError, first) :=
    fun remaining => preparseValue_box container box rfl
  have behind : ∀ {first : CborValue}, Prepared first → first.rest = bytes ++ after → first.remaining ≠ 0 →
      (first.remaining = 1 ∨ Readable after ∨ (first.remaining = uint32Max ∧ after.head? = some breakByte)) →
      ∃ next, preparseNextValue { first with rest := after } = (.noError, next) := by
    intro first ready rest more enough
    refine (next_readable ?_ more).mpr enough
    rw [(enterContainer_box container box ready rest).1]
    rcases container with rfl | rfl <;> decide
  have counted : ∀ {count : Nat}, Head 4 count head → 0 < count → count < uint32Max →
      (count = 1 ∨ Readable after) → it.type = .array ∧
      ∃ first next, enterContainer it = some (.noError, first) ∧ Prepared first ∧ first.rest = bytes ++ after ∧
        first.remaining ≠ 0 ∧ preparseNextValue { first with rest := after } = (.noError, next) := by
    intro count header positive few enough
    have read := readHead_head (by decide) header (bytes ++ after)
    rw [← start] at read
    have shape := prepared_counted prepared read (by decide)
    have type : it.type = .array := shape.type
    have entered := enterContainer_counted (by simp [CborValue.isContainer, type]) shape.known
      (extractNumber_readHead read) few (by simp [type])
    rw [if_pos (by omega), if_neg (by simp [type])] at entered
    obtain ⟨first, done⟩ := inside count
    obtain ⟨ready, rest, remaining⟩ := preparseValue_prepared done
    simp only at rest remaining
    obtain ⟨next, moved⟩ := behind ready rest (by omega) (by rw [remaining]; tauto)
    exact ⟨type, first, next, by rw [entered, done], ready, rest, by omega, moved⟩
  have opened : head = [initial 4 31] → (Readable after ∨ after.head? = some breakByte) → it.type = .array ∧
      ∃ first next, enterContainer it = some (.noError, first) ∧ Prepared first ∧ first.rest = bytes ++ after ∧
        first.remaining ≠ 0 ∧ preparseNextValue { first with rest := after } = (.noError, next) := by
    intro same enough
    subst same
    have shape := congrArg Prod.snd ((preparseValue_unknown (by decide) (by decide) start).symm.trans prepared)
    have type : it.type = .array := congrArg CborValue.type shape.symm
    have unknown : it.unknownLength = true := congrArg CborValue.unknownLength shape.symm
    obtain ⟨first, done⟩ := inside uint32Max
    obtain ⟨ready, rest, remaining⟩ := preparseValue_prepared done
    simp only at rest remaining
    have tail : it.rest.tail = bytes ++ after := by
      rw [start]
      rfl
    rw [← tail] at done
    have entered := enterContainer_open (by simp [CborValue.isContainer, type]) unknown done
    rw [if_pos (by decide)] at entered
    have more : first.remaining ≠ 0 := by
      rw [remaining]
      decide
    obtain ⟨next, moved⟩ := behind ready rest more (by rw [remaining]; tauto)
    exact ⟨type, first, next, entered, ready, rest, more, moved⟩
  cases outer with
  | only header => exact counted header (by decide) (by decide) (.inl rfl)
  | several header many few readable => exact counted header (by omega) few (.inr readable)
  | last => exact opened rfl (.inr rfl)
  | more readable => exact opened rfl (.inl readable)

theorem arrayHead_of_next {first next : CborValue} (entered : Entered 4 it first) (plain : first.type ≠ .tag)
    (valid : first.type ≠ .invalid) (moved : preparseNextValue { first with rest := after } = (.noError, next)) :
    ∃ head, it.rest = head ++ first.rest ∧ ArrayHead head after := by
  have ready := entered_ready entered
  unfold Ready at ready
  have more : first.remaining ≠ 0 := by
    intro ended
    rw [if_pos ended] at ready
    exact valid ready
  have enough := (next_readable plain more).mp ⟨next, moved⟩
  cases entered with
  | @counted n head header start count few _ =>
    simp only [Nat.reduceEqDiff, if_false] at count
    refine ⟨head, start, ?_⟩
    rcases enough with single | readable | ⟨unbounded, _⟩
    · rw [count] at single
      exact .only (single ▸ header)
    · by_cases single : n = 1
      · exact .only (single ▸ header)
      · exact .several header (by omega) (by omega) readable
    · omega
  | opened start unbounded _ =>
    refine ⟨[initial 4 31], start, ?_⟩
    rcases enough with single | readable | ⟨_, last⟩
    · rw [unbounded] at single
      cases single
    · exact .more readable
    · rw [← List.cons_head?_tail last]
      exact .last
  | empty _ ended _ => exact absurd ended more

end Arrays

theorem openContent_opens {input : List UInt8} {items : List Item} (opens : Opens input items) :
    ∃ it content after, cborParserInit input = (.noError, it) ∧
      (∀ garbage, openContent garbage it = some (.noError, content)) ∧ Stream content items after := by
  cases opens with
  | @map bytes tail _ box =>
    obtain ⟨it, init⟩ : ∃ it, cborParserInit (bytes ++ tail) = (.noError, it) := preparseValue_box (.inr rfl) box rfl
    obtain ⟨prepared, rest, _⟩ := preparseValue_prepared init
    obtain ⟨type, content, entered, stream⟩ := enterContainer_box (.inr rfl) box prepared rest
    have map : it.type = .map := type
    refine ⟨it, content, tail, init, fun garbage => ?_, stream⟩
    rw [openContent, if_pos map, entered]
  | @array major head bytes after _ container outer box =>
    have start : ∃ it, cborParserInit (head ++ bytes ++ after) = (.noError, it) := by
      cases outer with
      | only header | several header _ _ _ =>
        obtain ⟨it, init, _⟩ := @preparseValue_counted ⟨head ++ bytes ++ after, 1, 0, .invalid, false, false, false⟩
          _ _ _ (by rw [List.append_assoc]; exact readHead_head (by decide) header (bytes ++ after)) (by decide)
        exact ⟨it, init⟩
      | last | more _ => exact ⟨_, preparseValue_unknown (by decide) (by decide) rfl⟩
    obtain ⟨it, init⟩ := start
    obtain ⟨prepared, rest, _⟩ := preparseValue_prepared init
    simp only [List.append_assoc] at rest
    obtain ⟨type, first, next, entered, ready, inside, more, moved⟩ := enter_array container outer box prepared rest
    obtain ⟨_, content, within, stream⟩ := enterContainer_box container box ready inside
    have stepped := advance_box container box ready inside more
    rw [moved] at stepped
    refine ⟨it, content, after, init, fun garbage => ?_, stream⟩
    rw [openContent, if_neg (by rw [type]; decide), if_pos type, entered, Option.bind_some]
    simp only [ne_eq, not_true_eq_false, if_false, within, Option.bind_some, stepped, Option.map_some]

theorem opens_openContent {input : List UInt8} {it content garbage : CborValue}
    (init : cborParserInit input = (.noError, it)) (container : it.isContainer = true)
    (opened : openContent garbage it = some (.noError, content)) :
    Ready content ∧ ∀ items after, Stream content items after → Opens input items := by
  obtain ⟨prepared, rest, _⟩ := preparseValue_prepared init
  simp only at rest
  rw [openContent] at opened
  split at opened
  · rename_i type
    obtain ⟨major, which, kind, entered⟩ := enterContainer_entered prepared container opened
    refine ⟨entered_ready entered, fun items after stream => ?_⟩
    obtain ⟨bytes, box, start⟩ := box_of_stream entered stream
    rw [rest] at start
    rw [start]
    rcases which with rfl | rfl
    · rw [type] at kind
      cases kind
    · exact .map box
  · rename_i plain
    have array : it.type = .array := by
      have types : it.type = .array ∨ it.type = .map := by simpa [CborValue.isContainer] using container
      exact types.resolve_right plain
    rw [if_pos array] at opened
    obtain ⟨⟨err, first⟩, within, opened⟩ := Option.bind_eq_some_iff.mp opened
    simp only at opened
    split at opened
    · cases opened
      rename_i failed
      exact absurd rfl failed
    · rename_i fine
      rw [not_not.mp fine] at within
      obtain ⟨⟨err, second⟩, inner, opened⟩ := Option.bind_eq_some_iff.mp opened
      simp only at opened
      split at opened
      · cases opened
        rename_i failed
        exact absurd rfl failed
      · rename_i fine
        rw [not_not.mp fine] at inner
        obtain ⟨⟨err, next⟩, stepped, same⟩ := Option.map_eq_some_iff.mp opened
        cases same
        obtain ⟨major, which, kind, outer⟩ := enterContainer_entered prepared container within
        obtain rfl : major = 4 := by
          rcases which with rfl | rfl
          · rfl
          · rw [array] at kind
            cases kind
        have holds : first.isContainer = true := by
          by_contra other
          rw [enterContainer, if_pos (by simpa using other)] at inner
          cases inner
        have types : first.type = .array ∨ first.type = .map := by simpa [CborValue.isContainer] using holds
        have valid : first.type ≠ .invalid := by rcases types with type | type <;> simp [type]
        have untagged : first.type ≠ .tag := by rcases types with type | type <;> simp [type]
        have ready := entered_ready outer
        unfold Ready at ready
        split at ready
        · exact absurd ready valid
        · rename_i more
          obtain ⟨major, which, _, entered⟩ := enterContainer_entered ready holds inner
          refine ⟨entered_ready entered, fun items after stream => ?_⟩
          obtain ⟨bytes, box, start⟩ := box_of_stream entered stream
          rw [advance_box which box ready start more, Option.some.injEq] at stepped
          obtain ⟨head, whole, arrayHead⟩ := arrayHead_of_next outer untagged valid stepped
          rw [rest, start, ← List.append_assoc] at whole
          rw [whole]
          exact .array which arrayHead box

theorem preparseNextValue_shrinks (it : CborValue) : (preparseNextValue it).2.rest.length ≤ it.rest.length := by
  have same : ∀ other : CborValue, (preparseValue other).2.rest.length ≤ other.rest.length :=
    fun other => Nat.le_of_eq (congrArg List.length (preparseValue_frame other).1)
  unfold preparseNextValue
  repeat' split
  · exact Nat.le_refl _
  · exact same _
  · exact same _
  · rw [List.length_tail]
    exact Nat.sub_le _ _
  · exact same _

theorem stream_length {it : CborValue} {items : List Item} {after : List UInt8} (stream : Stream it items after) :
    items.length ≤ it.rest.length := by
  induction stream with
  | done _ _ => exact Nat.zero_le _
  | @next it it' bytes tail _ _ items _ _ start scalar moved _ ih =>
    obtain ⟨byte, others, rfl, _⟩ := spells_first (scalar_spells scalar)
    have shrinks := preparseNextValue_shrinks { it with rest := tail }
    rw [moved] at shrinks
    simp only [start, List.length_cons, List.length_append] at shrinks ⊢
    omega

/-- What opens as entries that are all taken is decoded, to the object the entries make. -/
theorem decode_complete (format : Format Obj) {input : List UInt8} {entries : List (Item × Item)} {obj obj' : Obj}
    (opens : Opens input (flat entries)) (taken : format.run entries obj = some obj') (garbage : CborValue) :
    format.decode garbage input obj = some (.noError, obj') := by
  obtain ⟨it, content, after, init, opened, stream⟩ := openContent_opens opens
  have bound := stream_length stream
  rw [flat_length] at bound
  rw [Format.decode, init]
  simp only [ne_eq, not_true_eq_false, if_false, opened, Option.bind_some]
  exact loop_stream format stream taken (by omega)

/-- What is decoded from a map or an array opens as entries that are all taken. -/
theorem decode_sound (format : Format Obj) (returns : format.breaksAtEnd = false) {input : List UInt8}
    {garbage it : CborValue} {obj obj' : Obj} (init : cborParserInit input = (.noError, it))
    (container : it.isContainer = true) (done : format.decode garbage input obj = some (.noError, obj')) :
    ∃ entries, Opens input (flat entries) ∧ format.run entries obj = some obj' := by
  rw [Format.decode, init] at done
  simp only [ne_eq, not_true_eq_false, if_false] at done
  obtain ⟨⟨err, content⟩, opened, looped⟩ := Option.bind_eq_some_iff.mp done
  simp only at looped
  split at looped
  · rename_i failed
    simp only [Option.some.injEq, Prod.mk.injEq] at looped
    exact absurd (IgSerializerError.cbor.inj looped.1) failed
  · rename_i fine
    rw [not_not.mp fine] at opened
    obtain ⟨ready, opens⟩ := opens_openContent init container opened
    obtain ⟨entries, after, stream, taken⟩ := loop_sound format returns ready looped
    exact ⟨entries, opens _ _ stream, taken⟩

end Bridge
