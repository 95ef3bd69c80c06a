import Bridge.Cbor.Advance

namespace Bridge

open ByteCounter Cbor

/-- Before the cursor lie these scalars; then its container ends, and `after` is left. -/
inductive Stream : CborValue → List Item → List UInt8 → Prop
  | done {it : CborValue} (ended : it.remaining = 0) (closed : it.type = .invalid) : Stream it [] it.rest
  | next {it it' : CborValue} {bytes tail after : List UInt8} {item : Item} {items : List Item}
      (more : it.remaining ≠ 0) (prepared : Prepared it) (start : it.rest = bytes ++ tail)
      (scalar : Scalar bytes item) (moved : preparseNextValue { it with rest := tail } = (.noError, it'))
      (rest : Stream it' items after) : Stream it (item :: items) after

/-- A container of scalars that `cbor_value_enter_container` enters. -/
inductive Box (major : Nat) : List UInt8 → List Item → Prop
  | counted {count : Nat} {head body : List UInt8} {items : List Item} (header : Head major count head)
      (inner : Scalars body items) (sized : items.length = if major = 5 then count * 2 else count)
      (few : items.length < uint32Max) : Box major (head ++ body) items
  | opened {body : List UInt8} {items : List Item} (inner : Scalars body items) :
      Box major (initial major 31 :: body ++ [0xff]) items

theorem stream_facing {body tail : List UInt8} {items : List Item} (inner : Scalars body items) {it : CborValue}
    (facing : Facing it body items tail) : Stream it items tail := by
  induction inner generalizing it with
  | nil =>
    cases facing with
    | ended ended closed => exact .done ended closed
    | counted _ more _ _ _ => exact absurd rfl more
    | opened _ more _ _ => exact absurd rfl more
  | cons first rest ih =>
    obtain ⟨prepared, more, after, start, onward⟩ := facing.next (scalars_spell rest)
    have plain := prepared_scalar_type prepared start first
    obtain ⟨it', moved, ahead⟩ := onward { it with rest := after } rfl rfl plain
    exact .next more prepared start first moved (ih ahead)

theorem preparseNextValue_counted {it it' : CborValue} (done : preparseNextValue it = (.noError, it'))
    (plain : it.type ≠ .tag) (few : it.remaining < uint32Max) :
    it'.remaining = it.remaining - 1 ∧ it'.rest = it.rest := by
  rw [preparseNextValue, if_pos (by omega), if_pos plain] at done
  split at done
  · rename_i last
    cases done
    exact ⟨last.symm, rfl⟩
  · obtain ⟨_, rest, remaining⟩ := preparseValue_prepared done
    exact ⟨remaining, rest⟩

theorem preparseNextValue_opened {it it' : CborValue} (done : preparseNextValue it = (.noError, it'))
    (unbounded : it.remaining = uint32Max) :
    (it'.remaining = 0 ∧ it.rest = breakByte :: it'.rest) ∨
      (it'.remaining = uint32Max ∧ it'.rest = it.rest) := by
  rw [preparseNextValue, if_neg (by simp [unbounded])] at done
  split at done
  · rename_i last
    cases done
    exact .inl ⟨rfl, (List.cons_head?_tail last).symm⟩
  · obtain ⟨_, rest, remaining⟩ := preparseValue_prepared done
    exact .inr ⟨remaining.trans unbounded, rest⟩

theorem stream_ended {it : CborValue} {items : List Item} {tail : List UInt8} (stream : Stream it items tail)
    (ended : it.remaining = 0) : items = [] ∧ tail = it.rest := by
  cases stream with
  | done _ _ => exact ⟨rfl, rfl⟩
  | next more _ _ _ _ _ => exact absurd ended more

theorem scalars_of_counted {it : CborValue} {items : List Item} {tail : List UInt8} (stream : Stream it items tail)
    (few : it.remaining < uint32Max) :
    items.length = it.remaining ∧ ∃ body, it.rest = body ++ tail ∧ Scalars body items := by
  induction stream with
  | done ended closed => exact ⟨ended.symm, [], rfl, .nil⟩
  | next more prepared start scalar moved rest ih =>
    have plain := prepared_scalar_type prepared start scalar
    obtain ⟨remaining, onward⟩ := preparseNextValue_counted moved plain few
    simp only at remaining onward
    obtain ⟨length, body, split, inner⟩ := ih (by omega)
    refine ⟨by rw [List.length_cons, length]; omega, _, ?_, .cons scalar inner⟩
    rw [start, List.append_assoc, ← split, onward]

theorem scalars_of_opened {it : CborValue} {items : List Item} {tail : List UInt8} (stream : Stream it items tail)
    (unbounded : it.remaining = uint32Max) : ∃ body, it.rest = body ++ breakByte :: tail ∧ Scalars body items := by
  induction stream with
  | done ended closed =>
    rw [ended] at unbounded
    cases unbounded
  | @next it it' bytes tail after item items more prepared start scalar moved rest ih =>
    rcases preparseNextValue_opened moved unbounded with ⟨ended, last⟩ | ⟨again, onward⟩
    · obtain ⟨rfl, rfl⟩ := stream_ended rest ended
      refine ⟨bytes, ?_, ?_⟩
      · rw [start]
        exact congrArg (bytes ++ ·) last
      · have one : Scalars (bytes ++ []) [item] := .cons scalar .nil
        rwa [List.append_nil] at one
    · obtain ⟨body, split, inner⟩ := ih again
      refine ⟨_, ?_, .cons scalar inner⟩
      rw [start, List.append_assoc, ← split, onward]

theorem break_of_preparse {it it' : CborValue} (broke : preparseValue it = (.unexpectedBreak, it')) :
    it.rest = breakByte :: it'.rest.tail := by
  have frame := preparseValue_frame it
  rw [broke] at frame
  rcases start : it.rest with _ | ⟨first, tail⟩
  · rw [preparseValue, start] at broke
    cases broke
  rw [frame.1, start, List.tail_cons]
  have range := first.toNat_lt
  simp only [preparseValue, start] at broke
  split at broke
  · split at broke
    · split at broke
      · cases broke
      · cases broke
    · rename_i last
      split at broke
      · cases broke
      · split at broke
        · rename_i simple
          rw [kind_simple (by omega)] at simple
          have whole : first.toNat = breakByte.toNat := by
            show first.toNat = 255
            omega
          rw [UInt8.toNat_inj.mp whole]
        · cases broke
  · split at broke
    · cases broke
    · split at broke
      · have errs := preparseSimple_error ⟨it.rest, it.remaining, first.toNat % 32,
          CborValue.kind (first.toNat / 32), false, false, false⟩ (first.toNat % 32) (number (tail.take 1))
        rw [start] at errs
        rw [broke] at errs
        exact absurd rfl errs
      · cases broke

section Containers

variable {it : CborValue} {bytes tail : List UInt8} {items : List Item} {major : Nat}

theorem enterContainer_box (container : major = 4 ∨ major = 5) (box : Box major bytes items)
    (prepared : Prepared it) (start : it.rest = bytes ++ tail) : it.type = CborValue.kind major ∧
      ∃ content, enterContainer it = some (.noError, content) ∧ Stream content items tail := by
  cases box with
  | counted header inner sized few =>
    rw [List.append_assoc] at start
    obtain ⟨type, content, entered, facing⟩ :=
      enter_counted container header (scalars_spell inner) sized few prepared start
    exact ⟨type, content, entered, stream_facing inner facing⟩
  | opened inner =>
    simp only [List.cons_append, List.append_assoc, List.nil_append] at start
    obtain ⟨type, content, entered, facing⟩ := enter_opened container (scalars_spell inner) prepared start
    exact ⟨type, content, entered, stream_facing inner facing⟩

theorem preparseValue_box (container : major = 4 ∨ major = 5) (box : Box major bytes items)
    (start : it.rest = bytes ++ tail) : ∃ it', preparseValue it = (.noError, it') := by
  cases box with
  | @counted _ _ body _ header inner sized few =>
    rw [List.append_assoc] at start
    have read := readHead_head (by omega) header (body ++ tail)
    rw [← start] at read
    obtain ⟨it', done, _⟩ := preparseValue_counted read (by omega)
    exact ⟨it', done⟩
  | opened inner => exact ⟨_, preparseValue_unknown (by omega) (by omega) start⟩

end Containers

/-- What `cbor_value_enter_container` has passed when it returns no error. -/
inductive Entered (major : Nat) (it content : CborValue) : Prop
  | counted {n : Nat} {head : List UInt8} (header : Head major n head) (start : it.rest = head ++ content.rest)
      (count : content.remaining = if major = 5 then n * 2 else n) (few : content.remaining < uint32Max)
      (ready : if n = 0 then content.type = .invalid else Prepared content)
  | opened (start : it.rest = initial major 31 :: content.rest) (unbounded : content.remaining = uint32Max)
      (ready : Prepared content)
  | empty (start : it.rest = initial major 31 :: breakByte :: content.rest) (ended : content.remaining = 0)
      (closed : content.type = .invalid)

theorem enterContainer_entered {it content : CborValue} (prepared : Prepared it) (container : it.isContainer = true)
    (entered : enterContainer it = some (.noError, content)) :
    ∃ major, (major = 4 ∨ major = 5) ∧ it.type = CborValue.kind major ∧ Entered major it content := by
  have types : it.type = .array ∨ it.type = .map := by simpa [CborValue.isContainer] using container
  have which : ∀ {major : Nat}, 2 ≤ major → major ≤ 5 → it.type = CborValue.kind major → major = 4 ∨ major = 5 := by
    intro major low high type
    rw [type] at types
    interval_cases major
    all_goals simp [CborValue.kind] at types ⊢
  rcases preparseValue_sound prepared (by rcases types with type | type <;> simp [type]) with
    ⟨major, n, after, read, plain⟩ | ⟨unknown, major, body, start, low, high, type⟩
  · have counted := prepared_counted prepared read plain
    obtain ⟨small, head, start, header⟩ := head_of_readHead read
    have type := counted.type
    have fixed : isFixedType it.type = false := by
      rcases types with type | type <;> simp [type, isFixedType]
    have kind : it.type = CborValue.kind major := by
      split at type
      · rw [type] at fixed
        cases fixed
      · exact type
    have bounds := kind_container.mp (kind ▸ fixed)
    have selected := which bounds.1 bounds.2 kind
    have map : it.type = .map ↔ major = 5 := by
      rw [kind]
      rcases selected with rfl | rfl
      · decide
      · decide
    have whole : uint32Max = 2 ^ 32 - 1 := rfl
    rw [enterContainer, if_neg (by simp [container]), if_neg (by simp [counted.known]),
      extractNumber_readHead read] at entered
    simp only [map] at entered
    refine ⟨major, selected, kind, ?_⟩
    split at entered
    · cases entered
    · split at entered
      · cases entered
      · rename_i short half
        have limit : (if major = 5 then n * 2 else n) < uint32Max := by
          split
          · omega
          · omega
        split at entered
        · rename_i some
          obtain ⟨ready, rest, remaining⟩ := preparseValue_prepared (Option.some.inj entered)
          simp only at rest remaining
          refine .counted header (by rw [rest]; exact start) remaining (by rw [remaining]; exact limit) ?_
          rwa [if_neg some]
        · rename_i zero
          have none : n = 0 := by simpa using zero
          subst none
          cases entered
          exact .counted header start (by simp) (by simp [uint32Max]) (by simp)
  · have entered' := fun (err : CborError) (content : CborValue) =>
      @enterContainer_open it content err container unknown
    rw [start, List.tail_cons] at entered'
    refine ⟨major, which low high type, type, ?_⟩
    cases done : preparseValue { it with remaining := uint32Max, rest := body } with
    | mk err recursed =>
      rw [entered' err recursed done] at entered
      split at entered
      · cases entered
        obtain ⟨ready, rest, remaining⟩ := preparseValue_prepared done
        exact .opened (by rw [start, rest]) remaining ready
      · rename_i broke
        rw [not_not.mp broke] at done
        have last : body = breakByte :: recursed.rest.tail := break_of_preparse done
        cases entered
        exact .empty (by rw [start, last]) rfl rfl

theorem box_of_stream {it content : CborValue} {items : List Item} {tail : List UInt8} {major : Nat}
    (entered : Entered major it content) (stream : Stream content items tail) :
    ∃ bytes, Box major bytes items ∧ it.rest = bytes ++ tail := by
  cases entered with
  | @counted n head header start count few _ =>
    obtain ⟨length, body, split, inner⟩ := scalars_of_counted stream few
    refine ⟨head ++ body, .counted header inner (length.trans count) (by rw [length]; exact few), ?_⟩
    rw [start, split, List.append_assoc]
  | opened start unbounded _ =>
    obtain ⟨body, split, inner⟩ := scalars_of_opened stream unbounded
    refine ⟨_, .opened inner, ?_⟩
    rw [start, split, List.cons_append, List.cons_append, List.append_assoc]
    rfl
  | empty start ended _ =>
    obtain ⟨rfl, rfl⟩ := stream_ended stream ended
    exact ⟨_, .opened .nil, start⟩

theorem advanceRecursive_scalar {it : CborValue} {bytes tail : List UInt8} {item : Item} (prepared : Prepared it)
    (start : it.rest = bytes ++ tail) (scalar : Scalar bytes item) (fuel nestingLevel : Nat) :
    advanceRecursive (fuel + 1) it nestingLevel = some (preparseNextValue { it with rest := tail }) := by
  cases scalar with
  | natural header =>
    obtain ⟨type, _, _, n, read⟩ := cursor_int prepared start (.natural header)
    exact advanceRecursive_number fuel nestingLevel (by rw [type]; rfl) read
  | negative header =>
    obtain ⟨type, _, _, n, read⟩ := cursor_int prepared start (.negative header)
    exact advanceRecursive_number fuel nestingLevel (by rw [type]; rfl) read
  | bytes header =>
    obtain ⟨type, _, chunks⟩ := cursor_bytes prepared start (.bytes header)
    exact advanceRecursive_string fuel nestingLevel (.inl type) chunks
  | boolean value =>
    obtain ⟨type, _, n, read⟩ := cursor_boolean prepared start (.boolean value)
    exact advanceRecursive_number fuel nestingLevel (by rw [type]; rfl) read

theorem advanceItems_stream {it : CborValue} {items : List Item} {tail : List UInt8} (stream : Stream it items tail)
    (nestingLevel : Nat) {fuel : Nat} (enough : items.length < fuel) :
    ∃ last, advanceItems fuel it nestingLevel = some (.noError, last) ∧ last.type = .invalid ∧ last.rest = tail := by
  induction stream generalizing fuel with
  | done ended closed =>
    obtain ⟨fuel, rfl⟩ : ∃ n, fuel = n + 1 := ⟨fuel - 1, by omega⟩
    exact ⟨_, by rw [advanceItems, if_pos (by simp [CborValue.atEnd, ended])], closed, rfl⟩
  | next more prepared start scalar moved rest ih =>
    rw [List.length_cons] at enough
    obtain ⟨fuel, rfl⟩ : ∃ n, fuel = n + 1 + 1 := ⟨fuel - 2, by omega⟩
    obtain ⟨last, done, closed, after⟩ := ih (by omega : _ < fuel + 1)
    refine ⟨last, ?_, closed, after⟩
    rw [advanceItems_step more (by rw [advanceRecursive_scalar prepared start scalar, moved])]
    exact done

theorem advance_box {it : CborValue} {bytes tail : List UInt8} {items : List Item} {major : Nat}
    (container : major = 4 ∨ major = 5) (box : Box major bytes items) (prepared : Prepared it)
    (start : it.rest = bytes ++ tail) (more : it.remaining ≠ 0) :
    advance it = some (preparseNextValue { it with rest := tail }) := by
  obtain ⟨type, content, entered, stream⟩ := enterContainer_box container box prepared start
  obtain ⟨isContainer, bare, varies, _⟩ := kind_isContainer container type
  have few : items.length ≤ bytes.length := by
    cases box with
    | counted _ inner _ _ =>
      have bound := spellsAll_length (scalars_spell inner)
      rw [List.length_append]
      omega
    | opened inner =>
      have bound := spellsAll_length (scalars_spell inner)
      simp only [List.length_cons, List.length_append]
      omega
  have length := congrArg List.length start
  rw [List.length_append] at length
  obtain ⟨last, walked, closed, rfl⟩ :=
    advanceItems_stream stream 1 (by omega : items.length < 2 * it.rest.length + 1)
  rw [advance, if_neg bare.2, if_neg more]
  exact leave_container isContainer varies (by decide) entered walked closed

end Bridge
