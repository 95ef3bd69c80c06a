import Bridge.Cbor.Stream
import Bridge.Messages.Format

namespace Bridge

open ByteCounter Cbor

variable {Obj : Type}

def itemType : Item → CborType
  | .int _ => .integer
  | .bytes _ => .byteString
  | .simple _ => .boolean
  | _ => .invalid

def FieldType.accepts : FieldType → Item → Bool
  | .uint _, .int n => 0 ≤ n
  | _, _ => true

def Format.caseOf (format : Format Obj) (tagId : Int) (value : Item) : Option (Field Obj) :=
  (format.casesFrom tagId).find? fun field => field.type.cborType == itemType value

theorem casesFrom_subset {format : Format Obj} {tagId : Int} {field : Field Obj}
    (inside : field ∈ format.casesFrom tagId) : field ∈ format.fields := by
  unfold Format.casesFrom at inside
  split at inside
  · exact inside
  · exact (List.dropWhile_sublist _).subset inside

def isIdCase (tagId : Int) (value : Item) : Bool := tagId == 0 && itemType value == .integer

def Format.step (format : Format Obj) (obj : Obj) : Item × Item → Option Obj
  | (.int key, value) =>
    if isIdCase (Int.bmod key (2 ^ 64)) value then
      if (itemInt value).map (Int.bmod · (2 ^ 64)) = some (format.acceptedId : Int) then some obj else none
    else (format.caseOf (Int.bmod key (2 ^ 64)) value).bind fun field =>
      if field.type.accepts value then some (field.set (field.type.store value) obj) else none
  | _ => none

def Format.run (format : Format Obj) : List (Item × Item) → Obj → Option Obj
  | [], obj => some obj
  | entry :: rest, obj => (format.step obj entry).bind fun obj => format.run rest obj

def Ready (it : CborValue) : Prop := if it.remaining = 0 then it.type = .invalid else Prepared it

theorem preparseNextValue_ready {it it' : CborValue} (done : preparseNextValue it = (.noError, it'))
    (more : it.remaining ≠ 0) : Ready it' := by
  unfold Ready
  unfold preparseNextValue at done
  split at done
  · split at done
    · split at done
      · cases done
        rfl
      · rename_i again
        obtain ⟨prepared, _, remaining⟩ := preparseValue_prepared done
        rw [if_neg (by rw [remaining]; exact again)]
        exact prepared
    · obtain ⟨prepared, _, remaining⟩ := preparseValue_prepared done
      rw [if_neg (by rw [remaining]; exact more)]
      exact prepared
  · split at done
    · cases done
      rfl
    · obtain ⟨prepared, _, remaining⟩ := preparseValue_prepared done
      rw [if_neg (by rw [remaining]; exact more)]
      exact prepared

theorem entered_ready {major : Nat} {it content : CborValue} (entered : Entered major it content) : Ready content := by
  unfold Ready
  cases entered with
  | @counted n head _ _ count _ ready =>
    by_cases none : n = 0
    · subst none
      rw [if_pos (by rw [count]; split <;> rfl)]
      simpa using ready
    · rw [if_neg (by rw [count]; split <;> omega)]
      simpa [none] using ready
  | opened _ unbounded ready =>
    rw [if_neg (by rw [unbounded]; decide)]
    exact ready
  | empty _ ended closed =>
    rw [if_pos ended]
    exact closed

theorem advanceFixed_scalar {it : CborValue} {n : Nat} {tail : List UInt8} (fixed : isFixedType it.type = true)
    (valid : it.type ≠ .invalid) (more : it.remaining ≠ 0) (read : extractNumber it.rest = .ok (n, tail)) :
    advanceFixed it = some (preparseNextValue { it with rest := tail }) := by
  rw [advanceFixed, if_neg (by simp [fixed, valid]), if_neg more, advanceInternal, read]

theorem advanceFixed_int {it : CborValue} {bytes tail : List UInt8} {value : Int} (prepared : Prepared it)
    (start : it.rest = bytes ++ tail) (scalar : Scalar bytes (.int value)) (more : it.remaining ≠ 0) :
    advanceFixed it = some (preparseNextValue { it with rest := tail }) := by
  obtain ⟨type, _, _, n, read⟩ := cursor_int prepared start scalar
  exact advanceFixed_scalar (by rw [type]; rfl) (by rw [type]; decide) more read

section Take

variable {content : CborValue} {bytes tail : List UInt8} {value : Item}

theorem cursor_type (prepared : Prepared content) (start : content.rest = bytes ++ tail) (scalar : Scalar bytes value) :
    content.type = itemType value := by
  cases scalar with
  | natural header => exact (cursor_int prepared start (.natural header)).1
  | negative header => exact (cursor_int prepared start (.negative header)).1
  | bytes header => exact (cursor_bytes prepared start (.bytes header)).1
  | boolean value => exact (cursor_boolean prepared start (.boolean value)).1

theorem store_uint (bits : Nat) {n : Int} (natural : 0 ≤ n) :
    FieldType.store (.uint bits) (.int n.toNat) = FieldType.store (.uint bits) (.int n) := by
  rw [Int.toNat_of_nonneg natural]

theorem store_int32 (n : Int) :
    FieldType.store .int32 (.int (Int.bmod n (2 ^ 64))) = FieldType.store .int32 (.int n) := by
  simp only [FieldType.store]
  rw [Int.bmod_bmod_of_dvd (by decide)]

theorem take_scalar {err : CborError} {next : CborValue} (prepared : Prepared content)
    (start : content.rest = bytes ++ tail) (scalar : Scalar bytes value) (more : content.remaining ≠ 0)
    (moved : preparseNextValue { content with rest := tail } = (err, next)) (field : Field Obj)
    (fits : field.type.cborType = itemType value) (obj : Obj) :
    field.take content obj =
      if field.type.accepts value then
        some (err, next,
          if err ≠ .noError ∧ itemType value = .byteString then obj else field.set (field.type.store value) obj)
      else none := by
  have integral : ∀ {n : Int}, Scalar bytes (.int n) → field.type.cborType = .integer →
      field.take content obj =
        if field.type.accepts (.int n) then some (err, next, field.set (field.type.store (.int n)) obj)
        else none := by
    intro n scalar fits
    obtain ⟨_, signed, unsigned, _⟩ := cursor_int prepared start scalar
    have advanced := advanceFixed_int prepared start scalar more
    rw [moved] at advanced
    cases type : field.type with
    | uint bits =>
      simp only [Field.take, type, unsigned]
      by_cases natural : 0 ≤ n
      · rw [if_neg (by omega), if_pos (by simpa [FieldType.accepts] using natural), Option.bind_some, advanced,
          Option.map_some, store_uint bits natural]
      · rw [if_pos (by omega), if_neg (by simpa [FieldType.accepts] using natural), Option.bind_none]
    | int32 =>
      simp only [Field.take, type, advanced, Option.map_some, signed, store_int32, FieldType.accepts, if_true]
    | bytes | rawBytes | boolean =>
      rw [type] at fits
      cases fits
  cases scalar with
  | natural header => simpa [itemType] using integral (.natural header) fits
  | negative header => simpa [itemType] using integral (.negative header) fits
  | @bytes _ data header =>
    obtain ⟨_, known, chunks⟩ := cursor_bytes prepared start (.bytes header)
    have copied : copyString content = (err, next, data) := by
      rw [copyString, chunks]
      simp only [moved]
    cases type : field.type with
    | bytes | rawBytes =>
      simp only [Field.take, type, known, copied, FieldType.accepts, itemType, and_true, if_true]
      split
      · rfl
      · rfl
    | uint bits | int32 | boolean =>
      rw [type] at fits
      cases fits
  | boolean flag =>
    obtain ⟨kind, flagged, n, read⟩ := cursor_boolean prepared start (.boolean flag)
    have advanced := advanceFixed_scalar (by rw [kind]; rfl) (by rw [kind]; decide) more read
    rw [moved] at advanced
    cases type : field.type with
    | boolean =>
      simp [Field.take, type, advanced, flagged, FieldType.accepts, itemType]
    | uint bits | int32 | bytes | rawBytes =>
      rw [type] at fits
      cases fits

end Take

theorem taken_scalar {content next : CborValue} {field : Field Obj} {obj obj' : Obj} (prepared : Prepared content)
    (fits : field.type.cborType = content.type) (taken : field.take content obj = some (.noError, next, obj')) :
    ∃ bytes tail value, content.rest = bytes ++ tail ∧ Scalar bytes value := by
  cases type : field.type with
  | uint bits | int32 =>
    rw [type] at fits
    obtain ⟨value, bytes, tail, start, scalar⟩ := int_of_cursor prepared fits.symm
    exact ⟨bytes, tail, _, start, scalar⟩
  | boolean =>
    rw [type] at fits
    obtain ⟨flag, tail, start⟩ := boolean_of_preparse prepared fits.symm
    exact ⟨_, tail, _, start, .boolean flag⟩
  | bytes | rawBytes =>
    rw [type] at fits
    simp only [Field.take, type] at taken
    split at taken
    · cases taken
      rename_i unknown
      unfold getStringLength at unknown
      split at unknown
      · cases unknown
      · cases unknown
    · rename_i known
      cases copied : copyString content with
      | mk err rest =>
        simp only [copied] at taken
        split at taken
        · cases taken
          rename_i failed
          exact absurd rfl failed
        · rename_i done
          rw [not_not.mp done] at copied
          obtain ⟨bytes, tail, start, scalar⟩ := bytes_of_cursor prepared fits.symm known copied
          exact ⟨bytes, tail, _, start, scalar⟩

theorem switch_scalar {content next : CborValue} {bytes tail : List UInt8} {value : Item} (prepared : Prepared content)
    (start : content.rest = bytes ++ tail) (scalar : Scalar bytes value) (more : content.remaining ≠ 0)
    (moved : preparseNextValue { content with rest := tail } = (.noError, next)) (format : Format Obj)
    (tagId : Int) (obj : Obj) : format.switch tagId content obj =
      if isIdCase tagId value then
        if (itemInt value).map (Int.bmod · (2 ^ 64)) = some (format.acceptedId : Int) then
          some (.continues .noError next obj)
        else some (.returns .invalidMsgIdValue obj)
      else match format.caseOf tagId value with
      | some field =>
        if field.type.accepts value then some (.continues .noError next (field.set (field.type.store value) obj))
        else none
      | none =>
        if format.breaksAtEnd ∧ format.casesFrom tagId ≠ [] then some (.continues .noError content obj)
        else some (.returns .unknownTagId obj) := by
  have type := cursor_type prepared start scalar
  have idCase : isIdCase tagId value = true ↔ tagId = 0 ∧ itemType value = .integer := by simp [isIdCase]
  simp only [Format.switch, type, idCase]
  split
  · rename_i integral
    obtain ⟨n, rfl⟩ : ∃ n, value = .int n := by
      cases scalar with
      | natural header => exact ⟨_, rfl⟩
      | negative header => exact ⟨_, rfl⟩
      | bytes header => exact absurd integral.2 (by simp [itemType])
      | boolean flag => exact absurd integral.2 (by simp [itemType])
    obtain ⟨_, signed, _, _⟩ := cursor_int prepared start scalar
    simp only [signed, itemInt, Option.map_some, Option.some.injEq, ne_eq, ite_not,
      advanceFixed_int prepared start scalar more, moved]
  · simp only [Format.fallThrough, type]
    change (match format.caseOf tagId value with | some field => _ | none => _) = _
    cases found : format.caseOf tagId value with
    | none => rfl
    | some field =>
      have fits : field.type.cborType = itemType value := by simpa using List.find?_some found
      simp only [take_scalar prepared start scalar more moved field fits obj]
      by_cases taken : field.type.accepts value = true
      · simp [taken]
      · simp [taken]

theorem switch_step {content next : CborValue} {bytes tail : List UInt8} {value : Item} (prepared : Prepared content)
    (start : content.rest = bytes ++ tail) (scalar : Scalar bytes value) (more : content.remaining ≠ 0)
    (moved : preparseNextValue { content with rest := tail } = (.noError, next)) (format : Format Obj)
    {key : Int} {obj obj' : Obj} (stepped : format.step obj (.int key, value) = some obj') :
    format.switch (Int.bmod key (2 ^ 64)) content obj = some (.continues .noError next obj') := by
  rw [switch_scalar prepared start scalar more moved]
  simp only [Format.step] at stepped
  split at stepped
  · rename_i integral
    split at stepped
    · rename_i accepted
      cases stepped
      rw [if_pos integral, if_pos accepted]
    · cases stepped
  · rename_i other
    rw [if_neg other]
    obtain ⟨field, found, stored⟩ := Option.bind_eq_some_iff.mp stepped
    rw [found]
    split at stored
    · rename_i taken
      cases stored
      simp only [taken, if_true]
    · cases stored

/-- One round of the loop, on an entry whose key and value are scalars. -/
theorem loop_stream (format : Format Obj) {content : CborValue} {entries : List (Item × Item)} {after : List UInt8}
    (stream : Stream content (flat entries) after) {obj obj' : Obj} (done : format.run entries obj = some obj')
    {fuel : Nat} (enough : entries.length < fuel) : format.loop fuel content .noError obj = some (.noError, obj') := by
  induction entries generalizing content obj fuel with
  | nil =>
    obtain ⟨fuel, rfl⟩ : ∃ n, fuel = n + 1 := ⟨fuel - 1, by simp at enough; omega⟩
    cases done
    cases stream with
    | done ended closed => rw [Format.loop, if_pos (by simp [CborValue.atEnd, ended])]; rfl
  | cons entry rest ih =>
    obtain ⟨fuel, rfl⟩ : ∃ n, fuel = n + 1 := ⟨fuel - 1, by simp at enough; omega⟩
    obtain ⟨key, value⟩ := entry
    cases stream with
    | @next _ second bytes tail _ _ _ more prepared start scalar moved stream =>
      cases stream with
      | @next _ third bytes' tail' _ _ _ more' prepared' start' scalar' moved' stream' =>
        obtain ⟨middle, stepped, others⟩ := Option.bind_eq_some_iff.mp done
        cases key with
        | int key =>
          obtain ⟨type, signed, _, _⟩ := cursor_int prepared start scalar
          have switched := switch_step prepared' start' scalar' more' moved' format stepped
          have onward := ih stream' others (by simp at enough; omega : rest.length < fuel)
          rw [Format.loop, if_neg (by simp [CborValue.atEnd, more]), if_neg (by simp [type]),
            advanceFixed_int prepared start scalar more, moved, Option.bind_some]
          simp only [ne_eq, not_true_eq_false, if_false]
          rw [signed, switched, Option.bind_some]
          exact onward
        | bytes | text | array | map | tagged | simple | float => cases stepped

theorem preparseValue_stuck {it it' : CborValue} {err : CborError} (done : preparseValue it = (err, it'))
    (failed : err ≠ .noError) : it'.type ≠ .integer ∨ ∃ reason, extractNumber it'.rest = .error reason := by
  have frame := preparseValue_frame it
  rw [done] at frame
  rw [frame.1]
  rcases start : it.rest with _ | ⟨first, tail⟩
  · exact .inr ⟨_, rfl⟩
  · simp only [preparseValue, start] at done
    split at done
    · rename_i high
      exact .inr ⟨.illegalNumber, by rw [extractNumber, if_neg (by omega), if_pos high]⟩
    · rename_i low
      split at done
      · rename_i short
        exact .inr ⟨.unexpectedEof, by rw [extractNumber, if_neg (by omega), if_neg (by omega), if_pos (by omega)]⟩
      · split at done
        · rename_i simple
          have outside := preparseSimple_type ⟨it.rest, it.remaining, first.toNat % 32,
            CborValue.kind (first.toNat / 32), false, false, false⟩ simple (first.toNat % 32) (number (tail.take 1))
          rw [start, done] at outside
          exact .inl fun integral => outside (by simp [integral])
        · obtain ⟨same, _⟩ := Prod.mk.inj done
          exact absurd same.symm failed

theorem preparseNextValue_stuck {it it' : CborValue} {err : CborError} (done : preparseNextValue it = (err, it'))
    (failed : err ≠ .noError) (more : it.remaining ≠ 0) : it'.remaining ≠ 0 ∧
      (it'.type ≠ .integer ∨ ∃ reason, extractNumber it'.rest = .error reason) := by
  have prepare : ∀ {other : CborValue}, preparseValue other = (err, it') → other.remaining ≠ 0 →
      it'.remaining ≠ 0 ∧ (it'.type ≠ .integer ∨ ∃ reason, extractNumber it'.rest = .error reason) := by
    intro other prepared more
    have frame := (preparseValue_frame other).2
    rw [prepared] at frame
    exact ⟨by rw [frame]; exact more, preparseValue_stuck prepared failed⟩
  unfold preparseNextValue at done
  split at done
  · split at done
    · split at done
      · cases done
        exact absurd rfl failed
      · rename_i again
        exact prepare done again
    · exact prepare done more
  · split at done
    · cases done
      exact absurd rfl failed
    · exact prepare done more

theorem loop_stuck (format : Format Obj) {content : CborValue} {err : CborError} {obj : Obj}
    (more : content.remaining ≠ 0)
    (stuck : content.type ≠ .integer ∨ ∃ reason, extractNumber content.rest = .error reason) (fuel : Nat) (obj' : Obj) :
    format.loop fuel content err obj ≠ some (.noError, obj') := by
  cases fuel with
  | zero =>
    intro done
    cases done
  | succ fuel =>
    rw [Format.loop, if_neg (by simp [CborValue.atEnd, more])]
    split
    · intro done
      cases done
    · rename_i integral
      obtain ⟨reason, read⟩ := stuck.resolve_left integral
      have fixed : ¬(content.type = .invalid ∨ (!isFixedType content.type) = true) := by
        rw [not_not.mp integral]
        decide
      rw [advanceFixed, if_neg fixed, if_neg more, advanceInternal, read]
      intro done
      cases done

theorem switch_sound {content next : CborValue} (ready : Ready content) (format : Format Obj)
    (returns : format.breaksAtEnd = false) {key : Int} {obj obj' : Obj}
    (switched : format.switch (Int.bmod key (2 ^ 64)) content obj = some (.continues .noError next obj')) :
    ∃ bytes tail value, content.remaining ≠ 0 ∧ Prepared content ∧ content.rest = bytes ++ tail ∧
      Scalar bytes value ∧ preparseNextValue { content with rest := tail } = (.noError, next) ∧
      format.step obj (.int key, value) = some obj' := by
  have standing : content.type ≠ .invalid → content.remaining ≠ 0 ∧ Prepared content := by
    intro valid
    unfold Ready at ready
    split at ready
    · exact absurd ready valid
    · rename_i more
      exact ⟨more, ready⟩
  have scalars : ∃ bytes tail value, content.remaining ≠ 0 ∧ Prepared content ∧ content.rest = bytes ++ tail ∧
      Scalar bytes value ∧ preparseNextValue { content with rest := tail } = (.noError, next) := by
    simp only [Format.switch] at switched
    split at switched
    · rename_i integral
      obtain ⟨more, prepared⟩ := standing (by rw [integral.2]; decide)
      obtain ⟨value, bytes, tail, start, scalar⟩ := int_of_cursor prepared integral.2
      refine ⟨bytes, tail, .int value, more, prepared, start, scalar, ?_⟩
      rw [advanceFixed_int prepared start scalar more] at switched
      split at switched
      · cases switched
      · simp only [Option.map_some, Option.some.injEq, Outcome.continues.injEq] at switched
        exact Prod.ext switched.1 switched.2.1
    · simp only [Format.fallThrough, returns, Bool.false_eq_true, false_and, if_false] at switched
      split at switched
      · rename_i field found
        have fits : field.type.cborType = content.type := by simpa using List.find?_some found
        obtain ⟨more, prepared⟩ := standing (by rw [← fits]; cases field.type <;> simp [FieldType.cborType])
        obtain ⟨⟨err, behind, stored⟩, taken, outcome⟩ := Option.map_eq_some_iff.mp switched
        simp only at outcome
        split at outcome
        · cases outcome
        · cases outcome
          obtain ⟨bytes, tail, value, start, scalar⟩ := taken_scalar prepared fits taken
          refine ⟨bytes, tail, value, more, prepared, start, scalar, ?_⟩
          rw [cursor_type prepared start scalar] at fits
          have same := take_scalar prepared start scalar more rfl field fits obj
          rw [taken] at same
          split at same
          · simp only [Option.some.injEq, Prod.mk.injEq] at same
            exact Prod.ext same.1.symm same.2.1.symm
          · cases same
      · cases switched
  obtain ⟨bytes, tail, value, more, prepared, start, scalar, moved⟩ := scalars
  refine ⟨bytes, tail, value, more, prepared, start, scalar, moved, ?_⟩
  rw [switch_scalar prepared start scalar more moved] at switched
  simp only [Format.step]
  split at switched
  · rename_i integral
    rw [if_pos integral]
    split at switched
    · rename_i accepted
      cases switched
      rw [if_pos accepted]
    · cases switched
  · rename_i other
    rw [if_neg other]
    split at switched
    · rename_i field found
      rw [found, Option.bind_some]
      split at switched
      · rename_i taken
        cases switched
        rw [if_pos taken]
      · cases switched
    · simp only [returns, Bool.false_eq_true, false_and, if_false] at switched
      cases switched

theorem switch_returns {content : CborValue} {format : Format Obj} {tagId : Int} {obj obj' : Obj}
    {err : IgSerializerError} (switched : format.switch tagId content obj = some (.returns err obj')) :
    err ≠ .noError := by
  simp only [Format.switch] at switched
  split at switched
  · split at switched
    · cases switched
      decide
    · obtain ⟨_, _, outcome⟩ := Option.map_eq_some_iff.mp switched
      cases outcome
  · simp only [Format.fallThrough] at switched
    split at switched
    · obtain ⟨⟨cause, _, _⟩, _, outcome⟩ := Option.map_eq_some_iff.mp switched
      simp only at outcome
      split at outcome
      · rename_i failed
        cases outcome
        intro same
        exact failed (IgSerializerError.cbor.inj same)
      · cases outcome
    · split at switched
      · cases switched
      · cases switched
        decide

theorem switch_failed {content next : CborValue} (ready : Ready content) {format : Format Obj} {tagId : Int}
    {obj obj' : Obj} {err : CborError} (switched : format.switch tagId content obj = some (.continues err next obj'))
    (failed : err ≠ .noError) : next.remaining ≠ 0 ∧
      (next.type ≠ .integer ∨ ∃ reason, extractNumber next.rest = .error reason) := by
  simp only [Format.switch] at switched
  split at switched
  · rename_i integral
    unfold Ready at ready
    have more : content.remaining ≠ 0 := by
      intro ended
      rw [if_pos ended, integral.2] at ready
      cases ready
    rw [if_neg more] at ready
    obtain ⟨value, bytes, tail, start, scalar⟩ := int_of_cursor ready integral.2
    rw [advanceFixed_int ready start scalar more] at switched
    split at switched
    · cases switched
    · simp only [Option.map_some, Option.some.injEq, Outcome.continues.injEq] at switched
      obtain ⟨cause, position, _⟩ := switched
      exact preparseNextValue_stuck (Prod.ext cause position) failed more
  · simp only [Format.fallThrough] at switched
    split at switched
    · obtain ⟨⟨cause, _, _⟩, _, outcome⟩ := Option.map_eq_some_iff.mp switched
      simp only at outcome
      split at outcome
      · cases outcome
      · rename_i fine
        cases outcome
        exact absurd failed fine
    · split at switched
      · cases switched
        exact absurd rfl failed
      · cases switched

/-- A loop that ends without an error has gone through entries of scalars, each of them taken. -/
theorem loop_sound (format : Format Obj) (returns : format.breaksAtEnd = false) {fuel : Nat} {content : CborValue}
    {obj obj' : Obj} (ready : Ready content)
    (done : format.loop fuel content .noError obj = some (.noError, obj')) :
    ∃ entries after, Stream content (flat entries) after ∧ format.run entries obj = some obj' := by
  induction fuel generalizing content obj with
  | zero => cases done
  | succ fuel ih =>
    rw [Format.loop] at done
    split at done
    · rename_i ended
      have none : content.remaining = 0 := by simpa [CborValue.atEnd] using ended
      unfold Ready at ready
      rw [if_pos none] at ready
      cases done
      exact ⟨[], content.rest, .done none ready, rfl⟩
    · rename_i again
      have more : content.remaining ≠ 0 := by simpa [CborValue.atEnd] using again
      unfold Ready at ready
      rw [if_neg more] at ready
      split at done
      · cases done
      · rename_i integral
        obtain ⟨key, bytes, tail, start, scalar⟩ := int_of_cursor ready (not_not.mp integral)
        obtain ⟨_, signed, _, _⟩ := cursor_int ready start scalar
        rw [advanceFixed_int ready start scalar more, Option.bind_some] at done
        cases moved : preparseNextValue { content with rest := tail } with
        | mk err next =>
          simp only [moved] at done
          split at done
          · cases done
            rename_i failed
            exact absurd rfl failed
          · rename_i fine
            rw [not_not.mp fine] at moved
            have nextReady : Ready next := preparseNextValue_ready moved more
            rw [signed] at done
            cases switched : format.switch (Int.bmod key (2 ^ 64)) next obj with
            | none =>
              rw [switched] at done
              cases done
            | some outcome =>
              rw [switched, Option.bind_some] at done
              cases outcome with
              | returns err stored =>
                simp only [Option.some.injEq, Prod.mk.injEq] at done
                exact absurd done.1 (switch_returns switched)
              | continues err third stored =>
                by_cases failed : err = .noError
                · subst failed
                  obtain ⟨bytes', tail', value, more', prepared', start', scalar', moved', stepped⟩ :=
                    switch_sound nextReady format returns switched
                  obtain ⟨entries, after, stream, others⟩ := ih (preparseNextValue_ready moved' more') done
                  refine ⟨(.int key, value) :: entries, after, ?_, ?_⟩
                  · exact .next more ready start scalar moved (.next more' prepared' start' scalar' moved' stream)
                  · rw [Format.run, stepped, Option.bind_some, others]
                · obtain ⟨more', stuck⟩ := switch_failed nextReady switched failed
                  exact absurd done (loop_stuck format more' stuck fuel obj')

end Bridge
