import Bridge.Cbor.Advance
import Bridge.Messages.Reading

namespace Bridge

open ByteCounter Cbor

/-- The same cursor in a longer buffer. -/
def CborValue.extend (it : CborValue) (more : List UInt8) : CborValue := { it with rest := it.rest ++ more }

variable {it it' : CborValue} (more : List UInt8)

@[simp] theorem extend_rest : (it.extend more).rest = it.rest ++ more := rfl
@[simp] theorem extend_remaining : (it.extend more).remaining = it.remaining := rfl
@[simp] theorem extend_type : (it.extend more).type = it.type := rfl
@[simp] theorem extend_unknownLength : (it.extend more).unknownLength = it.unknownLength := rfl

theorem preparseSimple_extend (it : CborValue) (descriptor next : Nat) :
    preparseSimple (it.extend more) descriptor next =
      ((preparseSimple it descriptor next).1, (preparseSimple it descriptor next).2.extend more) := by
  unfold preparseSimple
  repeat' split
  all_goals rfl

theorem preparseSimple_next (it : CborValue) {descriptor : Nat} (other : descriptor ≠ 24) (next next' : Nat) :
    preparseSimple it descriptor next = preparseSimple it descriptor next' := by
  unfold preparseSimple
  split
  case h_5 => exact absurd rfl other
  all_goals rfl

theorem preparseNumber_extend (it : CborValue) {descriptor : Nat} {tail : List UInt8}
    (enough : 24 ≤ descriptor → descriptor ≤ 27 → 2 ^ (descriptor - 24) ≤ tail.length) :
    preparseNumber (it.extend more) descriptor (tail ++ more) = (preparseNumber it descriptor tail).extend more := by
  unfold preparseNumber
  by_cases small : descriptor < 24
  · rw [if_pos small, if_pos small]
  · rw [if_neg small, if_neg small]
    by_cases byte : descriptor = 24
    · subst byte
      have one : (tail ++ more).take 1 = tail.take 1 :=
        List.take_append_of_le_length (enough (by decide) (by decide))
      rw [if_pos rfl, if_pos rfl, one]
      rfl
    · rw [if_neg byte, if_neg byte]
      by_cases word : descriptor = 25
      · subst word
        have two : (tail ++ more).take 2 = tail.take 2 :=
          List.take_append_of_le_length (enough (by decide) (by decide))
        rw [if_pos rfl, if_pos rfl, two]
        rfl
      · rw [if_neg word, if_neg word]
        rfl

theorem preparseValue_extend (done : preparseValue it = (.noError, it')) :
    preparseValue (it.extend more) = (.noError, it'.extend more) := by
  rcases start : it.rest with _ | ⟨first, tail⟩
  · rw [preparseValue, start] at done
    cases done
  · simp only [preparseValue, extend_rest, start, List.cons_append] at done ⊢
    split at done
    · rename_i high
      rw [if_pos high]
      split at done
      · split at done
        · cases done
        · cases done
      · rename_i last
        rw [if_neg last]
        split at done
        · rename_i varies
          rw [if_pos varies]
          cases done
          rfl
        · split at done
          · cases done
          · cases done
    · rename_i low
      rw [if_neg low]
      split at done
      · cases done
      · rename_i enough
        have long : ¬(first.toNat % 32 ≥ 24 ∧ (tail ++ more).length < 2 ^ (first.toNat % 32 - 24)) := by
          rw [List.length_append]
          omega
        rw [if_neg long]
        split at done
        · rename_i simple
          rw [if_pos simple]
          have same : ∀ it : CborValue,
              preparseSimple (it.extend more) (first.toNat % 32) (number ((tail ++ more).take 1)) =
                ((preparseSimple it (first.toNat % 32) (number (tail.take 1))).1,
                  (preparseSimple it (first.toNat % 32) (number (tail.take 1))).2.extend more) := by
            intro it
            rw [← preparseSimple_extend]
            by_cases byte : first.toNat % 32 = 24
            · rw [byte] at enough
              rw [List.take_append_of_le_length (by omega)]
            · exact preparseSimple_next _ byte _ _
          refine (same ⟨first :: tail, it.remaining, first.toNat % 32, CborValue.kind (first.toNat / 32), false, false,
            false⟩).trans ?_
          rw [done]
        · rename_i plain
          rw [if_neg plain]
          obtain ⟨_, rfl⟩ := Prod.mk.inj done
          have moved := fun it => @preparseNumber_extend more it (first.toNat % 32) tail (by omega)
          rw [← moved]
          split
          · rfl
          · rfl

theorem Prepared.extend (prepared : Prepared it) : Prepared (it.extend more) := preparseValue_extend more prepared

theorem preparseNextValue_extend (done : preparseNextValue it = (.noError, it')) :
    preparseNextValue (it.extend more) = (.noError, it'.extend more) := by
  rw [preparseNextValue] at done ⊢
  by_cases bounded : it.remaining ≠ uint32Max
  · rw [if_pos bounded] at done
    rw [if_pos (show (it.extend more).remaining ≠ uint32Max from bounded)]
    by_cases untagged : it.type ≠ .tag
    · rw [if_pos untagged] at done
      rw [if_pos (show (it.extend more).type ≠ .tag from untagged)]
      by_cases last : it.remaining - 1 = 0
      · rw [if_pos last] at done
        rw [if_pos (show (it.extend more).remaining - 1 = 0 from last)]
        cases done
        rfl
      · rw [if_neg last] at done
        rw [if_neg (show ¬(it.extend more).remaining - 1 = 0 from last)]
        exact preparseValue_extend more done
    · rw [if_neg untagged] at done
      rw [if_neg (show ¬(it.extend more).type ≠ .tag from untagged)]
      exact preparseValue_extend more done
  · rw [if_neg bounded] at done
    rw [if_neg (show ¬(it.extend more).remaining ≠ uint32Max from bounded)]
    rcases start : it.rest with _ | ⟨first, tail⟩
    · rw [start, if_neg (by simp), preparseValue, start] at done
      cases done
    · have head : (it.extend more).rest.head? = it.rest.head? := by
        rw [extend_rest, start]
        rfl
      rw [head]
      by_cases last : it.rest.head? = some breakByte
      · rw [if_pos last] at done ⊢
        cases done
        rw [CborValue.extend, start]
        rfl
      · rw [if_neg last] at done ⊢
        exact preparseValue_extend more done

theorem Facing.extend {body tail : List UInt8} {items : List Item} (facing : Facing it body items tail) :
    Facing (it.extend more) body items (tail ++ more) := by
  cases facing with
  | ended ended closed => exact @Facing.ended (it.extend more) ended closed
  | counted prepared some start count few =>
    exact .counted (prepared.extend more) some (by rw [extend_rest, start, List.append_assoc]) count few
  | opened prepared some start unbounded =>
    exact .opened (prepared.extend more) some (by rw [extend_rest, start, List.append_assoc, List.cons_append]) unbounded

section Shapes

variable {bytes tail : List UInt8} {item : Item} (prepared : Prepared it) (start : it.rest = bytes ++ tail)
  (spelled : Spells bytes item)

include start spelled

theorem scalar_of_scalar {bytes' tail' : List UInt8} {item' : Item} (start' : it.rest = bytes' ++ tail')
    (scalar : Scalar bytes' item') : Scalar bytes item := by
  obtain ⟨rfl, rfl⟩ := scalar_unique scalar spelled (start'.symm.trans start)
  have same : bytes' = bytes := List.append_cancel_right (start'.symm.trans start)
  rwa [← same]

include prepared

theorem scalar_of_type (taken : it.type ∈ [CborType.integer, .byteString, .boolean])
    (known : it.type = .byteString → it.unknownLength = false) : Scalar bytes item := by
  by_cases integral : it.type = .integer
  · obtain ⟨value, bytes', tail', start', scalar⟩ := int_of_cursor prepared integral
    exact scalar_of_scalar start spelled start' scalar
  by_cases boolean : it.type = .boolean
  · obtain ⟨value, tail', start'⟩ := boolean_of_preparse prepared boolean
    exact scalar_of_scalar start spelled start' (.boolean value)
  have string : it.type = .byteString := by
    simp only [List.mem_cons, List.not_mem_nil, or_false, integral, boolean, false_or] at taken
    exact taken
  rcases preparseValue_sound prepared (by simp [string]) with ⟨major, n, after, read, plain⟩ | ⟨unknown, _⟩
  · have type := (prepared_counted prepared read plain).type
    obtain ⟨small, head, start', header⟩ := head_of_readHead read
    rw [string] at type
    obtain rfl : major = 2 := by
      interval_cases major
      all_goals simp [CborValue.kind] at type ⊢
    rw [start] at read
    obtain ⟨content, rfl, rfl, rfl⟩ := (spells_head spelled read).2.2 rfl
    exact scalar_of_scalar start spelled (start'.trans (List.append_assoc head content tail).symm) (.bytes header)
  · rw [known string] at unknown
    cases unknown

end Shapes

variable {Obj : Type}

def Outcome.extend : Outcome Obj → Outcome Obj
  | .returns err obj => .returns err obj
  | .continues err content obj => .continues err (content.extend more) obj

theorem cborType_taken (type : FieldType) : type.cborType ∈ [CborType.integer, .byteString, .boolean] := by
  cases type with
  | uint | int32 | bytes | rawBytes | boolean => simp [FieldType.cborType]

/-- The switch at a value that no case takes: an open byte string, which its case refuses, or a value
    of another type. -/
theorem switch_other (format : Format Obj) (tagId : Int) {content : CborValue} (obj : Obj)
    (other : content.type ∈ [CborType.integer, .byteString, .boolean] →
      content.type = .byteString ∧ content.unknownLength = true) :
    format.switch tagId content obj =
      match (format.casesFrom tagId).find? fun field => field.type.cborType == content.type with
      | some _ => some (.returns (.cbor .unknownLength) obj)
      | none =>
        if format.breaksAtEnd ∧ format.casesFrom tagId ≠ [] then some (.continues .noError content obj)
        else some (.returns .unknownTagId obj) := by
  have plain : ¬(tagId = 0 ∧ content.type = .integer) := by
    rintro ⟨_, integral⟩
    have string := (other (by simp [integral])).1
    rw [integral] at string
    cases string
  rw [Format.switch, if_neg plain, Format.fallThrough]
  cases found : (format.casesFrom tagId).find? fun field => field.type.cborType == content.type with
  | none => rfl
  | some field =>
    have fits : field.type.cborType = content.type := by simpa using List.find?_some found
    have taken := cborType_taken field.type
    rw [fits] at taken
    obtain ⟨string, unknown⟩ := other taken
    rw [string] at fits
    have refused : getStringLength content = .error .unknownLength := by rw [getStringLength, if_pos unknown]
    cases type : field.type with
    | bytes | rawBytes => simp [Field.take, type, refused]
    | uint | int32 | boolean =>
      rw [type] at fits
      cases fits

def Onward (next : CborValue) (items : List Item) (tail : List UInt8) : Prop :=
  ∃ body' items', Facing next body' items' tail ∧ SpellsAll body' items' ∧ items'.length ≤ items.length

section Switch

variable (format : Format Obj) (tagId : Int) {content : CborValue} {body tail : List UInt8} {items : List Item} (obj : Obj)

theorem switch_extend_other (facing : Facing content body items tail) (spelled : SpellsAll body items)
    (other : content.type ∈ [CborType.integer, .byteString, .boolean] →
      content.type = .byteString ∧ content.unknownLength = true) :
    format.switch tagId (content.extend more) obj = (format.switch tagId content obj).map (Outcome.extend more) ∧
      ∀ err next obj', format.switch tagId content obj = some (.continues err next obj') → Onward next items tail := by
  have whole : format.switch tagId (content.extend more) obj = _ := switch_other format tagId obj other
  rw [whole, switch_other format tagId obj other]
  simp only [extend_type]
  split
  · exact ⟨rfl, fun err next obj' went => by cases went⟩
  · split
    · refine ⟨rfl, ?_⟩
      intro err next obj' went
      cases went
      exact ⟨body, items, facing, spelled, Nat.le_refl _⟩
    · exact ⟨rfl, fun err next obj' went => by cases went⟩

theorem switch_extend (facing : Facing content body items tail) (spelled : SpellsAll body items) :
    format.switch tagId (content.extend more) obj = (format.switch tagId content obj).map (Outcome.extend more) ∧
      ∀ err next obj', format.switch tagId content obj = some (.continues err next obj') → Onward next items tail := by
  cases spelled with
  | nil =>
    refine switch_extend_other more format tagId obj facing .nil ?_
    cases facing with
    | ended _ closed => simp [closed]
    | counted _ some _ _ _ => exact absurd rfl some
    | opened _ some _ _ => exact absurd rfl some
  | @cons bytes others item rest first spelled =>
    obtain ⟨prepared, some, after, start, onward⟩ := facing.next spelled
    by_cases taken : content.type ∈ [CborType.integer, .byteString, .boolean] ∧
        (content.type = .byteString → content.unknownLength = false)
    · have scalar := scalar_of_type prepared start first taken.1 taken.2
      have untagged : content.type ≠ .tag := by
        intro tag
        simp [tag] at taken
      obtain ⟨next, moved, ahead⟩ := onward { content with rest := after } rfl rfl untagged
      have start' : (content.extend more).rest = bytes ++ (after ++ more) := by
        rw [extend_rest, start, List.append_assoc]
      have moved' : preparseNextValue { content.extend more with rest := after ++ more } = (.noError, next.extend more) :=
        preparseNextValue_extend more moved
      rw [switch_scalar (prepared.extend more) start' scalar some moved' format tagId obj,
        switch_scalar prepared start scalar some moved format tagId obj]
      have stays : Onward content (item :: rest) tail := ⟨_, _, facing, .cons first spelled, Nat.le_refl _⟩
      have goes : Onward next (item :: rest) tail := ⟨others, rest, ahead, spelled, Nat.le_succ _⟩
      repeat' split
      all_goals refine ⟨rfl, ?_⟩
      all_goals
        intro err next' obj' went
        cases went
      all_goals first | exact goes | exact stays
    · refine switch_extend_other more format tagId obj facing (.cons first spelled) ?_
      intro known
      simpa [known] using taken

end Switch

/-- The loop of a decoder does not look behind the container that it is in. -/
theorem loop_extend (format : Format Obj) {content : CborValue} {body tail : List UInt8} {items : List Item}
    (facing : Facing content body items tail) (spelled : SpellsAll body items) {fuel fuel' : Nat}
    (enough : items.length < fuel) (enough' : items.length < fuel') (err : CborError) (obj : Obj) :
    format.loop fuel' (content.extend more) err obj = format.loop fuel content err obj := by
  induction fuel generalizing content body items fuel' err obj with
  | zero => omega
  | succ fuel ih =>
    obtain ⟨fuel', rfl⟩ : ∃ n, fuel' = n + 1 := ⟨fuel' - 1, by omega⟩
    rw [Format.loop, Format.loop]
    have same : (content.extend more).atEnd = content.atEnd := rfl
    rw [same, extend_type]
    split
    · rfl
    · rename_i running
      split
      · rfl
      · rename_i integral
        have type : content.type = .integer := not_not.mp integral
        cases spelled with
        | nil =>
          cases facing with
          | ended ended closed => exact absurd (by simp [CborValue.atEnd, ended]) running
          | counted _ some _ _ _ => exact absurd rfl some
          | opened _ some _ _ => exact absurd rfl some
        | @cons bytes others item rest first spelled =>
          obtain ⟨prepared, some, after, start, onward⟩ := facing.next spelled
          have scalar := scalar_of_type prepared start first (by simp [type]) (by simp [type])
          obtain ⟨key, rfl⟩ : ∃ key, item = .int key := by
            have kind := cursor_type prepared start scalar
            rw [type] at kind
            cases scalar with
            | natural | negative => exact ⟨_, rfl⟩
            | bytes | boolean => cases kind
          obtain ⟨next, moved, ahead⟩ := onward { content with rest := after } rfl rfl (by simp [type])
          have start' : (content.extend more).rest = bytes ++ (after ++ more) := by
            rw [extend_rest, start, List.append_assoc]
          have moved' : preparseNextValue { content.extend more with rest := after ++ more } =
              (.noError, next.extend more) := preparseNextValue_extend more moved
          have tagId : getInt64 (content.extend more) = getInt64 content := by
            rw [(cursor_int (prepared.extend more) start' scalar).2.1, (cursor_int prepared start scalar).2.1]
          rw [advanceFixed_int (prepared.extend more) start' scalar some, advanceFixed_int prepared start scalar some,
            moved, moved', tagId]
          simp only [Option.bind_some, ne_eq, not_true_eq_false, if_false]
          obtain ⟨switched, stays⟩ := switch_extend more format (getInt64 content) obj ahead spelled
          rw [switched]
          cases outcome : format.switch (getInt64 content) next obj with
          | none => rfl
          | some outcome' =>
            cases outcome' with
            | returns err obj => rfl
            | continues err next' obj' =>
              obtain ⟨body', items', ahead', spelled', fewer⟩ := stays err next' obj' outcome
              rw [List.length_cons] at enough enough'
              exact ih ahead' spelled' (by omega) (by omega) err obj'

end Bridge
