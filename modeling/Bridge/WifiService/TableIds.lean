import Bridge.WifiService.MessageTable

namespace Bridge

open Cbor

/-- A key that is 0 as an `int64_t`, and then this id. -/
def IdPair (bytes : List UInt8) (id : Int) : Prop :=
  ∃ keyBytes idBytes more key, bytes = keyBytes ++ (idBytes ++ more) ∧ Scalar keyBytes (.int key) ∧
    Int.bmod key (2 ^ 64) = 0 ∧ Scalar idBytes (.int id) ∧ 0 < Int.bmod id (2 ^ 64)

/-- A message with this id, as far as its first pair. -/
inductive MessageBytes : List UInt8 → Int → Prop
  | counted {n : Nat} {head rest : List UInt8} {id : Int} (header : Head 5 n head) (pair : IdPair rest id) :
      MessageBytes (head ++ rest) id
  | opened {rest : List UInt8} {id : Int} (pair : IdPair rest id) : MessageBytes (initial 5 31 :: rest) id

/-- The element of a container where the cursor comes to after so many steps. -/
inductive ElementAt : CborValue → Nat → CborValue → Prop
  | here (it : CborValue) : ElementAt it 0 it
  | further {it next found : CborValue} {i : Nat} (moved : advance it = some (.noError, next))
      (reached : ElementAt next i found) : ElementAt it (i + 1) found

inductive MessageAt (buf : List UInt8) : Nat → CborValue → Prop
  | only {it : CborValue} (init : cborParserInit buf = (.noError, it)) (map : it.type = .map) : MessageAt buf 0 it
  | element {it content message : CborValue} {i : Nat} (init : cborParserInit buf = (.noError, it))
      (array : it.type = .array) (entered : enterContainer it = some (.noError, content))
      (reached : ElementAt content i message) : MessageAt buf i message

def Declares (buf : List UInt8) (count : Nat) : Prop := ∃ head rest, buf = head ++ rest ∧ Head 4 count head

/-- No error means that every id of the input is in the caller's array, and more messages than it holds are an error. -/
structure IdsLaw (buf : List UInt8) (retval : List Int) : Prop where
  complete : ∀ retval', igDecodeMsgIds buf retval = some (.noError, retval') →
    ∃ n, igGetPayloadLength buf = .ok n ∧ n ≤ retval.length ∧
      ∀ i < n, ∃ message id, MessageAt buf i message ∧ MessageBytes message.rest id ∧
        retval'[i]? = some (Int.bmod id (2 ^ 32))
  rejects : ∀ n, igGetPayloadLength buf = .ok n → retval.length < n →
    ∃ err retval', igDecodeMsgIds buf retval = some (err, retval') ∧ err ≠ .noError

section Tables

variable {messages : List EncodedMessage} (handled : ∀ message ∈ messages, message.Handled) {i : Nat}
include handled

theorem elementAt_facing {it found : CborValue} {tail : List UInt8}
    (facing : Facing it (tableBytes messages) (messages.map EncodedMessage.item) tail) (within : i < messages.length)
    (reached : ElementAt it i found) : ∃ more, found.rest = messages[i].bytes ++ more := by
  induction messages generalizing it i with
  | nil => exact absurd within (Nat.not_lt_zero i)
  | cons message rest ih =>
    rw [List.forall_mem_cons] at handled
    cases reached with
    | here =>
      rcases facing.next (tableBytes_spell rest) with ⟨_, _, more, start, _⟩
      exact ⟨more, start⟩
    | further moved reached =>
      rcases element_step handled.1 facing with ⟨_, _, _, next, _, _, moved', ahead⟩
      cases moved.symm.trans moved'
      exact ih handled.2 ahead (Nat.lt_of_succ_lt_succ within) reached

theorem messageAt_table (several : 2 ≤ messages.length) (few : messages.length ≤ 23) (within : i < messages.length)
    {message : CborValue} (found : MessageAt (tableOf messages) i message) :
    ∃ more, message.rest = messages[i].bytes ++ more := by
  rcases several_root several few with ⟨it, first, init, array, _, entered, facing⟩
  cases found with
  | only init' map =>
    cases init.symm.trans init'
    rw [array] at map
    cases map
  | element init' _ entered' reached =>
    cases init.symm.trans init'
    cases entered.symm.trans entered'
    exact elementAt_facing handled facing within reached

end Tables

section Reading

variable {it content : CborValue}

theorem ready_int (ready : Ready it) (type : it.type = .integer) :
    it.remaining ≠ 0 ∧ Prepared it ∧ ∃ value bytes tail, it.rest = bytes ++ tail ∧ Scalar bytes (.int value) ∧
      getInt64 it = Int.bmod value (2 ^ 64) := by
  have more : it.remaining ≠ 0 := by
    intro ended
    rw [Ready, if_pos ended, type] at ready
    cases ready
  rw [Ready, if_neg more] at ready
  rcases int_of_cursor ready type with ⟨value, bytes, tail, start, scalar⟩
  rcases cursor_int ready start scalar with ⟨_, signed, _⟩
  exact ⟨more, ready, value, bytes, tail, start, scalar, signed⟩

theorem preparseNextValue_rest {next : CborValue} (moved : preparseNextValue it = (.noError, next))
    (valid : next.type ≠ .invalid) : next.rest = it.rest := by
  rw [preparseNextValue] at moved
  split at moved
  · split at moved
    · split at moved
      · cases moved
        exact absurd rfl valid
      · exact (preparseValue_prepared moved).2.1
    · exact (preparseValue_prepared moved).2.1
  · split at moved
    · cases moved
      exact absurd rfl valid
    · exact (preparseValue_prepared moved).2.1

theorem readMsgId_sound {value : Int} (ready : Ready content) (read : readMsgId content = some (.ok value)) :
    ∃ id, IdPair content.rest id ∧ value = Int.bmod id (2 ^ 64) := by
  rw [readMsgId] at read
  split at read
  · cases read
  · rename_i integral
    rcases ready_int ready (not_not.mp integral) with ⟨more, prepared, key, keyBytes, tail, start, keyScalar, keySigned⟩
    split at read
    · cases read
    · rename_i zero
      rw [advanceFixed_int prepared start keyScalar more, Option.map_some] at read
      cases moved : preparseNextValue { content with rest := tail } with
      | mk err next =>
        rw [moved] at read
        have taken := Option.some.inj read
        simp only at taken
        split at taken
        · cases taken
        · rename_i fine
          rw [not_not.mp fine] at moved
          split at taken
          · cases taken
          · rename_i integral'
            have type := not_not.mp integral'
            rcases ready_int (preparseNextValue_ready moved more) type with
              ⟨_, _, id, idBytes, behind, start', idScalar, idSigned⟩
            have onward : tail = idBytes ++ behind := by
              rw [← start', preparseNextValue_rest moved (by rw [type]; decide)]
            split at taken
            · cases taken
            · rename_i positive
              cases taken
              rw [idSigned, Int.not_le] at positive
              rw [not_not, keySigned] at zero
              rw [start, onward]
              exact ⟨id, ⟨keyBytes, idBytes, behind, key, rfl, keyScalar, zero, idScalar, positive⟩, idSigned⟩

theorem readMsgId_error {err : IgTableError} (read : readMsgId content = some (.error err)) : err ≠ .noError := by
  rw [readMsgId] at read
  split at read
  · cases read
    decide
  · split at read
    · cases read
      decide
    · rcases Option.map_eq_some_iff.mp read with ⟨⟨cause, next⟩, moved, taken⟩
      simp only at taken
      split at taken
      · rename_i failed
        cases taken
        exact fun same => failed (IgTableError.cbor.inj same)
      · split at taken
        · cases taken
          decide
        · split at taken
          · cases taken
            decide
          · cases taken

theorem messageBytes_read {value : Int} (prepared : Prepared it) (map : it.type = .map)
    (entered : enterContainer it = some (.noError, content)) (read : readMsgId content = some (.ok value)) :
    ∃ id, MessageBytes it.rest id ∧ value = Int.bmod id (2 ^ 64) := by
  rcases enterContainer_entered prepared (by simp [CborValue.isContainer, map]) entered with
    ⟨major, container, kind, passed⟩
  have five : major = 5 := by
    rcases container with rfl | rfl
    · rw [map] at kind
      cases kind
    · rfl
  subst five
  rcases readMsgId_sound (entered_ready passed) read with ⟨id, pair, same⟩
  refine ⟨id, ?_, same⟩
  cases passed with
  | counted header start _ _ _ =>
    rw [start]
    exact .counted header pair
  | opened start _ _ =>
    rw [start]
    exact .opened pair
  | empty _ ended closed =>
    -- nothing is read of an empty map
    rw [readMsgId, if_pos (by rw [closed]; decide)] at read
    cases read

theorem advance_ready {next : CborValue} (map : it.type = .map) (moved : advance it = some (.noError, next)) :
    Ready next := by
  rw [advance, if_neg (by rw [map]; decide)] at moved
  split at moved
  · cases moved
  · rename_i more
    rw [advanceRecursive, if_neg (by rw [map]; decide), if_neg (by simp [CborValue.isContainer, map])] at moved
    split at moved
    · cases moved
    · rcases Option.bind_eq_some_iff.mp moved with ⟨⟨err, inner⟩, entered, moved⟩
      simp only at moved
      split at moved
      · rename_i failed
        cases moved
        exact absurd rfl failed
      · rcases Option.bind_eq_some_iff.mp moved with ⟨⟨err, ended⟩, stepped, moved⟩
        simp only at moved
        split at moved
        · rename_i failed
          cases moved
          exact absurd rfl failed
        · rw [leaveContainer] at moved
          split at moved
          · cases moved
          · exact preparseNextValue_ready (Option.some.inj moved) more

end Reading

theorem storeId_some {retval retval' : List Int} {i : Nat} {value : Int} (stored : storeId retval i value = some retval') :
    i < retval.length ∧ retval' = retval.set i (Int.bmod value (2 ^ 32)) := by
  rw [storeId] at stored
  split at stored
  · rename_i within
    exact ⟨within, (Option.some.inj stored).symm⟩
  · cases stored

theorem bmod_narrows (id : Int) : Int.bmod (Int.bmod id (2 ^ 64)) (2 ^ 32) = Int.bmod id (2 ^ 32) :=
  Int.bmod_bmod_of_dvd (by decide)

theorem step_succeeds {step : Option (CborError × CborValue)}
    {onward : CborError × CborValue → Option (IgTableError × List Int)} {retval retval' : List Int}
    (done : (step.bind fun moved => if moved.1 ≠ .noError then some (.cbor moved.1, retval) else onward moved) =
      some (.noError, retval')) :
    ∃ next, step = some (.noError, next) ∧ onward (.noError, next) = some (.noError, retval') := by
  rcases Option.bind_eq_some_iff.mp done with ⟨⟨err, next⟩, moved, done⟩
  by_cases fine : err = .noError
  · subst fine
    exact ⟨next, moved, done⟩
  · rw [if_pos fine] at done
    cases done
    exact absurd rfl fine

structure IdRound (i : Nat) (content next : CborValue) (retval stored : List Int) (id : Int) : Prop where
  bytes : MessageBytes content.rest id
  within : i < retval.length
  stored : stored = retval.set i (Int.bmod id (2 ^ 32))
  moved : advance content = some (.noError, next)
  ready : Ready next

theorem decodeElementIds_round {count i : Nat} {content : CborValue} {retval retval' : List Int} (ready : Ready content)
    (done : decodeElementIds (count + 1) i content retval = some (.noError, retval')) :
    ∃ next stored id, IdRound i content next retval stored id ∧
      decodeElementIds count (i + 1) next stored = some (.noError, retval') := by
  simp only [decodeElementIds] at done
  split at done
  · cases done
  · rename_i kind
    have map := not_not.mp kind
    have more : content.remaining ≠ 0 := by
      intro ended
      rw [Ready, if_pos ended, map] at ready
      cases ready
    rw [Ready, if_neg more] at ready
    rcases step_succeeds done with ⟨payloadContent, entered, done⟩
    rcases Option.bind_eq_some_iff.mp done with ⟨read, taken, done⟩
    cases read with
    | error err =>
      cases done
      exact absurd rfl (readMsgId_error taken)
    | ok value =>
      rcases messageBytes_read ready map entered taken with ⟨id, bytes, rfl⟩
      rcases Option.bind_eq_some_iff.mp done with ⟨stored, kept, done⟩
      rcases step_succeeds done with ⟨next, moved, done⟩
      rcases storeId_some kept with ⟨within, same⟩
      rw [bmod_narrows] at same
      exact ⟨next, stored, id, ⟨bytes, within, same, moved, advance_ready map moved⟩, done⟩

theorem decodeElementIds_complete {count i : Nat} {content : CborValue} {retval retval' : List Int} (ready : Ready content)
    (done : decodeElementIds count i content retval = some (.noError, retval')) :
    (∀ j < i, retval'[j]? = retval[j]?) ∧
      ∀ k < count, ∃ message id, ElementAt content k message ∧ MessageBytes message.rest id ∧
        retval'[i + k]? = some (Int.bmod id (2 ^ 32)) := by
  induction count generalizing i content retval with
  | zero =>
    cases done
    exact ⟨fun _ _ => rfl, fun k within => absurd within (Nat.not_lt_zero k)⟩
  | succ count ih =>
    rcases decodeElementIds_round ready done with ⟨next, stored, id, round, done⟩
    rcases ih round.ready done with ⟨before, others⟩
    constructor
    · intro j earlier
      rw [before j (Nat.lt_succ_of_lt earlier), round.stored]
      exact List.getElem?_set_ne (Nat.ne_of_gt earlier)
    · intro k within
      cases k with
      | zero =>
        refine ⟨content, id, .here content, round.bytes, ?_⟩
        rw [Nat.add_zero, before i (Nat.lt_succ_self i), round.stored]
        exact List.getElem?_set_self round.within
      | succ k =>
        rcases others k (Nat.lt_of_succ_lt_succ within) with ⟨message, id', reached, bytes, written⟩
        refine ⟨message, id', .further round.moved reached, bytes, ?_⟩
        rw [Nat.add_comm k 1, ← Nat.add_assoc]
        exact written

section Input

variable {buf : List UInt8} {retval retval' : List Int}

theorem declares_array {it : CborValue} {size : Nat} (init : cborParserInit buf = (.noError, it)) (array : it.type = .array)
    (sized : getArrayLength it = .ok size) : Declares buf size := by
  rcases preparseValue_prepared init with ⟨prepared, same, _⟩
  rw [getArrayLength] at sized
  split at sized
  · cases sized
  · rename_i known
    rcases preparseValue_sound prepared (by simp [array]) with ⟨major, n, after, read, plain⟩ | ⟨unknown, _⟩
    · have counted := prepared_counted prepared read plain
      rcases head_of_readHead read with ⟨small, head, start, header⟩
      have kind := counted.type
      rw [array] at kind
      have four : major = 4 := by
        interval_cases major
        all_goals simp [CborValue.kind] at kind ⊢
      subst four
      rw [counted.value] at sized
      cases sized
      exact ⟨head, after, same.symm.trans start, header⟩
    · exact absurd unknown known

theorem declares_length {count : Nat} (declared : Declares buf count) :
    igGetPayloadLength buf = .ok count ∧
      ∃ it, cborParserInit buf = (.noError, it) ∧ it.type = .array ∧ getArrayLength it = .ok count := by
  rcases declared with ⟨head, rest, rfl, header⟩
  have read := readHead_head (by decide) header rest
  rcases @preparseValue_counted ⟨head ++ rest, 1, 0, .invalid, false, false, false⟩ _ _ _ read (by decide) with
    ⟨it, init, counted⟩
  have array : it.type = .array := counted.type
  have sized : getArrayLength it = .ok count := by
    rw [getArrayLength, counted.known, if_neg Bool.false_ne_true, counted.value]
  refine ⟨?_, it, init, array, sized⟩
  rw [igGetPayloadLength, cborParserInit, init]
  simp only [ne_eq, not_true_eq_false, if_false, array, reduceCtorEq, if_true, sized, Except.mapError]

theorem payloadLength_cases {n : Nat} (length : igGetPayloadLength buf = .ok n) : n = 1 ∨ Declares buf n := by
  cases init : cborParserInit buf with
  | mk err it =>
    simp only [igGetPayloadLength, init] at length
    split at length
    · cases length
    · rename_i fine
      rw [not_not.mp fine] at init
      split at length
      · cases length
        exact .inl rfl
      · split at length
        · rename_i array
          cases sized : getArrayLength it with
          | error err =>
            rw [sized] at length
            cases length
          | ok size =>
            rw [sized] at length
            cases length
            exact .inr (declares_array init array sized)
        · cases length

theorem payloadLength_map {it : CborValue} (init : cborParserInit buf = (.noError, it)) (map : it.type = .map) :
    igGetPayloadLength buf = .ok 1 := by
  simp only [igGetPayloadLength, init, ne_eq, not_true_eq_false, if_false, map, if_true]

/-- The ways in which `ig_decode_msg_ids` ends without an error. -/
inductive Decoded (buf : List UInt8) (retval : List Int) : List Int → Prop
  | only {it content : CborValue} {value : Int} {retval' : List Int} (init : cborParserInit buf = (.noError, it))
      (map : it.type = .map) (entered : enterContainer it = some (.noError, content))
      (read : readMsgId content = some (.ok value)) (stored : storeId retval 0 value = some retval') :
      Decoded buf retval retval'
  | several {it content : CborValue} {size : Nat} {retval' : List Int} (init : cborParserInit buf = (.noError, it))
      (array : it.type = .array) (sized : getArrayLength it = .ok size)
      (entered : enterContainer it = some (.noError, content))
      (done : decodeElementIds size 0 content retval = some (.noError, retval')) : Decoded buf retval retval'
  | unread {it : CborValue} {size : Nat} (init : cborParserInit buf = (.noError, it)) (array : it.type = .array)
      (sized : getArrayLength it = .ok size) (exceeds : retval.length < size) : Decoded buf retval retval

theorem igDecodeMsgIds_cases (done : igDecodeMsgIds buf retval = some (.noError, retval')) : Decoded buf retval retval' := by
  cases init : cborParserInit buf with
  | mk err it =>
    simp only [igDecodeMsgIds, init] at done
    split at done
    · rename_i failed
      cases done
      exact absurd rfl failed
    · rename_i fine
      rw [not_not.mp fine] at init
      split at done
      · rename_i map
        rcases step_succeeds done with ⟨content, entered, done⟩
        rcases Option.bind_eq_some_iff.mp done with ⟨read, taken, done⟩
        cases read with
        | error err =>
          cases done
          exact absurd rfl (readMsgId_error taken)
        | ok value =>
          rcases Option.map_eq_some_iff.mp done with ⟨stored, kept, same⟩
          cases same
          exact .only init map entered taken kept
      · split at done
        · rename_i array
          cases sized : getArrayLength it with
          | error err =>
            rw [sized] at done
            rw [getArrayLength] at sized
            split at sized
            · cases sized
              cases done
            · cases sized
          | ok size =>
            simp only [sized] at done
            split at done
            · rename_i exceeds
              cases done
              exact .unread init array sized exceeds
            · rcases step_succeeds done with ⟨content, entered, done⟩
              exact .several init array sized entered done
        · cases done

theorem igDecodeMsgIds_complete (room : 1 ≤ retval.length) (fits : ∀ count, Declares buf count → count ≤ retval.length)
    (done : igDecodeMsgIds buf retval = some (.noError, retval')) :
    ∃ n, igGetPayloadLength buf = .ok n ∧ n ≤ retval.length ∧ ∀ i < n, ∃ message id, MessageAt buf i message ∧
      MessageBytes message.rest id ∧ retval'[i]? = some (Int.bmod id (2 ^ 32)) := by
  cases igDecodeMsgIds_cases done with
  | @only it content value _ init map entered read stored =>
    rcases messageBytes_read (preparseValue_prepared init).1 map entered read with ⟨id, bytes, rfl⟩
    rcases storeId_some stored with ⟨first, rfl⟩
    refine ⟨1, payloadLength_map init map, room, ?_⟩
    intro i below
    cases Nat.lt_one_iff.mp below
    exact ⟨it, id, .only init map, bytes, by rw [List.getElem?_set_self first, bmod_narrows]⟩
  | @several it content size _ init array sized entered done =>
    have declared := declares_array init array sized
    rcases enterContainer_entered (preparseValue_prepared init).1 (by simp [CborValue.isContainer, array]) entered with
      ⟨_, _, _, passed⟩
    have stored := (decodeElementIds_complete (entered_ready passed) done).2
    refine ⟨size, (declares_length declared).1, fits size declared, ?_⟩
    intro i below
    rcases stored i below with ⟨message, id, reached, bytes, written⟩
    rw [Nat.zero_add] at written
    exact ⟨message, id, .element init array entered reached, bytes, written⟩
  | unread init array sized exceeds =>
    exact absurd (fits _ (declares_array init array sized)) (Nat.not_le.mpr exceeds)

theorem igDecodeMsgIds_overfull {count : Nat} (declared : Declares buf count) (exceeds : retval.length < count) :
    igDecodeMsgIds buf retval = some (.noError, retval) := by
  rcases (declares_length declared).2 with ⟨it, init, array, sized⟩
  rw [igDecodeMsgIds, init]
  simp only [ne_eq, not_true_eq_false, if_false, array, reduceCtorEq, if_true, sized, if_pos exceeds]

end Input

/-- `ig_decode_msg_ids` is complete exactly where the input declares no more messages than the array holds. -/
theorem decode_ids_complete_iff (buf : List UInt8) (retval : List Int) (room : 1 ≤ retval.length) :
    IdsLaw buf retval ↔ ∀ count, Declares buf count → count ≤ retval.length := by
  constructor
  · intro law count declared
    by_contra exceeds
    rcases law.complete retval (igDecodeMsgIds_overfull declared (Nat.not_le.mp exceeds)) with ⟨n, length, fits, _⟩
    rw [(declares_length declared).1] at length
    cases length
    exact exceeds fits
  · intro fits
    constructor
    case complete =>
      intro retval' done
      exact igDecodeMsgIds_complete room fits done
    case rejects =>
      intro n length exceeds
      rcases payloadLength_cases length with rfl | declared
      · exact absurd room (Nat.not_le.mpr exceeds)
      · exact absurd (fits n declared) (Nat.not_le.mpr exceeds)

theorem decode_ids_complete_two : IdsLaw [0x82, 0xa1, 0x00, 0x01, 0xa1, 0x00, 0x02] [7, 7] ↔
    ∀ count, Declares [0x82, 0xa1, 0x00, 0x01, 0xa1, 0x00, 0x02] count → count ≤ 2 :=
  decode_ids_complete_iff _ [7, 7] (by decide)

/-- Two messages, where the caller has room for one. -/
theorem two_messages_unread : ¬IdsLaw [0x82, 0xa1, 0x00, 0x01, 0xa1, 0x00, 0x02] [7] := by
  intro law
  have two : igGetPayloadLength [0x82, 0xa1, 0x00, 0x01, 0xa1, 0x00, 0x02] = .ok 2 := by decide
  have silent : igDecodeMsgIds [0x82, 0xa1, 0x00, 0x01, 0xa1, 0x00, 0x02] [7] = some (.noError, [7]) := by decide
  rcases law.rejects 2 two (by decide) with ⟨err, retval', done, failed⟩
  rw [silent] at done
  cases done
  exact failed rfl

end Bridge
