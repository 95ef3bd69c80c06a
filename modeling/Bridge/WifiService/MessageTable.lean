import Bridge.Messages.Trailing
import Bridge.WifiService.Serializer

namespace Bridge

open Cbor

/-- A message as the generated encoders leave it, with any other pairs: a map of known length that
    begins with the key 0 and the id. -/
structure EncodedMessage where
  head : List UInt8
  body : List UInt8
  msgId : Nat
  entries : List (Item × Item)
  header : Head 5 (entries.length + 1) head
  inner : SpellsAll body (flat ((.int 0, .int msgId) :: entries))
  positive : 0 < msgId

def EncodedMessage.bytes (message : EncodedMessage) : List UInt8 := message.head ++ message.body

def EncodedMessage.items (message : EncodedMessage) : List Item := flat ((.int 0, .int message.msgId) :: message.entries)

def EncodedMessage.item (message : EncodedMessage) : Item := .map ((.int 0, .int message.msgId) :: message.entries)

/-- What the counters of the encoder, the ids of the table and the parser's recursion have room for. -/
structure EncodedMessage.Handled (message : EncodedMessage) : Prop where
  short : message.bytes.length < 2 ^ 31
  narrow : message.msgId < 2 ^ 31
  shallow : message.item.Within maxRecursions

theorem EncodedMessage.spells (message : EncodedMessage) : Spells message.bytes message.item :=
  .map message.header message.inner

/-- The cursor in the map of the message alone; wherever the message lies, it is entered alike. -/
structure EncodedMessage.Inside (message : EncodedMessage) (content : CborValue) : Prop where
  facing : Facing content message.body message.items []
  rest : content.rest = message.body
  enters : ∀ {it : CborValue} {more : List UInt8}, Prepared it → it.rest = message.bytes ++ more →
    it.type = .map ∧ enterContainer it = some (.noError, content.extend more)

theorem EncodedMessage.enters (message : EncodedMessage) (short : message.bytes.length < 2 ^ 31) :
    ∃ content, message.Inside content := by
  have long : message.items.length ≤ message.body.length := spellsAll_length message.inner
  rw [EncodedMessage.bytes, List.length_append] at short
  have pairs : message.items.length = (message.entries.length + 1) * 2 := by
    rw [EncodedMessage.items, flat_length, List.length_cons, Nat.mul_comm]
  have whole : uint32Max = 2 ^ 32 - 1 := rfl
  have few : message.items.length < uint32Max := by omega
  obtain ⟨content, done⟩ : ∃ content,
      preparseValue ⟨message.body, message.items.length, 0, .invalid, false, false, false⟩ = (.noError, content) := by
    generalize same : message.body = body
    have inner := message.inner
    rw [same] at inner
    cases inner with
    | cons first _ => exact preparseValue_spells rfl first
  obtain ⟨ready, rest, remaining⟩ := preparseValue_prepared done
  have some : message.items ≠ [] := by simp [EncodedMessage.items, flat]
  refine ⟨content, .counted ready some (by rw [rest, List.append_nil]) remaining few, rest, ?_⟩
  intro it more prepared start
  rw [EncodedMessage.bytes, List.append_assoc] at start
  have read := readHead_head (by decide) message.header (message.body ++ more)
  rw [← start] at read
  have counted := prepared_counted prepared read (by decide)
  have map : it.type = .map := counted.type
  have entered := enterContainer_counted (by simp [CborValue.isContainer, map]) counted.known
    (extractNumber_readHead read) (by omega) (fun _ => by omega)
  rw [if_pos (Nat.succ_ne_zero _), if_pos map, ← pairs] at entered
  have longer := preparseValue_extend more done
  have nonempty : message.body ++ more ≠ [] := by
    have filled : 0 < message.body.length := by omega
    simp [List.length_pos_iff.mp filled]
  rw [← longer, entered]
  exact ⟨map, congrArg Option.some (preparseValue_congr rfl rfl nonempty)⟩

theorem readMsgId_facing {content : CborValue} {body tail : List UInt8} {id : Nat} {items : List Item}
    (facing : Facing content body (.int 0 :: .int id :: items) tail)
    (spelled : SpellsAll body (.int 0 :: .int id :: items)) (positive : 0 < id) (narrow : id < 2 ^ 31) :
    readMsgId content = some (.ok id) := by
  cases spelled with
  | @cons keyBytes _ _ _ key others =>
    cases others with
    | @cons idBytes _ _ _ value others =>
      obtain ⟨prepared, more, after, start, onward⟩ := facing.next (.cons value others)
      obtain ⟨type, signed, _, _⟩ := cursor_int prepared start (scalar_of_int key)
      obtain ⟨next, moved, ahead⟩ := onward { content with rest := after } rfl rfl (by simp [type])
      obtain ⟨prepared', more', after', start', _⟩ := ahead.next others
      obtain ⟨type', signed', _, _⟩ := cursor_int prepared' start' (scalar_of_int value)
      have kept : Int.bmod (id : Int) (2 ^ 64) = id := Int.bmod_eq_of_le (by omega) (by omega)
      have zero : Int.bmod 0 (2 ^ 64) = 0 := rfl
      rw [kept] at signed'
      rw [zero] at signed
      rw [readMsgId, if_neg (by simp [type]), if_neg (by simp [signed]),
        advanceFixed_int prepared start (scalar_of_int key) more, moved, Option.map_some]
      simp only [ne_eq, not_true_eq_false, if_false, type', signed', if_neg (show ¬(id : Int) ≤ 0 by omega)]

theorem EncodedMessage.readMsgId (message : EncodedMessage) (narrow : message.msgId < 2 ^ 31) {content : CborValue}
    {tail : List UInt8} (facing : Facing content message.body message.items tail) :
    Bridge.readMsgId content = some (.ok message.msgId) :=
  readMsgId_facing facing message.inner message.positive narrow

theorem EncodedMessage.decodes_alone {Obj : Type} {message : EncodedMessage} {content : CborValue}
    (inside : message.Inside content) (format : Format Obj) (garbage : CborValue) (retval : Obj) (more : List UInt8) :
    format.loop ((content.extend more).rest.length + 1) (content.extend more) .noError retval =
      format.decodeAt 0 garbage message.bytes retval := by
  have long : message.items.length ≤ message.body.length := spellsAll_length message.inner
  have room : ∀ more, message.items.length < (content.extend more).rest.length + 1 := by
    intro more
    rw [extend_rest, inside.rest, List.length_append]
    omega
  obtain ⟨it, init⟩ : ∃ it, cborParserInit message.bytes = (.noError, it) :=
    preparseValue_spells (List.append_nil message.bytes).symm message.spells
  obtain ⟨prepared, rest, _⟩ := preparseValue_prepared init
  obtain ⟨map, entered⟩ := inside.enters prepared (rest.trans (List.append_nil message.bytes).symm)
  rw [decodeAt_zero, Format.decode, init]
  simp only [ne_eq, not_true_eq_false, if_false, openContent, map, if_true, entered, Option.bind_some]
  have enough : message.items.length < message.items.length + 1 := Nat.lt_succ_self _
  rw [loop_extend more format inside.facing message.inner enough (room more),
    loop_extend [] format inside.facing message.inner enough (room [])]

def tableBytes (messages : List EncodedMessage) : List UInt8 := messages.flatMap EncodedMessage.bytes

theorem tableBytes_spell (messages : List EncodedMessage) :
    SpellsAll (tableBytes messages) (messages.map EncodedMessage.item) := by
  induction messages with
  | nil => exact .nil
  | cons message rest ih => exact .cons message.spells ih

section Elements

variable {it : CborValue} {message : EncodedMessage} {rest : List EncodedMessage} {tail : List UInt8}

theorem element_step (handled : message.Handled)
    (facing : Facing it (tableBytes (message :: rest)) ((message :: rest).map EncodedMessage.item) tail) :
    it.type = .map ∧ ∃ content more next, message.Inside content ∧
      enterContainer it = some (.noError, content.extend more) ∧ advance it = some (.noError, next) ∧
      Facing next (tableBytes rest) (rest.map EncodedMessage.item) tail := by
  obtain ⟨content, inside⟩ := message.enters handled.short
  obtain ⟨prepared, some, more, start, onward⟩ := facing.next (tableBytes_spell rest)
  obtain ⟨map, entered⟩ := inside.enters prepared start
  have untagged : ∀ tag inner, message.item ≠ .tagged tag inner := fun tag inner same => by cases same
  have whole : uint32Max = 2 ^ 32 - 1 := rfl
  have short := handled.short
  obtain ⟨bare, moved⟩ := advance_spells message.spells untagged handled.shallow (by omega) prepared some start
  obtain ⟨next, done, ahead⟩ := onward { it with rest := more } rfl rfl bare.1
  rw [done] at moved
  exact ⟨map, content, more, next, inside, entered, moved, ahead⟩

end Elements

variable {messages : List EncodedMessage}

theorem enterElements_reaches (handled : ∀ message ∈ messages, message.Handled) {it : CborValue} {tail : List UInt8}
    (facing : Facing it (tableBytes messages) (messages.map EncodedMessage.item) tail) (garbage : CborValue) {i : Nat}
    (within : i < messages.length) :
    ∃ content more, messages[i].Inside content ∧
      enterElements (i + 1) it garbage = some (.noError, content.extend more) := by
  induction messages generalizing it i garbage with
  | nil => exact absurd within (Nat.not_lt_zero i)
  | cons message rest ih =>
    rw [List.forall_mem_cons] at handled
    obtain ⟨_, content, more, next, inside, entered, moved, ahead⟩ := element_step handled.1 facing
    have round : enterElements (i + 1) it garbage = enterElements i next (content.extend more) := by
      rw [enterElements, entered, Option.bind_some]
      simp only [ne_eq, not_true_eq_false, if_false, moved, Option.bind_some]
    rw [round]
    cases i with
    | zero => exact ⟨content, more, inside, rfl⟩
    | succ i => exact ih handled.2 ahead (content.extend more) (Nat.lt_of_succ_lt_succ within)

def idsOf (messages : List EncodedMessage) : List Int := messages.map fun message => (message.msgId : Int)

theorem storeId_fits {ids old post : List Int} {slot : Int} {id : Nat} (narrow : id < 2 ^ 31) :
    storeId (ids ++ slot :: (old ++ post)) ids.length id = some (ids ++ (id : Int) :: (old ++ post)) := by
  have kept : Int.bmod (id : Int) (2 ^ 32) = id := Int.bmod_eq_of_le (by omega) (by omega)
  rw [storeId, if_pos (by simp), kept]
  simp

theorem decodeElementIds_stores (handled : ∀ message ∈ messages, message.Handled) {it : CborValue} {tail : List UInt8}
    (facing : Facing it (tableBytes messages) (messages.map EncodedMessage.item) tail) (ids : List Int)
    {old : List Int} (room : old.length = messages.length) (post : List Int) :
    decodeElementIds messages.length ids.length it (ids ++ old ++ post) =
      some (.noError, ids ++ idsOf messages ++ post) := by
  induction messages generalizing it ids old with
  | nil =>
    rw [List.length_eq_zero_iff.mp room]
    rfl
  | cons message rest ih =>
    rw [List.forall_mem_cons] at handled
    obtain ⟨map, content, more, next, inside, entered, moved, ahead⟩ := element_step handled.1 facing
    obtain ⟨slot, old, rfl⟩ := List.exists_cons_of_length_eq_add_one room
    have read := message.readMsgId handled.1.narrow (inside.facing.extend more)
    have stored := @storeId_fits ids old post slot message.msgId handled.1.narrow
    have onward := ih handled.2 ahead (ids ++ [(message.msgId : Int)]) (Nat.succ.inj room)
    rw [List.length_append, List.length_singleton] at onward
    rw [List.length_cons, decodeElementIds, if_neg (by simp [map]), entered, Option.bind_some]
    simp only [ne_eq, not_true_eq_false, if_false, read, Option.bind_some, List.append_assoc, List.cons_append, stored,
      moved]
    simp only [List.append_assoc, List.cons_append, List.nil_append] at onward
    rw [onward]
    rfl

theorem storeBytes_fits {bytes written old post : List UInt8} (room : old.length = bytes.length) :
    storeBytes (written ++ old ++ post) written.length bytes = some (written ++ bytes ++ post) := by
  induction bytes generalizing written old with
  | nil =>
    rw [List.length_eq_zero_iff.mp room]
    rfl
  | cons byte bytes ih =>
    obtain ⟨slot, old, rfl⟩ := List.exists_cons_of_length_eq_add_one room
    have onward := @ih (written ++ [byte]) old (Nat.succ.inj room)
    rw [List.length_append, List.length_singleton] at onward
    have stored : (written ++ slot :: old ++ post).set written.length byte = written ++ [byte] ++ old ++ post := by simp
    rw [storeBytes, if_pos (by simp), stored, onward, List.append_assoc written [byte] bytes,
      List.singleton_append]

theorem copyObjects_fits (short : ∀ message ∈ messages, message.bytes.length < 2 ^ 31) {written old : List UInt8}
    (room : old.length = (tableBytes messages).length) :
    copyObjects (written ++ old) written.length (messages.map EncodedMessage.bytes) =
      some (written ++ tableBytes messages) := by
  induction messages generalizing written old with
  | nil =>
    rw [List.length_eq_zero_iff.mp room]
    rfl
  | cons message rest ih =>
    rw [List.forall_mem_cons] at short
    rw [tableBytes, List.flatMap_cons, List.length_append] at room
    have split : old = old.take message.bytes.length ++ old.drop message.bytes.length := (List.take_append_drop _ _).symm
    have first : (old.take message.bytes.length).length = message.bytes.length := by
      rw [List.length_take]
      omega
    have others : (old.drop message.bytes.length).length = (tableBytes rest).length := by
      rw [List.length_drop, room]
      exact Nat.add_sub_cancel_left _ _
    have stored := @storeBytes_fits message.bytes written _ (old.drop message.bytes.length) first
    rw [List.append_assoc, ← split] at stored
    have onward := @ih short.2 (written ++ message.bytes) _ others
    rw [List.length_append] at onward
    rw [List.map_cons, copyObjects, copyObject, if_pos short.1, stored, Option.bind_some, onward]
    simp [tableBytes]

theorem sum_wraps (lens : List Nat) (sum : Nat) (fits : sum + lens.sum < 2 ^ 64) :
    lens.foldl (fun sum len => (sum + len) % 2 ^ 64) sum = sum + lens.sum := by
  induction lens generalizing sum with
  | nil => rfl
  | cons len lens ih =>
    rw [List.sum_cons] at fits ⊢
    rw [List.foldl_cons, Nat.mod_eq_of_lt (by omega), ih _ (by omega)]
    omega

theorem lengths_sum (messages : List EncodedMessage) :
    (messages.map fun message => message.bytes.length).sum = (tableBytes messages).length := by
  rw [tableBytes, List.length_flatMap]

theorem tableBytes_length (short : ∀ message ∈ messages, message.bytes.length < 2 ^ 31) :
    (tableBytes messages).length ≤ messages.length * 2 ^ 31 := by
  induction messages with
  | nil => exact Nat.zero_le _
  | cons message rest ih =>
    rw [List.forall_mem_cons] at short
    have others := ih short.2
    rw [tableBytes, List.flatMap_cons, List.length_append, List.length_cons]
    change message.bytes.length + (tableBytes rest).length ≤ _
    omega

/-- The table of several messages is an array of them, that of a single one is the message. -/
def tableOf : List EncodedMessage → List UInt8
  | [message] => message.bytes
  | messages => initial 4 messages.length :: tableBytes messages

theorem tableOf_several (several : 2 ≤ messages.length) :
    tableOf messages = initial 4 messages.length :: tableBytes messages := by
  match messages with
  | _ :: _ :: _ => rfl

theorem encode_single {message : EncodedMessage} (short : message.bytes.length < 2 ^ 31) {buffer : List UInt8}
    (room : buffer.length = message.bytes.length) :
    igEncodeObjects [message.bytes] buffer buffer.length = some (.noError, message.bytes) := by
  have stored := @storeBytes_fits message.bytes [] buffer [] room
  rw [List.nil_append, List.append_nil, List.nil_append, List.append_nil] at stored
  have copied : copyObject buffer 0 message.bytes = some message.bytes := by
    rw [copyObject, if_pos short]
    exact stored
  simp [igEncodeObjects, copied]

section Several

variable (several : 2 ≤ messages.length) (few : messages.length ≤ 23)

include several few

theorem calculate_several (short : ∀ message ∈ messages, message.bytes.length < 2 ^ 31) :
    igEncodeCalculateLength ((messages.map EncodedMessage.bytes).map List.length) = .ok (tableOf messages).length := by
  have lengths : (messages.map EncodedMessage.bytes).map List.length =
      messages.map fun message => message.bytes.length := List.map_map
  have bound := tableBytes_length short
  have sum := sum_wraps (messages.map fun message => message.bytes.length) 1 (by rw [lengths_sum]; omega)
  rw [igEncodeCalculateLength, lengths, List.length_map, if_neg (by omega), if_neg (by omega), sum, lengths_sum,
    tableOf_several several, List.length_cons, Nat.add_comm]

theorem encode_several (short : ∀ message ∈ messages, message.bytes.length < 2 ^ 31) {buffer : List UInt8}
    (room : buffer.length = (tableOf messages).length) :
    igEncodeObjects (messages.map EncodedMessage.bytes) buffer buffer.length = some (.noError, tableOf messages) := by
  have calculated := calculate_several several few short
  rw [tableOf_several several] at room ⊢
  obtain ⟨slot, old, rfl⟩ := List.exists_cons_of_length_eq_add_one room
  have copied := @copyObjects_fits messages short [initial 4 messages.length] old (Nat.succ.inj room)
  have first : storeBytes (slot :: old) 0 [UInt8.ofNat (0x80 + messages.length)] =
      some (initial 4 messages.length :: old) := rfl
  rw [igEncodeObjects, List.length_map, if_neg (by omega), if_neg (by omega), calculated, room, first]
  simp only [tableOf_several several, List.length_cons, ne_eq, not_true_eq_false, if_false, Option.bind_some]
  simp only [List.singleton_append, List.length_singleton] at copied
  rw [copied]
  rfl

theorem several_root : ∃ it first, cborParserInit (tableOf messages) = (.noError, it) ∧ it.type = .array ∧
    getArrayLength it = .ok messages.length ∧ enterContainer it = some (.noError, first) ∧
    Facing first (tableBytes messages) (messages.map EncodedMessage.item) [] := by
  have header : Head 4 messages.length [initial 4 messages.length] := .direct (by omega)
  have start : tableOf messages = [initial 4 messages.length] ++ (tableBytes messages ++ []) := by
    rw [tableOf_several several, List.append_nil]
    rfl
  have read := readHead_head (by decide) header (tableBytes messages ++ [])
  rw [← start] at read
  obtain ⟨it, init, counted⟩ := @preparseValue_counted ⟨tableOf messages, 1, 0, .invalid, false, false, false⟩ _ _ _
    read (by decide)
  obtain ⟨prepared, rest, _⟩ := preparseValue_prepared init
  have whole : uint32Max = 2 ^ 32 - 1 := rfl
  have items : (messages.map EncodedMessage.item).length = messages.length := List.length_map _
  obtain ⟨type, first, entered, facing⟩ := enter_counted (.inl rfl) header (tableBytes_spell messages) (by simp)
    (by omega) prepared (rest.trans start)
  refine ⟨it, first, init, type, ?_, entered, facing⟩
  rw [getArrayLength, if_neg (by simp [counted.known]), counted.value]

end Several

structure ReadsBack (messages : List EncodedMessage) (table : List UInt8) : Prop where
  payloadLength : igGetPayloadLength table = .ok messages.length
  msgIds : ∀ retval : List Int, messages.length ≤ retval.length →
    igDecodeMsgIds table retval = some (.noError, idsOf messages ++ retval.drop messages.length)
  decodes : ∀ {Obj : Type} (format : Format Obj) (i : Nat) (within : i < messages.length) (garbage garbage' : CborValue)
    (retval : Obj), format.decodeAt i garbage table retval = format.decodeAt 0 garbage' messages[i].bytes retval

theorem single_readsBack {message : EncodedMessage} (handled : message.Handled) :
    ReadsBack [message] message.bytes := by
  obtain ⟨content, inside⟩ := message.enters handled.short
  obtain ⟨it, init⟩ : ∃ it, cborParserInit message.bytes = (.noError, it) :=
    preparseValue_spells (List.append_nil message.bytes).symm message.spells
  obtain ⟨prepared, rest, _⟩ := preparseValue_prepared init
  obtain ⟨map, entered⟩ := inside.enters prepared (rest.trans (List.append_nil message.bytes).symm)
  constructor
  · simp [igGetPayloadLength, init, map]
  · intro retval room
    obtain ⟨slot, old, rfl⟩ := List.exists_cons_of_length_pos (Nat.lt_of_lt_of_le Nat.zero_lt_one room)
    have read := message.readMsgId handled.narrow (inside.facing.extend [])
    have stored := @storeId_fits [] [] old slot message.msgId handled.narrow
    simp only [List.nil_append, List.length_nil] at stored
    simp [igDecodeMsgIds, init, map, entered, read, stored, idsOf]
  · intro Obj format i within garbage garbage' retval
    obtain rfl : i = 0 := Nat.lt_one_iff.mp within
    have alone := EncodedMessage.decodes_alone inside format garbage' retval []
    rw [List.getElem_cons_zero, ← alone, Format.decodeAt, init]
    simp only [ne_eq, not_true_eq_false, if_false, openElement, map, if_true, entered, Option.bind_some]

theorem several_readsBack (several : 2 ≤ messages.length) (few : messages.length ≤ 23)
    (handled : ∀ message ∈ messages, message.Handled) : ReadsBack messages (tableOf messages) := by
  obtain ⟨it, first, init, array, length, entered, facing⟩ := several_root several few
  have noMap : ¬it.type = .map := by simp [array]
  constructor
  · simp [igGetPayloadLength, init, array, length, Except.mapError]
  · intro retval room
    have slots : (retval.take messages.length).length = messages.length := by
      rw [List.length_take]
      omega
    have stored := decodeElementIds_stores handled facing [] slots (retval.drop messages.length)
    rw [List.nil_append, List.nil_append, List.take_append_drop, List.length_nil] at stored
    simp only [igDecodeMsgIds, init, ne_eq, not_true_eq_false, if_false, array, if_true, length, entered,
      Option.bind_some, if_neg (Nat.not_lt.mpr room), gt_iff_lt, stored]
    rfl
  · intro Obj format i within garbage garbage' retval
    obtain ⟨content, more, inside, reached⟩ := enterElements_reaches handled facing garbage within
    have opened : openElement i garbage it = some (.noError, content.extend more) := by
      rw [openElement, if_neg noMap, if_pos array, entered, Option.bind_some]
      exact reached
    rw [← EncodedMessage.decodes_alone inside format garbage' retval more, Format.decodeAt, init]
    simp only [ne_eq, not_true_eq_false, if_false, opened, Option.bind_some]

/-- Messages that the counters, the ids and the parser have room for go into a table and come back out
    of it. -/
theorem table_round_trip (messages : List EncodedMessage) (some' : 1 ≤ messages.length) (few : messages.length ≤ 23)
    (handled : ∀ message ∈ messages, message.Handled) : ∃ size,
    igEncodeCalculateLength ((messages.map EncodedMessage.bytes).map List.length) = .ok size ∧
    ∀ buffer : List UInt8, buffer.length = size → ∃ table,
      igEncodeObjects (messages.map EncodedMessage.bytes) buffer size = some (.noError, table) ∧
      table.length = size ∧ ReadsBack messages table := by
  have short : ∀ message ∈ messages, message.bytes.length < 2 ^ 31 := fun message member => (handled message member).short
  by_cases several : 2 ≤ messages.length
  · refine ⟨_, calculate_several several few short, ?_⟩
    intro buffer room
    rw [← room]
    exact ⟨_, encode_several several few short room, room.symm, several_readsBack several few handled⟩
  · obtain ⟨message, rfl⟩ := List.length_eq_one_iff.mp (by omega : messages.length = 1)
    have fits := handled message (List.mem_singleton_self message)
    refine ⟨message.bytes.length, rfl, ?_⟩
    intro buffer room
    rw [← room]
    exact ⟨_, encode_single fits.short room, room.symm, single_readsBack fits⟩

/-- The message {0: 5}. -/
def smallMessage : EncodedMessage where
  head := [initial 5 1]
  body := [initial 0 0] ++ ([initial 0 5] ++ [])
  msgId := 5
  entries := []
  header := .direct (by decide)
  inner := .cons (@Spells.natural 0 _ (.direct (by decide))) (.cons (@Spells.natural 5 _ (.direct (by decide))) .nil)
  positive := by decide

/-- The message {0: 6, 1: [[]]}. -/
def listMessage : EncodedMessage where
  head := [initial 5 2]
  body := [initial 0 0] ++ ([initial 0 6] ++ ([initial 0 1] ++ (nestedBytes 1 ++ [])))
  msgId := 6
  entries := [(.int 1, nestedItem 1)]
  header := .direct (by decide)
  inner := .cons (@Spells.natural 0 _ (.direct (by decide))) (.cons (@Spells.natural 6 _ (.direct (by decide)))
    (.cons (@Spells.natural 1 _ (.direct (by decide))) (.cons (nested_spells 1) .nil)))
  positive := by decide

theorem smallMessage_handled : smallMessage.Handled where
  short := by decide
  narrow := by decide
  shallow := .map (by
    intro item member
    change item ∈ [Item.int 0, .int 5] at member
    rcases List.mem_pair.mp member with rfl | rfl
    · exact .int _
    · exact .int _)

theorem listMessage_handled : listMessage.Handled where
  short := by decide
  narrow := by decide
  shallow := .map (by
    intro item member
    change item ∈ [Item.int 0, .int 6, .int 1, nestedItem 1] at member
    simp only [List.mem_cons, List.not_mem_nil, or_false] at member
    rcases member with rfl | rfl | rfl | rfl
    · exact .int _
    · exact .int _
    · exact .int _
    · exact .array fun item inner => by
        rw [List.mem_singleton.mp inner]
        exact .array fun item none => absurd none List.not_mem_nil)

theorem table_round_trip_two : ∃ size,
    igEncodeCalculateLength [3, 6] = .ok size ∧ ∀ buffer : List UInt8, buffer.length = size → ∃ table,
      igEncodeObjects [[0xa1, 0x00, 0x05], [0xa2, 0x00, 0x06, 0x01, 0x81, 0x80]] buffer size = some (.noError, table) ∧
      table.length = size ∧ ReadsBack [smallMessage, listMessage] table :=
  table_round_trip [smallMessage, listMessage] (by decide) (by decide) (by
    intro message member
    rcases List.mem_pair.mp member with rfl | rfl
    · exact smallMessage_handled
    · exact listMessage_handled)

/-- The message {0: 2147483648}, whose id is no `int32_t`. -/
def wideIdMessage : EncodedMessage where
  head := [initial 5 1]
  body := [initial 0 0] ++ (numberBytes 2147483648 0 ++ [])
  msgId := 2147483648
  entries := []
  header := .direct (by decide)
  inner := .cons (@Spells.natural 0 _ (.direct (by decide))) (.cons (.natural (numberBytes_head (by decide))) .nil)
  positive := by decide

/-- The message {0: 1, 1: x}. -/
def messageOf {bytes : List UInt8} {item : Item} (spelled : Spells bytes item) : EncodedMessage where
  head := [initial 5 2]
  body := [initial 0 0] ++ ([initial 0 1] ++ ([initial 0 1] ++ (bytes ++ [])))
  msgId := 1
  entries := [(.int 1, item)]
  header := .direct (by simp)
  inner := .cons (@Spells.natural 0 _ (.direct (by decide))) (.cons (@Spells.natural 1 _ (.direct (by decide)))
    (.cons (@Spells.natural 1 _ (.direct (by decide))) (.cons spelled .nil)))
  positive := by decide

theorem messageOf_length {bytes : List UInt8} {item : Item} (spelled : Spells bytes item) :
    (messageOf spelled).bytes.length = bytes.length + 4 := by
  simp only [EncodedMessage.bytes, messageOf, List.length_append, List.length_cons, List.length_nil]
  omega

theorem nested_refused {it content : CborValue} {more : List UInt8} (prepared : Prepared it)
    (start : it.rest = (messageOf (nested_spells 1023)).bytes ++ more)
    (inside : (messageOf (nested_spells 1023)).Inside content) :
    ∃ last, advanceRecursive (2 * it.rest.length + 2) it 0 = some (.nestingTooDeep, last) := by
  obtain ⟨map, entered⟩ := inside.enters prepared start
  have facing := inside.facing.extend more
  have size := congrArg List.length start
  have whole : (messageOf (nested_spells 1023)).bytes.length = 1028 := by rw [messageOf_length, nestedBytes_length]
  rw [List.length_append, whole] at size
  obtain ⟨fuel, same⟩ : ∃ n, 2 * it.rest.length + 2 = n + 1 + 1 + 1 + 1 + 1 + 1 := ⟨2 * it.rest.length - 4, by omega⟩
  have one : SpellsAll (nestedBytes 1023 ++ []) [nestedItem 1023] := .cons (nested_spells 1023) .nil
  obtain ⟨second, facing, first⟩ := advanceItems_int (@Spells.natural 0 _ (.direct (by decide)))
    (.cons (@Spells.natural 1 _ (.direct (by decide))) (.cons (@Spells.natural 1 _ (.direct (by decide))) one)) facing
  obtain ⟨third, facing, next⟩ := advanceItems_int (@Spells.natural 1 _ (.direct (by decide)))
    (.cons (@Spells.natural 1 _ (.direct (by decide))) one) facing
  obtain ⟨fourth, facing, next'⟩ := advanceItems_int (@Spells.natural 1 _ (.direct (by decide))) one facing
  obtain ⟨prepared', some, after, start', _⟩ := facing.next .nil
  obtain ⟨stuck, refused⟩ := @advance_nested fourth _ 1023 1 fuel prepared' start' (by decide) (by decide) (by omega)
  rw [same]
  refine ⟨it, advanceRecursive_refused (by simp [CborValue.isContainer, map]) (by simp [map, isFixedType]) (by decide)
    entered ?_ (by decide)⟩
  rw [first, next, next']
  exact advanceItems_refused some refused (by decide)

theorem unread_behind {message : EncodedMessage} (other : EncodedMessage) (short : message.bytes.length < 2 ^ 31)
    (narrow : message.msgId < 2 ^ 31)
    (stuck : ∀ it content more, Prepared it → it.rest = message.bytes ++ more → message.Inside content →
      ∃ last, advanceRecursive (2 * it.rest.length + 2) it 0 = some (.nestingTooDeep, last)) :
    ∃ ids, igDecodeMsgIds (tableOf [message, other]) [0, 0] = some (.cbor .nestingTooDeep, ids) := by
  obtain ⟨it, first, init, array, length, entered, facing⟩ := @several_root [message, other] (by simp) (by simp)
  obtain ⟨content, inside⟩ := EncodedMessage.enters _ short
  obtain ⟨prepared, some, more, start, _⟩ := facing.next (tableBytes_spell [other])
  obtain ⟨map, within⟩ := inside.enters prepared start
  obtain ⟨last, refused⟩ := stuck first content _ prepared start inside
  have read := EncodedMessage.readMsgId _ narrow (inside.facing.extend more)
  have moved : advance first = Option.some (.nestingTooDeep, last) := by
    rw [advance, if_neg (by simp [map]), if_neg some, refused]
  have stored : storeId [0, 0] 0 message.msgId = Option.some [(message.msgId : Int), 0] := @storeId_fits [] [0] [] 0 _ narrow
  have elements : decodeElementIds 2 0 first [0, 0] = Option.some (.cbor .nestingTooDeep, [(message.msgId : Int), 0]) := by
    rw [decodeElementIds, if_neg (by simp [map]), within, Option.bind_some]
    simp only [ne_eq, not_true_eq_false, if_false, read, Option.bind_some, stored, moved, reduceCtorEq, not_false_eq_true,
      if_true]
  refine ⟨[(message.msgId : Int), 0], ?_⟩
  simp only [List.length_cons, List.length_nil] at length
  simp only [igDecodeMsgIds, init, ne_eq, not_true_eq_false, if_false, array, if_true, length, entered, Option.bind_some,
    List.length_cons, List.length_nil, gt_iff_lt, Nat.lt_irrefl, elements, reduceCtorEq]

theorem nested_unread : ∃ ids,
    igDecodeMsgIds (tableOf [messageOf (nested_spells 1023), smallMessage]) [0, 0] = some (.cbor .nestingTooDeep, ids) := by
  apply unread_behind
  · rw [messageOf_length, nestedBytes_length]
    decide
  · exact (by decide : 1 < 2 ^ 31)
  · intro it content more prepared start inside
    exact nested_refused prepared start inside

theorem long_uncopied {message : EncodedMessage} (long : 2 ^ 31 ≤ message.bytes.length) (buffer : List UInt8) :
    igEncodeObjects [message.bytes] buffer buffer.length = none := by
  have uncopied : copyObject buffer 0 message.bytes = none := by rw [copyObject, if_neg (by omega)]
  simp [igEncodeObjects, uncopied]

/-- The id 2^31 comes back negative, a message of 1025 maps and arrays inside one another stops the
    reading of the ids, and one of 2^31 bytes and more overflows the counter of the encoder. -/
theorem table_limits :
    igDecodeMsgIds (tableOf [wideIdMessage]) [0] = some (.noError, [-2147483648]) ∧
    (∃ ids, igDecodeMsgIds (tableOf [messageOf (nested_spells 1023), smallMessage]) [0, 0] =
      some (.cbor .nestingTooDeep, ids)) ∧
    ∃ message : EncodedMessage, message.item = .map [(.int 0, .int 1), (.int 1, .bytes (List.replicate (2 ^ 31) 0))] ∧
      ∀ buffer : List UInt8, igEncodeObjects [message.bytes] buffer buffer.length = none := by
  refine ⟨by decide, nested_unread, ?_⟩
  have size : (List.replicate (2 ^ 31) (0 : UInt8)).length = 2 ^ 31 := List.length_replicate
  have header : Head 2 (List.replicate (2 ^ 31) (0 : UInt8)).length (numberBytes (2 ^ 31) 2) := by
    rw [size]
    exact numberBytes_head (by decide)
  refine ⟨messageOf (.bytes header), rfl, ?_⟩
  apply long_uncopied
  rw [messageOf_length, List.length_append, size]
  omega

end Bridge
