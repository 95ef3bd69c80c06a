import Bridge.Cbor.Cursor

namespace Bridge

open ByteCounter Cbor

theorem preparseValue_unknown {it : CborValue} {major : Nat} {tail : List UInt8} (low : 2 ≤ major) (high : major ≤ 5)
    (start : it.rest = initial major 31 :: tail) : preparseValue it =
      (.noError, ⟨it.rest, it.remaining, 31, CborValue.kind major, false, false, true⟩) := by
  interval_cases major
  all_goals simp [preparseValue, start, initial, CborValue.kind, isFixedType]

def CborType.Bare (type : CborType) : Prop := type ≠ .tag ∧ type ≠ .invalid

theorem preparseSimple_accepts {it : CborValue} (simple : it.type = .simple) {descriptor next : Nat}
    (legal : descriptor = 24 → 32 ≤ next) : (preparseSimple it descriptor next).1 = .noError ∧
      isFixedType (preparseSimple it descriptor next).2.type = true ∧
      (preparseSimple it descriptor next).2.type.Bare := by
  unfold preparseSimple CborType.Bare
  split
  case h_5 =>
    rw [if_neg (Nat.not_lt.mpr (legal rfl))]
    simp [simple, isFixedType]
  all_goals simp [simple, isFixedType]

theorem preparseValue_simple {it : CborValue} {descriptor : Nat} {tail : List UInt8}
    (start : it.rest = initial 7 descriptor :: tail) (low : descriptor ≤ 27)
    (enough : 24 ≤ descriptor → 2 ^ (descriptor - 24) ≤ tail.length)
    (legal : descriptor = 24 → 32 ≤ number (tail.take 1)) :
    ∃ it', preparseValue it = (.noError, it') ∧ isFixedType it'.type = true ∧ it'.type.Bare := by
  obtain ⟨upper, lower⟩ := initial_major (by decide : 7 < 8) (by omega : descriptor < 32)
  have long : ¬(descriptor ≥ 24 ∧ tail.length < 2 ^ (descriptor - 24)) := by
    rintro ⟨wide, short⟩
    have room := enough wide
    omega
  obtain ⟨accepts, plain⟩ := @preparseSimple_accepts ⟨it.rest, it.remaining, descriptor, .simple, false, false, false⟩
    rfl _ _ legal
  rw [start] at plain accepts
  simp only [preparseValue, start, upper, lower, if_neg (Nat.not_lt.mpr low), if_neg long, CborValue.kind, if_true]
  exact ⟨_, Prod.ext accepts rfl, plain⟩

theorem take_one_number (value : UInt8) (tail : List UInt8) : number ((value :: tail).take 1) = value.toNat := by
  simp [number]

/-- Simple values and floats. -/
inductive Floating : List UInt8 → Prop
  | simple {value : Nat} (small : value < 24) : Floating [initial 7 value]
  | wideSimple {value : UInt8} (large : 32 ≤ value.toNat) : Floating [initial 7 24, value]
  | float {k : Nat} {bits : List UInt8} (width : 1 ≤ k ∧ k ≤ 3) (sized : bits.length = 2 ^ k) :
      Floating (initial 7 (24 + k) :: bits)

theorem preparseValue_floating {it : CborValue} {bytes tail : List UInt8} (floating : Floating bytes)
    (start : it.rest = bytes ++ tail) :
    (∃ it', preparseValue it = (.noError, it') ∧ isFixedType it'.type = true ∧ it'.type.Bare) ∧ ∃ n, extractNumber it.rest = .ok (n, tail) := by
  have read : ∀ {n : Nat}, Head 7 n bytes → ∃ n, extractNumber it.rest = .ok (n, tail) := by
    intro n header
    rw [start]
    exact ⟨n, extractNumber_readHead (readHead_head (by decide) header tail)⟩
  cases floating with
  | simple small =>
    exact ⟨preparseValue_simple start (by omega) (fun wide => by omega) (fun wide => by omega), read (simple_head small)⟩
  | @wideSimple value large =>
    refine ⟨preparseValue_simple start (by decide) ?_ ?_, read (wideSimple_head value)⟩
    · intro _
      simp
    · intro _
      show 32 ≤ number ((value :: tail).take 1)
      rw [take_one_number]
      exact large
  | float width sized =>
    refine ⟨preparseValue_simple start (by omega) ?_ ?_, read (float_head width.2 sized)⟩
    · intro _
      show _ ≤ (_ ++ tail).length
      rw [Nat.add_sub_cancel_left, List.length_append, sized]
      exact Nat.le_add_right _ _
    · intro narrow
      omega

theorem preparseValue_spells {it : CborValue} {bytes tail : List UInt8} {item : Item}
    (start : it.rest = bytes ++ tail) (spelled : Spells bytes item) : ∃ it', preparseValue it = (.noError, it') := by
  have counted : ∀ {major n : Nat} {head after : List UInt8} (_ : major < 7) (_ : Head major n head)
      (_ : it.rest = head ++ after), ∃ it', preparseValue it = (.noError, it') := by
    intro major n head after kind header start
    have read := readHead_head (by omega) header after
    rw [← start] at read
    obtain ⟨it', done, _⟩ := preparseValue_counted read (by omega)
    exact ⟨it', done⟩
  have floating : Floating bytes → ∃ it', preparseValue it = (.noError, it') := by
    intro floating
    obtain ⟨⟨it', done, _⟩, _⟩ := preparseValue_floating floating start
    exact ⟨it', done⟩
  cases spelled with
  | natural header | negative header => exact counted (by decide) header start
  | bytes header | text header | array header _ | map header _ | tagged header _ =>
    rw [List.append_assoc] at start
    exact counted (by decide) header start
  | openBytes _ | openText _ | openArray _ | openMap _ =>
    exact ⟨_, preparseValue_unknown (by decide) (by decide) start⟩
  | simple small => exact floating (.simple small)
  | wideSimple large => exact floating (.wideSimple large)
  | float width sized => exact floating (.float width sized)

theorem spells_noBreak {bytes : List UInt8} {item : Item} (spelled : Spells bytes item) (more : List UInt8) :
    ¬(bytes ++ more).head? = some breakByte := by
  obtain ⟨byte, _, rfl, noBreak, _⟩ := spells_first spelled
  intro same
  exact noBreak (Option.some.inj same)

theorem stringChunks_chunks {major : Nat} (string : major = 2 ∨ major = 3) {chunks content : List UInt8}
    (inner : Chunks major chunks content) {total fuel : Nat} (tail : List UInt8)
    (small : total + content.length < 2 ^ 64) (enough : chunks.length < fuel) :
    stringChunks (CborValue.kind major) fuel (chunks ++ breakByte :: tail) total = .ok (content, tail) := by
  induction inner generalizing total fuel with
  | nil =>
    obtain ⟨fuel, rfl⟩ : ∃ n, fuel = n + 1 := ⟨fuel - 1, by omega⟩
    simp [stringChunks]
  | @cons head chunk bytes content header rest ih =>
    obtain ⟨fuel, rfl⟩ : ∃ n, fuel = n + 1 := ⟨fuel - 1, by omega⟩
    obtain ⟨first, others, rfl, upper, _⟩ := head_first (by omega) header
    have noBreak : first ≠ breakByte := by
      rintro rfl
      have byte : breakByte.toNat = 255 := rfl
      omega
    have read := extractNumber_readHead (readHead_head (by omega) header (chunk ++ (bytes ++ breakByte :: tail)))
    simp only [List.length_append, List.length_cons] at small enough
    have after := @ih (total + chunk.length) fuel (by omega) (by omega)
    have room : ¬chunk.length > (chunk ++ (bytes ++ breakByte :: tail)).length := by
      rw [List.length_append]
      omega
    have sum : ¬total + chunk.length ≥ 2 ^ 64 := by omega
    simp only [List.cons_append, List.append_assoc] at read ⊢
    simp only [stringChunks, if_neg noBreak, upper, ne_eq, not_true_eq_false, if_false, read, if_neg sum, if_neg room,
      List.drop_left, List.take_left, after, Except.map]

section Skipping

variable {it : CborValue} {tail : List UInt8} (fuel nestingLevel : Nat)

theorem advanceRecursive_number {n : Nat} (fixed : isFixedType it.type = true)
    (read : extractNumber it.rest = .ok (n, tail)) :
    advanceRecursive (fuel + 1) it nestingLevel = some (preparseNextValue { it with rest := tail }) := by
  rw [advanceRecursive, if_pos fixed, advanceInternal, read]

theorem advanceRecursive_string {content : List UInt8} (string : it.type = .byteString ∨ it.type = .textString)
    (chunks : iterateStringChunks it = .ok (content, tail)) :
    advanceRecursive (fuel + 1) it nestingLevel = some (preparseNextValue { it with rest := tail }) := by
  have varies : isFixedType it.type = false ∧ it.isContainer = false := by
    rcases string with type | type
    · simp [type, isFixedType, CborValue.isContainer]
    · simp [type, isFixedType, CborValue.isContainer]
  rw [advanceRecursive, if_neg (by simp [varies.1]), if_pos (by simp [varies.2]), copyString, chunks]

end Skipping

/-- The cursor stands before these items, the rest of a container; its count ends with them, or the
    break comes behind them. -/
inductive Facing : CborValue → List UInt8 → List Item → List UInt8 → Prop
  | ended {it : CborValue} (ended : it.remaining = 0) (closed : it.type = .invalid) : Facing it [] [] it.rest
  | counted {it : CborValue} {body tail : List UInt8} {items : List Item} (prepared : Prepared it) (more : items ≠ [])
      (start : it.rest = body ++ tail) (count : it.remaining = items.length) (few : items.length < uint32Max) :
      Facing it body items tail
  | opened {it : CborValue} {body tail : List UInt8} {items : List Item} (prepared : Prepared it) (more : items ≠ [])
      (start : it.rest = body ++ breakByte :: tail) (unbounded : it.remaining = uint32Max) : Facing it body items tail

section Facing

variable {it : CborValue} {bytes body tail : List UInt8} {item : Item} {items : List Item}

theorem Facing.next (facing : Facing it (bytes ++ body) (item :: items) tail) (others : SpellsAll body items) :
    Prepared it ∧ it.remaining ≠ 0 ∧ ∃ more, it.rest = bytes ++ more ∧
      ∀ cursor : CborValue, cursor.rest = more → cursor.remaining = it.remaining → cursor.type ≠ .tag →
        ∃ it', preparseNextValue cursor = (.noError, it') ∧ Facing it' body items tail := by
  have onward : ∀ {cursor : CborValue} {second : Item} {rest : List Item} {after : List UInt8},
      SpellsAll body (second :: rest) → cursor.rest = body ++ after → ∃ it', preparseValue cursor = (.noError, it') := by
    intro cursor second rest after spelled start
    cases spelled with
    | cons first _ =>
      rw [List.append_assoc] at start
      exact preparseValue_spells start first
  generalize whole : bytes ++ body = spelled at facing
  generalize all : item :: items = listed at facing
  cases facing with
  | ended _ _ => cases all
  | counted prepared more start count few =>
    subst whole all
    rw [List.append_assoc] at start
    rw [List.length_cons] at count few
    refine ⟨prepared, by omega, body ++ tail, start, ?_⟩
    intro cursor rest remaining plain
    rw [preparseNextValue, if_pos (by omega), if_pos plain]
    cases items with
    | nil =>
      cases others
      refine ⟨_, if_pos (by rw [remaining, count]; rfl), ?_⟩
      subst rest
      exact .ended rfl rfl
    | cons second others' =>
      rw [List.length_cons] at count few
      rw [if_neg (by omega)]
      obtain ⟨it', done⟩ := @onward { cursor with remaining := cursor.remaining - 1 } _ _ tail others rest
      obtain ⟨ready, rest', remaining'⟩ := preparseValue_prepared done
      refine ⟨it', done, .counted ready (by simp) (rest'.trans rest) ?_ (by rw [List.length_cons]; omega)⟩
      rw [remaining', remaining, count]
      rfl
  | opened prepared more start unbounded =>
    subst whole all
    rw [List.append_assoc] at start
    refine ⟨prepared, by rw [unbounded]; decide, body ++ breakByte :: tail, start, ?_⟩
    intro cursor rest remaining plain
    rw [preparseNextValue, if_neg (by simp [remaining, unbounded])]
    cases items with
    | nil =>
      cases others
      refine ⟨_, if_pos (by rw [rest]; rfl), ?_⟩
      have after : cursor.rest.tail = tail := by
        rw [rest]
        rfl
      subst after
      exact .ended rfl rfl
    | cons second others' =>
      obtain ⟨it', done⟩ := onward others rest
      obtain ⟨ready, rest', remaining'⟩ := preparseValue_prepared done
      have noBreak : ¬cursor.rest.head? = some breakByte := by
        cases others with
        | cons first _ =>
          rw [rest, List.append_assoc]
          exact spells_noBreak first _
      exact ⟨it', by rw [if_neg noBreak, done], .opened ready (by simp) (rest'.trans rest)
        (by rw [remaining', remaining, unbounded])⟩

theorem Facing.untag {tag : Nat} {head : List UInt8} (header : Head 6 tag head) (inner : Spells bytes item)
    (facing : Facing it (head ++ bytes ++ body) (.tagged tag item :: items) tail) (fuel nestingLevel : Nat) :
    ∃ it', advanceRecursive (fuel + 1) it nestingLevel = some (.noError, it') ∧
      Facing it' (bytes ++ body) (item :: items) tail := by
  have step : ∀ {more : List UInt8}, Prepared it → it.rest = head ++ (bytes ++ more) →
      ∃ it', advanceRecursive (fuel + 1) it nestingLevel = some (.noError, it') ∧ Prepared it' ∧
        it'.rest = bytes ++ more ∧ it'.remaining = it.remaining := by
    intro more prepared start
    have read := readHead_head (by decide) header (bytes ++ more)
    rw [← start] at read
    have type : it.type = .tag := (prepared_counted prepared read (by decide)).type
    obtain ⟨it', done⟩ := @preparseValue_spells { it with rest := bytes ++ more } _ _ _ rfl inner
    obtain ⟨ready, rest, remaining⟩ := preparseValue_prepared done
    have moved : preparseNextValue { it with rest := bytes ++ more } = (.noError, it') := by
      by_cases unbounded : it.remaining = uint32Max
      · rw [preparseNextValue, if_neg (by simp [unbounded]), if_neg (spells_noBreak inner more), done]
      · rw [preparseNextValue, if_pos unbounded, if_neg (by simp [type]), done]
    rw [advanceRecursive_number fuel nestingLevel (by rw [type]; rfl) (extractNumber_readHead read), moved]
    exact ⟨it', rfl, ready, rest, remaining⟩
  generalize whole : head ++ bytes ++ body = spelled at facing
  generalize all : Item.tagged tag item :: items = listed at facing
  cases facing with
  | ended _ _ => cases all
  | counted prepared more start count few =>
    subst whole all
    simp only [List.append_assoc] at start
    obtain ⟨it', done, ready, rest, remaining⟩ := step prepared start
    exact ⟨it', done, .counted ready (by simp) (by rw [rest, List.append_assoc]) (remaining.trans count) few⟩
  | opened prepared more start unbounded =>
    subst whole all
    simp only [List.append_assoc] at start
    obtain ⟨it', done, ready, rest, remaining⟩ := step prepared start
    exact ⟨it', done, .opened ready (by simp) (by rw [rest, List.append_assoc]) (remaining.trans unbounded)⟩

theorem kind_isContainer {major : Nat} (container : major = 4 ∨ major = 5) (type : it.type = CborValue.kind major) :
    it.isContainer = true ∧ it.type.Bare ∧ isFixedType it.type = false ∧ (it.type = .map ↔ major = 5) := by
  rcases container with rfl | rfl
  · simp [CborType.Bare, CborValue.isContainer, type, CborValue.kind, isFixedType]
  · simp [CborType.Bare, CborValue.isContainer, type, CborValue.kind, isFixedType]

theorem enter_counted {major count : Nat} {head : List UInt8} (container : major = 4 ∨ major = 5)
    (header : Head major count head) (inner : SpellsAll body items)
    (sized : items.length = if major = 5 then count * 2 else count) (few : items.length < uint32Max)
    (prepared : Prepared it) (start : it.rest = head ++ (body ++ tail)) : it.type = CborValue.kind major ∧
      ∃ content, enterContainer it = some (.noError, content) ∧ Facing content body items tail := by
  have read := readHead_head (by omega) header (body ++ tail)
  rw [← start] at read
  have counted := prepared_counted prepared read (by omega)
  have type : it.type = CborValue.kind major := by rw [counted.type, if_neg (by omega)]
  obtain ⟨isContainer, _, _, map⟩ := kind_isContainer container type
  have short : count < uint32Max := by
    split at sized
    · omega
    · omega
  have entered := enterContainer_counted isContainer counted.known (extractNumber_readHead read) short (by
    intro last
    rw [if_pos (map.mp last)] at sized
    omega)
  have doubled : (if it.type = .map then count * 2 else count) = items.length := by
    rw [sized]
    simp only [map]
  rw [doubled] at entered
  refine ⟨type, ?_⟩
  cases inner with
  | nil =>
    have none : count = 0 := by
      split at sized
      · simp at sized
        omega
      · exact sized.symm
    rw [if_neg (by simpa using none)] at entered
    exact ⟨_, entered, .ended rfl rfl⟩
  | @cons bytes others item items first rest =>
    have some : count ≠ 0 := by
      rintro rfl
      simp at sized
    rw [if_pos some] at entered
    obtain ⟨content, done⟩ := @preparseValue_spells { it with
      rest := bytes ++ others ++ tail, remaining := (item :: items).length } bytes (others ++ tail) item
      (List.append_assoc _ _ _) first
    obtain ⟨ready, rest', remaining⟩ := preparseValue_prepared done
    rw [done] at entered
    exact ⟨content, entered, .counted ready (by simp) rest' remaining few⟩

theorem enter_opened {major : Nat} (container : major = 4 ∨ major = 5) (inner : SpellsAll body items)
    (prepared : Prepared it) (start : it.rest = initial major 31 :: (body ++ breakByte :: tail)) :
    it.type = CborValue.kind major ∧
      ∃ content, enterContainer it = some (.noError, content) ∧ Facing content body items tail := by
  have same := congrArg Prod.snd ((preparseValue_unknown (by omega) (by omega) start).symm.trans prepared)
  have type : it.type = CborValue.kind major := congrArg CborValue.type same.symm
  have unknown : it.unknownLength = true := congrArg CborValue.unknownLength same.symm
  obtain ⟨isContainer, _⟩ := kind_isContainer container type
  have entered := fun (err : CborError) (content : CborValue) =>
    @enterContainer_open it content err isContainer unknown
  rw [start, List.tail_cons] at entered
  refine ⟨type, ?_⟩
  cases inner with
  | nil =>
    obtain ⟨content, broke, rest⟩ : ∃ content, preparseValue { it with
        remaining := uint32Max, rest := breakByte :: tail } = (.unexpectedBreak, content) ∧
          content.rest = breakByte :: tail := preparseValue_break rfl
    have ended : Facing { content with rest := content.rest.tail, type := .invalid, remaining := 0 } [] []
        content.rest.tail := .ended rfl rfl
    rw [rest, List.tail_cons] at ended
    refine ⟨_, entered _ content broke, ?_⟩
    rw [rest]
    exact ended
  | @cons bytes others item items first rest =>
    obtain ⟨content, done⟩ := @preparseValue_spells { it with
      remaining := uint32Max, rest := bytes ++ others ++ breakByte :: tail } bytes (others ++ breakByte :: tail) item
      (List.append_assoc _ _ _) first
    obtain ⟨ready, rest', remaining⟩ := preparseValue_prepared done
    exact ⟨content, entered _ content done, .opened ready (by simp) rest' remaining⟩

theorem leave_container {content last : CborValue} {nestingLevel fuel : Nat} (isContainer : it.isContainer = true)
    (varies : isFixedType it.type = false) (shallow : nestingLevel ≠ maxRecursions)
    (entered : enterContainer it = some (.noError, content))
    (walked : advanceItems fuel content (nestingLevel + 1) = some (.noError, last)) (closed : last.type = .invalid) :
    advanceRecursive (fuel + 1) it nestingLevel = some (preparseNextValue { it with rest := last.rest }) := by
  rw [advanceRecursive, if_neg (by simp [varies]), if_neg (by simp [isContainer]), if_neg shallow, entered,
    Option.bind_some]
  simp only [ne_eq, not_true_eq_false, if_false, walked, Option.bind_some]
  rw [leaveContainer, if_neg (by simp [isContainer, closed])]

end Facing

/-- The items of a container inside an item of `limit` bytes can be walked through. -/
def Walks (limit fuel nestingLevel : Nat) : Prop :=
  ∀ {it : CborValue} {body tail : List UInt8} {items : List Item} {depth : Nat}, body.length < limit →
    SpellsAll body items → (∀ item ∈ items, item.Within depth) → nestingLevel + depth ≤ maxRecursions →
    Facing it body items tail →
    ∃ last, advanceItems fuel it nestingLevel = some (.noError, last) ∧ last.type = .invalid ∧ last.rest = tail

section Items

variable {it : CborValue} {bytes tail : List UInt8} {item : Item} {depth nestingLevel fuel : Nat}

theorem advance_string {major : Nat} {head content : List UInt8} (string : major = 2 ∨ major = 3)
    (header : Head major content.length head) (prepared : Prepared it) (start : it.rest = head ++ (content ++ tail)) :
    it.type.Bare ∧ advanceRecursive (fuel + 1) it nestingLevel = some (preparseNextValue { it with rest := tail }) := by
  have read := readHead_head (by omega) header (content ++ tail)
  rw [← start] at read
  have counted := prepared_counted prepared read (by omega)
  have chunks : iterateStringChunks it = .ok (content, tail) := by
    simp [iterateStringChunks, counted.known, extractNumber_readHead read]
  have type := counted.type
  rcases string with rfl | rfl
  · exact ⟨by simp [CborType.Bare, type, CborValue.kind], advanceRecursive_string fuel nestingLevel (.inl type) chunks⟩
  · exact ⟨by simp [CborType.Bare, type, CborValue.kind], advanceRecursive_string fuel nestingLevel (.inr type) chunks⟩

theorem advance_openString {major : Nat} {chunks content : List UInt8} (string : major = 2 ∨ major = 3)
    (inner : Chunks major chunks content) (short : chunks.length < uint32Max) (prepared : Prepared it)
    (start : it.rest = initial major 31 :: (chunks ++ breakByte :: tail)) :
    it.type.Bare ∧ advanceRecursive (fuel + 1) it nestingLevel = some (preparseNextValue { it with rest := tail }) := by
  have same := congrArg Prod.snd ((preparseValue_unknown (by omega) (by omega) start).symm.trans prepared)
  have type : it.type = CborValue.kind major := congrArg CborValue.type same.symm
  have unknown : it.unknownLength = true := congrArg CborValue.unknownLength same.symm
  have whole : uint32Max = 2 ^ 32 - 1 := rfl
  have content_le := chunks_length inner
  have room : chunks.length < it.rest.length + 1 := by
    rw [start]
    simp only [List.length_cons, List.length_append]
    omega
  have walked := @stringChunks_chunks major string _ _ inner 0 _ tail (by omega) room
  have chunks : iterateStringChunks it = .ok (content, tail) := by
    rw [iterateStringChunks, if_pos unknown, type, start, List.tail_cons, ← start, walked]
  rcases string with rfl | rfl
  · exact ⟨by simp [CborType.Bare, type, CborValue.kind], advanceRecursive_string fuel nestingLevel (.inl type) chunks⟩
  · exact ⟨by simp [CborType.Bare, type, CborValue.kind], advanceRecursive_string fuel nestingLevel (.inr type) chunks⟩

theorem advance_container {major : Nat} {body : List UInt8} {items : List Item}
    (container : major = 4 ∨ major = 5)
    (entered : it.type = CborValue.kind major ∧
      ∃ content, enterContainer it = some (.noError, content) ∧ Facing content body items tail)
    (shallow : nestingLevel ≠ maxRecursions)
    (walked : ∀ {content : CborValue}, Facing content body items tail → ∃ last,
      advanceItems fuel content (nestingLevel + 1) = some (.noError, last) ∧ last.type = .invalid ∧ last.rest = tail) :
    it.type.Bare ∧ advanceRecursive (fuel + 1) it nestingLevel = some (preparseNextValue { it with rest := tail }) := by
  obtain ⟨type, content, inside, facing⟩ := entered
  obtain ⟨isContainer, bare, varies, _⟩ := kind_isContainer container type
  obtain ⟨last, done, closed, after⟩ := walked facing
  rw [← after]
  exact ⟨bare, leave_container isContainer varies shallow inside done closed⟩

theorem advanceRecursive_spells (spelled : Spells bytes item) (untagged : ∀ tag inner, item ≠ .tagged tag inner)
    (within : item.Within depth) (level : nestingLevel + depth ≤ maxRecursions) (short : bytes.length < uint32Max)
    (prepared : Prepared it) (start : it.rest = bytes ++ tail) (walks : Walks bytes.length fuel (nestingLevel + 1)) :
    it.type.Bare ∧ advanceRecursive (fuel + 1) it nestingLevel = some (preparseNextValue { it with rest := tail }) := by
  have number : ∀ {major n : Nat}, Head major n bytes → major = 0 ∨ major = 1 →
      it.type.Bare ∧ advanceRecursive (fuel + 1) it nestingLevel = some (preparseNextValue { it with rest := tail }) := by
    intro major n header sign
    have read := readHead_head (by omega) header tail
    rw [← start] at read
    have type : it.type = .integer := by
      rw [(prepared_counted prepared read (by omega)).type]
      rcases sign with rfl | rfl <;> rfl
    exact ⟨by simp [CborType.Bare, type], advanceRecursive_number fuel nestingLevel (by simp [type, isFixedType])
      (extractNumber_readHead read)⟩
  have floating : Floating bytes →
      it.type.Bare ∧ advanceRecursive (fuel + 1) it nestingLevel = some (preparseNextValue { it with rest := tail }) := by
    intro floating
    obtain ⟨⟨it', done, plain⟩, n, read⟩ := preparseValue_floating floating start
    rw [prepared] at done
    cases done
    exact ⟨plain.2, advanceRecursive_number fuel nestingLevel plain.1 read⟩
  cases spelled with
  | natural header => exact number header (.inl rfl)
  | negative header => exact number header (.inr rfl)
  | bytes header =>
    rw [List.append_assoc] at start
    exact advance_string (.inl rfl) header prepared start
  | text header =>
    rw [List.append_assoc] at start
    exact advance_string (.inr rfl) header prepared start
  | openBytes inner =>
    simp only [List.cons_append, List.append_assoc, List.nil_append, List.length_cons, List.length_append] at start short
    exact advance_openString (.inl rfl) inner (by omega) prepared start
  | openText inner =>
    simp only [List.cons_append, List.append_assoc, List.nil_append, List.length_cons, List.length_append] at start short
    exact advance_openString (.inr rfl) inner (by omega) prepared start
  | @array head body items header inner =>
    cases within with
    | @array depth _ within =>
      obtain ⟨first, others, rfl, _⟩ := head_first (by decide) header
      simp only [List.append_assoc, List.length_append, List.length_cons] at start short walks
      have few := spellsAll_length inner
      exact advance_container (.inl rfl)
        (enter_counted (.inl rfl) header inner (by simp) (by omega) prepared start) (by omega)
        (walks (by omega) inner within (by omega))
  | @map head body entries header inner =>
    cases within with
    | @map depth _ within =>
      obtain ⟨first, others, rfl, _⟩ := head_first (by decide) header
      simp only [List.append_assoc, List.length_append, List.length_cons] at start short walks
      have few := spellsAll_length inner
      have pairs := flat_length entries
      exact advance_container (.inr rfl)
        (enter_counted (.inr rfl) header inner (by simp; omega) (by omega) prepared start) (by omega)
        (walks (by omega) inner within (by omega))
  | openArray inner =>
    cases within with
    | array within =>
      simp only [List.cons_append, List.append_assoc, List.nil_append, List.length_cons, List.length_append] at start walks
      exact advance_container (.inl rfl) (enter_opened (.inl rfl) inner prepared start) (by omega)
        (walks (by omega) inner within (by omega))
  | openMap inner =>
    cases within with
    | map within =>
      simp only [List.cons_append, List.append_assoc, List.nil_append, List.length_cons, List.length_append] at start walks
      exact advance_container (.inr rfl) (enter_opened (.inr rfl) inner prepared start) (by omega)
        (walks (by omega) inner within (by omega))
  | tagged header inner => exact absurd rfl (untagged _ _)
  | simple small => exact floating (.simple small)
  | wideSimple large => exact floating (.wideSimple large)
  | float width sized => exact floating (.float width sized)

end Items

theorem Walks.mono {limit limit' fuel nestingLevel : Nat} (walks : Walks limit fuel nestingLevel) (le : limit' ≤ limit) :
    Walks limit' fuel nestingLevel := fun short => walks (by omega)

theorem advanceItems_step {it it' : CborValue} {fuel nestingLevel : Nat} (more : it.remaining ≠ 0)
    (moved : advanceRecursive fuel it nestingLevel = some (.noError, it')) :
    advanceItems (fuel + 1) it nestingLevel = advanceItems fuel it' nestingLevel := by
  rw [advanceItems, if_neg (by simp [CborValue.atEnd, more]), moved, Option.bind_some]
  simp only [ne_eq, not_true_eq_false, if_false]

theorem Facing.more {it : CborValue} {body tail : List UInt8} {item : Item} {items : List Item}
    (facing : Facing it body (item :: items) tail) : it.remaining ≠ 0 := by
  generalize all : item :: items = listed at facing
  cases facing with
  | ended _ _ => cases all
  | counted _ more _ count _ =>
    have some := List.length_pos_iff.mpr more
    omega
  | opened _ _ _ unbounded =>
    rw [unbounded]
    decide

theorem walks_any (limit : Nat) {fuel nestingLevel : Nat} (short : limit ≤ uint32Max) (enough : 2 * limit ≤ fuel + 1)
    (some : fuel ≠ 0) : Walks limit fuel nestingLevel := by
  induction limit generalizing fuel nestingLevel with
  | zero => exact fun below => absurd below (Nat.not_lt_zero _)
  | succ limit ih =>
    intro it body tail items depth below spelled within level facing
    obtain ⟨fuel, rfl⟩ : ∃ n, fuel = n + 1 := ⟨fuel - 1, by omega⟩
    cases spelled with
    | nil =>
      cases facing with
      | ended ended closed => exact ⟨it, by rw [advanceItems, if_pos (by simp [CborValue.atEnd, ended])], closed, rfl⟩
      | counted _ more _ _ _ => exact absurd rfl more
      | opened _ more _ _ => exact absurd rfl more
    | @cons bytes others item items first rest =>
      obtain ⟨byte, tailBytes, whole, _⟩ := spells_first first
      have size : bytes.length = tailBytes.length + 1 := congrArg List.length whole
      rw [List.length_append] at below
      obtain ⟨fuel, rfl⟩ : ∃ n, fuel = n + 1 := ⟨fuel - 1, by omega⟩
      have behind : Walks limit (fuel + 1) nestingLevel := ih (by omega) (by omega) (by omega)
      rw [List.forall_mem_cons] at within
      by_cases tag : ∃ tag inner, item = .tagged tag inner
      · obtain ⟨tag, inner, rfl⟩ := tag
        cases first with
        | @tagged _ head inside _ header spelled =>
          obtain ⟨it', moved, ahead⟩ := facing.untag header spelled fuel nestingLevel
          rw [advanceItems_step facing.more moved]
          obtain ⟨byte, others, rfl, _⟩ := head_first (by decide) header
          simp only [List.length_append, List.length_cons] at below
          refine behind ?_ (.cons spelled rest) ?_ level ahead
          · rw [List.length_append]
            omega
          · rw [List.forall_mem_cons]
            cases within.1 with
            | tagged inner => exact ⟨inner, within.2⟩
      · have untagged : ∀ tag inner, item ≠ .tagged tag inner := fun number inner same => tag ⟨number, inner, same⟩
        obtain ⟨prepared, more, after, start, onward⟩ := facing.next rest
        have inside : Walks limit fuel (nestingLevel + 1) := ih (by omega) (by omega) (by omega)
        obtain ⟨bare, moved⟩ := advanceRecursive_spells first untagged within.1 level (by omega) prepared start
          (inside.mono (by omega))
        obtain ⟨it', next, ahead⟩ := onward { it with rest := after } rfl rfl bare.1
        rw [next] at moved
        rw [advanceItems_step more moved]
        exact behind (by omega) rest within.2 level ahead

theorem advance_spells {it : CborValue} {bytes tail : List UInt8} {item : Item} (spelled : Spells bytes item)
    (untagged : ∀ tag inner, item ≠ .tagged tag inner) (within : item.Within maxRecursions)
    (short : bytes.length < uint32Max) (prepared : Prepared it) (more : it.remaining ≠ 0)
    (start : it.rest = bytes ++ tail) :
    it.type.Bare ∧ advance it = some (preparseNextValue { it with rest := tail }) := by
  have length := congrArg List.length start
  rw [List.length_append] at length
  have walks : Walks bytes.length (2 * it.rest.length + 1) 1 := walks_any _ (by omega) (by omega) (by omega)
  obtain ⟨bare, moved⟩ := advanceRecursive_spells spelled untagged within (Nat.le_of_eq (Nat.zero_add _)) short prepared
    start walks
  exact ⟨bare, by rw [advance, if_neg bare.2, if_neg more, moved]⟩

def nestedBytes : Nat → List UInt8
  | 0 => [initial 4 0]
  | depth + 1 => initial 4 1 :: nestedBytes depth

def nestedItem : Nat → Item
  | 0 => .array []
  | depth + 1 => .array [nestedItem depth]

theorem nested_spells (depth : Nat) : Spells (nestedBytes depth) (nestedItem depth) := by
  induction depth with
  | zero => exact @Spells.array [initial 4 0] [] [] (.direct (by decide)) .nil
  | succ depth ih =>
    have one : SpellsAll (nestedBytes depth ++ []) [nestedItem depth] := .cons ih .nil
    rw [List.append_nil] at one
    exact @Spells.array [initial 4 1] _ [nestedItem depth] (.direct (by simp)) one

theorem nestedBytes_length (depth : Nat) : (nestedBytes depth).length = depth + 1 := by
  induction depth with
  | zero => rfl
  | succ depth ih => rw [nestedBytes, List.length_cons, ih]

theorem advanceItems_int {it : CborValue} {bytes body tail : List UInt8} {value : Int} {items : List Item}
    (first : Spells bytes (.int value)) (rest : SpellsAll body items)
    (facing : Facing it (bytes ++ body) (.int value :: items) tail) :
    ∃ it', Facing it' body items tail ∧ ∀ fuel nestingLevel,
      advanceItems (fuel + 1 + 1) it nestingLevel = advanceItems (fuel + 1) it' nestingLevel := by
  obtain ⟨prepared, more, after, start, onward⟩ := facing.next rest
  obtain ⟨type, _, _, n, read⟩ := cursor_int prepared start (scalar_of_int first)
  obtain ⟨it', moved, ahead⟩ := onward { it with rest := after } rfl rfl (by simp [type])
  refine ⟨it', ahead, ?_⟩
  intro fuel nestingLevel
  apply advanceItems_step more
  rw [advanceRecursive_number fuel nestingLevel (by simp [type, isFixedType]) read, moved]

theorem advanceRecursive_refused {it content : CborValue} {err : CborError} {nestingLevel fuel : Nat}
    (isContainer : it.isContainer = true) (varies : isFixedType it.type = false) (shallow : nestingLevel ≠ maxRecursions)
    (entered : enterContainer it = some (.noError, content))
    (walked : ∃ last, advanceItems fuel content (nestingLevel + 1) = some (err, last)) (failed : err ≠ .noError) :
    advanceRecursive (fuel + 1) it nestingLevel = some (err, it) := by
  obtain ⟨last, walked⟩ := walked
  rw [advanceRecursive, if_neg (by simp [varies]), if_neg (by simp [isContainer]), if_neg shallow, entered,
    Option.bind_some]
  simp only [ne_eq, not_true_eq_false, if_false, walked, Option.bind_some, failed, not_false_eq_true, if_true]

theorem advanceItems_refused {it it' : CborValue} {err : CborError} {fuel nestingLevel : Nat} (more : it.remaining ≠ 0)
    (moved : advanceRecursive fuel it nestingLevel = some (err, it')) (failed : err ≠ .noError) :
    ∃ last, advanceItems (fuel + 1) it nestingLevel = some (err, last) := by
  refine ⟨it', ?_⟩
  rw [advanceItems, if_neg (by simp [CborValue.atEnd, more]), moved, Option.bind_some]
  simp only [ne_eq, failed, not_false_eq_true, if_true]

theorem advance_nested {it : CborValue} {tail : List UInt8} {depth nestingLevel fuel : Nat} (prepared : Prepared it)
    (start : it.rest = nestedBytes depth ++ tail) (deep : maxRecursions ≤ nestingLevel + depth)
    (level : nestingLevel ≤ maxRecursions) (enough : 2 * depth ≤ fuel) :
    ∃ last, advanceRecursive (fuel + 1) it nestingLevel = some (.nestingTooDeep, last) := by
  induction depth generalizing it tail nestingLevel fuel with
  | zero =>
    obtain ⟨type, _⟩ := enter_counted (.inl rfl) (.direct (by decide) : Head 4 0 [initial 4 0]) .nil (by simp)
      (by decide) prepared start
    obtain ⟨isContainer, _, varies, _⟩ := kind_isContainer (.inl rfl) type
    refine ⟨it, ?_⟩
    rw [advanceRecursive, if_neg (by simp [varies]), if_neg (by simp [isContainer]), if_pos (by omega)]
  | succ depth ih =>
    have one : SpellsAll (nestedBytes depth ++ []) [nestedItem depth] := .cons (nested_spells depth) .nil
    have start' : it.rest = [initial 4 1] ++ (nestedBytes depth ++ [] ++ tail) := by
      rw [start, List.append_nil]
      rfl
    obtain ⟨type, content, entered, facing⟩ := enter_counted (.inl rfl) (.direct (by decide) : Head 4 1 [initial 4 1])
      one (by simp) (by simp [uint32Max]) prepared start'
    obtain ⟨isContainer, _, varies, _⟩ := kind_isContainer (.inl rfl) type
    by_cases last : nestingLevel = maxRecursions
    · refine ⟨it, ?_⟩
      rw [advanceRecursive, if_neg (by simp [varies]), if_neg (by simp [isContainer]), if_pos last]
    · obtain ⟨fuel, rfl⟩ : ∃ n, fuel = n + 1 + 1 := ⟨fuel - 2, by omega⟩
      obtain ⟨prepared', more, after, inside, _⟩ := facing.next .nil
      obtain ⟨stuck, refused⟩ := ih prepared' inside (by omega : maxRecursions ≤ nestingLevel + 1 + depth) (by omega)
        (by omega : 2 * depth ≤ fuel)
      exact ⟨it, advanceRecursive_refused isContainer varies last entered
        (advanceItems_refused more refused (by decide)) (by decide)⟩

end Bridge
