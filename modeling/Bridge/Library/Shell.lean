import Mathlib.Algebra.GroupWithZero.Nat
import Mathlib.Data.List.Basic

namespace Shell

inductive Quoting
  | plain
  | escaped
  | quoted
  | quotedEscaped
deriving DecidableEq, Repr

structure Reading where
  words : List (List UInt8)
  word : Option (List UInt8)
  quoting : Quoting
deriving DecidableEq, Repr

def blanks : List UInt8 := [0x20, 0x09]
def quote : UInt8 := 0x22
def backslash : UInt8 := 0x5c
def newline : UInt8 := 0x0a

/-- `$` and the backquote begin an expansion, also in double quotes. -/
def expanding : List UInt8 := [0x24, 0x60]

/-- The bytes that are more than part of a word where they are not quoted: `'`, `|`, `&`, `;`, `<`, `>`, `(`, `)`,
    `*`, `?`, `[`, `#`, `~` and the newline. -/
def operators : List UInt8 := [0x27, 0x7c, 0x26, 0x3b, 0x3c, 0x3e, 0x28, 0x29, 0x2a, 0x3f, 0x5b, 0x23, 0x7e, newline]

def Reading.add (reading : Reading) (bytes : List UInt8) : Reading :=
  { reading with word := some (reading.word.getD [] ++ bytes) }

/-- `none` where the line is not a list of plain and double-quoted words. -/
def Reading.next (reading : Reading) (byte : UInt8) : Option Reading :=
  match reading.quoting with
  | .plain =>
    if byte ∈ blanks then some { reading with words := reading.words ++ reading.word.toList, word := none }
    else if byte = quote then some { reading.add [] with quoting := .quoted }
    else if byte = backslash then some { reading with quoting := .escaped }
    else if byte ∈ expanding ∨ byte ∈ operators then none
    else some (reading.add [byte])
  | .escaped =>
    if byte = newline then some { reading with quoting := .plain }
    else some { reading.add [byte] with quoting := .plain }
  | .quoted =>
    if byte = quote then some { reading with quoting := .plain }
    else if byte = backslash then some { reading with quoting := .quotedEscaped }
    else if byte ∈ expanding then none
    else some (reading.add [byte])
  | .quotedEscaped =>
    if byte = newline then some { reading with quoting := .quoted }
    else if byte = quote ∨ byte = backslash ∨ byte ∈ expanding then some { reading.add [byte] with quoting := .quoted }
    else some { reading.add [backslash, byte] with quoting := .quoted }

def Reading.finish (reading : Reading) : Option (List (List UInt8)) :=
  if reading.quoting = .plain then some (reading.words ++ reading.word.toList) else none

/-- The words of the rest of a line. -/
def Reading.read (reading : Reading) (line : List UInt8) : Option (List (List UInt8)) :=
  (line.foldlM Reading.next reading).bind Reading.finish

def Reading.start : Reading := ⟨[], none, .plain⟩

def words (line : List UInt8) : Option (List (List UInt8)) := Reading.start.read line

/-- A backslash in double quotes stands for itself before these. -/
def keepsBackslash : List UInt8 → Bool
  | [] => false
  | byte :: _ => !(byte == newline || byte == quote || byte == backslash || expanding.contains byte)

def literal : List UInt8 → Bool
  | [] => true
  | byte :: rest => byte != quote && !expanding.contains byte && (byte != backslash || keepsBackslash rest) && literal rest

section Words

variable {reading reading' : Reading} {line : List UInt8} {all : List (List UInt8)}

theorem read_append (reading : Reading) (line more : List UInt8) :
    reading.read (line ++ more) = (line.foldlM Reading.next reading).bind fun reading => reading.read more := by
  simp only [Reading.read, List.foldlM_append, Option.bind_eq_bind, Option.bind_assoc]

theorem next_words {byte : UInt8} (next : reading.next byte = some reading') :
    (reading'.words = reading.words ∧
        (reading'.word = reading.word ∨ ∃ more, reading'.word = some (reading.word.getD [] ++ more))) ∨
      (reading'.words = reading.words ++ reading.word.toList ∧ reading'.word = none) := by
  unfold Reading.next at next
  split at next
  · split at next
    · cases next
      exact .inr ⟨rfl, rfl⟩
    · repeat' split at next
      all_goals cases next
      all_goals exact .inl ⟨rfl, by simp [Reading.add]⟩
  all_goals
    repeat' split at next
    all_goals cases next
    all_goals exact .inl ⟨rfl, by simp [Reading.add]⟩

theorem read_cons {byte : UInt8} (read : reading.read (byte :: line) = some all) :
    ∃ middle, reading.next byte = some middle ∧ middle.read line = some all := by
  rw [Reading.read, List.foldlM_cons, Option.bind_eq_bind, Option.bind_assoc] at read
  exact Option.bind_eq_some_iff.mp read

theorem read_nil (read : reading.read [] = some all) : all = reading.words ++ reading.word.toList := by
  simp only [Reading.read, List.foldlM_nil, Option.pure_def, Option.bind_some, Reading.finish] at read
  split at read
  · exact (Option.some.inj read).symm
  · cases read

theorem words_read (read : reading.read line = some all) : ∃ others, all = reading.words ++ others := by
  induction line generalizing reading with
  | nil => exact ⟨_, read_nil read⟩
  | cons byte rest ih =>
    obtain ⟨middle, next, read⟩ := read_cons read
    obtain ⟨others, rfl⟩ := ih read
    rcases next_words next with ⟨kept, _⟩ | ⟨ends, _⟩
    · exact ⟨others, by rw [kept]⟩
    · exact ⟨reading.word.toList ++ others, by rw [ends, List.append_assoc]⟩

theorem begun_read {word : List UInt8} (begun : reading.word = some word) (read : reading.read line = some all) :
    ∃ more others, all = reading.words ++ (word ++ more) :: others := by
  induction line generalizing reading word with
  | nil =>
    refine ⟨[], [], ?_⟩
    rw [read_nil read, begun, List.append_nil]
    rfl
  | cons byte rest ih =>
    obtain ⟨middle, next, read⟩ := read_cons read
    rcases next_words next with ⟨kept, left | ⟨bytes, extended⟩⟩ | ⟨ends, _⟩
    · rw [← kept]
      exact ih (left.trans begun) read
    · rw [begun, Option.getD_some] at extended
      obtain ⟨more, others, whole⟩ := ih extended read
      exact ⟨bytes ++ more, others, by rw [whole, kept, List.append_assoc]⟩
    · obtain ⟨others, whole⟩ := words_read read
      refine ⟨[], others, ?_⟩
      rw [whole, ends, begun, List.append_nil, List.append_assoc]
      rfl

/-- What the bytes read so far may come to: their words with a blank each, and a backslash that is kept. -/
def Reading.weight (reading : Reading) : Nat :=
  (reading.words.map fun word => word.length + 1).sum + (reading.word.getD []).length +
    if reading.quoting = .escaped ∨ reading.quoting = .quotedEscaped then 1 else 0

theorem begun_weight (word : Option (List UInt8)) :
    (word.toList.map fun word => word.length + 1).sum ≤ (word.getD []).length + 1 := by
  cases word with
  | none => exact Nat.zero_le _
  | some word => exact Nat.le_refl _

theorem next_weight {byte : UInt8} (next : reading.next byte = some reading') :
    reading'.weight + (if byte = quote then 1 else 0) ≤ reading.weight + 1 := by
  obtain ⟨words, word, quoting⟩ := reading
  have ended := begun_weight word
  by_cases same : byte = quote
  · subst same
    cases quoting with
    | plain | escaped | quoted | quotedEscaped =>
      simp [Reading.next, Reading.add, blanks, quote, newline] at next
      subst next
      simp [Reading.weight, Nat.add_assoc]
  · rw [if_neg same]
    cases quoting with
    | plain | escaped | quoted | quotedEscaped =>
      simp only [Reading.next] at next
      repeat' split at next
      all_goals cases next
      all_goals simp only [Reading.weight, Reading.add, Option.getD_some, List.length_append, List.map_append, List.sum_append,
        List.length_cons, List.length_nil, Option.getD_none, reduceCtorEq, or_false, or_true, if_true, if_false]
      all_goals omega

theorem quotes_read (read : reading.read line = some all) :
    (all.map fun word => word.length + 1).sum + line.count quote ≤ reading.weight + line.length + 1 := by
  induction line generalizing reading with
  | nil =>
    have ended := begun_weight reading.word
    rw [read_nil read, List.map_append, List.sum_append, List.count_nil, List.length_nil]
    unfold Reading.weight
    omega
  | cons byte rest ih =>
    obtain ⟨middle, next, read⟩ := read_cons read
    have before := next_weight next
    have after := ih read
    rw [List.count_cons, List.length_cons]
    simp only [beq_iff_eq]
    omega

end Words

section Quoted

variable {before : List (List UInt8)} {word content : List UInt8}

theorem next_quoted {byte : UInt8} (inside : byte ≠ quote) (kept : byte ∉ expanding) (plain : byte ≠ backslash) :
    Reading.next ⟨before, some word, .quoted⟩ byte = some ⟨before, some (word ++ [byte]), .quoted⟩ := by
  simp only [Reading.next, if_neg inside, if_neg plain, if_neg kept]
  rfl

theorem next_backslash :
    Reading.next ⟨before, some word, .quoted⟩ backslash = some ⟨before, some word, .quotedEscaped⟩ := rfl

theorem next_kept {byte : UInt8} (kept : keepsBackslash (byte :: content) = true) :
    Reading.next ⟨before, some word, .quotedEscaped⟩ byte = some ⟨before, some (word ++ [backslash, byte]), .quoted⟩ := by
  simp only [keepsBackslash, Bool.not_eq_true', Bool.or_eq_false_iff, beq_eq_false_iff_ne, List.contains_eq_mem,
    decide_eq_false_iff_not] at kept
  obtain ⟨⟨⟨line, inside⟩, plain⟩, expands⟩ := kept
  simp only [Reading.next, if_neg line, inside, plain, expands, or_self, if_false]
  rfl

theorem literal_reads (proper : literal content = true) :
    content.foldlM Reading.next ⟨before, some word, .quoted⟩ = some ⟨before, some (word ++ content), .quoted⟩ ∧
      (keepsBackslash content = true →
        content.foldlM Reading.next ⟨before, some word, .quotedEscaped⟩ =
          some ⟨before, some (word ++ backslash :: content), .quoted⟩) := by
  induction content generalizing word with
  | nil =>
    refine ⟨by rw [List.append_nil]; rfl, ?_⟩
    intro kept
    cases kept
  | cons byte rest ih =>
    simp only [literal, Bool.and_eq_true, bne_iff_ne, Bool.not_eq_true', Bool.or_eq_true, List.contains_eq_mem,
      decide_eq_false_iff_not] at proper
    obtain ⟨⟨⟨inside, expands⟩, escapes⟩, proper⟩ := proper
    constructor
    · by_cases slash : byte = backslash
      · subst slash
        rw [List.foldlM_cons, next_backslash]
        exact (ih proper).2 (escapes.resolve_left fun differs => differs rfl)
      · have split : word ++ byte :: rest = (word ++ [byte]) ++ rest := by simp
        rw [List.foldlM_cons, next_quoted inside expands slash, split]
        exact (ih proper).1
    · intro kept
      have split : word ++ backslash :: byte :: rest = (word ++ [backslash, byte]) ++ rest := by simp
      rw [List.foldlM_cons, next_kept kept, split]
      exact (ih proper).1

def Within (before : List (List UInt8)) (word content : List UInt8) (proper : Prop) (reading : Reading) : Prop :=
  reading.words = before ∧ ∃ more, reading.word = some (word ++ more) ∧
    (reading.quoting = .quotedEscaped ∨
      reading.quoting = .quoted ∧ (more = content ∧ proper ∨ more.length < content.length))

theorem Within.whole (part : List UInt8) {rest : List UInt8} {proper proper' : Prop} {reading : Reading}
    (within : Within before (word ++ part) rest proper reading) (keeps : proper → proper') :
    Within before word (part ++ rest) proper' reading := by
  obtain ⟨words, more, begun, reads⟩ := within
  refine ⟨words, part ++ more, by rw [begun, List.append_assoc], ?_⟩
  rcases reads with waits | ⟨quoted, ⟨rfl, kept⟩ | lost⟩
  · exact .inl waits
  · exact .inr ⟨quoted, .inl ⟨rfl, keeps kept⟩⟩
  · refine .inr ⟨quoted, .inr ?_⟩
    rw [List.length_append, List.length_append]
    omega

theorem Within.less (part : List UInt8) {rest : List UInt8} {proper proper' : Prop} {reading : Reading}
    (within : Within before (word ++ part) rest proper reading) (lost : part.length + rest.length < content.length) :
    Within before word content proper' reading := by
  obtain ⟨words, more, begun, reads⟩ := within
  refine ⟨words, part ++ more, by rw [begun, List.append_assoc], ?_⟩
  rcases reads with waits | ⟨quoted, ⟨rfl, _⟩ | less⟩
  · exact .inl waits
  · exact .inr ⟨quoted, .inr (by rwa [List.length_append])⟩
  · refine .inr ⟨quoted, .inr ?_⟩
    rw [List.length_append]
    omega

theorem within_reads {reading : Reading} (unquoted : quote ∉ content) :
    (content.foldlM Reading.next ⟨before, some word, .quoted⟩ = some reading →
        Within before word content (literal content = true) reading) ∧
      (content.foldlM Reading.next ⟨before, some word, .quotedEscaped⟩ = some reading →
        Within before word (backslash :: content) (keepsBackslash content = true ∧ literal content = true) reading) := by
  induction content generalizing word with
  | nil =>
    constructor
    · rintro ⟨⟩
      exact ⟨rfl, [], by rw [List.append_nil], .inr ⟨rfl, .inl ⟨rfl, rfl⟩⟩⟩
    · rintro ⟨⟩
      exact ⟨rfl, [], by rw [List.append_nil], .inl rfl⟩
  | cons byte rest ih =>
    rw [List.mem_cons, not_or] at unquoted
    obtain ⟨inside, unquoted⟩ := unquoted
    constructor
    · intro read
      rw [List.foldlM_cons] at read
      by_cases slash : byte = backslash
      · subst slash
        rw [next_backslash] at read
        have kept := (ih unquoted).2 read
        rw [← List.append_nil word] at kept
        apply Within.whole [] kept
        rintro ⟨keeps, proper⟩
        simp [literal, quote, backslash, expanding, keeps, proper]
      · by_cases expands : byte ∈ expanding
        · simp only [Reading.next, if_neg (Ne.symm inside), if_neg slash, if_pos expands] at read
          cases read
        · rw [next_quoted (Ne.symm inside) expands slash] at read
          apply Within.whole [byte] ((ih unquoted).1 read)
          intro proper
          simp [literal, Ne.symm inside, expands, slash, proper]
    · intro read
      rw [List.foldlM_cons] at read
      simp only [Reading.next] at read
      split at read
      · apply Within.less []
        · rw [List.append_nil]
          exact (ih unquoted).1 read
        · simp only [List.length_cons, List.length_nil]
          omega
      · split at read
        · apply Within.less [byte] ((ih unquoted).1 read)
          simp only [List.length_cons, List.length_nil]
          omega
        · rename_i line special
          apply Within.whole [backslash, byte] ((ih unquoted).1 read)
          intro proper
          simp only [not_or] at special
          simp [literal, keepsBackslash, line, special, proper]

theorem read_quoted (proper : literal content = true) {blank : UInt8} (separates : blank ∈ blanks) (rest : List UInt8) :
    Reading.read ⟨before, none, .plain⟩ (quote :: (content ++ quote :: blank :: rest)) =
      Reading.read ⟨before ++ [content], none, .plain⟩ rest := by
  have opened : Reading.next ⟨before, none, .plain⟩ quote = some ⟨before, some [], .quoted⟩ := rfl
  have closed : Reading.next ⟨before, some content, .quoted⟩ quote = some ⟨before, some content, .plain⟩ := rfl
  have ended : Reading.next ⟨before, some content, .plain⟩ blank = some ⟨before ++ [content], none, .plain⟩ := if_pos separates
  have kept := (@literal_reads before [] content proper).1
  simp only [Reading.read, List.foldlM_cons, List.foldlM_append, opened, kept, closed, ended, List.nil_append,
    Option.bind_eq_bind, Option.bind_some]

theorem literal_of_read {rest : List UInt8} {all others : List (List UInt8)} {blank : UInt8} (separates : blank ∈ blanks)
    (unquoted : quote ∉ content)
    (read : Reading.read ⟨before, none, .plain⟩ (quote :: (content ++ quote :: blank :: rest)) = some all)
    (same : all = before ++ content :: others) : literal content = true := by
  obtain ⟨first, opened, read⟩ := read_cons read
  cases opened
  rw [read_append] at read
  obtain ⟨⟨words, word, quoting⟩, inside, read⟩ := Option.bind_eq_some_iff.mp read
  obtain ⟨words, more, begun, reads⟩ := (within_reads unquoted).1 inside
  simp only at words begun reads
  subst words
  subst begun
  obtain ⟨second, closed, read⟩ := read_cons read
  rcases reads with rfl | ⟨rfl, ⟨_, proper⟩ | less⟩
  · cases closed
    obtain ⟨after, others', whole⟩ := begun_read rfl read
    simp only [Reading.add, Option.getD_some] at whole
    have equal := List.append_cancel_left (same.symm.trans whole)
    rw [(List.cons.inj equal).1] at unquoted
    exact absurd (by simp) unquoted
  · exact proper
  · cases closed
    obtain ⟨third, ended, read⟩ := read_cons read
    have separated : Reading.next ⟨words, some ([] ++ more), .plain⟩ blank = some ⟨words ++ [[] ++ more], none, .plain⟩ :=
      if_pos separates
    cases separated.symm.trans ended
    obtain ⟨others', whole⟩ := words_read read
    have equal := List.append_cancel_left ((same.symm.trans whole).trans (List.append_assoc _ _ _))
    rw [(List.cons.inj equal).1] at less
    exact absurd less (Nat.lt_irrefl _)

end Quoted

end Shell
