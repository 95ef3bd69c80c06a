import Mathlib.Data.List.Basic

namespace Pattern

/-- A part of a regular expression: these bytes, or bytes of a class, as many as possible and at least so many; a group is
    what the expression is asked for. -/
inductive Piece
  | text (bytes : List UInt8)
  | run (accepts : UInt8 → Bool) (least : Nat)
  | group (accepts : UInt8 → Bool) (least : Nat)

/-- How many bytes a run can take, the most of them first. -/
def lengths (accepts : UInt8 → Bool) (least : Nat) (text : List UInt8) : List Nat :=
  ((List.range ((text.takeWhile accepts).length + 1)).filter (least ≤ ·)).reverse

/-- What the group takes where the pieces match the start of a text; each piece takes as much as the later ones allow. -/
def find : List Piece → List UInt8 → Option (List UInt8)
  | [], _ => some []
  | .text bytes :: more, text => if bytes.isPrefixOf text then find more (text.drop bytes.length) else none
  | .run accepts least :: more, text => (lengths accepts least text).findSome? fun n => find more (text.drop n)
  | .group accepts least :: more, text =>
    (lengths accepts least text).findSome? fun n => (find more (text.drop n)).map fun _ => text.take n

/-- The texts that a pattern describes, with what stands in its group. -/
inductive Matches : List Piece → List UInt8 → List UInt8 → Prop
  | done (text : List UInt8) : Matches [] text []
  | text {bytes text found : List UInt8} {more : List Piece} (rest : Matches more text found) :
      Matches (.text bytes :: more) (bytes ++ text) found
  | run {accepts : UInt8 → Bool} {least : Nat} {bytes text found : List UInt8} {more : List Piece}
      (inside : ∀ byte ∈ bytes, accepts byte = true) (enough : least ≤ bytes.length) (rest : Matches more text found) :
      Matches (.run accepts least :: more) (bytes ++ text) found
  | group {accepts : UInt8 → Bool} {least : Nat} {bytes text found : List UInt8} {more : List Piece}
      (inside : ∀ byte ∈ bytes, accepts byte = true) (enough : least ≤ bytes.length) (rest : Matches more text found) :
      Matches (.group accepts least :: more) (bytes ++ text) bytes

theorem mem_lengths {accepts : UInt8 → Bool} {least n : Nat} {text : List UInt8} :
    n ∈ lengths accepts least text ↔ n ≤ (text.takeWhile accepts).length ∧ least ≤ n := by
  rw [lengths, List.mem_reverse, List.mem_filter, List.mem_range, Nat.lt_succ_iff, decide_eq_true_eq]

theorem taken_accepted {accepts : UInt8 → Bool} {n : Nat} {text : List UInt8} (short : n ≤ (text.takeWhile accepts).length) :
    (text.take n).length = n ∧ ∀ byte ∈ text.take n, accepts byte = true := by
  have front : text.take n = (text.takeWhile accepts).take n := by
    conv_lhs => rw [← List.takeWhile_append_dropWhile (p := accepts) (l := text)]
    exact List.take_append_of_le_length short
  rw [front]
  exact ⟨List.length_take_of_le short, fun byte inside => List.all_eq_true.mp List.all_takeWhile byte (List.mem_of_mem_take inside)⟩

theorem find_matches {pieces : List Piece} {text found : List UInt8} (matched : find pieces text = some found) :
    Matches pieces text found := by
  induction pieces generalizing text found with
  | nil =>
    cases matched
    exact .done text
  | cons piece more ih =>
    cases piece with
    | text bytes =>
      rw [find] at matched
      split at matched
      · rename_i front
        rcases List.isPrefixOf_iff_prefix.mp front with ⟨rest, rfl⟩
        rw [List.drop_left] at matched
        exact .text (ih matched)
      · cases matched
    | run accepts least =>
      rcases List.exists_of_findSome?_eq_some matched with ⟨n, listed, found'⟩
      rcases mem_lengths.mp listed with ⟨short, enough⟩
      rcases taken_accepted short with ⟨length, inside⟩
      have matches' := @Matches.run accepts least _ _ _ _ inside (by omega) (ih found')
      rw [List.take_append_drop] at matches'
      exact matches'
    | group accepts least =>
      rcases List.exists_of_findSome?_eq_some matched with ⟨n, listed, found'⟩
      rcases Option.map_eq_some_iff.mp found' with ⟨other, found'', rfl⟩
      rcases mem_lengths.mp listed with ⟨short, enough⟩
      rcases taken_accepted short with ⟨length, inside⟩
      have matches' := @Matches.group accepts least _ _ _ _ inside (by omega) (ih found'')
      rw [List.take_append_drop] at matches'
      exact matches'

theorem Matches.mem {pieces : List Piece} {text found : List UInt8} (matched : Matches pieces text found) {byte : UInt8}
    (inside : byte ∈ found) : byte ∈ text := by
  induction matched with
  | done text => cases inside
  | text rest ih => exact List.mem_append_right _ (ih inside)
  | run accepted enough rest ih => exact List.mem_append_right _ (ih inside)
  | group accepted enough rest ih => exact List.mem_append_left _ inside

end Pattern
