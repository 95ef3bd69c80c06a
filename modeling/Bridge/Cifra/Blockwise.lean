import Bridge.Library.Blockwise
import Bridge.Library.Memory

namespace Cifra

open Blockwise

variable {σ : Type}

/-- What `cf_blockwise_accumulate` keeps for its caller: the context, the block that is being filled
    (`partial`) and the number of bytes in it. -/
structure Accumulator (σ : Type) where
  ctx : σ
  partialBlock : List UInt8
  nPartial : Nat

section Accumulate

variable (nblock : Nat) (process processFinal : σ → List UInt8 → σ)

def fillPartial (inp : List UInt8) (s : Accumulator σ) : List UInt8 × Accumulator σ :=
  if s.nPartial ≠ 0 ∧ inp ≠ [] then
    let taken := min (nblock - s.nPartial) inp.length
    let filled := Memory.place s.partialBlock s.nPartial (inp.take taken)
    let inp := inp.drop taken
    if s.nPartial + taken = nblock then
      (inp, { ctx := if inp = [] then processFinal s.ctx filled else process s.ctx filled
              partialBlock := filled, nPartial := 0 })
    else (inp, { s with partialBlock := filled, nPartial := s.nPartial + taken })
  else (inp, s)

/-- The loop over the full blocks of the input; `none` where its assertion aborts. An empty block
    size has been refused before. -/
def takeBlocks (inp : List UInt8) (s : Accumulator σ) : Option (List UInt8 × Accumulator σ) :=
  if 0 < nblock ∧ nblock ≤ inp.length then
    if s.nPartial = 0 then
      let block := inp.take nblock
      takeBlocks (inp.drop nblock)
        { s with ctx := if inp.length = nblock then processFinal s.ctx block else process s.ctx block }
    else none
  else some (inp, s)
termination_by inp.length
decreasing_by
  rw [List.length_drop]
  omega

def keepRest (inp : List UInt8) (s : Accumulator σ) : Option (Accumulator σ) :=
  if inp = [] then some s
  else
    let taken := min (nblock - s.nPartial) inp.length
    let filled := Memory.place s.partialBlock s.nPartial (inp.take taken)
    if s.nPartial + taken < nblock then
      keepRest (inp.drop taken) { s with partialBlock := filled, nPartial := s.nPartial + taken }
    else none
termination_by inp.length
decreasing_by
  rename_i some_ _
  have nonempty := List.length_pos_iff.mpr some_
  rw [List.length_drop]
  omega

/-- `cf_blockwise_accumulate_final`; `none` where an assertion aborts the program. -/
def blockwiseAccumulateFinal (inp : List UInt8) (s : Accumulator σ) : Option (Accumulator σ) :=
  if s.nPartial < nblock then
    match fillPartial nblock process processFinal inp s with
    | (inp, s) => (takeBlocks nblock process processFinal inp s).bind fun left => keepRest nblock left.1 left.2
  else none

def blockwiseAccumulate (inp : List UInt8) (s : Accumulator σ) : Option (Accumulator σ) :=
  blockwiseAccumulateFinal nblock process process inp s

/-- The loop of `cf_blockwise_acc_byte`. It fills the block once: from the second full block on, the
    bytes in it are those of the first. -/
def accByteLoop (byte : UInt8) (nbytes : Nat) (filled : Bool) (s : Accumulator σ) : Accumulator σ :=
  if nbytes ≠ 0 ∧ s.nPartial < nblock then
    let count := min nbytes (nblock - s.nPartial)
    let block := if filled then s.partialBlock else Memory.place s.partialBlock s.nPartial (List.replicate count byte)
    let full := filled || (s.nPartial == 0 && count == nblock)
    if s.nPartial + count = nblock then
      accByteLoop byte (nbytes - count) full { ctx := process s.ctx block, partialBlock := block, nPartial := 0 }
    else accByteLoop byte (nbytes - count) full { s with partialBlock := block, nPartial := s.nPartial + count }
  else s
termination_by nbytes

def blockwiseAccByte (byte : UInt8) (nbytes : Nat) (s : Accumulator σ) : Accumulator σ :=
  accByteLoop nblock process byte nbytes false s

def blockwiseAccPad (fbyte mbyte lbyte : UInt8) (nbytes : Nat) (s : Accumulator σ) : Option (Accumulator σ) :=
  match nbytes with
  | 0 => some s
  | 1 => blockwiseAccumulate nblock process [fbyte ^^^ lbyte] s
  | 2 => (blockwiseAccumulate nblock process [fbyte] s).bind (blockwiseAccumulate nblock process [lbyte])
  | n + 3 =>
    (blockwiseAccumulate nblock process [fbyte] s).bind fun s =>
      if lbyte ≠ mbyte then
        blockwiseAccumulate nblock process [lbyte] (blockwiseAccByte nblock process mbyte (n + 3 - 2) s)
      else some (blockwiseAccByte nblock process mbyte (n + 3 - 1) s)

end Accumulate

/-- The bytes in the block that was begun are `held`; what is behind them is stale. -/
structure Holding (nblock : Nat) (held : List UInt8) (s : Accumulator σ) : Prop where
  nPartial : s.nPartial = held.length
  sized : s.partialBlock.length = nblock
  front : s.partialBlock.take held.length = held

section Block

variable {nblock : Nat} {held : List UInt8} {s : Accumulator σ}

theorem Holding.empty (sized : s.partialBlock.length = nblock) (none : s.nPartial = 0) : Holding nblock [] s where
  nPartial := none
  sized := sized
  front := rfl

theorem Holding.place_length (holding : Holding nblock held s) {more : List UInt8} (room : held.length + more.length ≤ nblock) :
    (Memory.place s.partialBlock s.nPartial more).length = nblock := by
  rw [Memory.place_length, holding.sized]
  rw [holding.nPartial, holding.sized]
  exact room

theorem Holding.place_front (holding : Holding nblock held s) (more : List UInt8) :
    (Memory.place s.partialBlock s.nPartial more).take (held.length + more.length) = held ++ more := by
  rw [Memory.place, holding.nPartial, holding.front]
  exact List.take_left' List.length_append

theorem Holding.place_full (holding : Holding nblock held s) {more : List UInt8} (full : held.length + more.length = nblock) :
    Memory.place s.partialBlock s.nPartial more = held ++ more := by
  have front := holding.place_front more
  rwa [full, List.take_of_length_le (Nat.le_of_eq (holding.place_length (Nat.le_of_eq full)))] at front

theorem Holding.add (holding : Holding nblock held s) (more : List UInt8) (room : held.length + more.length ≤ nblock) (ctx : σ) :
    Holding nblock (held ++ more) ⟨ctx, Memory.place s.partialBlock s.nPartial more, s.nPartial + more.length⟩ where
  nPartial := by rw [holding.nPartial, List.length_append]
  sized := holding.place_length room
  front := by rw [List.length_append]; exact holding.place_front more

end Block

section Accumulate

variable {nblock : Nat} (process processFinal : σ → List UInt8 → σ)

theorem takeBlocks_eq (positive : 0 < nblock) (inp : List UInt8) (s : Accumulator σ) (none : s.nPartial = 0) :
    takeBlocks nblock process processFinal inp s =
      some (rest nblock inp, { s with ctx := consume nblock process processFinal s.ctx inp }) := by
  induction length : inp.length using Nat.strong_induction_on generalizing inp s with
  | _ length_ ih =>
    by_cases more : nblock ≤ inp.length
    · have full : (inp.take nblock).length = nblock := List.length_take_of_le more
      have last : (inp.drop nblock).isEmpty = decide (inp.length = nblock) := by
        rw [Bool.eq_iff_iff, List.isEmpty_iff, List.drop_eq_nil_iff, decide_eq_true_iff]
        omega
      have onward := consume_block positive process processFinal s.ctx full (inp.drop nblock)
      have left := rest_block positive full (inp.drop nblock)
      rw [List.take_append_drop] at onward left
      have step := fun ctx => ih (inp.drop nblock).length (by rw [List.length_drop]; omega) (inp.drop nblock)
        { s with ctx := ctx } none rfl
      rw [takeBlocks, if_pos ⟨positive, more⟩, if_pos none, onward, left, last]
      simp only [step]
      by_cases exact_ : inp.length = nblock
      · have nothing : (inp.drop nblock).length < nblock := by rw [List.length_drop]; omega
        simp only [exact_, if_true, decide_true, consume_short process processFinal _ nothing]
      · simp only [exact_, if_false, decide_false, Bool.false_eq_true]
    · rw [takeBlocks, if_neg fun both => more both.2, rest_short (by omega), consume_short process processFinal s.ctx (by omega)]

theorem keepRest_eq {held inp : List UInt8} {s : Accumulator σ} (holding : Holding nblock held s)
    (room : held.length + inp.length < nblock) :
    ∃ after, keepRest nblock inp s = some after ∧ after.ctx = s.ctx ∧ Holding nblock (held ++ inp) after := by
  by_cases nothing : inp = []
  · rw [nothing, keepRest, if_pos rfl, List.append_nil]
    exact ⟨s, rfl, rfl, holding⟩
  · have all : min (nblock - s.nPartial) inp.length = inp.length := by
      rw [holding.nPartial]
      omega
    have fits : s.nPartial + inp.length < nblock := by rwa [holding.nPartial]
    rw [keepRest, if_neg nothing]
    simp only [all, List.take_length, List.drop_length, if_pos fits]
    rw [keepRest, if_pos rfl]
    exact ⟨_, rfl, rfl, holding.add inp (Nat.le_of_lt room) s.ctx⟩

/-- What the first part of a call leaves: the rest of the input with either nothing held or nothing
    left, and the same work to do. -/
structure Filled (nblock : Nat) (process processFinal : σ → List UInt8 → σ) (start : σ) (stream held inp : List UInt8)
    (s : Accumulator σ) : Prop where
  holding : Holding nblock held s
  room : held.length < nblock
  either : held = [] ∨ inp = []
  work : consume nblock process processFinal start stream = consume nblock process processFinal s.ctx (held ++ inp)
  left : rest nblock stream = rest nblock (held ++ inp)

theorem fillPartial_filled {held : List UInt8} {s : Accumulator σ} (holding : Holding nblock held s)
    (room : held.length < nblock) (inp : List UInt8) :
    ∃ held', Filled nblock process processFinal s.ctx (held ++ inp) held' (fillPartial nblock process processFinal inp s).1
      (fillPartial nblock process processFinal inp s).2 := by
  rw [fillPartial]
  split
  · rename_i begun
    have nonempty := List.length_pos_iff.mpr begun.2
    have count := holding.nPartial
    have bytes : (inp.take (min (nblock - s.nPartial) inp.length)).length = min (nblock - s.nPartial) inp.length := by
      rw [List.length_take]
      omega
    have cut : held ++ inp = (held ++ inp.take (min (nblock - s.nPartial) inp.length)) ++
        inp.drop (min (nblock - s.nPartial) inp.length) := by
      rw [List.append_assoc, List.take_append_drop]
    dsimp only
    split
    · rename_i fills
      have full : held.length + (inp.take (min (nblock - s.nPartial) inp.length)).length = nblock := by omega
      have block : (held ++ inp.take (min (nblock - s.nPartial) inp.length)).length = nblock := by
        rw [List.length_append]
        exact full
      use []
      rw [holding.place_full full]
      constructor
      · exact Holding.empty block rfl
      · exact Nat.lt_of_le_of_lt (Nat.zero_le _) room
      · exact Or.inl rfl
      · rw [cut, consume_block (by omega) process processFinal s.ctx block, List.nil_append]
        split
        · rename_i last
          rw [if_pos (List.isEmpty_iff.mp last), List.isEmpty_iff.mp last, consume_nil]
        · rename_i more
          rw [if_neg fun last => more (List.isEmpty_iff.mpr last)]
      · rw [cut, rest_block (by omega) block, List.nil_append]
    · rename_i open_
      have all : min (nblock - s.nPartial) inp.length = inp.length := by omega
      use held ++ inp
      rw [all, List.take_length, List.drop_length]
      constructor
      · exact holding.add inp (by omega) s.ctx
      · rw [List.length_append]
        omega
      · exact Or.inr rfl
      · rw [List.append_nil]
      · rw [List.append_nil]
  · rename_i none
    use held
    constructor
    · exact holding
    · exact room
    · rw [← List.length_eq_zero_iff, ← holding.nPartial]
      exact Classical.or_iff_not_imp_left.mpr fun begun => Classical.not_not.mp fun some => none ⟨begun, some⟩
    · rfl
    · rfl

theorem takeBlocks_keepRest {held inp : List UInt8} {s : Accumulator σ} (holding : Holding nblock held s)
    (room : held.length < nblock) (either : held = [] ∨ inp = []) :
    ∃ after, ((takeBlocks nblock process processFinal inp s).bind fun left => keepRest nblock left.1 left.2) = some after ∧
      after.ctx = consume nblock process processFinal s.ctx (held ++ inp) ∧
      Holding nblock (rest nblock (held ++ inp)) after := by
  have positive : 0 < nblock := by omega
  cases either with
  | inl nothing =>
    rw [nothing] at holding
    rw [takeBlocks_eq process processFinal positive inp s holding.nPartial, nothing, Option.bind_some]
    have begun : Holding nblock [] { s with ctx := consume nblock process processFinal s.ctx inp } :=
      Holding.empty holding.sized holding.nPartial
    exact keepRest_eq begun (by rw [List.length_nil, Nat.zero_add]; exact rest_lt positive inp)
  | inr consumed =>
    rw [consumed, takeBlocks, if_neg fun more => Nat.not_le.mpr positive more.2, Option.bind_some, List.append_nil,
      rest_short room, consume_short process processFinal s.ctx room, keepRest, if_pos rfl]
    exact ⟨s, rfl, rfl, holding⟩

theorem blockwiseAccumulateFinal_eq {held : List UInt8} {s : Accumulator σ} (holding : Holding nblock held s)
    (room : held.length < nblock) (inp : List UInt8) :
    ∃ after, blockwiseAccumulateFinal nblock process processFinal inp s = some after ∧
      after.ctx = consume nblock process processFinal s.ctx (held ++ inp) ∧
      Holding nblock (rest nblock (held ++ inp)) after := by
  obtain ⟨held', filled⟩ := fillPartial_filled process processFinal holding room inp
  rw [blockwiseAccumulateFinal, if_pos (by rwa [holding.nPartial]), filled.work, filled.left]
  exact takeBlocks_keepRest process processFinal filled.holding filled.room filled.either

end Accumulate

section Process

variable {nblock : Nat} (process : σ → List UInt8 → σ)

structure Absorbed (nblock : Nat) (process : σ → List UInt8 → σ) (start : σ) (seen : List UInt8) (s : Accumulator σ) :
    Prop where
  ctx : s.ctx = (whole nblock seen).foldl process start
  holding : Holding nblock (rest nblock seen) s

theorem blockwiseAccumulate_absorbed (positive : 0 < nblock) {start : σ} {seen : List UInt8} {s : Accumulator σ}
    (absorbed : Absorbed nblock process start seen s) (inp : List UInt8) :
    ∃ after, blockwiseAccumulate nblock process inp s = some after ∧ Absorbed nblock process start (seen ++ inp) after := by
  obtain ⟨after, call, ctx, holding⟩ :=
    blockwiseAccumulateFinal_eq process process absorbed.holding (rest_lt positive seen) inp
  refine ⟨after, call, ?_, ?_⟩
  · rw [ctx, consume_same, absorbed.ctx]
    exact (fold_append positive process start seen inp).symm
  · rw [rest_append positive]
    exact holding

theorem Absorbed.extend (positive : 0 < nblock) {start : σ} {seen : List UInt8} {s : Accumulator σ}
    (absorbed : Absorbed nblock process start seen s) {more block : List UInt8} (room : (rest nblock seen ++ more).length < nblock)
    (holding : Holding nblock (rest nblock seen ++ more) ⟨s.ctx, block, s.nPartial + more.length⟩) :
    Absorbed nblock process start (seen ++ more) ⟨s.ctx, block, s.nPartial + more.length⟩ where
  ctx := by
    rw [fold_append positive, whole_short room, ← absorbed.ctx]
    rfl
  holding := by rwa [rest_append positive, rest_short room]

theorem Absorbed.complete (positive : 0 < nblock) {start : σ} {seen more : List UInt8} {s : Accumulator σ}
    (absorbed : Absorbed nblock process start seen s) (full : (rest nblock seen ++ more).length = nblock) :
    Absorbed nblock process start (seen ++ more)
      ⟨process s.ctx (rest nblock seen ++ more), rest nblock seen ++ more, 0⟩ where
  ctx := by
    rw [fold_append positive, whole_fill positive full, ← absorbed.ctx]
    rfl
  holding := by
    rw [rest_append positive, rest_eq_nil (by rw [full])]
    exact Holding.empty full rfl

theorem Holding.byte {held : List UInt8} {s : Accumulator σ} (holding : Holding nblock held s) {byte : UInt8}
    {filled : Bool} (same : filled = true → s.partialBlock = List.replicate nblock byte) {taken : Nat}
    (inside : held.length + taken ≤ nblock) (ctx : σ) :
    Holding nblock (held ++ List.replicate taken byte)
      ⟨ctx, if filled then s.partialBlock else Memory.place s.partialBlock s.nPartial (List.replicate taken byte),
        s.nPartial + taken⟩ := by
  cases filled with
  | false =>
    rw [if_neg Bool.false_ne_true]
    have more := holding.add (List.replicate taken byte) (by rwa [List.length_replicate]) ctx
    rwa [List.length_replicate] at more
  | true =>
    have alike := same rfl
    have front := holding.front
    rw [alike, List.take_replicate, Nat.min_eq_left (by omega)] at front
    rw [if_pos rfl]
    constructor
    · rw [List.length_append, List.length_replicate, holding.nPartial]
    · exact holding.sized
    · rw [← front, List.replicate_append_replicate, List.length_replicate, alike, List.take_replicate,
        Nat.min_eq_left inside]

theorem accByteLoop_absorbed (positive : 0 < nblock) (byte : UInt8) (nbytes : Nat) (filled : Bool) {start : σ}
    {seen : List UInt8} {s : Accumulator σ} (absorbed : Absorbed nblock process start seen s)
    (same : filled = true → s.partialBlock = List.replicate nblock byte) :
    Absorbed nblock process start (seen ++ List.replicate nbytes byte) (accByteLoop nblock process byte nbytes filled s) := by
  induction nbytes using Nat.strong_induction_on generalizing filled seen s with
  | _ nbytes ih =>
    have holding := absorbed.holding
    have below : s.nPartial < nblock := by
      rw [holding.nPartial]
      exact rest_lt positive seen
    by_cases nothing : nbytes = 0
    · rw [accByteLoop, if_neg fun more => more.1 nothing, nothing, List.replicate_zero, List.append_nil]
      exact absorbed
    · rw [accByteLoop, if_pos ⟨nothing, below⟩]
      have some : 0 < min nbytes (nblock - s.nPartial) := by omega
      have count : min nbytes (nblock - s.nPartial) ≤ nbytes := by omega
      have inside : s.nPartial + min nbytes (nblock - s.nPartial) ≤ nblock := by omega
      generalize min nbytes (nblock - s.nPartial) = taken at some count inside
      have onward : seen ++ List.replicate nbytes byte =
          (seen ++ List.replicate taken byte) ++ List.replicate (nbytes - taken) byte := by
        rw [List.append_assoc, List.replicate_append_replicate, Nat.add_sub_cancel' count]
      have wide : (rest nblock seen).length + taken ≤ nblock := by rwa [← holding.nPartial]
      have byteHeld := fun ctx => holding.byte same wide ctx
      have alike : (filled || (s.nPartial == 0 && taken == nblock)) = true →
          (if filled then s.partialBlock else Memory.place s.partialBlock s.nPartial (List.replicate taken byte)) =
            List.replicate nblock byte := by
        intro full
        rw [Bool.or_eq_true, Bool.and_eq_true, beq_iff_eq, beq_iff_eq] at full
        cases filled with
        | true => rw [if_pos rfl, same rfl]
        | false =>
          have start_ := full.resolve_left Bool.false_ne_true
          rw [if_neg Bool.false_ne_true, holding.place_full (by rw [List.length_replicate, ← holding.nPartial]; omega)]
          have nothing : rest nblock seen = [] := by rw [← List.length_eq_zero_iff, ← holding.nPartial, start_.1]
          rw [nothing, start_.2, List.nil_append]
      dsimp only
      rw [onward]
      split
      · rename_i fills
        have full : (rest nblock seen ++ List.replicate taken byte).length = nblock := by
          rw [List.length_append, List.length_replicate, ← holding.nPartial]
          exact fills
        have block : (if filled then s.partialBlock else
            Memory.place s.partialBlock s.nPartial (List.replicate taken byte)) =
              rest nblock seen ++ List.replicate taken byte := by
          have front := (byteHeld s.ctx).front
          rwa [full, List.take_of_length_le (Nat.le_of_eq (byteHeld s.ctx).sized)] at front
        apply ih (nbytes - taken) (by omega) _ _ alike
        rw [block]
        exact absorbed.complete process positive full
      · rename_i open_
        apply ih (nbytes - taken) (by omega) _ _ alike
        have extended := absorbed.extend process positive
          (show (rest nblock seen ++ List.replicate taken byte).length < nblock by rw [List.length_append, List.length_replicate, ← holding.nPartial]; omega)
          (by rw [List.length_replicate]; exact byteHeld s.ctx)
        rwa [List.length_replicate] at extended

/-- The bytes that `cf_blockwise_acc_pad` stands for. -/
def padding (fbyte mbyte lbyte : UInt8) : Nat → List UInt8
  | 0 => []
  | 1 => [fbyte ^^^ lbyte]
  | n + 2 => fbyte :: List.replicate n mbyte ++ [lbyte]

theorem blockwiseAccPad_absorbed (positive : 0 < nblock) (fbyte mbyte lbyte : UInt8) (nbytes : Nat) {start : σ}
    {seen : List UInt8} {s : Accumulator σ} (absorbed : Absorbed nblock process start seen s) :
    ∃ after, blockwiseAccPad nblock process fbyte mbyte lbyte nbytes s = some after ∧
      Absorbed nblock process start (seen ++ padding fbyte mbyte lbyte nbytes) after := by
  match nbytes with
  | 0 =>
    use s
    rw [padding, List.append_nil]
    exact ⟨rfl, absorbed⟩
  | 1 => exact blockwiseAccumulate_absorbed process positive absorbed _
  | 2 =>
    obtain ⟨first, call, fed⟩ := blockwiseAccumulate_absorbed process positive absorbed [fbyte]
    have both : seen ++ padding fbyte mbyte lbyte 2 = (seen ++ [fbyte]) ++ [lbyte] := by
      rw [List.append_assoc]
      rfl
    rw [blockwiseAccPad, call, Option.bind_some, both]
    exact blockwiseAccumulate_absorbed process positive fed [lbyte]
  | n + 3 =>
    obtain ⟨first, call, fed⟩ := blockwiseAccumulate_absorbed process positive absorbed [fbyte]
    have bytes := accByteLoop_absorbed process positive mbyte
    have split : seen ++ padding fbyte mbyte lbyte (n + 3) =
        ((seen ++ [fbyte]) ++ List.replicate (n + 1) mbyte) ++ [lbyte] := by
      rw [padding, List.append_assoc, List.append_assoc]
      rfl
    rw [blockwiseAccPad, call, Option.bind_some, split]
    by_cases alike : lbyte = mbyte
    · rw [if_neg (not_not_intro alike), alike, List.append_assoc, ← List.replicate_succ']
      exact ⟨_, rfl, bytes (n + 2) false fed fun filled => absurd filled Bool.false_ne_true⟩
    · rw [if_pos alike]
      exact blockwiseAccumulate_absorbed process positive
        (bytes (n + 1) false fed fun filled => absurd filled Bool.false_ne_true) [lbyte]

/-- A call of one of the three functions that feed an accumulator. -/
inductive Feed
  | accumulate (inp : List UInt8)
  | accByte (byte : UInt8) (nbytes : Nat)
  | accPad (fbyte mbyte lbyte : UInt8) (nbytes : Nat)

def Feed.bytes : Feed → List UInt8
  | .accumulate inp => inp
  | .accByte byte nbytes => List.replicate nbytes byte
  | .accPad fbyte mbyte lbyte nbytes => padding fbyte mbyte lbyte nbytes

def Feed.run (nblock : Nat) (process : σ → List UInt8 → σ) (s : Accumulator σ) : Feed → Option (Accumulator σ)
  | .accumulate inp => blockwiseAccumulate nblock process inp s
  | .accByte byte nbytes => some (blockwiseAccByte nblock process byte nbytes s)
  | .accPad fbyte mbyte lbyte nbytes => blockwiseAccPad nblock process fbyte mbyte lbyte nbytes s

theorem feed_absorbed (positive : 0 < nblock) (feed : Feed) {start : σ} {seen : List UInt8} {s : Accumulator σ}
    (absorbed : Absorbed nblock process start seen s) :
    ∃ after, feed.run nblock process s = some after ∧ Absorbed nblock process start (seen ++ feed.bytes) after := by
  cases feed with
  | accumulate inp => exact blockwiseAccumulate_absorbed process positive absorbed inp
  | accByte byte nbytes =>
    exact ⟨_, rfl, accByteLoop_absorbed process positive byte nbytes false absorbed
      fun filled => absurd filled Bool.false_ne_true⟩
  | accPad fbyte mbyte lbyte nbytes => exact blockwiseAccPad_absorbed process positive fbyte mbyte lbyte nbytes absorbed

theorem feeds_absorbed (positive : 0 < nblock) (feeds : List Feed) {start : σ} {seen : List UInt8} {s : Accumulator σ}
    (absorbed : Absorbed nblock process start seen s) :
    ∃ after, feeds.foldlM (Feed.run nblock process) s = some after ∧
      Absorbed nblock process start (seen ++ feeds.flatMap Feed.bytes) after := by
  induction feeds generalizing seen s with
  | nil => exact ⟨s, rfl, by rwa [List.flatMap_nil, List.append_nil]⟩
  | cons feed feeds ih =>
    obtain ⟨next, call, fed⟩ := feed_absorbed process positive feed absorbed
    obtain ⟨after, run, done⟩ := ih fed
    refine ⟨after, ?_, ?_⟩
    · rw [List.foldlM_cons, call]
      exact run
    · rwa [List.flatMap_cons, ← List.append_assoc]

theorem fresh_absorbed (start : σ) {buffer : List UInt8} (sized : buffer.length = nblock) :
    Absorbed nblock process start [] ⟨start, buffer, 0⟩ where
  ctx := by rw [whole_nil, List.foldl_nil]
  holding := by
    rw [rest_nil]
    exact Holding.empty sized rfl

/-- Any calls in any order, on an empty buffer with anything in it: no assertion fails, the block
    function has run over the full blocks of all the bytes in their order, and the bytes behind them
    are at the front of the buffer. -/
theorem feeds_blocks (positive : 0 < nblock) (start : σ) (buffer : List UInt8) (sized : buffer.length = nblock)
    (feeds : List Feed) : ∃ after, feeds.foldlM (Feed.run nblock process) ⟨start, buffer, 0⟩ = some after ∧
      after.ctx = (whole nblock (feeds.flatMap Feed.bytes)).foldl process start ∧
      after.nPartial = (feeds.flatMap Feed.bytes).length % nblock ∧
      after.partialBlock.take after.nPartial = rest nblock (feeds.flatMap Feed.bytes) := by
  obtain ⟨after, run, absorbed⟩ := feeds_absorbed process positive feeds (fresh_absorbed process start sized)
  have front := absorbed.holding.front
  rw [← absorbed.holding.nPartial] at front
  refine ⟨after, run, absorbed.ctx, ?_, front⟩
  rw [absorbed.holding.nPartial, rest_length]
  rfl

theorem feeds_blocks_sample : ∃ after,
    [Feed.accumulate [1, 2, 3], .accByte 7 4, .accPad 0x80 0 0 2].foldlM (Feed.run 4 (fun ctx block => ctx ++ [block]))
      ⟨[], [9, 9, 9, 9], 0⟩ = some after ∧
      after.ctx = (whole 4 [1, 2, 3, 7, 7, 7, 7, 0x80, 0]).foldl (fun ctx block => ctx ++ [block]) [] ∧
      after.nPartial = 9 % 4 ∧ after.partialBlock.take after.nPartial = rest 4 [1, 2, 3, 7, 7, 7, 7, 0x80, 0] :=
  feeds_blocks (fun ctx block => ctx ++ [block]) (by decide) [] [9, 9, 9, 9] rfl
    [.accumulate [1, 2, 3], .accByte 7 4, .accPad 0x80 0 0 2]

end Process

end Cifra
