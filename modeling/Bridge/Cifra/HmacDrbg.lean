import Bridge.Cifra.Hmac

namespace Cifra

def maxDrbgGenerate : Nat := 0x10000

section Code

variable (h : Chash)

structure HmacDrbg where
  hmac : HmacCtx h
  v : List UInt8
  reseedCounter : Nat

def macOf (ctx : HmacCtx h) (pieces : List (List UInt8)) : Option (List UInt8) :=
  (pieces.foldlM (fun ctx data => hmacUpdate h data ctx) ctx).bind (hmacFinish h)

def drbgHalf (mark : UInt8) (in1 in2 in3 : List UInt8) (ctx : HmacDrbg h) : Option (HmacDrbg h) := do
  let newKey ← macOf h ctx.hmac [ctx.v, [mark], in1, in2, in3]
  let hmac ← hmacInit h newKey
  let v ← macOf h hmac [ctx.v]
  some { ctx with hmac := hmac, v := v }

def hmacDrbgUpdate (in1 in2 in3 : List UInt8) (ctx : HmacDrbg h) : Option (HmacDrbg h) := do
  let ctx ← drbgHalf h 0 in1 in2 in3 ctx
  if in1.length = 0 ∧ in2.length = 0 ∧ in3.length = 0 then some ctx else drbgHalf h 1 in1 in2 in3 ctx

def hmacDrbgInit (entropy nonce persn : List UInt8) : Option (HmacDrbg h) :=
  if h.hashsz ≤ 64 then do
    let hmac ← hmacInit h (List.replicate h.hashsz 0)
    let ctx ← hmacDrbgUpdate h entropy nonce persn ⟨hmac, List.replicate h.hashsz 1, 0⟩
    some { ctx with reseedCounter := 1 }
  else none

def hmacDrbgReseed (entropy addnl : List UInt8) (ctx : HmacDrbg h) : Option (HmacDrbg h) :=
  (hmacDrbgUpdate h entropy addnl [] ctx).map fun ctx => { ctx with reseedCounter := 1 }

def hmacDrbgNeedsReseed (ctx : HmacDrbg h) : Bool := ctx.reseedCounter == 0

def generateLoop (hmac : HmacCtx h) (v : List UInt8) (nout : Nat) : Option (List UInt8 × List UInt8) :=
  if 0 < nout ∧ 0 < h.hashsz then do
    let v ← macOf h hmac [v]
    let take := min h.hashsz nout
    let (out, last) ← generateLoop hmac v (nout - take)
    some (v.take take ++ out, last)
  else some ([], v)
termination_by nout

def hmacDrbgGenerate (addnl : List UInt8) (nout : Nat) (ctx : HmacDrbg h) : Option (List UInt8 × HmacDrbg h) :=
  if hmacDrbgNeedsReseed h ctx then none
  else do
    let ctx ← (if addnl.length ≠ 0 then hmacDrbgUpdate h addnl [] [] ctx else some ctx)
    let (out, v) ← generateLoop h ctx.hmac ctx.v nout
    let ctx ← hmacDrbgUpdate h addnl [] [] { ctx with v := v }
    some (out, { ctx with reseedCounter := (ctx.reseedCounter + 1) % 2 ^ 32 })

def hmacDrbgGenAdditional (addnl : List UInt8) (nout : Nat) (ctx : HmacDrbg h) : Option (List UInt8 × HmacDrbg h) :=
  if nout ≠ 0 then do
    let take := min maxDrbgGenerate nout
    let (out, ctx) ← hmacDrbgGenerate h addnl take ctx
    let (rest, ctx) ← hmacDrbgGenAdditional [] (nout - take) ctx
    some (out ++ rest, ctx)
  else some ([], ctx)
termination_by nout
decreasing_by
  rw [maxDrbgGenerate]
  omega

def hmacDrbgGen (nout : Nat) (ctx : HmacDrbg h) : Option (List UInt8 × HmacDrbg h) := hmacDrbgGenAdditional h [] nout ctx

end Code

variable {h : Chash} {hash : List UInt8 → List UInt8} {limit : Nat}

/-- A generator in the state of the standard. -/
structure DrbgHolds (computes : h.Computes hash limit) (s : Digest.DrbgState) (ctx : HmacDrbg h) : Prop where
  hmac : HmacFed computes s.key [] ctx.hmac
  v : ctx.v = s.value
  counter : ctx.reseedCounter = s.counter
  sized : s.value.length = h.hashsz

theorem macOf_eq {computes : h.Computes hash limit} {key : List UInt8} {ctx : HmacCtx h} (keyed : HmacFed computes key [] ctx)
    (room : h.blocksz + h.hashsz < limit) (pieces : List (List UInt8)) (short : h.blocksz + pieces.flatten.length < limit) :
    macOf h ctx pieces = some (Digest.hmac hash h.blocksz key pieces.flatten) := by
  have feed : ∀ (pieces : List (List UInt8)) (message : List UInt8) (ctx : HmacCtx h), HmacFed computes key message ctx →
      ∃ after, pieces.foldlM (fun ctx data => hmacUpdate h data ctx) ctx = some after ∧
        HmacFed computes key (message ++ pieces.flatten) after := by
    intro pieces
    induction pieces with
    | nil => exact fun message ctx fed => ⟨ctx, rfl, by rwa [List.flatten_nil, List.append_nil]⟩
    | cons piece pieces ih =>
      intro message ctx fed
      obtain ⟨next, call, fed⟩ := hmacUpdate_fed fed piece
      obtain ⟨after, run, fed⟩ := ih _ _ fed
      refine ⟨after, ?_, ?_⟩
      · rw [List.foldlM_cons, call]
        exact run
      · rwa [List.flatten_cons, ← List.append_assoc]
  obtain ⟨after, run, fed⟩ := feed pieces [] ctx keyed
  rw [List.nil_append] at fed
  rw [macOf, run, Option.bind_some, hmacFinish_eq fed room short]

theorem drbgHalf_holds {computes : h.Computes hash limit} {s : Digest.DrbgState} {ctx : HmacDrbg h}
    (holds : DrbgHolds computes s ctx) (mark : UInt8) (in1 in2 in3 : List UInt8)
    (short : h.blocksz + h.hashsz + 1 + (in1 ++ in2 ++ in3).length < limit) :
    ∃ after, drbgHalf h mark in1 in2 in3 ctx = some after ∧
      DrbgHolds computes (s.half (Digest.hmac hash h.blocksz) mark (in1 ++ in2 ++ in3)) after := by
  have bytes : [ctx.v, [mark], in1, in2, in3].flatten = s.value ++ mark :: (in1 ++ in2 ++ in3) := by
    simp [holds.v]
  have alone : [ctx.v].flatten = s.value := by simp [holds.v]
  have length : (s.value ++ mark :: (in1 ++ in2 ++ in3)).length = h.hashsz + 1 + (in1 ++ in2 ++ in3).length := by
    rw [List.length_append, List.length_cons, holds.sized]
    omega
  have newKey := macOf_eq holds.hmac (by omega) [ctx.v, [mark], in1, in2, in3] (by rw [bytes, length]; omega)
  rw [bytes] at newKey
  obtain ⟨hmac, init, keyed⟩ := hmacInit_fed computes
    (show (Digest.hmac hash h.blocksz s.key (s.value ++ mark :: (in1 ++ in2 ++ in3))).length < limit by
      rw [Digest.hmac, computes.sized]
      omega)
  have newV := macOf_eq keyed (by omega) [ctx.v] (by rw [alone, holds.sized]; omega)
  rw [alone] at newV
  refine ⟨{ ctx with hmac := hmac, v := _ }, ?_, keyed, rfl, holds.counter, ?_⟩
  · simp only [drbgHalf, newKey, init, newV, Option.bind_eq_bind, Option.bind_some]
    rfl
  · exact computes.sized _

theorem hmacDrbgUpdate_holds {computes : h.Computes hash limit} {s : Digest.DrbgState} {ctx : HmacDrbg h}
    (holds : DrbgHolds computes s ctx) (in1 in2 in3 : List UInt8)
    (short : h.blocksz + h.hashsz + 1 + (in1 ++ in2 ++ in3).length < limit) :
    ∃ after, hmacDrbgUpdate h in1 in2 in3 ctx = some after ∧
      DrbgHolds computes (s.update (Digest.hmac hash h.blocksz) (in1 ++ in2 ++ in3)) after := by
  obtain ⟨first, call, half⟩ := drbgHalf_holds holds 0 in1 in2 in3 short
  have empty : (in1 ++ in2 ++ in3).isEmpty = true ↔ in1.length = 0 ∧ in2.length = 0 ∧ in3.length = 0 := by
    simp
  rw [hmacDrbgUpdate, call, Digest.DrbgState.update]
  simp only [Option.bind_eq_bind, Option.bind_some]
  by_cases none : in1.length = 0 ∧ in2.length = 0 ∧ in3.length = 0
  · rw [if_pos none, if_pos (empty.mpr none)]
    rw [List.isEmpty_iff.mp (empty.mpr none)] at half
    exact ⟨first, rfl, half⟩
  · rw [if_neg none, if_neg fun provided => none (empty.mp provided)]
    exact drbgHalf_holds half 1 in1 in2 in3 short

theorem hmacDrbgInit_holds (computes : h.Computes hash limit) (small : h.hashsz ≤ 64) (entropy nonce persn : List UInt8)
    (short : h.blocksz + h.hashsz + 1 + (entropy ++ nonce ++ persn).length < limit) :
    ∃ ctx, hmacDrbgInit h entropy nonce persn = some ctx ∧
      DrbgHolds computes (Digest.instantiate (Digest.hmac hash h.blocksz) h.hashsz (entropy ++ nonce ++ persn)) ctx := by
  obtain ⟨hmac, init, keyed⟩ := hmacInit_fed computes (show (List.replicate h.hashsz (0 : UInt8)).length < limit by
    rw [List.length_replicate]
    omega)
  have start : DrbgHolds computes ⟨List.replicate h.hashsz 0, List.replicate h.hashsz 1, 0⟩
      ⟨hmac, List.replicate h.hashsz 1, 0⟩ := ⟨keyed, rfl, rfl, List.length_replicate⟩
  obtain ⟨ctx, update, holds⟩ := hmacDrbgUpdate_holds start entropy nonce persn short
  refine ⟨{ ctx with reseedCounter := 1 }, ?_, holds.hmac, holds.v, rfl, holds.sized⟩
  simp only [hmacDrbgInit, if_pos small, init, update, Option.bind_eq_bind, Option.bind_some]

theorem hmacDrbgReseed_holds {computes : h.Computes hash limit} {s : Digest.DrbgState} {ctx : HmacDrbg h}
    (holds : DrbgHolds computes s ctx) (entropy addnl : List UInt8)
    (short : h.blocksz + h.hashsz + 1 + (entropy ++ addnl).length < limit) :
    ∃ after, hmacDrbgReseed h entropy addnl ctx = some after ∧
      DrbgHolds computes (s.reseed (Digest.hmac hash h.blocksz) (entropy ++ addnl)) after := by
  obtain ⟨next, update, fed⟩ := hmacDrbgUpdate_holds holds entropy addnl [] (by rwa [List.append_nil])
  rw [List.append_nil] at fed
  refine ⟨{ next with reseedCounter := 1 }, ?_, fed.hmac, fed.v, rfl, fed.sized⟩
  rw [hmacDrbgReseed, update]
  rfl

theorem generateLoop_eq {computes : h.Computes hash limit} {key : List UInt8} {hmac : HmacCtx h}
    (keyed : HmacFed computes key [] hmac) (positive : 0 < h.hashsz) (room : h.blocksz + h.hashsz < limit) (nout : Nat)
    {v : List UInt8} (sized : v.length = h.hashsz) : generateLoop h hmac v nout =
      some ((Digest.drawn (Digest.hmac hash h.blocksz) h.hashsz key v nout).flatten.take nout,
        (Digest.drawn (Digest.hmac hash h.blocksz) h.hashsz key v nout).getLast?.getD v) := by
  induction nout using Nat.strong_induction_on generalizing v with
  | _ nout ih =>
    rw [generateLoop]
    by_cases some_ : 0 < nout
    · have alone : [v].flatten = v := by simp
      have next := macOf_eq keyed room [v] (by rw [alone, sized]; exact room)
      have width : (Digest.hmac hash h.blocksz key v).length = h.hashsz := computes.sized _
      have onward := ih (nout - min h.hashsz nout) (by omega) width
      rw [alone] at next
      rw [if_pos ⟨some_, positive⟩, next, Option.bind_eq_bind, Option.bind_some]
      simp only [onward, Option.bind_eq_bind, Option.bind_some]
      have front : (Digest.hmac hash h.blocksz key v).take (min h.hashsz nout) = (Digest.hmac hash h.blocksz key v).take nout := by
        rw [← List.take_take, List.take_of_length_le]
        rw [List.length_take, width]
        exact Nat.min_le_right nout h.hashsz
      have left : nout - min h.hashsz nout = nout - (Digest.hmac hash h.blocksz key v).length := by omega
      rw [Digest.drawn_more positive key v some_, List.flatten_cons, List.take_append, List.getLast?_cons, Option.getD_some, front,
        left]
    · have none : nout = 0 := Nat.eq_zero_of_not_pos some_
      rw [if_neg fun both => some_ both.1, none, Digest.drawn_zero positive]
      rfl

theorem hmacDrbgGenerate_holds {computes : h.Computes hash limit} {s : Digest.DrbgState} {ctx : HmacDrbg h}
    (holds : DrbgHolds computes s ctx) (positive : 0 < h.hashsz) (addnl : List UInt8) (nout : Nat)
    (short : h.blocksz + h.hashsz + 1 + addnl.length < limit) (seeded : 0 < s.counter) (small : s.counter + 1 < 2 ^ 32) :
    ∃ after, hmacDrbgGenerate h addnl nout ctx =
        some ((s.generate (Digest.hmac hash h.blocksz) h.hashsz addnl nout).1, after) ∧
      DrbgHolds computes (s.generate (Digest.hmac hash h.blocksz) h.hashsz addnl nout).2 after := by
  have provided : addnl ++ [] ++ [] = addnl := by simp
  have fresh : ¬hmacDrbgNeedsReseed h ctx = true := by
    rw [hmacDrbgNeedsReseed, beq_iff_eq, holds.counter]
    omega
  have mixed : ∃ next, (if addnl.length ≠ 0 then hmacDrbgUpdate h addnl [] [] ctx else some ctx) = some next ∧
      DrbgHolds computes (if addnl.isEmpty then s else s.update (Digest.hmac hash h.blocksz) addnl) next := by
    by_cases none : addnl = []
    · rw [none]
      exact ⟨ctx, rfl, holds⟩
    · have updated := hmacDrbgUpdate_holds holds addnl [] [] (by rwa [provided])
      rw [provided] at updated
      rw [if_pos fun zero => none (List.length_eq_zero_iff.mp zero), if_neg (by rwa [List.isEmpty_iff])]
      exact updated
  obtain ⟨next, first, fed⟩ := mixed
  have loop := generateLoop_eq fed.hmac positive (by omega) nout fed.sized
  generalize mixedState : (if addnl.isEmpty then s else s.update (Digest.hmac hash h.blocksz) addnl) = s' at fed loop
  have drawn : DrbgHolds computes
      { s' with value := (Digest.drawn (Digest.hmac hash h.blocksz) h.hashsz s'.key s'.value nout).getLast?.getD s'.value }
      { next with v := (Digest.drawn (Digest.hmac hash h.blocksz) h.hashsz s'.key s'.value nout).getLast?.getD s'.value } :=
    ⟨fed.hmac, rfl, fed.counter, Digest.drawn_last (fun _ _ => computes.sized _) s'.key fed.sized nout⟩
  obtain ⟨last, update, done⟩ := hmacDrbgUpdate_holds drawn addnl [] [] (by rwa [provided])
  rw [provided] at done
  have counter : last.reseedCounter = s.counter := by
    rw [done.counter, Digest.update_counter, ← mixedState]
    split
    · rfl
    · exact Digest.update_counter s addnl
  refine ⟨{ last with reseedCounter := (last.reseedCounter + 1) % 2 ^ 32 }, ?_, ?_⟩
  · simp only [hmacDrbgGenerate, if_neg fresh, first, fed.v, loop, update, Option.bind_eq_bind, Option.bind_some]
    rw [Digest.DrbgState.generate, mixedState]
  · rw [Digest.DrbgState.generate, mixedState]
    refine ⟨done.hmac, done.v, ?_, done.sized⟩
    have same := done.counter
    rw [Digest.update_counter, counter] at same
    dsimp only
    rw [counter, Nat.mod_eq_of_lt small, same]

def requests (n : Nat) : Nat := (n + (maxDrbgGenerate - 1)) / maxDrbgGenerate

theorem requests_more {n : Nat} (more : 0 < n) : requests n = requests (n - min maxDrbgGenerate n) + 1 := by
  rw [requests, requests, maxDrbgGenerate]
  omega

/-- Any number of bytes: the requests of the standard, each of at most `MAX_DRBG_GENERATE` bytes, as long
    as their counter does not wrap. -/
theorem hmacDrbgGenAdditional_holds {computes : h.Computes hash limit} (positive : 0 < h.hashsz) (nout : Nat)
    {s : Digest.DrbgState} {ctx : HmacDrbg h} (holds : DrbgHolds computes s ctx) (addnl : List UInt8)
    (short : h.blocksz + h.hashsz + 1 + addnl.length < limit) (seeded : 0 < s.counter)
    (few : s.counter + requests nout < 2 ^ 32) :
    ∃ after, hmacDrbgGenAdditional h addnl nout ctx =
        some ((s.output (Digest.hmac hash h.blocksz) h.hashsz maxDrbgGenerate addnl nout).1, after) ∧
      DrbgHolds computes (s.output (Digest.hmac hash h.blocksz) h.hashsz maxDrbgGenerate addnl nout).2 after := by
  induction nout using Nat.strong_induction_on generalizing s ctx addnl with
  | _ nout ih =>
    have many : 0 < maxDrbgGenerate := by decide
    rw [hmacDrbgGenAdditional, Digest.DrbgState.output]
    by_cases none : nout = 0
    · rw [if_neg (not_not_intro none), if_neg (by omega)]
      exact ⟨ctx, rfl, holds⟩
    · have more : 0 < nout := Nat.pos_of_ne_zero none
      have round := requests_more more
      obtain ⟨next, request, fed⟩ := hmacDrbgGenerate_holds holds positive addnl (min maxDrbgGenerate nout) short seeded (by omega)
      have counted : (s.generate (Digest.hmac hash h.blocksz) h.hashsz addnl (min maxDrbgGenerate nout)).2.counter =
          s.counter + 1 := Digest.generate_counter s addnl _
      obtain ⟨after, rest, done⟩ := ih (nout - min maxDrbgGenerate nout) (by omega) fed []
        (by rw [List.length_nil]; omega) (by omega) (by omega)
      rw [if_pos none, if_pos ⟨more, many⟩]
      refine ⟨after, ?_, done⟩
      simp only [request, rest, Option.bind_eq_bind, Option.bind_some]

theorem output_counter (mac : List UInt8 → List UInt8 → List UInt8) (outlen nout : Nat) (s : Digest.DrbgState)
    (addnl : List UInt8) : (s.output mac outlen maxDrbgGenerate addnl nout).2.counter = s.counter + requests nout := by
  induction nout using Nat.strong_induction_on generalizing s addnl with
  | _ nout ih =>
    have many : 0 < maxDrbgGenerate := by decide
    rw [Digest.DrbgState.output]
    by_cases more : 0 < nout
    · rw [if_pos ⟨more, many⟩, requests_more more]
      dsimp only
      rw [ih _ (by omega), Digest.generate_counter]
      omega
    · rw [if_neg fun both => more both.1, Nat.eq_zero_of_not_pos more]
      rfl

/-- The calls on a generator that has been seeded. -/
inductive DrbgCall
  | reseed (entropy addnl : List UInt8)
  | gen (addnl : List UInt8) (nout : Nat)

def DrbgCall.run (h : Chash) (ctx : HmacDrbg h) : DrbgCall → Option (List UInt8 × HmacDrbg h)
  | .reseed entropy addnl => (hmacDrbgReseed h entropy addnl ctx).map fun ctx => ([], ctx)
  | .gen addnl nout => hmacDrbgGenAdditional h addnl nout ctx

def DrbgCall.spec (mac : List UInt8 → List UInt8 → List UInt8) (outlen : Nat) (s : Digest.DrbgState) :
    DrbgCall → List UInt8 × Digest.DrbgState
  | .reseed entropy addnl => ([], s.reseed mac (entropy ++ addnl))
  | .gen addnl nout => s.output mac outlen maxDrbgGenerate addnl nout

def DrbgCall.input : DrbgCall → Nat
  | .reseed entropy addnl => (entropy ++ addnl).length
  | .gen addnl _ => addnl.length

def DrbgCall.count (counter : Nat) : DrbgCall → Nat
  | .reseed _ _ => 1
  | .gen _ nout => counter + requests nout

def drbgRun (h : Chash) : List DrbgCall → HmacDrbg h → Option (List (List UInt8) × HmacDrbg h)
  | [], ctx => some ([], ctx)
  | call :: calls, ctx => do
    let (out, ctx) ← call.run h ctx
    let (outs, ctx) ← drbgRun h calls ctx
    some (out :: outs, ctx)

def drbgRunSpec (mac : List UInt8 → List UInt8 → List UInt8) (outlen : Nat) :
    List DrbgCall → Digest.DrbgState → List (List UInt8) × Digest.DrbgState
  | [], s => ([], s)
  | call :: calls, s =>
    let step := call.spec mac outlen s
    let rest := drbgRunSpec mac outlen calls step.2
    (step.1 :: rest.1, rest.2)

/-- A run that reseeds before the counter wraps, and whose inputs the hash function can count. -/
def RunFits (room : Nat) : Nat → List DrbgCall → Prop
  | _, [] => True
  | counter, call :: calls => call.input < room ∧ call.count counter < 2 ^ 32 ∧ RunFits room (call.count counter) calls

theorem drbgCall_holds {computes : h.Computes hash limit} (positive : 0 < h.hashsz) {s : Digest.DrbgState} {ctx : HmacDrbg h}
    (holds : DrbgHolds computes s ctx) (seeded : 0 < s.counter) (call : DrbgCall)
    (short : call.input < limit - (h.blocksz + h.hashsz + 1)) (few : call.count s.counter < 2 ^ 32) :
    ∃ after, call.run h ctx = some ((call.spec (Digest.hmac hash h.blocksz) h.hashsz s).1, after) ∧
      DrbgHolds computes (call.spec (Digest.hmac hash h.blocksz) h.hashsz s).2 after ∧
      (call.spec (Digest.hmac hash h.blocksz) h.hashsz s).2.counter = call.count s.counter := by
  cases call with
  | reseed entropy addnl =>
    rw [DrbgCall.input] at short
    obtain ⟨after, call, done⟩ := hmacDrbgReseed_holds holds entropy addnl (by omega)
    exact ⟨after, by rw [DrbgCall.run, call]; rfl, done, rfl⟩
  | gen addnl nout =>
    rw [DrbgCall.input] at short
    obtain ⟨after, call, done⟩ := hmacDrbgGenAdditional_holds positive nout holds addnl (by omega) seeded few
    exact ⟨after, call, done, output_counter _ _ _ _ _⟩

theorem drbgRun_holds {computes : h.Computes hash limit} (positive : 0 < h.hashsz) (calls : List DrbgCall)
    {s : Digest.DrbgState} {ctx : HmacDrbg h} (holds : DrbgHolds computes s ctx) (seeded : 0 < s.counter)
    (fits : RunFits (limit - (h.blocksz + h.hashsz + 1)) s.counter calls) :
    ∃ after, drbgRun h calls ctx = some ((drbgRunSpec (Digest.hmac hash h.blocksz) h.hashsz calls s).1, after) ∧
      DrbgHolds computes (drbgRunSpec (Digest.hmac hash h.blocksz) h.hashsz calls s).2 after := by
  induction calls generalizing s ctx with
  | nil => exact ⟨ctx, rfl, holds⟩
  | cons call calls ih =>
    obtain ⟨short, few, later⟩ := fits
    obtain ⟨next, step, fed, counter⟩ := drbgCall_holds positive holds seeded call short few
    have onward : 0 < call.count s.counter := by
      cases call with
      | reseed entropy addnl => exact Nat.zero_lt_one
      | gen addnl nout => exact Nat.lt_of_lt_of_le seeded (Nat.le_add_right _ _)
    obtain ⟨after, run, done⟩ := ih fed (by rwa [counter]) (by rwa [counter])
    refine ⟨after, ?_, done⟩
    simp only [drbgRun, step, run, Option.bind_eq_bind, Option.bind_some]
    rfl

/-- Every run of the generator from its seeding on: no assertion fails, and each call puts out the
    bytes of the standard, as long as no run of requests wraps the counter. -/
theorem drbg_refines (computes : h.Computes hash limit) (positive : 0 < h.hashsz) (small : h.hashsz ≤ 64)
    (entropy nonce persn : List UInt8) (short : (entropy ++ nonce ++ persn).length < limit - (h.blocksz + h.hashsz + 1))
    (calls : List DrbgCall) (fits : RunFits (limit - (h.blocksz + h.hashsz + 1)) 1 calls) :
    ∃ after, ((hmacDrbgInit h entropy nonce persn).bind (drbgRun h calls)).map Prod.fst =
        some (drbgRunSpec (Digest.hmac hash h.blocksz) h.hashsz calls
          (Digest.instantiate (Digest.hmac hash h.blocksz) h.hashsz (entropy ++ nonce ++ persn))).1 ∧
      ((hmacDrbgInit h entropy nonce persn).bind (drbgRun h calls)).map Prod.snd = some after ∧
      DrbgHolds computes (drbgRunSpec (Digest.hmac hash h.blocksz) h.hashsz calls
        (Digest.instantiate (Digest.hmac hash h.blocksz) h.hashsz (entropy ++ nonce ++ persn))).2 after := by
  obtain ⟨first, init, holds⟩ := hmacDrbgInit_holds computes small entropy nonce persn (by omega)
  obtain ⟨after, run, done⟩ := drbgRun_holds positive calls holds Nat.zero_lt_one fits
  rw [init, Option.bind_some, run]
  exact ⟨after, rfl, rfl, done⟩

def sampleCalls : List DrbgCall := [.gen [] 16, .reseed [4] [5], .gen [6] 70000]

theorem drbg_refines_sample :
    ∃ after, ((hmacDrbgInit cfSha1 [1] [2] [3]).bind (drbgRun cfSha1 sampleCalls)).map Prod.fst =
        some (drbgRunSpec (Digest.hmac sha1.hash 64) 20 sampleCalls
          (Digest.instantiate (Digest.hmac sha1.hash 64) 20 [1, 2, 3])).1 ∧
      ((hmacDrbgInit cfSha1 [1] [2] [3]).bind (drbgRun cfSha1 sampleCalls)).map Prod.snd = some after ∧
      DrbgHolds sha1Computes (drbgRunSpec (Digest.hmac sha1.hash 64) 20 sampleCalls
        (Digest.instantiate (Digest.hmac sha1.hash 64) 20 [1, 2, 3])).2 after :=
  drbg_refines sha1Computes (Nat.zero_lt_succ 19) (by decide) [1] [2] [3] (by decide) sampleCalls
    ⟨by decide, by decide, by decide, by decide, by decide, by decide, trivial⟩

def drbgVector (h : Chash) (entropy nonce reseed : List UInt8) (nout : Nat) : Option (List UInt8) := do
  let ctx ← hmacDrbgInit h entropy nonce []
  let ctx ← hmacDrbgReseed h reseed [] ctx
  let (out, _) ← hmacDrbgGen h nout ctx
  some out

def drbgSpec (hash : List UInt8 → List UInt8) (blocksz outlen : Nat) (entropy nonce reseed : List UInt8) (nout : Nat) :
    List UInt8 :=
  (((Digest.instantiate (Digest.hmac hash blocksz) outlen (entropy ++ nonce)).reseed (Digest.hmac hash blocksz) reseed).output
    (Digest.hmac hash blocksz) outlen maxDrbgGenerate [] nout).1

theorem drbgVector_eq (computes : h.Computes hash limit) (positive : 0 < h.hashsz) (small : h.hashsz ≤ 64)
    (entropy nonce reseed : List UInt8) (nout : Nat)
    (short : h.blocksz + h.hashsz + 1 + (entropy.length + nonce.length + reseed.length) < limit)
    (few : 1 + requests nout < 2 ^ 32) :
    drbgVector h entropy nonce reseed nout = some (drbgSpec hash h.blocksz h.hashsz entropy nonce reseed nout) := by
  obtain ⟨first, init, holds⟩ := hmacDrbgInit_holds computes small entropy nonce [] (by
    rw [List.append_nil, List.length_append]
    omega)
  obtain ⟨second, reseeded, holds⟩ := hmacDrbgReseed_holds holds reseed [] (by
    rw [List.append_nil]
    omega)
  obtain ⟨last, out, _⟩ := hmacDrbgGenAdditional_holds positive nout holds [] (by
    rw [List.length_nil]
    omega) (Nat.zero_lt_one) few
  rw [List.append_nil, List.append_nil] at out
  simp only [drbgVector, init, reseeded, hmacDrbgGen, out, Option.bind_eq_bind, Option.bind_some]
  rfl

theorem drbgSpec_length (sized : ∀ message, (hash message).length = h.hashsz) (positive : 0 < h.hashsz)
    (entropy nonce reseed : List UInt8) (nout : Nat) :
    (drbgSpec hash h.blocksz h.hashsz entropy nonce reseed nout).length = nout :=
  Digest.output_length (fun _ _ => sized _) positive (by decide) _ [] nout

end Cifra
