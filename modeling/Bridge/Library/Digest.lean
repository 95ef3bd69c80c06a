import Bridge.Library.Blockwise
import Bridge.Library.CcmHeader

namespace Digest

/-- A message behind which its end is marked and its length in bits written, up to full blocks of 64
    bytes. -/
def mdPad (message : List UInt8) : List UInt8 :=
  message ++ 0x80 :: List.replicate ((119 - message.length % 64) % 64) 0 ++ Ccm.bigEndian 8 (8 * message.length)

/-- The chaining of a compression function over the blocks of a padded message. -/
def chain {σ : Type} (compress : σ → List UInt8 → σ) (start : σ) (message : List UInt8) : σ :=
  (Blockwise.whole 64 (mdPad message)).foldl compress start

theorem mdPad_length (message : List UInt8) :
    (mdPad message).length = message.length + 1 + (119 - message.length % 64) % 64 + 8 := by
  rw [mdPad, List.length_append, List.length_append, List.length_cons, List.length_replicate, Ccm.bigEndian_length]
  omega

theorem mdPad_aligned (message : List UInt8) : 64 ∣ (mdPad message).length := by
  rw [mdPad_length]
  omega

section Hmac

variable (hash : List UInt8 → List UInt8) (blocksz : Nat)

/-- The key of a MAC as a block. -/
def blockKey (key : List UInt8) : List UInt8 :=
  let short := if blocksz < key.length then hash key else key
  short ++ List.replicate (blocksz - short.length) 0

def masked (key : List UInt8) (mask : UInt8) : List UInt8 := (blockKey hash blocksz key).map (· ^^^ mask)

def hmac (key message : List UInt8) : List UInt8 :=
  hash (masked hash blocksz key 0x5c ++ hash (masked hash blocksz key 0x36 ++ message))

theorem masked_length (key : List UInt8) (mask : UInt8) (fits : ∀ message, (hash message).length ≤ blocksz) :
    (masked hash blocksz key mask).length = blocksz := by
  rw [masked, List.length_map, blockKey, List.length_append, List.length_replicate]
  split
  · have := fits key
    omega
  · omega

end Hmac

structure DrbgState where
  key : List UInt8
  value : List UInt8
  counter : Nat
deriving DecidableEq, Repr

section Drbg

variable (mac : List UInt8 → List UInt8 → List UInt8) (outlen : Nat)

def DrbgState.half (s : DrbgState) (mark : UInt8) (provided : List UInt8) : DrbgState :=
  let key := mac s.key (s.value ++ mark :: provided)
  { s with key := key, value := mac key s.value }

def DrbgState.update (s : DrbgState) (provided : List UInt8) : DrbgState :=
  if provided.isEmpty then s.half mac 0 [] else (s.half mac 0 provided).half mac 1 provided

def instantiate (seedMaterial : List UInt8) : DrbgState :=
  { (DrbgState.mk (List.replicate outlen 0) (List.replicate outlen 1) 0).update mac seedMaterial with counter := 1 }

def DrbgState.reseed (s : DrbgState) (seedMaterial : List UInt8) : DrbgState :=
  { s.update mac seedMaterial with counter := 1 }

def values (key value : List UInt8) : Nat → List (List UInt8)
  | 0 => []
  | n + 1 => mac key value :: values key (mac key value) n

/-- The values that `n` bytes take. -/
def drawn (key value : List UInt8) (n : Nat) : List (List UInt8) := values mac key value ((n + (outlen - 1)) / outlen)

/-- One request, for `n` bytes. -/
def DrbgState.generate (s : DrbgState) (additional : List UInt8) (n : Nat) : List UInt8 × DrbgState :=
  let s := if additional.isEmpty then s else s.update mac additional
  let blocks := drawn mac outlen s.key s.value n
  let s := { s with value := blocks.getLast?.getD s.value }
  (blocks.flatten.take n, { s.update mac additional with counter := s.counter + 1 })

/-- Any number of bytes, in requests of at most `most`; the additional input goes into the first one. -/
def DrbgState.output (most : Nat) (s : DrbgState) (additional : List UInt8) (n : Nat) : List UInt8 × DrbgState :=
  if 0 < n ∧ 0 < most then
    let request := s.generate mac outlen additional (min most n)
    let rest := request.2.output most [] (n - min most n)
    (request.1 ++ rest.1, rest.2)
  else ([], s)
termination_by n

variable {mac outlen}

theorem values_sized (sized : ∀ key message, (mac key message).length = outlen) (key value : List UInt8) (n : Nat) :
    ∀ block ∈ values mac key value n, block.length = outlen := by
  induction n generalizing value with
  | zero => exact fun block inside => absurd inside List.not_mem_nil
  | succ n ih =>
    intro block inside
    cases inside with
    | head => exact sized key value
    | tail _ inside => exact ih (mac key value) block inside

theorem values_length (key value : List UInt8) (n : Nat) : (values mac key value n).length = n := by
  induction n generalizing value with
  | zero => rfl
  | succ n ih => rw [values, List.length_cons, ih]

theorem values_flatten_length (sized : ∀ key message, (mac key message).length = outlen) (key value : List UInt8) (n : Nat) :
    (values mac key value n).flatten.length = n * outlen := by
  rw [List.length_flatten, List.map_congr_left (values_sized sized key value n), List.map_const', List.sum_replicate_nat,
    values_length]

theorem drawn_zero (positive : 0 < outlen) (key value : List UInt8) : drawn mac outlen key value 0 = [] := by
  rw [drawn, Nat.zero_add, Nat.div_eq_of_lt (Nat.sub_one_lt (Nat.pos_iff_ne_zero.mp positive)), values]

theorem drawn_more (positive : 0 < outlen) (key value : List UInt8) {n : Nat} (more : 0 < n) :
    drawn mac outlen key value n = mac key value :: drawn mac outlen key (mac key value) (n - min outlen n) := by
  have rounds : (n + (outlen - 1)) / outlen = (n - min outlen n + (outlen - 1)) / outlen + 1 := by
    by_cases last : n ≤ outlen
    · rw [Nat.min_eq_right last, Nat.sub_self, Nat.zero_add, Nat.div_eq_of_lt (Nat.sub_one_lt (Nat.pos_iff_ne_zero.mp positive)),
        show n + (outlen - 1) = n - 1 + outlen by omega, Nat.add_div_right _ positive, Nat.div_eq_of_lt (by omega)]
    · rw [Nat.min_eq_left (Nat.le_of_not_le last), ← Nat.add_div_right _ positive]
      congr 1
      omega
  rw [drawn, rounds, values, drawn]

theorem drawn_last (sized : ∀ key message, (mac key message).length = outlen) (key : List UInt8) {value : List UInt8}
    (same : value.length = outlen) (n : Nat) : ((drawn mac outlen key value n).getLast?.getD value).length = outlen := by
  cases last : (drawn mac outlen key value n).getLast? with
  | none => exact same
  | some block => exact values_sized sized key value _ block (List.mem_of_getLast? last)

@[simp] theorem update_counter (s : DrbgState) (provided : List UInt8) : (s.update mac provided).counter = s.counter := by
  rw [DrbgState.update]
  split
  · rfl
  · rfl

theorem generate_counter (s : DrbgState) (additional : List UInt8) (n : Nat) :
    (s.generate mac outlen additional n).2.counter = s.counter + 1 := by
  rw [DrbgState.generate]
  split
  · rfl
  · simp only [update_counter]

theorem generate_length (sized : ∀ key message, (mac key message).length = outlen) (positive : 0 < outlen) (s : DrbgState)
    (additional : List UInt8) (n : Nat) : (s.generate mac outlen additional n).1.length = n := by
  have enough := Nat.lt_mul_div_succ (n + (outlen - 1)) positive
  rw [DrbgState.generate]
  dsimp only
  rw [List.length_take, drawn, values_flatten_length sized, Nat.mul_comm]
  rw [Nat.mul_succ] at enough
  omega

theorem output_length (sized : ∀ key message, (mac key message).length = outlen) (positive : 0 < outlen) {most : Nat}
    (some : 0 < most) (s : DrbgState) (additional : List UInt8) (n : Nat) :
    (s.output mac outlen most additional n).1.length = n := by
  induction n using Nat.strong_induction_on generalizing s additional with
  | _ n ih =>
    rw [DrbgState.output]
    split
    · rename_i more
      dsimp only
      rw [List.length_append, generate_length sized positive, ih _ (by omega)]
      omega
    · rename_i none
      rw [List.length_nil]
      omega

end Drbg

end Digest
