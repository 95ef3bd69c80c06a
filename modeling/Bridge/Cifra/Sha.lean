import Bridge.Cifra.Aes
import Bridge.Cifra.Blockwise
import Bridge.Library.Digest
import Bridge.Library.Window

namespace Cifra

open Blockwise

def readWord (inp : List UInt8) (t : Nat) : UInt32 :=
  word4 (inp.getD (4 * t) 0) (inp.getD (4 * t + 1) 0) (inp.getD (4 * t + 2) 0) (inp.getD (4 * t + 3) 0)

def write32Be (w : UInt32) : List UInt8 := [byte w 0, byte w 1, byte w 2, byte w 3]

def write64Be (v : Nat) : List UInt8 :=
  (List.range 8).map fun i => UInt8.ofNat (v / 256 ^ (7 - i) % 256)

section Sha1

def sha1Iv : List UInt32 := [0x67452301, 0xefcdab89, 0x98badcfe, 0x10325476, 0xc3d2e1f0]

structure Sha1Regs where
  a : UInt32
  b : UInt32
  c : UInt32
  d : UInt32
  e : UInt32

def sha1Mix (b c d : UInt32) (t : Nat) : UInt32 × UInt32 :=
  if t ≤ 19 then (b &&& c ||| ~~~b &&& d, 0x5a827999)
  else if t ≤ 39 then (b ^^^ c ^^^ d, 0x6ed9eba1)
  else if t ≤ 59 then (b &&& c ||| b &&& d ||| c &&& d, 0x8f1bbcdc)
  else (b ^^^ c ^^^ d, 0xca62c1d6)

def sha1Round (r : Sha1Regs) (t : Nat) (wt : UInt32) : Sha1Regs :=
  let (f, k) := sha1Mix r.b r.c r.d t
  { a := rotl32 r.a 5 + f + r.e + k + wt, b := r.a, c := rotl32 r.b 30, d := r.c, e := r.d }

def sha1Next (back : Fin 16 → UInt32) : UInt32 := rotl32 (back 2 ^^^ back 7 ^^^ back 13 ^^^ back 15) 1

def sha1Word (inp : List UInt8) (w : List UInt32) (t : Nat) : UInt32 :=
  if t < 16 then readWord inp t
  else rotl32 (w.getD ((t - 3) % 16) 0 ^^^ w.getD ((t - 8) % 16) 0 ^^^ w.getD ((t - 14) % 16) 0 ^^^ w.getD ((t - 16) % 16) 0) 1

def sha1Regs (h : List UInt32) : Sha1Regs := ⟨h.getD 0 0, h.getD 1 0, h.getD 2 0, h.getD 3 0, h.getD 4 0⟩

def sha1Add (h : List UInt32) (r : Sha1Regs) : List UInt32 :=
  [h.getD 0 0 + r.a, h.getD 1 0 + r.b, h.getD 2 0 + r.c, h.getD 3 0 + r.d, h.getD 4 0 + r.e]

def sha1UpdateBlock (h : List UInt32) (inp : List UInt8) : List UInt32 :=
  let last := (List.range 80).foldl
    (fun s t =>
      let wt := sha1Word inp s.1 t
      (s.1.set (t % 16) wt, sha1Round s.2 t wt))
    (List.replicate 16 0, sha1Regs h)
  sha1Add h last.2

/-- The compression of the standard: the message schedule first, then the rounds. -/
def sha1Compress (h : List UInt32) (inp : List UInt8) : List UInt32 :=
  sha1Add h ((List.range 80).foldl (fun r t => sha1Round r t (Window.sequence (readWord inp) sha1Next t)) (sha1Regs h))

theorem sha1UpdateBlock_eq (h : List UInt32) (inp : List UInt8) : sha1UpdateBlock h inp = sha1Compress h inp := by
  have run := Window.window_run (show 0 < 16 by decide) (readWord inp) sha1Next sha1Round (List.replicate 16 0)
    List.length_replicate (sha1Regs h) 80
  rw [sha1UpdateBlock, sha1Compress]
  exact congrArg (sha1Add h) run.1

end Sha1

section Sha256

def sha256Iv : List UInt32 :=
  [0x6a09e667, 0xbb67ae85, 0x3c6ef372, 0xa54ff53a, 0x510e527f, 0x9b05688c, 0x1f83d9ab, 0x5be0cd19]

def sha224Iv : List UInt32 :=
  [0xc1059ed8, 0x367cd507, 0x3070dd17, 0xf70e5939, 0xffc00b31, 0x68581511, 0x64f98fa7, 0xbefa4fa4]

def sha256K : List UInt32 :=
  [0x428a2f98, 0x71374491, 0xb5c0fbcf, 0xe9b5dba5, 0x3956c25b, 0x59f111f1, 0x923f82a4, 0xab1c5ed5,
   0xd807aa98, 0x12835b01, 0x243185be, 0x550c7dc3, 0x72be5d74, 0x80deb1fe, 0x9bdc06a7, 0xc19bf174,
   0xe49b69c1, 0xefbe4786, 0x0fc19dc6, 0x240ca1cc, 0x2de92c6f, 0x4a7484aa, 0x5cb0a9dc, 0x76f988da,
   0x983e5152, 0xa831c66d, 0xb00327c8, 0xbf597fc7, 0xc6e00bf3, 0xd5a79147, 0x06ca6351, 0x14292967,
   0x27b70a85, 0x2e1b2138, 0x4d2c6dfc, 0x53380d13, 0x650a7354, 0x766a0abb, 0x81c2c92e, 0x92722c85,
   0xa2bfe8a1, 0xa81a664b, 0xc24b8b70, 0xc76c51a3, 0xd192e819, 0xd6990624, 0xf40e3585, 0x106aa070,
   0x19a4c116, 0x1e376c08, 0x2748774c, 0x34b0bcb5, 0x391c0cb3, 0x4ed8aa4a, 0x5b9cca4f, 0x682e6ff3,
   0x748f82ee, 0x78a5636f, 0x84c87814, 0x8cc70208, 0x90befffa, 0xa4506ceb, 0xbef9a3f7, 0xc67178f2]

def ch (x y z : UInt32) : UInt32 := x &&& y ^^^ ~~~x &&& z
def maj (x y z : UInt32) : UInt32 := x &&& y ^^^ x &&& z ^^^ y &&& z
def bsig0 (x : UInt32) : UInt32 := rotr32 x 2 ^^^ rotr32 x 13 ^^^ rotr32 x 22
def bsig1 (x : UInt32) : UInt32 := rotr32 x 6 ^^^ rotr32 x 11 ^^^ rotr32 x 25
def ssig0 (x : UInt32) : UInt32 := rotr32 x 7 ^^^ rotr32 x 18 ^^^ x >>> 3
def ssig1 (x : UInt32) : UInt32 := rotr32 x 17 ^^^ rotr32 x 19 ^^^ x >>> 10

structure Sha256Regs where
  a : UInt32
  b : UInt32
  c : UInt32
  d : UInt32
  e : UInt32
  f : UInt32
  g : UInt32
  h : UInt32

def sha256Round (r : Sha256Regs) (t : Nat) (wt : UInt32) : Sha256Regs :=
  let t1 := r.h + bsig1 r.e + ch r.e r.f r.g + sha256K.getD t 0 + wt
  let t2 := bsig0 r.a + maj r.a r.b r.c
  { a := t1 + t2, b := r.a, c := r.b, d := r.c, e := r.d + t1, f := r.e, g := r.f, h := r.g }

def sha256Next (back : Fin 16 → UInt32) : UInt32 := ssig1 (back 1) + back 6 + ssig0 (back 14) + back 15

def sha256Word (inp : List UInt8) (w : List UInt32) (t : Nat) : UInt32 :=
  if t < 16 then readWord inp t
  else ssig1 (w.getD ((t - 2) % 16) 0) + w.getD ((t - 7) % 16) 0 + ssig0 (w.getD ((t - 15) % 16) 0) + w.getD ((t - 16) % 16) 0

def sha256Regs (h : List UInt32) : Sha256Regs :=
  ⟨h.getD 0 0, h.getD 1 0, h.getD 2 0, h.getD 3 0, h.getD 4 0, h.getD 5 0, h.getD 6 0, h.getD 7 0⟩

def sha256Add (h : List UInt32) (r : Sha256Regs) : List UInt32 :=
  [h.getD 0 0 + r.a, h.getD 1 0 + r.b, h.getD 2 0 + r.c, h.getD 3 0 + r.d, h.getD 4 0 + r.e, h.getD 5 0 + r.f,
   h.getD 6 0 + r.g, h.getD 7 0 + r.h]

def sha256UpdateBlock (h : List UInt32) (inp : List UInt8) : List UInt32 :=
  let last := (List.range 64).foldl
    (fun s t =>
      let wt := sha256Word inp s.1 t
      (s.1.set (t % 16) wt, sha256Round s.2 t wt))
    (List.replicate 16 0, sha256Regs h)
  sha256Add h last.2

def sha256Compress (h : List UInt32) (inp : List UInt8) : List UInt32 :=
  sha256Add h
    ((List.range 64).foldl (fun r t => sha256Round r t (Window.sequence (readWord inp) sha256Next t)) (sha256Regs h))

theorem sha256UpdateBlock_eq (h : List UInt32) (inp : List UInt8) : sha256UpdateBlock h inp = sha256Compress h inp := by
  have run := Window.window_run (show 0 < 16 by decide) (readWord inp) sha256Next sha256Round (List.replicate 16 0)
    List.length_replicate (sha256Regs h) 64
  rw [sha256UpdateBlock, sha256Compress]
  exact congrArg (sha256Add h) run.1

end Sha256

/-- What the hash functions of `sha1.c` and `sha256.c` differ in: the chaining value at the start, the
    block function and the length of the digest. -/
structure ShaFunction where
  iv : List UInt32
  updateBlock : List UInt32 → List UInt8 → List UInt32
  hashsz : Nat

def sha1 : ShaFunction := ⟨sha1Iv, sha1UpdateBlock, 20⟩
def sha256 : ShaFunction := ⟨sha256Iv, sha256UpdateBlock, 32⟩
def sha224 : ShaFunction := ⟨sha224Iv, sha256UpdateBlock, 28⟩

structure ShaState where
  h : List UInt32
  blocks : Nat

abbrev ShaContext := Accumulator ShaState

section Code

variable (f : ShaFunction)

def shaProcess (s : ShaState) (block : List UInt8) : ShaState := ⟨f.updateBlock s.h block, (s.blocks + 1) % 2 ^ 32⟩

def shaInit : ShaContext := ⟨⟨f.iv, 0⟩, List.replicate 64 0, 0⟩

def shaUpdate (data : List UInt8) (ctx : ShaContext) : Option ShaContext := blockwiseAccumulate 64 (shaProcess f) data ctx

/-- `cf_sha1_digest_final` and its like; the shorter digest is the front of the longer one. -/
def shaDigestFinal (ctx : ShaContext) : Option (List UInt8) := do
  let digestedBytes := (ctx.ctx.blocks * 64 + ctx.nPartial) % 2 ^ 64
  let digestedBits := digestedBytes * 8 % 2 ^ 64
  let padbytes := 64 - (digestedBytes + 8) % 64
  let ctx ← blockwiseAccPad 64 (shaProcess f) 0x80 0x00 0x00 padbytes ctx
  let ctx ← shaUpdate f (write64Be digestedBits) ctx
  if ctx.nPartial = 0 then some ((ctx.ctx.h.flatMap write32Be).take f.hashsz) else none

/-- `cf_sha1_digest`: it works on a copy, and leaves the context as it was. -/
def shaDigest (ctx : ShaContext) : Option (List UInt8) := shaDigestFinal f ctx

def sha1Init : ShaContext := shaInit sha1
def sha1Update : List UInt8 → ShaContext → Option ShaContext := shaUpdate sha1
def sha1Digest : ShaContext → Option (List UInt8) := shaDigest sha1
def sha256Init : ShaContext := shaInit sha256
def sha256Update : List UInt8 → ShaContext → Option ShaContext := shaUpdate sha256
def sha256Digest : ShaContext → Option (List UInt8) := shaDigest sha256
def sha224Init : ShaContext := shaInit sha224
def sha224Update : List UInt8 → ShaContext → Option ShaContext := shaUpdate sha224
def sha224Digest : ShaContext → Option (List UInt8) := shaDigest sha224

/-- The hash function that the code computes: the compression over the padded message. -/
def ShaFunction.hash (message : List UInt8) : List UInt8 :=
  ((Digest.chain f.updateBlock f.iv message).flatMap write32Be).take f.hashsz

end Code

theorem write64Be_eq (v : Nat) : write64Be v = Ccm.bigEndian 8 v := by
  have bytes : ∀ width, (List.range width).map (fun i => UInt8.ofNat (v / 256 ^ (width - 1 - i) % 256)) =
      Ccm.bigEndian width v := by
    intro width
    induction width generalizing v with
    | zero => rfl
    | succ width ih =>
      rw [List.range_succ, List.map_append, Ccm.bigEndian, ← ih (v / 256)]
      congr 1
      · apply List.map_congr_left
        intro i inside
        have early := List.mem_range.mp inside
        rw [Nat.div_div_eq_div_mul, ← Nat.pow_succ', show (width - 1 - i).succ = width + 1 - 1 - i by omega]
      · rw [List.map_singleton, Nat.add_sub_cancel, Nat.sub_self, Nat.pow_zero, Nat.div_one]
  exact bytes 8

theorem padding_mark (n : Nat) : padding 0x80 0x00 0x00 (n + 1) = 0x80 :: List.replicate n 0 := by
  cases n with
  | zero => rfl
  | succ n => rw [padding, List.replicate_succ', List.cons_append]

theorem shaProcess_fold (f : ShaFunction) (blocks : List (List UInt8)) (s : ShaState) (small : s.blocks < 2 ^ 32) :
    blocks.foldl (shaProcess f) s = ⟨blocks.foldl f.updateBlock s.h, (s.blocks + blocks.length) % 2 ^ 32⟩ := by
  induction blocks generalizing s with
  | nil =>
    rw [List.foldl_nil, List.foldl_nil, List.length_nil, Nat.add_zero, Nat.mod_eq_of_lt small]
  | cons block blocks ih =>
    rw [List.foldl_cons, List.foldl_cons, ih _ (Nat.mod_lt _ (Nat.two_pow_pos 32)), shaProcess, List.length_cons,
      Nat.mod_add_mod, Nat.add_right_comm, Nat.add_assoc]

/-- The digest of what has been fed, in whatever pieces; the number of blocks is counted in 32 bits,
    hence the bound. -/
theorem shaDigest_eq (f : ShaFunction) {seen : List UInt8} {ctx : ShaContext}
    (absorbed : Absorbed 64 (shaProcess f) ⟨f.iv, 0⟩ seen ctx) (short : seen.length < 2 ^ 38) :
    shaDigest f ctx = some (f.hash seen) := by
  have positive : 0 < 64 := by decide
  have blocks : ctx.ctx.blocks = seen.length / 64 := by
    rw [absorbed.ctx, shaProcess_fold f _ _ (Nat.two_pow_pos 32), whole_length]
    dsimp only
    omega
  have bytes : (ctx.ctx.blocks * 64 + ctx.nPartial) % 2 ^ 64 = seen.length := by
    rw [blocks, absorbed.holding.nPartial, rest_length]
    omega
  have bits : seen.length * 8 % 2 ^ 64 = 8 * seen.length := by omega
  have count : 64 - (seen.length + 8) % 64 = (119 - seen.length % 64) % 64 + 1 := by omega
  obtain ⟨padded, first, fed⟩ := blockwiseAccPad_absorbed (shaProcess f) positive 0x80 0x00 0x00
    (64 - (seen.length + 8) % 64) absorbed
  obtain ⟨last, second, fed⟩ := blockwiseAccumulate_absorbed (shaProcess f) positive fed (write64Be (8 * seen.length))
  rw [count, padding_mark, write64Be_eq, List.append_assoc, List.cons_append, ← List.cons_append, ← List.append_assoc] at fed
  change Absorbed 64 (shaProcess f) _ (Digest.mdPad seen) last at fed
  have aligned : last.nPartial = 0 := by
    rw [fed.holding.nPartial, rest_eq_nil (Digest.mdPad_aligned seen), List.length_nil]
  have chained : last.ctx.h = Digest.chain f.updateBlock f.iv seen := by
    rw [fed.ctx, shaProcess_fold f _ _ (Nat.two_pow_pos 32)]
    rfl
  simp only [shaDigest, shaDigestFinal, bytes, bits, first, shaUpdate, second, aligned, if_true, chained,
    Option.bind_eq_bind, Option.bind_some]
  rfl

theorem sha_pieces (f : ShaFunction) (pieces : List (List UInt8)) (short : pieces.flatten.length < 2 ^ 38) :
    ∃ ctx, pieces.foldlM (fun ctx data => shaUpdate f data ctx) (shaInit f) = some ctx ∧
      shaDigest f ctx = some (f.hash pieces.flatten) := by
  have start : Absorbed 64 (shaProcess f) ⟨f.iv, 0⟩ [] (shaInit f) := fresh_absorbed _ _ List.length_replicate
  obtain ⟨ctx, run, absorbed⟩ := feeds_absorbed (shaProcess f) (by decide) (pieces.map Feed.accumulate) start
  have bytes : (pieces.map Feed.accumulate).flatMap Feed.bytes = pieces.flatten := by
    rw [List.flatMap_map, List.flatMap_def]
    exact congrArg List.flatten (List.map_id pieces)
  rw [bytes, List.nil_append] at absorbed
  rw [List.foldlM_map] at run
  exact ⟨ctx, run, shaDigest_eq f absorbed short⟩

theorem write32Be_length (w : UInt32) : (write32Be w).length = 4 := rfl

theorem words_length (words : List UInt32) : (words.flatMap write32Be).length = 4 * words.length := by
  rw [List.length_flatMap, List.map_congr_left fun w _ => write32Be_length w, List.map_const', List.sum_replicate_nat,
    Nat.mul_comm]

theorem chain_length (compress : List UInt32 → List UInt8 → List UInt32) (iv : List UInt32)
    (keeps : ∀ h block, (compress h block).length = iv.length) (message : List UInt8) :
    (Digest.chain compress iv message).length = iv.length := by
  rw [Digest.chain]
  generalize Blockwise.whole 64 (Digest.mdPad message) = blocks
  induction blocks using List.reverseRecOn with
  | nil => rfl
  | append_singleton blocks block _ => rw [List.foldl_append, List.foldl_cons, List.foldl_nil, keeps]

theorem sha1Add_length (h : List UInt32) (r : Sha1Regs) : (sha1Add h r).length = sha1Iv.length := rfl

theorem sha1UpdateBlock_length (h : List UInt32) (block : List UInt8) : (sha1UpdateBlock h block).length = sha1Iv.length := by
  rw [sha1UpdateBlock_eq, sha1Compress, sha1Add_length]

theorem sha256Add_length (h : List UInt32) (r : Sha256Regs) : (sha256Add h r).length = sha256Iv.length := rfl

theorem sha256UpdateBlock_length (h : List UInt32) (block : List UInt8) :
    (sha256UpdateBlock h block).length = sha256Iv.length := by
  rw [sha256UpdateBlock_eq, sha256Compress, sha256Add_length]

theorem hash_whole (f : ShaFunction) (keeps : ∀ h block, (f.updateBlock h block).length = f.iv.length)
    (full : f.hashsz = 4 * f.iv.length) (message : List UInt8) :
    f.hash message = (Digest.chain f.updateBlock f.iv message).flatMap write32Be := by
  rw [ShaFunction.hash, List.take_of_length_le]
  rw [words_length, chain_length _ _ keeps, full]

/-- The three hash functions on a message in any pieces: the code with its window, its buffer and its
    padding gives what the standard says of the whole message. -/
theorem sha_digests (pieces : List (List UInt8)) (short : pieces.flatten.length < 2 ^ 38) :
    (∃ ctx, pieces.foldlM (fun ctx data => sha1Update data ctx) sha1Init = some ctx ∧
      sha1Digest ctx = some ((Digest.chain sha1Compress sha1Iv pieces.flatten).flatMap write32Be)) ∧
    (∃ ctx, pieces.foldlM (fun ctx data => sha256Update data ctx) sha256Init = some ctx ∧
      sha256Digest ctx = some ((Digest.chain sha256Compress sha256Iv pieces.flatten).flatMap write32Be)) ∧
    ∃ ctx, pieces.foldlM (fun ctx data => sha224Update data ctx) sha224Init = some ctx ∧
      sha224Digest ctx = some (((Digest.chain sha256Compress sha224Iv pieces.flatten).flatMap write32Be).take 28) := by
  have one : sha1UpdateBlock = sha1Compress := funext fun h => funext fun block => sha1UpdateBlock_eq h block
  have two : sha256UpdateBlock = sha256Compress := funext fun h => funext fun block => sha256UpdateBlock_eq h block
  rw [← one, ← two]
  refine ⟨?_, ?_, sha_pieces sha224 pieces short⟩
  · obtain ⟨ctx, run, digest⟩ := sha_pieces sha1 pieces short
    rw [hash_whole sha1 sha1UpdateBlock_length rfl] at digest
    exact ⟨ctx, run, digest⟩
  · obtain ⟨ctx, run, digest⟩ := sha_pieces sha256 pieces short
    rw [hash_whole sha256 sha256UpdateBlock_length rfl] at digest
    exact ⟨ctx, run, digest⟩

theorem sha_digests_sample :
    (∃ ctx, [[0x61], [0x62, 0x63]].foldlM (fun ctx data => sha1Update data ctx) sha1Init = some ctx ∧
      sha1Digest ctx = some ((Digest.chain sha1Compress sha1Iv [0x61, 0x62, 0x63]).flatMap write32Be)) ∧
    (∃ ctx, [[0x61], [0x62, 0x63]].foldlM (fun ctx data => sha256Update data ctx) sha256Init = some ctx ∧
      sha256Digest ctx = some ((Digest.chain sha256Compress sha256Iv [0x61, 0x62, 0x63]).flatMap write32Be)) ∧
    ∃ ctx, [[0x61], [0x62, 0x63]].foldlM (fun ctx data => sha224Update data ctx) sha224Init = some ctx ∧
      sha224Digest ctx = some (((Digest.chain sha256Compress sha224Iv [0x61, 0x62, 0x63]).flatMap write32Be).take 28) :=
  sha_digests [[0x61], [0x62, 0x63]] (by decide)

end Cifra
