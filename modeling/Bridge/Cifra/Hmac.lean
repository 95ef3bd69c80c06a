import Bridge.Cifra.Sha

namespace Cifra

/-- A `cf_chash`: a hash function that is fed in pieces; `none` where a call aborts. -/
structure Chash where
  Ctx : Type
  hashsz : Nat
  blocksz : Nat
  init : Ctx
  update : List UInt8 → Ctx → Option Ctx
  digest : Ctx → Option (List UInt8)

/-- What a hash function is held to: `fed` says what a context has been fed, and the digest of fewer
    than `limit` bytes is their hash. -/
structure Chash.Computes (h : Chash) (hash : List UInt8 → List UInt8) (limit : Nat) where
  fed : List UInt8 → h.Ctx → Prop
  init : fed [] h.init
  update : ∀ {seen ctx} data, fed seen ctx → ∃ after, h.update data ctx = some after ∧ fed (seen ++ data) after
  digest : ∀ {seen ctx}, fed seen ctx → seen.length < limit → h.digest ctx = some (hash seen)
  sized : ∀ message, (hash message).length = h.hashsz
  fits : h.hashsz ≤ h.blocksz

def ShaFunction.chash (f : ShaFunction) : Chash := ⟨ShaContext, f.hashsz, 64, shaInit f, shaUpdate f, shaDigest f⟩

def cfSha1 : Chash := sha1.chash
def cfSha256 : Chash := sha256.chash

section Code

variable (h : Chash)

def cfHash (message : List UInt8) : Option (List UInt8) := (h.update message h.init).bind h.digest

structure HmacCtx where
  inner : h.Ctx
  outer : h.Ctx

def hmacInit (key : List UInt8) : Option (HmacCtx h) := do
  let k ← (if h.blocksz < key.length then (if h.hashsz ≤ h.blocksz then cfHash h key else none) else some key)
  let k := k ++ List.replicate (h.blocksz - k.length) 0
  let inner ← h.update (k.map (· ^^^ 0x36)) h.init
  let outer ← h.update (k.map (· ^^^ 0x5c)) h.init
  some ⟨inner, outer⟩

def hmacUpdate (data : List UInt8) (ctx : HmacCtx h) : Option (HmacCtx h) :=
  (h.update data ctx.inner).map fun inner => { ctx with inner := inner }

def hmacFinish (ctx : HmacCtx h) : Option (List UInt8) := do
  let innerh ← h.digest ctx.inner
  let outer ← h.update innerh ctx.outer
  h.digest outer

def cfHmac (key message : List UInt8) : Option (List UInt8) := do
  let ctx ← hmacInit h key
  let ctx ← hmacUpdate h message ctx
  hmacFinish h ctx

end Code

variable {h : Chash} {hash : List UInt8 → List UInt8} {limit : Nat}

theorem cfHash_eq (computes : h.Computes hash limit) {message : List UInt8} (short : message.length < limit) :
    cfHash h message = some (hash message) := by
  obtain ⟨ctx, call, fed⟩ := computes.update message computes.init
  rw [List.nil_append] at fed
  rw [cfHash, call, Option.bind_some, computes.digest fed short]

/-- A MAC that has been keyed and fed. -/
structure HmacFed (computes : h.Computes hash limit) (key message : List UInt8) (ctx : HmacCtx h) : Prop where
  inner : computes.fed (Digest.masked hash h.blocksz key 0x36 ++ message) ctx.inner
  outer : computes.fed (Digest.masked hash h.blocksz key 0x5c) ctx.outer

theorem hmacInit_fed (computes : h.Computes hash limit) {key : List UInt8} (short : key.length < limit) :
    ∃ ctx, hmacInit h key = some ctx ∧ HmacFed computes key [] ctx := by
  have shortened : (if h.blocksz < key.length then (if h.hashsz ≤ h.blocksz then cfHash h key else none) else some key) =
      some (if h.blocksz < key.length then hash key else key) := by
    rw [if_pos computes.fits, cfHash_eq computes short]
    split
    · rfl
    · rfl
  obtain ⟨inner, first, fed⟩ := computes.update (Digest.masked hash h.blocksz key 0x36) computes.init
  obtain ⟨outer, second, fed'⟩ := computes.update (Digest.masked hash h.blocksz key 0x5c) computes.init
  refine ⟨⟨inner, outer⟩, ?_, by rwa [List.append_nil], fed'⟩
  rw [Digest.masked, Digest.blockKey] at first second
  simp only [hmacInit, shortened, Option.bind_eq_bind, Option.bind_some, first, second]

theorem hmacUpdate_fed {computes : h.Computes hash limit} {key message : List UInt8} {ctx : HmacCtx h}
    (fed : HmacFed computes key message ctx) (data : List UInt8) :
    ∃ after, hmacUpdate h data ctx = some after ∧ HmacFed computes key (message ++ data) after := by
  obtain ⟨inner, call, more⟩ := computes.update data fed.inner
  rw [List.append_assoc] at more
  exact ⟨⟨inner, ctx.outer⟩, by rw [hmacUpdate, call]; rfl, more, fed.outer⟩

theorem hmacFinish_eq {computes : h.Computes hash limit} {key message : List UInt8} {ctx : HmacCtx h}
    (fed : HmacFed computes key message ctx) (room : h.blocksz + h.hashsz < limit)
    (short : h.blocksz + message.length < limit) :
    hmacFinish h ctx = some (Digest.hmac hash h.blocksz key message) := by
  have small : ∀ message, (hash message).length ≤ h.blocksz := fun message => by
    rw [computes.sized]
    exact computes.fits
  have innerh := computes.digest fed.inner (by rwa [List.length_append, Digest.masked_length _ _ _ _ small])
  obtain ⟨outer, call, more⟩ := computes.update (hash (Digest.masked hash h.blocksz key 0x36 ++ message)) fed.outer
  have last := computes.digest more (by rwa [List.length_append, Digest.masked_length _ _ _ _ small, computes.sized])
  simp only [hmacFinish, innerh, call, last, Option.bind_eq_bind, Option.bind_some]
  rfl

/-- The SHA functions of the library are held to the hash of the standard, up to the bytes that their
    counter of blocks can count. -/
def ShaFunction.computes (f : ShaFunction) (keeps : ∀ h block, (f.updateBlock h block).length = f.iv.length)
    (covers : f.hashsz ≤ 4 * f.iv.length) (fits : f.hashsz ≤ 64) : f.chash.Computes f.hash (2 ^ 38) where
  fed seen ctx := Absorbed 64 (shaProcess f) ⟨f.iv, 0⟩ seen ctx
  init := fresh_absorbed _ _ List.length_replicate
  update data fed := blockwiseAccumulate_absorbed (shaProcess f) (Nat.zero_lt_succ 63) fed data
  digest fed short := shaDigest_eq f fed short
  sized message := by
    rw [ShaFunction.hash, List.length_take, words_length, chain_length _ _ keeps, Nat.min_eq_left covers]
    rfl
  fits := fits

def sha1Computes : cfSha1.Computes sha1.hash (2 ^ 38) :=
  sha1.computes sha1UpdateBlock_length (Nat.le_refl 20) (Nat.le_of_ble_eq_true rfl)

def sha256Computes : cfSha256.Computes sha256.hash (2 ^ 38) :=
  sha256.computes sha256UpdateBlock_length (Nat.le_refl 32) (Nat.le_of_ble_eq_true rfl)

/-- The MAC of a message under any key, short or long, is the MAC of the standard. -/
theorem cfHmac_eq (computes : h.Computes hash limit) {key message : List UInt8} (room : h.blocksz + h.hashsz < limit)
    (short : key.length < limit) (shortMessage : h.blocksz + message.length < limit) :
    cfHmac h key message = some (Digest.hmac hash h.blocksz key message) := by
  obtain ⟨first, init, fed⟩ := hmacInit_fed computes short
  obtain ⟨second, update, fed⟩ := hmacUpdate_fed fed message
  rw [List.nil_append] at fed
  simp only [cfHmac, init, update, Option.bind_eq_bind, Option.bind_some, hmacFinish_eq fed room shortMessage]

end Cifra
