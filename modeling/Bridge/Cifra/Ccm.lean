import Bridge.Cifra.Aes
import Bridge.Cifra.Modes

namespace Cifra

open Blockwise

/-- `write_be`; `none` where the value does not fit and the assertion aborts. -/
def writeBe : Nat → Nat → Option (List UInt8)
  | 0, value => if value = 0 then some [] else none
  | bytes + 1, value => (writeBe bytes (value / 256)).map (· ++ [UInt8.ofNat (value % 256)])

section Code

variable (prp : Prp)

/-- How `add_aad` writes the length of the header. -/
def aadLength (nheader : Nat) : Option (List UInt8) :=
  if nheader < 0xff00 then writeBe 2 nheader
  else (writeBe 2 0xfffe).bind fun mark => (writeBe 4 nheader).map (mark ++ ·)

def addAad (header : List UInt8) (cm : CbcmacStream) : Option CbcmacStream :=
  if header.length ≤ 0xffffffff then do
    let field ← aadLength header.length
    let cm ← cbcmacStreamUpdate prp field cm
    let cm ← cbcmacStreamUpdate prp header cm
    some (cbcmacStreamFinishBlockZero prp cm)
  else none

def addBlock0 (nonce : List UInt8) (L nplain nheader ntag : Nat) (cm : CbcmacStream) : Option CbcmacStream := do
  let flags := UInt8.ofNat ((if nheader = 0 then 0x00 else 0x40) ||| ((ntag - 2) / 2) <<< 3 ||| (L - 1))
  let length ← writeBe L nplain
  cbcmacStreamUpdate prp (flags :: nonce ++ length) cm

def buildCtrNonce (L : Nat) (nonce : List UInt8) : List UInt8 := UInt8.ofNat (L - 1) :: nonce ++ List.replicate L 0

def ccmMac (plain : List UInt8) (L : Nat) (header nonce : List UInt8) (ntag : Nat) : Option (List UInt8) := do
  let cm ← addBlock0 prp nonce L plain.length header.length ntag (cbcmacStreamInit prp)
  let cm ← (if header.length ≠ 0 then addAad prp header cm else some cm)
  let cm ← cbcmacStreamUpdate prp plain cm
  cbcmacStreamNopadFinal (cbcmacStreamFinishBlockZero prp cm)

def ccmCtr (L : Nat) (nonce : List UInt8) : Option Ctr :=
  ctrCustomCounter prp (prp.blocksz - L) L (ctrInit prp (buildCtrNonce L nonce))

def CcmLengths (L nnonce ntag : Nat) : Prop :=
  (4 ≤ ntag ∧ ntag ≤ 16 ∧ ntag % 2 = 0) ∧ (2 ≤ L ∧ L ≤ 8) ∧ nnonce + L + 1 = prp.blocksz

instance (L nnonce ntag : Nat) : Decidable (CcmLengths prp L nnonce ntag) :=
  inferInstanceAs (Decidable (_ ∧ _ ∧ _))

def ccmEncrypt (plain : List UInt8) (L : Nat) (header nonce : List UInt8) (ntag : Nat) :
    Option (List UInt8 × List UInt8) :=
  if CcmLengths prp L nonce.length ntag then do
    let block ← ccmMac prp plain L header nonce ntag
    let ctr ← ccmCtr prp L nonce
    let (block, ctr) ← ctrCipher prp block ctr
    let (cipher, _) ← ctrCipher prp plain ctr
    some (cipher, block.take ntag)
  else none

/-- `mem_eq`: the differences are collected, and looked at only in the end. -/
def memEq (left right : List UInt8) : Bool := (List.zipWith (· ^^^ ·) left right).foldl (· ||| ·) 0 == 0

def ccmDecrypt (cipher : List UInt8) (L : Nat) (header nonce tag : List UInt8) (ntag : Nat) :
    Option (Nat × List UInt8) :=
  if CcmLengths prp L nonce.length ntag then do
    let ctr ← ccmCtr prp L nonce
    let (plainTag, ctr) ← ctrCipher prp (tag.take ntag) ctr
    let (plain, _) ← ctrCipher prp cipher (ctrDiscardBlock ctr)
    let block ← ccmMac prp plain L header nonce ntag
    if memEq (block.take ntag) plainTag then some (0, plain) else some (1, List.replicate cipher.length 0)
  else none

end Code

theorem writeBe_eq (bytes value : Nat) :
    writeBe bytes value = if value < 256 ^ bytes then some (Ccm.bigEndian bytes value) else none := by
  induction bytes generalizing value with
  | zero =>
    rw [writeBe, Nat.pow_zero]
    simp only [Nat.lt_one_iff]
    rfl
  | succ bytes ih =>
    rw [writeBe, ih, Nat.pow_succ, Ccm.bigEndian]
    by_cases fits : value / 256 < 256 ^ bytes
    · rw [if_pos fits, if_pos ((Nat.div_lt_iff_lt_mul (Nat.zero_lt_succ 255)).mp fits)]
      rfl
    · rw [if_neg fits, if_neg fun below => fits ((Nat.div_lt_iff_lt_mul (Nat.zero_lt_succ 255)).mpr below)]
      rfl

theorem flags_eq (n : Nat) {ntag L : Nat} (tag : ntag ≤ 16) (width : L ≤ 8) :
    ((if n = 0 then 0x00 else 0x40) ||| ((ntag - 2) / 2) <<< 3 ||| (L - 1)) =
      (if n = 0 then 0 else 64) + (ntag - 2) / 2 * 8 + (L - 1) := by
  have bits : ∀ a < 8, ∀ b < 8, 0x00 ||| a <<< 3 ||| b = 0 + a * 8 + b ∧ 0x40 ||| a <<< 3 ||| b = 64 + a * 8 + b := by
    decide
  have both := bits ((ntag - 2) / 2) (by omega) (L - 1) (by omega)
  split
  · exact both.1
  · exact both.2

section Mac

variable {Key : Type} (cipher : Ccm.BlockCipher Key) (key : Key)

abbrev Fed (seen : List UInt8) (cm : CbcmacStream) : Prop :=
  Absorbed (Prp.ofCipher cipher key).blocksz (cbcEncryptBlock (Prp.ofCipher cipher key)) (List.replicate 16 0) seen cm

variable {L ntag : Nat} {header nonce plain : List UInt8}

theorem addBlock0_fed (header : List UInt8) (lengths : CcmLengths (Prp.ofCipher cipher key) L nonce.length ntag)
    (fits : plain.length < 256 ^ L) :
    ∃ cm, addBlock0 (Prp.ofCipher cipher key) nonce L plain.length header.length ntag
        (cbcmacStreamInit (Prp.ofCipher cipher key)) = some cm ∧
      Fed cipher key (Ccm.firstBlock L ntag header nonce plain.length).toList cm := by
  have size : nonce.length + L + 1 = 16 := lengths.2.2
  have empty : header.isEmpty = decide (header.length = 0) := by
    rw [Bool.eq_iff_iff, List.isEmpty_iff, decide_eq_true_iff, List.length_eq_zero_iff]
  have first : (Ccm.firstBlock L ntag header nonce plain.length).toList =
      UInt8.ofNat ((if header.length = 0 then 0 else 64) + (ntag - 2) / 2 * 8 + (L - 1)) :: nonce ++
        Ccm.bigEndian L plain.length := by
    rw [Ccm.firstBlock, Ccm.toBlock_of_full, empty]
    · simp only [decide_eq_true_eq]
    · rw [List.length_append, List.length_cons, Ccm.bigEndian_length]
      omega
  have start := cbcmacStreamInit_absorbed (Prp.ofCipher cipher key)
  rw [addBlock0, writeBe_eq, if_pos fits, flags_eq header.length lengths.1.2.1 lengths.2.1.2, first]
  exact cbcmacStreamUpdate_absorbed start _

theorem addAad_fed {seen : List UInt8} {cm : CbcmacStream} (fed : Fed cipher key seen cm) (short : header.length < 2 ^ 32) :
    ∃ after, addAad (Prp.ofCipher cipher key) header cm = some after ∧
      Fed cipher key (pad 16 0 (seen ++ (Ccm.lengthField header.length ++ header))) after := by
  have field : aadLength header.length = some (Ccm.lengthField header.length) := by
    rw [aadLength, Ccm.lengthField, writeBe_eq, writeBe_eq, writeBe_eq, if_pos (show header.length < 256 ^ 4 from short)]
    split
    · rename_i small
      rw [if_pos (Nat.lt_trans small (by decide))]
    · rfl
  obtain ⟨first, call, fed⟩ := cbcmacStreamUpdate_absorbed fed (Ccm.lengthField header.length)
  obtain ⟨second, call', fed⟩ := cbcmacStreamUpdate_absorbed fed header
  have done := cbcmacStreamFinishBlockZero_absorbed fed
  rw [addAad, if_pos (Nat.le_of_lt_succ short), field]
  simp only [Option.bind_eq_bind, Option.bind_some, call, call']
  rw [← List.append_assoc]
  exact ⟨_, rfl, done⟩

theorem cbcMac_toList (input : List (Vector UInt8 16)) (state : Vector UInt8 16) :
    (input.map Vector.toList).foldl (cbcEncryptBlock (Prp.ofCipher cipher key)) state.toList =
      (input.foldl (fun state block => cipher key (Ccm.xorBlock state block)) state).toList := by
  induction input generalizing state with
  | nil => rfl
  | cons block input ih =>
    rw [List.map_cons, List.foldl_cons, List.foldl_cons, ← ih]
    congr 1
    rw [cbcEncryptBlock, ← Ccm.toBlock_xorBytes]
    rfl

theorem ccmMac_eq (lengths : CcmLengths (Prp.ofCipher cipher key) L nonce.length ntag) (fits : plain.length < 256 ^ L)
    (short : header.length < 2 ^ 32) : ccmMac (Prp.ofCipher cipher key) plain L header nonce ntag =
      some (Ccm.macWith cipher L ntag header key nonce plain).toList := by
  obtain ⟨first, call, fed⟩ := addBlock0_fed cipher key header lengths fits
  let front := Ccm.firstBlock L ntag header nonce plain.length :: Ccm.headerBlocks header
  have full : ∀ block ∈ front.map Vector.toList, block.length = 16 := by
    intro block inside
    obtain ⟨vector, _, rfl⟩ := List.mem_map.mp inside
    exact Vector.length_toList
  have headed : ∃ cm, (if header.length ≠ 0 then addAad (Prp.ofCipher cipher key) header first else some first) = some cm ∧
      Fed cipher key (front.map Vector.toList).flatten cm := by
    rw [List.map_cons, List.flatten_cons]
    by_cases none : header = []
    · rw [none, Ccm.headerBlocks, List.isEmpty_nil, if_pos rfl, List.map_nil, List.flatten_nil, List.append_nil]
      rw [none] at fed
      exact ⟨first, rfl, fed⟩
    · obtain ⟨cm, added, fed⟩ := addAad_fed cipher key fed short
      have some_ : header.length ≠ 0 := fun zero => none (List.length_eq_zero_iff.mp zero)
      have blocks := whole_rest (show 0 < 16 by omega) (pad 16 0 (Ccm.lengthField header.length ++ header))
      rw [rest_eq_nil (pad_aligned (by omega) _ _), List.append_nil, ← Ccm.blocks_toList] at blocks
      rw [if_pos some_, Ccm.headerBlocks, if_neg (by rwa [List.isEmpty_iff]), blocks,
        ← pad_append (by rw [Vector.length_toList])]
      exact ⟨cm, added, fed⟩
  obtain ⟨second, added, fed⟩ := headed
  obtain ⟨third, call', fed⟩ := cbcmacStreamUpdate_absorbed fed plain
  have done := cbcmacStreamFinishBlockZero_absorbed fed
  have final := cbcmacStreamNopadFinal_eq done (pad_aligned (Prp.ofCipher cipher key).positive 0 _)
  have cut : whole 16 (pad 16 0 ((front.map Vector.toList).flatten ++ plain)) =
      (front ++ Ccm.blocks plain).map Vector.toList := by
    rw [pad_append (flatten_aligned full), whole_flatten (by omega) full, ← Ccm.blocks_toList, List.map_append]
  rw [ccmMac, call]
  simp only [Option.bind_eq_bind, Option.bind_some, added, call', final]
  change some (List.foldl _ _ (whole 16 (pad 16 0 _))) = _
  rw [cut, ← Vector.toList_replicate, cbcMac_toList]
  rfl

end Mac

section Stream

theorem withKey_eq_xorBytes {key : Nat → UInt8} {bytes material : List UInt8}
    (same : ∀ i < bytes.length, material[i]? = some (key i)) : withKey key bytes = Ccm.xorBytes bytes material := by
  apply List.ext_getElem?
  intro i
  rw [withKey, List.getElem?_mapIdx, Ccm.xorBytes, List.getElem?_zipWith]
  by_cases inside : i < bytes.length
  · rw [same i inside, List.getElem?_eq_getElem inside]
    rfl
  · rw [List.getElem?_eq_none (Nat.le_of_not_lt inside)]
    rfl

variable {Key : Type} (cipher : Ccm.BlockCipher Key) (key : Key)

def ctrStart (L : Nat) (nonce : List UInt8) : Counter := ⟨buildCtrNonce L nonce, 16 - L, L⟩

def ctrFresh (L : Nat) (nonce : List UInt8) : Ctr := ⟨ctrStart L nonce, List.replicate 16 0, 0⟩

variable {L ntag : Nat} {nonce : List UInt8}

theorem drawn_counter (lengths : CcmLengths (Prp.ofCipher cipher key) L nonce.length ntag) (i : Nat) :
    drawn 16 (ctrNextBlock (Prp.ofCipher cipher key)) (ctrStart L nonce) i =
      (cipher key (Ccm.counterBlock L nonce (i / 16))).toList.getD (i % 16) 0 := by
  have size : nonce.length + L + 1 = 16 := lengths.2.2
  have front : (UInt8.ofNat (L - 1) :: nonce).length = 16 - L := by
    rw [List.length_cons]
    omega
  have start : ctrStart L nonce =
      ⟨(UInt8.ofNat (L - 1) :: nonce) ++ (Vector.replicate L 0).toList, (UInt8.ofNat (L - 1) :: nonce).length, L⟩ := by
    rw [ctrStart, buildCtrNonce, front, Vector.toList_replicate]
  rw [drawn, start, counter_iterate (by have := lengths.2.1.1; omega)]
  rfl

theorem ccmCtr_eq (lengths : CcmLengths (Prp.ofCipher cipher key) L nonce.length ntag) :
    ccmCtr (Prp.ofCipher cipher key) L nonce = some (ctrFresh L nonce) := by
  have size : nonce.length + L + 1 = 16 := lengths.2.2
  have all : (buildCtrNonce L nonce).take 16 = buildCtrNonce L nonce := by
    apply List.take_of_length_le
    rw [buildCtrNonce, List.length_append, List.length_cons, List.length_replicate]
    omega
  have covers : (Prp.ofCipher cipher key).blocksz ≤ (Prp.ofCipher cipher key).blocksz - L + L := by
    change 16 ≤ 16 - L + L
    omega
  rw [ccmCtr, ctrCustomCounter, if_pos covers, ctrInit]
  change some (KeyStream.mk (Counter.mk ((buildCtrNonce L nonce).take 16) (16 - L) L) _ 0) = _
  rw [all]
  rfl

theorem maskTag_eq (lengths : CcmLengths (Prp.ofCipher cipher key) L nonce.length ntag) {tag : List UInt8}
    (short : tag.length ≤ 16) :
    withKey (drawn 16 (ctrNextBlock (Prp.ofCipher cipher key)) (ctrStart L nonce)) tag =
      Ccm.maskTag cipher L key nonce tag := by
  apply withKey_eq_xorBytes
  intro i early
  have inside : i < (cipher key (Ccm.counterBlock L nonce 0)).toList.length := by
    rw [Vector.length_toList]
    omega
  rw [drawn_counter cipher key lengths, Nat.div_eq_of_lt (by omega), Nat.mod_eq_of_lt (by omega),
    List.getElem?_eq_getElem inside, List.getElem_eq_getD 0]

theorem keyStream_eq (lengths : CcmLengths (Prp.ofCipher cipher key) L nonce.length ntag) (text : List UInt8) :
    withKey (fun i => drawn 16 (ctrNextBlock (Prp.ofCipher cipher key)) (ctrStart L nonce) (i + 16)) text =
      Ccm.xorBytes text (Ccm.keyStream cipher L key nonce text.length) := by
  apply withKey_eq_xorBytes
  intro i early
  have inside : i % 16 < (cipher key (Ccm.counterBlock L nonce (i / 16 + 1))).toList.length := by
    rw [Vector.length_toList]
    omega
  rw [Ccm.keyStream, flatMap_getElem? (show 0 < 16 by omega) (fun _ => Vector.length_toList) (by omega),
    drawn_counter cipher key lengths, Nat.add_div_right _ (by omega), Nat.add_mod_right, List.getElem?_eq_getElem inside,
    List.getElem_eq_getD 0]

theorem ctrCipher_eq (text : List UInt8) (ctr : Ctr) (ready : ctr.nPartial < 16) (sized : ctr.keymat.length = 16) :
    ∃ after, ctrCipher (Prp.ofCipher cipher key) text ctr =
        some (withKey (ctr.key 16 (ctrNextBlock (Prp.ofCipher cipher key))) text, after) ∧
      Drained 16 (ctrNextBlock (Prp.ofCipher cipher key)) ctr text.length after :=
  blockwiseXor_eq (ctrNextBlock (Prp.ofCipher cipher key)) (fun c => (Prp.ofCipher cipher key).sized c.nonce)
    (Nat.zero_lt_succ 15) text ready sized

theorem ctrFresh_cipher (L : Nat) (nonce text : List UInt8) :
    ∃ after, ctrCipher (Prp.ofCipher cipher key) text (ctrFresh L nonce) =
        some (withKey (drawn 16 (ctrNextBlock (Prp.ofCipher cipher key)) (ctrStart L nonce)) text, after) ∧
      Drained 16 (ctrNextBlock (Prp.ofCipher cipher key)) (ctrFresh L nonce) text.length after := by
  obtain ⟨after, call, drained⟩ := ctrCipher_eq cipher key text (ctrFresh L nonce) (Nat.zero_lt_succ 15) List.length_replicate
  rw [ctrFresh, key_fresh] at call
  exact ⟨after, call, drained⟩

end Stream

theorem memEq_iff {left right : List UInt8} (sized : left.length = right.length) : memEq left right = true ↔ left = right := by
  have collect : ∀ (pairs : List UInt8) (diff : UInt8), pairs.foldl (· ||| ·) diff = 0 ↔ diff = 0 ∧ ∀ b ∈ pairs, b = 0 := by
    intro pairs
    induction pairs with
    | nil => simp
    | cons b pairs ih =>
      intro diff
      rw [List.foldl_cons, ih, UInt8.or_eq_zero_iff, List.forall_mem_cons, and_assoc]
  rw [memEq, beq_iff_eq, collect, and_iff_right rfl]
  induction left generalizing right with
  | nil => simp [List.length_eq_zero_iff.mp sized.symm]
  | cons l left ih =>
    cases right with
    | nil => cases sized
    | cons r right =>
      rw [List.zipWith_cons_cons, List.forall_mem_cons, UInt8.xor_eq_zero_iff, List.cons.injEq]
      exact and_congr_right' (ih (Nat.succ.inj sized))

section Refinement

variable {Key : Type} (cipher : Ccm.BlockCipher Key) (key : Key) (plain ciphertext : List UInt8) (L : Nat)
  (header nonce tag : List UInt8) (ntag : Nat)

/-- What the two functions assert, besides the lengths of nonce and tag: that the lengths of text and
    header can be written down. -/
def CcmAccepts (L nnonce ntag nheader ntext : Nat) : Prop :=
  ((4 ≤ ntag ∧ ntag ≤ 16 ∧ ntag % 2 = 0) ∧ (2 ≤ L ∧ L ≤ 8) ∧ nnonce + L + 1 = 16) ∧ nheader < 2 ^ 32 ∧ ntext < 256 ^ L

instance (L nnonce ntag nheader ntext : Nat) : Decidable (CcmAccepts L nnonce ntag nheader ntext) :=
  inferInstanceAs (Decidable (_ ∧ _ ∧ _))

theorem ccmMac_refused (refused : ¬(header.length < 2 ^ 32 ∧ plain.length < 256 ^ L))
    (lengths : CcmLengths (Prp.ofCipher cipher key) L nonce.length ntag) :
    ccmMac (Prp.ofCipher cipher key) plain L header nonce ntag = none := by
  by_cases fits : plain.length < 256 ^ L
  · obtain ⟨first, call, _⟩ := addBlock0_fed cipher key header lengths fits
    have long : ¬header.length ≤ 0xffffffff := fun short => refused ⟨Nat.lt_succ_of_le short, fits⟩
    have some_ : header.length ≠ 0 := by omega
    have aborts : addAad (Prp.ofCipher cipher key) header first = none := if_neg long
    simp only [ccmMac, call, Option.bind_eq_bind, Option.bind_some, if_pos some_, aborts]
    rfl
  · rw [ccmMac, addBlock0, writeBe_eq, if_neg fits]
    rfl

theorem ccmEncrypt_eq : ccmEncrypt (Prp.ofCipher cipher key) plain L header nonce ntag =
    if CcmAccepts L nonce.length ntag header.length plain.length then
      some (Ccm.encryptWith cipher L ntag header key nonce plain)
    else none := by
  rw [ccmEncrypt]
  by_cases lengths : CcmLengths (Prp.ofCipher cipher key) L nonce.length ntag
  · rw [if_pos lengths]
    by_cases small : header.length < 2 ^ 32 ∧ plain.length < 256 ^ L
    · have accepts : CcmAccepts L nonce.length ntag header.length plain.length := ⟨lengths, small⟩
      have mac := ccmMac_eq cipher key lengths small.2 small.1
      obtain ⟨tagged, first, drained⟩ := ctrFresh_cipher cipher key L nonce
        (Ccm.macWith cipher L ntag header key nonce plain).toList
      obtain ⟨after, second, _⟩ := ctrCipher_eq cipher key plain tagged drained.ready drained.sized
      have onward : KeyStream.key 16 (ctrNextBlock (Prp.ofCipher cipher key)) tagged =
          fun i => drawn 16 (ctrNextBlock (Prp.ofCipher cipher key)) (ctrStart L nonce) (i + 16) := by
        funext i
        rw [drained.key, ctrFresh, key_fresh, Vector.length_toList]
      rw [maskTag_eq cipher key lengths (Nat.le_of_eq Vector.length_toList)] at first
      rw [onward, keyStream_eq cipher key lengths] at second
      simp only [if_pos accepts, mac, ccmCtr_eq cipher key lengths, Option.bind_eq_bind, Option.bind_some, first, second]
      rfl
    · rw [if_neg fun accepts => small accepts.2, ccmMac_refused cipher key plain L header nonce ntag small lengths]
      rfl
  · rw [if_neg lengths, if_neg fun accepts => lengths accepts.1]

/-- The tag is compared before the text is given out: another tag leaves zeros. -/
theorem ccmDecrypt_eq (sized : tag.length = ntag) :
    ccmDecrypt (Prp.ofCipher cipher key) ciphertext L header nonce tag ntag =
      if CcmAccepts L nonce.length ntag header.length ciphertext.length then
        match Ccm.decryptWith cipher L ntag header key nonce ciphertext tag with
        | some plain => some (0, plain)
        | none => some (1, List.replicate ciphertext.length 0)
      else none := by
  rw [ccmDecrypt]
  by_cases lengths : CcmLengths (Prp.ofCipher cipher key) L nonce.length ntag
  · have inBlock : ntag ≤ 16 := lengths.1.2.1
    have one : (ctrFresh L nonce).needed 16 ntag = 1 := by
      have least := lengths.1.1
      change (ntag - 0 + 15) / 16 = 1
      omega
    obtain ⟨tagged, first, drained⟩ := ctrFresh_cipher cipher key L nonce tag
    obtain ⟨after, second, _⟩ := ctrCipher_eq cipher key ciphertext (ctrDiscardBlock tagged) (Nat.zero_lt_succ 15)
      drained.sized
    have onward : KeyStream.key 16 (ctrNextBlock (Prp.ofCipher cipher key)) (ctrDiscardBlock tagged) =
        fun i => drawn 16 (ctrNextBlock (Prp.ofCipher cipher key)) (ctrStart L nonce) (i + 16) := by
      funext i
      rw [ctrDiscardBlock, key_fresh, drained.ctx, sized, one, drawn_later (Nat.zero_lt_succ 15), Function.iterate_one]
      rfl
    rw [maskTag_eq cipher key lengths (by omega)] at first
    rw [onward, keyStream_eq cipher key lengths] at second
    have same : (Ccm.xorBytes ciphertext (Ccm.keyStream cipher L key nonce ciphertext.length)).length = ciphertext.length :=
      Ccm.xorBytes_length _ _ (Ccm.keyStream_length cipher L key nonce ciphertext.length)
    have all : tag.take ntag = tag := List.take_of_length_le (Nat.le_of_eq sized)
    simp only [if_pos lengths, ccmCtr_eq cipher key lengths, Option.bind_eq_bind, Option.bind_some, all, first, second]
    by_cases small : header.length < 2 ^ 32 ∧ ciphertext.length < 256 ^ L
    · have accepts : CcmAccepts L nonce.length ntag header.length ciphertext.length := ⟨lengths, small⟩
      have masked : (Ccm.maskTag cipher L key nonce tag).length = ntag := by
        rw [Ccm.maskTag, Ccm.xorBytes_length _ _ (by rw [Vector.length_toList]; omega), sized]
      have compared := memEq_iff (show ((Ccm.macWith cipher L ntag header key nonce
          (Ccm.xorBytes ciphertext (Ccm.keyStream cipher L key nonce ciphertext.length))).toList.take ntag).length =
            (Ccm.maskTag cipher L key nonce tag).length by
        rw [masked, List.length_take, Vector.length_toList]
        omega)
      rw [if_pos accepts, ccmMac_eq cipher key lengths (by rw [same]; exact small.2) small.1, Option.bind_some, Ccm.decryptWith,
        List.take_of_length_le (Nat.le_of_eq masked)]
      by_cases equal : (Ccm.macWith cipher L ntag header key nonce
          (Ccm.xorBytes ciphertext (Ccm.keyStream cipher L key nonce ciphertext.length))).toList.take ntag =
            Ccm.maskTag cipher L key nonce tag
      · simp only [if_pos equal, if_pos (compared.mpr equal)]
      · simp only [if_neg equal, if_neg fun found => equal (compared.mp found)]
    · rw [if_neg fun accepts => small accepts.2, ccmMac_refused cipher key _ L header nonce ntag (by rwa [same]) lengths]
      rfl
  · rw [if_neg lengths, if_neg fun accepts => lengths accepts.1]

/-- Both directions compute the mode of operation, for every length that the code accepts; at any other
    length an assertion aborts the program. -/
theorem ccm_refines : (∀ plain, ccmEncrypt (Prp.ofCipher cipher key) plain L header nonce ntag =
      if CcmAccepts L nonce.length ntag header.length plain.length then
        some (Ccm.encryptWith cipher L ntag header key nonce plain)
      else none) ∧
    ∀ ciphertext tag : List UInt8, tag.length = ntag →
      ccmDecrypt (Prp.ofCipher cipher key) ciphertext L header nonce tag ntag =
        if CcmAccepts L nonce.length ntag header.length ciphertext.length then
          match Ccm.decryptWith cipher L ntag header key nonce ciphertext tag with
          | some plain => some (0, plain)
          | none => some (1, List.replicate ciphertext.length 0)
        else none :=
  ⟨fun plain => ccmEncrypt_eq cipher key plain L header nonce ntag,
    fun ciphertext tag => ccmDecrypt_eq cipher key ciphertext L header nonce tag ntag⟩

/-- What was encrypted is decrypted with its own tag; with any other tag the text is cleared. -/
theorem ccm_round_trip (accepts : CcmAccepts L nonce.length ntag header.length plain.length) :
    ∃ ciphertext tag, ccmEncrypt (Prp.ofCipher cipher key) plain L header nonce ntag = some (ciphertext, tag) ∧
      ciphertext.length = plain.length ∧ tag.length = ntag ∧
      ∀ other : List UInt8, other.length = ntag →
        ccmDecrypt (Prp.ofCipher cipher key) ciphertext L header nonce other ntag =
          some (if other = tag then (0, plain) else (1, List.replicate plain.length 0)) := by
  have small : ntag ≤ 16 := accepts.1.1.2.1
  have stream := Ccm.keyStream_length cipher L key nonce plain.length
  have length : (Ccm.encryptWith cipher L ntag header key nonce plain).1.length = plain.length :=
    Ccm.xorBytes_length _ _ stream
  have tagged : (Ccm.encryptWith cipher L ntag header key nonce plain).2.length = ntag := by
    rw [Ccm.encryptWith, List.length_take, Ccm.maskTag, Ccm.xorBytes_length _ _ (by simp), Vector.length_toList]
    omega
  have back := Ccm.decryptWith_encryptWith cipher L ntag header key nonce plain
  refine ⟨_, _, ?_, length, tagged, ?_⟩
  · rw [ccmEncrypt_eq, if_pos accepts]
  · intro other sized
    rw [ccmDecrypt_eq cipher key _ L header nonce other ntag sized, length, if_pos accepts]
    by_cases same : other = (Ccm.encryptWith cipher L ntag header key nonce plain).2
    · rw [same, back, if_pos rfl]
    · rw [if_neg same]
      cases opened : Ccm.decryptWith cipher L ntag header key nonce (Ccm.encryptWith cipher L ntag header key nonce plain).1 other with
      | none => rfl
      | some other_ => exact absurd (Ccm.decryptWith_tag cipher L ntag small tagged sized back opened) same

end Refinement

def bareCipher : Ccm.BlockCipher Unit := fun _ block => block.map (· + 1)

theorem ccm_round_trip_sample : ∃ ciphertext tag,
    ccmEncrypt (Prp.ofCipher bareCipher ()) [1, 2, 3] 3 [4, 5] (List.replicate 12 6) 8 = some (ciphertext, tag) ∧
      ciphertext.length = [1, 2, 3].length ∧ tag.length = 8 ∧
      ∀ other : List UInt8, other.length = 8 →
        ccmDecrypt (Prp.ofCipher bareCipher ()) ciphertext 3 [4, 5] (List.replicate 12 6) other 8 =
          some (if other = tag then (0, [1, 2, 3]) else (1, List.replicate [1, 2, 3].length 0)) :=
  ccm_round_trip bareCipher () [1, 2, 3] 3 [4, 5] (List.replicate 12 6) 8 (by decide)

end Cifra
