import Bridge.Library.Blockwise
import Bridge.Library.Ccm

namespace Ccm

theorem bigEndian_length (width value : Nat) : (bigEndian width value).length = width := by
  induction width generalizing value with
  | zero => rfl
  | succ width ih => rw [bigEndian, List.length_append, ih, List.length_singleton]

def lengthField (n : Nat) : List UInt8 := if n < 0xff00 then bigEndian 2 n else 0xff :: 0xfe :: bigEndian 4 n

def headerBlocks (header : List UInt8) : List (Vector UInt8 16) :=
  if header.isEmpty then [] else blocks (lengthField header.length ++ header)

section Mode

variable {Key : Type} (cipher : BlockCipher Key) (L tagLength : Nat)

def firstBlock (header nonce : List UInt8) (length : Nat) : Vector UInt8 16 :=
  toBlock (UInt8.ofNat ((if header.isEmpty then 0 else 64) + (tagLength - 2) / 2 * 8 + (L - 1)) :: nonce ++
    bigEndian L length)

def macWith (header : List UInt8) (key : Key) (nonce plain : List UInt8) : Vector UInt8 16 :=
  cbcMac cipher key (firstBlock L tagLength header nonce plain.length :: (headerBlocks header ++ blocks plain))

/-- Encryption with associated data, which is authenticated and not sent. -/
def encryptWith (header : List UInt8) (key : Key) (nonce plain : List UInt8) : List UInt8 × List UInt8 :=
  (xorBytes plain (keyStream cipher L key nonce plain.length),
    (maskTag cipher L key nonce (macWith cipher L tagLength header key nonce plain).toList).take tagLength)

def decryptWith (header : List UInt8) (key : Key) (nonce ciphertext tag : List UInt8) : Option (List UInt8) :=
  let plain := xorBytes ciphertext (keyStream cipher L key nonce ciphertext.length)
  if (macWith cipher L tagLength header key nonce plain).toList.take tagLength =
      (maskTag cipher L key nonce tag).take tagLength then some plain else none

theorem macWith_nil (key : Key) (nonce plain : List UInt8) :
    macWith cipher L tagLength [] key nonce plain = mac cipher L tagLength key nonce plain := by
  rw [macWith, mac, firstBlock, block0, headerBlocks, List.isEmpty_nil, if_pos rfl, if_pos rfl, List.nil_append, Nat.zero_add]

theorem encryptWith_nil (key : Key) (nonce plain : List UInt8) :
    encryptWith cipher L tagLength [] key nonce plain = encrypt cipher L tagLength key nonce plain := by
  rw [encryptWith, macWith_nil, encrypt]

theorem decryptWith_nil (key : Key) (nonce ciphertext tag : List UInt8) :
    decryptWith cipher L tagLength [] key nonce ciphertext tag = decrypt cipher L tagLength key nonce ciphertext tag := by
  simp only [decryptWith, macWith_nil, decrypt]

theorem decryptWith_encryptWith (header : List UInt8) (key : Key) (nonce plain : List UInt8) :
    decryptWith cipher L tagLength header key nonce (encryptWith cipher L tagLength header key nonce plain).1
      (encryptWith cipher L tagLength header key nonce plain).2 = some plain := by
  have stream := keyStream_length cipher L key nonce plain.length
  have tagged : (maskTag cipher L key nonce (encryptWith cipher L tagLength header key nonce plain).2).take tagLength =
      (macWith cipher L tagLength header key nonce plain).toList.take tagLength := by
    rw [encryptWith, maskTag_take, maskTag, maskTag, xorBytes_twice _ _ (by simp)]
  rw [decryptWith, tagged]
  simp only [encryptWith, xorBytes_length _ _ stream, xorBytes_twice _ _ stream, if_true]

theorem maskTag_length (key : Key) (nonce tag : List UInt8) (short : tag.length ≤ 16) :
    (maskTag cipher L key nonce tag).length = tag.length :=
  xorBytes_length _ _ (by rw [Vector.length_toList]; exact short)

theorem maskTag_twice (key : Key) (nonce tag : List UInt8) (short : tag.length ≤ 16) :
    maskTag cipher L key nonce (maskTag cipher L key nonce tag) = tag :=
  xorBytes_twice _ _ (by rw [Vector.length_toList]; exact short)

theorem decryptWith_tag {header : List UInt8} {key : Key} {nonce ciphertext tag other plain plain' : List UInt8}
    (short : tagLength ≤ 16) (sized : tag.length = tagLength) (sized' : other.length = tagLength)
    (opened : decryptWith cipher L tagLength header key nonce ciphertext tag = some plain)
    (opened' : decryptWith cipher L tagLength header key nonce ciphertext other = some plain') : other = tag := by
  have small : tag.length ≤ 16 := sized ▸ short
  have small' : other.length ≤ 16 := sized' ▸ short
  simp only [decryptWith, Option.ite_none_right_eq_some] at opened opened'
  have masks := opened'.1.symm.trans opened.1
  rw [List.take_of_length_le (by rw [maskTag_length cipher L key nonce other small', sized']),
    List.take_of_length_le (by rw [maskTag_length cipher L key nonce tag small, sized])] at masks
  rw [← maskTag_twice cipher L key nonce other small', masks, maskTag_twice cipher L key nonce tag small]

end Mode

section Blocks

theorem toBlock_toList (bytes : List UInt8) :
    (toBlock bytes).toList = (bytes ++ List.replicate (16 - bytes.length) 0).take 16 := by
  apply List.ext_getElem
  · rw [Vector.length_toList, List.length_take, List.length_append, List.length_replicate]
    omega
  · intro i _ inside
    rw [Vector.getElem_toList, show (toBlock bytes)[i] = bytes.getD i 0 from Vector.getElem_ofFn _, List.getElem_take, List.getElem_append]
    split
    · rename_i early
      exact (List.getElem_eq_getD 0).symm
    · rename_i late
      rw [List.getElem_replicate, List.getD_eq_getElem?_getD, List.getElem?_eq_none (Nat.le_of_not_lt late), Option.getD_none]

theorem toBlock_of_full {bytes : List UInt8} (full : bytes.length = 16) : (toBlock bytes).toList = bytes := by
  rw [toBlock_toList, full, Nat.sub_self, List.replicate_zero, List.append_nil, List.take_of_length_le (Nat.le_of_eq full)]

theorem blocks_toList (bytes : List UInt8) :
    (blocks bytes).map Vector.toList = Blockwise.whole 16 (Blockwise.pad 16 0 bytes) := by
  have count : (Blockwise.pad 16 0 bytes).length / 16 = (bytes.length + 15) / 16 := by
    rw [Blockwise.pad, List.length_append, List.length_replicate]
    omega
  rw [blocks, Blockwise.whole, List.map_map, count]
  apply List.map_congr_left
  intro k early
  have before := List.mem_range.mp early
  rw [Function.comp_apply, toBlock_toList, Blockwise.pad, List.drop_append_of_le_length (by omega), List.length_drop]
  rcases Nat.lt_or_ge (bytes.length - 16 * k) 16 with last | inner
  · have fill : (16 - bytes.length % 16) % 16 = 16 - (bytes.length - 16 * k) := by omega
    rw [fill]
  · have front : 16 ≤ (bytes.drop (16 * k)).length := by rw [List.length_drop]; exact inner
    rw [List.take_append_of_le_length front, List.take_append_of_le_length front]

theorem toBlock_xorBytes (block state : Vector UInt8 16) :
    toBlock (xorBytes block.toList state.toList) = xorBlock state block := by
  apply Vector.toList_inj.mp
  rw [toBlock_of_full (by simp [xorBytes])]
  apply List.ext_getElem
  · simp [xorBytes]
  · intro i _ _
    simp only [xorBytes, xorBlock, List.getElem_zipWith, Vector.getElem_toList, Vector.getElem_zipWith]
    exact UInt8.xor_comm _ _

end Blocks

end Ccm
