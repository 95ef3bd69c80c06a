import Bridge.Library.Ccm

namespace Cifra

def sBox : List UInt8 :=
  [0x63, 0x7c, 0x77, 0x7b, 0xf2, 0x6b, 0x6f, 0xc5, 0x30, 0x01, 0x67, 0x2b, 0xfe, 0xd7, 0xab, 0x76,
   0xca, 0x82, 0xc9, 0x7d, 0xfa, 0x59, 0x47, 0xf0, 0xad, 0xd4, 0xa2, 0xaf, 0x9c, 0xa4, 0x72, 0xc0,
   0xb7, 0xfd, 0x93, 0x26, 0x36, 0x3f, 0xf7, 0xcc, 0x34, 0xa5, 0xe5, 0xf1, 0x71, 0xd8, 0x31, 0x15,
   0x04, 0xc7, 0x23, 0xc3, 0x18, 0x96, 0x05, 0x9a, 0x07, 0x12, 0x80, 0xe2, 0xeb, 0x27, 0xb2, 0x75,
   0x09, 0x83, 0x2c, 0x1a, 0x1b, 0x6e, 0x5a, 0xa0, 0x52, 0x3b, 0xd6, 0xb3, 0x29, 0xe3, 0x2f, 0x84,
   0x53, 0xd1, 0x00, 0xed, 0x20, 0xfc, 0xb1, 0x5b, 0x6a, 0xcb, 0xbe, 0x39, 0x4a, 0x4c, 0x58, 0xcf,
   0xd0, 0xef, 0xaa, 0xfb, 0x43, 0x4d, 0x33, 0x85, 0x45, 0xf9, 0x02, 0x7f, 0x50, 0x3c, 0x9f, 0xa8,
   0x51, 0xa3, 0x40, 0x8f, 0x92, 0x9d, 0x38, 0xf5, 0xbc, 0xb6, 0xda, 0x21, 0x10, 0xff, 0xf3, 0xd2,
   0xcd, 0x0c, 0x13, 0xec, 0x5f, 0x97, 0x44, 0x17, 0xc4, 0xa7, 0x7e, 0x3d, 0x64, 0x5d, 0x19, 0x73,
   0x60, 0x81, 0x4f, 0xdc, 0x22, 0x2a, 0x90, 0x88, 0x46, 0xee, 0xb8, 0x14, 0xde, 0x5e, 0x0b, 0xdb,
   0xe0, 0x32, 0x3a, 0x0a, 0x49, 0x06, 0x24, 0x5c, 0xc2, 0xd3, 0xac, 0x62, 0x91, 0x95, 0xe4, 0x79,
   0xe7, 0xc8, 0x37, 0x6d, 0x8d, 0xd5, 0x4e, 0xa9, 0x6c, 0x56, 0xf4, 0xea, 0x65, 0x7a, 0xae, 0x08,
   0xba, 0x78, 0x25, 0x2e, 0x1c, 0xa6, 0xb4, 0xc6, 0xe8, 0xdd, 0x74, 0x1f, 0x4b, 0xbd, 0x8b, 0x8a,
   0x70, 0x3e, 0xb5, 0x66, 0x48, 0x03, 0xf6, 0x0e, 0x61, 0x35, 0x57, 0xb9, 0x86, 0xc1, 0x1d, 0x9e,
   0xe1, 0xf8, 0x98, 0x11, 0x69, 0xd9, 0x8e, 0x94, 0x9b, 0x1e, 0x87, 0xe9, 0xce, 0x55, 0x28, 0xdf,
   0x8c, 0xa1, 0x89, 0x0d, 0xbf, 0xe6, 0x42, 0x68, 0x41, 0x99, 0x2d, 0x0f, 0xb0, 0x54, 0xbb, 0x16]

def rcon : List UInt8 := [0x8d, 0x01, 0x02, 0x04, 0x08, 0x10, 0x20, 0x40, 0x80, 0x1b, 0x36]

def word4 (a b c d : UInt8) : UInt32 :=
  a.toUInt32 <<< 24 ||| b.toUInt32 <<< 16 ||| c.toUInt32 <<< 8 ||| d.toUInt32

def byte (w : UInt32) (x : Nat) : UInt8 := UInt8.ofNat (w.toNat / 256 ^ (3 - x) % 256)

def rotl32 (w : UInt32) (n : UInt32) : UInt32 := w <<< n ||| w >>> (32 - n)

def rotr32 (w : UInt32) (n : UInt32) : UInt32 := w >>> n ||| w <<< (32 - n)

def subByte (b : UInt8) : UInt8 := sBox.getD b.toNat 0

def subWord (w : UInt32) : UInt32 :=
  word4 (subByte (byte w 0)) (subByte (byte w 1)) (subByte (byte w 2)) (subByte (byte w 3))

def roundConstant (i : Nat) : UInt32 := (rcon.getD i 0).toUInt32 <<< 24

def read32Be (bytes : Vector UInt8 16) (i : Fin 4) : UInt32 :=
  word4 bytes[4 * i.val] bytes[4 * i.val + 1] bytes[4 * i.val + 2] bytes[4 * i.val + 3]

def scheduleWord (w : List UInt32) (i : Nat) : UInt32 :=
  let temp := w.getD (i - 1) 0
  let temp := if i % 4 = 0 then subWord (rotl32 temp 8) ^^^ roundConstant (i / 4) else temp
  w.getD (i - 4) 0 ^^^ temp

def aesSchedule (key : Vector UInt8 16) : List UInt32 :=
  (List.range 40).foldl (fun w i => w ++ [scheduleWord w (i + 4)])
    [read32Be key 0, read32Be key 1, read32Be key 2, read32Be key 3]

abbrev State := Vector UInt32 4

def addRoundKey (ks : List UInt32) (round : Nat) (state : State) : State :=
  Vector.ofFn fun i => state[i] ^^^ ks.getD (4 * round + i.val) 0

def subBlock (state : State) : State := state.map subWord

def shiftRows (state : State) : State :=
  #v[word4 (byte state[0] 0) (byte state[1] 1) (byte state[2] 2) (byte state[3] 3),
     word4 (byte state[1] 0) (byte state[2] 1) (byte state[3] 2) (byte state[0] 3),
     word4 (byte state[2] 0) (byte state[3] 1) (byte state[0] 2) (byte state[1] 3),
     word4 (byte state[3] 0) (byte state[0] 1) (byte state[1] 2) (byte state[2] 3)]

def gfPolyMul2 (x : UInt32) : UInt32 :=
  (x &&& 0x7f7f7f7f) <<< 1 ^^^ (x &&& 0x80808080) >>> 7 * 0x1b

def mixColumn (x : UInt32) : UInt32 :=
  let x2 := gfPolyMul2 x
  x2 ^^^ rotr32 (x ^^^ x2) 24 ^^^ rotr32 x 16 ^^^ rotr32 x 8

def mixColumns (state : State) : State := state.map mixColumn

def aesRound (ks : List UInt32) (state : State) (round : Nat) : State :=
  addRoundKey ks round (mixColumns (shiftRows (subBlock state)))

/-- `cf_aes_encrypt` with a 16-byte key, hence ten rounds. -/
def aesEncrypt : Ccm.BlockCipher (Vector UInt8 16) := fun key input =>
  let ks := aesSchedule key
  let start : State := addRoundKey ks 0 (Vector.ofFn fun i => read32Be input i)
  let inner := (List.range 9).foldl (fun state round => aesRound ks state (round + 1)) start
  let final := addRoundKey ks 10 (shiftRows (subBlock inner))
  Vector.ofFn fun i => byte final[i.val / 4] (i.val % 4)

/-- AES-CCM as `encryption.c` calls it: a counter of three bytes, a tag of eight, no header. -/
def aesCcm : Aead.Cipher (Vector UInt8 16) (Vector UInt8 12) 8 :=
  Ccm.cipherMode aesEncrypt 3 8 12 (by decide)

theorem aesCcm_inverts : aesCcm.Inverts := Ccm.cipherMode_inverts aesEncrypt 3 8 12 (by decide)

end Cifra
