import Bridge.Cifra.HmacDrbg
import Bridge.Connection.Forgery
import Bridge.WifiService.Pairing

namespace Bridge

open Cifra

def sha1Drbg : List UInt8 → List UInt8 → List UInt8 → Nat → List UInt8 := drbgSpec sha1.hash 64 20

theorem sha1Drbg_length (entropy nonce reseed : List UInt8) (nout : Nat) :
    (sha1Drbg entropy nonce reseed nout).length = nout :=
  drbgSpec_length (h := cfSha1) sha1Computes.sized (Nat.zero_lt_succ 19) entropy nonce reseed nout

/-- `genRandomVector` with the code of the generator in it; `none` where an assertion aborts. -/
def genRandomVectorCifra (libc : Libc) (time : Int) (vectorLen : Nat) : Option (List UInt8) :=
  let draw := fun k => UInt8.ofNat (libc.rand (time % 2 ^ 32).toNat k % 256)
  drbgVector cfSha1 ((List.range 16).map draw) ((List.range 8).map fun k => draw (16 + k))
    ((List.range 16).map fun k => draw (24 + k)) vectorLen

theorem drbgVector_sha1 (entropy nonce reseed : List UInt8) (nout : Nat)
    (short : entropy.length + nonce.length + reseed.length < 2 ^ 37) (few : 1 + requests nout < 2 ^ 32) :
    drbgVector cfSha1 entropy nonce reseed nout = some (sha1Drbg entropy nonce reseed nout) := by
  apply drbgVector_eq sha1Computes (Nat.zero_lt_succ 19) (Nat.le_of_ble_eq_true rfl) _ _ _ _ _ few
  change 64 + 20 + 1 + _ < 2 ^ 38
  omega

/-- The secrets that the wifi service draws: no assertion of the generator fails, they are the bytes
    that the standard gives from what `rand` gave, and as many as were asked for. -/
theorem genRandomVector_cifra (lib : PairingLib) (time : Int) {vectorLen : Nat} (int : vectorLen < 2 ^ 31) :
    genRandomVectorCifra lib.libc time vectorLen =
        some (genRandomVector { lib with hmacDrbg := sha1Drbg } time vectorLen) ∧
      (genRandomVector { lib with hmacDrbg := sha1Drbg } time vectorLen).length = vectorLen := by
  constructor
  · apply drbgVector_sha1
    · simp only [List.length_map, List.length_range]
      omega
    · rw [requests, maxDrbgGenerate]
      omega
  · exact sha1Drbg_length _ _ _ vectorLen

theorem genRandomVector_cifra_sample :
    genRandomVectorCifra idlePairing.libc 7 16 =
        some (genRandomVector { idlePairing with hmacDrbg := sha1Drbg } 7 16) ∧
      (genRandomVector { idlePairing with hmacDrbg := sha1Drbg } 7 16).length = 16 :=
  genRandomVector_cifra idlePairing 7 (by decide)

end Bridge
