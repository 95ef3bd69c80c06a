import Mathlib.Algebra.Group.Nat.Defs

namespace Bridge

inductive RecvStatus
  | none
  | gotPrevData
  | finishedSuccess
  | finishedError
deriving DecidableEq, Repr

/-- `data` is the block that `allocRecvData` has handed out, with the bytes copied into it so far. -/
structure RecvData where
  data : Option (List UInt8)
  dataLen : Nat
  recvLen : Nat
  nSizeByte : Nat
  pkgLen : Nat
  recvStatus : RecvStatus
deriving DecidableEq, Repr

def RecvData.zero : RecvData := ⟨none, 0, 0, 0, 0, .none⟩

/-- The bytes after the chunk are read too when the chunk is shorter than its header: `stray` is
    what lies there. The result is the frame length, `n_size_byte` and `pkg_len`. -/
def getDataLength (data : List UInt8) (stray : List UInt8) : Nat × Nat × Nat :=
  let byte := fun i => ((data ++ stray).getD i 0).toNat
  if byte 0 = 0xff then
    let pkgLen := byte 1 * 256 + byte 2
    (pkgLen + 3, 3, pkgLen)
  else (byte 0 + 1, 1, byte 0)

def allocRecvData (recv : RecvData) (dataLen : Nat) : Option RecvData :=
  if recv.data.isSome then none
  else some { recv with dataLen := dataLen, recvLen := 0, data := some [] }

def isRecvFullPkg (recv : RecvData) : Bool := recv.recvLen == recv.dataLen

def copyData (recv : RecvData) (data : List UInt8) : Option RecvData :=
  match recv.data with
  | none => none
  | some stored =>
    if recv.dataLen < recv.recvLen + data.length then none
    else some { recv with data := some (stored ++ data), recvLen := recv.recvLen + data.length }

def freeRecvAllocData (recv : RecvData) : RecvData :=
  if recv.data.isSome then
    { recv with data := none, dataLen := 0, recvLen := 0, nSizeByte := 0, pkgLen := 0 }
  else recv

def resetRecvData (recv : RecvData) : RecvData :=
  { freeRecvAllocData recv with recvStatus := .none }

/-- The length parameter is a uint16_t: `value` longer than that is cut by the call. -/
def recvData (recv : RecvData) (value stray : List UInt8) : RecvData :=
  let data := value.take (value.length % 2 ^ 16)
  match recv.recvStatus with
  | .none =>
    let (frameLen, nSizeByte, pkgLen) := getDataLength value stray
    let recv := { recv with nSizeByte := nSizeByte, pkgLen := pkgLen }
    match allocRecvData recv frameLen with
    | none => recv
    | some recv =>
      match copyData recv data with
      | none => recv
      | some recv =>
        if isRecvFullPkg recv then { recv with recvStatus := .finishedSuccess }
        else { recv with recvStatus := .gotPrevData }
  | .gotPrevData =>
    let recv := (copyData recv data).getD recv
    if isRecvFullPkg recv then { recv with recvStatus := .finishedSuccess } else recv
  | .finishedSuccess => recv
  | .finishedError => recv

def getRecvPkgLen (recv : RecvData) : Option Nat := recv.data.map fun _ => recv.pkgLen

def getPkgFromRecvData (recv : RecvData) : Option (List UInt8) :=
  recv.data.map fun stored => (stored.drop recv.nSizeByte).take recv.pkgLen

def RecvData.Backed (recv : RecvData) : Prop := recv.recvStatus ≠ .none → recv.data.isSome = true

theorem copyData_data {recv recv' : RecvData} {data : List UInt8} (copied : copyData recv data = some recv') :
    recv'.data.isSome = true := by
  unfold copyData at copied
  split at copied
  · cases copied
  · split at copied
    · cases copied
    · cases copied
      rfl

theorem recvData_data {recv : RecvData} (backed : recv.Backed) (value stray : List UInt8) :
    (recvData recv value stray).data.isSome = true := by
  cases status : recv.recvStatus with
  | none =>
    by_cases taken : recv.data.isSome = true
    · simp [recvData, status, allocRecvData, taken]
    · simp only [recvData, status, allocRecvData, taken, Bool.false_eq_true, if_false]
      split
      · rfl
      · rename_i after copied
        have held : after.data.isSome = true := copyData_data copied
        split
        · exact held
        · exact held
  | gotPrevData =>
    have held := backed (by rw [status]; decide)
    have kept : ∀ data, ((copyData recv data).getD recv).data.isSome = true := by
      intro data
      cases copied : copyData recv data with
      | none => exact held
      | some after => exact copyData_data copied
    simp only [recvData, status]
    split
    · exact kept _
    · exact kept _
  | finishedSuccess | finishedError =>
    simp only [recvData, status]
    exact backed (by rw [status]; decide)

theorem resetRecvData_backed (recv : RecvData) : (resetRecvData recv).Backed := by
  intro status
  exact absurd rfl status

end Bridge
