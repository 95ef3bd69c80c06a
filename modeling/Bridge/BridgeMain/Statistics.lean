import Bridge.BridgeMain.BleData
import Bridge.Library.Stdio

namespace Bridge.Profile

open Stdio
open CString (Text)

section Numbers

def longBits (target : Target) : Nat := 8 * target.word

def strtol (target : Target) (n : Int) : Int := max (-2 ^ (longBits target - 1)) (min (2 ^ (longBits target - 1) - 1) n)

def strtoul (target : Target) (n : Int) : Int :=
  if 2 ^ longBits target ≤ n.natAbs then 2 ^ longBits target - 1 else n % 2 ^ longBits target

def toInt (n : Int) : Int := Int.bmod n (2 ^ 32)

def toLong (target : Target) (n : Int) : Int := Int.bmod n (2 ^ longBits target)

def toUInt (n : Int) : UInt32 := UInt32.ofNat (n % 2 ^ 32).toNat

/-- `%d` for a `long` that is 0: an `int` is stored in its low half. -/
def storeInt (target : Target) (n : Int) : Int :=
  match target with
  | .bits32 => toInt n
  | .bits64 => n % 2 ^ 32

def numberAt {α : Type} (values : List Scanned) (place : Nat) (convert : Int → α) (old : α) : α :=
  match values[place]? with
  | some (.number n) => convert n
  | _ => old

end Numbers

-- What is in memory that is not set before it is used is part of the input of a function.

section Cpu

structure ProCpuOccupy where
  user : UInt32
  nice : UInt32
  system : UInt32
  idle : UInt32
  iowait : UInt32
  irq : UInt32
  softirq : UInt32
deriving DecidableEq, Repr

structure CpuInput where
  stat : List UInt8
  buff : Vector UInt8 256
  cpust : ProCpuOccupy

def cpuFormat : List Conversion := .word 20 :: List.replicate 7 .number

def CpuInput.line (input : CpuInput) : List UInt8 := (fgets input.buff.toList input.stat).1

def CpuInput.store (target : Target) (input : CpuInput) (values : List Scanned) : ProCpuOccupy :=
  let unsigned (place : Nat) (old : UInt32) : UInt32 := numberAt values place (fun n => toUInt (strtoul target n)) old
  { user := unsigned 1 input.cpust.user, nice := unsigned 2 input.cpust.nice, system := unsigned 3 input.cpust.system
    idle := unsigned 4 input.cpust.idle, iowait := unsigned 5 input.cpust.iowait, irq := unsigned 6 input.cpust.irq
    softirq := unsigned 7 input.cpust.softirq }

def getCpuoccupy (target : Target) (input : CpuInput) : Option ProCpuOccupy :=
  (sscanf cpuFormat input.line).map (input.store target)

def proGetCpuRate (target : Target) (rate : ProCpuOccupy → ProCpuOccupy → Text) (first second : CpuInput) : Option Text := do
  let cpuStat1 ← getCpuoccupy target first
  let cpuStat2 ← getCpuoccupy target second
  return rate cpuStat1 cpuStat2

end Cpu

section Memory

structure ProMemoryInfo where
  total : Int
  free : Int
  usedRate : Text

structure MemoryInput where
  meminfo : List UInt8
  buff : Vector UInt8 256
  total : Int
  free : Int

def memoryFormat : List Conversion := [.word 20, .number, .word 20]

def MemoryInput.firstLine (input : MemoryInput) : List UInt8 × List UInt8 := fgets input.buff.toList input.meminfo

def MemoryInput.secondLine (input : MemoryInput) : List UInt8 × List UInt8 := fgets input.firstLine.1 input.firstLine.2

def MemoryInput.store (target : Target) (rate : Int → Int → Text) (input : MemoryInput) (first second : List Scanned) :
    ProMemoryInfo :=
  let unsigned (n : Int) : Int := toLong target (strtoul target n)
  let total := numberAt first 1 unsigned input.total
  let free := numberAt second 1 unsigned input.free
  { total, free, usedRate := rate total free }

def proGetMemoryInfo (target : Target) (rate : Int → Int → Text) (input : MemoryInput) : Option ProMemoryInfo := do
  let first ← sscanf memoryFormat input.firstLine.1
  let second ← sscanf memoryFormat input.secondLine.1
  return input.store target rate first second

end Memory

section Disk

structure ProDiskInfo where
  total : Int
  used : Int
  usedRate : Text

structure DiskInput where
  df : List UInt8
  buf : Vector UInt8 256

def diskFormat : List Conversion := [.word 20, .number, .number, .number, .word 20, .word 20]

/-- The second line is read to the array of the first one. -/
def DiskInput.line (input : DiskInput) : List UInt8 :=
  let first := fgets input.buf.toList input.df
  (fgets first.1 first.2).1

def storeDisk (target : Target) (rate : Int → Int → Text) (values : List Scanned) : ProDiskInfo :=
  let total := numberAt values 1 (fun n => storeInt target (strtol target n)) 0
  let used := numberAt values 2 (fun n => storeInt target (strtol target n)) 0
  { total, used, usedRate := rate total used }

def proGetDiskInfo (target : Target) (rate : Int → Int → Text) (input : DiskInput) : Option ProDiskInfo :=
  (sscanf diskFormat input.line).map (storeDisk target rate)

end Disk

section Text

def printLong (n : Int) : List UInt8 := decimal (toInt n)

/-- `CR:%.4f;MT:%d,MF:%d,MUR:%.4f;DT:%d,DU:%d,DUR:%.4f` -/
def sysStatics (cpuRate : Text) (mi : ProMemoryInfo) (di : ProDiskInfo) : List UInt8 :=
  ascii "CR:" ++ cpuRate.bytes ++ ascii ";MT:" ++ printLong mi.total ++ ascii ",MF:" ++ printLong mi.free ++ ascii ",MUR:" ++
    mi.usedRate.bytes ++ ascii ";DT:" ++ printLong di.total ++ ascii ",DU:" ++ printLong di.used ++ ascii ",DUR:" ++
    di.usedRate.bytes

def numbersWidth (cpuRate : Text) (mi : ProMemoryInfo) (di : ProDiskInfo) : Nat :=
  cpuRate.bytes.length + (printLong mi.total).length + (printLong mi.free).length + mi.usedRate.bytes.length +
    (printLong di.total).length + (printLong di.used).length + di.usedRate.bytes.length

theorem sysStatics_length (cpuRate : Text) (mi : ProMemoryInfo) (di : ProDiskInfo) :
    (sysStatics cpuRate mi di).length = 29 + numbersWidth cpuRate mi di := by
  simp only [sysStatics, numbersWidth, ascii, List.length_append, List.length_map]
  simp only [String.length_toList]
  have fixed : "CR:".length = 3 ∧ ";MT:".length = 4 ∧ ",MF:".length = 4 ∧ ",MUR:".length = 5 ∧ ";DT:".length = 4 ∧
      ",DU:".length = 4 ∧ ",DUR:".length = 5 := by decide
  omega

theorem sysStatics_nonzero (cpuRate : Text) (mi : ProMemoryInfo) (di : ProDiskInfo) : 0 ∉ sysStatics cpuRate mi di := by
  have fixed : ∀ label ∈ ["CR:", ";MT:", ",MF:", ",MUR:", ";DT:", ",DU:", ",DUR:"], 0 ∉ ascii label := by decide
  simp only [List.forall_mem_cons] at fixed
  simp only [sysStatics, List.mem_append, not_or]
  simp [fixed, cpuRate.nonzero, mi.usedRate.nonzero, di.usedRate.nonzero, printLong, decimal_nonzero]

theorem printLong_length (n : Int) : (printLong n).length ≤ 11 := by
  have low := @Int.le_bmod n (2 ^ 32) (by decide)
  have high := @Int.bmod_lt n (2 ^ 32) (by decide)
  have width : (digits (toInt n).natAbs).length ≤ 10 := by
    apply digits_length (by decide)
    rw [toInt]
    omega
  rw [printLong, decimal]
  split
  · rw [List.length_cons]
    omega
  · omega

theorem numbersWidth_le {cpuRate : Text} {mi : ProMemoryInfo} {di : ProDiskInfo}
    (rates : cpuRate.bytes.length + mi.usedRate.bytes.length + di.usedRate.bytes.length ≤ 27) :
    numbersWidth cpuRate mi di ≤ 71 := by
  have memoryTotal := printLong_length mi.total
  have memoryFree := printLong_length mi.free
  have diskTotal := printLong_length di.total
  have diskUsed := printLong_length di.used
  rw [numbersWidth]
  omega

end Text

section Results

variable {target : Target}

theorem getCpuoccupy_eq_some_iff {input : CpuInput} {occupy : ProCpuOccupy} : getCpuoccupy target input = some occupy ↔
    Scannable cpuFormat input.line ∧ input.store target (scanned cpuFormat input.line) = occupy := by
  rw [getCpuoccupy, Option.map_eq_bind, sscanf_bind_eq_some_iff, Function.comp_apply, Option.some.injEq]

theorem proGetDiskInfo_eq_some_iff {rate : Int → Int → Text} {input : DiskInput} {info : ProDiskInfo} :
    proGetDiskInfo target rate input = some info ↔
      Scannable diskFormat input.line ∧ storeDisk target rate (scanned diskFormat input.line) = info := by
  rw [proGetDiskInfo, Option.map_eq_bind, sscanf_bind_eq_some_iff, Function.comp_apply, Option.some.injEq]

theorem proGetMemoryInfo_eq_some_iff {rate : Int → Int → Text} {input : MemoryInput} {info : ProMemoryInfo} :
    proGetMemoryInfo target rate input = some info ↔
      (Scannable memoryFormat input.firstLine.1 ∧ Scannable memoryFormat input.secondLine.1) ∧
        input.store target rate (scanned memoryFormat input.firstLine.1) (scanned memoryFormat input.secondLine.1) = info := by
  rw [proGetMemoryInfo, Option.bind_eq_bind, sscanf_bind_eq_some_iff, sscanf_bind_eq_some_iff,
    Option.pure_def, Option.some.injEq, and_assoc]

theorem proGetCpuRate_eq_some_iff {rate : ProCpuOccupy → ProCpuOccupy → Text} {first second : CpuInput} {text : Text} :
    proGetCpuRate target rate first second = some text ↔
      (Scannable cpuFormat first.line ∧ Scannable cpuFormat second.line) ∧
        rate (first.store target (scanned cpuFormat first.line)) (second.store target (scanned cpuFormat second.line)) =
          text := by
  rw [proGetCpuRate, Option.bind_eq_bind, Option.bind_eq_some_iff]
  constructor
  · rintro ⟨cpuStat1, read, rest⟩
    rcases Option.bind_eq_some_iff.mp rest with ⟨cpuStat2, read', same⟩
    rcases getCpuoccupy_eq_some_iff.mp read with ⟨fits, rfl⟩
    rcases getCpuoccupy_eq_some_iff.mp read' with ⟨fits', rfl⟩
    exact ⟨⟨fits, fits'⟩, Option.some.inj same⟩
  · rintro ⟨⟨fits, fits'⟩, rfl⟩
    refine ⟨_, getCpuoccupy_eq_some_iff.mpr ⟨fits, rfl⟩, ?_⟩
    rw [getCpuoccupy_eq_some_iff.mpr ⟨fits', rfl⟩, Option.bind_some]
    rfl

end Results

end Bridge.Profile
