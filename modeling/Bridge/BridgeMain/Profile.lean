import Bridge.BridgeMain.WifiInfo
import Bridge.BridgeMain.Activities

namespace Bridge.Profile

open Stdio
open CString (Buffer Text)
open Outgoing (OsType)
open Protobuf (numberField bytesField)

section Addresses

/-- The bytes that a call of `http_get` has written to the start of its array, the message of a failure among them. -/
structure HttpAnswer (size : Nat) where
  bytes : List UInt8
  within : bytes.length ≤ size

def inetNtoa (addr : Vector UInt8 4) : List UInt8 :=
  (ascii ".").intercalate (addr.toList.map fun octet => digits octet.toNat)

/-- An interface has its address, or none where the call for it fails; the last ones are asked first. -/
def proGetLocalIp (interfaces : List (Option (Vector UInt8 4))) (localIp : List UInt8) : Option (List UInt8) :=
  match interfaces.reverse.findSome? id with
  | none => some localIp
  | some addr => strcpy localIp (inetNtoa addr ++ [0])

def proGetPublicIp (answer : HttpAnswer 1024) (publicIp : List UInt8) : Option (List UInt8) :=
  Memory.write publicIp 0 answer.bytes

end Addresses

structure ByteField where
  size : Nat
  bytes : Vector UInt8 100

def copyField (source : List UInt8) (size count : Nat) : Option ByteField :=
  (CString.copy (Vector.replicate 100 0) source count).map fun bytes => { size, bytes }

def stringField (array : List UInt8) : Option ByteField :=
  (CString.strlen array).bind fun size => copyField array size size

structure RawProfile where
  osInfo : OsType
  btId : ByteField
  macAddr : ByteField
  localIp : ByteField
  publicIp : ByteField
  sysStatics : ByteField
  wifiSsid : ByteField
  wifiSignal : Int32
  initedTime : UInt32
  name : ByteField

def RawProfile.byteFields (bp : RawProfile) : List ByteField :=
  [bp.btId, bp.macAddr, bp.localIp, bp.publicIp, bp.sysStatics, bp.wifiSsid, bp.name]

structure Rates where
  cpu : ProCpuOccupy → ProCpuOccupy → Text
  memory : Int → Int → Text
  disk : Int → Int → Text

structure ProfileInput where
  target : Target
  mac : Buffer 16
  interfaces : List (Option (Vector UInt8 4))
  answer : HttpAnswer 1024
  disk : DiskInput
  memory : MemoryInput
  cpu : CpuInput × CpuInput
  rates : Rates
  wifi : WifiInput
  initedTime : Int

-- The blocks of `Create_IgnBridgeProfile`, each for the fields that it fills.

def macFields (array : Buffer 16) : Option (ByteField × ByteField × ByteField) := do
  let mac ← CString.chars array.array.toList
  let (btIdSize, temp) ← snprintf (List.replicate 100 0) mac
  let tempLen ← CString.strlen temp
  let btId ← copyField temp btIdSize tempLen
  let macAddr ← copyField temp btIdSize tempLen
  let macLen ← CString.strlen array.array.toList
  let name ← copyField array.array.toList tempLen macLen
  return (btId, macAddr, name)

def localIpField (interfaces : List (Option (Vector UInt8 4))) : Option ByteField :=
  (proGetLocalIp interfaces (List.replicate 20 0)).bind stringField

def publicIpField (answer : HttpAnswer 1024) : Option ByteField :=
  (proGetPublicIp answer (List.replicate 20 0)).bind stringField

def sysStaticsField (si : ProfileInput) : Option ByteField := do
  let di ← proGetDiskInfo si.target si.rates.disk si.disk
  let mi ← proGetMemoryInfo si.target si.rates.memory si.memory
  let cpuRate ← proGetCpuRate si.target si.rates.cpu si.cpu.1 si.cpu.2
  let (_, cpu) ← snprintf (List.replicate 256 0) (sysStatics cpuRate mi di)
  stringField cpu

def createIgnBridgeProfile (si : ProfileInput) : Option RawProfile := do
  let (btId, macAddr, name) ← macFields si.mac
  let localIp ← localIpField si.interfaces
  let publicIp ← publicIpField si.answer
  let sysStatics ← sysStaticsField si
  let wf ← proGetWifiInfo si.target si.wifi
  let wifiSsid ← stringField wf.ssid
  return {
    osInfo := .linux, btId, macAddr, localIp, publicIp, sysStatics, wifiSsid
    wifiSignal := Int32.ofInt wf.signal, initedTime := toUInt si.initedTime, name }

def ByteField.Filled (field : ByteField) (text : List UInt8) : Prop :=
  0 ∉ text ∧ text.length ≤ 100 ∧ field.size = text.length ∧ field.bytes.toList = text ++ List.replicate (100 - text.length) 0

def BuildsProfile (si : ProfileInput) : Prop :=
  ∃ bp, createIgnBridgeProfile si = some bp ∧ ∀ field ∈ bp.byteFields, ∃ text, field.Filled text

def ByteField.pbBytes (field : ByteField) (within : field.size ≤ 100) : PbBytes 100 := ⟨field.size, field.bytes, within⟩

def RawProfile.carried (bp : RawProfile) (within : ∀ field ∈ bp.byteFields, field.size ≤ 100) : Outgoing.BridgeProfile where
  osInfo := bp.osInfo
  btId := bp.btId.pbBytes (within _ (by simp [byteFields]))
  macAddr := bp.macAddr.pbBytes (within _ (by simp [byteFields]))
  localIp := bp.localIp.pbBytes (within _ (by simp [byteFields]))
  publicIp := bp.publicIp.pbBytes (within _ (by simp [byteFields]))
  sysStatics := bp.sysStatics.pbBytes (within _ (by simp [byteFields]))
  wifiSsid := bp.wifiSsid.pbBytes (within _ (by simp [byteFields]))
  wifiSignal := bp.wifiSignal
  initedTime := bp.initedTime
  name := bp.name.pbBytes (within _ (by simp [byteFields]))

-- The condition on what the profile is made of.

def HttpAnswer.ShortAddress {size : Nat} (answer : HttpAnswer size) : Prop :=
  answer.bytes.length < 20 ∨ answer.bytes.length = 20 ∧ 0 ∈ answer.bytes

def ProfileInput.diskInfo (si : ProfileInput) : ProDiskInfo :=
  storeDisk si.target si.rates.disk (scanned diskFormat si.disk.line)

def ProfileInput.memoryInfo (si : ProfileInput) : ProMemoryInfo :=
  si.memory.store si.target si.rates.memory (scanned memoryFormat si.memory.firstLine.1)
    (scanned memoryFormat si.memory.secondLine.1)

def ProfileInput.cpuRate (si : ProfileInput) : Text :=
  si.rates.cpu (si.cpu.1.store si.target (scanned cpuFormat si.cpu.1.line))
    (si.cpu.2.store si.target (scanned cpuFormat si.cpu.2.line))

def localAddress (interfaces : List (Option (Vector UInt8 4))) : List UInt8 := (interfaces.reverse.findSome? id).elim [] inetNtoa

structure RawProfile.Describes (bp : RawProfile) (si : ProfileInput) : Prop where
  osInfo : bp.osInfo = .linux
  btId : bp.btId.Filled si.mac.string
  macAddr : bp.macAddr.Filled si.mac.string
  localIp : bp.localIp.Filled (localAddress si.interfaces)
  publicIp : bp.publicIp.Filled (si.answer.bytes.takeWhile (· != 0))
  sysStatics : bp.sysStatics.Filled (Profile.sysStatics si.cpuRate si.memoryInfo si.diskInfo)
  wifiSsid : bp.wifiSsid.Filled si.wifi.network
  name : bp.name.Filled si.mac.string

/-- Each text has room where it is put first, and the seven numbers have room in the field with their labels. -/
structure ProfileInput.Fits (si : ProfileInput) : Prop where
  answer : si.answer.ShortAddress
  disk : Scannable diskFormat si.disk.line
  memory : Scannable memoryFormat si.memory.firstLine.1 ∧ Scannable memoryFormat si.memory.secondLine.1
  cpu : Scannable cpuFormat si.cpu.1.line ∧ Scannable cpuFormat si.cpu.2.line
  numbers : numbersWidth si.cpuRate si.memoryInfo si.diskInfo ≤ 71
  ssid : si.wifi.ShortSsid
  signal : si.wifi.ShortSignal

section Fields

variable {array text : List UInt8} {field : ByteField}

theorem copyField_filled (read : CString.chars array = some text) (short : text.length ≤ 100) :
    ∃ field, copyField array text.length text.length = some field ∧ field.Filled text := by
  have inside := CString.chars_lt read
  rcases CString.copy_some (Vector.replicate 100 0) short (Nat.le_of_lt inside) with ⟨copied, done, bytes⟩
  refine ⟨⟨text.length, copied⟩, by rw [copyField, done, Option.map_some], CString.chars_nonzero read, short, rfl, ?_⟩
  rcases CString.chars_some read with ⟨rest, rfl⟩
  rw [bytes, List.take_left, Vector.toList_replicate, List.drop_replicate]

theorem stringField_filled (read : CString.chars array = some text) (short : text.length ≤ 100) :
    ∃ field, stringField array = some field ∧ field.Filled text := by
  rw [stringField, CString.strlen, read, Option.map_some, Option.bind_some]
  exact copyField_filled read short

theorem stringField_short (filled : stringField array = some field) :
    ∃ text, CString.chars array = some text ∧ text.length ≤ 100 := by
  rcases Option.bind_eq_some_iff.mp filled with ⟨size, measured, copied⟩
  rcases Option.map_eq_some_iff.mp measured with ⟨text, read, rfl⟩
  refine ⟨text, read, ?_⟩
  by_contra long
  rw [copyField, CString.copy_none _ (by omega), Option.map_none] at copied
  cases copied

end Fields

section Addresses

theorem inetNtoa_text (addr : Vector UInt8 4) : 0 ∉ inetNtoa addr ∧ (inetNtoa addr).length ≤ 15 := by
  have width (octet : UInt8) : (digits octet.toNat).length ≤ 3 :=
    digits_length (by decide) (Nat.lt_of_lt_of_le octet.toNat_lt (by decide))
  have dot : (ascii ".").length = 1 ∧ 0 ∉ ascii "." := by decide
  obtain ⟨a, b, c, d, octets⟩ : ∃ a b c d, addr.toList = [a, b, c, d] := by
    match addr.toList, addr.length_toList with
    | [a, b, c, d], _ => exact ⟨a, b, c, d, rfl⟩
  have text : inetNtoa addr = digits a.toNat ++ ascii "." ++ digits b.toNat ++ ascii "." ++ digits c.toNat ++ ascii "." ++
      digits d.toNat := by
    simp [inetNtoa, octets, List.intercalate, List.intersperse]
  rw [text]
  constructor
  · simp only [List.mem_append, not_or]
    simp [digits_nonzero, dot]
  · have first := width a
    have second := width b
    have third := width c
    have fourth := width d
    simp only [List.length_append, dot.1]
    omega

theorem localIpField_some (interfaces : List (Option (Vector UInt8 4))) :
    ∃ field, localIpField interfaces = some field ∧ field.Filled (localAddress interfaces) := by
  unfold localIpField proGetLocalIp localAddress
  cases interfaces.reverse.findSome? id with
  | none => exact stringField_filled (rfl : CString.chars (List.replicate 20 0) = some []) (Nat.zero_le 100)
  | some addr =>
    rcases inetNtoa_text addr with ⟨nonzero, short⟩
    have room : (inetNtoa addr).length < (List.replicate 20 (0 : UInt8)).length := by
      rw [List.length_replicate]
      omega
    rcases strcpy_some (CString.chars_append nonzero []) room with ⟨after, copied, -, read⟩
    rcases stringField_filled read (by omega) with ⟨field, done, filled⟩
    exact ⟨field, Option.bind_eq_some_iff.mpr ⟨after, copied, done⟩, filled⟩

theorem takeWhile_cleared (bytes : List UInt8) (n : Nat) :
    (bytes ++ List.replicate n 0).takeWhile (· != 0) = bytes.takeWhile (· != 0) := by
  have cleared : (List.replicate n (0 : UInt8)).takeWhile (· != 0) = [] := by
    cases n with
    | zero => rfl
    | succ n => rfl
  rw [List.takeWhile_append, cleared, List.append_nil]
  split
  · rename_i whole
    exact ((List.takeWhile_prefix _).eq_of_length whole).symm
  · rfl

theorem publicIpField_some {answer : HttpAnswer 1024} (short : answer.ShortAddress) :
    ∃ field, publicIpField answer = some field ∧ field.Filled (answer.bytes.takeWhile (· != 0)) := by
  have fits : 0 + answer.bytes.length ≤ (List.replicate 20 (0 : UInt8)).length := by
    unfold HttpAnswer.ShortAddress at short
    rw [List.length_replicate]
    omega
  have terminated : 0 ∈ Memory.place (List.replicate 20 0) 0 answer.bytes := by
    rw [Memory.place_cleared, List.mem_append, List.mem_replicate, and_iff_left rfl, Nat.sub_ne_zero_iff_lt]
    rcases short with short | ⟨-, nul⟩
    · exact .inr short
    · exact .inl nul
  have read := CString.chars_eq (Memory.place (List.replicate 20 0) 0 answer.bytes)
  rw [if_pos terminated] at read
  have inside := CString.chars_lt read
  rw [Memory.place_length fits, List.length_replicate] at inside
  rcases stringField_filled read (by omega) with ⟨field, done, filled⟩
  rw [Memory.place_cleared, takeWhile_cleared] at filled
  exact ⟨field, Option.bind_eq_some_iff.mpr ⟨_, Memory.write_eq_some_iff.mpr ⟨fits, rfl⟩, done⟩, filled⟩

theorem publicIpField_short {answer : HttpAnswer 1024} {field : ByteField} (built : publicIpField answer = some field) :
    answer.ShortAddress := by
  rcases Option.bind_eq_some_iff.mp built with ⟨after, written, filled⟩
  rcases stringField_short filled with ⟨text, read, -⟩
  rcases Memory.write_eq_some_iff.mp written with ⟨fits, rfl⟩
  rw [List.length_replicate, Nat.zero_add] at fits
  rcases Nat.lt_or_eq_of_le fits with short | full
  · exact .inl short
  · rcases CString.chars_some read with ⟨rest, split⟩
    rw [Memory.place_cleared, full, Nat.sub_self, List.replicate_zero, List.append_nil] at split
    refine .inr ⟨full, ?_⟩
    rw [split]
    exact List.mem_append_right _ List.mem_cons_self

end Addresses

section Texts

theorem cleared_room {n : Nat} (positive : 0 < n) : 0 < (List.replicate n (0 : UInt8)).length := by
  rwa [List.length_replicate]

theorem macFields_some (mac : Buffer 16) : ∃ btId macAddr name, macFields mac = some (btId, macAddr, name) ∧
    btId.Filled mac.string ∧ macAddr.Filled mac.string ∧ name.Filled mac.string := by
  have read := mac.chars_eq
  have short := mac.length_lt
  rcases snprintf_some (CString.chars_nonzero read) (cleared_room (by decide : 0 < 100)) with ⟨temp, printed, -, tempRead⟩
  rw [List.length_replicate, List.take_of_length_le (by omega)] at tempRead
  rcases copyField_filled tempRead (by omega) with ⟨btId, btIdDone, btIdFilled⟩
  rcases copyField_filled read (by omega) with ⟨name, nameDone, nameFilled⟩
  refine ⟨btId, btId, name, ?_, btIdFilled, btIdFilled, nameFilled⟩
  simp only [macFields, CString.strlen, read, printed, tempRead, Option.map_some, btIdDone, nameDone, Option.bind_eq_bind,
    Option.bind_some, Option.pure_def]

variable {text : List UInt8}

theorem printed_read (nonzero : 0 ∉ text) : ∃ cpu, snprintf (List.replicate 256 0) text = some (text.length, cpu) ∧
    CString.chars cpu = some (text.take 255) := by
  rcases snprintf_some nonzero (cleared_room (by decide : 0 < 256)) with ⟨cpu, printed, -, read⟩
  rw [List.length_replicate] at read
  exact ⟨cpu, printed, read⟩

theorem printed_filled (nonzero : 0 ∉ text) (short : text.length ≤ 100) : ∃ cpu field,
    snprintf (List.replicate 256 0) text = some (text.length, cpu) ∧ stringField cpu = some field ∧ field.Filled text := by
  rcases printed_read nonzero with ⟨cpu, printed, read⟩
  rw [List.take_of_length_le (by omega)] at read
  rcases stringField_filled read short with ⟨field, done, filled⟩
  exact ⟨cpu, field, printed, done, filled⟩

theorem printed_short {printed : Nat × List UInt8} {field : ByteField} (nonzero : 0 ∉ text)
    (written : snprintf (List.replicate 256 0) text = some printed) (filled : stringField printed.2 = some field) :
    text.length ≤ 100 := by
  rcases printed_read nonzero with ⟨cpu, printed', read⟩
  rw [printed'] at written
  cases written
  rcases stringField_short filled with ⟨text', read', short⟩
  rw [read] at read'
  cases read'
  rw [List.length_take] at short
  omega

end Texts

section Building

variable {si : ProfileInput}

theorem sysStaticsField_some (fits : si.Fits) : ∃ field, sysStaticsField si = some field ∧
    field.Filled (sysStatics si.cpuRate si.memoryInfo si.diskInfo) := by
  have diskDone := proGetDiskInfo_eq_some_iff.mpr ⟨fits.disk, (rfl : _ = si.diskInfo)⟩
  have memoryDone := proGetMemoryInfo_eq_some_iff.mpr ⟨fits.memory, (rfl : _ = si.memoryInfo)⟩
  have cpuDone := proGetCpuRate_eq_some_iff.mpr ⟨fits.cpu, (rfl : _ = si.cpuRate)⟩
  have numbers := fits.numbers
  rcases printed_filled (sysStatics_nonzero si.cpuRate si.memoryInfo si.diskInfo) (by rw [sysStatics_length]; omega) with
    ⟨cpu, field, printed, done, filled⟩
  refine ⟨field, ?_, filled⟩
  simp only [sysStaticsField, diskDone, memoryDone, cpuDone, printed, Option.bind_eq_bind, Option.bind_some, done]

theorem sysStaticsField_short {field : ByteField} (built : sysStaticsField si = some field) :
    Scannable diskFormat si.disk.line ∧
      (Scannable memoryFormat si.memory.firstLine.1 ∧ Scannable memoryFormat si.memory.secondLine.1) ∧
      (Scannable cpuFormat si.cpu.1.line ∧ Scannable cpuFormat si.cpu.2.line) ∧
      numbersWidth si.cpuRate si.memoryInfo si.diskInfo ≤ 71 := by
  rcases Option.bind_eq_some_iff.mp built with ⟨di, diskDone, built⟩
  rcases Option.bind_eq_some_iff.mp built with ⟨mi, memoryDone, built⟩
  rcases Option.bind_eq_some_iff.mp built with ⟨cpuRate, cpuDone, built⟩
  rcases Option.bind_eq_some_iff.mp built with ⟨printed, written, filled⟩
  rcases proGetDiskInfo_eq_some_iff.mp diskDone with ⟨disk, rfl⟩
  rcases proGetMemoryInfo_eq_some_iff.mp memoryDone with ⟨memory, rfl⟩
  rcases proGetCpuRate_eq_some_iff.mp cpuDone with ⟨cpu, rfl⟩
  have short := printed_short (sysStatics_nonzero si.cpuRate si.memoryInfo si.diskInfo) written filled
  rw [sysStatics_length] at short
  exact ⟨disk, memory, cpu, by omega⟩

theorem createIgnBridgeProfile_describes (fits : si.Fits) :
    ∃ bp, createIgnBridgeProfile si = some bp ∧ bp.Describes si := by
  rcases macFields_some si.mac with ⟨btId, macAddr, name, macDone, btIdFilled, macFilled, nameFilled⟩
  rcases localIpField_some si.interfaces with ⟨localIp, localDone, localFilled⟩
  rcases publicIpField_some fits.answer with ⟨publicIp, publicDone, publicFilled⟩
  rcases sysStaticsField_some fits with ⟨statics, staticsDone, staticsFilled⟩
  rcases getWifiSsid_some fits.ssid with ⟨ssid, ssidDone, ssidRead, ssidShort⟩
  rcases getWifiSignal_some_iff.mpr fits.signal with ⟨signal, signalDone⟩
  rcases stringField_filled ssidRead (by omega) with ⟨wifiSsid, wifiSsidDone, wifiSsidFilled⟩
  have wifiDone : proGetWifiInfo si.target si.wifi = some { ssid, signal } :=
    proGetWifiInfo_eq_some_iff.mpr ⟨ssidDone, signalDone⟩
  refine ⟨{
    osInfo := .linux, btId, macAddr, localIp, publicIp, sysStatics := statics, wifiSsid
    wifiSignal := Int32.ofInt signal, initedTime := toUInt si.initedTime, name }, ?_, rfl,
    btIdFilled, macFilled, localFilled, publicFilled, staticsFilled, wifiSsidFilled, nameFilled⟩
  simp only [createIgnBridgeProfile, macDone, localDone, publicDone, staticsDone, wifiDone, wifiSsidDone, Option.bind_eq_bind,
    Option.bind_some, Option.pure_def]

theorem RawProfile.Describes.filled {bp : RawProfile} (describes : bp.Describes si) {field : ByteField}
    (listed : field ∈ bp.byteFields) : ∃ text, field.Filled text := by
  revert field
  simp only [RawProfile.byteFields, List.forall_mem_cons]
  exact ⟨⟨_, describes.btId⟩, ⟨_, describes.macAddr⟩, ⟨_, describes.localIp⟩, ⟨_, describes.publicIp⟩,
    ⟨_, describes.sysStatics⟩, ⟨_, describes.wifiSsid⟩, ⟨_, describes.name⟩, fun field inside => absurd inside List.not_mem_nil⟩

theorem createIgnBridgeProfile_fits {bp : RawProfile} (built : createIgnBridgeProfile si = some bp) : si.Fits := by
  rcases Option.bind_eq_some_iff.mp built with ⟨macs, -, built⟩
  rcases Option.bind_eq_some_iff.mp built with ⟨localIp, -, built⟩
  rcases Option.bind_eq_some_iff.mp built with ⟨publicIp, publicDone, built⟩
  rcases Option.bind_eq_some_iff.mp built with ⟨statics, staticsDone, built⟩
  rcases Option.bind_eq_some_iff.mp built with ⟨wf, wifiDone, built⟩
  rcases Option.bind_eq_some_iff.mp built with ⟨wifiSsid, wifiSsidDone, -⟩
  rcases sysStaticsField_short staticsDone with ⟨disk, memory, cpu, numbers⟩
  rcases proGetWifiInfo_eq_some_iff.mp wifiDone with ⟨ssidDone, signalDone⟩
  rcases stringField_short wifiSsidDone with ⟨text, ssidRead, -⟩
  exact {
    answer := publicIpField_short publicDone
    disk, memory, cpu, numbers
    ssid := getWifiSsid_short ssidDone ssidRead
    signal := getWifiSignal_some_iff.mp ⟨_, signalDone⟩ }

theorem profile_bounds (si : ProfileInput) : BuildsProfile si ↔ si.Fits := by
  constructor
  · rintro ⟨bp, built, -⟩
    exact createIgnBridgeProfile_fits built
  · intro fits
    rcases createIgnBridgeProfile_describes fits with ⟨bp, built, describes⟩
    exact ⟨bp, built, fun field listed => describes.filled listed⟩

theorem ByteField.Filled.content {field : ByteField} {text : List UInt8} (filled : field.Filled text)
    (within : field.size ≤ 100) : (field.pbBytes within).content = text := by
  rcases filled with ⟨-, -, size, bytes⟩
  change field.bytes.toList.take field.size = text
  rw [bytes, size, List.take_left]

theorem createIgnBridgeProfile_carried (fits : si.Fits) : ∃ bp within, createIgnBridgeProfile si = some bp ∧
    (bp.carried within).wire =
      numberField 1 1 ++ bytesField 2 si.mac.string ++ bytesField 3 si.mac.string ++
        bytesField 4 (localAddress si.interfaces) ++ bytesField 5 (si.answer.bytes.takeWhile (· != 0)) ++
        bytesField 6 (sysStatics si.cpuRate si.memoryInfo si.diskInfo) ++ bytesField 7 si.wifi.network ++
        numberField 8 (bp.wifiSignal.toInt % 2 ^ 64).toNat ++ numberField 9 bp.initedTime.toNat ++
        bytesField 10 si.mac.string := by
  rcases createIgnBridgeProfile_describes fits with ⟨bp, built, describes⟩
  have within : ∀ field ∈ bp.byteFields, field.size ≤ 100 := by
    intro field listed
    rcases describes.filled listed with ⟨text, -, short, size, -⟩
    rw [size]
    exact short
  refine ⟨bp, within, built, ?_⟩
  simp only [Outgoing.BridgeProfile.wire, RawProfile.carried, describes.osInfo, OsType.number, describes.btId.content, describes.macAddr.content,
    describes.localIp.content, describes.publicIp.content, describes.sysStatics.content, describes.wifiSsid.content,
    describes.name.content]

def longAddress : HttpAnswer 1024 := ⟨ascii "2001:db8:85a3:8d3:1319:8a2e:370:7348" ++ [0], by decide⟩

def shortAddress : HttpAnswer 1024 := ⟨ascii "203.0.113.7" ++ [0], by decide⟩

def sampleInput (answer : HttpAnswer 1024) : ProfileInput where
  target := .bits32
  mac := Buffer.of 16 (ascii "B827EB123456") (by decide)
  interfaces := [some #v[127, 0, 0, 1], some #v[192, 168, 1, 7]]
  answer := answer
  disk := {
    df := ascii "Filesystem 1K-blocks Used Available Use% Mounted on\n/dev/root 30358208 5018624 24050064 18% /\n"
    buf := Vector.replicate 256 0 }
  memory := {
    meminfo := ascii "MemTotal: 949448 kB\nMemFree: 103364 kB\n"
    buff := Vector.replicate 256 0, total := 0, free := 0 }
  cpu :=
    let stat := { stat := ascii "cpu 4705 150 1120 16250 520 0 17\n", buff := Vector.replicate 256 0, cpust := ⟨0, 0, 0, 0, 0, 0, 0⟩ }
    (stat, stat)
  rates := {
    cpu := fun _ _ => ⟨ascii "1.9802", by decide⟩
    memory := fun _ _ => ⟨ascii "0.8911", by decide⟩
    disk := fun _ _ => ⟨ascii "0.1653", by decide⟩ }
  wifi := {
    ssidText := ascii "wlan0     IEEE 802.11  ESSID:\"home\"  \n"
    signalText := ascii "          Link Quality=70/70  Signal level=-35 dBm\n"
    ssid := Vector.replicate 50 0, signal := 0 }
  initedTime := 1600000000

theorem profile_lost : ¬∀ si, BuildsProfile si := by
  intro every
  rcases every (sampleInput longAddress) with ⟨bp, built, -⟩
  have short := (createIgnBridgeProfile_fits built).answer
  revert short
  unfold HttpAnswer.ShortAddress
  decide

example : (sampleInput shortAddress).Fits where
  answer := .inl (by decide)
  disk := by decide +kernel
  memory := by decide +kernel
  cpu := by decide +kernel
  numbers := numbersWidth_le (by decide)
  ssid := by
    have found : firstMatch ssidPattern (sampleInput shortAddress).wifi.ssidText = some (ascii "home") := by decide +kernel
    rw [WifiInput.ShortSsid, found]
    decide
  signal := by
    have found : firstMatch signalPattern (sampleInput shortAddress).wifi.signalText = some (ascii "70") := by decide +kernel
    intro other same
    rw [found] at same
    cases same
    decide

end Building

end Bridge.Profile
