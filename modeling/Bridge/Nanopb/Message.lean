import Bridge.BridgeMain.Activities
import Bridge.Nanopb.Encode

namespace Bridge

def PbBytes.data {capacity : Nat} (field : PbBytes capacity) : Nanopb.Data := .bytes field.size field.bytes.toList

namespace Outgoing

open Protobuf (numberField messageField)
open Nanopb (Data PbField wire)

def messageAt (tag : UInt32) (message : Option (List PbField)) : PbField :=
  .optional tag message.isSome (.submessage (message.getD []))

def BridgeProfile.fields (profile : BridgeProfile) : List PbField :=
  [.singular 1 (.uvarint (UInt32.ofNat profile.osInfo.number)), .singular 2 profile.btId.data, .singular 3 profile.macAddr.data,
    .singular 4 profile.localIp.data, .singular 5 profile.publicIp.data, .singular 6 profile.sysStatics.data,
    .singular 7 profile.wifiSsid.data, .singular 8 (.varint profile.wifiSignal),
    .singular 9 (.uvarint profile.initedTime), .singular 10 profile.name.data]

/-- `ign_BridgeEventData_FIELDLIST`, without the lists, which the bridge leaves empty, and the message that it never sets. -/
def BridgeEventData.fields (data : BridgeEventData) : List PbField :=
  [messageAt 1 (data.profile.map BridgeProfile.fields), .singular 16 (.string data.demoLockId.toList),
    messageAt 17 (data.demoUpdateLockBattery.map fun battery => [.singular 1 (.uvarint battery)]),
    messageAt 18 (data.demoUpdateLockStatus.map fun status => [.singular 1 (.uvarint status)]),
    messageAt 19 (data.demoUpdateLockActivities.map fun log => [.singular 1 log.data])]

/-- `ign_MsgInfo_FIELDLIST`: the data of the server is not there. -/
def MsgInfo.fields (msg : MsgInfo) : List PbField :=
  [.singular 1 (.uvarint msg.msgId), .singular 2 (.uvarint msg.time),
    .singular 3 (.uvarint (UInt32.ofNat msg.eventType.number)), messageAt 4 (msg.bridgeData.map BridgeEventData.fields),
    messageAt 5 none]

theorem uvarint_wire (tag value : UInt32) :
    (PbField.singular tag (.uvarint value)).wire = .ok (numberField tag.toNat value.toNat) := by
  rw [PbField.wire, Data.isDefault, numberField]
  by_cases zero : value = 0
  · simp [zero]
  · have some : value.toNat ≠ 0 := fun same => zero (UInt32.toNat_inj.mp same)
    simp only [beq_iff_eq, if_neg zero, if_neg some]
    rfl

theorem toUInt64_extended (value : Int32) : value.toInt64.toUInt64.toNat = (value.toInt % 2 ^ 64).toNat := by
  have same : value.toInt % 2 ^ 64 = (value.toInt64.toBitVec.toNat : Int) := by
    have narrow := value.toInt64.toBitVec.isLt
    rw [← Int32.toInt_toInt64, Int64.toInt, BitVec.toInt_eq_toNat_cond]
    split <;> omega
  rw [same, Int.toNat_natCast]
  rfl

theorem varint_wire (tag : UInt32) (value : Int32) :
    (PbField.singular tag (.varint value)).wire = .ok (numberField tag.toNat (value.toInt % 2 ^ 64).toNat) := by
  rw [PbField.wire, Data.isDefault, numberField, ← toUInt64_extended]
  by_cases zero : value = 0
  · rw [zero]
    rfl
  · have some : (value.toInt % 2 ^ 64).toNat ≠ 0 := by
      have bounds := value.toInt_lt
      have bounds' := value.le_toInt
      have different : value.toInt ≠ 0 := fun same => zero (Int32.toInt_inj.mp same)
      omega
    rw [← toUInt64_extended] at some
    simp only [beq_iff_eq, if_neg zero, if_neg some]
    rfl

theorem bytes_wire {capacity : Nat} (tag : UInt32) (field : PbBytes capacity) :
    (PbField.singular tag field.data).wire = .ok (Protobuf.bytesField tag.toNat field.content) := by
  have room : field.size ≤ field.bytes.toList.length := by
    rw [Vector.length_toList]
    exact field.within
  rw [PbField.wire, PbBytes.data, Data.isDefault, Protobuf.bytesField, content_length, Data.value, if_pos room]
  simp only [beq_iff_eq]
  split <;> rfl

theorem string_wire (tag : UInt32) (array : List UInt8) :
    (PbField.singular tag (.string array)).wire = match CString.chars array with
      | some string => .ok (Protobuf.bytesField tag.toNat string)
      | none => .error "unterminated string" := by
  rw [PbField.wire, Data.isDefault, Data.value]
  cases array with
  | nil => rfl
  | cons byte rest =>
    by_cases zero : byte = 0
    · simp [zero, CString.chars, Protobuf.bytesField]
    · have first : ((byte :: rest).head? == some 0) = false := by simp [zero]
      rw [first, CString.chars, if_neg zero]
      cases CString.chars rest with
      | none => rfl
      | some string => rfl

theorem message_wire (tag : UInt32) {message : Option (List PbField)} {w : Option (List Protobuf.Field)}
    (wired : message.map wire = w.map Except.ok) : (messageAt tag message).wire = .ok (messageField tag.toNat w) := by
  cases message with
  | none =>
    cases w with
    | none => rfl
    | some w => cases wired
  | some fields =>
    cases w with
    | none => cases wired
    | some w =>
      have same : wire fields = .ok w := Option.some.inj wired
      rw [messageAt, PbField.wire, Option.isSome_some, if_pos rfl, Option.getD_some, Data.value, same]
      rfl

section Wire

theorem osInfo_number (osInfo : OsType) : (UInt32.ofNat osInfo.number).toNat = osInfo.number := by
  cases osInfo <;> rfl

theorem eventType_number (eventType : EventType) : (UInt32.ofNat eventType.number).toNat = eventType.number := by
  cases eventType <;> rfl

theorem profile_wire (profile : BridgeProfile) : wire profile.fields = .ok profile.wire := by
  simp only [BridgeProfile.fields, wire, uvarint_wire, varint_wire, bytes_wire, Nanopb.ok_bind, osInfo_number,
    Nanopb.pure_ok]
  simp only [BridgeProfile.wire, List.append_assoc, List.append_nil]
  rfl

theorem one_uvarint_wire (value : UInt32) : wire [.singular 1 (.uvarint value)] = .ok (numberField 1 value.toNat) := by
  simp only [wire, uvarint_wire, Nanopb.ok_bind, List.append_nil]
  rfl

theorem one_bytes_wire {capacity : Nat} (field : PbBytes capacity) :
    wire [.singular 1 field.data] = .ok (Protobuf.bytesField 1 field.content) := by
  simp only [wire, bytes_wire, Nanopb.ok_bind, List.append_nil]
  rfl

theorem data_wire (data : BridgeEventData) : wire data.fields = match data.wire with
    | some w => .ok w
    | none => .error "unterminated string" := by
  have profile : (messageAt 1 (data.profile.map BridgeProfile.fields)).wire =
      .ok (messageField 1 (data.profile.map BridgeProfile.wire)) := by
    apply message_wire
    simp only [Option.map_map, Function.comp_def, profile_wire]
  have battery : (messageAt 17 (data.demoUpdateLockBattery.map fun battery => [.singular 1 (.uvarint battery)])).wire =
      .ok (messageField 17 (data.demoUpdateLockBattery.map fun battery => numberField 1 battery.toNat)) := by
    apply message_wire
    simp only [Option.map_map, Function.comp_def, one_uvarint_wire]
  have status : (messageAt 18 (data.demoUpdateLockStatus.map fun status => [.singular 1 (.uvarint status)])).wire =
      .ok (messageField 18 (data.demoUpdateLockStatus.map fun status => numberField 1 status.toNat)) := by
    apply message_wire
    simp only [Option.map_map, Function.comp_def, one_uvarint_wire]
  have activities : (messageAt 19 (data.demoUpdateLockActivities.map fun log => [.singular 1 log.data])).wire =
      .ok (messageField 19 (data.demoUpdateLockActivities.map fun log => Protobuf.bytesField 1 log.content)) := by
    apply message_wire
    simp only [Option.map_map, Function.comp_def, one_bytes_wire]
  rw [BridgeEventData.wire]
  simp only [BridgeEventData.fields, wire, profile, battery, status, activities, string_wire, Nanopb.ok_bind, Nanopb.pure_ok]
  cases CString.chars data.demoLockId.toList with
  | none => rfl
  | some lockId =>
    simp only [Nanopb.ok_bind, Option.map_some, List.append_assoc, List.append_nil]
    rfl

theorem msg_wire (msg : MsgInfo) : wire msg.fields = match msg.wire with
    | some w => .ok w
    | none => .error "unterminated string" := by
  have server : (messageAt 5 none).wire = .ok [] := rfl
  rw [MsgInfo.wire]
  simp only [MsgInfo.fields, wire, uvarint_wire, server, Nanopb.ok_bind, Nanopb.pure_ok, eventType_number]
  cases msg.bridgeData with
  | none =>
    have data : (messageAt 4 (none.map BridgeEventData.fields)).wire = .ok [] := rfl
    simp only [data, Nanopb.ok_bind, List.append_assoc, List.append_nil]
    rfl
  | some data =>
    have wired := data_wire data
    cases held : data.wire with
    | none =>
      rw [held] at wired
      have refused : (messageAt 4 (some data.fields)).wire = .error "unterminated string" := by
        rw [messageAt, PbField.wire, Option.isSome_some, if_pos rfl, Option.getD_some, Data.value, wired]
        rfl
      simp only [refused, held, Option.map_some, Option.map_none]
      rfl
    | some w =>
      rw [held] at wired
      have sent : (messageAt 4 (some data.fields)).wire = .ok (messageField 4 (some w)) :=
        message_wire 4 (congrArg some wired)
      simp only [sent, held, Nanopb.ok_bind, Option.map_some, List.append_assoc, List.append_nil]
      rfl

end Wire

section Sizes

theorem profile_size (profile : BridgeProfile) : (Protobuf.encode profile.wire).length ≤ 900 := by
  have bytes : ∀ tag, ∀ field : PbBytes 100, (Protobuf.encode (Protobuf.bytesField tag field.content)).length ≤ 20 + 100 := by
    intro tag field
    exact Protobuf.bytesField_size (Nat.le_trans (Nat.le_of_eq (content_length field)) field.within)
  have number := Protobuf.numberField_size
  simp only [BridgeProfile.wire, Protobuf.encode_append, List.length_append]
  have osInfo := number 1 profile.osInfo.number
  have btId := bytes 2 profile.btId
  have macAddr := bytes 3 profile.macAddr
  have localIp := bytes 4 profile.localIp
  have publicIp := bytes 5 profile.publicIp
  have sysStatics := bytes 6 profile.sysStatics
  have wifiSsid := bytes 7 profile.wifiSsid
  have wifiSignal := number 8 (profile.wifiSignal.toInt % 2 ^ 64).toNat
  have initedTime := number 9 profile.initedTime.toNat
  have name := bytes 10 profile.name
  omega

theorem data_size {data : BridgeEventData} {w : List Protobuf.Field} (wired : data.wire = some w) :
    (Protobuf.encode w).length ≤ 1700 := by
  obtain ⟨lockId, read, rfl⟩ := Option.map_eq_some_iff.mp wired
  have short : lockId.length ≤ 100 := by
    have less := CString.chars_lt read
    rw [Vector.length_toList] at less
    exact Nat.le_of_lt less
  have profile : (Protobuf.encode (messageField 1 (data.profile.map BridgeProfile.wire))).length ≤ 20 + 900 := by
    apply Protobuf.messageField_size
    rintro w held
    obtain ⟨profile, _, rfl⟩ := Option.map_eq_some_iff.mp held
    exact profile_size profile
  have text := @Protobuf.bytesField_size 16 _ _ short
  have number : ∀ tag, ∀ value : Option UInt32,
      (Protobuf.encode (messageField tag (value.map fun n => numberField 1 n.toNat))).length ≤ 20 + 20 := by
    intro tag value
    apply Protobuf.messageField_size
    rintro w held
    obtain ⟨n, _, rfl⟩ := Option.map_eq_some_iff.mp held
    exact Protobuf.numberField_size 1 n.toNat
  have battery := number 17 data.demoUpdateLockBattery
  have status := number 18 data.demoUpdateLockStatus
  have activities : (Protobuf.encode (messageField 19 (data.demoUpdateLockActivities.map fun log =>
      Protobuf.bytesField 1 log.content))).length ≤ 20 + 520 := by
    apply Protobuf.messageField_size
    rintro w held
    obtain ⟨log, _, rfl⟩ := Option.map_eq_some_iff.mp held
    exact Protobuf.bytesField_size (Nat.le_trans (Nat.le_of_eq (content_length log)) log.within)
  simp only [Protobuf.encode_append, List.length_append]
  omega

theorem msg_countable (msg : MsgInfo) : Nanopb.Countable msg.fields := by
  intro w wired
  rw [msg_wire] at wired
  cases held : msg.wire with
  | none => rw [held] at wired; cases wired
  | some sent =>
    rw [held] at wired
    cases wired
    have msgId := Protobuf.numberField_size 1 msg.msgId.toNat
    have time := Protobuf.numberField_size 2 msg.time.toNat
    have eventType := Protobuf.numberField_size 3 msg.eventType.number
    rw [MsgInfo.wire] at held
    split at held
    · cases held
      simp only [Protobuf.encode_append, List.length_append]
      omega
    · obtain ⟨data, inner, rfl⟩ := Option.map_eq_some_iff.mp held
      have message : (Protobuf.encode (messageField 4 (some data))).length ≤ 20 + 1700 := by
        apply Protobuf.messageField_size
        rintro w held
        cases held
        exact data_size inner
      simp only [Protobuf.encode_append, List.length_append]
      omega

end Sizes

/-- What the caller of `pb_encode` has in its buffer, if the call succeeds. -/
def encodeToBuffer (size : Nat) (msg : MsgInfo) : Option (List UInt8) :=
  (Nanopb.pbEncode msg.fields (Nanopb.ostreamFromBuffer size)).toOption.bind Nanopb.Ostream.written

/-- The encoder writes the wire format of every message, or fails where there is none or where it does not fit. -/
theorem encodeToBuffer_exact (size : Nat) (msg : MsgInfo) : encodeToBuffer size msg = pbEncode size msg := by
  rw [encodeToBuffer, pbEncode]
  have buffer := Nanopb.pbEncode_buffer (msg_countable msg) size
  rw [msg_wire] at buffer
  cases encoded : Nanopb.pbEncode msg.fields (Nanopb.ostreamFromBuffer size) with
  | ok stream =>
    obtain ⟨w, wired, room, rfl⟩ := (buffer stream).mp encoded
    cases held : msg.wire with
    | none => rw [held] at wired; cases wired
    | some sent =>
      rw [held] at wired
      cases wired
      simp [Except.toOption, room]
  | error error =>
    cases held : msg.wire with
    | none => rfl
    | some sent =>
      by_cases room : (Protobuf.encode sent).length ≤ size
      · have done := (buffer _).mpr ⟨sent, by rw [held], room, rfl⟩
        rw [encoded] at done
        cases done
      · simp [Except.toOption, room]

end Outgoing

end Bridge
