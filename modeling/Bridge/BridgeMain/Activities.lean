import Bridge.BridgeMain.DealCmd
import Bridge.Library.Protobuf

namespace Bridge.Outgoing

open CString (Text)
open Protobuf (Field numberField bytesField messageField numberSize contentSize messageSize)

-- `ign_MsgInfo`, with the data that the bridge sends.

inductive OsType
  | ukown
  | linux
  | rtos
deriving DecidableEq, Repr

def OsType.number : OsType → Nat
  | .ukown => 0
  | .linux => 1
  | .rtos => 2

inductive EventType
  | heartbeat
  | getUserInfo
  | demoUpdateLockBattery
  | demoUpdateLockStatus
  | demoUpdateLockActivities
deriving DecidableEq, Repr

def EventType.number : EventType → Nat
  | .heartbeat => 1
  | .getUserInfo => 3
  | .demoUpdateLockBattery => 8
  | .demoUpdateLockStatus => 9
  | .demoUpdateLockActivities => 10

structure BridgeProfile where
  osInfo : OsType
  btId : PbBytes 100
  macAddr : PbBytes 100
  localIp : PbBytes 100
  publicIp : PbBytes 100
  sysStatics : PbBytes 100
  wifiSsid : PbBytes 100
  wifiSignal : Int32
  initedTime : UInt32
  name : PbBytes 100

structure BridgeEventData where
  profile : Option BridgeProfile
  demoLockId : Vector UInt8 100
  demoUpdateLockBattery : Option UInt32
  demoUpdateLockStatus : Option UInt32
  demoUpdateLockActivities : Option (PbBytes 500)

structure MsgInfo where
  msgId : UInt32
  time : UInt32
  eventType : EventType
  bridgeData : Option BridgeEventData

def BridgeProfile.wire (profile : BridgeProfile) : List Field :=
  numberField 1 profile.osInfo.number ++ bytesField 2 profile.btId.content ++ bytesField 3 profile.macAddr.content ++
    bytesField 4 profile.localIp.content ++ bytesField 5 profile.publicIp.content ++
    bytesField 6 profile.sysStatics.content ++ bytesField 7 profile.wifiSsid.content ++
    -- a negative number is extended to 64 bits
    numberField 8 (profile.wifiSignal.toInt % 2 ^ 64).toNat ++ numberField 9 profile.initedTime.toNat ++
    bytesField 10 profile.name.content

def BridgeEventData.wire (data : BridgeEventData) : Option (List Field) :=
  (CString.chars data.demoLockId.toList).map fun lockId =>
    messageField 1 (data.profile.map BridgeProfile.wire) ++ bytesField 16 lockId ++
      messageField 17 (data.demoUpdateLockBattery.map fun battery => numberField 1 battery.toNat) ++
      messageField 18 (data.demoUpdateLockStatus.map fun status => numberField 1 status.toNat) ++
      messageField 19 (data.demoUpdateLockActivities.map fun log => bytesField 1 log.content)

def MsgInfo.wire (msg : MsgInfo) : Option (List Field) :=
  let head := numberField 1 msg.msgId.toNat ++ numberField 2 msg.time.toNat ++ numberField 3 msg.eventType.number
  match msg.bridgeData with
  | none => some head
  | some data => data.wire.map fun fields => head ++ messageField 4 (some fields)

def pbEncode (size : Nat) (msg : MsgInfo) : Option (List UInt8) :=
  msg.wire.bind fun fields => if (Protobuf.encode fields).length ≤ size then some (Protobuf.encode fields) else none

/-- What the MQTT client does for one message: whether there is one, what it says to the message, and which of the calls of
    `Init_MQTT` from then on gives a new one. -/
structure MqttMoment where
  connected : Bool
  sendMessage : Int
  initMqtt : List Bool
deriving DecidableEq, Repr

structure Sent where
  ret : Int
  published : Option (List UInt8)
deriving DecidableEq, Repr

def mqttClientSuccess : Int := 0

/-- `none` while the loop for a new client has not come to its end. -/
def sendMqttMsg (moment : MqttMoment) (msg : MsgInfo) : Option Sent :=
  if !moment.connected then some ⟨-1, none⟩
  else match pbEncode 1024 msg with
  | some buf =>
    if moment.sendMessage = mqttClientSuccess then some ⟨0, some buf⟩
    else if moment.initMqtt.any id then some ⟨0, none⟩
    else none
  | none => some ⟨0, none⟩

structure SyncMoment extends MqttMoment where
  msgId : UInt32
  time : UInt32
  profile : BridgeProfile

def strncpy (n : Nat) (text : Text) : Vector UInt8 n := Vector.ofFn fun i => text.bytes.getD i 0

/-- The size is set, and the bytes are copied without a look at the 500 that there is room for. -/
def activitiesLog (logs : List UInt8) : Option (PbBytes 500) :=
  if fits : logs.length ≤ 500 then
    (CString.copy (Vector.replicate 500 0) logs logs.length).map fun bytes => ⟨logs.length, bytes, fits⟩
  else none

def activitiesMsg (moment : SyncMoment) (lockId : Text) (logs : List UInt8) : Option MsgInfo :=
  (activitiesLog logs).map fun log =>
    { msgId := moment.msgId
      time := moment.time
      eventType := .demoUpdateLockActivities
      bridgeData := some
        { profile := some moment.profile
          demoLockId := strncpy 100 lockId
          demoUpdateLockBattery := none
          demoUpdateLockStatus := none
          demoUpdateLockActivities := some log } }

def syncActivities (moment : SyncMoment) (lockId : Text) (logs : List UInt8) : Option Sent :=
  (activitiesMsg moment lockId logs).bind fun msg => (sendMqttMsg moment.toMqttMoment msg).map ({ · with ret := 0 })

def decodedLog (bytes : List UInt8) : Option (List UInt8) := do
  let msg ← Protobuf.decode bytes
  let bridgeData ← Protobuf.decode (Protobuf.content 4 msg)
  let activities ← Protobuf.decode (Protobuf.content 19 bridgeData)
  return Protobuf.content 1 activities

def Sent.Carries (sent : Sent) (logs : List UInt8) : Prop := ∃ bytes, sent.published = some bytes ∧ decodedLog bytes = some logs

/-- The copy stays inside of the field, both functions return 0 only for logs that are published, and both report a message
    that does not fit the buffer or that MQTT refuses. -/
structure ActivitiesLaw (moment : SyncMoment) (lockId : Text) (logs : List UInt8) : Prop where
  inside : (activitiesMsg moment lockId logs).isSome = true
  send : ∀ msg sent, activitiesMsg moment lockId logs = some msg → sendMqttMsg moment.toMqttMoment msg = some sent →
    sent.ret = 0 → sent.Carries logs
  sync : ∀ sent, syncActivities moment lockId logs = some sent → sent.ret = 0 → sent.Carries logs
  reported : ∀ msg, activitiesMsg moment lockId logs = some msg →
    (pbEncode 1024 msg = none ∨ moment.sendMessage ≠ mqttClientSuccess) →
      (∃ sent, sendMqttMsg moment.toMqttMoment msg = some sent ∧ sent.ret ≠ 0) ∧
        ∃ sent, syncActivities moment lockId logs = some sent ∧ sent.ret ≠ 0

def profileSize (profile : BridgeProfile) : Nat :=
  numberSize 1 profile.osInfo.number + contentSize 2 profile.btId.size + contentSize 3 profile.macAddr.size +
    contentSize 4 profile.localIp.size + contentSize 5 profile.publicIp.size + contentSize 6 profile.sysStatics.size +
    contentSize 7 profile.wifiSsid.size + numberSize 8 (profile.wifiSignal.toInt % 2 ^ 64).toNat +
    numberSize 9 profile.initedTime.toNat + contentSize 10 profile.name.size

def activitiesSize (moment : SyncMoment) (lockId logs : Nat) : Nat :=
  numberSize 1 moment.msgId.toNat + numberSize 2 moment.time.toNat + numberSize 3 10 +
    messageSize 4 (messageSize 1 (profileSize moment.profile) + contentSize 16 lockId + messageSize 19 (contentSize 1 logs))

structure ActivitiesFit (moment : SyncMoment) (lockId : Text) (logs : List UInt8) : Prop where
  copied : logs.length ≤ 500
  terminated : lockId.bytes.length ≤ 99
  size : activitiesSize moment lockId.bytes.length logs.length ≤ 1024
  connected : moment.connected = true
  accepted : moment.sendMessage = mqttClientSuccess

section Sending

variable {moment : SyncMoment} {lockId : Text} {logs : List UInt8}

theorem chars_strncpy (n : Nat) (text : Text) :
    CString.chars (strncpy n text).toList = if text.bytes.length < n then some text.bytes else none := by
  have array : (strncpy n text).toList = (text.array ++ List.replicate n 0).take n := by
    apply List.ext_getElem
    · simp only [Vector.length_toList, List.length_take, List.length_append, List.length_replicate]
      omega
    · intro i inside _
      have short : i < n := by rwa [Vector.length_toList] at inside
      simp only [Vector.getElem_toList, strncpy, Vector.getElem_ofFn, List.getElem_take, Text.array, List.append_assoc,
        List.singleton_append, ← List.replicate_succ]
      by_cases listed : i < text.bytes.length
      · rw [List.getElem_append_left listed, List.getD_eq_getElem?_getD, List.getElem?_eq_getElem listed, Option.getD_some]
      · rw [List.getElem_append_right (Nat.le_of_not_lt listed), List.getElem_replicate,
          List.getD_eq_getElem?_getD, List.getElem?_eq_none (Nat.le_of_not_lt listed), Option.getD_none]
  rw [array]
  have read : CString.chars (text.array ++ List.replicate n 0) = some text.bytes := by
    rw [Text.array, List.append_assoc, List.singleton_append]
    exact CString.chars_append text.nonzero _
  exact CString.chars_take read n

theorem activitiesLog_some (fits : logs.length ≤ 500) : ∃ log, activitiesLog logs = some log ∧ log.size = logs.length ∧
    log.content = logs := by
  rcases CString.copy_some (Vector.replicate 500 0) fits (Nat.le_refl _) with ⟨bytes, copied, array⟩
  refine ⟨⟨logs.length, bytes, fits⟩, ?_, rfl, ?_⟩
  · rw [activitiesLog, dif_pos fits, copied, Option.map_some]
  · rw [PbBytes.content, array, List.take_of_length_le (Nat.le_refl _), List.take_left' rfl]

theorem content_length {capacity : Nat} (field : PbBytes capacity) : field.content.length = field.size := by
  rw [PbBytes.content, List.length_take, Vector.length_toList]
  exact Nat.min_eq_left field.within

theorem encode_profile (profile : BridgeProfile) : (Protobuf.encode profile.wire).length = profileSize profile := by
  simp only [BridgeProfile.wire, Protobuf.encode_append, List.length_append, Protobuf.encode_numberField,
    Protobuf.encode_bytesField, content_length, profileSize]

theorem activitiesMsg_none (long : 500 < logs.length) : activitiesMsg moment lockId logs = none := by
  rw [activitiesMsg, activitiesLog, dif_neg (Nat.not_le.mpr long), Option.map_none]

def bridgeDataWire (moment : SyncMoment) (lockId : Text) (logs : List UInt8) : List Field :=
  messageField 1 (some moment.profile.wire) ++ bytesField 16 lockId.bytes ++ messageField 19 (some (bytesField 1 logs))

def activitiesWire (moment : SyncMoment) (lockId : Text) (logs : List UInt8) : List Field :=
  numberField 1 moment.msgId.toNat ++ numberField 2 moment.time.toNat ++ numberField 3 10 ++
    messageField 4 (some (bridgeDataWire moment lockId logs))

theorem activitiesMsg_some (fits : logs.length ≤ 500) : ∃ msg, activitiesMsg moment lockId logs = some msg ∧
    msg.wire = if lockId.bytes.length ≤ 99 then some (activitiesWire moment lockId logs) else none := by
  rcases activitiesLog_some fits with ⟨log, stored, _, content⟩
  refine ⟨_, by rw [activitiesMsg, stored, Option.map_some], ?_⟩
  have enough : lockId.bytes.length < 100 ↔ lockId.bytes.length ≤ 99 := Nat.lt_succ_iff
  simp only [MsgInfo.wire, BridgeEventData.wire, chars_strncpy, EventType.number, content, Option.map_some, Option.map_none,
    messageField, List.append_nil, enough]
  split <;> rfl

theorem encode_bridgeData : (Protobuf.encode (bridgeDataWire moment lockId logs)).length =
    messageSize 1 (profileSize moment.profile) + contentSize 16 lockId.bytes.length +
      messageSize 19 (contentSize 1 logs.length) := by
  simp only [bridgeDataWire, Protobuf.encode_append, List.length_append, Protobuf.encode_messageField,
    Protobuf.encode_bytesField, encode_profile]

theorem encode_activities : (Protobuf.encode (activitiesWire moment lockId logs)).length =
    activitiesSize moment lockId.bytes.length logs.length := by
  simp only [activitiesWire, Protobuf.encode_append, List.length_append, Protobuf.encode_messageField,
    Protobuf.encode_numberField, encode_bridgeData, activitiesSize]

theorem bridgeData_fits (short : (Protobuf.encode (bridgeDataWire moment lockId logs)).length < 2 ^ 64) :
    ∀ field ∈ bridgeDataWire moment lockId logs, field.Fits := by
  apply Protobuf.fits_of_length _ short
  simp only [bridgeDataWire, List.forall_mem_append]
  exact ⟨⟨Protobuf.messageField_numbered (by decide) _, Protobuf.bytesField_numbered (by decide) _⟩,
    Protobuf.messageField_numbered (by decide) _⟩

theorem activities_fits (short : (Protobuf.encode (activitiesWire moment lockId logs)).length < 2 ^ 64) :
    ∀ field ∈ activitiesWire moment lockId logs, field.Fits := by
  have narrow : ∀ n : UInt32, n.toNat < 2 ^ 64 := fun n => Nat.lt_trans n.toNat_lt (by decide)
  apply Protobuf.fits_of_length _ short
  simp only [activitiesWire, List.forall_mem_append]
  exact ⟨⟨⟨Protobuf.numberField_numbered (by decide) (narrow _), Protobuf.numberField_numbered (by decide) (narrow _)⟩,
    Protobuf.numberField_numbered (by decide) (by decide)⟩, Protobuf.messageField_numbered (by decide) _⟩

theorem decodedLog_encode (short : (Protobuf.encode (activitiesWire moment lockId logs)).length < 2 ^ 64) :
    decodedLog (Protobuf.encode (activitiesWire moment lockId logs)) = some logs := by
  have listed : ⟨4, .bytes (Protobuf.encode (bridgeDataWire moment lockId logs))⟩ ∈ activitiesWire moment lockId logs :=
    List.mem_append_right _ List.mem_cons_self
  have short' := Nat.lt_of_le_of_lt (Protobuf.content_length_le listed) short
  have listed' : ⟨19, .bytes (Protobuf.encode (bytesField 1 logs))⟩ ∈ bridgeDataWire moment lockId logs :=
    List.mem_append_right _ List.mem_cons_self
  have short'' := Nat.lt_of_le_of_lt (Protobuf.content_length_le listed') short'
  have bridgeData : Protobuf.content 4 (activitiesWire moment lockId logs) =
      Protobuf.encode (bridgeDataWire moment lockId logs) := by
    apply Protobuf.content_append_message
    simp only [List.filterMap_append, Protobuf.contentAt_numberField, List.append_nil]
  have activities : Protobuf.content 19 (bridgeDataWire moment lockId logs) = Protobuf.encode (bytesField 1 logs) := by
    apply Protobuf.content_append_message
    rw [List.filterMap_append, Protobuf.contentAt_messageField (by decide), Protobuf.contentAt_bytesField (by decide)]
    rfl
  have log := Protobuf.decode_encode (Protobuf.fits_of_length (@Protobuf.bytesField_numbered 1 (by decide) logs) short'')
  simp only [decodedLog, Protobuf.decode_encode (activities_fits short), bridgeData,
    Protobuf.decode_encode (bridgeData_fits short'), activities, log, Protobuf.content_bytesField, Option.bind_eq_bind,
    Option.bind_some, Option.pure_def]

theorem pbEncode_activities {msg : MsgInfo} (wire : msg.wire = if lockId.bytes.length ≤ 99 then
    some (activitiesWire moment lockId logs) else none) : pbEncode 1024 msg =
      if lockId.bytes.length ≤ 99 ∧ activitiesSize moment lockId.bytes.length logs.length ≤ 1024 then
        some (Protobuf.encode (activitiesWire moment lockId logs)) else none := by
  rw [pbEncode, wire]
  by_cases terminated : lockId.bytes.length ≤ 99
  · simp only [terminated, if_true, Option.bind_some, encode_activities, true_and]
  · simp only [terminated, if_false, Option.bind_none, false_and]

theorem ActivitiesLaw.fit (law : ActivitiesLaw moment lockId logs) : ActivitiesFit moment lockId logs := by
  have copied : logs.length ≤ 500 := by
    by_contra long
    have inside := law.inside
    rw [activitiesMsg_none (Nat.not_le.mp long)] at inside
    cases inside
  rcases @activitiesMsg_some moment lockId logs copied with ⟨msg, made, wire⟩
  have encoded := pbEncode_activities wire
  have synced : ∀ sent, sendMqttMsg moment.toMqttMoment msg = some sent →
      syncActivities moment lockId logs = some { sent with ret := 0 } := by
    intro sent done
    rw [syncActivities, made, Option.bind_some, done, Option.map_some]
  have silent : ∀ ret, sendMqttMsg moment.toMqttMoment msg ≠ some ⟨ret, none⟩ := by
    intro ret done
    rcases law.sync _ (synced _ done) rfl with ⟨bytes, published, _⟩
    cases published
  have connected : moment.connected = true := by
    by_contra apart
    apply silent (-1)
    rw [sendMqttMsg, if_pos (by simp [apart])]
  have open' : ¬(!moment.connected) = true := by simp [connected]
  have fits : lockId.bytes.length ≤ 99 ∧ activitiesSize moment lockId.bytes.length logs.length ≤ 1024 := by
    by_contra long
    rw [if_neg long] at encoded
    apply silent 0
    rw [sendMqttMsg, if_neg open', encoded]
  have accepted : moment.sendMessage = mqttClientSuccess := by
    by_contra refused
    rcases (law.reported msg made (.inr refused)).1 with ⟨sent, done, error⟩
    rw [if_pos fits] at encoded
    simp only [sendMqttMsg, if_neg open', encoded, if_neg refused] at done
    split at done
    · cases done
      exact error rfl
    · cases done
  exact ⟨copied, fits.1, fits.2, connected, accepted⟩

theorem ActivitiesFit.law (fit : ActivitiesFit moment lockId logs) : ActivitiesLaw moment lockId logs := by
  rcases @activitiesMsg_some moment lockId logs fit.copied with ⟨msg, made, wire⟩
  have encoded := pbEncode_activities wire
  rw [if_pos ⟨fit.terminated, fit.size⟩] at encoded
  have open' : ¬(!moment.connected) = true := by simp [fit.connected]
  have sends : sendMqttMsg moment.toMqttMoment msg = some ⟨0, some (Protobuf.encode (activitiesWire moment lockId logs))⟩ := by
    simp only [sendMqttMsg, if_neg open', encoded, if_pos fit.accepted]
  have short : (Protobuf.encode (activitiesWire moment lockId logs)).length < 2 ^ 64 := by
    rw [encode_activities]
    exact Nat.lt_of_le_of_lt fit.size (by decide)
  have carries : ∀ ret, Sent.Carries ⟨ret, some (Protobuf.encode (activitiesWire moment lockId logs))⟩ logs :=
    fun ret => ⟨_, rfl, decodedLog_encode short⟩
  constructor
  case inside => rw [made, Option.isSome_some]
  case send =>
    intro msg' sent made' done _
    cases made.symm.trans made'
    cases sends.symm.trans done
    exact carries 0
  case sync =>
    intro sent done _
    rw [syncActivities, made, Option.bind_some, sends, Option.map_some] at done
    cases done
    exact carries 0
  case reported =>
    intro msg' made' failed
    cases made.symm.trans made'
    rw [encoded] at failed
    rcases failed with ⟨⟨⟩⟩ | refused
    exact absurd fit.accepted refused

end Sending

/-- The logs of a lock are delivered or reported lost exactly if they fit the message and the message fits the buffer, with
    an id that ends in its array, and the MQTT client is there and takes the message. -/
theorem activities_law_iff (moment : SyncMoment) (lockId : Text) (logs : List UInt8) :
    ActivitiesLaw moment lockId logs ↔ ActivitiesFit moment lockId logs :=
  ⟨ActivitiesLaw.fit, ActivitiesFit.law⟩

def sampleBytes : PbBytes 100 := ⟨1, Vector.replicate 100 0x31, by decide⟩

def sampleProfile : BridgeProfile :=
  ⟨.linux, sampleBytes, sampleBytes, sampleBytes, sampleBytes, sampleBytes, sampleBytes, -60, 1600000000, sampleBytes⟩

def refusedMoment : SyncMoment := ⟨⟨true, -1, [true]⟩, 7, 1600000000, sampleProfile⟩

theorem refused_logs_silent : ¬ActivitiesLaw refusedMoment ⟨[0x49, 0x47, 0x4d, 0x31], by decide⟩ [0x05] := by
  intro law
  have silent : syncActivities refusedMoment ⟨[0x49, 0x47, 0x4d, 0x31], by decide⟩ [0x05] = some ⟨0, none⟩ := by
    decide +kernel
  rcases law.sync _ silent rfl with ⟨bytes, published, _⟩
  cases published

end Bridge.Outgoing
