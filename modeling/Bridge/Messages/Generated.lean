import Bridge.Messages.Shapes

namespace Bridge

open Cbor

namespace Generated

def number (bits tag : Nat) : Slot := ⟨tag, .uint bits, false⟩

def signed (tag : Nat) : Slot := ⟨tag, .int32, false⟩

def bytes (tag : Nat) : Slot := ⟨tag, .bytes, false⟩

def flag (tag : Nat) : Slot := ⟨tag, .boolean, false⟩

def need (slot : Slot) : Slot := { slot with required := true }

def answer (msgId : Nat) : Shape := ⟨msgId, [need (number 8 11), number 32 100], 22⟩

def looseAnswer (msgId : Nat) : Shape := ⟨msgId, [number 8 11, number 32 100], 22⟩

def addCardRequest : Shape := ⟨65, [need (bytes 11), number 32 12, number 32 100], 32⟩

def addCardResponse : Shape := answer 66

def addFingerprintRequest : Shape := ⟨75, [bytes 11, number 8 12, number 32 13, number 32 100], 35⟩

def addFingerprintResponse : Shape := looseAnswer 76

def addLockRequest : Shape := ⟨83, [bytes 11, bytes 12, bytes 13, bytes 14, bytes 15, number 32 100], 54⟩

def addLockResponse : Shape := looseAnswer 84

def adminConnectionStep1 : Shape := ⟨6, [need (bytes 11)], 20⟩

def adminConnectionStep2 : Shape := ⟨7, [need (bytes 11)], 20⟩

def adminConnectionStep3 : Shape := ⟨8, [need (flag 11)], 15⟩

def blacklistGuestKeyRequest : Shape :=
  ⟨57, [need (bytes 11), need (number 32 12), number 32 13, number 32 14, number 32 100], 44⟩

def blacklistGuestKeyResponse : Shape := answer 58

def bridgeStatusNotification : Shape := ⟨106, [number 8 11], 16⟩

def cardAddedNotification : Shape := ⟨101, [bytes 11], 20⟩

def cardDeletedNotification : Shape := ⟨102, [bytes 11], 20⟩

def createPinRequest : Shape :=
  ⟨43, [need (bytes 11), need (bytes 12), number 32 13, number 32 14, number 8 15, number 32 100], 48⟩

def createPinResponse : Shape := answer 44

def daylightSavingRange : Shape :=
  ⟨205, [need (number 16 11), need (number 32 12), need (number 32 13), need (signed 14)], 35⟩

def deleteCardRequest : Shape := ⟨67, [need (bytes 11), number 32 12, number 32 100], 32⟩

def deleteCardResponse : Shape := answer 68

def deleteCardUidRequest : Shape := ⟨69, [need (bytes 11), bytes 12, number 32 100], 33⟩

def deleteCardUidResponse : Shape := answer 70

def deleteFingerprintRequest : Shape := ⟨77, [bytes 11, number 32 12, number 32 100], 32⟩

def deleteFingerprintResponse : Shape := looseAnswer 78

def deleteFingerprintUidRequest : Shape := ⟨79, [bytes 11, number 16 12, number 32 100], 30⟩

def deleteFingerprintUidResponse : Shape := looseAnswer 80

def deleteLockRequest : Shape := ⟨85, [bytes 11, bytes 12, number 32 100], 33⟩

def deleteLockResponse : Shape := looseAnswer 86

def deletePinRequest : Shape := ⟨47, [need (bytes 11), need (bytes 12), number 32 100], 33⟩

def deletePinResponse : Shape := answer 48

def editPinRequest : Shape :=
  ⟨45, [need (bytes 11), need (bytes 12), bytes 13, number 32 14, number 32 15, number 8 16, number 32 100], 55⟩

def editPinResponse : Shape := answer 46

def enableAutoUnlockRequest : Shape := ⟨55, [need (bytes 11), flag 12, signed 13, number 32 100], 34⟩

def enableAutoUnlockResponse : Shape := answer 56

def enableDfuRequest : Shape := ⟨61, [need (bytes 11), need (flag 12), number 32 100], 28⟩

def enableDfuResponse : Shape := answer 62

def fingerprintAddedNotification : Shape := ⟨103, [number 16 11, number 8 12], 20⟩

def fingerprintDeletedNotification : Shape := ⟨104, [number 16 11, number 8 12], 20⟩

def getBatteryLevelRequest : Shape := ⟨29, [need (bytes 11), number 32 100], 26⟩

def getBatteryLevelResponse : Shape := ⟨30, [need (number 8 11), number 32 12, number 32 100], 28⟩

def getFirmwareVersionRequest : Shape := ⟨87, [bytes 11, number 32 100], 26⟩

def getFirmwareVersionResponse : Shape := ⟨88, [number 8 11, bytes 12, number 32 100], 29⟩

def getLockStatusRequest : Shape := ⟨31, [need (bytes 11), number 32 100], 26⟩

def getLockStatusResponse : Shape := ⟨32, [need (number 8 11), flag 12, number 8 13, number 8 14, number 32 100], 30⟩

def getLogsRequest : Shape := ⟨41, [need (bytes 11), number 32 13, number 32 100], 32⟩

def getLogsResponse : Shape := ⟨42, [need (number 8 11), bytes 12, number 8 13, number 32 100], 32⟩

def getStatusRequest : Shape := ⟨31, [need (bytes 11), number 32 100], 26⟩

def getStatusResponse : Shape :=
  ⟨32, [need (number 8 11), flag 12, number 8 13, number 8 14, number 8 15, number 32 100], 33⟩

def getTimeRequest : Shape := ⟨27, [need (bytes 11), number 32 100], 26⟩

def getTimeResponse : Shape := ⟨28, [need (number 8 11), number 32 12, number 32 100], 28⟩

def guestCardEkey : Shape := ⟨201, [need (bytes 11), need (bytes 12)], 27⟩

def guestConnectionStep1 : Shape := ⟨9, [need (bytes 11)], 20⟩

def guestConnectionStep2 : Shape := ⟨10, [need (bytes 11)], 20⟩

def guestConnectionStep3 : Shape := ⟨11, [need (bytes 11)], 20⟩

def guestConnectionStep4 : Shape := ⟨12, [need (flag 11)], 15⟩

def guestKeyBlacklist : Shape := ⟨204, [need (number 32 11), number 32 12, number 32 13], 31⟩

def guestToken : Shape := ⟨202, [need (number 32 11), number 32 12, number 32 13, bytes 14, bytes 15], 45⟩

def lockRequest : Shape := ⟨51, [need (bytes 11), number 32 12, number 32 100], 32⟩

def lockResponse : Shape := answer 52

def logEntry : Shape :=
  ⟨203, [need (number 32 11), need (number 32 12), number 32 13, bytes 14, bytes 15, number 32 16, number 32 17,
      number 32 18, number 32 19, number 32 20, number 32 21, number 32 22, bytes 23, number 32 100], 100⟩

def nbStatusNotification : Shape := ⟨105, [number 8 11], 16⟩

def pairingCommit : Shape := ⟨5, [need (number 32 11)], 19⟩

def pairingStep1 : Shape := ⟨1, [need (bytes 11)], 20⟩

def pairingStep2 : Shape := ⟨2, [need (bytes 11), need (bytes 12)], 27⟩

def pairingStep3 : Shape := ⟨3, [need (bytes 11), bytes 13, bytes 14, signed 15, bytes 16, bytes 17], 54⟩

def pairingStep4 : Shape := ⟨4, [need (flag 11), bytes 13, bytes 14, signed 15, bytes 17], 42⟩

def setAutorelockRequest : Shape := ⟨37, [need (bytes 11), number 32 12, flag 13, number 32 100], 34⟩

def setAutorelockResponse : Shape := answer 38

def setBridgeConfigurationResponse : Shape := looseAnswer 90

def setBrightnessRequest : Shape := ⟨71, [need (bytes 11), number 8 12, number 32 100], 29⟩

def setBrightnessResponse : Shape := answer 72

def setDaylightSavingRequest : Shape := ⟨63, [need (bytes 11), bytes 12, number 32 100], 33⟩

def setDaylightSavingResponse : Shape := answer 64

def setMasterPinRequest : Shape := ⟨49, [need (bytes 11), need (bytes 12), number 32 100], 33⟩

def setMasterPinResponse : Shape := answer 50

def setMaxIncorrectPinRequest : Shape := ⟨39, [need (bytes 11), number 8 12, flag 13, number 32 100], 31⟩

def setMaxIncorrectPinResponse : Shape := answer 40

def setNbConfigurationResponse : Shape := looseAnswer 82

def setPinKeyRequest : Shape := ⟨35, [need (bytes 11), bytes 12, signed 13, bytes 14, number 32 100], 46⟩

def setPinKeyResponse : Shape := ⟨36, [need (number 8 11), bytes 12, signed 13, bytes 14, number 32 100], 42⟩

def setRelockAlarmRequest : Shape := ⟨73, [need (bytes 11), number 32 12, flag 13, number 32 100], 34⟩

def setRelockAlarmResponse : Shape := answer 74

def setTimeRequest : Shape := ⟨25, [need (bytes 11), need (number 32 12), number 32 100], 32⟩

def setTimeResponse : Shape := answer 26

def setVolumeRequest : Shape := ⟨33, [need (bytes 11), need (number 32 12), number 32 100], 32⟩

def setVolumeResponse : Shape := ⟨34, [need (number 8 11), number 32 12, number 32 13, number 32 100], 34⟩

def statusNotification : Shape := ⟨100, [number 8 11, number 8 12, number 8 13, number 8 15], 25⟩

def unblacklistGuestKeyRequest : Shape := ⟨59, [need (bytes 11), need (number 32 12), number 32 100], 32⟩

def unblacklistGuestKeyResponse : Shape := answer 60

def unlockRequest : Shape := ⟨21, [need (bytes 11), number 32 12, number 32 100], 32⟩

def unlockResponse : Shape := answer 22

def unpairRequest : Shape := ⟨15, [need (bytes 11), flag 12, number 32 100], 28⟩

def unpairResponse : Shape := answer 16

def messages : List Shape :=
  [addCardRequest, addCardResponse, addFingerprintRequest, addFingerprintResponse, addLockRequest, addLockResponse,
    adminConnectionStep1, adminConnectionStep2, adminConnectionStep3, blacklistGuestKeyRequest,
    blacklistGuestKeyResponse, bridgeStatusNotification, cardAddedNotification, cardDeletedNotification,
    createPinRequest, createPinResponse, daylightSavingRange, deleteCardRequest, deleteCardResponse,
    deleteCardUidRequest, deleteCardUidResponse, deleteFingerprintRequest, deleteFingerprintResponse,
    deleteFingerprintUidRequest, deleteFingerprintUidResponse, deleteLockRequest, deleteLockResponse,
    deletePinRequest, deletePinResponse, editPinRequest, editPinResponse, enableAutoUnlockRequest,
    enableAutoUnlockResponse, enableDfuRequest, enableDfuResponse, fingerprintAddedNotification,
    fingerprintDeletedNotification, getBatteryLevelRequest, getBatteryLevelResponse, getFirmwareVersionRequest,
    getFirmwareVersionResponse, getLockStatusRequest, getLockStatusResponse, getLogsRequest, getLogsResponse,
    getStatusRequest, getStatusResponse, getTimeRequest, getTimeResponse, guestCardEkey, guestConnectionStep1,
    guestConnectionStep2, guestConnectionStep3, guestConnectionStep4, guestKeyBlacklist, guestToken, lockRequest,
    lockResponse, logEntry, nbStatusNotification, pairingCommit, pairingStep1, pairingStep2, pairingStep3,
    pairingStep4, setAutorelockRequest, setAutorelockResponse, setBridgeConfigurationResponse,
    setBrightnessRequest, setBrightnessResponse, setDaylightSavingRequest, setDaylightSavingResponse,
    setMasterPinRequest, setMasterPinResponse, setMaxIncorrectPinRequest, setMaxIncorrectPinResponse,
    setNbConfigurationResponse, setPinKeyRequest, setPinKeyResponse, setRelockAlarmRequest, setRelockAlarmResponse,
    setTimeRequest, setTimeResponse, setVolumeRequest, setVolumeResponse, statusNotification,
    unblacklistGuestKeyRequest, unblacklistGuestKeyResponse, unlockRequest, unlockResponse, unpairRequest,
    unpairResponse]

end Generated

def FieldType.narrow : FieldType → Bool
  | .uint bits => bits ≤ 32
  | _ => true

def Shape.check (shape : Shape) : Bool :=
  decide (shape.slots.map Slot.tag).Nodup && (shape.slots.all fun slot => decide (0 < slot.tag ∧ slot.tag < 128)) &&
    (shape.slots.all fun slot => slot.type.narrow) && decide (shape.msgId < 256) && decide (shape.slots.length < 23) &&
    decide (shape.format.overhead ≤ shape.base) && decide (shape.base < 2 ^ 32)

theorem Shape.wellFormed_of_check {shape : Shape} (passes : shape.check = true) : shape.WellFormed := by
  simp only [Shape.check, Bool.and_eq_true, decide_eq_true_eq, List.all_eq_true] at passes
  obtain ⟨⟨⟨⟨⟨⟨tags, range⟩, narrow⟩, id⟩, few⟩, enough⟩, small⟩ := passes
  refine ⟨tags, range, ?_, id, few, enough, small⟩
  intro slot member bits wide
  have width := narrow slot member
  rw [wide] at width
  exact of_decide_eq_true width

theorem Generated.messages_wellFormed : ∀ shape ∈ Generated.messages, shape.WellFormed := by
  have passes : Generated.messages.all Shape.check = true := by decide +kernel
  intro shape member
  exact Shape.wellFormed_of_check (List.all_eq_true.mp passes shape member)

/-- What the template promises of every message that is generated from it: an object comes back from
    its declared size unless the sizes wrap, and no message with another id takes it for its own. -/
theorem generated_messages (shape : Shape) (member : shape ∈ Generated.messages) (obj : shape.Object)
    (proper : shape.format.Proper obj) :
    (shape.format.RoundTrips obj ↔ shape.base + shape.format.stringBytes obj < 2 ^ 32) ∧
    ∀ other ∈ Generated.messages, other.msgId ≠ shape.msgId → ∀ length bytes,
      shape.format.encode obj length = some bytes → ∀ garbage (retval : other.Object),
        other.format.decode garbage bytes retval = some (.invalidMsgIdValue, retval) := by
  have formed := Generated.messages_wellFormed shape member
  refine ⟨Shape.roundTrips formed proper, ?_⟩
  intro other _ distinct length bytes encoded garbage retval
  have sized : shape.format.Sized (2 ^ 64) obj := by
    intro field inside item held content is
    exact Nat.lt_trans (proper.sized field inside item held content is) (by decide)
  exact Shape.refuses formed distinct proper.typed sized encoded garbage retval

def Generated.sampleVolume : Generated.setVolumeRequest.Object
  | ⟨0, _⟩ => some ([1, 2] : List UInt8)
  | ⟨1, _⟩ => some (70000 : Nat)
  | ⟨2, _⟩ => none

theorem generated_messages_volume :
    (Generated.setVolumeRequest.format.RoundTrips Generated.sampleVolume ↔
      Generated.setVolumeRequest.base + Generated.setVolumeRequest.format.stringBytes Generated.sampleVolume < 2 ^ 32) ∧
    ∀ other ∈ Generated.messages, other.msgId ≠ Generated.setVolumeRequest.msgId → ∀ length bytes,
      Generated.setVolumeRequest.format.encode Generated.sampleVolume length = some bytes →
        ∀ garbage (retval : other.Object),
          other.format.decode garbage bytes retval = some (.invalidMsgIdValue, retval) := by
  refine generated_messages Generated.setVolumeRequest (by decide) Generated.sampleVolume ⟨rfl, ?_, ?_⟩
  · intro field inside item held
    obtain ⟨⟨i, bound⟩, rfl⟩ := Shape.field_mem inside
    have cases : i = 0 ∨ i = 1 ∨ i = 2 := by
      change i < 3 at bound
      omega
    rcases cases with rfl | rfl | rfl
    · cases held
      exact ⟨[1, 2], rfl, by decide⟩
    · cases held
      exact ⟨70000, rfl, by decide⟩
    · cases held
  · intro field inside item held content is
    obtain ⟨⟨i, bound⟩, rfl⟩ := Shape.field_mem inside
    have cases : i = 0 ∨ i = 1 ∨ i = 2 := by
      change i < 3 at bound
      omega
    rcases cases with rfl | rfl | rfl
    · cases held
      cases is
      decide
    · cases held
      cases is
    · cases held

end Bridge
