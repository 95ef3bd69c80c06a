import Bridge.WifiService.Calls

namespace Bridge

open Cbor

/-- A byte array of `Crypt`: its flag, what the pointer points to, and its length. -/
structure CryptBytes where
  has : Bool
  block : List UInt8
  len : Nat
deriving DecidableEq, Repr

/-- The struct `Crypt` as it lies in memory, also where `malloc` has just handed it out. -/
structure CryptMemory where
  serverPairingAdminKey : CryptBytes
  clientNonce : CryptBytes
  serverNonce : CryptBytes
deriving DecidableEq, Repr

def CryptMemory.zero : CryptMemory := ⟨⟨false, [], 0⟩, ⟨false, [], 0⟩, ⟨false, [], 0⟩⟩

def initCrypt (_obj : CryptMemory) : CryptMemory := .zero

def setCryptAdminKey (data : CryptMemory) (adminKey : List UInt8) : CryptMemory :=
  { data with serverPairingAdminKey := ⟨true, adminKey, adminKey.length⟩ }

def setCryptClientNonce (data : CryptMemory) (clientNonce : List UInt8) : CryptMemory :=
  { data with clientNonce := ⟨true, clientNonce, clientNonce.length⟩ }

def setCryptServerNonce (data : CryptMemory) (serverNonce : List UInt8) : CryptMemory :=
  { data with serverNonce := ⟨true, serverNonce, serverNonce.length⟩ }

def isCryptInvalid (obj : CryptMemory) : Bool :=
  !obj.clientNonce.has || !obj.serverNonce.has || !obj.serverPairingAdminKey.has

/-- What the encoder reads through a pointer and its length. -/
def CryptBytes.bytes (field : CryptBytes) : List UInt8 := field.block.take field.len

def encodeCrypt (obj : CryptMemory) (length : Nat) : Option (List UInt8) :=
  if isCryptInvalid obj then none
  else
    (cborEncoderCreateMap (cborEncoderInit length) (1 + 1 + 1 + 1)).bind fun map =>
      (cborEncodeUint map 0).bind fun map =>
        (cborEncodeUint map 51).bind fun map =>
          (cborEncodeUint map 11).bind fun map =>
            (cborEncodeByteString map obj.serverPairingAdminKey.bytes).bind fun map =>
              (cborEncodeUint map 12).bind fun map =>
                (cborEncodeByteString map obj.serverNonce.bytes).bind fun map =>
                  (cborEncodeUint map 13).bind fun map =>
                    (cborEncodeByteString map obj.clientNonce.bytes).map CborEncoder.data

def cryptField (tag : Nat) (get : CryptMemory → CryptBytes) (set : CryptMemory → List UInt8 → CryptMemory) :
    Field CryptMemory where
  tag := tag
  type := .rawBytes
  required := true
  get obj := if (get obj).has then some (.bytes (get obj).bytes) else none
  set value obj := ((value.bind itemBytes).map (set obj)).getD obj

/-- The cases of the switch in `decodeCrypt`. -/
def CryptMemory.format : Format CryptMemory where
  init := .zero
  msgId := 51
  acceptedId := 51
  fields :=
    [cryptField 11 (·.serverPairingAdminKey) setCryptAdminKey, cryptField 12 (·.serverNonce) setCryptServerNonce,
      cryptField 13 (·.clientNonce) setCryptClientNonce]
  isValid obj := !isCryptInvalid obj
  base := 0
  breaksAtEnd := true

/-- Into whatever `retval` holds; for the index 0. -/
def decodeCrypt (garbage : CborValue) (buf : List UInt8) (retval : CryptMemory) : Option (IgSerializerError × CryptMemory) :=
  CryptMemory.format.decode garbage buf retval

def getCrypt (pobj : Option CryptMemory) (heap : CryptMemory) : Option CryptMemory :=
  if pobj.isSome then none else some heap

/-- `makeCrypt` on the record itself; `none` where it returns 1. -/
def makeCryptMemory (reval : Option CryptMemory) (heap : CryptMemory) (server : PairingServer) : Option CryptMemory :=
  (getCrypt reval heap).bind fun reval =>
    let reval := initCrypt reval
    let reval := setCryptAdminKey reval server.serverPairingAdminKey.toList
    let reval := setCryptServerNonce reval server.serverNonce.toList
    let reval := setCryptClientNonce reval server.clientNonce.toList
    if isCryptInvalid reval then none else some reval

/-- The record that these three byte strings make. -/
def CryptMemory.holding (crypt : Crypt) : CryptMemory where
  serverPairingAdminKey := ⟨true, crypt.serverPairingAdminKey, crypt.serverPairingAdminKey.length⟩
  clientNonce := ⟨true, crypt.clientNonce, crypt.clientNonce.length⟩
  serverNonce := ⟨true, crypt.serverNonce, crypt.serverNonce.length⟩

def Crypt.object (crypt : Crypt) : CryptObject :=
  ⟨some crypt.serverPairingAdminKey, some crypt.serverNonce, some crypt.clientNonce⟩

theorem makeCrypt_null (heap : CryptMemory) (server : PairingServer) :
    makeCryptMemory none heap server = some (.holding (makeCrypt server)) := rfl

theorem encodeCrypt_holding (crypt : Crypt) (length : Nat) :
    encodeCrypt (.holding crypt) length = CryptObject.format.encode crypt.object length := by
  have bytes : ∀ content : List UInt8, CryptBytes.bytes ⟨true, content, content.length⟩ = content := by
    intro content
    exact List.take_length
  have entries : CryptObject.format.entries crypt.object = [
      (rawBytesField 11 (·.serverPairingAdminKey) fun value obj => { obj with serverPairingAdminKey := value },
        .bytes crypt.serverPairingAdminKey),
      (rawBytesField 12 (·.serverNonce) fun value obj => { obj with serverNonce := value }, .bytes crypt.serverNonce),
      (rawBytesField 13 (·.clientNonce) fun value obj => { obj with clientNonce := value }, .bytes crypt.clientNonce)] := rfl
  have valid : CryptObject.format.isValid crypt.object = true := rfl
  simp only [encodeCrypt, CryptMemory.holding, bytes, isCryptInvalid, Format.encode, valid, entries, encodeFields,
    rawBytesField, bytesField, FieldType.encode, Option.map_bind, Function.comp_def, Bool.not_true, Bool.or_self,
    Bool.false_eq_true, if_false, Option.map_some, List.length_cons, List.length_nil]
  simp only [Option.map_eq_bind]
  rfl

theorem object_complete (crypt : Crypt) (short : ∀ content ∈ [crypt.serverPairingAdminKey, crypt.serverNonce,
    crypt.clientNonce], content.length < 2 ^ 32) : CryptObject.format.Complete crypt.object := by
  refine ⟨⟨rfl, ?_, ?_⟩, ?_⟩
  · simp [Crypt.object, Format.WellTyped, CryptObject.format, rawBytesField, bytesField, FieldType.admits]
  · simpa [Crypt.object, Format.Sized, itemSized, CryptObject.format, rawBytesField, bytesField] using short
  · simp [Crypt.object, CryptObject.format, rawBytesField, bytesField]

theorem step_crypt (retval : CryptMemory) (content : List UInt8) :
    CryptMemory.format.step retval (.int 0, .int 51) = some retval ∧
      CryptMemory.format.step retval (.int 11, .bytes content) = some (setCryptAdminKey retval content) ∧
      CryptMemory.format.step retval (.int 12, .bytes content) = some (setCryptServerNonce retval content) ∧
      CryptMemory.format.step retval (.int 13, .bytes content) = some (setCryptClientNonce retval content) := by
  have zero : Int.bmod 0 (2 ^ 64) = 0 := by decide
  have adminKey : Int.bmod 11 (2 ^ 64) = 11 := by decide
  have serverNonce : Int.bmod 12 (2 ^ 64) = 12 := by decide
  have clientNonce : Int.bmod 13 (2 ^ 64) = 13 := by decide
  simp only [Format.step, zero, adminKey, serverNonce, clientNonce]
  exact ⟨rfl, rfl, rfl, rfl⟩

theorem decodeCrypt_wire (crypt : Crypt) (short : ∀ content ∈ [crypt.serverPairingAdminKey, crypt.serverNonce,
    crypt.clientNonce], content.length < 2 ^ 32) (garbage : CborValue) (retval : CryptMemory) :
    decodeCrypt garbage (CryptObject.format.wire crypt.object) retval = some (.noError, .holding crypt) := by
  have complete := object_complete crypt short
  have sized : CryptObject.format.Sized (2 ^ 64) crypt.object := by
    intro field member item held content is
    exact (complete.sized field member item held content is).trans (by decide)
  have opens : Opens (CryptObject.format.wire crypt.object ++ []) (flat (CryptObject.format.mapOf crypt.object)) :=
    .map (wire_box CryptObject.format_lawful complete.typed sized)
  rw [List.append_nil] at opens
  apply decode_complete CryptMemory.format opens
  have map : CryptObject.format.mapOf crypt.object = [(.int 0, .int 51), (.int 11, .bytes crypt.serverPairingAdminKey),
      (.int 12, .bytes crypt.serverNonce), (.int 13, .bytes crypt.clientNonce)] := rfl
  simp only [map, Format.run, step_crypt, Option.bind_some]
  rfl

/-- What the server holds reaches the record of the receiver. -/
theorem crypt_handed_over (server : PairingServer) (heap receiver : CryptMemory) (garbage : CborValue) :
    ∃ crypt bytes, makeCryptMemory none heap server = some crypt ∧ encodeCrypt crypt 1024 = some bytes ∧
      decodeCrypt garbage bytes receiver = some (.noError, {
        serverPairingAdminKey := ⟨true, server.serverPairingAdminKey.toList, 16⟩
        clientNonce := ⟨true, server.clientNonce.toList, 12⟩
        serverNonce := ⟨true, server.serverNonce.toList, 12⟩ }) := by
  have short : ∀ content ∈ [(makeCrypt server).serverPairingAdminKey, (makeCrypt server).serverNonce,
      (makeCrypt server).clientNonce], content.length < 2 ^ 32 := by
    simp [makeCrypt]
  have complete := object_complete (makeCrypt server) short
  have strings : CryptObject.format.stringBytes (makeCrypt server).object = 40 := by
    simp [Format.stringBytes, Crypt.object, CryptObject.format, rawBytesField, bytesField, itemBytes, bytesSize, makeCrypt]
  have overhead : CryptObject.format.overhead ≤ 40 := by decide
  have fits := wire_length_le CryptObject.format_lawful complete.required complete.typed complete.sized (by decide)
  refine ⟨.holding (makeCrypt server), CryptObject.format.wire (makeCrypt server).object, makeCrypt_null heap server, ?_, ?_⟩
  · rw [encodeCrypt_holding, encode_eq CryptObject.format_lawful, if_pos ⟨rfl, by omega⟩]
  · rw [decodeCrypt_wire (makeCrypt server) short garbage receiver]
    simp [CryptMemory.holding, makeCrypt]

end Bridge
