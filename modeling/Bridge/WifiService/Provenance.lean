import Bridge.Library.Runs
import Bridge.WifiService.Step4

namespace Bridge

/-- The calls of a pairing, on messages of any contents. -/
inductive PairingRequest
  | step2 (time : Int) (entropy : Nat) (step1Bytes : List UInt8) (step2Len : Nat)
  | step4 (times : SetterTimes) (frame : List UInt8) (len : Nat)
  | commit (frame : List UInt8)

/-- The pairing server, with what the last step 4 that succeeded took from its step 3 or generated. -/
structure PairingLedger where
  server : PairingServer
  latest : Option PairingSecrets

def step4Secrets (lib : PairingLib) (times : SetterTimes) (server : PairingServer) (frame : List UInt8) : Option PairingSecrets :=
  match decryptClientData lib server frame with
  | .plain plain => some ((lib.step3.decode plain).2.secrets lib times)
  | .wraps | .refused => none

def PairingLedger.next (lib : PairingLib) (s : PairingLedger) : PairingRequest → Option PairingLedger
  | .step2 time entropy step1Bytes step2Len =>
    some { s with server := (serverGenPairingStep2 lib time entropy s.server step1Bytes step2Len).1 }
  | .step4 times frame len =>
    (igPairingStep4 lib times s.server frame len).map fun done => {
      server := done.1
      latest := if done.2.1 = .none then step4Secrets lib times s.server frame else s.latest }
  | .commit frame => (igCommitPairing lib s.server frame).map fun done => { s with server := done.1 }

def IgPairingResult.secrets (result : IgPairingResult) : PairingSecrets where
  pinKey := result.pinKey
  password := result.password
  masterPinLength := result.masterPinLength
  masterPin := result.masterPin
  gmtOffset := result.gmtOffset
  dstLength := result.dstLength
  dst := result.dst.take result.dstLength

/-- A step 3 with times that the array does not hold fails, and a step 4 that fails leaves the stored fields. -/
structure Step4Faithful (lib : PairingLib) (server after : PairingServer) (frame : List UInt8) (err : IgErrorCode) : Prop where
  storable : ∀ plain dst, decryptClientData lib server frame = .plain plain →
    (lib.step3.decode plain).2.dstTimes = some dst → kDstArrayLen < dst.length → err ≠ .none
  unchanged : err ≠ .none → after = { server with serverNonce := after.serverNonce }

def PairingLedger.Faithful (lib : PairingLib) (s : PairingLedger) : PairingRequest → Prop
  | .step2 .. => True
  | .step4 times frame len => ∀ after err written,
      igPairingStep4 lib times s.server frame len = some (after, err, written) → Step4Faithful lib s.server after frame err
  | .commit frame => ∀ after result,
      igCommitPairing lib s.server frame = some (after, .ok result) → s.latest = some result.secrets

/-- The secrets and the nonce of a step 3 are those that are stored, its times as far as they could be. -/
structure PairingServer.Stores (server : PairingServer) (secrets : PairingSecrets) (nonce : List UInt8) : Prop where
  pinKey : server.pairingPinKey = secrets.pinKey
  password : server.pairingPassword = secrets.password
  masterPinLength : server.pairingMasterPinLength = secrets.masterPinLength
  masterPin : server.pairingMasterPin.take secrets.masterPinLength = secrets.masterPin
  clientNonce : server.clientNonce = copyNonce nonce
  gmtOffset : server.pairingGmtOffset = secrets.gmtOffset
  dst : secrets.dstLength ≤ kDstArrayLen →
    server.pairingDstLen = secrets.dstLength ∧ server.pairingDst.take secrets.dstLength = secrets.dst

/-- A step 3 that passes the checks of the code has times that the array holds, and a buffer that holds the
    reply; without the buffer it brings nothing that is not stored. A commit that is accepted comes after a step 4
    that succeeded. -/
def PairingLedger.Settles (lib : PairingLib) (s : PairingLedger) : PairingRequest → Prop
  | .step2 .. => True
  | .step4 times frame len => ∀ plain, decryptClientData lib s.server frame = .plain plain →
      (lib.step3.decode plain).2.Passes →
      let secrets := (lib.step3.decode plain).2.secrets lib times
      if 66 + secrets.masterPinLength ≤ len then secrets.dstLength ≤ kDstArrayLen
      else s.server.Stores secrets ((lib.step3.decode plain).2.nonce.getD [])
  | .commit frame => ∀ plain, decryptClientData lib s.server frame = .plain plain →
      (lib.commit.decode plain).2.currentTime ≠ none → s.latest ≠ none

attribute [ext] PairingServer

theorem overwrite_self_iff {block bytes : List UInt8} : overwrite block 0 bytes = block ↔ block.take bytes.length = bytes := by
  constructor
  · intro same
    rw [← same]
    exact overwrite_take
  · intro held
    have split := List.take_append_drop bytes.length block
    rw [held] at split
    simp only [overwrite, List.take_zero, List.nil_append, Nat.zero_add]
    exact split

theorem stores_moved {server : PairingServer} {secrets : PairingSecrets} {nonce : List UInt8} :
    (incrementServerNonce server).Stores secrets nonce ↔ server.Stores secrets nonce := by
  constructor
  · rintro ⟨pinKey, password, length, masterPin, client, offset, dst⟩
    exact ⟨pinKey, password, length, masterPin, client, offset, dst⟩
  · rintro ⟨pinKey, password, length, masterPin, client, offset, dst⟩
    exact ⟨pinKey, password, length, masterPin, client, offset, dst⟩

theorem step2_keeps (lib : PairingLib) (time : Int) (entropy : Nat) (server : PairingServer) (step1Bytes : List UInt8)
    (step2Len : Nat) :
    (serverGenPairingStep2 lib time entropy server step1Bytes step2Len).1.secrets = server.secrets ∧
      (server.Arrays → (serverGenPairingStep2 lib time entropy server step1Bytes step2Len).1.Arrays) := by
  simp only [serverGenPairingStep2]
  repeat' split
  all_goals
    refine ⟨by simp only [PairingServer.secrets], ?_⟩
    rintro ⟨pinKey, password, masterPin, dst⟩
    exact ⟨by simpa only using pinKey, by simpa only using password, by simpa only using masterPin, by simpa only using dst⟩

theorem commit_keeps {lib : PairingLib} {server after : PairingServer} {frame : List UInt8}
    {result : Except IgErrorCode IgPairingResult} (done : igCommitPairing lib server frame = some (after, result)) :
    after.secrets = server.secrets ∧ (server.Arrays → after.Arrays) := by
  simp only [igCommitPairing] at done
  split at done
  · cases done
  · cases done
    exact ⟨rfl, id⟩
  · split at done
    all_goals
      cases done
      exact ⟨rfl, fun arrays => ⟨arrays.pinKey, arrays.password, arrays.masterPin, arrays.dst⟩⟩

section Keep

variable {lib : PairingLib} (sized : lib.Sized) (times : SetterTimes) {step3 : PairingStep3} (passes : step3.Passes)
  {server : PairingServer} (arrays : server.Arrays)

include sized passes arrays

theorem keep_same_iff : server.keep lib times step3 = server ↔
    server.Stores (step3.secrets lib times) (step3.nonce.getD []) := by
  have masterPin : (step3.secrets lib times).masterPin.length = (step3.secrets lib times).masterPinLength := rfl
  by_cases storable : (step3.dstTimes.getD []).length ≤ kDstArrayLen
  · rw [keep_storable sized times passes arrays storable, PairingServer.ext_iff]
    simp only [PairingServer.holding, true_and, overwrite_self_iff, masterPin]
    constructor
    · rintro ⟨nonce, pinKey, password, length, pin, offset, dstLength, dst⟩
      exact ⟨pinKey.symm, password.symm, length.symm, pin, nonce.symm, offset.symm, fun _ => ⟨dstLength.symm, dst⟩⟩
    · intro stores
      have dst := stores.dst storable
      exact ⟨stores.clientNonce.symm, stores.pinKey.symm, stores.password.symm, stores.masterPinLength.symm,
        stores.masterPin, stores.gmtOffset.symm, dst.1.symm, dst.2⟩
  · rw [keep_holding sized times passes arrays, dst_refused storable, PairingServer.ext_iff]
    simp only [PairingServer.holding, true_and, and_true, overwrite_self_iff, masterPin]
    constructor
    · rintro ⟨nonce, pinKey, password, length, pin, offset⟩
      exact ⟨pinKey.symm, password.symm, length.symm, pin, nonce.symm, offset.symm, fun stored => absurd stored storable⟩
    · intro stores
      exact ⟨stores.clientNonce.symm, stores.pinKey.symm, stores.password.symm, stores.masterPinLength.symm,
        stores.masterPin, stores.gmtOffset.symm⟩

theorem keep_serverNonce : (server.keep lib times step3).serverNonce = server.serverNonce := by
  rw [keep_holding sized times passes arrays]
  unfold setDstTimes
  repeat' split
  all_goals rfl

theorem keep_arrays (storable : (step3.dstTimes.getD []).length ≤ kDstArrayLen) : (server.keep lib times step3).Arrays := by
  rw [keep_storable sized times passes arrays storable]
  have pin : (step3.secrets lib times).masterPin.length ≤ server.pairingMasterPin.length := by
    rw [arrays.masterPin]
    exact (masterPin_sized times sized passes).2
  apply PairingServer.Arrays.mk
  · exact secrets_pinKey sized times passes
  · exact secrets_password sized times passes
  · exact (overwrite_length pin).trans arrays.masterPin
  · exact (overwrite_length (storable.trans_eq arrays.dst.symm)).trans arrays.dst

theorem keep_secrets_storable (storable : (step3.dstTimes.getD []).length ≤ kDstArrayLen) :
    (server.keep lib times step3).secrets = step3.secrets lib times := by
  rw [keep_secrets sized times passes arrays, keep_storable sized times passes arrays storable, overwrite_take]
  rfl

end Keep

section Steps

variable {lib : PairingLib} (generated : lib.Generated) (sized : lib.Sized)

theorem secrets_dst_storable {step3 : PairingStep3} {times : SetterTimes} : (step3.secrets lib times).dstLength ≤ kDstArrayLen ↔
    ∀ dst, step3.dstTimes = some dst → ¬kDstArrayLen < dst.length := by
  unfold PairingStep3.secrets
  cases step3.dstTimes with
  | none => simp
  | some dst => simp

theorem answer_iff {lib : PairingLib} {server after : PairingServer} {frame : List UInt8} {err : IgErrorCode}
    {written : BytesWritten} : (∀ after' err' written', some (after, err, written) = some (after', err', written') →
      Step4Faithful lib server after' frame err') ↔ Step4Faithful lib server after frame err := by
  constructor
  · intro faithful
    exact faithful _ _ _ rfl
  · intro faithful after' err' written' same
    cases same
    exact faithful

theorem settles_opened {lib : PairingLib} {s : PairingLedger} {times : SetterTimes} {frame plain : List UInt8} {len : Nat}
    (opened : decryptClientData lib s.server frame = .plain plain) (passes : (lib.step3.decode plain).2.Passes) :
    s.Settles lib (.step4 times frame len) ↔
      if 66 + ((lib.step3.decode plain).2.secrets lib times).masterPinLength ≤ len then
        ((lib.step3.decode plain).2.secrets lib times).dstLength ≤ kDstArrayLen
      else s.server.Stores ((lib.step3.decode plain).2.secrets lib times) ((lib.step3.decode plain).2.nonce.getD []) := by
  simp only [PairingLedger.Settles, opened, Decryption.plain.injEq, forall_eq', passes, true_implies]

include generated sized

theorem step4_faithful_iff (s : PairingLedger) (arrays : s.server.Arrays) (times : SetterTimes) (frame : List UInt8) (len : Nat) :
    s.Faithful lib (.step4 times frame len) ↔ s.Settles lib (.step4 times frame len) := by
  have call := igPairingStep4_call generated sized arrays times frame len
  unfold PairingLedger.Faithful
  simp only
  generalize igPairingStep4 lib times s.server frame len = outcome at call ⊢
  cases call with
  | wraps untagged =>
    apply iff_of_true nofun
    intro plain opened
    rw [untagged] at opened
    cases opened
  | unopened refused =>
    rw [answer_iff]
    apply iff_of_true ⟨nofun, fun _ => rfl⟩
    intro plain opened
    rw [refused] at opened
    cases opened
  | invalid plain opened invalid =>
    rw [answer_iff]
    apply iff_of_true ⟨fun _ _ _ _ _ => nofun, fun _ => rfl⟩
    intro plain' opened' passes
    rw [opened] at opened'
    cases opened'
    exact absurd passes invalid
  | short plain opened passes short =>
    have nonce := keep_serverNonce sized times passes arrays.moved
    rw [answer_iff, settles_opened opened passes, if_neg (Nat.not_le_of_lt short), ← stores_moved,
      ← keep_same_iff sized times passes arrays.moved]
    constructor
    · intro faithful
      have unchanged := faithful.unchanged nofun
      rw [nonce] at unchanged
      exact unchanged
    · intro same
      exact ⟨fun _ _ _ _ _ => nofun, fun _ => by rw [same]; rfl⟩
  | replied plain step4 size opened passes room encoded decoded fits =>
    rw [answer_iff, settles_opened opened passes, if_pos room, secrets_dst_storable]
    constructor
    · intro faithful dst brought long
      exact faithful.storable plain dst opened brought long rfl
    · intro storable
      refine ⟨?_, fun failed => absurd rfl failed⟩
      intro plain' dst opened' brought long
      rw [opened] at opened'
      cases opened'
      exact absurd long (storable dst brought)

theorem step4_succeeds {server after : PairingServer} (arrays : server.Arrays) {times : SetterTimes} {frame : List UInt8} {len : Nat}
    {written : BytesWritten} (done : igPairingStep4 lib times server frame len = some (after, .none, written)) :
    ∃ plain, decryptClientData lib server frame = .plain plain ∧ (lib.step3.decode plain).2.Passes ∧
      66 + ((lib.step3.decode plain).2.secrets lib times).masterPinLength ≤ len ∧
      after = (incrementServerNonce server).keep lib times (lib.step3.decode plain).2 := by
  have call := igPairingStep4_call generated sized arrays times frame len
  rw [done] at call
  cases call with
  | replied plain step4 size opened passes room encoded decoded fits => exact ⟨plain, opened, passes, room, rfl⟩

end Steps

/-- The arrays have their sizes, and the fields that are stored are those of the last step 4 that succeeded. -/
structure PairingLedger.Current (s : PairingLedger) : Prop where
  arrays : s.server.Arrays
  latest : ∀ secrets, s.latest = some secrets → s.server.secrets = secrets

theorem PairingLedger.Current.moved {s s' : PairingLedger} (current : s.Current) (arrays : s'.server.Arrays)
    (stored : s'.server.secrets = s.server.secrets) (latest : s'.latest = s.latest) : s'.Current := by
  refine ⟨arrays, ?_⟩
  intro secrets held
  rw [latest] at held
  exact stored.trans (current.latest secrets held)

theorem commit_faithful_iff {lib : PairingLib} {s : PairingLedger} (current : s.Current) (frame : List UInt8) :
    s.Faithful lib (.commit frame) ↔ s.Settles lib (.commit frame) := by
  constructor
  · intro faithful plain opened accepted
    cases held : (lib.commit.decode plain).2.currentTime with
    | none => exact absurd held accepted
    | some currentTime =>
      have done : ∃ after result, igCommitPairing lib s.server frame = some (after, .ok result) := by
        simp [igCommitPairing, opened, held]
      rcases done with ⟨after, result, done⟩
      rw [faithful after result done]
      simp
  · intro settles after result done
    rcases igCommitPairing_ok done with ⟨plain, currentTime, opened, held, _, made⟩
    cases latest : s.latest with
    | none => exact absurd latest (settles plain opened (by simp [held]))
    | some secrets =>
      rw [← current.latest secrets latest, made]
      rfl

section Provenance

variable {lib : PairingLib} (generated : lib.Generated) (sized : lib.Sized)
include generated sized

theorem faithful_iff {s : PairingLedger} (current : s.Current) (request : PairingRequest) :
    s.Faithful lib request ↔ s.Settles lib request := by
  cases request with
  | step2 time entropy step1Bytes step2Len => exact Iff.rfl
  | step4 times frame len => exact step4_faithful_iff generated sized s current.arrays times frame len
  | commit frame => exact commit_faithful_iff current frame

theorem current_kept {s s' : PairingLedger} {request : PairingRequest} (current : s.Current)
    (settles : s.Settles lib request) (done : s.next lib request = some s') : s'.Current := by
  cases request with
  | step2 time entropy step1Bytes step2Len =>
    cases done
    have keeps := step2_keeps lib time entropy s.server step1Bytes step2Len
    exact current.moved (keeps.2 current.arrays) keeps.1 rfl
  | step4 times frame len =>
    rcases Option.map_eq_some_iff.mp done with ⟨⟨after, err, written⟩, called, rfl⟩
    by_cases succeeds : err = .none
    · subst succeeds
      rcases step4_succeeds generated sized current.arrays called with ⟨plain, opened, passes, room, rfl⟩
      have storable := settles plain opened passes
      rw [if_pos room] at storable
      refine ⟨keep_arrays sized times passes current.arrays.moved storable, ?_⟩
      intro secrets held
      rw [if_pos rfl, step4Secrets, opened] at held
      cases held
      exact keep_secrets_storable sized times passes current.arrays.moved storable
    · have faithful := (step4_faithful_iff generated sized s current.arrays times frame len).mpr settles
      have unchanged := (faithful after err written called).unchanged succeeds
      have arrays : after.Arrays := by
        rw [unchanged]
        exact ⟨current.arrays.pinKey, current.arrays.password, current.arrays.masterPin, current.arrays.dst⟩
      have stored : after.secrets = s.server.secrets := by
        rw [unchanged]
        rfl
      exact current.moved arrays stored (if_neg succeeds)
  | commit frame =>
    rcases Option.map_eq_some_iff.mp done with ⟨⟨after, result⟩, called, rfl⟩
    have keeps := commit_keeps called
    exact current.moved (keeps.2 current.arrays) keeps.1 rfl

end Provenance

/-- Over any calls, step 4 and commit are faithful exactly if each call settles. -/
theorem pairing_faithful_iff (lib : PairingLib) (generated : lib.Generated) (sized : lib.Sized) (server : PairingServer)
    (arrays : server.Arrays) (requests : List PairingRequest) :
    Runs.Along (PairingLedger.next lib) (PairingLedger.Faithful lib) ⟨server, none⟩ requests ↔
      Runs.Along (PairingLedger.next lib) (PairingLedger.Settles lib) ⟨server, none⟩ requests := by
  apply Runs.along_iff_of_kept (PairingLedger.next lib) PairingLedger.Current
  · exact fun s request s' current settles done => current_kept generated sized current settles done
  · exact fun s request current => faithful_iff generated sized current request
  · exact ⟨arrays, nofun⟩

theorem timedStep3_complete {dst : List UInt8} (filled : dst ≠ []) (short : dst.length < 4000) :
    PairingStep3.format.Complete { nonce := some zeroNonce.toList, dstTimes := some dst } ∧
      PairingStep3.format.stringBytes { nonce := some zeroNonce.toList, dstTimes := some dst } = 12 + dst.length := by
  refine ⟨⟨⟨rfl, ?_, ?_⟩, ?_⟩, ?_⟩
  · simp [Format.WellTyped, PairingStep3.format, bytesField, int32Field, FieldType.admits, filled]
  · simp [Format.Sized, itemSized, PairingStep3.format, bytesField, int32Field]
    omega
  · simp [PairingStep3.format, bytesField, int32Field]
  · simp [Format.stringBytes, PairingStep3.format, bytesField, int32Field, itemBytes, bytesSize]

theorem sample_step4_faithful : ∃ frame,
    Runs.Along (PairingLedger.next samplePairing) (PairingLedger.Faithful samplePairing) ⟨.zero, none⟩
      [.step4 ⟨0, 0, 0⟩ frame 76] := by
  have complete := step3_complete zeroNonce
  rcases step3_sent samplePairing_generated Cifra.aesCcm_inverts .zero complete.1 (by omega) with
    ⟨frame, plain, opened, decoded, _⟩
  have brought := congrArg Prod.snd decoded
  refine ⟨frame, (pairing_faithful_iff samplePairing samplePairing_generated samplePairing_sized .zero
    PairingServer.zero_arrays [.step4 ⟨0, 0, 0⟩ frame 76]).mpr ⟨?_, fun _ _ => trivial⟩⟩
  intro plain' opened' passes
  cases opened.symm.trans opened'
  have most := (masterPin_sized ⟨0, 0, 0⟩ samplePairing_sized passes).2
  have limit : igMasterPinMaxLength = 10 := rfl
  rw [if_pos (by omega), secrets_dst_storable, brought]
  exact nofun

/-- A step 3 with a nonce only, for a reply that there is no room for; and one with 257 bytes of times, with room. -/
theorem failed_step4_replaces : ∃ frame long,
    ¬Runs.Along (PairingLedger.next samplePairing) (PairingLedger.Faithful samplePairing) ⟨.zero, none⟩
      [.step4 ⟨0, 0, 0⟩ frame 0] ∧
    ¬Runs.Along (PairingLedger.next samplePairing) (PairingLedger.Faithful samplePairing) ⟨.zero, none⟩
      [.step4 ⟨0, 0, 0⟩ long 76] := by
  have complete := step3_complete zeroNonce
  rcases step3_sent samplePairing_generated Cifra.aesCcm_inverts .zero complete.1 (by omega) with
    ⟨frame, plain, opened, decoded, _⟩
  have times : (List.replicate 257 (0 : UInt8)).length = 257 := List.length_replicate
  have complete' := timedStep3_complete (List.ne_nil_of_length_eq_add_one times) (by omega)
  rcases step3_sent samplePairing_generated Cifra.aesCcm_inverts .zero complete'.1 (by omega) with
    ⟨long, plain', opened', decoded', _⟩
  have brought := congrArg Prod.snd decoded
  have brought' := congrArg Prod.snd decoded'
  have passes : (samplePairing.step3.decode plain).2.Passes := by
    rw [brought]
    exact ⟨⟨_, rfl, rfl⟩, nofun, nofun, nofun⟩
  have passes' : (samplePairing.step3.decode plain').2.Passes := by
    rw [brought']
    exact ⟨⟨_, rfl, rfl⟩, nofun, nofun, nofun⟩
  have sharp := step4_faithful_iff samplePairing_generated samplePairing_sized ⟨.zero, none⟩
    PairingServer.zero_arrays ⟨0, 0, 0⟩
  refine ⟨frame, long, ?_, ?_⟩
  · intro along
    have stores := (sharp frame 0).mp along.1 plain opened passes
    rw [if_neg (by omega), brought] at stores
    have pinKey : List.replicate 16 0 = genRandomVector samplePairing 0 igPinKeyLength := stores.pinKey
    revert pinKey
    decide +kernel
  · intro along
    have storable := (sharp long 76).mp along.1 plain' opened' passes'
    have most := (masterPin_sized ⟨0, 0, 0⟩ samplePairing_sized passes').2
    have limit : igMasterPinMaxLength = 10 := rfl
    rw [if_pos (by omega), secrets_dst_storable, brought'] at storable
    apply storable _ rfl
    rw [times]
    decide

end Bridge
