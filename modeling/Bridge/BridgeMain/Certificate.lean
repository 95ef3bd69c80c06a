import Bridge.Library.Retry

namespace Bridge.Certificate

open Retry

inductive Stage
  | userToken
  | bridgeToken
  | csr
deriving DecidableEq

/-- Whether there is a `SERVICE_PEM`, and what each attempt at `h_GetUserToken`, `h_GetBridgeToken` and `h_downloadcsr`
    returns. -/
structure Service where
  pem : Bool
  returns : Stage → Nat → Int

/-- What a failure makes of `_tt` in the first loop, and here below in the two others; `none` gives up. -/
def userTokenFailed (tryTimes tt : Int) : Option Int :=
  if tryTimes > 0 then some (tt + 1)
  else if tt > 0 ∧ tt ≥ tryTimes then none
  else some tt

def stageFailed (tryTimes tt : Int) : Option Int :=
  let tt := if tryTimes > 0 then tt + 1 else tt
  if tt > 0 ∧ tt ≥ tryTimes then none else some tt

/-- What `download_ca` returns, and the attempts that it has made at each stage. -/
structure Download where
  ret : Int
  userToken : Tally
  bridgeToken : Tally
  csr : Tally

def Download.tally (download : Download) : Stage → Tally
  | .userToken => download.userToken
  | .bridgeToken => download.bridgeToken
  | .csr => download.csr

def untried : Tally := ⟨0, false⟩

def loop (service : Service) (stage : Stage) (failed : Int → Option Int) (fuel : Nat) : Option Tally :=
  run (fun k => service.returns stage k == 0) failed fuel 0 0

/-- The fuel bounds the rounds of each loop. Where `_tt` could overflow, in the first of them, nothing reads it. -/
def downloadCa (service : Service) (tryTimes : Int) (fuel : Nat) : Option Download :=
  if service.pem then some ⟨0, untried, untried, untried⟩
  else (loop service .userToken (userTokenFailed tryTimes) fuel).bind fun userToken =>
    if !userToken.passed then some ⟨-1, userToken, untried, untried⟩
    else (loop service .bridgeToken (stageFailed tryTimes) fuel).bind fun bridgeToken =>
      if !bridgeToken.passed then some ⟨-1, userToken, bridgeToken, untried⟩
      else (loop service .csr (stageFailed tryTimes) fuel).map fun csr =>
        ⟨if csr.passed then 0 else -1, userToken, bridgeToken, csr⟩

def Stage.later : Stage → List Stage
  | .userToken => [.bridgeToken, .csr]
  | .bridgeToken => [.csr]
  | .csr => []

/-- No stage is tried more often than `tryTimes`, the stage that has failed so often is the last one that is tried, and only
    a certificate or a success of each stage counts as a download. -/
structure Download.GivesUp (download : Download) (service : Service) (tryTimes : Int) : Prop where
  attempts : ∀ stage, (download.tally stage).attempts ≤ tryTimes
  abandons : ∀ stage, (download.tally stage).failures = tryTimes → download.ret = -1 ∧
    (download.tally stage).passed = false ∧ ∀ later ∈ stage.later, (download.tally later).attempts = 0
  downloads : download.ret = 0 → service.pem = true ∨ ∀ stage, (download.tally stage).passed = true

def Law (service : Service) (tryTimes : Int) : Prop :=
  ∃ fuel download, downloadCa service tryTimes fuel = some download ∧ download.GivesUp service tryTimes

variable {service : Service} {tryTimes : Int}

theorem userToken_goes (positive : 0 < tryTimes) (tt : Int) : userTokenFailed tryTimes tt = some (tt + 1) := by
  rw [userTokenFailed, if_pos positive]

theorem stageFailed_positive (positive : 0 < tryTimes) (tt : Int) :
    stageFailed tryTimes tt = if tt + 1 > 0 ∧ tt + 1 ≥ tryTimes then none else some (tt + 1) := by
  simp only [stageFailed, if_pos positive]

theorem stage_allows {n : Nat} {tt : Int} (counted : 0 ≤ tt) (left : tt + (n + 1) = tryTimes) :
    Allows (stageFailed tryTimes) tt (n + 1) := by
  induction n generalizing tt with
  | zero =>
    apply Allows.last
    rw [stageFailed_positive (by omega), if_pos (by omega)]
  | succ n ih =>
    have goes : stageFailed tryTimes tt = some (tt + 1) := by
      rw [stageFailed_positive (by omega), if_neg (by omega)]
    apply Allows.more goes
    exact ih (by omega) (by omega)

theorem userToken_ends (positive : 0 < tryTimes) {k : Nat} (succeeds : service.returns .userToken k = 0) :
    ∃ tally, loop service .userToken (userTokenFailed tryTimes) (k + 1) = some tally ∧ tally.passed = true ∧
      tally.failures ≤ k := by
  have reached := @run_reaches Int (fun k => service.returns .userToken k == 0) (userTokenFailed tryTimes) 0 0
    (fun tt => by rw [userToken_goes positive tt]; exact Option.some_ne_none _) k (by rw [Nat.zero_add, succeeds]; rfl)
  rw [Nat.zero_add] at reached
  exact reached

theorem stage_ends (service : Service) (stage : Stage) {n : Nat} (times : (n : Int) + 1 = tryTimes) :
    ∃ tally, loop service stage (stageFailed tryTimes) (n + 1) = some tally ∧
      (tally.passed = true ∧ tally.failures < n + 1 ∨ tally = ⟨n + 1, false⟩) := by
  have ended := @run_allows Int (fun k => service.returns stage k == 0) (stageFailed tryTimes) 0 0 _
    (stage_allows (Int.le_refl 0) (by rw [Int.zero_add]; exact times))
  rw [Nat.zero_add] at ended
  exact ended

theorem downloadCa_pem (pem : service.pem = true) (fuel : Nat) :
    downloadCa service tryTimes fuel = some ⟨0, untried, untried, untried⟩ := by
  rw [downloadCa, if_pos pem]

theorem downloadCa_userToken (pem : service.pem = false) (positive : 0 < tryTimes) {fuel : Nat} {download : Download}
    (done : downloadCa service tryTimes fuel = some download) :
    download.userToken.passed = true ∧ service.returns .userToken download.userToken.failures = 0 := by
  rw [downloadCa, if_neg (by rw [pem]; exact Bool.false_ne_true)] at done
  rcases Option.bind_eq_some_iff.mp done with ⟨userToken, ended, done⟩
  have patient : ∀ tt : Int, True → ∃ tt', userTokenFailed tryTimes tt = some tt' ∧ True :=
    fun tt _ => ⟨tt + 1, userToken_goes positive tt, trivial⟩
  have passed := run_patient patient trivial ended
  have success : service.returns .userToken userToken.failures = 0 := by
    simpa using (run_tally ended).2.2 passed
  have kept : download.userToken = userToken := by
    rw [passed] at done
    rcases Option.bind_eq_some_iff.mp done with ⟨bridgeToken, _, done⟩
    split at done
    · cases done
      rfl
    · rcases Option.map_eq_some_iff.mp done with ⟨csr, _, rfl⟩
      rfl
  rw [kept]
  exact ⟨passed, success⟩

theorem unlimited_passes (unlimited : tryTimes ≤ 0) {stage : Stage} {failed : Int → Option Int} {fuel : Nat} {tally : Tally}
    (either : failed = userTokenFailed tryTimes ∨ failed = stageFailed tryTimes)
    (ended : loop service stage failed fuel = some tally) : tally.passed = true := by
  have patient : ∀ tt : Int, tt = 0 → ∃ tt', failed tt = some tt' ∧ tt' = 0 := by
    rintro _ rfl
    refine ⟨0, ?_, rfl⟩
    rcases either with rfl | rfl
    · rw [userTokenFailed, if_neg (by omega), if_neg (by omega)]
    · simp only [stageFailed, if_neg (show ¬tryTimes > 0 by omega)]
      rw [if_neg (by omega)]
  exact run_patient patient rfl ended

theorem unlimited_downloads (unlimited : tryTimes ≤ 0) {fuel : Nat} {download : Download}
    (done : downloadCa service tryTimes fuel = some download) : download.ret = 0 := by
  cases pem : service.pem with
  | true =>
    rw [downloadCa_pem pem] at done
    cases done
    rfl
  | false =>
    rw [downloadCa, if_neg (by rw [pem]; exact Bool.false_ne_true)] at done
    rcases Option.bind_eq_some_iff.mp done with ⟨userToken, ended, done⟩
    rw [unlimited_passes unlimited (.inl rfl) ended] at done
    rcases Option.bind_eq_some_iff.mp done with ⟨bridgeToken, ended', done⟩
    rw [unlimited_passes unlimited (.inr rfl) ended'] at done
    rcases Option.map_eq_some_iff.mp done with ⟨csr, ended'', rfl⟩
    rw [unlimited_passes unlimited (.inr rfl) ended'']
    rfl

def Short (tally : Tally) (tryTimes : Int) : Prop := tally.attempts ≤ tryTimes ∧ tally.failures ≠ tryTimes

theorem attempts_passed {tally : Tally} (passed : tally.passed = true) :
    (tally.attempts : Int) = tally.failures + 1 := by
  rw [Tally.attempts, passed, Int.natCast_add]
  rfl

theorem short_untried (positive : 0 < tryTimes) : Short untried tryTimes :=
  ⟨Int.le_of_lt positive, Int.ne_of_lt positive⟩

theorem short_passed {tally : Tally} (passed : tally.passed = true) (below : tally.failures < tryTimes) :
    Short tally tryTimes := by
  constructor
  · rw [attempts_passed passed]
    exact below
  · exact Int.ne_of_lt below

theorem givesUp_of_ends {download : Download} (ends : ∀ stage, Short (download.tally stage) tryTimes ∨
      (download.tally stage).attempts = tryTimes ∧ download.ret = -1 ∧ (download.tally stage).passed = false ∧
        ∀ later ∈ stage.later, (download.tally later).attempts = 0)
    (downloads : download.ret = 0 → service.pem = true ∨ ∀ stage, (download.tally stage).passed = true) :
    download.GivesUp service tryTimes where
  attempts stage := by
    rcases ends stage with short | ⟨limit, _⟩
    · exact short.1
    · exact Int.le_of_eq limit
  abandons stage all := by
    rcases ends stage with short | ⟨_, abandoned⟩
    · exact absurd all short.2
    · exact abandoned
  downloads := downloads

theorem law_pem (positive : 0 < tryTimes) (pem : service.pem = true) : Law service tryTimes := by
  refine ⟨0, _, downloadCa_pem pem 0, givesUp_of_ends ?_ fun _ => .inl pem⟩
  intro stage
  cases stage with
  | userToken | bridgeToken | csr => exact .inl (short_untried positive)

theorem downloadCa_rest (pem : service.pem = false) {fuel : Nat} {userToken : Tally}
    (got : loop service .userToken (userTokenFailed tryTimes) fuel = some userToken) (passed : userToken.passed = true) :
    downloadCa service tryTimes fuel = (loop service .bridgeToken (stageFailed tryTimes) fuel).bind fun bridgeToken =>
      if !bridgeToken.passed then some ⟨-1, userToken, bridgeToken, untried⟩
      else (loop service .csr (stageFailed tryTimes) fuel).map fun csr =>
        ⟨if csr.passed then 0 else -1, userToken, bridgeToken, csr⟩ := by
  rw [downloadCa, if_neg (by rw [pem]; exact Bool.false_ne_true), got, Option.bind_some, passed]
  rfl

theorem law_userToken {k : Nat} (below : k < tryTimes) (pem : service.pem = false)
    (succeeds : service.returns .userToken k = 0) : Law service tryTimes := by
  have positive : 0 < tryTimes := by omega
  obtain ⟨n, times⟩ : ∃ n : Nat, (n : Int) + 1 = tryTimes := ⟨(tryTimes - 1).toNat, by omega⟩
  rcases userToken_ends positive succeeds with ⟨userToken, ended, passed, early⟩
  have got : loop service .userToken (userTokenFailed tryTimes) (n + 1) = some userToken := run_fuel ended (by omega)
  have first : Short userToken tryTimes := short_passed passed (by omega)
  have start := downloadCa_rest pem got passed
  have last : ∀ {tally : Tally}, tally = ⟨n + 1, false⟩ → (tally.attempts : Int) = tryTimes := by
    rintro _ rfl
    exact times
  have unfinished : ¬(-1 : Int) = 0 := by decide
  rcases stage_ends service .bridgeToken times with ⟨bridgeToken, bridge, ⟨passed', early'⟩ | failed⟩
  · have second : Short bridgeToken tryTimes := short_passed passed' (by omega)
    rcases stage_ends service .csr times with ⟨csr, download, ⟨passed'', early''⟩ | failed⟩
    · have third : Short csr tryTimes := short_passed passed'' (by omega)
      refine ⟨n + 1, ⟨0, userToken, bridgeToken, csr⟩, ?_, givesUp_of_ends ?_ ?_⟩
      · rw [start, bridge, Option.bind_some, passed', download, Option.map_some, passed'']
        rfl
      · intro stage
        cases stage with
        | userToken => exact .inl first
        | bridgeToken => exact .inl second
        | csr => exact .inl third
      · intro _
        apply Or.inr
        intro stage
        cases stage with
        | userToken => exact passed
        | bridgeToken => exact passed'
        | csr => exact passed''
    · refine ⟨n + 1, ⟨-1, userToken, bridgeToken, csr⟩, ?_, givesUp_of_ends ?_ fun same => absurd same unfinished⟩
      · rw [start, bridge, Option.bind_some, passed', download, Option.map_some, failed]
        rfl
      · intro stage
        cases stage with
        | userToken => exact .inl first
        | bridgeToken => exact .inl second
        | csr => exact .inr ⟨last failed, rfl, congrArg Tally.passed failed, List.forall_mem_nil _⟩
  · refine ⟨n + 1, ⟨-1, userToken, bridgeToken, untried⟩, ?_, givesUp_of_ends ?_ fun same => absurd same unfinished⟩
    · rw [start, bridge, Option.bind_some, failed]
      rfl
    · intro stage
      cases stage with
      | userToken => exact .inl first
      | bridgeToken =>
        refine .inr ⟨last failed, rfl, congrArg Tally.passed failed, ?_⟩
        intro later inside
        rw [List.mem_singleton.mp inside]
        rfl
      | csr => exact .inl (short_untried positive)

/-- With a limit, the download keeps to it exactly if there is a certificate, or the user token is got within the limit. -/
theorem download_gives_up_iff (service : Service) (tryTimes : Int) (positive : 0 < tryTimes) :
    Law service tryTimes ↔
      service.pem = true ∨ ∃ k : Nat, k < tryTimes ∧ service.returns .userToken k = 0 := by
  constructor
  · rintro ⟨fuel, download, done, kept⟩
    cases pem : service.pem with
    | true => exact .inl rfl
    | false =>
      rcases downloadCa_userToken pem positive done with ⟨passed, success⟩
      have limit := kept.attempts .userToken
      rw [Download.tally, attempts_passed passed] at limit
      exact .inr ⟨download.userToken.failures, limit, success⟩
  · rintro (pem | ⟨k, below, succeeds⟩)
    · exact law_pem positive pem
    · cases pem : service.pem with
      | true => exact law_pem positive pem
      | false => exact law_userToken below pem succeeds

theorem download_gives_up_twice : Law ⟨false, fun _ k => k - 1⟩ 2 ↔
    false = true ∨ ∃ k : Nat, (k : Int) < 2 ∧ (k : Int) - 1 = 0 :=
  download_gives_up_iff ⟨false, fun _ k => k - 1⟩ 2 (by decide)

def outage : Service := ⟨false, fun _ _ => -1⟩

theorem outage_never_given_up : ¬Law outage 3 := by
  rintro ⟨fuel, download, done, _⟩
  have got := (downloadCa_userToken rfl (by decide) done).2
  cases got

end Bridge.Certificate
