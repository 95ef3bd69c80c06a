import Mathlib.Data.Fintype.Card
import Bridge.Library.Runs
import Bridge.WifiService.Crypt

namespace Bridge.ServerThread

def maxClient : Nat := 5
def bufSize : Nat := 1024

/-- A slot of `fd` is free where it is 0. -/
structure Thread where
  fd : Fin maxClient → Int
  connAmount : Nat
  fdmax : Int
  cryptLocked : Bool
  setWifiCrypt : CryptMemory

/-- What `recv` gives: nothing when the client has left or on an error. -/
structure Received where
  buf : List UInt8
  short : buf.length ≤ bufSize
  garbage : CborValue

/-- What one round finds: what `accept` returns, if the listening socket is ready, and which clients have something to read.
    A timeout is a round that finds nothing. Where `select` fails, the thread ends. -/
structure Round where
  accept : Option Int
  ready : Fin maxClient → Bool
  recv : Fin maxClient → Received

def Thread.start (readSocket : Int) (heap : CryptMemory) : Thread := ⟨fun _ => 0, 0, readSocket, false, heap⟩

/-- `FD_ISSET` after the `select` of the round. The descriptor of a client that is accepted in the round is no other client's,
    so its bit is not set. -/
def Thread.isSet (thread : Thread) (round : Round) (i : Fin maxClient) : Bool :=
  thread.fd i != 0 && decide (thread.fd i ≤ thread.fdmax) && round.ready i

def Thread.addClient (thread : Thread) (newfd : Int) : Thread :=
  { thread with
    fd := match (List.finRange maxClient).find? fun i => thread.fd i == 0 with
      | some i => Function.update thread.fd i newfd
      | none => thread.fd
    connAmount := thread.connAmount + 1
    fdmax := max thread.fdmax newfd }

def Thread.closeClient (thread : Thread) (i : Fin maxClient) : Thread :=
  { thread with fd := Function.update thread.fd i 0, connAmount := thread.connAmount - 1 }

/-- A field whose flag is set is printed as many bytes long as it says. -/
def printable (field : CryptBytes) : Bool := !field.has || decide (field.len ≤ field.block.length)

def recordPrintable (record : CryptMemory) : Bool :=
  printable record.clientNonce && printable record.serverNonce && printable record.serverPairingAdminKey

/-- Taking the lock again stops the thread for good, as does a read behind a field that is printed. -/
def Thread.handleData (thread : Thread) (received : Received) : Option Thread :=
  if received.buf.length < bufSize then
    if thread.cryptLocked then none
    else (decodeCrypt received.garbage received.buf thread.setWifiCrypt).bind fun decoded =>
      -- the error goes on with the next client and does not unlock
      if decoded.1 ≠ .noError then some { thread with cryptLocked := true, setWifiCrypt := decoded.2 }
      else if recordPrintable decoded.2 then some { thread with setWifiCrypt := decoded.2 }
      else none
  else some thread

def Thread.readClient (thread : Thread) (i : Fin maxClient) (received : Received) : Option Thread :=
  if received.buf = [] then some (thread.closeClient i) else thread.handleData received

/-- The loop over the slots, which ends at the number of clients as it is by then. The second part are the slots that are read. -/
def scan (isSet : Fin maxClient → Bool) (recv : Fin maxClient → Received) :
    List (Fin maxClient) → Thread → Option (Thread × List (Fin maxClient))
  | [], thread => some (thread, [])
  | i :: rest, thread =>
    if i.val < thread.connAmount then
      if isSet i then
        (thread.readClient i (recv i)).bind fun thread => (scan isSet recv rest thread).map fun scanned =>
          (scanned.1, i :: scanned.2)
      else scan isSet recv rest thread
    else some (thread, [])

/-- One round of `serverThread`, with the slots that it reads. -/
def Thread.round (thread : Thread) (round : Round) : Option (Thread × List (Fin maxClient)) :=
  let clients := List.finRange maxClient
  match round.accept with
  | none => scan (thread.isSet round) round.recv clients thread
  | some newfd =>
    if newfd ≤ 0 then some (thread, [])
    else if thread.connAmount < maxClient then scan (thread.isSet round) round.recv clients (thread.addClient newfd)
    else some (thread, [])

def next (thread : Thread) (round : Round) : Option Thread := (thread.round round).map Prod.fst

def occupied (fd : Fin maxClient → Int) : Nat := (Finset.univ.filter fun i => fd i ≠ 0).card

structure Thread.Sound (thread : Thread) : Prop where
  unlocked : thread.cryptLocked = false
  counted : thread.connAmount = occupied thread.fd

def Thread.Ready (thread : Thread) (round : Round) (i : Fin maxClient) : Prop := thread.fd i ≠ 0 ∧ round.ready i = true

instance (thread : Thread) (round : Round) : DecidablePred (thread.Ready round) :=
  fun _ => inferInstanceAs (Decidable (_ ∧ _))

/-- The round starts and ends without the lock and with the right count, and reads every client that is ready. -/
structure RoundLaw (thread : Thread) (round : Round) : Prop where
  start : thread.Sound
  served : ∃ thread' reads, thread.round round = some (thread', reads) ∧ (∀ i, thread.Ready round i → i ∈ reads) ∧ thread'.Sound

/-- A message that leaves the lock free: it is too long to be looked at, or it is decoded, and what the record then holds
    can be printed. -/
def Received.WellFormed (record : CryptMemory) (received : Received) : Prop :=
  received.buf.length < bufSize → received.buf ≠ [] →
    ∃ crypt, decodeCrypt received.garbage received.buf record = some (.noError, crypt) ∧ recordPrintable crypt = true

/-- What a message makes of the record. -/
def Received.stored (record : CryptMemory) (received : Received) : CryptMemory :=
  if received.buf.length < bufSize ∧ received.buf ≠ [] then
    ((decodeCrypt received.garbage received.buf record).map Prod.snd).getD record
  else record

def Round.Admits (round : Round) (thread : Thread) : Prop := ∀ newfd, round.accept = some newfd → 0 < newfd ∧ thread.connAmount < maxClient

def Thread.leaving (thread : Thread) (round : Round) (i : Fin maxClient) : Nat :=
  (List.finRange maxClient).countP fun j => decide (j < i) && decide (thread.Ready round j) && decide ((round.recv j).buf = [])

/-- The record when the loop comes to a slot. -/
def Thread.record (thread : Thread) (round : Round) (i : Fin maxClient) : CryptMemory :=
  ((List.finRange maxClient).filter fun j => decide (j < i) && decide (thread.Ready round j)).foldl
    (fun record j => (round.recv j).stored record) thread.setWifiCrypt

/-- A round in which somebody is ready admits the client that comes, if one comes; the slot of each client that is ready is
    less than the number of clients when the loop comes to it; and the messages are well formed. -/
structure Orderly (thread : Thread) (round : Round) : Prop where
  admits : ∀ i, thread.Ready round i → round.Admits thread
  reached : ∀ i, thread.Ready round i →
    i.val + thread.leaving round i < thread.connAmount + (if round.accept.isSome then 1 else 0)
  wellFormed : ∀ i, thread.Ready round i → (round.recv i).WellFormed (thread.record round i)

section Scanning

variable {thread : Thread}

/-- What reading a client does to a thread without the lock; `none` is a decoder that does not come back, or a record that
    cannot be printed. -/
inductive ReadStep (thread : Thread) (i : Fin maxClient) (received : Received) : Option Thread → Prop
  | left (empty : received.buf = []) : ReadStep thread i received (some (thread.closeClient i))
  | read (sent : received.buf ≠ []) (formed : received.WellFormed thread.setWifiCrypt) :
      ReadStep thread i received (some { thread with setWifiCrypt := received.stored thread.setWifiCrypt })
  | stuck (sent : received.buf ≠ []) (malformed : ¬received.WellFormed thread.setWifiCrypt) : ReadStep thread i received none
  | keeps (sent : received.buf ≠ []) (malformed : ¬received.WellFormed thread.setWifiCrypt) (crypt : CryptMemory) :
      ReadStep thread i received (some { thread with cryptLocked := true, setWifiCrypt := crypt })

theorem wellFormed_iff {received : Received} (short : received.buf.length < bufSize) (sent : received.buf ≠ [])
    (record : CryptMemory) : received.WellFormed record ↔
      ∃ crypt, decodeCrypt received.garbage received.buf record = some (.noError, crypt) ∧ recordPrintable crypt = true :=
  ⟨fun formed => formed short sent, fun decoded _ _ => decoded⟩

theorem stored_decoded {received : Received} (short : received.buf.length < bufSize) (sent : received.buf ≠ [])
    {record crypt : CryptMemory} {err : IgSerializerError}
    (decoded : decodeCrypt received.garbage received.buf record = some (err, crypt)) : received.stored record = crypt := by
  rw [Received.stored, if_pos ⟨short, sent⟩, decoded]
  rfl

theorem readClient_step (unlocked : thread.cryptLocked = false) (i : Fin maxClient) (received : Received) :
    ReadStep thread i received (thread.readClient i received) := by
  rw [Thread.readClient]
  by_cases empty : received.buf = []
  · rw [if_pos empty]
    exact .left empty
  · rw [if_neg empty, Thread.handleData]
    by_cases short : received.buf.length < bufSize
    · have formed := wellFormed_iff short empty thread.setWifiCrypt
      rw [if_pos short, if_neg (by rw [unlocked]; exact Bool.false_ne_true)]
      cases decoded : decodeCrypt received.garbage received.buf thread.setWifiCrypt with
      | none =>
        apply ReadStep.stuck empty
        rw [formed, decoded]
        simp
      | some result =>
        rcases result with ⟨err, crypt⟩
        rw [Option.bind_some]
        by_cases failed : err = .noError
        · subst failed
          rw [if_neg (not_not_intro rfl)]
          cases shown : recordPrintable crypt with
          | true =>
            rw [if_pos rfl]
            exact stored_decoded short empty decoded ▸ .read empty (formed.mpr ⟨crypt, decoded, shown⟩)
          | false =>
            rw [if_neg Bool.false_ne_true]
            apply ReadStep.stuck empty
            rw [formed, decoded]
            simp [shown]
        · rw [if_pos failed]
          apply ReadStep.keeps empty
          rw [formed, decoded]
          simp [failed]
    · rw [if_neg short]
      have kept : received.stored thread.setWifiCrypt = thread.setWifiCrypt := if_neg fun both => short both.1
      have read : ReadStep thread i received (some { thread with setWifiCrypt := received.stored thread.setWifiCrypt }) :=
        .read empty fun short' => absurd short' short
      rwa [kept] at read

theorem readClient_locked {i : Fin maxClient} {received : Received} {thread' : Thread} (locked : thread.cryptLocked = true)
    (done : thread.readClient i received = some thread') : thread'.cryptLocked = true := by
  rw [Thread.readClient, Thread.handleData] at done
  split at done
  · cases done
    exact locked
  · split at done
    · cases done
    · cases done
      exact locked

variable {isSet : Fin maxClient → Bool} {recv : Fin maxClient → Received}

theorem scan_locked {clients : List (Fin maxClient)} {scanned : Thread × List (Fin maxClient)}
    (locked : thread.cryptLocked = true) (done : scan isSet recv clients thread = some scanned) :
    scanned.1.cryptLocked = true := by
  induction clients generalizing thread scanned with
  | nil =>
    cases done
    exact locked
  | cons i rest ih =>
    rw [scan] at done
    split at done
    · split at done
      · rcases Option.bind_eq_some_iff.mp done with ⟨middle, read, done⟩
        rcases Option.map_eq_some_iff.mp done with ⟨later, after, rfl⟩
        exact @ih middle later (readClient_locked locked read) after
      · exact ih locked done
    · cases done
      exact locked

def leavingOf (isSet : Fin maxClient → Bool) (recv : Fin maxClient → Received) (clients : List (Fin maxClient))
    (i : Fin maxClient) : Nat :=
  clients.countP fun j => decide (j < i) && isSet j && decide ((recv j).buf = [])

/-- The loop comes to every slot of these that is set, and leaves without the lock. -/
def Reads (isSet : Fin maxClient → Bool) (recv : Fin maxClient → Received) (clients : List (Fin maxClient))
    (thread : Thread) : Prop :=
  ∃ thread' reads, scan isSet recv clients thread = some (thread', reads) ∧ (∀ i ∈ clients, isSet i = true → i ∈ reads) ∧
    thread'.cryptLocked = false

theorem reads_cons {i : Fin maxClient} {rest : List (Fin maxClient)} (fresh : i ∉ rest)
    (reached : i.val < thread.connAmount) (set : isSet i = true) : Reads isSet recv (i :: rest) thread ↔
      ∃ middle, thread.readClient i (recv i) = some middle ∧ Reads isSet recv rest middle := by
  unfold Reads
  simp only [scan, if_pos reached, if_pos set]
  constructor
  · rintro ⟨thread', reads, done, all, unlocked⟩
    rcases Option.bind_eq_some_iff.mp done with ⟨middle, read, done⟩
    rcases Option.map_eq_some_iff.mp done with ⟨⟨last, later⟩, scanned, equal⟩
    cases equal
    refine ⟨middle, read, last, later, scanned, ?_, unlocked⟩
    intro j listed set'
    rcases List.mem_cons.mp (all j (List.mem_cons_of_mem _ listed) set') with rfl | inside
    · exact absurd listed fresh
    · exact inside
  · rintro ⟨middle, read, last, later, scanned, all, unlocked⟩
    refine ⟨last, i :: later, ?_, ?_, unlocked⟩
    · rw [read, Option.bind_some, scanned, Option.map_some]
    · intro j listed set'
      rcases List.mem_cons.mp listed with rfl | inside
      · exact List.mem_cons_self
      · exact List.mem_cons_of_mem _ (all j inside set')

theorem reads_skip {i : Fin maxClient} {rest : List (Fin maxClient)} (reached : i.val < thread.connAmount)
    (unset : isSet i = false) : Reads isSet recv (i :: rest) thread ↔ Reads isSet recv rest thread := by
  unfold Reads
  simp only [scan, if_pos reached, unset, Bool.false_eq_true, if_false, List.forall_mem_cons, false_implies, true_and]

theorem reads_stop {i : Fin maxClient} {rest : List (Fin maxClient)} (unlocked : thread.cryptLocked = false)
    (behind : ¬i.val < thread.connAmount) :
    Reads isSet recv (i :: rest) thread ↔ ∀ j ∈ i :: rest, isSet j = false := by
  unfold Reads
  simp only [scan, if_neg behind]
  constructor
  · rintro ⟨thread', reads, done, all, _⟩ j listed
    cases done
    by_contra set
    exact absurd (all j listed (Bool.eq_true_of_not_eq_false set)) List.not_mem_nil
  · intro none
    refine ⟨thread, [], rfl, ?_, unlocked⟩
    intro j listed set
    rw [none j listed] at set
    cases set

theorem leavingOf_cons {i j : Fin maxClient} {rest : List (Fin maxClient)} (before : i < j) :
    leavingOf isSet recv (i :: rest) j =
      leavingOf isSet recv rest j + (if isSet i = true ∧ (recv i).buf = [] then 1 else 0) := by
  rw [leavingOf, List.countP_cons, ← leavingOf]
  congr 1
  simp only [before, decide_true, Bool.true_and, Bool.and_eq_true, decide_eq_true_eq]

theorem leavingOf_first {i : Fin maxClient} {rest : List (Fin maxClient)} (sorted : ∀ j ∈ rest, i < j) :
    leavingOf isSet recv (i :: rest) i = 0 := by
  apply List.countP_eq_zero.mpr
  intro j listed
  have behind : ¬j < i := by
    rcases List.mem_cons.mp listed with rfl | later
    · exact Nat.lt_irrefl j.val
    · exact Nat.not_lt.mpr (Nat.le_of_lt (sorted j later))
  simp [behind]

def recordOf (isSet : Fin maxClient → Bool) (recv : Fin maxClient → Received) (clients : List (Fin maxClient))
    (record : CryptMemory) (i : Fin maxClient) : CryptMemory :=
  (clients.filter fun j => decide (j < i) && isSet j).foldl (fun record j => (recv j).stored record) record

/-- Every slot of these that is set is in front of the end that the loop has by then, and its message is well formed for
    the record that it finds. -/
def InReach (isSet : Fin maxClient → Bool) (recv : Fin maxClient → Received) (clients : List (Fin maxClient))
    (connAmount : Nat) (record : CryptMemory) : Prop :=
  ∀ i ∈ clients, isSet i = true →
    i.val + leavingOf isSet recv clients i < connAmount ∧ (recv i).WellFormed (recordOf isSet recv clients record i)

theorem recordOf_cons {i j : Fin maxClient} {rest : List (Fin maxClient)} (before : i < j) (record : CryptMemory) :
    recordOf isSet recv (i :: rest) record j =
      recordOf isSet recv rest (if isSet i = true then (recv i).stored record else record) j := by
  unfold recordOf
  rw [List.filter_cons]
  cases isSet i with
  | true => simp [before]
  | false => simp

theorem recordOf_first {i : Fin maxClient} {rest : List (Fin maxClient)} (sorted : ∀ j ∈ rest, i < j)
    (record : CryptMemory) : recordOf isSet recv (i :: rest) record i = record := by
  have none : (i :: rest).filter (fun j => decide (j < i) && isSet j) = [] := by
    apply List.filter_eq_nil_iff.mpr
    intro j listed
    have behind : ¬j < i := by
      rcases List.mem_cons.mp listed with rfl | later
      · exact Nat.lt_irrefl j.val
      · exact Nat.not_lt.mpr (Nat.le_of_lt (sorted j later))
    simp [behind]
  rw [recordOf, none, List.foldl_nil]

theorem inReach_cons {i : Fin maxClient} {rest : List (Fin maxClient)} (sorted : ∀ j ∈ rest, i < j) (connAmount : Nat)
    (record : CryptMemory) :
    InReach isSet recv (i :: rest) connAmount record ↔
      (isSet i = true → i.val < connAmount ∧ (recv i).WellFormed record) ∧
        InReach isSet recv rest (connAmount - (if isSet i = true ∧ (recv i).buf = [] then 1 else 0))
          (if isSet i = true then (recv i).stored record else record) := by
  unfold InReach
  rw [List.forall_mem_cons, leavingOf_first sorted, recordOf_first sorted]
  apply and_congr_right
  intro _
  apply forall₂_congr
  intro j listed
  rw [leavingOf_cons (sorted j listed), recordOf_cons (sorted j listed)]
  apply imp_congr_right
  intro _
  apply and_congr_left
  intro _
  omega

theorem inReach_behind {i : Fin maxClient} {rest : List (Fin maxClient)} (sorted : ∀ j ∈ rest, i < j) {connAmount : Nat}
    (behind : ¬i.val < connAmount) (record : CryptMemory) :
    InReach isSet recv (i :: rest) connAmount record ↔ ∀ j ∈ i :: rest, isSet j = false := by
  constructor
  · intro reach j listed
    by_contra set
    have near := (reach j listed (Bool.eq_true_of_not_eq_false set)).1
    rcases List.mem_cons.mp listed with rfl | later
    · omega
    · have far : i.val < j.val := sorted j later
      omega
  · intro none j listed set
    rw [none j listed] at set
    cases set

theorem reads_iff {clients : List (Fin maxClient)} (sorted : clients.Pairwise (· < ·))
    (unlocked : thread.cryptLocked = false) :
    Reads isSet recv clients thread ↔ InReach isSet recv clients thread.connAmount thread.setWifiCrypt := by
  induction clients generalizing thread with
  | nil =>
    apply iff_of_true
    · exact ⟨thread, [], rfl, List.forall_mem_nil _, unlocked⟩
    · exact List.forall_mem_nil _
  | cons i rest ih =>
    rw [List.pairwise_cons] at sorted
    have fresh : i ∉ rest := fun inside => Nat.lt_irrefl i.val (sorted.1 i inside)
    by_cases reached : i.val < thread.connAmount
    · rw [inReach_cons sorted.1]
      cases set : isSet i with
      | false =>
        rw [reads_skip reached set, ih sorted.2 unlocked]
        simp
      | true =>
        have step := readClient_step unlocked i (recv i)
        rw [reads_cons fresh reached set]
        generalize thread.readClient i (recv i) = read at step
        simp only [reached, true_and, true_implies]
        cases step with
        | left empty =>
          have formed : (recv i).WellFormed thread.setWifiCrypt := fun _ sent => absurd empty sent
          have kept : (recv i).stored thread.setWifiCrypt = thread.setWifiCrypt := if_neg fun both => both.2 empty
          have rest' := @ih (thread.closeClient i) sorted.2 unlocked
          simp only [Option.some.injEq, exists_eq_left', rest', formed, empty, if_true, true_and, kept]
          rfl
        | read sent formed =>
          have rest' := @ih { thread with setWifiCrypt := (recv i).stored thread.setWifiCrypt } sorted.2 unlocked
          simp only [Option.some.injEq, exists_eq_left', rest', formed, sent, if_false, true_and, Nat.sub_zero, if_true]
        | stuck sent malformed =>
          apply iff_of_false
          · rintro ⟨middle, ⟨⟩, _⟩
          · exact fun both => malformed both.1
        | keeps sent malformed crypt =>
          apply iff_of_false
          · rintro ⟨middle, ⟨⟩, thread', reads, done, _, unlocked'⟩
            have locked := scan_locked rfl done
            rw [unlocked'] at locked
            cases locked
          · exact fun both => malformed both.1
    · rw [reads_stop unlocked reached, inReach_behind sorted.1 reached thread.setWifiCrypt]

end Scanning

section Table

theorem occupied_update {fd : Fin maxClient → Int} {i : Fin maxClient} {newfd : Int} (free : fd i = 0) (open' : newfd ≠ 0) :
    occupied (Function.update fd i newfd) = occupied fd + 1 := by
  have inserted : (Finset.univ.filter fun j => Function.update fd i newfd j ≠ 0) =
      insert i (Finset.univ.filter fun j => fd j ≠ 0) := by
    ext j
    by_cases same : j = i
    · subst same
      simp [open']
    · simp [same]
  rw [occupied, inserted, Finset.card_insert_of_notMem (by simp [free]), ← occupied]

theorem occupied_close {fd : Fin maxClient → Int} {i : Fin maxClient} (held : fd i ≠ 0) :
    occupied (Function.update fd i 0) = occupied fd - 1 := by
  have erased : (Finset.univ.filter fun j => Function.update fd i 0 j ≠ 0) =
      (Finset.univ.filter fun j => fd j ≠ 0).erase i := by
    ext j
    by_cases same : j = i
    · subst same
      simp
    · simp [same]
  rw [occupied, erased, Finset.card_erase_of_mem (by simp [held]), ← occupied]

/-- The count is right, and `select` looks at every client. -/
structure Thread.Counted (thread : Thread) : Prop where
  counted : thread.connAmount = occupied thread.fd
  watched : ∀ i, thread.fd i ≠ 0 → thread.fd i ≤ thread.fdmax

variable {thread thread' : Thread} {isSet : Fin maxClient → Bool} {recv : Fin maxClient → Received}

theorem Thread.Counted.close (counted : thread.Counted) {i : Fin maxClient} (held : thread.fd i ≠ 0) :
    (thread.closeClient i).Counted := by
  constructor
  case counted =>
    show thread.connAmount - 1 = occupied (Function.update thread.fd i 0)
    rw [occupied_close held, counted.counted]
  case watched =>
    intro j used
    by_cases same : j = i
    · subst same
      exact absurd (Function.update_self ..) used
    · have kept : (thread.closeClient i).fd j = thread.fd j := Function.update_of_ne same ..
      rw [kept] at used ⊢
      exact counted.watched j used

theorem exists_free (counted : thread.Counted) (room : thread.connAmount < maxClient) : ∃ i, thread.fd i = 0 := by
  by_contra none
  rw [not_exists] at none
  have full : (Finset.univ.filter fun i => thread.fd i ≠ 0) = Finset.univ := Finset.filter_true_of_mem fun i _ => none i
  have all := counted.counted
  rw [occupied, full, Finset.card_univ, Fintype.card_fin] at all
  omega

theorem addClient_fd (counted : thread.Counted) (room : thread.connAmount < maxClient) (newfd : Int) :
    ∃ i, thread.fd i = 0 ∧ (thread.addClient newfd).fd = Function.update thread.fd i newfd := by
  rcases exists_free counted room with ⟨j, free⟩
  have some : ((List.finRange maxClient).find? fun i => thread.fd i == 0).isSome = true :=
    List.find?_isSome.mpr ⟨j, List.mem_finRange j, by rw [free]; rfl⟩
  rcases Option.isSome_iff_exists.mp some with ⟨i, found⟩
  refine ⟨i, by simpa using List.find?_some found, ?_⟩
  simp only [Thread.addClient, found]

theorem Thread.Counted.add (counted : thread.Counted) (room : thread.connAmount < maxClient) {newfd : Int}
    (positive : 0 < newfd) : (thread.addClient newfd).Counted := by
  rcases addClient_fd counted room newfd with ⟨i, free, fd⟩
  constructor
  case counted =>
    rw [fd, occupied_update free (by omega), ← counted.counted]
    rfl
  case watched =>
    intro j used
    show _ ≤ max thread.fdmax newfd
    rw [fd] at used ⊢
    by_cases same : j = i
    · subst same
      rw [Function.update_self]
      exact Int.le_max_right _ _
    · rw [Function.update_of_ne same] at used ⊢
      exact (counted.watched j used).trans (Int.le_max_left _ _)

theorem readClient_table {i : Fin maxClient} {received : Received} (done : thread.readClient i received = some thread') :
    thread' = thread.closeClient i ∨
      thread'.fd = thread.fd ∧ thread'.connAmount = thread.connAmount ∧ thread'.fdmax = thread.fdmax := by
  rw [Thread.readClient, Thread.handleData] at done
  split at done
  · exact .inl (Option.some.inj done).symm
  · right
    split at done
    · split at done
      · cases done
      · rcases Option.bind_eq_some_iff.mp done with ⟨decoded, _, done⟩
        split at done
        · cases done
          exact ⟨rfl, rfl, rfl⟩
        · split at done
          · cases done
            exact ⟨rfl, rfl, rfl⟩
          · cases done
    · cases done
      exact ⟨rfl, rfl, rfl⟩

theorem scan_counted {clients : List (Fin maxClient)} (distinct : clients.Nodup) (counted : thread.Counted)
    (held : ∀ i ∈ clients, isSet i = true → thread.fd i ≠ 0) {scanned : Thread × List (Fin maxClient)}
    (done : scan isSet recv clients thread = some scanned) : scanned.1.Counted := by
  induction clients generalizing thread scanned with
  | nil =>
    cases done
    exact counted
  | cons i rest ih =>
    rw [List.nodup_cons] at distinct
    rw [List.forall_mem_cons] at held
    rw [scan] at done
    split at done
    · split at done
      · rename_i set
        rcases Option.bind_eq_some_iff.mp done with ⟨middle, read, done⟩
        rcases Option.map_eq_some_iff.mp done with ⟨later, after, rfl⟩
        rcases readClient_table read with rfl | ⟨fd, connAmount, fdmax⟩
        · apply ih distinct.2 (counted.close (held.1 set)) _ after
          intro j inside set'
          have apart : j ≠ i := fun same => distinct.1 (same ▸ inside)
          show Function.update thread.fd i 0 j ≠ 0
          rw [Function.update_of_ne apart]
          exact held.2 j inside set'
        · have counted' : middle.Counted := by
            constructor
            case counted => rw [fd, connAmount, counted.counted]
            case watched =>
              rw [fd, fdmax]
              exact counted.watched
          apply ih distinct.2 counted' _ after
          rw [fd]
          exact held.2
      · exact ih distinct.2 counted held.2 done
    · cases done
      exact counted

theorem isSet_iff (counted : thread.Counted) (round : Round) (i : Fin maxClient) :
    thread.isSet round i = true ↔ thread.Ready round i := by
  simp only [Thread.isSet, Thread.Ready, Bool.and_eq_true, bne_iff_ne, decide_eq_true_eq]
  constructor
  · exact fun set => ⟨set.1.1, set.2⟩
  · exact fun ready => ⟨⟨ready.1, counted.watched i ready.1⟩, ready.2⟩

theorem leaving_eq (counted : thread.Counted) (round : Round) (i : Fin maxClient) :
    leavingOf (thread.isSet round) round.recv (List.finRange maxClient) i = thread.leaving round i := by
  rw [leavingOf, Thread.leaving]
  apply List.countP_congr
  intro j _
  simp only [Bool.and_eq_true, isSet_iff counted, decide_eq_true_eq]

theorem record_eq (counted : thread.Counted) (round : Round) (i : Fin maxClient) :
    recordOf (thread.isSet round) round.recv (List.finRange maxClient) thread.setWifiCrypt i = thread.record round i := by
  rw [recordOf, Thread.record]
  congr 1
  apply List.filter_congr
  intro j _
  congr 1
  exact Bool.eq_iff_iff.mpr ((isSet_iff counted round j).trans decide_eq_true_iff.symm)

theorem round_counted (counted : thread.Counted) {round : Round} {reads : List (Fin maxClient)}
    (done : thread.round round = some (thread', reads)) : thread'.Counted := by
  have held : ∀ i, thread.isSet round i = true → thread.fd i ≠ 0 := fun i set => ((isSet_iff counted round i).mp set).1
  have distinct := List.nodup_finRange maxClient
  unfold Thread.round at done
  cases found : round.accept with
  | none =>
    simp only [found] at done
    exact scan_counted distinct counted (fun i _ => held i) done
  | some newfd =>
    simp only [found] at done
    split at done
    · cases done
      exact counted
    · split at done
      · rename_i positive room
        rcases addClient_fd counted room newfd with ⟨free, empty, fd⟩
        apply scan_counted distinct (counted.add room (Int.not_le.mp positive)) _ done
        intro i _ set
        have apart : i ≠ free := fun same => held i set (same ▸ empty)
        rw [fd, Function.update_of_ne apart]
        exact held i set
      · cases done
        exact counted

theorem law_iff_reads (counted : thread.Counted) (unlocked : thread.cryptLocked = false) {round : Round} {scanning : Thread}
    (runs : thread.round round = scan (thread.isSet round) round.recv (List.finRange maxClient) scanning)
    (unlocked' : scanning.cryptLocked = false) (same : scanning.setWifiCrypt = thread.setWifiCrypt) :
    RoundLaw thread round ↔ ∀ i, thread.Ready round i →
      i.val + thread.leaving round i < scanning.connAmount ∧ (round.recv i).WellFormed (thread.record round i) := by
  have law : RoundLaw thread round ↔ Reads (thread.isSet round) round.recv (List.finRange maxClient) scanning := by
    constructor
    · rintro ⟨_, thread', reads, done, all, sound⟩
      exact ⟨thread', reads, runs ▸ done, fun i _ set => all i ((isSet_iff counted round i).mp set), sound.unlocked⟩
    · rintro ⟨thread', reads, done, all, free⟩
      have ran := runs.trans done
      refine ⟨⟨unlocked, counted.counted⟩, thread', reads, ran, ?_, ⟨free, (round_counted counted ran).counted⟩⟩
      exact fun i ready => all i (List.mem_finRange i) ((isSet_iff counted round i).mpr ready)
  rw [law, reads_iff (List.pairwise_lt_finRange maxClient) unlocked', same]
  unfold InReach
  simp only [List.mem_finRange, true_implies, isSet_iff counted, leaving_eq counted, record_eq counted]

theorem law_iff_none (counted : thread.Counted) (unlocked : thread.cryptLocked = false) {round : Round}
    (skips : thread.round round = some (thread, [])) : RoundLaw thread round ↔ ∀ i, ¬thread.Ready round i := by
  constructor
  · rintro ⟨_, thread', reads, done, all, _⟩ i ready
    cases skips.symm.trans done
    exact absurd (all i ready) List.not_mem_nil
  · intro none
    have sound : thread.Sound := ⟨unlocked, counted.counted⟩
    exact ⟨sound, thread, [], skips, fun i ready => absurd ready (none i), sound⟩

theorem orderly_of_none {round : Round} (none : ∀ i, ¬thread.Ready round i) : Orderly thread round :=
  ⟨fun i ready => absurd ready (none i), fun i ready => absurd ready (none i), fun i ready => absurd ready (none i)⟩

theorem round_law_iff (counted : thread.Counted) (unlocked : thread.cryptLocked = false) (round : Round) :
    RoundLaw thread round ↔ Orderly thread round := by
  cases found : round.accept with
  | none =>
    have runs : thread.round round = scan (thread.isSet round) round.recv (List.finRange maxClient) thread := by
      simp only [Thread.round, found]
    rw [law_iff_reads counted unlocked runs unlocked rfl]
    constructor
    · intro all
      refine ⟨?_, ?_, fun i ready => (all i ready).2⟩
      · intro i _ newfd came
        cases found.symm.trans came
      · intro i ready
        simpa [found] using (all i ready).1
    · intro orderly i ready
      have reached := orderly.reached i ready
      rw [found] at reached
      exact ⟨reached, orderly.wellFormed i ready⟩
  | some newfd =>
    by_cases admitted : 0 < newfd ∧ thread.connAmount < maxClient
    · have runs : thread.round round =
          scan (thread.isSet round) round.recv (List.finRange maxClient) (thread.addClient newfd) := by
        simp only [Thread.round, found, if_neg (Int.not_le.mpr admitted.1), if_pos admitted.2]
      rw [law_iff_reads counted unlocked runs unlocked rfl]
      constructor
      · intro all
        refine ⟨?_, ?_, fun i ready => (all i ready).2⟩
        · intro i _ other came
          cases found.symm.trans came
          exact admitted
        · intro i ready
          rw [found]
          exact (all i ready).1
      · intro orderly i ready
        have reached := orderly.reached i ready
        rw [found] at reached
        exact ⟨reached, orderly.wellFormed i ready⟩
    · have skips : thread.round round = some (thread, []) := by
        simp only [Thread.round, found]
        by_cases positive : newfd ≤ 0
        · rw [if_pos positive]
        · rw [if_neg positive, if_neg fun room => admitted ⟨Int.not_le.mp positive, room⟩]
      rw [law_iff_none counted unlocked skips]
      constructor
      · exact orderly_of_none
      · exact fun orderly i ready => admitted (orderly.admits i ready newfd found)

theorem next_counted (counted : thread.Counted) {round : Round} (done : next thread round = some thread') : thread'.Counted := by
  rcases Option.map_eq_some_iff.mp done with ⟨⟨last, reads⟩, ran, rfl⟩
  exact round_counted counted ran

theorem start_counted (readSocket : Int) (heap : CryptMemory) : (Thread.start readSocket heap).Counted := by
  constructor
  case counted => rfl
  case watched => exact fun i used => absurd rfl used

end Table

/-- All the rounds of a run of the thread meet their law exactly if they are all orderly. -/
theorem server_thread_iff (readSocket : Int) (heap : CryptMemory) (rounds : List Round) :
    Runs.Along next RoundLaw (Thread.start readSocket heap) rounds ↔
      Runs.Along next Orderly (Thread.start readSocket heap) rounds := by
  apply Runs.along_iff_of_kept next fun thread => thread.Counted ∧ thread.cryptLocked = false
  · rintro thread round thread' ⟨counted, unlocked⟩ orderly done
    refine ⟨next_counted counted done, ?_⟩
    rcases ((round_law_iff counted unlocked round).mpr orderly).served with ⟨last, reads, ran, _, sound⟩
    rw [next, ran] at done
    cases done
    exact sound.unlocked
  · rintro thread round ⟨counted, unlocked⟩
    exact round_law_iff counted unlocked round
  · exact ⟨start_counted readSocket heap, rfl⟩

def malformed : Received := ⟨[0xa1, 0x00, 0x00], by decide, ⟨[], 0, 0, .invalid, false, false, false⟩⟩

def malformedRounds : List Round := [⟨some 4, fun _ => false, fun _ => malformed⟩, ⟨none, fun _ => true, fun _ => malformed⟩]

theorem malformed_keeps_lock : ¬Runs.Along next RoundLaw (Thread.start 3 .zero) malformedRounds := by
  rintro ⟨_, later⟩
  have first : next (.start 3 .zero) ⟨some 4, fun _ => false, fun _ => malformed⟩ =
      some ((Thread.start 3 .zero).addClient 4) := rfl
  rcases (later _ first).1.served with ⟨thread, reads, done, _, sound⟩
  have locked : (((Thread.start 3 .zero).addClient 4).round ⟨none, fun _ => true, fun _ => malformed⟩).map
      (fun scanned => scanned.1.cryptLocked) = some true := by decide +kernel
  rw [done, Option.map_some, sound.unlocked] at locked
  cases locked

end Bridge.ServerThread
