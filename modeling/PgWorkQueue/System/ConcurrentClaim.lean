import PgWorkQueue.System.Interleaving

/-!
# Claims exclude each other

What interleaved claims hand out.  `ExclusiveBatch` says what a commit may hand
out, each row with the step at which its claim locked it.  A claim that nobody
interrupts does what the atomic claim of `System.Execution` does.
-/

namespace PgWorkQueue

open Library.Runs Library.RowLocking

/-! ## What a commit hands out -/

section HandedOut

variable {T : Type} {source target : Interleaving} {part : Part T}

/-- The rows that a transition hands out. -/
def handedOut (taken : Transition Interleaving (Part T)) :
    List RawClaimedRow :=
  (replyOf taken).elim [] Reply.claimedRows

theorem reply_of_commit {id : Nat}
    {session : Session Jobs Nat Row OpenStatement}
    (found : source.sessions id = some session) :
    replyOf (T := T) ⟨source, .commit id, target⟩ = some
      (session.statement.val.outcome source.table session.held).2 := by
  simp only [replyOf, found, Option.map_some]

/-- What the commit of a claim does. -/
theorem outcome_claim {jobs : Jobs} (claim : OpenClaim) {held : List Row}
    (latest : ∀ row ∈ held, jobs.find row.id = some row) :
    (∃ failure, (Underway.claim claim).outcome jobs held =
        (jobs, .failed failure)) ∨
      ∃ updated, (Underway.claim claim).outcome jobs held =
          (updated, .claimed (held.map claim.returns)) ∧
        ∀ row ∈ held, (claim.writes row).PassesChecks ∧
          updated.find row.id = some (claim.writes row) := by
  have stored : ∀ row ∈ held, row ∈ jobs.rows := fun row member =>
    (Jobs.find_eq_some_iff.mp (latest row member)).1
  simp only [Underway.outcome, bind, Except.bind]
  cases written : claim.update jobs held with
  | error failure => exact Or.inl ⟨failure, rfl⟩
  | ok result =>
      obtain ⟨updated, rows⟩ := result
      obtain ⟨rfl, each, _⟩ := updateChosen_spec stored written
      simp only [mapM_fromRow_claimed]
      exact Or.inr ⟨updated, rfl, fun row member => (each row member).2⟩

/-- Only claims hand out rows, and a claim the rows it holds. -/
theorem handedOut_cases (sound : source.Sound (lockingDatabase T))
    (taken : Step (lockingDatabase T) source part target) :
    handedOut ⟨source, part, target⟩ = [] ∨
      ∃ id session claim accepted, part = .commit id ∧
        source.sessions id = some session ∧
        session.statement = ⟨.claim claim, accepted⟩ ∧
        handedOut ⟨source, part, target⟩ = session.held.map claim.returns ∧
        ∀ row ∈ session.held, (claim.writes row).PassesChecks ∧
          target.table.find row.id = some (claim.writes row) := by
  cases taken with
  | insert event table inserted =>
      obtain ⟨⟨runAt, inserts⟩, _⟩ := inserted
      left
      apply List.eq_nil_iff_forall_not_mem.mpr
      intro raw member
      obtain ⟨_, _, _, _, _, isClaim, _⟩ := (claimedRows_spec source.table
        event.now event.statement).2 raw member
      rw [isClaim] at inserts
      cases inserts
  | start => exact Or.inl rfl
  | skip => exact Or.inl rfl
  | gone => exact Or.inl rfl
  | lock => exact Or.inl rfl
  | commit id session found complete =>
      have holds := (sound.sessions id session found).holds
      obtain ⟨⟨statement, accepted⟩, snapshot, pending, locked, held⟩ :=
        session
      simp only [handedOut, reply_of_commit found, Option.elim_some]
      cases statement with
      | claim claim =>
          rcases outcome_claim claim holds.latest with
            ⟨failure, failed⟩ | ⟨updated, claimed, each⟩
          · left
            rw [failed]
            rfl
          · right
            refine ⟨id, _, claim, accepted, rfl, found, rfl, ?_, ?_⟩
            · rw [claimed]
              rfl
            · intro row member
              change _ ∧ ((Underway.claim claim).outcome source.table
                held).1.find row.id = _
              rw [claimed]
              exact each row member
      | mark now target token mark =>
          left
          simp only [Underway.outcome, commitOr]
          split
          · rfl
          · rfl
      | reap now queue batchLimit tie =>
          left
          simp only [Underway.outcome, commitOr]
          split
          · rfl
          · rfl
      | purge now status age tie => exact Or.inl rfl
  | rollback => exact Or.inl rfl

/-- Nor need `concurrency_key` be tested again: the held rows that have a key
are no more than the candidates that had it. -/
theorem countP_of_holds_claim {snapshot jobs : Jobs} {held : List Row}
    {claim : OpenClaim} {accepted : (Underway.claim claim).Accepted}
    (holds : Holds (lockingSignature T) ⟨.claim claim, accepted⟩ snapshot jobs
      held) {key : String} {room : Nat}
    (found : claim.params.headroom.lookup key = some room) :
    held.countP (·.concurrencyKey == some key) ≤ room := by
  -- The key of an id, as the snapshot shows it.
  let hadKey : Nat → Bool := fun id =>
    (snapshot.find id).any (·.concurrencyKey == some key)
  have sameKey : held.countP (·.concurrencyKey == some key) =
      (held.map Row.id).countP hadKey := by
    rw [List.countP_map]
    apply List.countP_congr
    intro row member
    obtain ⟨old, before, _, succeeds⟩ := exists_candidate_of_holds holds member
    simp only [hadKey, Function.comp_apply, before, Option.any_some,
      succeeds.sameJob.concurrencyKey]
  have candidateKey : (claim.candidates snapshot).countP
      (·.concurrencyKey == some key) =
      ((claim.candidates snapshot).map Row.id).countP hadKey := by
    rw [List.countP_map]
    apply List.countP_congr
    intro row member
    have stored := (OpenClaim.mem_candidates.mp member).1
    simp only [hadKey, Function.comp_apply, Jobs.find_id_of_mem stored,
      Option.any_some]
  calc held.countP (·.concurrencyKey == some key)
      = (held.map Row.id).countP hadKey := sameKey
    _ ≤ ((claim.candidates snapshot).map Row.id).countP hadKey :=
        holds.proposed.countP_le
    _ = (claim.candidates snapshot).countP (·.concurrencyKey == some key) :=
        candidateKey.symm
    _ ≤ room := (snapshotOf_openClaim holds.opened).capped key room found

end HandedOut

/-! ## Exclusive claims -/

/-- The row `id` is running. -/
def Jobs.Running (jobs : Jobs) (id : Nat) : Prop :=
  ∃ row, jobs.find id = some row ∧ row.status = .running

/-- Where a returned row comes from: the version its claim locked was waiting
and due, in the claim's queue, and still the latest one at the commit, which
adds one to its `attempts` and puts it under a new lease. -/
def ReturnedFrom {T : Type}
    (before : List (Transition Interleaving (Part T)))
    (taken : Transition Interleaving (Part T)) (id : Nat) (claim : OpenClaim)
    (accepted : (Underway.claim claim).Accepted) (raw : RawClaimedRow) :
    Prop :=
  ∃ version,
    LockedAt (lockingDatabase T) before id ⟨.claim claim, accepted⟩ version ∧
    version.id = raw.id ∧
    (version.status = .queued ∨ version.status = .awaitingRetry) ∧
    version.runAt ≤ claim.now ∧
    version.queue = claim.params.queue ∧
    taken.source.table.find raw.id = some version ∧
    raw = claim.returns version ∧
    taken.target.table.find raw.id = some (claim.writes version) ∧
    (claim.writes version).attempts = version.attempts + 1

/-- What a transition of a run may hand out. -/
def ExclusiveBatch {T : Type}
    (before : List (Transition Interleaving (Part T)))
    (taken : Transition Interleaving (Part T)) : Prop :=
  handedOut taken = [] ∨
    ∃ id session claim accepted,
      taken.label = .commit id ∧
      taken.source.sessions id = some session ∧
      session.statement = ⟨.claim claim, accepted⟩ ∧
      (∀ raw ∈ handedOut taken,
        ReturnedFrom before taken id claim accepted raw) ∧
      ((handedOut taken).map RawClaimedRow.id).Nodup ∧
      (handedOut taken).length ≤ claim.limit ∧
      ∀ key room, claim.params.headroom.lookup key = some room →
        (handedOut taken).countP (·.concurrencyKey == some key) ≤ room

section Exclusive

variable {T : Type} {jobs : Jobs} {finish : Interleaving}
  {trace : List (Transition Interleaving (Part T))}

theorem exclusiveBatch_of_run
    {before after : List (Transition Interleaving (Part T))}
    {taken : Transition Interleaving (Part T)}
    (run : Run (Step (lockingDatabase T)) (State.initial jobs)
      (before ++ taken :: after) finish) :
    ExclusiveBatch before taken := by
  obtain ⟨earlier, step, _⟩ := run.splitAt
  obtain ⟨source, part, target⟩ := taken
  change Step (lockingDatabase T) source part target at step
  have sound := Interleaving.sound_of_run earlier
  rcases handedOut_cases sound step with
    nothing | ⟨id, session, claim, accepted, rfl, found, isClaim, rows, each⟩
  · exact Or.inl nothing
  · have holds := (sound.sessions id session found).holds
    have locked := lockedAt_of_run earlier id session found
    rw [isClaim] at holds locked
    refine Or.inr ⟨id, session, claim, accepted, rfl, found, isClaim, ?_⟩
    rw [rows]
    refine ⟨?_, ?_, ?_, ?_⟩
    · intro raw member
      obtain ⟨version, isHeld, rfl⟩ := List.mem_map.mp member
      have due := Bool.and_eq_true_iff.mp
        (OpenClaim.due_of_test (holds.passes version isHeld))
      refine ⟨version, locked version isHeld, rfl, ?_, by simpa using due.2,
        queue_of_holds_claim holds isHeld, holds.latest version isHeld, rfl,
        (each version isHeld).2, rfl⟩
      simpa [Row.waiting] using due.1
    · rw [List.map_map]
      exact ids_nodup_of_holds holds
    · rw [List.length_map]
      exact holds.bounded
    · intro key room headroom
      rw [List.countP_map]
      exact countP_of_holds_claim holds headroom

theorem Jobs.Running.of_handedOut
    {before : List (Transition Interleaving (Part T))}
    {taken : Transition Interleaving (Part T)} {raw : RawClaimedRow}
    (batch : ExclusiveBatch before taken) (member : raw ∈ handedOut taken) :
    ¬ taken.source.table.Running raw.id ∧
      taken.target.table.Running raw.id := by
  rcases batch with empty | ⟨id, session, claim, accepted, _, _, _, each, _⟩
  · rw [empty] at member
    cases member
  · obtain ⟨version, _, _, waiting, _, _, latest, _, written, _⟩ :=
      each raw member
    constructor
    · rintro ⟨row, found, running⟩
      rw [latest] at found
      cases found
      rcases waiting with queued | awaitingRetry
      · rw [queued] at running
        cases running
      · rw [awaitingRetry] at running
        cases running
    · exact ⟨_, written, rfl⟩

/-- However the steps of any number of claims are interleaved with one another
and with those of the other statements: two claims hand out a row only if it
stopped running in between, and every row a claim hands out was waiting and due
when it was locked, is in the claim's queue and within its limits, and has one
attempt more. -/
theorem interleaved_claims_are_exclusive
    (run : Run (Step (lockingDatabase T)) (State.initial jobs) trace finish) :
    (∀ before first between second after,
      trace = before ++ first :: (between ++ second :: after) →
      ∀ raw ∈ handedOut first, ∀ later ∈ handedOut second,
        later.id = raw.id →
          ∃ taken ∈ between, taken.source.table.Running raw.id ∧
            ¬ taken.target.table.Running raw.id) ∧
    ∀ before taken after, trace = before ++ taken :: after →
      ExclusiveBatch before taken := by
  refine ⟨?_, ?_⟩
  · intro before first between second after shape raw member later
      laterMember sameId
    subst shape
    have firstBatch := exclusiveBatch_of_run run
    have regrouped : Run (Step (lockingDatabase T)) (State.initial jobs)
        ((before ++ first :: between) ++ second :: after) finish := by
      simpa using run
    have secondBatch := exclusiveBatch_of_run regrouped
    have rest : Run (Step (lockingDatabase T)) first.target
        (between ++ second :: after) finish := run.splitAt.2.2
    have running := (Jobs.Running.of_handedOut firstBatch member).2
    have notRunning := (Jobs.Running.of_handedOut secondBatch laterMember).1
    rw [sameId] at notRunning
    exact rest.splitAt.1.exists_crossing
      (fun state => state.table.Running raw.id) running notRunning
  · intro before taken after shape
    subst shape
    exact exclusiveBatch_of_run run

end Exclusive

/-! ## A claim that nobody interrupts -/

section Uninterrupted

variable {T : Type} {state : Interleaving} {id : Nat}

/-- The statement `claim_batch_raw` sends, in terms of its snapshot. -/
theorem claimStatement_of_openClaim
    (lockedElsewhere : Nat → Bool) {jobs : Jobs} {now : Int}
    {gen : Nat → Uuid} {params : ClaimParams} {claim : OpenClaim}
    (outcome : openClaim jobs now gen params = .ok claim) :
    claimStatement jobs now gen lockedElsewhere params =
      claim.update jobs (lockInOrder lockedElsewhere claim.limit
        (jobs.rows.filter claim.test)) := by
  obtain ⟨leaseMicros, queueText, interval,
    ⟨plain, rfl⟩ | ⟨keyed, accepted, rfl⟩⟩ := openClaim_cases outcome
  · simp only [claimStatement, queueText, interval, plain, if_true, bind,
      Except.bind]
    rfl
  · simp only [claimStatement, queueText, interval, keyed, bind, Except.bind,
      sqlKeyed_of_accepted accepted, Bool.false_eq_true, if_false]
    rfl

/-- The commit of a claim is the claim executed in one step if it holds what
that claim locks. -/
theorem outcome_of_lockInOrder
    (lockedElsewhere : Nat → Bool) {jobs : Jobs} {now : Int}
    {gen : Nat → Uuid} {params : ClaimParams} {claim : OpenClaim}
    (opened : openClaim jobs now gen params = .ok claim) :
    (Underway.claim claim).outcome jobs (lockInOrder lockedElsewhere
        claim.limit (jobs.rows.filter claim.test)) =
      execute (T := T) jobs now (.claim params gen lockedElsewhere) := by
  simp only [Underway.outcome, execute, claimBatchRaw,
    claimStatement_of_openClaim lockedElsewhere opened]

/-- A claim whose steps follow one another has the effect and the reply of the
claim executed in one step, with the rows locked elsewhere that other statements
have locked when it starts. -/
theorem uninterrupted_claim_is_atomic
    {now : Int} {gen : Nat → Uuid} {params : ClaimParams} {claim : OpenClaim}
    (idle : state.sessions id = none)
    (opened : openClaim state.table now gen params = .ok claim) :
    ∃ accepted trace source target,
      Run (Step (lockingDatabase T)) state
        (⟨state, .start id ⟨.claim claim, accepted⟩,
          state.start (lockingDatabase T) id ⟨.claim claim, accepted⟩⟩ ::
          (trace ++ [⟨source, .commit id, target⟩])) target ∧
      target.table =
        (execute (T := T) state.table now (.claim params gen
          fun key => (state.owner key).isSome)).1 ∧
      handedOut (T := T) ⟨source, .commit id, target⟩ =
        (execute (T := T) state.table now (.claim params gen
          fun key => (state.owner key).isSome)).2.claimedRows := by
  have accepted : (Underway.claim claim).Accepted := by
    obtain ⟨leaseMicros, queueText, interval, ⟨_, rfl⟩ | ⟨_, _, rfl⟩⟩ :=
      openClaim_cases opened
    · exact ⟨queueText, interval⟩
    · exact ⟨queueText, interval⟩
  have opens : (Underway.claim claim).Opens state.table := by
    obtain ⟨leaseMicros, _, _, ⟨_, rfl⟩ | ⟨_, _, rfl⟩⟩ :=
      openClaim_cases opened
    · exact opened
    · exact opened
  let statement : OpenStatement := ⟨.claim claim, accepted⟩
  have start : Step (lockingDatabase T) state (.start id statement)
      (state.start (lockingDatabase T) id statement) :=
    .start state id statement idle opens
  have upcoming : Session.Upcoming (lockingDatabase T) id
      (fun key => (state.owner key).isSome) (claim.candidates state.table)
      (state.start (lockingDatabase T) id statement)
      ⟨statement, state.table, (lockingDatabase T).candidates statement
        state.table, [], []⟩ :=
    { opened := Function.update_self ..
      pending := rfl
      skips := rfl
      distinct := (snapshotOf_openClaim opened).distinct
      latest := fun _ member =>
        Jobs.find_id_of_mem (OpenClaim.mem_candidates.mp member).1
      passes := fun _ member => (OpenClaim.mem_candidates.mp member).2
      owner := fun _ _ => rfl }
  obtain ⟨trace, source, final, run, sameTable, stillOpen, sameStatement,
    complete, held⟩ := exists_visits _ upcoming
  have commits : Step (lockingDatabase T) source (.commit id)
      (source.commit (lockingDatabase T) id final) :=
    .commit source id final stillOpen complete
  have inOrder : final.held = lockInOrder (fun key => (state.owner key).isSome)
      claim.limit (state.table.rows.filter claim.test) := by
    rw [held]
    rfl
  have sameTable : source.table = state.table := sameTable
  have atomic : final.statement.val.outcome source.table final.held =
      execute (T := T) state.table now (.claim params gen
        fun key => (state.owner key).isSome) := by
    rw [sameStatement, sameTable, inOrder]
    exact outcome_of_lockInOrder _ opened
  refine ⟨accepted, trace, source, _, (Run.single start).append
    (run.snoc commits), ?_, ?_⟩
  · exact congrArg Prod.fst atomic
  · rw [handedOut, reply_of_commit stillOpen, Option.elim_some, atomic]

end Uninterrupted

/-! ## Two claims at once

Two plain claims of one row each take their snapshots of the same table.  The
second finds the first row locked and takes the next one. -/

namespace TwoClaims

def params : ClaimParams where
  queue := "mail"
  batchSize := 1
  leaseTimeout := Duration.tenMicros
  maxAttempts := 2
  headroom := ∅

def claim (token : Nat) : OpenClaim where
  params := params
  now := 5
  gen := fun _ => ⟨token⟩
  leaseMicros := 10
  eligible := none

theorem accepted_params : textParam params.queue = .ok params.queue ∧
    intervalParam params.leaseTimeout = .ok 10 :=
  ⟨rfl, rfl⟩

def statement (token : Nat) : OpenStatement :=
  ⟨.claim (claim token), accepted_params⟩

def row (id : Nat) : Row :=
  KeyedTable.waitingRow id 0 (some "a")

/-- A claim that has its snapshot and the rows it has locked. -/
def session (token : Nat) (pending locked : List Nat) (held : List Row) :
    Session Jobs Nat Row OpenStatement :=
  ⟨statement token, KeyedTable.table, pending, locked, held⟩

def candidates : List Nat := (statement 1).val.candidates KeyedTable.table

def start : Interleaving := State.initial KeyedTable.table

def firstOpen : Interleaving :=
  start.start (lockingDatabase Unit) 1 (statement 1)

def bothOpen : Interleaving :=
  firstOpen.start (lockingDatabase Unit) 2 (statement 2)

def firstLocked : Interleaving :=
  bothOpen.lock (lockingDatabase Unit) 1 (session 1 candidates [] []) 1 (row 1)
    candidates.tail

def secondSkipped : Interleaving :=
  firstLocked.pass 2 (session 2 candidates [] []) candidates.tail

def secondLocked : Interleaving :=
  secondSkipped.lock (lockingDatabase Unit) 2
    (session 2 candidates.tail [] []) 2 (row 2) candidates.tail.tail

def firstDone : Interleaving :=
  secondLocked.commit (lockingDatabase Unit) 1
    (session 1 candidates.tail [1] [row 1])

def bothDone : Interleaving :=
  firstDone.commit (lockingDatabase Unit) 2
    (session 2 candidates.tail.tail [2] [row 2])

/-- The steps up to the second commit. -/
def before : List (Transition Interleaving (Part Unit)) :=
  [⟨start, .start 1 (statement 1), firstOpen⟩,
    ⟨firstOpen, .start 2 (statement 2), bothOpen⟩,
    ⟨bothOpen, .visit 1, firstLocked⟩,
    ⟨firstLocked, .visit 2, secondSkipped⟩,
    ⟨secondSkipped, .visit 2, secondLocked⟩,
    ⟨secondLocked, .commit 1, firstDone⟩]

def last : Transition Interleaving (Part Unit) :=
  ⟨firstDone, .commit 2, bothDone⟩

theorem run :
    Run (Step (lockingDatabase Unit)) (State.initial KeyedTable.table)
      (before ++ [last]) bothDone := by
  refine Run.snoc ?_ (.commit firstDone 2 _ rfl (Or.inr (Nat.le_refl 1)))
  refine Run.append (Run.single (.start start 1 (statement 1) rfl rfl)) ?_
  refine Run.append (Run.single (.start firstOpen 2 (statement 2) rfl rfl)) ?_
  refine Run.append (Run.single (.lock bothOpen 1 (session 1 candidates [] [])
    1 _ (row 1) rfl Nat.zero_lt_one rfl rfl rfl)) ?_
  refine Run.append (Run.single (.skip firstLocked 2 1
    (session 2 candidates [] []) 1 _ rfl Nat.zero_lt_one rfl rfl rfl)) ?_
  refine Run.append (Run.single (.lock secondSkipped 2
    (session 2 candidates.tail [] []) 2 _ (row 2) rfl Nat.zero_lt_one rfl rfl
    rfl)) ?_
  exact Run.single (.commit secondLocked 1 _ rfl (Or.inr (Nat.le_refl 1)))

end TwoClaims

theorem interleaved_claims_are_exclusive_on_twoClaims :
    (handedOut TwoClaims.last).map RawClaimedRow.id = [2] ∧
      ExclusiveBatch TwoClaims.before TwoClaims.last :=
  ⟨by decide,
    (interleaved_claims_are_exclusive TwoClaims.run).2 TwoClaims.before
      TwoClaims.last [] rfl⟩

end PgWorkQueue
