import PgWorkQueue.System.Fencing

/-!
# The history of a job

What happens to one row between its INSERT and its DELETE.  `RowLaw` is the law
of a single statement; `Continues` is what survives any number of statements;
`RecordsClaims` relates the counters of a row to the claims made of it.

The `idempotency_key` a handler sees is the `public_id` of the claimed row.
-/

namespace PgWorkQueue

open Library.Runs

def RawClaimedRow.idempotencyKey (raw : RawClaimedRow) : Uuid :=
  raw.publicId

/-- The columns that only the INSERT writes. -/
structure SameJob (old new : Row) : Prop where
  id : new.id = old.id
  publicId : new.publicId = old.publicId
  queue : new.queue = old.queue
  payload : new.payload = old.payload
  concurrencyKey : new.concurrencyKey = old.concurrencyKey
  createdAt : new.createdAt = old.createdAt

theorem SameJob.refl (row : Row) : SameJob row row :=
  ⟨rfl, rfl, rfl, rfl, rfl, rfl⟩

theorem SameJob.trans
    {first second third : Row} (left : SameJob first second)
    (right : SameJob second third) :
    SameJob first third where
  id := right.id.trans left.id
  publicId := right.publicId.trans left.publicId
  queue := right.queue.trans left.queue
  payload := right.payload.trans left.payload
  concurrencyKey := right.concurrencyKey.trans left.concurrencyKey
  createdAt := right.createdAt.trans left.createdAt

/-- The status changes the library makes. -/
inductive StatusEdge : JobStatus → JobStatus → Prop
  | claimQueued : StatusEdge .queued .running
  | claimAwaiting : StatusEdge .awaitingRetry .running
  | finish : StatusEdge .running .done
  | bury : StatusEdge .running .dead
  | requeue : StatusEdge .running .awaitingRetry

def JobStatus.IsTerminal (status : JobStatus) : Prop :=
  status = .done ∨ status = .dead

/-- What one statement may change in a row that it leaves in the table. -/
structure RowLaw {T : Type} (event : Event T) (id : Nat) (old new : Row) :
    Prop where
  sameJob : SameJob old new
  firstAttemptedAt : new.firstAttemptedAt = old.firstAttemptedAt ∨
    old.firstAttemptedAt = none ∧ new.firstAttemptedAt = some event.now ∧
      ∃ params gen lockedElsewhere,
        event.statement = .claim params gen lockedElsewhere
  runAt : new.runAt = old.runAt ∨
    ∃ token reason delay,
      event.statement = .mark id token (.retry reason delay) ∧
        new.runAt = event.now + retryMicros delay
  status : new.status = old.status ∨ StatusEdge old.status new.status
  frozen : old.status.IsTerminal → new = old

/-- A purge of the row's own terminal status, at a time when the row has been
finished for longer than the age asked for. -/
def PurgeDue {T : Type} (event : Event T) (old : Row) : Prop :=
  ∃ status age tie lockedElsewhere finished,
    event.statement = .purge status age tie lockedElsewhere ∧
      old.status = status.toJobStatus ∧ old.finishedAt = some finished ∧
      finished < event.now - age.asMicros

section Step

variable {T : Type}

theorem RowLaw.refl (event : Event T) (id : Nat) (row : Row) :
    RowLaw event id row row where
  sameJob := SameJob.refl row
  firstAttemptedAt := Or.inl rfl
  runAt := Or.inl rfl
  status := Or.inl rfl
  frozen := fun _ => rfl

theorem rowLaw_claimed
    {now : Int} {params : ClaimParams} {gen : Nat → Uuid}
    {lockedElsewhere : Nat → Bool} {leaseMicros maxAttempts : Int}
    {row : Row} (id : Nat) (runnable : row.runnable params.queue now = true) :
    RowLaw (T := T) ⟨now, .claim params gen lockedElsewhere⟩ id row
      (claimedRow now gen leaseMicros maxAttempts row) where
  sameJob := ⟨rfl, rfl, rfl, rfl, rfl, rfl⟩
  firstAttemptedAt := by
    cases first : row.firstAttemptedAt with
    | none =>
        exact Or.inr ⟨rfl, by simp [claimedRow, claimedVersion,
          setUpdatedAt, first], params, gen, lockedElsewhere, rfl⟩
    | some value =>
        exact Or.inl (by simp [claimedRow, claimedVersion, setUpdatedAt,
          first])
  runAt := Or.inl rfl
  status := by
    right
    rcases (Row.runnable_iff.mp runnable).2.1 with queued | awaitingRetry
    · rw [queued]
      exact .claimQueued
    · rw [awaitingRetry]
      exact .claimAwaiting
  frozen := by
    intro terminal
    have waiting := (Row.runnable_iff.mp runnable).2.1
    rcases terminal with isDone | isDead
    · simp [isDone] at waiting
    · simp [isDead] at waiting

theorem not_isTerminal_of_running
    {row : Row} (running : row.status = .running) :
    ¬ row.status.IsTerminal := by
  rw [running]
  rintro (isDone | isDead)
  · cases isDone
  · cases isDead

theorem rowLaw_marked
    {now : Int} {token : Uuid} {mark : Mark} {row : Row} (id : Nat)
    (running : row.status = .running) :
    RowLaw (T := T) ⟨now, .mark id token mark⟩ id row
      (mark.markedRow now row) where
  sameJob := by
    cases mark <;> exact ⟨rfl, rfl, rfl, rfl, rfl, rfl⟩
  firstAttemptedAt := by
    cases mark <;> exact Or.inl rfl
  runAt := by
    cases mark with
    | done => exact Or.inl rfl
    | dead reason => exact Or.inl rfl
    | retry reason delay =>
        exact Or.inr ⟨token, reason, delay, rfl, rfl⟩
  status := by
    rw [running]
    cases mark with
    | done => exact Or.inr .finish
    | dead reason => exact Or.inr .bury
    | retry reason delay => exact Or.inr .requeue
  frozen := fun terminal => (not_isTerminal_of_running running terminal).elim

theorem rowLaw_reaped
    {event : Event T} {row : Row} (id : Nat)
    (running : row.status = .running) :
    RowLaw event id row (reapedRow event.now row) where
  sameJob := ⟨rfl, rfl, rfl, rfl, rfl, rfl⟩
  firstAttemptedAt := Or.inl rfl
  runAt := Or.inl rfl
  status := by
    rw [running, reapedRow_status]
    split
    · exact Or.inr .bury
    · exact Or.inr .requeue
  frozen := fun terminal => (not_isTerminal_of_running running terminal).elim

/-- One statement changes a row within the law, or purges it. -/
theorem rowLaw_of_step
    {state : DbState} {id : Nat} {old : Row} (event : Event T)
    (found : state.jobs.find id = some old) :
    (∃ new, (state.after event).jobs.find id = some new ∧
        RowLaw event id old new) ∨
      (state.after event).jobs.find id = none ∧ PurgeDue event old := by
  obtain ⟨now, statement⟩ := event
  cases state.rowEffect now statement id with
  | same _ unchanged =>
      exact Or.inl ⟨old, unchanged.trans found, RowLaw.refl _ id old⟩
  | inserted _ _ _ fresh _ _ _ _ =>
      exact (fresh.not_gt (Jobs.lt_nextId_of_find found)).elim
  | claimed _ _ _ row _ before runnable _ _ _ after =>
      rw [before] at found
      cases found
      exact Or.inl ⟨_, after, rowLaw_claimed id runnable⟩
  | marked _ _ row before running _ _ after =>
      rw [before] at found
      cases found
      exact Or.inl ⟨_, after, rowLaw_marked id running⟩
  | reaped _ _ _ _ row before stale after =>
      rw [before] at found
      cases found
      exact Or.inl ⟨_, after, rowLaw_reaped id (Row.stale_iff.mp stale).2.1⟩
  | purged status age tie lockedElsewhere row finished before terminal
      finishedAt due after =>
      rw [before] at found
      cases found
      exact Or.inr ⟨after, status, age, tie, lockedElsewhere, finished, rfl,
        terminal, finishedAt, due⟩

end Step

/-! ## Between two states of a run -/

/-- What survives every later statement. -/
structure Continues (old new : Row) : Prop where
  sameJob : SameJob old new
  firstAttemptedAt : ∀ first, old.firstAttemptedAt = some first →
    new.firstAttemptedAt = some first
  frozen : old.status.IsTerminal → new = old

section Run

variable {T : Type} {id : Nat}

theorem Continues.step
    {event : Event T} {old middle new : Row}
    (continues : Continues old middle) (law : RowLaw event id middle new) :
    Continues old new where
  sameJob := continues.sameJob.trans law.sameJob
  firstAttemptedAt := by
    intro first set
    have kept := continues.firstAttemptedAt first set
    rcases law.firstAttemptedAt with same | ⟨unset, _⟩
    · exact same.trans kept
    · rw [kept] at unset
      cases unset
  frozen := by
    intro terminal
    have same := continues.frozen terminal
    subst same
    exact law.frozen terminal

/-- A row that has left the table does not come back. -/
theorem absent_step
    {state : DbState} (event : Event T)
    (absent : state.jobs.find id = none) (drawn : id < state.jobs.nextId) :
    (state.after event).jobs.find id = none := by
  cases found : (state.after event).jobs.find id with
  | none =>
      rfl
  | some row =>
      obtain ⟨_, _, _, fresh, _⟩ :=
        DbState.exists_insert_of_absent absent found
      omega

theorem continues_of_run
    {trace : List (Transition DbState (Event T))} {start finish : DbState}
    {old new : Row} (run : Run (DbState.Step T) start trace finish)
    (found : start.jobs.find id = some old)
    (still : finish.jobs.find id = some new) :
    Continues old new := by
  have tracked := run.invariant
    (fun state => id < state.jobs.nextId ∧
      ∀ new, state.jobs.find id = some new → Continues old new)
    (by
      refine ⟨Jobs.lt_nextId_of_find found, ?_⟩
      intro same sameFound
      rw [found] at sameFound
      cases sameFound
      exact ⟨SameJob.refl old, fun _ set => set, fun _ => rfl⟩)
    (by
      rintro source event _ ⟨drawn, continues⟩ ⟨_, rfl⟩
      refine ⟨drawn.trans_le (nextId_le_execute _ _ _), ?_⟩
      intro next nextFound
      cases before : source.jobs.find id with
      | none =>
          rw [absent_step event before drawn] at nextFound
          cases nextFound
      | some middle =>
          rcases rowLaw_of_step event before with
            ⟨_, after, law⟩ | ⟨gone, _⟩
          · rw [after] at nextFound
            cases nextFound
            exact (continues middle before).step law
          · rw [gone] at nextFound
            cases nextFound)
  exact tracked.2 new still

end Run

/-! ## Counting claims -/

section Claims

variable {T : Type}

/-- The claims of the row `id` in a run, in order, each with its time. -/
def claimHistory (history : List (Transition DbState (Event T)))
    (id : Nat) : List (Int × RawClaimedRow) :=
  history.flatMap fun taken =>
    ((DbState.claimsOf taken).filter fun raw => raw.id == id).map
      fun raw => (taken.label.now, raw)

/-- The claims of one row carry the numbers 1, 2, 3, … and one key. -/
structure Numbered (claims : List (Int × RawClaimedRow)) : Prop where
  attempts : claims.map (fun claim => claim.2.attempts) =
    List.range' 1 claims.length
  oneKey : ∀ first ∈ claims, ∀ second ∈ claims,
    first.2.idempotencyKey = second.2.idempotencyKey

/-- The counters of a row record the claims made of it. -/
structure RecordsClaims (claims : List (Int × RawClaimedRow)) (row : Row) :
    Prop where
  attempts : row.attempts = claims.length
  firstAttemptedAt : row.firstAttemptedAt = claims.head?.map Prod.fst
  key : ∀ claim ∈ claims, claim.2.idempotencyKey = row.publicId

variable {history : List (Transition DbState (Event T))} {id : Nat}
  {taken : Transition DbState (Event T)}

theorem claimHistory_snoc_of_no_claim
    (noClaim : ∀ raw ∈ DbState.claimsOf taken, raw.id ≠ id) :
    claimHistory (history ++ [taken]) id = claimHistory history id := by
  have noneLeft : ((DbState.claimsOf taken).filter fun raw =>
      raw.id == id) = [] := by
    rw [List.filter_eq_nil_iff]
    intro raw member
    simpa using noClaim raw member
  simp [claimHistory, noneLeft]

theorem claimHistory_snoc_of_claim
    {raw : RawClaimedRow} (member : raw ∈ DbState.claimsOf taken)
    (sameId : raw.id = id) :
    claimHistory (history ++ [taken]) id =
      claimHistory history id ++ [(taken.label.now, raw)] := by
  subst sameId
  have only : ((DbState.claimsOf taken).filter fun other =>
      other.id == raw.id) = [raw] :=
    DbState.filter_claimedRows_eq_singleton member
  simp [claimHistory, only]

theorem RecordsClaims.of_same_counters
    {claims : List (Int × RawClaimedRow)} {old new : Row}
    (records : RecordsClaims claims old)
    (attempts : new.attempts = old.attempts)
    (firstAttemptedAt : new.firstAttemptedAt = old.firstAttemptedAt)
    (publicId : new.publicId = old.publicId) :
    RecordsClaims claims new where
  attempts := attempts.trans records.attempts
  firstAttemptedAt := firstAttemptedAt.trans records.firstAttemptedAt
  key := fun claim member => (records.key claim member).trans publicId.symm

/-- A claim adds itself to the record of the row, under the next number. -/
theorem RecordsClaims.claimed
    {claims : List (Int × RawClaimedRow)} {row : Row}
    (records : RecordsClaims claims row) (now : Int) (gen : Nat → Uuid)
    (leaseMicros maxAttempts : Int) :
    RecordsClaims
      (claims ++ [(now, claimedRaw now gen leaseMicros maxAttempts row)])
      (claimedRow now gen leaseMicros maxAttempts row) where
  attempts := by
    change row.attempts + 1 = _
    rw [records.attempts, List.length_append]
    rfl
  firstAttemptedAt := by
    change some (row.firstAttemptedAt.getD now) = _
    rw [records.firstAttemptedAt]
    cases claims with
    | nil => rfl
    | cons first rest => rfl
  key := by
    intro claim member
    rcases List.mem_append.mp member with earlier | latest
    · exact records.key claim earlier
    · rw [List.mem_singleton.mp latest]
      rfl

theorem Numbered.claimed
    {claims : List (Int × RawClaimedRow)} {row : Row}
    (numbered : Numbered claims) (records : RecordsClaims claims row)
    (now : Int) (gen : Nat → Uuid) (leaseMicros maxAttempts : Int) :
    Numbered
      (claims ++
        [(now, claimedRaw now gen leaseMicros maxAttempts row)]) where
  attempts := by
    have next : (claimedRaw now gen leaseMicros maxAttempts row).attempts =
        1 + claims.length := by
      change (row.attempts + 1).toNat = 1 + claims.length
      rw [records.attempts]
      omega
    rw [List.map_append, numbered.attempts, List.length_append,
      List.length_singleton, List.range'_concat]
    simp [next]
  oneKey := by
    have key := (records.claimed now gen leaseMicros maxAttempts).key
    intro first firstMember second secondMember
    exact (key first firstMember).trans (key second secondMember).symm

/-- The counters of every row, and the claims of every `id`. -/
structure ClaimsRecorded (history : List (Transition DbState (Event T)))
    (state : DbState) : Prop where
  numbered : ∀ id, Numbered (claimHistory history id)
  recorded : ∀ id row, state.jobs.find id = some row →
    RecordsClaims (claimHistory history id) row
  fresh : ∀ id, state.jobs.nextId ≤ id → claimHistory history id = []

private theorem ClaimsRecorded.step_row
    {state : DbState} (recorded : ClaimsRecorded history state)
    (event : Event T) (id : Nat) :
    let claims :=
      claimHistory (history ++ [⟨state, event, state.after event⟩]) id
    Numbered claims ∧
      ∀ row, (state.after event).jobs.find id = some row →
        RecordsClaims claims row := by
  intro claims
  obtain ⟨now, statement⟩ := event
  -- unless the statement claims the row, its claims stay what they were
  have unclaimed (noClaim : ∀ raw ∈
      (state.reply ⟨now, statement⟩).claimedRows, raw.id ≠ id) :
      claims = claimHistory history id :=
    claimHistory_snoc_of_no_claim noClaim
  cases state.rowEffect now statement id with
  | same _ unchanged =>
      rw [unclaimed (DbState.no_claim_of_unchanged unchanged), unchanged]
      exact ⟨recorded.numbered id, recorded.recorded id⟩
  | inserted _ new _ fresh _ _ _ after =>
      rw [unclaimed (DbState.no_claim_of_absent
          (Jobs.find_eq_none_of_nextId_le fresh)),
        recorded.fresh id fresh, after]
      refine ⟨⟨rfl, by simp⟩, ?_⟩
      intro row found
      cases found
      exact ⟨rfl, rfl, by simp⟩
  | claimed params gen lockedElsewhere row leaseMicros before _ _ _
      returned after =>
      have extended : claims = claimHistory history id ++
          [(now, claimedRaw now gen leaseMicros
            (min params.maxAttempts i32Max : Nat) row)] :=
        claimHistory_snoc_of_claim returned (Jobs.id_of_find before)
      have records := recorded.recorded id row before
      rw [extended, after]
      refine ⟨(recorded.numbered id).claimed records _ _ _ _, ?_⟩
      intro new found
      cases found
      exact records.claimed _ _ _ _
  | marked token mark row before running _ _ after =>
      rw [unclaimed (DbState.no_claim_of_not_waiting before
        (by simp [Row.waiting, running])), after]
      refine ⟨recorded.numbered id, ?_⟩
      intro new found
      cases found
      apply (recorded.recorded id row before).of_same_counters
      · cases mark <;> rfl
      · cases mark <;> rfl
      · cases mark <;> rfl
  | reaped _ _ _ _ row before stale after =>
      have running := (Row.stale_iff.mp stale).2.1
      rw [unclaimed (DbState.no_claim_of_not_waiting before
        (by simp [Row.waiting, running])), after]
      refine ⟨recorded.numbered id, ?_⟩
      intro new found
      cases found
      exact (recorded.recorded id row before).of_same_counters rfl rfl rfl
  | purged status _ _ _ row _ before terminal _ _ after =>
      have notWaiting : row.waiting = false := by
        rw [Row.waiting, terminal]
        cases status <;> rfl
      rw [unclaimed (DbState.no_claim_of_not_waiting before notWaiting),
        after]
      refine ⟨recorded.numbered id, ?_⟩
      intro row found
      cases found

theorem ClaimsRecorded.step
    {state : DbState} (recorded : ClaimsRecorded history state)
    (event : Event T) :
    ClaimsRecorded (history ++ [⟨state, event, state.after event⟩])
      (state.after event) where
  numbered := fun id => (recorded.step_row event id).1
  recorded := fun id => (recorded.step_row event id).2
  fresh := by
    intro id fresh
    have earlier : state.jobs.nextId ≤ id :=
      (nextId_le_execute _ _ _).trans fresh
    rw [claimHistory_snoc_of_no_claim (DbState.no_claim_of_absent
      (Jobs.find_eq_none_of_nextId_le earlier))]
    exact recorded.fresh id earlier

theorem claimsRecorded_of_run
    {clock : Int} {finish : DbState}
    (run : Run (DbState.Step T) (DbState.initial clock) history finish) :
    ClaimsRecorded history finish := by
  refine run.historyInvariant ClaimsRecorded ?_ ?_
  · exact
      { numbered := fun _ => ⟨rfl, fun _ member => nomatch member⟩
        recorded := fun _ _ found => nomatch found
        fresh := fun _ _ => rfl }
  · rintro earlier source event _ _ recorded ⟨_, rfl⟩
    exact recorded.step event

end Claims

/-! ## Every run -/

/-- Every statement of a run treats every row by `RowLaw`, or purges it when
its time has come; rows are claimed no earlier than their `run_at`; what is
fixed stays fixed to the end of the run; and the claims of a row are numbered
1, 2, 3, … under one key, with `attempts` their number and `first_attempted_at`
the time of the first. -/
theorem jobs_keep_their_history
    {T : Type} {clock : Int}
    {trace : List (Transition DbState (Event T))} {finish : DbState}
    (run : Run (DbState.Step T) (DbState.initial clock) trace finish) :
    (∀ taken ∈ trace, ∀ id old, taken.source.jobs.find id = some old →
      (∃ new, taken.target.jobs.find id = some new ∧
          RowLaw taken.label id old new) ∨
        taken.target.jobs.find id = none ∧ PurgeDue taken.label old) ∧
      (∀ taken ∈ trace, ∀ raw ∈ DbState.claimsOf taken,
        ∃ row, taken.source.jobs.find raw.id = some row ∧
          row.runAt ≤ taken.label.now) ∧
      (∀ taken ∈ trace, ∀ id old new,
        taken.target.jobs.find id = some old →
          finish.jobs.find id = some new → Continues old new) ∧
      (∀ id, Numbered (claimHistory trace id)) ∧
      ∀ id row, finish.jobs.find id = some row →
        RecordsClaims (claimHistory trace id) row := by
  have recorded := claimsRecorded_of_run run
  refine ⟨?_, ?_, ?_, recorded.numbered, recorded.recorded⟩
  · intro taken member id old found
    obtain ⟨_, _, _, next⟩ := run.reaches_source member
    rw [next]
    exact rowLaw_of_step taken.label found
  · intro taken member raw returned
    obtain ⟨params, _, _, row, _, _, before, runnable, _⟩ :=
      (claimedRows_spec taken.source.jobs taken.label.now
        taken.label.statement).2 raw returned
    exact ⟨row, before, (Row.runnable_iff.mp runnable).2.2⟩
  · intro taken member id old new found still
    obtain ⟨earlier, later, rfl⟩ := List.mem_iff_append.mp member
    exact continues_of_run run.splitAt.2.2 found still

theorem jobs_keep_their_history_on_lateMark :
    (claimHistory ((DbState.initial 0).transitions LateMark.events) 1).map
        (fun claim => (claim.1, claim.2.attempts)) = [(1, 1), (21, 2)] ∧
      ∀ row, ((DbState.initial 0).afterAll LateMark.events).jobs.find 1 =
          some row →
        RecordsClaims
          (claimHistory ((DbState.initial 0).transitions LateMark.events) 1)
          row :=
  ⟨by decide, (jobs_keep_their_history LateMark.run).2.2.2.2 1⟩

end PgWorkQueue
