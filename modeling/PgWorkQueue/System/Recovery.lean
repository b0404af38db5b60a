import PgWorkQueue.System.RetryBudget

/-!
# No job is ever stuck

From every reachable table one reap and one plain claim, executed late enough,
bring every live row of a queue back under a fresh lease or bury it.  Both
statements are shown to succeed: the CHECKs hold by `DbState.Consistent`, the
counters do not overflow by `DbState.WithinBudget`, and a queue that holds rows
has a name that Postgres accepts as a parameter.
-/

namespace PgWorkQueue

open Library.Runs

section Recovery

variable {T : Type} {fleet : Set Nat} {limit : Nat} {clock : Int}
  {trace : List (Transition DbState (Event T))} {state finish : DbState}

/-- Every stored row came in with a queue name that Postgres accepted. -/
theorem queueText_of_run
    (run : Run (DbState.Step T) (DbState.initial clock) trace finish) :
    ∀ id row, finish.jobs.find id = some row →
      textParam row.queue = .ok row.queue := by
  refine run.invariant
    (fun state => ∀ id row, state.jobs.find id = some row →
      textParam row.queue = .ok row.queue) ?_ ?_
  · exact fun _ _ found => nomatch found
  · rintro source event _ queueText ⟨_, rfl⟩ id row found
    cases before : source.jobs.find id with
    | some old =>
        rcases rowLaw_of_step event before with ⟨new, after, law⟩ | ⟨gone, _⟩
        · rw [after] at found
          cases found
          rw [law.sameJob.queue]
          exact queueText id old before
        · rw [gone] at found
          cases found
    | none =>
        obtain ⟨new, rfl, _, _, accepted⟩ :=
          DbState.exists_insert_of_absent before found
        exact accepted

/-- In a consistent state a reap succeeds. -/
theorem exists_reap_eq_ok
    {now : Int} {queue : String} (batchLimit : Nat) (tie : Nat → Nat)
    (lockedElsewhere : Nat → Bool)
    (consistent : state.Consistent) (later : state.clock ≤ now)
    (queueText : textParam queue = .ok queue) :
    ∃ updated reaped,
      reap state.jobs now tie lockedElsewhere queue batchLimit =
        .ok (updated, reaped) := by
  cases result : reap state.jobs now tie lockedElsewhere queue batchLimit with
  | ok reply =>
      exact ⟨reply.1, reply.2, rfl⟩
  | error failure =>
      have accepted : ¬ '\x00' ∈ queue.toList := by
        intro refused
        rw [textParam, if_pos refused] at queueText
        cases queueText
      rcases reap_eq_error result with
        ⟨refused, _⟩ | ⟨row, stored, stale, violates⟩
      · exact (accepted refused).elim
      · exact (violates ((consistent row.id row
          (Jobs.find_id_of_mem stored)).reaped later
            (Row.stale_iff.mp stale).2.1).passes).elim

/-- A reap hands on a state with the same guarantees. -/
theorem state_after_reap
    {updated : Jobs} {reaped : List ReapedRow} {now : Int} {queue : String}
    {batchLimit : Nat} {tie : Nat → Nat} {lockedElsewhere : Nat → Bool}
    (consistent : state.Consistent) (fenced : state.Fenced)
    (within : state.WithinBudget i32Max) (later : state.clock ≤ now)
    (outcome : reap state.jobs now tie lockedElsewhere queue batchLimit =
      .ok (updated, reaped)) :
    ∃ next : DbState, next.jobs = updated ∧ next.clock = now ∧
      next.Consistent ∧ next.WithinBudget i32Max := by
  let event : Event Unit :=
    ⟨now, .reap queue batchLimit tie lockedElsewhere⟩
  have noRows : (state.reply event).claimedRows = [] := by
    rw [List.eq_nil_iff_forall_not_mem]
    intro raw member
    obtain ⟨_, _, _, _, _, isClaim, _⟩ :=
      (claimedRows_spec state.jobs now event.statement).2 raw member
    cases isClaim
  have admissible : state.FleetAdmissible {1} event :=
    { clock := later
      budget := fun _ _ _ isClaim => nomatch isClaim
      issued := fun _ _ _ isMark => nomatch isMark
      freshTokens := by
        rw [noRows, List.append_nil]
        exact fenced.distinct }
  refine ⟨state.after event, ?_, rfl, ?_, ?_⟩
  · change (execute state.jobs now event.statement).1 = updated
    simp only [event, execute, outcome, commitOr]
  · exact consistent.step (admissible.admissible (by simp))
  · exact within.step fenced (by decide) (fun _ _ => Nat.min_le_right _ _)
      admissible

/-- A covering plain claim succeeds and takes every runnable row. -/
theorem plain_claim_takes_runnable
    {now leaseMicros : Int} {gen : Nat → Uuid} {params : ClaimParams}
    (consistent : state.Consistent) (within : state.WithinBudget i32Max)
    (later : state.clock ≤ now) (plain : params.headroom = ∅)
    (queueText : textParam params.queue = .ok params.queue)
    (interval : intervalParam params.leaseTimeout = .ok leaseMicros)
    (inRange : timestampInRange (now + leaseMicros) = true)
    (covers : (state.jobs.rows.filter
      (Row.runnable params.queue now)).length ≤
        min params.batchSize i32Max) :
    ∃ updated raws,
      claimBatchRaw state.jobs now gen (fun _ => false) params =
        .ok (updated, raws) ∧
      ∀ id row, state.jobs.find id = some row →
        (row.runnable params.queue now = true →
          ∃ final, updated.find id = some final ∧
            final.status = .running ∧ final.leaseToken = some (gen id)) ∧
        (row.runnable params.queue now = false →
          updated.find id = some row) := by
  have empty : params.headroom.entries.isEmpty = true := by
    rw [plain]
    rfl
  obtain ⟨updated, raws, outcome, chosen, others⟩ :=
    claimBatchRaw_plain gen (fun _ => false) empty queueText interval
      inRange
      (by
        intro row stored runnable
        have room := (within row.id row (Jobs.find_id_of_mem stored)).waiting
          (Row.waiting_of_runnable runnable)
        omega)
      (fun row stored runnable => ((consistent row.id row
        (Jobs.find_id_of_mem stored)).claimed later
          (Row.waiting_of_runnable runnable) gen leaseMicros _).passes)
  refine ⟨updated, raws, outcome, ?_⟩
  intro id row found
  refine ⟨?_, others id row found⟩
  intro runnable
  obtain ⟨stored, sameId⟩ := Jobs.find_eq_some_iff.mp found
  have taken : row ∈ claimedCte state.jobs now (fun _ => false) params.queue
      (min params.batchSize i32Max) :=
    mem_lockInOrder_of_covers (List.mem_filter.mpr ⟨stored, runnable⟩)
      (fun _ => rfl) covers
  have after := chosen row taken
  subst sameId
  exact ⟨_, after, rfl, rfl⟩

/-- A status from which a job still has to be brought to an end. -/
def JobStatus.IsLive (status : JobStatus) : Prop :=
  status = .queued ∨ status = .awaitingRetry ∨ status = .running

/-- The instant from which on a row is due and its lease, if any, has run
out. -/
def Row.recoverableFrom (clock : Int) (row : Row) : Int :=
  row.leaseExpiresAt.elim (max clock row.runAt)
    fun expiry => max (max clock row.runAt) (expiry + 1)

theorem Row.le_recoverableFrom (clock : Int) (row : Row) :
    clock ≤ row.recoverableFrom clock ∧ row.runAt ≤ row.recoverableFrom clock ∧
      ∀ expiry, row.leaseExpiresAt = some expiry →
        expiry < row.recoverableFrom clock := by
  unfold Row.recoverableFrom
  cases row.leaseExpiresAt with
  | none =>
      refine ⟨le_max_left _ _, le_max_right _ _, ?_⟩
      intro expiry absent
      cases absent
  | some lease =>
      rw [Option.elim_some]
      refine ⟨by omega, by omega, ?_⟩
      intro expiry same
      cases same
      omega

/-- What a covering reap leaves of a live row once its lease has run out: the
row is dead, or it waits with the `run_at` it had. -/
theorem live_row_after_reap
    {jobs updated : Jobs} {now : Int} {tie : Nat → Nat} {batchLimit : Nat}
    {reaped : List ReapedRow} {id : Nat} {row : Row}
    (passes : row.PassesChecks) (found : jobs.find id = some row)
    (live : row.status.IsLive)
    (expired : ∀ expiry, row.leaseExpiresAt = some expiry → expiry < now)
    (covers : (jobs.rows.filter (Row.stale row.queue now)).length ≤
      min batchLimit i32Max)
    (outcome : reap jobs now tie (fun _ => false) row.queue batchLimit =
      .ok (updated, reaped)) :
    ∃ middle, updated.find id = some middle ∧
      (middle.status = .dead ∨
        middle.waiting = true ∧ middle.queue = row.queue ∧
          middle.runAt = row.runAt) := by
  obtain ⟨eachStale, others, _⟩ := reap_spec outcome
  have stored := (Jobs.find_eq_some_iff.mp found).1
  have sameId := Jobs.id_of_find found
  by_cases running : row.status = .running
  · obtain ⟨_, _, _, _, _, expiry, leased⟩ :=
      (jobsStatusInvariants_running running).mp
        (passes .jobsStatusInvariants)
    have isStale : row.stale row.queue now = true := by
      rw [Row.stale_iff]
      exact ⟨rfl, running, expiry, leased, expired expiry leased⟩
    have chosen : row ∈ staleCte jobs now tie (fun _ => false) row.queue
        (min batchLimit i32Max) :=
      mem_lockByTime_of_covers (List.mem_filter.mpr ⟨stored, isStale⟩)
        (fun _ => rfl) covers
    have after := (eachStale row chosen).2
    rw [sameId] at after
    refine ⟨_, after, ?_⟩
    rw [reapedRow_status]
    split
    · exact Or.inl rfl
    · rename_i notExhausted
      refine Or.inr ⟨?_, rfl, rfl⟩
      simp [Row.waiting, reapedRow_status, notExhausted]
  · have untouched : id ∉ (staleCte jobs now tie (fun _ => false) row.queue
        (min batchLimit i32Max)).map Row.id := by
      intro listed
      obtain ⟨other, member, otherId⟩ := List.mem_map.mp listed
      obtain ⟨otherStored, otherStale⟩ := mem_of_mem_staleCte member
      have same : other = row := Jobs.eq_of_id_eq otherStored stored
        (otherId.trans sameId.symm)
      rw [same] at otherStale
      exact running (Row.stale_iff.mp otherStale).2.1
    refine ⟨row, (others id untouched).trans found, Or.inr ⟨?_, rfl, rfl⟩⟩
    rcases live with queued | awaitingRetry | isRunning
    · simp [Row.waiting, queued]
    · simp [Row.waiting, awaitingRetry]
    · exact (running isRunning).elim

/-- From `earliest` on, a covering reap of the row's queue and a covering plain
claim after it succeed, and leave the row dead or running under a token that no
claim drew before. -/
def Recovers (state : DbState) (id : Nat) (row : Row) (earliest : Int) :
    Prop :=
  ∀ reapAt claimAt, earliest ≤ reapAt → reapAt ≤ claimAt →
    ∀ tie batchLimit params gen leaseMicros,
      params.queue = row.queue → params.headroom = ∅ →
      intervalParam params.leaseTimeout = .ok leaseMicros →
      timestampInRange (claimAt + leaseMicros) = true →
      (∀ raw ∈ state.returned, raw.leaseToken ≠ gen id) →
      (state.jobs.rows.filter (Row.stale row.queue reapAt)).length ≤
        min batchLimit i32Max →
      ∃ reapedJobs reaped,
        reap state.jobs reapAt tie (fun _ => false) row.queue batchLimit =
          .ok (reapedJobs, reaped) ∧
        ((reapedJobs.rows.filter (Row.runnable row.queue claimAt)).length ≤
            min params.batchSize i32Max →
          ∃ claimedJobs raws,
            claimBatchRaw reapedJobs claimAt gen (fun _ => false) params =
              .ok (claimedJobs, raws) ∧
            ∃ final, claimedJobs.find id = some final ∧
              (final.status = .dead ∨
                final.status = .running ∧ ∃ token,
                  final.leaseToken = some token ∧
                  ∀ raw ∈ state.returned, raw.leaseToken ≠ token))

/-- Every live row of every reachable table can be recovered as soon as it is
due and its lease has run out. -/
theorem no_job_is_stuck
    {id : Nat} {row : Row}
    (accepted : ∀ budget ∈ fleet, 1 ≤ budget ∧ budget ≤ u32Max)
    (run : Run (DbState.FleetStep T fleet) (DbState.initial clock) trace
      finish)
    (found : finish.jobs.find id = some row) (live : row.status.IsLive) :
    Recovers finish id row (row.recoverableFrom finish.clock) := by
  have positive : ∀ budget ∈ fleet, 1 ≤ budget := fun budget member =>
    (accepted budget member).1
  have plainRun := DbState.run_of_fleetRun positive run
  have consistent := consistent_of_run plainRun
  have fenced := DbState.fenced_of_run plainRun
  have within : finish.WithinBudget i32Max :=
    (budgetKept_of_run positive (fun budget _ => Nat.min_le_right _ _)
      (by decide) run).within
  have queueText := queueText_of_run plainRun id row found
  obtain ⟨afterClock, afterRunAt, afterLease⟩ :=
    row.le_recoverableFrom finish.clock
  intro reapAt claimAt late ordered tie batchLimit params gen leaseMicros
    sameQueue plain interval inRange fresh reapCovers
  have later : finish.clock ≤ reapAt := by omega
  have expired : ∀ expiry, row.leaseExpiresAt = some expiry →
      expiry < reapAt := by
    intro expiry leased
    exact lt_of_lt_of_le (afterLease expiry leased) late
  obtain ⟨reapedJobs, reaped, reapOk⟩ := exists_reap_eq_ok batchLimit tie
    (fun _ => false) consistent later queueText
  refine ⟨reapedJobs, reaped, reapOk, ?_⟩
  intro claimCovers
  obtain ⟨next, rfl, sameClock, nextConsistent, nextWithin⟩ :=
    state_after_reap consistent fenced within later reapOk
  rw [← sameQueue] at queueText claimCovers
  obtain ⟨claimedJobs, raws, claimOk, each⟩ :=
    plain_claim_takes_runnable nextConsistent nextWithin
      (sameClock.le.trans ordered) plain queueText interval inRange
      claimCovers
  refine ⟨claimedJobs, raws, claimOk, ?_⟩
  obtain ⟨middle, middleFound, dead | ⟨waiting, middleQueue, middleRunAt⟩⟩ :=
    live_row_after_reap (consistent id row found).passes found live expired
      reapCovers reapOk
  · have notRunnable : middle.runnable params.queue claimAt = false := by
      simp [Row.runnable, Row.due, Row.waiting, dead]
    exact ⟨middle, (each id middle middleFound).2 notRunnable, Or.inl dead⟩
  · have runnable : middle.runnable params.queue claimAt = true := by
      have due : middle.runAt ≤ claimAt := by omega
      simp [Row.runnable, Row.due, waiting, middleQueue, sameQueue, due]
    obtain ⟨final, after, running, token⟩ :=
      (each id middle middleFound).1 runnable
    exact ⟨final, after, Or.inr ⟨running, gen id, token, fresh⟩⟩

namespace LateMark

/-- The claim has been executed, and its lease is held until time 11. -/
def held : DbState := (DbState.initial 0).afterAll (events.take 2)

def heldRow : Row where
  id := 1
  publicId := ⟨7⟩
  queue := "mail"
  payload := []
  status := .running
  attempts := 1
  maxAttempts := 2
  leaseToken := some ⟨1⟩
  leaseExpiresAt := some 11
  lastError := none
  lastAttemptedAt := some 1
  firstAttemptedAt := some 1
  finishedAt := none
  runAt := 0
  createdAt := 0
  updatedAt := 1
  concurrencyKey := none

end LateMark

/-- A reap at time 12 and a claim at time 13 bring the row back under a new
token. -/
theorem no_job_is_stuck_in_lateMark :
    LateMark.heldRow.recoverableFrom LateMark.held.clock = 12 ∧
      ∃ reapedJobs reaped claimedJobs raws final,
        reap LateMark.held.jobs 12 id (fun _ => false) "mail" 1024 =
          .ok (reapedJobs, reaped) ∧
        claimBatchRaw reapedJobs 13 (fun _ => ⟨9⟩) (fun _ => false)
          LateMark.params = .ok (claimedJobs, raws) ∧
        claimedJobs.find 1 = some final ∧
        (final.status = .dead ∨
          final.status = .running ∧ ∃ token,
            final.leaseToken = some token ∧
            ∀ raw ∈ LateMark.held.returned, raw.leaseToken ≠ token) := by
  have all := lateMark_fleetAllowed
  have firstTwo : DbState.AllAllowed (DbState.FleetAdmissible {2})
      (DbState.initial 0) (LateMark.events.take 2) :=
    ⟨all.1, all.2.1, trivial⟩
  have accepted : ∀ budget ∈ ({2} : Set Nat),
      1 ≤ budget ∧ budget ≤ u32Max := by
    intro budget member
    have isTwo : budget = 2 := member
    rw [isTwo]
    decide
  have running : JobStatus.running.IsLive := Or.inr (Or.inr rfl)
  have found : LateMark.held.jobs.find 1 = some LateMark.heldRow := rfl
  have recovers := no_job_is_stuck accepted
    (DbState.run_of_allAllowed firstTwo) found running
  have fresh : ∀ raw ∈ LateMark.held.returned, raw.leaseToken ≠ ⟨9⟩ := by
    decide
  obtain ⟨reapedJobs, reaped, reapOk, claims⟩ := recovers 12 13 (by decide)
    (by decide) id 1024 LateMark.params (fun _ => ⟨9⟩) 10 rfl rfl rfl
    (by decide) fresh (by decide)
  have covers : (reapedJobs.rows.filter
      (Row.runnable "mail" 13)).length ≤ min LateMark.params.batchSize i32Max := by
    cases reapOk
    decide
  obtain ⟨claimedJobs, raws, claimOk, final, after, outcome⟩ := claims covers
  exact ⟨by decide, reapedJobs, reaped, claimedJobs, raws, final, reapOk,
    claimOk, after, outcome⟩

end Recovery

end PgWorkQueue
