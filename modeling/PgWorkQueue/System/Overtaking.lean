import PgWorkQueue.Client.Binding
import PgWorkQueue.Client.KeyedClaim
import PgWorkQueue.System.RetryBudget

/-!
# Who overtakes a waiting job

A claim takes rows in the order of `run_at` and `id`, among rows that it ranks
together: rows of one key, and all rows whose key it does not cap.  Rows get a
new `run_at` in two ways, by an INSERT and by `mark_retry`, and neither puts it
before the `now()` of its statement.  So a job that is overdue is overtaken only
by jobs that were ahead of it already, and by each of them no more often than
the retry budget allows.  This rests on the clock of `Admissible`: a `push` in a
transaction that began before the job fell due may still get ahead of it.
-/

namespace PgWorkQueue

open Library.Runs Library.CappedScan

/-! ## One claim -/

section Claim

variable {jobs updated : Jobs} {now : Int} {gen : Nat → Uuid}
  {lockedElsewhere : Nat → Bool} {params : ClaimParams}
  {raws : List RawClaimedRow} {first second : Row} {limit : Nat}
  {queue : String} {headroom : HashMap Nat}

theorem claimStatement_chosen {rows : List Row}
    (outcome : claimStatement jobs now gen lockedElsewhere params =
      .ok (updated, rows)) :
    ∃ leaseMicros, claimStatement jobs now gen lockedElsewhere params =
      updateChosen jobs now gen leaseMicros
        (min params.maxAttempts i32Max : Nat)
        (chosenRows jobs now lockedElsewhere params) := by
  unfold claimStatement textParam at outcome ⊢
  split at outcome
  · cases outcome
  · rename_i noNul
    rw [if_neg noNul]
    cases interval : intervalParam params.leaseTimeout with
    | error failure =>
        rw [interval] at outcome
        cases outcome
    | ok leaseMicros =>
        refine ⟨leaseMicros, ?_⟩
        simp only [interval, bind, Except.bind, chosenRows] at outcome ⊢
        split
        · rfl
        · rename_i keyed
          rw [if_neg keyed] at outcome
          cases cast : hrCte params.headroom with
          | error failure =>
              rw [sqlKeyed, cast] at outcome
              cases outcome
          | ok hr =>
              rw [sqlKeyed, cast, (hrCte_eq_ok_iff.mp cast).2]
              rfl

/-- A claim hands out the rows it chose, in order. -/
theorem claimBatchRaw_chosen
    (outcome : claimBatchRaw jobs now gen lockedElsewhere params =
      .ok (updated, raws)) :
    ∃ leaseMicros, raws = (chosenRows jobs now lockedElsewhere params).map
      (claimedRaw now gen leaseMicros
        (min params.maxAttempts i32Max : Nat)) := by
  cases result : claimStatement jobs now gen lockedElsewhere params with
  | error failure =>
      rw [claimBatchRaw, result] at outcome
      cases outcome
  | ok reply =>
      obtain ⟨leaseMicros, sent⟩ := claimStatement_chosen result
      have read := claimBatchRaw_of_update chosen_chosenRows.stored sent
        (sent.symm.trans result)
      rw [outcome] at read
      cases read
      exact ⟨leaseMicros, rfl⟩

theorem orderByRunAtId_sorted (rows : List Row) :
    (orderByRunAtId rows).Pairwise Row.Precedes :=
  List.pairwise_insertionSort Row.Precedes rows

theorem Row.not_precedes_of_precedes (precedes : first.Precedes second)
    (differ : first.id ≠ second.id) : ¬ second.Precedes first :=
  fun backward => differ (Row.id_eq_of_precedes precedes backward)

theorem mem_lockInOrder_of_precedes {rows : List Row}
    (isChosen : second ∈ lockInOrder lockedElsewhere limit rows)
    (listed : first ∈ rows) (unlocked : lockedElsewhere first.id = false)
    (precedes : first.Precedes second) (differ : first.id ≠ second.id) :
    first ∈ lockInOrder lockedElsewhere limit rows := by
  apply mem_take_of_not_behind ((orderByRunAtId_sorted rows).filter _) isChosen
  · apply List.mem_filter.mpr
    exact ⟨mem_orderByRunAtId.mpr listed, by simp [unlocked]⟩
  · exact Row.not_precedes_of_precedes precedes differ

end Claim

/-! ## A job that waits -/

/-- The job still waits, and every row that stands before it stood there at the
start. -/
structure PassedOver (start : DbState) (job : Row) (state : DbState) :
    Prop where
  clock : start.clock ≤ state.clock
  waits : state.jobs.find job.id = some job
  places : ∀ id row, state.jobs.find id = some row →
    (∃ old, start.jobs.find id = some old ∧ row.runAt = old.runAt) ∨
      job.runAt < row.runAt

section Waiting

variable {T : Type} {start state finish : DbState} {event : Event T}
  {job row : Row} {id : Nat} {trace : List (Transition DbState (Event T))}

/-- A waiting row that is not claimed stays as it is. -/
theorem DbState.find_after_of_waiting (found : state.jobs.find id = some row)
    (waiting : row.waiting = true)
    (unclaimed : ∀ raw ∈ (state.reply event).claimedRows, raw.id ≠ id) :
    (state.after event).jobs.find id = some row := by
  obtain ⟨now, statement⟩ := event
  have notRunning : row.status ≠ .running := by
    intro running
    simp [Row.waiting, running] at waiting
  cases state.rowEffect now statement id with
  | same _ unchanged => exact unchanged.trans found
  | inserted _ _ _ fresh =>
      rw [Jobs.find_eq_none_of_nextId_le fresh] at found
      cases found
  | claimed params gen lockedElsewhere old leaseMicros before _ _ _ returned =>
      exact absurd (Jobs.id_of_find before) (unclaimed _ returned)
  | marked token mark old before running =>
      rw [found, Option.some.injEq] at before
      exact absurd (before ▸ running) notRunning
  | reaped queue batchLimit tie lockedElsewhere old before stale =>
      rw [found, Option.some.injEq] at before
      exact absurd (before ▸ (Row.stale_iff.mp stale).2.1) notRunning
  | purged status age tie lockedElsewhere old finished before terminal =>
      rw [found, Option.some.injEq] at before
      rw [before, Row.waiting, terminal] at waiting
      cases status with
      | done => cases waiting
      | dead => cases waiting

/-- No statement gives a row a `run_at` in the past. -/
theorem DbState.runAt_after
    (found : (state.after event).jobs.find id = some row) :
    (∃ old, state.jobs.find id = some old ∧ row.runAt = old.runAt) ∨
      event.now ≤ row.runAt := by
  cases before : state.jobs.find id with
  | none =>
      right
      obtain ⟨now, statement⟩ := event
      cases state.rowEffect now statement id with
      | same _ unchanged =>
          rw [found, before] at unchanged
          cases unchanged
      | inserted _ new _ _ _ _ passes after =>
          rw [after, Option.some.injEq] at found
          subst found
          have temporal := (Row.passesChecks_iff _).mp passes
          simp only [jobsTemporal_iff] at temporal
          exact temporal.2.2.2.2.2.2.2.2.2.2.2.2
      | claimed _ _ _ _ _ stored =>
          rw [before] at stored
          cases stored
      | marked _ _ _ stored =>
          rw [before] at stored
          cases stored
      | reaped _ _ _ _ _ stored =>
          rw [before] at stored
          cases stored
      | purged _ _ _ _ _ _ stored =>
          rw [before] at stored
          cases stored
  | some old =>
      rcases rowLaw_of_step event before with ⟨new, stored, law⟩ | ⟨gone, _⟩
      · rw [stored, Option.some.injEq] at found
        subst found
        rcases law.runAt with same | ⟨_, _, delay, _, later⟩
        · exact Or.inl ⟨old, rfl, same⟩
        · right
          rw [later]
          omega
      · rw [gone] at found
        cases found

theorem PassedOver.step (passedOver : PassedOver start job state)
    (waiting : job.waiting = true) (overdue : job.runAt < start.clock)
    (clock : state.clock ≤ event.now)
    (unclaimed : ∀ raw ∈ (state.reply event).claimedRows, raw.id ≠ job.id) :
    PassedOver start job (state.after event) where
  clock := Int.le_trans passedOver.clock clock
  waits := DbState.find_after_of_waiting passedOver.waits waiting unclaimed
  places := by
    intro id row found
    have later := passedOver.clock
    rcases DbState.runAt_after found with ⟨old, before, same⟩ | new
    · rw [same]
      exact passedOver.places id old before
    · right
      omega

theorem no_claim_of_claimHistory (none : claimHistory trace id = [])
    {taken : Transition DbState (Event T)} (member : taken ∈ trace) :
    ∀ raw ∈ DbState.claimsOf taken, raw.id ≠ id := by
  intro raw claimed sameId
  have listed : (taken.label.now, raw) ∈ claimHistory trace id := by
    apply List.mem_flatMap.mpr
    refine ⟨taken, member, List.mem_map.mpr ⟨raw, ?_, rfl⟩⟩
    exact List.mem_filter.mpr ⟨claimed, by simp [sameId]⟩
  rw [none] at listed
  cases listed

theorem passedOver_of_run
    (run : Run (DbState.Step T) start trace finish)
    (stored : start.jobs.find job.id = some job)
    (waiting : job.waiting = true) (overdue : job.runAt < start.clock)
    (unclaimed : claimHistory trace job.id = []) :
    PassedOver start job finish := by
  induction run with
  | refl =>
      refine ⟨Int.le_refl _, stored, ?_⟩
      intro id row found
      exact Or.inl ⟨row, found, rfl⟩
  | @snoc trace middle finish event earlier taken inductionHypothesis =>
      obtain ⟨admissible, rfl⟩ := taken
      have atLast := no_claim_of_claimHistory unclaimed
        (List.mem_append_right _ List.mem_cons_self)
      rw [claimHistory, List.flatMap_append, List.append_eq_nil_iff]
        at unclaimed
      have passedOver := inductionHypothesis unclaimed.1
      exact passedOver.step waiting overdue admissible.clock atLast

theorem PassedOver.due (passedOver : PassedOver start job state)
    (overdue : job.runAt < start.clock) {now : Int}
    (later : state.clock ≤ now) : job.runAt ≤ now := by
  have clock := passedOver.clock
  omega

/-- A row of the queue that stands before the job stood there at the start. -/
theorem PassedOver.stood_ahead (passedOver : PassedOver start job state)
    (run : Run (DbState.Step T) start trace state)
    (found : state.jobs.find id = some row) (queue : row.queue = job.queue)
    (precedes : row.Precedes job) (differs : id ≠ job.id) :
    ∃ old, start.jobs.find id = some old ∧ old.queue = job.queue ∧
      old.Precedes job ∧ old.id ≠ job.id := by
  have sameId := Jobs.id_of_find found
  rcases passedOver.places id row found with ⟨old, atStart, same⟩ | late
  · have oldId := Jobs.id_of_find atStart
    have kept := (continues_of_run run atStart found).sameJob
    refine ⟨old, atStart, kept.queue.symm.trans queue, ?_, ?_⟩
    · unfold Row.Precedes at precedes ⊢
      omega
    · rw [oldId]
      exact differs
  · unfold Row.Precedes at precedes
    omega

/-- The claims of one row among some are claims of that row. -/
theorem length_picked_le
    {pick : Transition DbState (Event T) → List RawClaimedRow}
    (claims : ∀ taken, (pick taken).Sublist (DbState.claimsOf taken)) (id : Nat)
    (trace : List (Transition DbState (Event T))) :
    ((trace.flatMap pick).filter fun raw => raw.id = id).length ≤
      (claimHistory trace id).length := by
  induction trace with
  | nil => exact Nat.zero_le _
  | cons taken rest inductionHypothesis =>
      have first := ((claims taken).filter fun raw =>
        decide (raw.id = id)).length_le
      have counted : (claimHistory (taken :: rest) id).length =
          ((DbState.claimsOf taken).filter fun raw =>
            decide (raw.id = id)).length + (claimHistory rest id).length := by
        rw [claimHistory, List.flatMap_cons, List.length_append,
          List.length_map]
        rfl
      rw [List.flatMap_cons, List.filter_append, List.length_append, counted]
      omega

/-- The rows of the queue that stand before the job. -/
def DbState.ahead (state : DbState) (job : Row) : List Row :=
  state.jobs.rows.filter fun row =>
    row.queue = job.queue ∧ row.Precedes job ∧ row.id ≠ job.id

theorem DbState.mem_ahead (found : state.jobs.find id = some row)
    (place : row.queue = job.queue ∧ row.Precedes job ∧ row.id ≠ job.id) :
    id ∈ (state.ahead job).map Row.id := by
  obtain ⟨stored, sameId⟩ := Jobs.find_eq_some_iff.mp found
  rw [← sameId]
  apply List.mem_map_of_mem
  exact List.mem_filter.mpr ⟨stored, decide_eq_true place⟩

/-- Rows that stood before the job are claimed no more often than the retry
budget allows. -/
theorem length_claims_ahead_le {fleet : Set Nat} {limit : Nat} {clock : Int}
    {history : List (Transition DbState (Event T))}
    (positive : ∀ budget ∈ fleet, 1 ≤ budget)
    (bounded : ∀ budget ∈ fleet, budget ≤ limit) (atLeastOne : 1 ≤ limit)
    (earlier : Run (DbState.FleetStep T fleet) (DbState.initial clock) history
      start)
    (later : Run (DbState.FleetStep T fleet) start trace finish)
    (pick : Transition DbState (Event T) → List RawClaimedRow)
    (claims : ∀ taken, (pick taken).Sublist (DbState.claimsOf taken))
    (stoodAhead : ∀ raw ∈ trace.flatMap pick,
      raw.id ∈ (start.ahead job).map Row.id) :
    (trace.flatMap pick).length ≤ limit * (start.ahead job).length := by
  have stamped : ∀ budget ∈ fleet, min budget i32Max ≤ limit :=
    fun budget member =>
      Nat.le_trans (Nat.min_le_left _ _) (bounded budget member)
  have kept := budgetKept_of_run positive stamped atLeastOne
    (earlier.append later)
  have few := length_le_of_classes limit ((start.ahead job).map Row.id) _
    stoodAhead (fun id => ?_)
  · rwa [List.length_map] at few
  · have budget := kept.claims id
    have ofRow := length_picked_le claims id trace
    rw [claimHistory, List.flatMap_append, List.length_append] at budget
    rw [claimHistory] at ofRow
    omega

end Waiting

/-! ### The second in line -/

namespace SecondInLine

def earlier : List (Event Unit) :=
  [⟨0, .push LateMark.pusher ⟨7⟩ () none⟩,
    ⟨0, .push LateMark.pusher ⟨8⟩ () none⟩,
    ⟨1, .reap "mail" 100 id fun _ => false⟩]

def start : DbState := (DbState.initial 0).afterAll earlier

/-- A claim of one row. -/
def later : List (Event Unit) :=
  [⟨2, .claim { LateMark.params with batchSize := 1 } (fun _ => ⟨1⟩)
    fun _ => false⟩]

def job : Row :=
  (LateMark.pusher.newJob ⟨8⟩ [] none none).row 2 0

theorem earlier_allowed :
    DbState.AllAllowed (DbState.FleetAdmissible {2}) (DbState.initial 0)
      earlier := by
  refine ⟨⟨by decide, ?_, ?_, by decide⟩, ⟨by decide, ?_, ?_, by decide⟩,
    ⟨by decide, ?_, ?_, by decide⟩, trivial⟩
  all_goals rintro _ _ _ ⟨⟩

end SecondInLine

end PgWorkQueue
