import Mathlib.Order.Bounds.Basic
import PgWorkQueue.Client.Handler
import PgWorkQueue.System.CheckSafety
import PgWorkQueue.System.History

/-!
# The retry budget in a mixed fleet

Workers stamp their own `max_attempts` on the rows they claim, and the limit may
differ from worker to worker.  Here marks come from the worker paths only, each
with the attempt numbers its job was claimed with, however late it is executed.
The invariant is that a row goes back to waiting only with attempts left under
the limit stamped on it; the token ties a late mark to the numbers it was issued
with.
-/

namespace PgWorkQueue

open Library.Runs

namespace DbState

variable {T : Type}

/-- What is assumed of a statement sent by a fleet of workers whose
`max_attempts` lie in `fleet`. -/
structure FleetAdmissible (fleet : Set Nat) (state : DbState)
    (event : Event T) : Prop where
  clock : state.clock ≤ event.now
  budget : ∀ params gen lockedElsewhere,
    event.statement = .claim params gen lockedElsewhere →
      params.maxAttempts ∈ fleet
  issued : ∀ id token mark, event.statement = .mark id token mark →
    ∃ raw ∈ state.returned, raw.id = id ∧ raw.leaseToken = token ∧
      WorkerMark raw mark
  freshTokens : ((state.returned ++ (state.reply event).claimedRows).map
    RawClaimedRow.leaseToken).Nodup

/-- One step of a fleet. -/
def FleetStep (T : Type) (fleet : Set Nat) (state : DbState)
    (event : Event T) (next : DbState) : Prop :=
  state.FleetAdmissible fleet event ∧ next = state.after event

variable {fleet : Set Nat} {state : DbState} {event : Event T}

/-- A fleet sends admissible statements: its reasons have been trimmed. -/
theorem FleetAdmissible.admissible
    (positive : ∀ budget ∈ fleet, 1 ≤ budget)
    (fleetAdmissible : state.FleetAdmissible fleet event) :
    state.Admissible event where
  clock := fleetAdmissible.clock
  maxAttempts := fun params gen lockedElsewhere isClaim =>
    positive _ (fleetAdmissible.budget params gen lockedElsewhere isClaim)
  trimmed := by
    intro id token mark isMark reason stored
    obtain ⟨raw, _, _, _, issued⟩ :=
      fleetAdmissible.issued id token mark isMark
    exact issued.trimmed stored
  freshTokens := fleetAdmissible.freshTokens

theorem run_of_fleetRun
    {trace : List (Transition DbState (Event T))} {start finish : DbState}
    (positive : ∀ budget ∈ fleet, 1 ≤ budget)
    (run : Run (FleetStep T fleet) start trace finish) :
    Run (Step T) start trace finish :=
  run.mono fun _ _ _ ⟨fleetAdmissible, next⟩ =>
    ⟨fleetAdmissible.admissible positive, next⟩

end DbState

/-! ## One row -/

/-- A row within a budget of `limit` attempts. -/
structure Row.WithinBudget (limit : Nat) (row : Row) : Prop where
  attempts : row.attempts ≤ limit
  stamped : row.maxAttempts ≤ limit
  waiting : row.waiting = true → row.attempts < limit
  awaitingRetry : row.status = .awaitingRetry →
    row.attempts < row.maxAttempts

namespace Row.WithinBudget

variable {limit : Nat} {row : Row} {now : Int}

theorem inserted
    {new : NewJob} {id : Nat} (positive : 1 ≤ limit) :
    (new.row id now).WithinBudget limit where
  attempts := Int.natCast_nonneg limit
  stamped := Int.natCast_nonneg limit
  waiting := fun _ => by
    change (0 : Int) < limit
    omega
  awaitingRetry := fun status => nomatch status

theorem claimed
    {queue : String} {gen : Nat → Uuid} {leaseMicros : Int} {stamp : Nat}
    (within : row.WithinBudget limit)
    (runnable : row.runnable queue now = true) (stamped : stamp ≤ limit) :
    (claimedRow now gen leaseMicros stamp row).WithinBudget limit where
  attempts := by
    have room := within.waiting (Row.waiting_of_runnable runnable)
    change row.attempts + 1 ≤ limit
    omega
  stamped := by
    change (stamp : Int) ≤ limit
    omega
  waiting := fun status => nomatch status
  awaitingRetry := fun status => nomatch status

/-- Leaving `running` keeps the numbers, so only a row that waits again has
something to show. -/
private theorem released
    {new : Row} (within : row.WithinBudget limit)
    (attempts : new.attempts = row.attempts)
    (stamped : new.maxAttempts = row.maxAttempts)
    (notQueued : new.status ≠ .queued)
    (left : new.status = .awaitingRetry → row.attempts < row.maxAttempts) :
    new.WithinBudget limit where
  attempts := attempts ▸ within.attempts
  stamped := stamped ▸ within.stamped
  waiting := by
    intro waiting
    simp only [Row.waiting, Bool.or_eq_true, beq_iff_eq] at waiting
    rcases waiting with queued | awaitingRetry
    · exact (notQueued queued).elim
    · have room := left awaitingRetry
      have stampedRow := within.stamped
      rw [attempts]
      omega
  awaitingRetry := by
    intro status
    rw [attempts, stamped]
    exact left status

theorem marked
    {mark : Mark} {raw : RawClaimedRow} (within : row.WithinBudget limit)
    (read : RawClaimedRow.fromRow row = .ok raw)
    (issued : WorkerMark raw mark) :
    (mark.markedRow now row).WithinBudget limit := by
  apply within.released
  · cases mark <;> rfl
  · cases mark <;> rfl
  · cases mark <;> simp [Mark.status]
  · intro status
    cases mark with
    | done => cases status
    | dead reason => cases status
    | retry reason delay =>
        have room := issued.attempts_lt_of_retry
        obtain ⟨_, _, _, attempts, maxAttempts⟩ := columns_of_fromRow read
        omega

theorem reaped (within : row.WithinBudget limit) :
    (reapedRow now row).WithinBudget limit := by
  apply within.released
  · rfl
  · rfl
  · rw [reapedRow_status]
    split <;> simp
  · intro status
    rw [reapedRow_status] at status
    split at status
    · cases status
    · rename_i notExhausted
      simpa [Row.exhausted] using notExhausted

end Row.WithinBudget

/-! ## One step -/

section Step

variable {T : Type} {fleet : Set Nat} {limit : Nat} {state : DbState}
  {event : Event T} {id : Nat}

/-- Every row of the table is within the budget. -/
def DbState.WithinBudget (limit : Nat) (state : DbState) : Prop :=
  ∀ id row, state.jobs.find id = some row → row.WithinBudget limit

theorem DbState.WithinBudget.step
    (within : state.WithinBudget limit) (fenced : state.Fenced)
    (positive : 1 ≤ limit)
    (bounded : ∀ budget ∈ fleet, min budget i32Max ≤ limit)
    (admissible : state.FleetAdmissible fleet event) :
    (state.after event).WithinBudget limit := by
  intro id row found
  obtain ⟨now, statement⟩ := event
  cases state.rowEffect now statement id with
  | same _ unchanged =>
      rw [unchanged] at found
      exact within id row found
  | inserted _ new _ _ _ _ _ after =>
      rw [after] at found
      cases found
      exact Row.WithinBudget.inserted positive
  | claimed params gen lockedElsewhere old leaseMicros before runnable _ _
      _ after =>
      rw [after] at found
      cases found
      exact (within id old before).claimed runnable
        (bounded _ (admissible.budget params gen lockedElsewhere rfl))
  | marked token mark old before running held _ after =>
      rw [after] at found
      cases found
      obtain ⟨raw, recorded, _, sameToken, issued⟩ :=
        admissible.issued id token mark rfl
      subst sameToken
      exact (within id old before).marked
        (fenced.lease_unique recorded before running held).2 issued
  | reaped _ _ _ _ old before _ after =>
      rw [after] at found
      cases found
      exact (within id old before).reaped
  | purged _ _ _ _ _ _ _ _ _ _ after =>
      rw [after] at found
      cases found

/-- The statement moves the row `id` to running. -/
def DbState.EntersRunning (state : DbState) (event : Event T) (id : Nat) :
    Prop :=
  ∃ old new, state.jobs.find id = some old ∧ old.status ≠ .running ∧
    (state.after event).jobs.find id = some new ∧ new.status = .running

/-- A row enters `running` when it is claimed, and only then. -/
theorem DbState.entersRunning_iff :
    state.EntersRunning event id ↔
      ∃ raw ∈ (state.reply event).claimedRows, raw.id = id := by
  constructor
  · rintro ⟨old, new, found, notRunning, after, running⟩
    obtain ⟨now, statement⟩ := event
    cases state.rowEffect now statement id with
    | same _ unchanged =>
        rw [unchanged, found] at after
        cases after
        exact (notRunning running).elim
    | inserted _ _ _ fresh _ _ _ _ =>
        exact (fresh.not_gt (Jobs.lt_nextId_of_find found)).elim
    | claimed _ _ _ row _ before _ _ _ returned _ =>
        exact ⟨_, returned, Jobs.id_of_find before⟩
    | marked _ mark _ _ _ _ _ afterMark =>
        rw [afterMark] at after
        cases after
        rw [Mark.markedRow_status] at running
        exact (mark.status_ne_running running).elim
    | reaped _ _ _ _ _ _ _ afterReap =>
        rw [afterReap] at after
        cases after
        exact (reapedRow_status_ne_running _ _ running).elim
    | purged _ _ _ _ _ _ _ _ _ _ gone =>
        rw [gone] at after
        cases after
  · rintro ⟨raw, member, rfl⟩
    obtain ⟨params, gen, _, row, leaseMicros, _, before, runnable, _, _,
      after⟩ :=
        (claimedRows_spec state.jobs event.now event.statement).2 raw member
    exact ⟨row, _, before, Row.status_ne_running_of_runnable runnable,
      after, rfl⟩

end Step

/-! ## Counting claims and status changes -/

section Counting

variable {T : Type} {history : List (Transition DbState (Event T))}
  {state : DbState} {id : Nat}

theorem length_claimHistory_of_enters
    (history : List (Transition DbState (Event T))) {event : Event T}
    (enters : state.EntersRunning event id) :
    (claimHistory (history ++ [⟨state, event, state.after event⟩])
      id).length = (claimHistory history id).length + 1 := by
  obtain ⟨raw, member, sameId⟩ := DbState.entersRunning_iff.mp enters
  rw [claimHistory_snoc_of_claim member sameId, List.length_append]
  rfl

theorem length_claimHistory_of_not_enters
    (history : List (Transition DbState (Event T))) {event : Event T}
    (stays : ¬ state.EntersRunning event id) :
    (claimHistory (history ++ [⟨state, event, state.after event⟩])
      id).length = (claimHistory history id).length := by
  rw [claimHistory_snoc_of_no_claim]
  intro raw member sameId
  exact stays (DbState.entersRunning_iff.mpr ⟨raw, member, sameId⟩)

/-- Whether a transition changes the status of the row `id`. -/
def changesStatus (id : Nat) (taken : Transition DbState (Event T)) : Bool :=
  match taken.source.jobs.find id, taken.target.jobs.find id with
  | some old, some new => old.status != new.status
  | _, _ => false

/-- How often the status of the row `id` has changed since its INSERT. -/
def statusChanges (history : List (Transition DbState (Event T)))
    (id : Nat) : Nat :=
  history.countP (changesStatus id)

def DbState.isRunning (state : DbState) (id : Nat) : Bool :=
  (state.jobs.find id).any fun row => row.status == .running

theorem statusChanges_snoc (history : List (Transition DbState (Event T)))
    (taken : Transition DbState (Event T)) (id : Nat) :
    statusChanges (history ++ [taken]) id =
      statusChanges history id + (changesStatus id taken).toNat := by
  rw [statusChanges, List.countP_append, statusChanges]
  cases changed : changesStatus id taken <;>
    simp [changed]

/-- A row that is not stored does not enter the table running. -/
theorem not_running_of_absent
    (event : Event T) (absent : state.jobs.find id = none) :
    (state.after event).isRunning id = false := by
  unfold DbState.isRunning
  cases found : (state.after event).jobs.find id with
  | none =>
      rfl
  | some row =>
      obtain ⟨new, rfl, _⟩ := DbState.exists_insert_of_absent absent found
      rfl

/-- Every status change enters `running` or leaves it. -/
theorem StatusEdge.crosses_running
    {old new : JobStatus} (edge : StatusEdge old new) :
    old ≠ .running ∧ new = .running ∨ old = .running ∧ new ≠ .running := by
  cases edge <;> simp

/-- A status change is paid for by a claim: one for entering `running`, one for
leaving it. -/
theorem statusChanges_step
    (event : Event T)
    (paid : statusChanges history id + (state.isRunning id).toNat ≤
      2 * (claimHistory history id).length) :
    let extended := history ++ [⟨state, event, state.after event⟩]
    statusChanges extended id + ((state.after event).isRunning id).toNat ≤
      2 * (claimHistory extended id).length := by
  intro extended
  have grows : (claimHistory history id).length ≤
      (claimHistory extended id).length := by
    by_cases enters : state.EntersRunning event id
    · rw [length_claimHistory_of_enters history enters]
      omega
    · rw [length_claimHistory_of_not_enters history enters]
  rw [statusChanges_snoc]
  cases found : state.jobs.find id with
  | none =>
      have unchanged : changesStatus id
          ⟨state, event, state.after event⟩ = false := by
        simp [changesStatus, found]
      rw [unchanged, not_running_of_absent event found]
      simp only [Bool.toNat_false]
      omega
  | some old =>
      have before : state.isRunning id = (old.status == .running) := by
        simp [DbState.isRunning, found]
      rw [before] at paid
      rcases rowLaw_of_step event found with ⟨new, after, law⟩ | ⟨gone, _⟩
      · have changed : changesStatus id ⟨state, event, state.after event⟩ =
            (old.status != new.status) := by
          simp [changesStatus, found, after]
        have running : (state.after event).isRunning id =
            (new.status == .running) := by
          simp [DbState.isRunning, after]
        rw [changed, running]
        rcases law.status with same | edge
        · rw [same]
          simp only [bne_self_eq_false, Bool.toNat_false]
          omega
        · rcases edge.crosses_running with
            ⟨notRunning, enters⟩ | ⟨wasRunning, leaves⟩
          · have longer : (claimHistory extended id).length =
                (claimHistory history id).length + 1 :=
              length_claimHistory_of_enters history
                ⟨old, new, found, notRunning, after, enters⟩
            simp only [beq_eq_false_iff_ne.mpr notRunning,
              Bool.toNat_false] at paid
            have atMost := Bool.toNat_le (old.status != new.status)
            have atMostOne := Bool.toNat_le (new.status == .running)
            omega
          · simp only [wasRunning, beq_self_eq_true, Bool.toNat_true] at paid
            simp only [beq_eq_false_iff_ne.mpr leaves, Bool.toNat_false]
            have atMost := Bool.toNat_le (old.status != new.status)
            omega
      · have unchanged : changesStatus id
            ⟨state, event, state.after event⟩ = false := by
          simp [changesStatus, found, gone]
        have notRunning : (state.after event).isRunning id = false := by
          simp [DbState.isRunning, gone]
        rw [unchanged, notRunning]
        simp only [Bool.toNat_false]
        omega

end Counting

/-! ## Every run of a fleet -/

/-- Dead when the stamped limit is reached, another attempt otherwise. -/
def Row.verdict (row : Row) : JobStatus :=
  if row.maxAttempts ≤ row.attempts then .dead else .awaitingRetry

/-- The worker that claimed the row as `raw`, on either path, and the reaper
agree on the verdict over a retryable failure. -/
structure SameVerdict (row : Row) (raw : RawClaimedRow) : Prop where
  started : ∀ config reason retryIn mark,
    applyHandlerResultState config raw.attempts raw.maxAttempts
      (.error (.retry reason retryIn)) = some mark →
        mark.status = row.verdict
  ticked : ∀ config reason retryIn mark,
    applyHandlerResult config raw.attempts raw.maxAttempts
      (.error (.retry reason retryIn)) = some mark →
        mark.status = row.verdict
  reaped : ∀ now, (reapedRow now row).status = row.verdict

theorem sameVerdict_of_read
    {row : Row} {raw : RawClaimedRow} (passes : row.PassesChecks)
    (read : RawClaimedRow.fromRow row = .ok raw) :
    SameVerdict row raw := by
  obtain ⟨_, _, _, attempts, maxAttempts⟩ := columns_of_fromRow read
  obtain ⟨attemptsNonneg, _, _, maxAttemptsNonneg, _⟩ :=
    row.passesChecks_iff.mp passes
  have sameTest : raw.maxAttempts ≤ raw.attempts ↔
      row.maxAttempts ≤ row.attempts := by
    omega
  have started : ∀ config reason retryIn mark,
      applyHandlerResultState config raw.attempts raw.maxAttempts
        (.error (.retry reason retryIn)) = some mark →
          mark.status = row.verdict := by
    intro config reason retryIn mark issued
    rw [applyHandlerResultState_retry_status issued, Row.verdict]
    simp only [sameTest]
  refine
    { started := started
      ticked := ?_
      reaped := ?_ }
  · intro config reason retryIn mark issued
    rw [applyHandlerResult_eq] at issued
    exact started config reason retryIn mark issued
  · intro now
    rw [reapedRow_status, Row.verdict]
    simp [Row.exhausted]

section Fleet

variable {T : Type} {fleet : Set Nat} {limit : Nat} {clock : Int}
  {trace : List (Transition DbState (Event T))} {finish : DbState}

/-- What a run of a fleet keeps true of its budget. -/
structure BudgetKept (limit : Nat)
    (history : List (Transition DbState (Event T))) (state : DbState) :
    Prop where
  within : state.WithinBudget limit
  claims : ∀ id, (claimHistory history id).length ≤ limit
  changes : ∀ id, statusChanges history id + (state.isRunning id).toNat ≤
    2 * (claimHistory history id).length

theorem budgetKept_of_run
    (positive : ∀ budget ∈ fleet, 1 ≤ budget)
    (bounded : ∀ budget ∈ fleet, min budget i32Max ≤ limit)
    (atLeastOne : 1 ≤ limit)
    (run : Run (DbState.FleetStep T fleet) (DbState.initial clock) trace
      finish) :
    BudgetKept limit trace finish := by
  refine run.historyInvariant (BudgetKept limit) ?_ ?_
  · exact
      { within := fun _ _ found => nomatch found
        claims := fun _ => Nat.zero_le _
        changes := fun _ => Nat.le_refl _ }
  · rintro history source event _ earlier kept ⟨admissible, rfl⟩
    have plainRun := DbState.run_of_fleetRun positive earlier
    have recorded := claimsRecorded_of_run plainRun
    refine
      { within := kept.within.step (DbState.fenced_of_run plainRun)
          atLeastOne bounded admissible
        claims := ?_
        changes := fun id => statusChanges_step event (kept.changes id) }
    intro id
    by_cases enters : source.EntersRunning event id
    · rw [length_claimHistory_of_enters history enters]
      obtain ⟨raw, member, rfl⟩ := DbState.entersRunning_iff.mp enters
      obtain ⟨_, _, _, row, _, _, before, runnable, _⟩ :=
        (claimedRows_spec source.jobs event.now event.statement).2 raw member
      have counted := (recorded.recorded raw.id row before).attempts
      have room := (kept.within raw.id row before).waiting
        (Row.waiting_of_runnable runnable)
      omega
    · rw [length_claimHistory_of_not_enters history enters]
      exact kept.claims id

/-- With `limit` the largest `max_attempts` of the fleet as the database stores
it: a row that awaits its retry has attempts left under its own stamped limit,
no row has more than `limit` attempts, the `attempts + 1` of a claim stays an
`INTEGER`, no row is claimed more than `limit` times or changes its status more
than `2 * limit` times, and the verdict over a running row does not depend on
who takes it. -/
theorem retry_budget_holds_in_mixed_fleet
    (accepted : ∀ budget ∈ fleet, 1 ≤ budget ∧ budget ≤ u32Max)
    (largest : IsGreatest (Set.image (fun budget => min budget i32Max) fleet)
      limit)
    (run : Run (DbState.FleetStep T fleet) (DbState.initial clock) trace
      finish) :
    (∀ id row, finish.jobs.find id = some row →
      row.attempts ≤ limit ∧
        (row.status = .awaitingRetry → row.attempts < row.maxAttempts) ∧
        (row.waiting = true → row.attempts + 1 ≤ i32Max) ∧
        (row.status = .running → ∀ raw ∈ finish.returned,
          row.leaseToken = some raw.leaseToken → SameVerdict row raw)) ∧
      ∀ id, (claimHistory trace id).length ≤ limit ∧
        statusChanges trace id ≤ 2 * limit := by
  have positive : ∀ budget ∈ fleet, 1 ≤ budget := fun budget member =>
    (accepted budget member).1
  have bounded : ∀ budget ∈ fleet, min budget i32Max ≤ limit :=
    fun budget member => largest.2 ⟨budget, member, rfl⟩
  obtain ⟨best, bestMember, isLimit⟩ := largest.1
  have atLeastOne : 1 ≤ limit := by
    have bestPositive := positive best bestMember
    dsimp only at isLimit
    unfold i32Max at isLimit
    omega
  have atMost : limit ≤ i32Max := isLimit ▸ Nat.min_le_right _ _
  have plainRun := DbState.run_of_fleetRun positive run
  have kept := budgetKept_of_run positive bounded atLeastOne run
  constructor
  · intro id row found
    have within := kept.within id row found
    refine ⟨within.attempts, within.awaitingRetry, ?_, ?_⟩
    · intro waiting
      have room := within.waiting waiting
      omega
    · intro running raw member held
      exact sameVerdict_of_read
        (consistent_of_run plainRun id row found).passes
        ((DbState.fenced_of_run plainRun).lease_unique member found running
          held).2
  · intro id
    have claims := kept.claims id
    have changes := kept.changes id
    exact ⟨claims, by omega⟩

/-- A handler that succeeds has its row marked. -/
theorem workerMark_done (raw : RawClaimedRow) : WorkerMark raw .done :=
  .handled (show handleJob ⟨fun _ => minRetryIn, minRetryIn⟩ .retry
    raw.attempts raw.maxAttempts (.returned (.ok ())) = some .done from rfl)

/-- The run with a late mark is a run of a fleet: both marks are issued by
workers whose handler succeeded. -/
theorem lateMark_fleetAllowed :
    DbState.AllAllowed (DbState.FleetAdmissible {2}) (DbState.initial 0)
      LateMark.events := by
  refine ⟨⟨by decide, ?_, ?_, by decide⟩, ⟨by decide, ?_, ?_, by decide⟩,
    ⟨by decide, ?_, ?_, by decide⟩, ⟨by decide, ?_, ?_, by decide⟩,
    ⟨by decide, ?_, ?_, by decide⟩, ⟨by decide, ?_, ?_, by decide⟩, trivial⟩
  all_goals rintro _ _ _ ⟨⟩
  · rfl
  · rfl
  · exact ⟨⟨1, ⟨7⟩, "mail", none, [], 1, 2, 1, ⟨1⟩, 11⟩, by decide, rfl, rfl,
      workerMark_done _⟩
  · exact ⟨⟨1, ⟨7⟩, "mail", none, [], 2, 2, 1, ⟨2⟩, 31⟩, by decide, rfl, rfl,
      workerMark_done _⟩

namespace MixedFleet

/-- The second claim of the run with a late mark is that of a worker which
allows three attempts. -/
def events : List (Event Unit) :=
  [⟨0, .push LateMark.pusher ⟨7⟩ () none⟩,
    ⟨1, .claim LateMark.params (fun _ => ⟨1⟩) fun _ => false⟩,
    ⟨20, .reap "mail" 100 id fun _ => false⟩,
    ⟨21, .claim { LateMark.params with maxAttempts := 3 } (fun _ => ⟨2⟩)
      fun _ => false⟩,
    ⟨22, .mark 1 ⟨1⟩ .done⟩,
    ⟨23, .mark 1 ⟨2⟩ .done⟩]

theorem allowed :
    DbState.AllAllowed (DbState.FleetAdmissible {2, 3}) (DbState.initial 0)
      events := by
  refine ⟨⟨by decide, ?_, ?_, by decide⟩, ⟨by decide, ?_, ?_, by decide⟩,
    ⟨by decide, ?_, ?_, by decide⟩, ⟨by decide, ?_, ?_, by decide⟩,
    ⟨by decide, ?_, ?_, by decide⟩, ⟨by decide, ?_, ?_, by decide⟩, trivial⟩
  all_goals rintro _ _ _ ⟨⟩
  · exact Or.inl rfl
  · exact Or.inr rfl
  · exact ⟨⟨1, ⟨7⟩, "mail", none, [], 1, 2, 1, ⟨1⟩, 11⟩, by decide, rfl, rfl,
      workerMark_done _⟩
  · exact ⟨⟨1, ⟨7⟩, "mail", none, [], 2, 3, 1, ⟨2⟩, 31⟩, by decide, rfl, rfl,
      workerMark_done _⟩

end MixedFleet

/-- Queued, running, awaiting retry, running, done: within the budget of the
more patient worker. -/
theorem retry_budget_holds_on_mixedFleet :
    statusChanges ((DbState.initial 0).transitions MixedFleet.events) 1 = 4 ∧
      (claimHistory ((DbState.initial 0).transitions MixedFleet.events)
        1).length ≤ 3 ∧
      statusChanges ((DbState.initial 0).transitions MixedFleet.events) 1 ≤
        2 * 3 := by
  have accepted : ∀ budget ∈ ({2, 3} : Set Nat),
      1 ≤ budget ∧ budget ≤ u32Max := by
    rintro budget (rfl | rfl)
    · decide
    · decide
  have largest : IsGreatest
      (Set.image (fun budget => min budget i32Max) {2, 3}) 3 := by
    refine ⟨⟨3, Or.inr rfl, by decide⟩, ?_⟩
    rintro _ ⟨budget, rfl | rfl, rfl⟩
    · decide
    · decide
  exact ⟨by decide, (retry_budget_holds_in_mixed_fleet accepted largest
    (DbState.run_of_allAllowed MixedFleet.allowed)).2 1⟩

end Fleet

end PgWorkQueue
