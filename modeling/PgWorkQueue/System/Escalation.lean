import PgWorkQueue.System.Join

/-!
# What `join` reports

Two counters turn repeated trouble into an end of the worker: the poll loop
counts claims that failed one after the other, and `reaper_loop` counts ticks
that panicked one after the other.  Either loop ends at once on a fatal error.
The call reports a fatal error before a panic escalation.

Each counter is the streak of its events (`Library.Streak`), so that the result
of the call is a function of the outcomes of the run.
-/

namespace PgWorkQueue

open Library.Runs Library.Streak

/-! ## The outcomes of a run -/

/-- How a `claim_and_decode` of the poll loop ended. -/
inductive ClaimOutcome where
  | succeeded
  | failed (fatal : Bool)

def ClaimOutcome.isFatal : ClaimOutcome → Bool
  | failed fatal => fatal
  | succeeded => false

def ClaimOutcome.isTransient : ClaimOutcome → Bool
  | failed fatal => !fatal
  | succeeded => false

def PollLabel.claimOutcome : PollLabel → Option ClaimOutcome
  | finishDecode => some .succeeded
  | refuse fatal | receiveError fatal | loseReply fatal =>
      some (.failed fatal)
  | _ => none

def WorkerLabel.claimOutcome : WorkerLabel → Option ClaimOutcome
  | poll label => label.claimOutcome
  | _ => none

def JoinLabel.claimOutcome : JoinLabel → Option ClaimOutcome
  | worker label => label.claimOutcome
  | _ => none

def TickOutcome.isFatal : TickOutcome → Bool
  | failed fatal => fatal
  | _ => false

def TickOutcome.isPanic : TickOutcome → Bool
  | panicked => true
  | _ => false

def JoinLabel.tickOutcome : JoinLabel → Option TickOutcome
  | reaper outcome => outcome
  | _ => none

section Outcomes

variable {T : Type}

/-- The outcomes of the claims, in order. -/
def claimOutcomes (trace : List (Transition (JoinState T) JoinLabel)) :
    List ClaimOutcome :=
  trace.filterMap (·.label.claimOutcome)

/-- The outcomes of the reaper's ticks, in order. -/
def tickOutcomes (trace : List (Transition (JoinState T) JoinLabel)) :
    List TickOutcome :=
  trace.filterMap (·.label.tickOutcome)

end Outcomes

/-- What `join` has to report after these claims and ticks. -/
def joinVerdict (claims : List ClaimOutcome) (ticks : List TickOutcome) :
    Except ShutdownError Unit :=
  if endsWith ClaimOutcome.isFatal claims ||
      streak ClaimOutcome.isTransient claims == maxConsecutiveClaimErrors ||
      endsWith TickOutcome.isFatal ticks then
    .error .fatal
  else if streak TickOutcome.isPanic ticks =
      reaperPanicEscalationThreshold then
    .error (.reaperPanicEscalation reaperPanicEscalationThreshold)
  else
    .ok ()

/-! ## The poll loop -/

section Poll

variable {T : Type} {worker : StartedWorker T} {state target : PollState T}
  {label : PollLabel} {outcomes : List ClaimOutcome}

/-- What the loop has made of the outcomes of its claims. -/
structure PollState.Reports (state : PollState T)
    (outcomes : List ClaimOutcome) : Prop where
  fatal : state.lastFatal =
    (endsWith ClaimOutcome.isFatal outcomes ||
      streak ClaimOutcome.isTransient outcomes == maxConsecutiveClaimErrors)
  counted : state.lastFatal = false →
    state.consecutiveClaimErrors = streak ClaimOutcome.isTransient outcomes
  bounded : streak ClaimOutcome.isTransient outcomes ≤
    maxConsecutiveClaimErrors
  exited : state.lastFatal = true → state.phase = .exited

/-- A step that ends no claim. -/
theorem PollState.counters_of_step
    (taken : PollState.Step worker.toWorker state label target)
    (noOutcome : label.claimOutcome = none) :
    target.lastFatal = state.lastFatal ∧
      target.consecutiveClaimErrors = state.consecutiveClaimErrors := by
  cases taken with
  | refuse => cases noOutcome
  | receiveError => cases noOutcome
  | loseReply => cases noOutcome
  | finishDecode => cases noOutcome
  | _ => exact ⟨rfl, rfl⟩

theorem PollState.Reports.quiet (reports : state.Reports outcomes)
    (taken : PollState.Step worker.toWorker state label target)
    (noOutcome : label.claimOutcome = none) : target.Reports outcomes := by
  have counters := PollState.counters_of_step taken noOutcome
  refine ⟨?_, ?_, reports.bounded, ?_⟩
  · rw [counters.1]
    exact reports.fatal
  · rw [counters.1, counters.2]
    exact reports.counted
  · rw [counters.1]
    intro fatal
    exact PollState.exited_of_step (reports.exited fatal) taken

/-- A loop that has not reported anything is short of the threshold. -/
theorem PollState.Reports.streak_lt (reports : state.Reports outcomes)
    (going : state.lastFatal = false) :
    streak ClaimOutcome.isTransient outcomes < maxConsecutiveClaimErrors := by
  have fatal := reports.fatal
  rw [going, eq_comm, Bool.or_eq_false_iff] at fatal
  have differs : streak ClaimOutcome.isTransient outcomes ≠
      maxConsecutiveClaimErrors := by
    intro same
    rw [same] at fatal
    cases fatal.2
  have bounded := reports.bounded
  omega

theorem PollState.Reports.claimFailed (reports : state.Reports outcomes)
    (going : state.lastFatal = false) (fatal : Bool) :
    (state.claimFailed fatal).Reports (outcomes ++ [.failed fatal]) := by
  have short := reports.streak_lt going
  have counted := reports.counted going
  have small : maxConsecutiveClaimErrors ≤ u32Max := by decide
  cases fatal with
  | true =>
      refine ⟨?_, ?_, ?_, fun _ => rfl⟩
      · rw [endsWith_snoc]
        rfl
      · intro isFalse
        cases isFalse
      · rw [streak_snoc]
        exact Nat.zero_le _
  | false =>
      have next : min (state.consecutiveClaimErrors + 1) u32Max =
          streak ClaimOutcome.isTransient outcomes + 1 := by
        omega
      have longer : streak ClaimOutcome.isTransient
          (outcomes ++ [ClaimOutcome.failed false]) =
            streak ClaimOutcome.isTransient outcomes + 1 := by
        rw [streak_snoc]
        rfl
      unfold PollState.claimFailed
      rw [next, if_neg Bool.false_ne_true]
      by_cases reached : maxConsecutiveClaimErrors ≤
          streak ClaimOutcome.isTransient outcomes + 1
      · rw [if_pos reached]
        have exact30 : streak ClaimOutcome.isTransient outcomes + 1 =
            maxConsecutiveClaimErrors := by
          omega
        refine ⟨?_, ?_, ?_, fun _ => rfl⟩
        · rw [longer, exact30, beq_self_eq_true, Bool.or_true]
        · intro isFalse
          cases isFalse
        · rw [longer]
          omega
      · rw [if_neg reached]
        refine ⟨?_, ?_, ?_, ?_⟩
        · have notReached : (streak ClaimOutcome.isTransient outcomes + 1 ==
              maxConsecutiveClaimErrors) = false := by
            rw [beq_eq_false_iff_ne]
            omega
          rw [endsWith_snoc, longer, notReached]
          exact going
        · intro _
          exact longer.symm
        · rw [longer]
          omega
        · intro isFatal
          rw [PollState.leave] at isFatal
          rw [going] at isFatal
          cases isFatal

theorem PollState.reports_claimSucceeded (outcomes : List ClaimOutcome)
    (going : state.lastFatal = false) (rows : List (Job T)) :
    (state.claimSucceeded rows).Reports (outcomes ++ [.succeeded]) := by
  have shorter : streak ClaimOutcome.isTransient
      (outcomes ++ [ClaimOutcome.succeeded]) = 0 := by
    rw [streak_snoc]
    rfl
  have lastFatal : (state.claimSucceeded rows).lastFatal = false := by
    unfold PollState.claimSucceeded
    split
    · exact going
    · exact going
  have counter : (state.claimSucceeded rows).consecutiveClaimErrors = 0 := by
    unfold PollState.claimSucceeded
    split
    · rfl
    · rfl
  refine ⟨?_, ?_, ?_, ?_⟩
  · rw [lastFatal, endsWith_snoc, shorter]
    rfl
  · intro _
    rw [counter, shorter]
  · rw [shorter]
    exact Nat.zero_le _
  · rw [lastFatal]
    intro isFatal
    cases isFatal

/-- A loop whose claim ends has not reported anything before. -/
theorem PollState.Reports.going (reports : state.Reports outcomes)
    (running : state.phase ≠ .exited) : state.lastFatal = false := by
  cases isFatal : state.lastFatal with
  | false => rfl
  | true => exact absurd (reports.exited isFatal) running

theorem PollState.Reports.step (reports : state.Reports outcomes)
    (taken : PollState.Step worker.toWorker state label target) :
    target.Reports (outcomes ++ label.claimOutcome.toList) := by
  by_cases noOutcome : label.claimOutcome = none
  · rw [noOutcome, Option.toList_none, List.append_nil]
    exact reports.quiet taken noOutcome
  · cases taken with
    | refuse permits headroom fatal inPhase =>
        apply reports.claimFailed
        apply reports.going
        rcases inPhase with inPhase | inPhase
        · rw [inPhase]
          simp
        · rw [inPhase]
          simp
    | receiveError permits failure fatal inPhase =>
        apply reports.claimFailed
        apply reports.going
        rw [inPhase]
        simp
    | loseReply permits reply fatal inPhase =>
        apply reports.claimFailed
        apply reports.going
        rw [inPhase]
        simp
    | finishDecode permits out inPhase =>
        apply PollState.reports_claimSucceeded
        apply reports.going
        rw [inPhase]
        simp
    | _ => exact absurd rfl noOutcome

theorem WorkerState.reports_of_step {state target : WorkerState T}
    {label : WorkerLabel} (reports : state.loop.Reports outcomes)
    (taken : WorkerState.Step worker state label target) :
    target.loop.Reports (outcomes ++ label.claimOutcome.toList) := by
  have unchanged := reports
  rw [← List.append_nil outcomes] at unchanged
  cases taken with
  | poll label loop polled alone unlocked => exact reports.step polled
  | spawn permit permits row rows inPhase =>
      have spawned : PollState.Step worker.toWorker state.loop .spawn _ :=
        .spawn state.loop permit permits row rows inPhase
      exact reports.step spawned
  | endTask before entry after progress loop shape advances ends released =>
      exact reports.step released
  | _ => exact unchanged

/-- The token may be fired by others. -/
theorem PollState.Reports.fire {state : WorkerState T}
    (reports : state.loop.Reports outcomes) (fired : Bool) :
    (state.fire fired).loop.Reports outcomes :=
  ⟨reports.fatal, reports.counted, reports.bounded, reports.exited⟩

end Poll

/-! ## The reaper -/

section Reaper

variable {T : Type} {worker : StartedWorker T} {task : ReaperTask}
  {outcomes : List TickOutcome} {setting : TickSetting}

/-- What the reaper has made of the outcomes of its ticks. -/
structure ReaperTask.Reports (task : ReaperTask)
    (outcomes : List TickOutcome) : Prop where
  fatal : task.state.lastFatal = endsWith TickOutcome.isFatal outcomes
  panics : task.state.lastPanicEscalation =
    if streak TickOutcome.isPanic outcomes = reaperPanicEscalationThreshold
    then some reaperPanicEscalationThreshold else none
  going : task.exited = false →
    task.state.lastFatal = false ∧
      task.state.consecutivePanics = streak TickOutcome.isPanic outcomes ∧
      streak TickOutcome.isPanic outcomes < reaperPanicEscalationThreshold

/-- A round handles its outcome and goes on or returns. -/
theorem ReaperTask.after_reaperBody (worker : StartedWorker T)
    (settings : Nat → TickSetting) (index : Nat) (state : ReaperState) :
    ReaperTask.after (reaperBody worker settings index state) =
      let handled := ((({ state with skipNextTick := false } :
        ReaperState).sendReap (settings index) worker.queue).afterTick worker
          ((settings index).outcome worker.queue state.jobs))
      ⟨handled.1, handled.2⟩ := by
  unfold reaperBody
  dsimp only
  cases returns : ((({ state with skipNextTick := false } :
      ReaperState).sendReap (settings index) worker.queue).afterTick worker
        ((settings index).outcome worker.queue state.jobs)).2 with
  | true =>
      rw [if_pos rfl]
      rfl
  | false =>
      rw [if_neg Bool.false_ne_true]
      split
      · rfl
      · rfl

/-- The statement of a round leaves the counters alone. -/
theorem ReaperState.sendReap_counters (state : ReaperState)
    (setting : TickSetting) (queue : String) :
    (state.sendReap setting queue).lastFatal = state.lastFatal ∧
      (state.sendReap setting queue).lastPanicEscalation =
        state.lastPanicEscalation ∧
      (state.sendReap setting queue).consecutivePanics =
        state.consecutivePanics := by
  unfold ReaperState.sendReap
  dsimp only
  split
  · exact ⟨rfl, rfl, rfl⟩
  · exact ⟨rfl, rfl, rfl⟩

/-- A tick that does not panic resets the counter or ends the loop. -/
theorem ReaperTask.reports_of_calm {task : ReaperTask}
    {outcome : TickOutcome} (outcomes : List TickOutcome)
    (calm : outcome.isPanic = false)
    (fatal : task.state.lastFatal = outcome.isFatal)
    (noPanics : task.state.lastPanicEscalation = none)
    (reset : task.exited = false →
      outcome.isFatal = false ∧ task.state.consecutivePanics = 0) :
    task.Reports (outcomes ++ [outcome]) := by
  have shorter : streak TickOutcome.isPanic (outcomes ++ [outcome]) = 0 := by
    rw [streak_snoc, calm]
    rfl
  refine ⟨?_, ?_, ?_⟩
  · rw [endsWith_snoc]
    exact fatal
  · rw [shorter]
    exact noPanics
  · intro going
    rw [shorter, fatal]
    exact ⟨(reset going).1, (reset going).2, by decide⟩

theorem ReaperTask.Reports.panicked {state : ReaperState}
    (reports : ReaperTask.Reports ⟨state, false⟩ outcomes) :
    ReaperTask.Reports
      ⟨(state.afterTick worker .panicked).1,
        (state.afterTick worker .panicked).2⟩
      (outcomes ++ [.panicked]) := by
  obtain ⟨notFatal, counter, short⟩ := reports.going rfl
  have noPanics := reports.panics
  rw [if_neg (Nat.ne_of_lt short)] at noPanics
  have longer : streak TickOutcome.isPanic (outcomes ++ [.panicked]) =
      streak TickOutcome.isPanic outcomes + 1 := by
    rw [streak_snoc]
    rfl
  have small : reaperPanicEscalationThreshold ≤ u32Max := by decide
  dsimp only at notFatal counter noPanics
  have next : min (state.consecutivePanics + 1) u32Max =
      streak TickOutcome.isPanic outcomes + 1 := by
    omega
  unfold ReaperState.afterTick
  dsimp only
  rw [next]
  by_cases reached : reaperPanicEscalationThreshold ≤
      streak TickOutcome.isPanic outcomes + 1
  · have third : streak TickOutcome.isPanic outcomes + 1 =
        reaperPanicEscalationThreshold := by
      omega
    rw [if_pos reached]
    refine ⟨?_, ?_, ?_⟩
    · rw [endsWith_snoc]
      exact notFatal
    · rw [longer, third, if_pos rfl]
      dsimp only
      rw [noPanics]
      rfl
    · intro going
      cases going
  · rw [if_neg reached]
    refine ⟨?_, ?_, ?_⟩
    · rw [endsWith_snoc]
      exact notFatal
    · rw [longer, if_neg (by omega)]
      exact noPanics
    · intro _
      rw [longer]
      exact ⟨notFatal, rfl, by omega⟩

theorem ReaperTask.Reports.afterTick {state : ReaperState}
    (reports : ReaperTask.Reports ⟨state, false⟩ outcomes)
    (outcome : TickOutcome) :
    ReaperTask.Reports
      ⟨(state.afterTick worker outcome).1, (state.afterTick worker outcome).2⟩
      (outcomes ++ [outcome]) := by
  obtain ⟨notFatal, _, short⟩ := reports.going rfl
  have noPanics := reports.panics
  rw [if_neg (Nat.ne_of_lt short)] at noPanics
  cases outcome with
  | reaped rows =>
      exact ReaperTask.reports_of_calm outcomes rfl notFatal noPanics
        fun _ => ⟨rfl, rfl⟩
  | failed fatal =>
      cases fatal with
      | true =>
          refine ReaperTask.reports_of_calm outcomes rfl rfl noPanics ?_
          intro going
          cases going
      | false =>
          exact ReaperTask.reports_of_calm outcomes rfl notFatal noPanics
            fun _ => ⟨rfl, rfl⟩
  | panicked => exact reports.panicked
  | cancelled =>
      refine ReaperTask.reports_of_calm outcomes rfl notFatal noPanics ?_
      intro going
      cases going
  | stopped =>
      refine ReaperTask.reports_of_calm outcomes rfl notFatal noPanics ?_
      intro going
      cases going

theorem ReaperTask.Reports.round (reports : task.Reports outcomes)
    (running : task.exited = false) (setting : TickSetting) :
    (ReaperTask.after (reaperBody worker (fun _ => setting) 0
      task.state)).Reports
        (outcomes ++ [setting.outcome worker.queue task.state.jobs]) := by
  rw [ReaperTask.after_reaperBody]
  apply ReaperTask.Reports.afterTick
  obtain ⟨fatal, panics, counter⟩ := ReaperState.sendReap_counters
    { task.state with skipNextTick := false } setting worker.queue
  refine ⟨fatal.trans reports.fatal, panics.trans reports.panics, ?_⟩
  intro _
  obtain ⟨notFatal, counted, short⟩ := reports.going running
  exact ⟨fatal.trans notFatal, counter.trans counted, short⟩

/-- The loop may end at its ticker. -/
theorem ReaperTask.Reports.ends (reports : task.Reports outcomes) :
    ({ task with exited := true } : ReaperTask).Reports outcomes := by
  refine ⟨reports.fatal, reports.panics, ?_⟩
  intro going
  cases going

end Reaper

/-! ## The call -/

section Call

variable {T : Type} {worker : StartedWorker T} {state target : JoinState T}
  {label : JoinLabel} {jobs : Jobs}
  {trace : List (Transition (JoinState T) JoinLabel)}

/-- Both loops have made of their outcomes what they should. -/
structure JoinState.Reports (state : JoinState T) (claims : List ClaimOutcome)
    (ticks : List TickOutcome) : Prop where
  poll : state.worker.loop.Reports claims
  reaper : state.reaper.Reports ticks

theorem JoinState.Reports.step {claims : List ClaimOutcome}
    {ticks : List TickOutcome} (reports : state.Reports claims ticks)
    (taken : JoinState.Step worker state label target) :
    target.Reports (claims ++ label.claimOutcome.toList)
      (ticks ++ label.tickOutcome.toList) := by
  have poll := reports.poll
  have reaper := reports.reaper
  rw [← List.append_nil claims] at poll
  rw [← List.append_nil ticks] at reaper
  cases taken with
  | worker label next taken own =>
      exact ⟨WorkerState.reports_of_step reports.poll taken, reaper⟩
  | reaperRound setting running stopped =>
      exact ⟨poll.fire _, reports.reaper.round running setting⟩
  | reaperEnds running told => exact ⟨poll, reaper.ends⟩
  | handlers label next inPhase taken drains =>
      have kept := WorkerState.reports_of_step reports.poll taken
      rcases drains with rfl | rfl
      · exact ⟨kept, reaper⟩
      · exact ⟨kept, reaper⟩
  | finish inPhase locked empty => exact ⟨poll, reaper⟩
  | _ => exact ⟨poll, reaper⟩

/-- The result is the verdict on the outcomes. -/
theorem JoinState.Reports.result {claims : List ClaimOutcome}
    {ticks : List TickOutcome} (reports : state.Reports claims ticks) :
    state.result = joinVerdict claims ticks := by
  unfold JoinState.result joinVerdict
  rw [reports.poll.fatal, reports.reaper.fatal, reports.reaper.panics]
  split
  · rfl
  · by_cases reached : streak TickOutcome.isPanic ticks =
        reaperPanicEscalationThreshold
    · rw [if_pos reached, if_pos reached]
    · rw [if_neg reached, if_neg reached]

theorem WorkerState.noOutcome_of_exited {state target : WorkerState T}
    {label : WorkerLabel} (exited : state.loop.phase = .exited)
    (taken : WorkerState.Step worker state label target) :
    label.claimOutcome = none := by
  cases taken with
  | poll label loop polled alone unlocked =>
      rcases PollState.silent_of_exited exited polled alone with
        isCancel | ofOrphan
      · rw [isCancel]
        rfl
      · cases label with
        | executeOrphan | executeOrphanMark | loseOrphanMark => rfl
        | _ => cases ofOrphan
  | _ => rfl

/-- A call that has returned sees no further outcomes. -/
theorem JoinState.OnCourse.noOutcome_of_left (onCourse : state.OnCourse)
    {result : Except ShutdownError Unit} (left : state.call = .left result)
    (taken : JoinState.Step worker state label target) :
    target.call = state.call ∧ label.claimOutcome = none ∧
      label.tickOutcome = none := by
  unfold JoinState.OnCourse at onCourse
  rw [left] at onCourse
  have returned {phase : JoinPhase} (other : phase ≠ .left result)
      (inPhase : state.call = phase) : False := by
    rw [left] at inPhase
    exact other inPhase.symm
  cases taken with
  | worker label next taken own =>
      exact ⟨rfl, WorkerState.noOutcome_of_exited onCourse.1.exited taken, rfl⟩
  | reaperRound setting running stopped =>
      rw [onCourse.2] at running
      cases running
  | reaperEnds running told => exact ⟨rfl, rfl, rfl⟩
  | take inPhase present => exact (returned (by simp) inPhase).elim
  | nothingToTake inPhase absent => exact (returned (by simp) inPhase).elim
  | pollJoined inPhase exited => exact (returned (by simp) inPhase).elim
  | reaperJoined inPhase exited => exact (returned (by simp) inPhase).elim
  | handlers label next inPhase taken drains =>
      exact (returned (by simp) inPhase).elim
  | finish inPhase locked empty => exact (returned (by simp) inPhase).elim

/-- Only the last step of the call leaves it with a result. -/
theorem JoinState.Step.left (taken : JoinState.Step worker state label target)
    (onCourse : state.OnCourse) {result : Except ShutdownError Unit}
    (left : target.call = .left result) :
    state.call = .left result ∨
      result = state.result ∧ label.claimOutcome = none ∧
        label.tickOutcome = none := by
  cases taken with
  | worker label next taken own => exact Or.inl left
  | reaperRound setting running stopped => exact Or.inl left
  | reaperEnds running told => exact Or.inl left
  | take inPhase present => cases left
  | nothingToTake inPhase absent =>
      unfold JoinState.OnCourse at onCourse
      rw [inPhase, absent] at onCourse
      cases onCourse.1
  | pollJoined inPhase exited => cases left
  | reaperJoined inPhase exited => cases left
  | handlers label next inPhase taken drains => exact Or.inl left
  | finish inPhase locked empty =>
      cases left
      exact Or.inr ⟨rfl, rfl, rfl⟩

theorem JoinState.reports_of_run
    (run : Run (JoinState.Step worker) (worker.justJoined jobs) trace state) :
    state.Reports (claimOutcomes trace) (tickOutcomes trace) := by
  apply run.historyInvariant fun history state =>
    state.Reports (claimOutcomes history) (tickOutcomes history)
  · refine ⟨⟨rfl, fun _ => rfl, Nat.zero_le _, ?_⟩, rfl, rfl, ?_⟩
    · intro isFatal
      cases isFatal
    · intro _
      exact ⟨rfl, rfl, Nat.zero_lt_succ _⟩
  · intro history source label target earlier reports taken
    unfold claimOutcomes tickOutcomes
    rw [filterMap_snoc, filterMap_snoc]
    exact reports.step taken

/-- The result of the call is the verdict on the claims and the ticks of the
run: a fatal error if the last claim or the last tick failed fatally or thirty
claims failed in a row, else a panic escalation if the last three ticks
panicked, else `Ok`. -/
theorem join_reports_what_happened {result : Except ShutdownError Unit}
    (run : Run (JoinState.Step worker) (worker.justJoined jobs) trace state)
    (left : state.call = .left result) :
    result = joinVerdict (claimOutcomes trace) (tickOutcomes trace) := by
  have returned := run.historyInvariant
    (fun history state => ∀ result, state.call = .left result →
      result = joinVerdict (claimOutcomes history) (tickOutcomes history))
    (by
      intro result left
      cases left)
    (by
      intro history source label target earlier before taken result left
      have onCourse := JoinState.onCourse_of_run earlier
      have reports := JoinState.reports_of_run earlier
      unfold claimOutcomes tickOutcomes at before reports ⊢
      rw [filterMap_snoc, filterMap_snoc]
      rcases taken.left onCourse left with already | ⟨isResult, noClaim, noTick⟩
      · obtain ⟨_, noClaim, noTick⟩ := onCourse.noOutcome_of_left already taken
        simp only [noClaim, noTick, Option.toList_none, List.append_nil]
        exact before result already
      · simp only [noClaim, noTick, Option.toList_none, List.append_nil,
          isResult]
        exact reports.result)
  exact returned result left

end Call

/-- The first claim of the worker fails fatally. -/
theorem join_reports_on_oneSlot :
    ∃ trace finish result,
      Run (JoinState.Step OneSlot.worker)
        (OneSlot.worker.justJoined OneSlot.pushed) trace finish ∧
      finish.call = .left result ∧
      claimOutcomes trace = [.failed true] ∧
      result = joinVerdict (claimOutcomes trace) (tickOutcomes trace) ∧
      result = .error .fatal := by
  have start : Run (JoinState.Step OneSlot.worker)
      (OneSlot.worker.justJoined OneSlot.pushed) []
      (OneSlot.worker.justJoined OneSlot.pushed) := Run.refl
  have waits := start.snoc (.take _ rfl rfl)
  have ticked := waits.snoc (.worker _ _ _
    (.poll _ _ _ (.tick _ rfl) rfl rfl) ⟨rfl, by simp⟩)
  have acquired := ticked.snoc (.worker _ _ _
    (.poll _ _ _ (.acquire _ 0 [] rfl rfl) rfl rfl) ⟨rfl, by simp⟩)
  have ready := acquired.snoc (.worker _ _ _
    (.poll _ _ _ (.gathered _ [0] rfl (Or.inr rfl)) rfl rfl) ⟨rfl, by simp⟩)
  have claiming := ready.snoc (.worker _ _ _
    (.poll _ _ _ (.snapshot _ [0] rfl) rfl rfl) ⟨rfl, by simp⟩)
  have refused := claiming.snoc (.worker _ _ _
    (.poll _ _ _ (.refuse _ [0] _ true (Or.inl rfl)) rfl rfl) ⟨rfl, by simp⟩)
  have pollJoined := refused.snoc (.pollJoined _ rfl rfl)
  have reaperEnded := pollJoined.snoc (.reaperEnds _ rfl rfl)
  have reaperJoined := reaperEnded.snoc (.reaperJoined _ rfl rfl)
  have locked := reaperJoined.snoc (.handlers _ .drain _ rfl
    (.drain _ rfl (Or.inr rfl) rfl) (Or.inl rfl))
  have noEntries : ∀ entry ∈ OneSlot.worker.initial.entries,
      entry.joined = true := by
    intro entry member
    cases member
  have finished := locked.snoc (.finish _ rfl rfl noEntries)
  exact ⟨_, _, _, finished, rfl, rfl, join_reports_what_happened finished rfl,
    rfl⟩

end PgWorkQueue
