import PgWorkQueue.System.Transitions

/-!
# `tick_once`

One call claims a batch, buries the rows that do not decode, runs the handler
on the others one after the other, and counts the results in a `TickStats`.
Every statement of the call is recorded with the table it found and the table it
left, so that the counters can be compared with the rows that moved.  Other
sessions may write to the table before each statement, and the connection may
break before a statement is executed or before its answer arrives.
-/

namespace PgWorkQueue

/-! ## The call -/

/-- What `tick_once` reads of a worker.  The handler returns for every job, and
`backoffNext` is `BackoffPolicy::next` with the jitter it draws for the job. -/
structure TickWorker (T : Type) extends Worker T where
  pollInterval : Duration
  handler : Job T → Except JobError Unit
  backoffNext : Job T → Nat → Duration

/-- Where in the call a statement is sent. -/
inductive TickSite where
  | claim
  /-- The `mark_dead` of a row that does not decode. -/
  | bury
  /-- The mark that `apply_handler_result` issues. -/
  | handled
  deriving DecidableEq

/-- What becomes of a statement and its answer: the connection may break before
the statement is executed, or after that and before the answer arrives. -/
inductive Delivery where
  | answered
  | brokenBefore
  | brokenAfter
  deriving DecidableEq

structure TickEntry where
  site : TickSite
  delivery : Delivery
  before : Jobs
  after : Jobs

/-- What a statement meets: what others wrote before it, its instant, and how
the connection holds. -/
structure StatementSetting where
  others : Jobs → Jobs
  now : Int
  delivery : Delivery

/-- An `Err` of a statement: from the server, or from the connection. -/
inductive SqlxError where
  | server (failure : SqlError)
  | connection

/-- The table and the statements sent so far. -/
structure TickRun where
  jobs : Jobs
  log : List TickEntry

section Call

variable {T : Type}

def TickWorker.retryConfig (worker : TickWorker T) (job : Job T) :
    RetryConfig where
  backoffNext := worker.backoffNext job
  pollInterval := worker.pollInterval

/-- The record of a statement that is about to be sent. -/
def TickRun.entry (run : TickRun) (settings : Nat → StatementSetting)
    (site : TickSite) (statement : Statement T) : TickEntry :=
  let setting := settings run.log.length
  let before := setting.others run.jobs
  { site := site
    delivery := setting.delivery
    before := before
    after :=
      if setting.delivery = .brokenBefore then before
      else (execute before setting.now statement).1 }

/-- A statement is sent; `none` stands for an error of the connection. -/
def TickRun.send (run : TickRun) (settings : Nat → StatementSetting)
    (site : TickSite) (statement : Statement T) : TickRun × Option Reply :=
  let setting := settings run.log.length
  let entry := run.entry settings site statement
  (⟨entry.after, run.log ++ [entry]⟩,
    if setting.delivery = .answered then
      some (execute entry.before setting.now statement).2
    else none)

theorem TickRun.log_send (run : TickRun) (settings : Nat → StatementSetting)
    (site : TickSite) (statement : Statement T) :
    (run.send settings site statement).1.log =
      run.log ++ [run.entry settings site statement] :=
  rfl

/-- What a `flip_*_tick` gets from its mark. -/
def markAnswer : Option Reply → MarkResult
  | some reply => reply.markResult
  | none => .failed

/-- The loop of `claim_and_decode`, with the jobs it returns. -/
def decodeRows (codec : Codec T) (settings : Nat → StatementSetting) :
    TickRun → List RawClaimedRow → TickRun × List (Job T)
  | run, [] => (run, [])
  | run, raw :: rest =>
      match decodeRow codec raw with
      | .ok job =>
          let decoded := decodeRows codec settings run rest
          (decoded.1, job :: decoded.2)
      | .error reason =>
          let statement : Statement T :=
            .mark raw.id raw.leaseToken (.dead reason)
          -- How many rows the statement moved is only logged.
          decodeRows codec settings (run.send settings .bury statement).1 rest

/-- The loop of `tick_once` over the claimed jobs; `none` when
`apply_handler_result` panics and the call unwinds. -/
def handleJobs (worker : TickWorker T) (settings : Nat → StatementSetting) :
    TickRun → TickStats → List (Job T) → TickRun × Option TickStats
  | run, stats, [] => (run, some stats)
  | run, stats, job :: rest =>
      match applyHandlerResult (worker.retryConfig job) job.attempts
          job.maxAttempts (worker.handler job) with
      | none => (run, none)
      | some mark =>
          let statement : Statement T := .mark job.id job.leaseToken mark
          let sent := run.send settings .handled statement
          handleJobs worker settings sent.1
            (mark.flipTick none job stats (markAnswer sent.2)).1 rest

/-- The claim of `tick_once`, which knows no headroom. -/
def TickWorker.claim (worker : TickWorker T) (gen : Nat → Uuid)
    (lockedElsewhere : Nat → Bool) : Statement T :=
  .claim (worker.toWorker.claimParams worker.batchSize ∅) gen lockedElsewhere

/-- `tick_once`. -/
def tickOnce (worker : TickWorker T) (settings : Nat → StatementSetting)
    (gen : Nat → Uuid) (lockedElsewhere : Nat → Bool) (jobs : Jobs) :
    TickRun × Option (Except SqlxError TickStats) :=
  let claim := (TickRun.mk jobs []).send settings .claim
    (worker.claim gen lockedElsewhere)
  match claim.2 with
  | none => (claim.1, some (.error .connection))
  | some (.failed failure) => (claim.1, some (.error (.server failure)))
  | some reply =>
      let decoded :=
        decodeRows worker.codec settings claim.1 reply.claimedRows
      let stats : TickStats :=
        { claimed := decoded.2.length
          completed := 0
          failed := 0
          fencedOut := 0 }
      let handled := handleJobs worker settings decoded.1 stats decoded.2
      (handled.1, handled.2.map .ok)

end Call

/-! ## The rows that moved -/

/-- How many rows a statement moved to a status. -/
def TickEntry.movedTo (target : JobStatus) (entry : TickEntry) : Nat :=
  entry.before.rows.countP fun row =>
    (changeOf entry.before entry.after row.id).any fun change =>
      change.toStatus == target

/-- How many rows some of the statements moved to a status. -/
def rowsMoved (counts : TickEntry → Bool) (target : JobStatus) :
    List TickEntry → Nat
  | [] => 0
  | entry :: rest =>
      (if counts entry then entry.movedTo target else 0) +
        rowsMoved counts target rest

/-- The counters of a call say what its statements did. -/
structure TickRun.AccountedBy (run : TickRun) (stats : TickStats) : Prop where
  claimed : stats.claimed = rowsMoved (·.site == .claim) .running run.log
  completed : stats.completed = rowsMoved (fun _ => true) .done run.log
  failed : stats.failed =
    rowsMoved (·.site == .handled) .awaitingRetry run.log +
      rowsMoved (·.site == .handled) .dead run.log
  within : stats.completed + stats.failed + stats.fencedOut ≤ stats.claimed

/-- The mark of a handled job was executed, and its answer did not arrive. -/
def TickEntry.unseen (entry : TickEntry) : Bool :=
  entry.site == .handled && entry.delivery == .brokenAfter

/-- How many rows a mark moved. -/
def TickEntry.ended (entry : TickEntry) : Nat :=
  entry.movedTo .done + entry.movedTo .awaitingRetry + entry.movedTo .dead

section Sums

variable {counts : TickEntry → Bool} {target : JobStatus}

theorem rowsMoved_append (counts : TickEntry → Bool) (target : JobStatus)
    (first second : List TickEntry) :
    rowsMoved counts target (first ++ second) =
      rowsMoved counts target first + rowsMoved counts target second := by
  induction first with
  | nil => rw [List.nil_append, rowsMoved, Nat.zero_add]
  | cons entry rest inductionHypothesis =>
      rw [List.cons_append, rowsMoved, rowsMoved, inductionHypothesis,
        Nat.add_assoc]

theorem rowsMoved_singleton (entry : TickEntry) :
    rowsMoved counts target [entry] =
      if counts entry then entry.movedTo target else 0 := by
  rw [rowsMoved, rowsMoved, Nat.add_zero]

theorem rowsMoved_eq_zero_iff {added : List TickEntry} :
    rowsMoved counts target added = 0 ↔
      ∀ entry ∈ added, counts entry = true → entry.movedTo target = 0 := by
  induction added with
  | nil => simp [rowsMoved]
  | cons entry rest inductionHypothesis =>
      rw [rowsMoved, Nat.add_eq_zero_iff, inductionHypothesis,
        List.forall_mem_cons]
      refine and_congr_left' ?_
      cases counts entry with
      | true => simp
      | false => simp

end Sums

section Statements

variable {T : Type} (jobs : Jobs) (now : Int)

/-- A mark that answers with one row moved that row, to the status of the
mark; any other mark moved none. -/
theorem movedTo_mark (site : TickSite) (target : JobStatus) (id : Nat)
    (token : Uuid) (mark : Mark) (delivery : Delivery) :
    let sent := execute (T := T) jobs now (.mark id token mark)
    TickEntry.movedTo target ⟨site, delivery, jobs, sent.1⟩ =
      if sent.2.markResult = .affected 1 ∧ mark.status = target then 1
      else 0 := by
  intro sent
  unfold TickEntry.movedTo
  rcases changeOf_mark (T := T) jobs now id token mark with
    ⟨other, unchanged⟩ | ⟨one, ⟨row, found, _, _, changed⟩, unchanged⟩
  · rw [if_neg fun both => other both.1, List.countP_eq_zero]
    intro row _ counted
    rw [unchanged row.id] at counted
    cases counted
  · have pinned : ∀ row : Row, ((changeOf jobs sent.1 row.id).any
        fun change => change.toStatus == target) = true → row.id = id := by
      intro row counted
      by_contra differs
      rw [unchanged row.id differs] at counted
      cases counted
    have key := (Jobs.find_eq_some_iff.mp found).2
    have looked : Library.KeyedRows.lookup Row.id id jobs.rows = some row :=
      found
    rw [Library.KeyedRows.countP_eq_of_key jobs.distinct pinned, looked,
      Option.any_some, key, changed]
    simp [one, sent]

/-- A claim moves to `running` as many rows as it hands out. -/
theorem movedTo_claim (site : TickSite) (delivery : Delivery)
    (params : ClaimParams) (gen : Nat → Uuid) (lockedElsewhere : Nat → Bool) :
    let sent := execute (T := T) jobs now (.claim params gen lockedElsewhere)
    TickEntry.movedTo .running ⟨site, delivery, jobs, sent.1⟩ =
      sent.2.claimedRows.length := by
  intro sent
  obtain ⟨distinct, each⟩ := claimedRows_spec jobs now
    (Statement.claim (T := T) params gen lockedElsewhere)
  have stored : sent.2.claimedRows.map RawClaimedRow.id ⊆
      jobs.rows.map Row.id := by
    intro id listed
    obtain ⟨raw, member, rfl⟩ := List.mem_map.mp listed
    obtain ⟨_, _, _, row, _, _, found, _⟩ := each raw member
    rw [← Jobs.id_of_find found]
    exact List.mem_map_of_mem (Jobs.find_eq_some_iff.mp found).1
  have counted := Library.KeyedRows.length_filter_contains jobs.distinct
    distinct stored
  rw [List.length_map] at counted
  rw [← counted, TickEntry.movedTo, List.countP_eq_length_filter]
  congr 1
  apply List.filter_congr
  intro row _
  rcases changeOf_claim (T := T) jobs now params gen lockedElsewhere row.id
    with ⟨listed, change, changed, running⟩ | ⟨notListed, unchanged⟩
  · rw [changed, Option.any_some, running, List.contains_iff_mem.mpr listed]
    rfl
  · rw [unchanged, Option.any_none]
    exact (Bool.eq_false_iff.mpr (mt List.contains_iff_mem.mp notListed)).symm

theorem movedTo_claim_of_ne (site : TickSite) (delivery : Delivery)
    (params : ClaimParams) (gen : Nat → Uuid) (lockedElsewhere : Nat → Bool)
    {target : JobStatus} (other : target ≠ .running) :
    TickEntry.movedTo target ⟨site, delivery, jobs, (execute (T := T) jobs now
      (.claim params gen lockedElsewhere)).1⟩ = 0 := by
  rw [TickEntry.movedTo, List.countP_eq_zero]
  intro row _ counted
  rcases changeOf_claim (T := T) jobs now params gen lockedElsewhere row.id
    with ⟨_, change, changed, running⟩ | ⟨_, unchanged⟩
  · rw [changed, Option.any_some, running, beq_iff_eq] at counted
    exact other counted.symm
  · rw [unchanged] at counted
    cases counted

/-- A statement that changes nothing moves no row. -/
theorem movedTo_unchanged (site : TickSite) (delivery : Delivery)
    (target : JobStatus) :
    TickEntry.movedTo target ⟨site, delivery, jobs, jobs⟩ = 0 := by
  rw [TickEntry.movedTo, List.countP_eq_zero]
  intro row _ counted
  rw [changeOf_of_same rfl] at counted
  cases counted

end Statements

/-- What a mark of the call moved. -/
theorem TickRun.movedTo_entry {T : Type} (run : TickRun)
    (settings : Nat → StatementSetting) (site : TickSite) (target : JobStatus)
    (id : Nat) (token : Uuid) (mark : Mark) :
    let setting := settings run.log.length
    let sent := execute (T := T) (setting.others run.jobs) setting.now
      (.mark id token mark)
    (run.entry (T := T) settings site (.mark id token mark)).movedTo target =
      if setting.delivery ≠ .brokenBefore ∧
          sent.2.markResult = .affected 1 ∧ mark.status = target then 1
      else 0 := by
  intro setting sent
  by_cases broken : setting.delivery = .brokenBefore
  · rw [if_neg fun both => both.1 broken]
    have unchanged : run.entry (T := T) settings site (.mark id token mark) =
        ⟨site, setting.delivery, setting.others run.jobs,
          setting.others run.jobs⟩ := by
      rw [TickRun.entry, if_pos broken]
    rw [unchanged]
    exact movedTo_unchanged _ _ _ _
  · have executed : run.entry (T := T) settings site (.mark id token mark) =
        ⟨site, setting.delivery, setting.others run.jobs, sent.1⟩ := by
      rw [TickRun.entry, if_neg broken]
    rw [executed, movedTo_mark]
    simp only [broken, ne_eq, not_false_eq_true, true_and]
    rfl

/-! ## The loop of `claim_and_decode` -/

section Decoding

variable {T : Type} {codec : Codec T} {settings : Nat → StatementSetting}

theorem decodeRows_jobs (run : TickRun) (raws : List RawClaimedRow) :
    (decodeRows codec settings run raws).2 = decodedJobs codec raws := by
  induction raws generalizing run with
  | nil => rfl
  | cons raw rest inductionHypothesis =>
      unfold decodeRows decodedJobs
      cases decoded : decodeRow codec raw with
      | ok job =>
          rw [List.filterMap_cons_some (by rw [decoded]; rfl)]
          exact congrArg (job :: ·) (inductionHypothesis run)
      | error reason =>
          rw [List.filterMap_cons_none (by rw [decoded]; rfl)]
          exact inductionHypothesis _

/-- Statements that are neither the claim nor sent for a handler, and that
move no row to `done`. -/
structure OnlyBuries (added : List TickEntry) : Prop where
  sites : ∀ entry ∈ added, entry.site = .bury
  noneDone : ∀ entry ∈ added, entry.movedTo .done = 0

theorem onlyBuries_decodeRows (codec : Codec T)
    (settings : Nat → StatementSetting) (run : TickRun)
    (raws : List RawClaimedRow) :
    ∃ added, (decodeRows codec settings run raws).1.log = run.log ++ added ∧
      OnlyBuries added := by
  induction raws generalizing run with
  | nil => exact ⟨[], (List.append_nil _).symm, by simp, by simp⟩
  | cons raw rest inductionHypothesis =>
      unfold decodeRows
      cases decodeRow codec raw with
      | ok job => exact inductionHypothesis run
      | error reason =>
          let statement : Statement T :=
            .mark raw.id raw.leaseToken (.dead reason)
          obtain ⟨added, log, buries⟩ := inductionHypothesis
            (run.send settings .bury statement).1
          refine ⟨run.entry settings .bury statement :: added, ?_, ?_, ?_⟩
          · rw [TickRun.log_send, List.append_assoc] at log
            exact log
          · intro entry member
            rcases List.mem_cons.mp member with rfl | later
            · rfl
            · exact buries.sites entry later
          · intro entry member
            rcases List.mem_cons.mp member with rfl | later
            · exact (run.movedTo_entry _ _ _ _ _ _).trans
                (if_neg fun both => by cases both.2.2)
            · exact buries.noneDone entry later

theorem OnlyBuries.rowsMoved_site {added : List TickEntry}
    (buries : OnlyBuries added) (site : TickSite) (other : site ≠ .bury)
    (target : JobStatus) : rowsMoved (·.site == site) target added = 0 := by
  apply rowsMoved_eq_zero_iff.mpr
  intro entry member same
  rw [buries.sites entry member, beq_iff_eq] at same
  exact absurd same.symm other

theorem OnlyBuries.rowsMoved_unseen {added : List TickEntry}
    (buries : OnlyBuries added) (target : JobStatus) :
    rowsMoved TickEntry.unseen target added = 0 := by
  apply rowsMoved_eq_zero_iff.mpr
  intro entry member unseen
  rw [TickEntry.unseen, buries.sites entry member] at unseen
  cases unseen

theorem OnlyBuries.rowsMoved_done {added : List TickEntry}
    (buries : OnlyBuries added) :
    rowsMoved (fun _ => true) .done added = 0 :=
  rowsMoved_eq_zero_iff.mpr fun entry member _ => buries.noneDone entry member

end Decoding

/-! ## The loop of `tick_once` -/

/-- What a mark adds to the counters is what it moved. -/
theorem Mark.tally_moved (mark : Mark) (result : MarkResult) :
    (mark.tally (some result)).completed =
        (if result = .affected 1 ∧ mark.status = .done then 1 else 0) ∧
      (mark.tally (some result)).failed =
        (if result = .affected 1 ∧ mark.status = .awaitingRetry then 1
          else 0) +
        (if result = .affected 1 ∧ mark.status = .dead then 1 else 0) ∧
      (mark.tally (some result)).completed +
        (mark.tally (some result)).failed +
        (mark.tally (some result)).fencedOut ≤ 1 := by
  by_cases one : result = .affected 1
  · subst one
    cases mark with
    | done => exact ⟨rfl, rfl, Nat.le_refl 1⟩
    | retry reason delay => exact ⟨rfl, rfl, Nat.le_refl 1⟩
    | dead reason => exact ⟨rfl, rfl, Nat.le_refl 1⟩
  · have other : some result ≠ some (.affected 1) := by
      intro same
      exact one (Option.some.inj same)
    have tally : (mark.tally (some result)).completed = 0 ∧
        (mark.tally (some result)).failed = 0 ∧
        (mark.tally (some result)).outcomes ≤ 1 :=
      Mark.tally_of_not_one_row other
    obtain ⟨completed, failed, outcomes⟩ := tally
    unfold Stats.outcomes at outcomes
    simp only [one, false_and, if_false]
    omega

/-- What the statements sent for a number of jobs did to the counters: what
they moved is counted, except where the answer did not arrive. -/
structure Counted (added : List TickEntry) (before after : TickStats)
    (jobs : Nat) : Prop where
  claimed : after.claimed = before.claimed
  completed : after.completed + rowsMoved TickEntry.unseen .done added =
    before.completed + rowsMoved (fun _ => true) .done added
  failed : after.failed + (rowsMoved TickEntry.unseen .awaitingRetry added +
      rowsMoved TickEntry.unseen .dead added) =
    before.failed + (rowsMoved (·.site == .handled) .awaitingRetry added +
      rowsMoved (·.site == .handled) .dead added)
  outcomes : after.completed + after.failed + after.fencedOut ≤
    before.completed + before.failed + before.fencedOut + jobs
  noClaim : rowsMoved (·.site == .claim) .running added = 0

/-- The accounts of two stretches of statements add up. -/
theorem Counted.append {first second : List TickEntry}
    {before middle after : TickStats} {firstJobs secondJobs : Nat}
    (counted : Counted first before middle firstJobs)
    (later : Counted second middle after secondJobs) :
    Counted (first ++ second) before after (firstJobs + secondJobs) := by
  have completed := counted.completed
  have laterCompleted := later.completed
  have failed := counted.failed
  have laterFailed := later.failed
  have outcomes := counted.outcomes
  have laterOutcomes := later.outcomes
  refine ⟨later.claimed.trans counted.claimed, ?_, ?_, ?_, ?_⟩
  · simp only [rowsMoved_append]
    omega
  · simp only [rowsMoved_append]
    omega
  · omega
  · rw [rowsMoved_append, counted.noClaim, later.noClaim]

section Handling

variable {T : Type} {worker : TickWorker T}
  {settings : Nat → StatementSetting}

/-- A mark whose answer arrives is counted by what it moved. -/
theorem counted_answered {entry : TickEntry} {mark : Mark}
    {result : MarkResult} (stats : TickStats) (job : Job T)
    (handled : entry.site = .handled) (answered : entry.delivery = .answered)
    (moved : ∀ target, entry.movedTo target =
      if result = .affected 1 ∧ mark.status = target then 1 else 0) :
    Counted [entry] stats (mark.flipTick none job stats result).1 1 := by
  obtain ⟨completed, failed, outcomes⟩ := mark.tally_moved result
  rw [Mark.flipTick_stats]
  constructor
  · rfl
  · simp [rowsMoved_singleton, TickEntry.unseen, answered, moved,
      TickStats.plus, completed]
  · simp [rowsMoved_singleton, TickEntry.unseen, answered, handled, moved,
      TickStats.plus, failed]
  · dsimp only [TickStats.plus]
    omega
  · simp [rowsMoved_singleton, handled]

/-- A mark whose answer does not arrive is not counted. -/
theorem counted_unanswered {entry : TickEntry} (stats : TickStats)
    (handled : entry.site = .handled)
    (unmoved : entry.delivery ≠ .brokenAfter →
      ∀ target, entry.movedTo target = 0) :
    Counted [entry] stats stats 1 := by
  by_cases lost : entry.delivery = .brokenAfter
  · constructor
    · rfl
    · simp [rowsMoved_singleton, TickEntry.unseen, lost, handled]
    · simp [rowsMoved_singleton, TickEntry.unseen, lost, handled]
    · exact Nat.le_succ _
    · simp [rowsMoved_singleton, handled]
  · have none := unmoved lost
    constructor
    · rfl
    · simp [rowsMoved_singleton, none]
    · simp [rowsMoved_singleton, none]
    · exact Nat.le_succ _
    · simp [rowsMoved_singleton, none]

theorem counted_mark (settings : Nat → StatementSetting) (run : TickRun)
    (stats : TickStats) (job : Job T) (mark : Mark) :
    let sent := run.send settings .handled
      (.mark job.id job.leaseToken mark : Statement T)
    ∃ entry, sent.1.log = run.log ++ [entry] ∧
      Counted [entry] stats
        (mark.flipTick none job stats (markAnswer sent.2)).1 1 := by
  intro sent
  have moved (target : JobStatus) := run.movedTo_entry (T := T) settings
    .handled target job.id job.leaseToken mark
  refine ⟨_, run.log_send settings .handled _, ?_⟩
  by_cases answered : (settings run.log.length).delivery = .answered
  · have answer : sent.2 = some _ := if_pos answered
    rw [answer]
    refine counted_answered stats job rfl answered ?_
    intro target
    rw [moved, answered]
    simp only [ne_eq, reduceCtorEq, not_false_eq_true, true_and]
    rfl
  · have answer : sent.2 = none := if_neg answered
    have uncounted : (mark.flipTick none job stats .failed).1 = stats := by
      cases mark <;> rfl
    rw [answer, markAnswer, uncounted]
    refine counted_unanswered stats rfl ?_
    intro notAfter target
    rw [moved]
    refine if_neg fun both => both.1 ?_
    cases delivery : (settings run.log.length).delivery with
    | answered => exact absurd delivery answered
    | brokenBefore => rfl
    | brokenAfter => exact absurd delivery notAfter

theorem counted_handleJobs {jobs : List (Job T)} {run final : TickRun}
    {stats result : TickStats}
    (outcome : handleJobs worker settings run stats jobs =
      (final, some result)) :
    ∃ added, final.log = run.log ++ added ∧
      Counted added stats result jobs.length := by
  induction jobs generalizing run stats with
  | nil =>
      cases outcome
      exact ⟨[], (List.append_nil _).symm, rfl, rfl, rfl, Nat.le_refl _, rfl⟩
  | cons job rest inductionHypothesis =>
      unfold handleJobs at outcome
      split at outcome
      · cases outcome
      · rename_i mark issued
        obtain ⟨entry, first, counted⟩ :=
          counted_mark settings run stats job mark
        obtain ⟨added, log, later⟩ := inductionHypothesis outcome
        refine ⟨[entry] ++ added, ?_, ?_⟩
        · rw [log, first, List.append_assoc]
        · rw [List.length_cons, Nat.add_comm]
          exact counted.append later

end Handling

/-! ## The whole call -/

section Account

variable {T : Type} {worker : TickWorker T}
  {settings : Nat → StatementSetting} {gen : Nat → Uuid}
  {lockedElsewhere : Nat → Bool} {jobs : Jobs} {run : TickRun}
  {stats : TickStats}

/-- The rows that the claim of the call hands out. -/
def TickWorker.claimedRows (worker : TickWorker T)
    (settings : Nat → StatementSetting) (gen : Nat → Uuid)
    (lockedElsewhere : Nat → Bool) (jobs : Jobs) : List RawClaimedRow :=
  (execute ((settings 0).others jobs) (settings 0).now
    (worker.claim gen lockedElsewhere)).2.claimedRows

/-- An answer that arrives is the one the server gave. -/
theorem reply_of_send {start : TickRun} {site : TickSite}
    {statement : Statement T} {reply : Reply}
    (answer : (start.send settings site statement).2 = some reply) :
    (settings start.log.length).delivery = .answered ∧
      reply = (execute ((settings start.log.length).others start.jobs)
        (settings start.log.length).now statement).2 := by
  unfold TickRun.send at answer
  dsimp only at answer
  split at answer
  · rename_i answered
    exact ⟨answered, (Option.some.inj answer).symm⟩
  · cases answer

/-- A call that returns counters went through its two loops. -/
theorem handleJobs_of_tickOnce
    (outcome : tickOnce worker settings gen lockedElsewhere jobs =
      (run, some (.ok stats))) :
    let raws := worker.claimedRows settings gen lockedElsewhere jobs
    let claim := (TickRun.mk jobs []).send settings .claim
      (worker.claim gen lockedElsewhere)
    (settings 0).delivery = .answered ∧
      handleJobs worker settings
          (decodeRows worker.codec settings claim.1 raws).1
          ⟨(decodedJobs worker.codec raws).length, 0, 0, 0⟩
          (decodedJobs worker.codec raws) =
        (run, some stats) := by
  intro raws claim
  unfold tickOnce at outcome
  dsimp only at outcome
  split at outcome
  · cases outcome
  · cases outcome
  · rename_i reply _ answer
    obtain ⟨answered, isReply⟩ := reply_of_send answer
    have claimed : reply.claimedRows = raws :=
      congrArg Reply.claimedRows isReply
    rw [decodeRows_jobs, claimed] at outcome
    obtain ⟨sameRun, mapped⟩ := Prod.mk.inj outcome
    obtain ⟨result, returned, same⟩ := Option.map_eq_some_iff.mp mapped
    cases same
    exact ⟨answered, Prod.ext sameRun returned⟩

/-- What the counters of a call say: `claimed` is the number of rows that
decoded, and the others leave out what marks without an answer moved. -/
theorem account_of_tickOnce
    (outcome : tickOnce worker settings gen lockedElsewhere jobs =
      (run, some (.ok stats))) :
    let raws := worker.claimedRows settings gen lockedElsewhere jobs
    stats.claimed = (decodedJobs worker.codec raws).length ∧
      rowsMoved (·.site == .claim) .running run.log = raws.length ∧
      stats.completed + rowsMoved TickEntry.unseen .done run.log =
        rowsMoved (fun _ => true) .done run.log ∧
      stats.failed + (rowsMoved TickEntry.unseen .awaitingRetry run.log +
          rowsMoved TickEntry.unseen .dead run.log) =
        rowsMoved (·.site == .handled) .awaitingRetry run.log +
          rowsMoved (·.site == .handled) .dead run.log ∧
      stats.completed + stats.failed + stats.fencedOut ≤ stats.claimed := by
  intro raws
  obtain ⟨answered, handling⟩ := handleJobs_of_tickOnce outcome
  obtain ⟨handled, handledLog, counted⟩ := counted_handleJobs handling
  obtain ⟨buried, buriedLog, buries⟩ := onlyBuries_decodeRows
    worker.codec settings
    ((TickRun.mk jobs []).send settings .claim
      (worker.claim gen lockedElsewhere)).1 raws
  let before := (settings 0).others jobs
  let entry : TickEntry := ⟨.claim, .answered, before, (execute before
    (settings 0).now (worker.claim gen lockedElsewhere)).1⟩
  have isEntry : (TickRun.mk jobs []).entry settings .claim
      (worker.claim gen lockedElsewhere) = entry := by
    simp only [TickRun.entry, List.length_nil, answered, reduceCtorEq,
      if_false, entry, before]
  have log : run.log = [entry] ++ (buried ++ handled) := by
    rw [handledLog, buriedLog, TickRun.log_send, isEntry]
    exact List.append_assoc _ _ _
  have moved : entry.movedTo .running = raws.length :=
    movedTo_claim (T := T) _ _ _ _ _ _ _
  have noneDone : entry.movedTo .done = 0 :=
    movedTo_claim_of_ne (T := T) _ _ _ _ _ _ _ (by decide)
  have ofClaim : rowsMoved (·.site == .claim) .running [entry] =
      raws.length := moved
  have ofDone : rowsMoved (fun _ => true) .done [entry] = 0 := noneDone
  have ofHandled (target : JobStatus) :
      rowsMoved (·.site == .handled) target [entry] = 0 := rfl
  have ofUnseen (target : JobStatus) :
      rowsMoved TickEntry.unseen target [entry] = 0 := rfl
  have completed := counted.completed
  have failed := counted.failed
  have outcomes := counted.outcomes
  have claimed := counted.claimed
  dsimp only at completed failed outcomes claimed
  simp only [log, rowsMoved_append, ofClaim, ofDone, ofHandled, ofUnseen,
    buries.rowsMoved_done, buries.rowsMoved_unseen,
    buries.rowsMoved_site .claim (by decide),
    buries.rowsMoved_site .handled (by decide), counted.noClaim]
  refine ⟨claimed, ?_, ?_, ?_, ?_⟩
  · omega
  · omega
  · omega
  · omega

/-- Nothing went unseen exactly when no mark without an answer moved a row. -/
theorem rowsMoved_unseen_iff (log : List TickEntry) :
    rowsMoved TickEntry.unseen .done log +
        (rowsMoved TickEntry.unseen .awaitingRetry log +
          rowsMoved TickEntry.unseen .dead log) = 0 ↔
      ∀ entry ∈ log, entry.unseen = true → entry.ended = 0 := by
  rw [Nat.add_eq_zero_iff, Nat.add_eq_zero_iff, rowsMoved_eq_zero_iff,
    rowsMoved_eq_zero_iff, rowsMoved_eq_zero_iff]
  constructor
  · rintro ⟨done, awaitingRetry, dead⟩ entry member unseen
    rw [TickEntry.ended, done entry member unseen,
      awaitingRetry entry member unseen, dead entry member unseen]
  · intro none
    have each (entry : TickEntry) (member : entry ∈ log)
        (unseen : entry.unseen = true) : entry.movedTo .done = 0 ∧
          entry.movedTo .awaitingRetry = 0 ∧ entry.movedTo .dead = 0 := by
      have ended := none entry member unseen
      unfold TickEntry.ended at ended
      omega
    exact ⟨fun entry member unseen => (each entry member unseen).1,
      fun entry member unseen => (each entry member unseen).2.1,
      fun entry member unseen => (each entry member unseen).2.2⟩

/-- `tick_once` accounts for every claimed row exactly when every one of them
decodes and the answer to every mark that moves a row arrives: a row that is
buried is missing from `claimed`, and a mark without an answer is not
counted. -/
theorem tick_once_accounts_iff
    (outcome : tickOnce worker settings gen lockedElsewhere jobs =
      (run, some (.ok stats))) :
    run.AccountedBy stats ↔
      (∀ raw ∈ worker.claimedRows settings gen lockedElsewhere jobs,
        ∃ job, decodeRow worker.codec raw = .ok job) ∧
      ∀ entry ∈ run.log, entry.unseen = true → entry.ended = 0 := by
  obtain ⟨claimed, moved, completed, failed, within⟩ :=
    account_of_tickOnce outcome
  have allDecode : (decodedJobs worker.codec
      (worker.claimedRows settings gen lockedElsewhere jobs)).length =
        (worker.claimedRows settings gen lockedElsewhere jobs).length ↔
      ∀ raw ∈ worker.claimedRows settings gen lockedElsewhere jobs,
        ∃ job, decodeRow worker.codec raw = .ok job := by
    rw [decodedJobs, List.filterMap_length_eq_length]
    refine forall₂_congr fun raw _ => ?_
    cases decodeRow worker.codec raw with
    | ok job => simp [Except.toOption]
    | error reason => simp [Except.toOption]
  rw [← allDecode, ← claimed, ← moved, ← rowsMoved_unseen_iff]
  constructor
  · intro accounted
    have sameCompleted := accounted.completed
    have sameFailed := accounted.failed
    exact ⟨accounted.claimed, by omega⟩
  · rintro ⟨same, seen⟩
    exact ⟨same, by omega, by omega, within⟩

end Account

/-! ### A job that decodes and one that does not -/

namespace OneTick

def settings (index : Nat) : StatementSetting where
  others := id
  now := 1 + index
  delivery := .answered

/-- The handler fails and does not ask for a delay. -/
def worker : TickWorker Unit :=
  { OneSlot.worker with
    handler := fun _ => .error (.retry "later" none)
    backoffNext := fun _ _ => minRetryIn }

/-- No payload decodes. -/
def picky : TickWorker Unit :=
  { worker with codec := OneJob.worker.codec }

def tick (worker : TickWorker Unit) :
    TickRun × Option (Except SqlxError TickStats) :=
  tickOnce worker settings (fun id => ⟨id⟩) (fun _ => false) OneSlot.pushed

end OneTick

theorem tick_once_accounts_for_retried :
    (OneTick.tick OneTick.worker).1.AccountedBy ⟨1, 0, 1, 0⟩ := by
  have outcome : OneTick.tick OneTick.worker =
      ((OneTick.tick OneTick.worker).1, some (.ok ⟨1, 0, 1, 0⟩)) := rfl
  refine (tick_once_accounts_iff outcome).mpr ⟨?_, by decide⟩
  intro raw _
  exact ⟨_, rfl⟩

/-- The claimed row is buried and counted nowhere. -/
theorem tick_once_forgets_buried_row :
    (OneTick.tick OneTick.picky).2 = some (.ok ⟨0, 0, 0, 0⟩) ∧
      rowsMoved (·.site == .claim) .running (OneTick.tick OneTick.picky).1.log = 1 ∧
      ¬ (OneTick.tick OneTick.picky).1.AccountedBy ⟨0, 0, 0, 0⟩ := by
  have moved : rowsMoved (·.site == .claim) .running
      (OneTick.tick OneTick.picky).1.log = 1 := rfl
  refine ⟨rfl, moved, ?_⟩
  intro accounted
  have claimed := accounted.claimed
  rw [moved] at claimed
  cases claimed

end PgWorkQueue
