import PgWorkQueue.Library.RowLocking
import PgWorkQueue.System.Snapshots

/-!
# Statements that interleave

`System.Execution` executes every statement in one step.  Here the statements
that write existing rows are taken apart: claims, marks, reaps and purges each
take a snapshot, visit their candidates, lock them and commit, as
`Library.RowLocking` describes it.  The three batch statements say
`FOR UPDATE SKIP LOCKED`; a mark is a plain UPDATE and waits.  A statement that
Postgres refuses when its parameters are bound has no parts and no effect.

The result is that nothing is lost by thinking of statements as atomic.  A
commit does what the atomic statement does at that instant when every row that
the statement does not hold is locked by somebody else.  For a claim with key
limits that is the claim without limits: which rows it may hold was decided by
its snapshot.
-/

namespace PgWorkQueue

open Library.Runs Library.RowLocking

/-! ## Parts of statements -/

/-- A statement with its parameters as bound and the instant of its snapshot,
which is what `now()` returns until it ends. -/
inductive Underway where
  | claim (claim : OpenClaim)
  | mark (now : Int) (id : Nat) (token : Uuid) (mark : Mark)
  | reap (now : Int) (queue : String) (batchLimit : Nat) (tie : Nat → Nat)
  | purge (now : Int) (status : TerminalStatus) (age : Duration)
      (tie : Nat → Nat)

/-- The rows with the ids of the versions that a statement holds. -/
def named (held : List Row) (row : Row) : Bool :=
  (held.map Row.id).contains row.id

/-- Postgres accepts the parameters. -/
def Underway.Accepted : Underway → Prop
  | .claim opened =>
      textParam opened.params.queue = .ok opened.params.queue ∧
        intervalParam opened.params.leaseTimeout = .ok opened.leaseMicros
  | .mark _ _ _ kind =>
      ∀ reason, kind.reason = some reason → textParam reason = .ok reason
  | .reap _ queue _ _ => textParam queue = .ok queue
  | .purge now _ age _ =>
      intervalParam age = .ok age.asMicros ∧
        timestampAdd now (-age.asMicros) = .ok (now - age.asMicros)

/-- The statement may see this table in its snapshot: the ids that a claim with
key limits is confined to are those its snapshot ranks. -/
def Underway.Opens (jobs : Jobs) : Underway → Prop
  | .claim opened =>
      openClaim jobs opened.now opened.gen opened.params = .ok opened
  | _ => True

/-- The WHERE clause that is evaluated again on the latest version. -/
def Underway.test : Underway → Row → Bool
  | .claim opened => opened.test
  | .mark _ id token _ => Row.leasedUnder id token
  | .reap now queue _ _ => Row.stale queue now
  | .purge now status age _ =>
      Row.expired status.toJobStatus (now - age.asMicros)

def Underway.limit : Underway → Nat
  | .claim opened => opened.limit
  | .mark .. => 1
  | .reap _ _ batchLimit _ => min batchLimit i32Max
  | .purge .. => purgeChunkSize

/-- `FOR UPDATE SKIP LOCKED`. -/
def Underway.skipsLocked : Underway → Bool
  | .mark .. => false
  | _ => true

/-- The rows of the snapshot in the order in which they are visited. -/
def Underway.inOrder (statement : Underway) (jobs : Jobs) : List Row :=
  let rows := jobs.rows.filter statement.test
  match statement with
  | .claim _ => orderByRunAtId rows
  | .mark .. => rows
  | .reap _ _ _ tie => rows.insertionSort (TimedBefore Row.leaseExpiresAt tie)
  | .purge _ _ _ tie => rows.insertionSort (TimedBefore Row.finishedAt tie)

def Underway.candidates (statement : Underway) (jobs : Jobs) : List Nat :=
  (statement.inOrder jobs).map Row.id

/-- The UPDATE or DELETE of the rows that are held, and the reply. -/
def Underway.outcome (jobs : Jobs) (held : List Row) : Underway → Jobs × Reply
  | .claim opened =>
      commitOr jobs
        (do
          let (updated, rows) ← opened.update jobs held
          let out ← rows.mapM RawClaimedRow.fromRow
          .ok (updated, out))
        .claimed .failed
  | .mark now _ _ kind =>
      commitOr jobs
        (do
          let updated ← jobs.update now (named held) (kind.set now)
          .ok (updated, held.length))
        .affected .failed
  | .reap now _ _ _ =>
      commitOr jobs
        (do
          let updated ← jobs.update now
            (fun row => named held row && row.status == .running)
            fun row => .ok (reapedVersion now row)
          .ok (updated, held.filterMap fun row =>
            (updated.find row.id).map ReapedRow.fromRow))
        .reaped .failed
  | .purge .. =>
      (jobs.delete (named held), .affected (jobs.rows.countP (named held)))

/-- The atomic statement that a commit amounts to. -/
def Underway.event (T : Type) (held : List Row) : Underway → Event T
  | .claim opened =>
      ⟨opened.now, .claim { opened.params with headroom := ∅ } opened.gen
        fun id => !(held.map Row.id).contains id⟩
  | .mark now id token kind => ⟨now, .mark id token kind⟩
  | .reap now queue batchLimit tie =>
      ⟨now, .reap queue batchLimit tie
        fun id => !(held.map Row.id).contains id⟩
  | .purge now status age tie =>
      ⟨now, .purge status age tie fun id => !(held.map Row.id).contains id⟩

/-- A mark that has found no row to write. -/
def Underway.Missed (held : List Row) : Underway → Prop
  | .mark .. => held = []
  | _ => False

instance (held : List Row) (statement : Underway) :
    Decidable (statement.Missed held) :=
  match statement with
  | .claim _ => inferInstanceAs (Decidable False)
  | .mark .. => inferInstanceAs (Decidable (held = []))
  | .reap .. => inferInstanceAs (Decidable False)
  | .purge .. => inferInstanceAs (Decidable False)

/-- A statement whose parameters Postgres accepts. -/
def OpenStatement : Type := { statement : Underway // statement.Accepted }

/-- The table and its statements, without the laws. -/
def lockingSignature (T : Type) :
    Signature Jobs Nat Row OpenStatement (Event T) where
  find := Jobs.find
  key := Row.id
  opens := fun jobs statement => statement.val.Opens jobs
  candidates := fun statement jobs => statement.val.candidates jobs
  test := fun statement => statement.val.test
  limit := fun statement => statement.val.limit
  skipsLocked := fun statement => statement.val.skipsLocked
  write := fun statement jobs held => (statement.val.outcome jobs held).1
  inserts := fun event jobs next =>
    (∃ runAt, event.statement.Inserts runAt) ∧
      next = (execute jobs event.now event.statement).1
  follows := Follows

/-- Two replies that say the same, up to the order of rows. -/
inductive Reply.Agrees : Reply → Reply → Prop
  | refl (reply : Reply) : Agrees reply reply
  | claimed {rows others : List RawClaimedRow} (same : rows.Perm others) :
      Agrees (.claimed rows) (.claimed others)
  | reaped {rows others : List ReapedRow} (same : rows.Perm others) :
      Agrees (.reaped rows) (.reaped others)

/-! ## Candidates and what becomes of them -/

section Candidates

variable {T : Type} {snapshot jobs : Jobs} {held : List Row} {id : Nat}
  {row : Row}

theorem Underway.inOrder_perm (statement : Underway) (jobs : Jobs) :
    (statement.inOrder jobs).Perm (jobs.rows.filter statement.test) := by
  cases statement with
  | claim claim => exact orderByRunAtId_perm _
  | mark now id token mark => exact List.Perm.refl _
  | reap now queue batchLimit tie => exact List.perm_insertionSort _ _
  | purge now status age tie => exact List.perm_insertionSort _ _

theorem Underway.candidates_nodup (statement : Underway) (jobs : Jobs) :
    (statement.candidates jobs).Nodup := by
  apply ((statement.inOrder_perm jobs).map Row.id).nodup_iff.mpr
  exact jobs.distinct.sublist (List.filter_sublist.map Row.id)

theorem Underway.mem_candidates {statement : Underway} :
    id ∈ statement.candidates jobs ↔
      ∃ row, jobs.find id = some row ∧ statement.test row = true := by
  rw [Underway.candidates, List.mem_map]
  constructor
  · rintro ⟨row, member, rfl⟩
    obtain ⟨stored, passes⟩ :=
      List.mem_filter.mp ((statement.inOrder_perm jobs).subset member)
    exact ⟨row, Jobs.find_id_of_mem stored, passes⟩
  · rintro ⟨row, found, passes⟩
    obtain ⟨stored, sameId⟩ := Jobs.find_eq_some_iff.mp found
    exact ⟨row, (statement.inOrder_perm jobs).symm.subset
      (List.mem_filter.mpr ⟨stored, passes⟩), sameId⟩

/-- A candidate that is still there is a later version of the row that the
snapshot showed. -/
theorem Underway.exists_candidate {statement : Underway}
    (follows : Follows snapshot jobs)
    (proposed : id ∈ statement.candidates snapshot)
    (found : jobs.find id = some row) :
    ∃ old, snapshot.find id = some old ∧ statement.test old = true ∧
      row.Succeeds old := by
  obtain ⟨old, before, passes⟩ := Underway.mem_candidates.mp proposed
  exact ⟨old, before, passes, follows.succeeds before found⟩

theorem ids_nodup_of_holds {statement : OpenStatement}
    (holds : Holds (lockingSignature T) statement snapshot jobs held) :
    (held.map Row.id).Nodup :=
  (statement.val.candidates_nodup snapshot).sublist holds.proposed

/-- What is held is a later version of a candidate of the snapshot. -/
theorem exists_candidate_of_holds {statement : OpenStatement}
    (holds : Holds (lockingSignature T) statement snapshot jobs held)
    (member : row ∈ held) :
    ∃ old, snapshot.find row.id = some old ∧
      statement.val.test old = true ∧ row.Succeeds old :=
  Underway.exists_candidate holds.followed
    (holds.proposed.subset (List.mem_map_of_mem member))
    (holds.latest row member)

/-- `queue` need not be tested again in the locking CTE. -/
theorem queue_of_holds_claim {claim : OpenClaim}
    {accepted : (Underway.claim claim).Accepted}
    (holds : Holds (lockingSignature T) ⟨.claim claim, accepted⟩ snapshot jobs
      held) (member : row ∈ held) : row.queue = claim.params.queue := by
  obtain ⟨old, before, passes, succeeds⟩ :=
    exists_candidate_of_holds holds member
  rw [succeeds.sameJob.queue]
  exact (snapshotOf_openClaim holds.opened).inQueue old
    (OpenClaim.mem_candidates.mpr
      ⟨(Jobs.find_eq_some_iff.mp before).1, passes⟩)

end Candidates

/-! ## A commit is an atomic statement -/

section Selection

variable {jobs : Jobs} {now : Int} {selected other : Row → Bool}
  {set : Row → Except SqlError Row} {held chosen : List Row} {row : Row}

theorem mapM_congr_of_mem {rows : List Row}
    {first second : Row → Except SqlError Row}
    (same : ∀ row ∈ rows, first row = second row) :
    rows.mapM first = rows.mapM second := by
  induction rows with
  | nil => rfl
  | cons head tail inductionHypothesis =>
      rw [List.mapM_cons, List.mapM_cons, same head List.mem_cons_self,
        inductionHypothesis fun row member =>
          same row (List.mem_cons_of_mem _ member)]

/-- An UPDATE depends on the rows it selects only. -/
theorem Jobs.update_eq_of_selection
    (same : ∀ row ∈ jobs.rows, selected row = other row) :
    jobs.update now selected set = jobs.update now other set := by
  have rowByRow : jobs.rows.mapM (Jobs.updateSelected now selected set) =
      jobs.rows.mapM (Jobs.updateSelected now other set) := by
    apply mapM_congr_of_mem
    intro row member
    unfold Jobs.updateSelected
    rw [same row member]
  unfold Jobs.update
  split
  · rename_i failed
    rw [rowByRow] at failed
    split
    · rename_i alsoFailed
      rw [failed] at alsoFailed
      cases alsoFailed
      rfl
    · rename_i written
      rw [failed] at written
      cases written
  · rename_i written
    rw [rowByRow] at written
    split
    · rename_i failed
      rw [written] at failed
      cases failed
    · rename_i alsoWritten
      rw [written] at alsoWritten
      cases alsoWritten
      rfl

theorem named_iff : named held row = true ↔ row.id ∈ held.map Row.id := by
  rw [named, List.contains_iff_mem]

theorem named_congr (same : chosen.Perm held) : named chosen = named held := by
  funext row
  rw [Bool.eq_iff_iff, named_iff, named_iff, (same.map Row.id).mem_iff]

theorem named_eq_false (free : row.id ∉ held.map Row.id) :
    named held row = false := by
  rw [Bool.eq_false_iff]
  intro isNamed
  exact free (named_iff.mp isNamed)

/-- A row that is not selected is left alone. -/
theorem Jobs.find_update_of_not_selected {updated : Jobs} {id : Nat}
    (outcome : jobs.update now selected set = .ok updated)
    (skipped : ∀ row, jobs.find id = some row → selected row = false) :
    updated.find id = jobs.find id := by
  cases found : jobs.find id with
  | none => exact Jobs.find_update_of_none outcome found
  | some row =>
      rcases Jobs.find_update_of_some outcome found with
        ⟨isSelected, _⟩ | ⟨_, same⟩
      · rw [skipped row found] at isSelected
        cases isSelected
      · exact same

/-- `LIMIT` and `SKIP LOCKED` leave exactly the rows that are held, if nothing
else is free. -/
theorem perm_of_only_held_free {ordered : List Row} {test : Row → Bool}
    {limit : Nat} (reordered : ordered.Perm (jobs.rows.filter test))
    (latest : ∀ row ∈ held, jobs.find row.id = some row)
    (passes : ∀ row ∈ held, test row = true)
    (distinct : (held.map Row.id).Nodup) (bounded : held.length ≤ limit) :
    ((ordered.filter fun row => !!(held.map Row.id).contains row.id).take
      limit).Perm held := by
  have candidatesDistinct : ordered.Nodup := by
    apply reordered.nodup_iff.mpr
    exact (jobs.distinct.of_map Row.id).filter _
  have sameRows : (ordered.filter
      fun row => !!(held.map Row.id).contains row.id).Perm held := by
    apply (List.perm_ext_iff_of_nodup (candidatesDistinct.filter _)
      (distinct.of_map Row.id)).mpr
    intro row
    rw [List.mem_filter, reordered.mem_iff, List.mem_filter, Bool.not_not,
      List.contains_iff_mem]
    constructor
    · rintro ⟨⟨stored, _⟩, isNamed⟩
      obtain ⟨version, member, sameId⟩ := List.mem_map.mp isNamed
      have versionStored := (Jobs.find_eq_some_iff.mp (latest version member)).1
      rw [← Jobs.eq_of_id_eq versionStored stored sameId]
      exact member
    · intro member
      exact ⟨⟨(Jobs.find_eq_some_iff.mp (latest row member)).1,
        passes row member⟩, List.mem_map_of_mem member⟩
  rw [List.take_of_length_le]
  · exact sameRows
  · rw [sameRows.length_eq]
    exact bounded

end Selection

/-- A commit does what its atomic statement does, to the table and in its
reply. -/
def Underway.Linearizes (T : Type) (jobs : Jobs) (held : List Row)
    (statement : Underway) : Prop :=
  let event := statement.event T held
  (statement.outcome jobs held).1 =
      (execute jobs event.now event.statement).1 ∧
    Reply.Agrees (statement.outcome jobs held).2
      (execute jobs event.now event.statement).2

section Commit

variable {T : Type} {snapshot jobs : Jobs} {held : List Row}

/-- Claiming the rows in another order returns them in another order. -/
theorem updateChosen_perm {now : Int} {gen : Nat → Uuid}
    {leaseMicros maxAttempts : Int} {chosen : List Row}
    (same : chosen.Perm held) :
    (∃ failure,
        updateChosen jobs now gen leaseMicros maxAttempts chosen =
          .error failure ∧
        updateChosen jobs now gen leaseMicros maxAttempts held =
          .error failure) ∨
      ∃ updated rows others,
        updateChosen jobs now gen leaseMicros maxAttempts chosen =
          .ok (updated, rows) ∧
        updateChosen jobs now gen leaseMicros maxAttempts held =
          .ok (updated, others) := by
  have sameSelection := named_congr same
  unfold named at sameSelection
  unfold updateChosen
  rw [sameSelection]
  cases jobs.update now (fun row => (held.map Row.id).contains row.id)
      (claimSet now gen leaseMicros maxAttempts) with
  | error failure => exact Or.inl ⟨failure, rfl, rfl⟩
  | ok updated => exact Or.inr ⟨updated, _, _, rfl, rfl⟩

theorem linearizes_claim {claim : OpenClaim}
    (accepted : (Underway.claim claim).Accepted)
    (holds : Holds (lockingSignature T) ⟨.claim claim, accepted⟩ snapshot jobs
      held) : (Underway.claim claim).Linearizes T jobs held := by
  have ⟨queueText, interval⟩ := accepted
  let params : ClaimParams := { claim.params with headroom := ∅ }
  let chosen := lockInOrder (fun id => !(held.map Row.id).contains id)
    claim.limit (jobs.rows.filter (Row.runnable claim.params.queue claim.now))
  have stored : ∀ row ∈ held, row ∈ jobs.rows := fun row member =>
    (Jobs.find_eq_some_iff.mp (holds.latest row member)).1
  have runnable : ∀ row ∈ held,
      row.runnable claim.params.queue claim.now = true := by
    intro row member
    have inQueue := queue_of_holds_claim holds member
    have due := OpenClaim.due_of_test (holds.passes row member)
    simp [Row.runnable, inQueue, due]
  have same : chosen.Perm held :=
    perm_of_only_held_free (orderByRunAtId_perm _) holds.latest runnable
      (ids_nodup_of_holds holds) holds.bounded
  have chosenStored : ∀ row ∈ chosen, row ∈ jobs.rows := fun row member =>
    stored row (same.subset member)
  have sent : claimStatement jobs claim.now claim.gen
      (fun id => !(held.map Row.id).contains id) params =
      claim.update jobs chosen := by
    simp only [claimStatement, params, queueText, interval, bind, Except.bind]
    rfl
  rcases updateChosen_perm same with
    ⟨failure, refused, alsoRefused⟩ | ⟨updated, rows, others, written, wrote⟩
  · have failed : claimBatchRaw jobs claim.now claim.gen
        (fun id => !(held.map Row.id).contains id) params =
        .error failure := by
      rw [claimBatchRaw, sent, OpenClaim.update, refused]
      rfl
    simp only [Underway.Linearizes, Underway.event, Underway.outcome, execute,
      OpenClaim.update, alsoRefused, bind, Except.bind, commitOr]
    rw [failed]
    exact ⟨rfl, .refl _⟩
  · have claimed := claimBatchRaw_of_update chosenStored sent written
    obtain ⟨rfl, _⟩ := updateChosen_spec stored wrote
    simp only [Underway.Linearizes, Underway.event, Underway.outcome, execute,
      OpenClaim.update, wrote, bind, Except.bind, commitOr,
      mapM_fromRow_claimed]
    rw [claimed]
    exact ⟨rfl, .claimed (same.symm.map _)⟩

/-- A mark whose text is accepted runs its UPDATE. -/
theorem Mark.execute_of_text {now : Int} {mark : Mark}
    (text : ∀ reason, mark.reason = some reason →
      textParam reason = .ok reason) (id : Nat) (token : Uuid) :
    mark.execute jobs now id token =
      updateLeased jobs now id token (mark.set now) := by
  cases mark with
  | done => rfl
  | dead reason =>
      simp only [Mark.execute, markDead, text reason rfl, bind, Except.bind]
      rfl
  | retry reason delay =>
      simp only [Mark.execute, markRetry, text reason rfl, bind, Except.bind]
      congr 1
      funext row
      simp only [Mark.set, timestampAdd]
      by_cases inRange : timestampInRange (now + retryMicros delay) = true
      · simp only [if_pos inRange]
        rfl
      · simp only [if_neg inRange]
        rfl

theorem linearizes_mark {now : Int} {id : Nat} {token : Uuid} {mark : Mark}
    (accepted : (Underway.mark now id token mark).Accepted)
    (holds : Holds (lockingSignature T) ⟨.mark now id token mark, accepted⟩
      snapshot jobs held) (hits : held ≠ []) :
    (Underway.mark now id token mark).Linearizes T jobs held := by
  have one : held.length = 1 := by
    have some := List.length_pos_iff.mpr hits
    have most : held.length ≤ 1 := holds.bounded
    omega
  obtain ⟨row, rfl⟩ := List.length_eq_one_iff.mp one
  have latest : jobs.find row.id = some row :=
    holds.latest row List.mem_cons_self
  have leased : row.leasedUnder id token = true :=
    holds.passes row List.mem_cons_self
  obtain ⟨sameId, running, held⟩ := Row.leasedUnder_iff.mp leased
  have selection : ∀ other ∈ jobs.rows,
      named [row] other = other.leasedUnder id token := by
    intro other stored
    rw [Bool.eq_iff_iff, named_iff, List.map_singleton, List.mem_singleton]
    constructor
    · intro isRow
      have rowStored := (Jobs.find_eq_some_iff.mp latest).1
      rw [Jobs.eq_of_id_eq stored rowStored isRow]
      exact leased
    · intro otherLeased
      rw [(Row.leasedUnder_iff.mp otherLeased).1, sameId]
  have counted : jobs.rows.countP (Row.leasedUnder id token) = 1 := by
    rw [countP_leasedUnder, ← sameId, latest, Option.any_some, if_pos]
    rw [sameId]
    exact leased
  have sent : mark.execute jobs now id token =
      (jobs.update now (named [row]) (mark.set now)).bind
        fun updated => .ok (updated, 1) := by
    rw [Mark.execute_of_text accepted, updateLeased, counted,
      Jobs.update_eq_of_selection selection]
    rfl
  simp only [Underway.Linearizes, Underway.event, Underway.outcome, execute,
    sent, List.length_singleton, bind]
  cases jobs.update now (named [row]) (mark.set now) with
  | error failure => exact ⟨trivial, .refl _⟩
  | ok updated => exact ⟨trivial, .refl _⟩

theorem linearizes_reap {now : Int} {queue : String} {batchLimit : Nat}
    {tie : Nat → Nat} (accepted : (Underway.reap now queue batchLimit
      tie).Accepted)
    (holds : Holds (lockingSignature T)
      ⟨.reap now queue batchLimit tie, accepted⟩ snapshot jobs held) :
    (Underway.reap now queue batchLimit tie).Linearizes T jobs held := by
  let chosen := staleCte jobs now tie
    (fun id => !(held.map Row.id).contains id) queue (min batchLimit i32Max)
  have same : chosen.Perm held :=
    perm_of_only_held_free (List.perm_insertionSort _ _) holds.latest
      holds.passes (ids_nodup_of_holds holds) holds.bounded
  have selection : (fun row : Row => (chosen.map Row.id).contains row.id &&
      row.status == .running) =
      fun row => named held row && row.status == .running := by
    rw [← named_congr same]
    rfl
  have queueText : textParam queue = .ok queue := accepted
  simp only [Underway.Linearizes, Underway.event, Underway.outcome, execute,
    reap, queueText, bind, Except.bind]
  rw [selection]
  cases jobs.update now (fun row => named held row && row.status == .running)
      (fun row => .ok (reapedVersion now row)) with
  | error failure => exact ⟨rfl, .refl _⟩
  | ok updated => exact ⟨rfl, .reaped (same.symm.filterMap _)⟩

theorem linearizes_purge {now : Int} {status : TerminalStatus}
    {age : Duration} {tie : Nat → Nat}
    (accepted : (Underway.purge now status age tie).Accepted)
    (holds : Holds (lockingSignature T)
      ⟨.purge now status age tie, accepted⟩ snapshot jobs held) :
    (Underway.purge now status age tie).Linearizes T jobs held := by
  have ⟨interval, cutoff⟩ := accepted
  let chosen := victimsCte jobs tie
    (fun id => !(held.map Row.id).contains id) status.toJobStatus
    (now - age.asMicros) purgeChunkSize
  have same : chosen.Perm held :=
    perm_of_only_held_free (List.perm_insertionSort _ _) holds.latest
      holds.passes (ids_nodup_of_holds holds) holds.bounded
  have selection : (fun row : Row => (chosen.map Row.id).contains row.id) =
      named held := named_congr same
  simp only [Underway.Linearizes, Underway.event, Underway.outcome, execute,
    purgeChunk, interval, cutoff, bind, Except.bind, commitOr]
  rw [selection]
  exact ⟨rfl, .refl _⟩

/-- A commit is an atomic statement, unless it is that of a mark that has found
no row. -/
theorem linearizes_of_holds {statement : OpenStatement}
    (holds : Holds (lockingSignature T) statement snapshot jobs held)
    (hits : ¬ statement.val.Missed held) :
    statement.val.Linearizes T jobs held := by
  obtain ⟨statement, accepted⟩ := statement
  cases statement with
  | claim claim => exact linearizes_claim accepted holds
  | mark now id token mark => exact linearizes_mark accepted holds hits
  | reap now queue batchLimit tie => exact linearizes_reap accepted holds
  | purge now status age tie => exact linearizes_purge accepted holds

/-- A mark that has found no row changes nothing and says so. -/
theorem outcome_of_missed {statement : Underway}
    (missed : statement.Missed held) :
    statement.outcome jobs held = (jobs, .affected 0) := by
  cases statement with
  | claim claim => exact missed.elim
  | mark now id token mark =>
      have noRow : held = [] := missed
      subst noRow
      have unchanged : jobs.update now (named []) (mark.set now) = .ok jobs :=
        Jobs.update_eq_self fun _ _ => rfl
      simp only [Underway.outcome, unchanged]
      rfl
  | reap now queue batchLimit tie => exact missed.elim
  | purge now status age tie => exact missed.elim

end Commit

/-! ## The laws of locking -/

section Laws

variable {T : Type} {snapshot jobs : Jobs} {held : List Row} {id : Nat}

/-- A statement that waits wants the one row it names. -/
theorem Underway.length_candidates_le (statement : Underway) (jobs : Jobs)
    (waits : statement.skipsLocked = false) :
    (statement.candidates jobs).length ≤ 1 := by
  cases statement with
  | claim claim => cases waits
  | mark now id token mark =>
      change ((jobs.rows.filter (Row.leasedUnder id token)).map
        Row.id).length ≤ 1
      rw [List.length_map, ← List.countP_eq_length_filter,
        countP_leasedUnder]
      split
      · exact Nat.le_refl 1
      · exact Nat.zero_le 1
  | reap now queue batchLimit tie => cases waits
  | purge now status age tie => cases waits

theorem follows_of_holds {statement : OpenStatement}
    (holds : Holds (lockingSignature T) statement snapshot jobs held) :
    Follows jobs (statement.val.outcome jobs held).1 := by
  by_cases missed : statement.val.Missed held
  · rw [outcome_of_missed missed]
    exact Follows.refl jobs
  · rw [(linearizes_of_holds holds missed).1]
    exact follows_execute ..

/-- A row that is not held is not written. -/
theorem find_outcome_of_not_held {statement : Underway}
    (latest : ∀ row ∈ held, jobs.find row.id = some row)
    (free : id ∉ held.map Row.id) :
    (statement.outcome jobs held).1.find id = jobs.find id := by
  have skipped : ∀ row, jobs.find id = some row → named held row = false := by
    intro row found
    apply named_eq_false
    rw [Jobs.id_of_find found]
    exact free
  cases statement with
  | claim claim =>
      have stored : ∀ row ∈ held, row ∈ jobs.rows := fun row member =>
        (Jobs.find_eq_some_iff.mp (latest row member)).1
      simp only [Underway.outcome, bind, Except.bind]
      cases written : claim.update jobs held with
      | error failure => rfl
      | ok result =>
          obtain ⟨updated, rows⟩ := result
          obtain ⟨rfl, _, others, _⟩ := updateChosen_spec stored written
          simp only [mapM_fromRow_claimed]
          exact others id free
  | mark now target token mark =>
      simp only [Underway.outcome, bind, Except.bind]
      cases written : jobs.update now (named held) (mark.set now) with
      | error failure => rfl
      | ok updated => exact Jobs.find_update_of_not_selected written skipped
  | reap now queue batchLimit tie =>
      simp only [Underway.outcome, bind, Except.bind]
      cases written : jobs.update now
          (fun row => named held row && row.status == .running)
          (fun row => .ok (reapedVersion now row)) with
      | error failure => rfl
      | ok updated =>
          apply Jobs.find_update_of_not_selected written
          intro row found
          rw [skipped row found, Bool.false_and]
  | purge now status age tie =>
      change (jobs.delete (named held)).find id = _
      rw [Jobs.find_delete]
      cases found : jobs.find id with
      | none => rfl
      | some row => simp [skipped row found]

/-- An INSERT leaves the rows that exist alone. -/
theorem find_execute_of_inserts {event : Event T} {runAt : Option Int}
    {row : Row} (inserts : event.statement.Inserts runAt)
    (found : jobs.find id = some row) :
    (execute jobs event.now event.statement).1.find id = some row := by
  obtain ⟨now, statement⟩ := event
  cases execute_effect jobs now statement id with
  | same _ unchanged => exact unchanged.trans found
  | inserted _ _ _ fresh =>
      rw [Jobs.find_eq_none_of_nextId_le fresh] at found
      cases found
  | claimed => cases inserts
  | marked => cases inserts
  | reaped => cases inserts
  | purged => cases inserts

/-- The database of the library: `pgwq.jobs` under statements that are executed
in parts. -/
def lockingDatabase (T : Type) :
    Library.RowLocking.Database Jobs Nat Row OpenStatement (Event T) where
  toSignature := lockingSignature T
  key_of_find := Jobs.id_of_find
  distinct := fun statement jobs => statement.val.candidates_nodup jobs
  single := fun statement jobs => statement.val.length_candidates_le jobs
  find_write := fun holds free => find_outcome_of_not_held holds.latest free
  find_inserted := by
    rintro event jobs next id row ⟨⟨runAt, inserts⟩, rfl⟩ found
    exact find_execute_of_inserts inserts found
  follows_refl := Follows.refl
  follows_trans := Follows.trans
  follows_write := follows_of_holds
  follows_inserted := by
    rintro event jobs next ⟨_, rfl⟩
    exact follows_execute ..

end Laws

/-! ## Interleavings -/

/-- The table, the statements under way and the locks. -/
abbrev Interleaving : Type := State Nat Jobs Nat Row OpenStatement

/-- A part of a statement, or an INSERT. -/
abbrev Part (T : Type) : Type := Label Nat OpenStatement (Event T)

/-- Executing one statement, whatever the clock says. -/
def Executes (T : Type) (jobs : Jobs) (event : Event T) (next : Jobs) : Prop :=
  next = (execute jobs event.now event.statement).1

section Linearization

variable {T : Type}

/-- The atomic statement that takes place in a transition. -/
def committedAs (taken : Transition Interleaving (Part T)) :
    Option (Event T) :=
  match taken.label with
  | .insert event => some event
  | .commit id =>
      (taken.source.sessions id).bind fun session =>
        if session.statement.val.Missed session.held then none
        else some (session.statement.val.event T session.held)
  | _ => none

/-- What the caller of a statement learns when it ends. -/
def replyOf (taken : Transition Interleaving (Part T)) : Option Reply :=
  match taken.label with
  | .insert event =>
      some (execute taken.source.table event.now event.statement).2
  | .commit id =>
      (taken.source.sessions id).map fun session =>
        (session.statement.val.outcome taken.source.table session.held).2
  | _ => none

variable {source target finish : Interleaving} {part : Part T} {jobs : Jobs}
  {trace : List (Transition Interleaving (Part T))} {event : Event T}

/-- Only commits and INSERTs change the table. -/
theorem table_of_not_committed
    (taken : Step (lockingDatabase T) source part target)
    (unseen : committedAs ⟨source, part, target⟩ = none) :
    target.table = source.table := by
  cases taken with
  | insert event table inserted => cases unseen
  | start => rfl
  | skip => rfl
  | gone => rfl
  | lock => rfl
  | commit id session found complete =>
      simp only [committedAs, found, Option.bind_some] at unseen
      by_cases missed : session.statement.val.Missed session.held
      · change (session.statement.val.outcome source.table session.held).1 = _
        rw [outcome_of_missed missed]
      · rw [if_neg missed] at unseen
        cases unseen
  | rollback => rfl

/-- A commit takes place as the atomic statement that stands for it. -/
theorem executes_of_committed (sound : source.Sound (lockingDatabase T))
    (taken : Step (lockingDatabase T) source part target)
    (seen : committedAs ⟨source, part, target⟩ = some event) :
    Executes T source.table event target.table ∧
      ∃ reply, replyOf ⟨source, part, target⟩ = some reply ∧
        reply.Agrees
          (execute source.table event.now event.statement).2 := by
  cases taken with
  | insert inserted table isInsert =>
      cases seen
      exact ⟨isInsert.2, _, rfl, .refl _⟩
  | start => cases seen
  | skip => cases seen
  | gone => cases seen
  | lock => cases seen
  | commit id session found complete =>
      simp only [committedAs, found, Option.bind_some] at seen
      by_cases missed : session.statement.val.Missed session.held
      · rw [if_pos missed] at seen
        cases seen
      · rw [if_neg missed] at seen
        cases seen
        have linearizes := linearizes_of_holds
          (sound.sessions id session found).holds missed
        refine ⟨linearizes.1, _, ?_, linearizes.2⟩
        simp only [replyOf, found, Option.map_some]
  | rollback => cases seen

theorem reply_of_not_committed
    {taken : Transition Interleaving (Part T)} {reply : Reply}
    (unseen : committedAs taken = none) (replied : replyOf taken = some reply) :
    reply = .affected 0 := by
  obtain ⟨source, part, target⟩ := taken
  cases part with
  | insert event => cases unseen
  | start id statement => cases replied
  | visit id => cases replied
  | commit id =>
      simp only [committedAs, replyOf] at unseen replied
      cases found : source.sessions id with
      | none =>
          rw [found] at replied
          cases replied
      | some session =>
          rw [found, Option.bind_some] at unseen
          rw [found, Option.map_some] at replied
          by_cases missed : session.statement.val.Missed session.held
          · rw [outcome_of_missed missed] at replied
            cases replied
            rfl
          · rw [if_neg missed] at unseen
            cases unseen
  | rollback id => cases replied

theorem Interleaving.sound_of_run
    (run : Run (Step (lockingDatabase T)) (State.initial jobs) trace finish) :
    finish.Sound (lockingDatabase T) :=
  (sound_initial jobs).run run

/-- What the statements of an interleaving are, one after the other. -/
def executionsOf (trace : List (Transition Interleaving (Part T))) :
    List (Transition Jobs (Event T)) :=
  trace.filterMap fun taken => (committedAs taken).map fun event =>
    ⟨taken.source.table, event, taken.target.table⟩

theorem Interleaving.execution_run (sound : source.Sound (lockingDatabase T))
    (run : Run (Step (lockingDatabase T)) source trace finish) :
    Run (Executes T) source.table (executionsOf trace) finish.table :=
  run.image State.table committedAs
    (fun _ _ _ _ _ taken unseen => table_of_not_committed taken unseen)
    fun _ _ _ _ _ earlier taken seen =>
      (executes_of_committed (sound.run earlier) taken seen).1

/-- Whatever the order in which claims, marks, reaps and purges take their
snapshots, lock their rows and commit, the table goes through the states that
the same statements produce one at a time in the order of their commits, each
at its own `now()`, and each caller gets the reply it would get then.  A mark
that has found no row is left out: it changes nothing and reports that it has
not. -/
theorem interleaved_statements_linearize
    (run : Run (Step (lockingDatabase T)) (State.initial jobs) trace finish) :
    Run (Executes T) jobs (executionsOf trace) finish.table ∧
      ∀ taken ∈ trace, ∀ reply, replyOf taken = some reply →
        (∃ event, committedAs taken = some event ∧
            reply.Agrees
              (execute taken.source.table event.now event.statement).2) ∨
          committedAs taken = none ∧ reply = .affected 0 ∧
            taken.target.table = taken.source.table := by
  refine ⟨Interleaving.execution_run (sound_initial jobs) run, ?_⟩
  intro taken member reply replied
  obtain ⟨before, earlier, step⟩ := run.reaches_source member
  cases seen : committedAs taken with
  | none =>
      exact Or.inr ⟨rfl, reply_of_not_committed seen replied,
        table_of_not_committed step seen⟩
  | some event =>
      obtain ⟨_, same, isReply, agrees⟩ := executes_of_committed
        (Interleaving.sound_of_run earlier) step seen
      rw [show replyOf taken = some same from isReply] at replied
      cases replied
      exact Or.inl ⟨event, rfl, agrees⟩

end Linearization

/-! ### A mark and a reap of one row

The lease of a row has run out.  A reap and the mark of the late handler both
see the row in their snapshots.  The reap locks it first; the mark waits, and
finds its lease gone when it locks the row after the reap. -/

namespace MarkAndReap

def row : Row where
  id := 1
  publicId := ⟨1⟩
  queue := "mail"
  payload := []
  status := .running
  attempts := 1
  maxAttempts := 3
  leaseToken := some ⟨7⟩
  leaseExpiresAt := some 10
  lastError := none
  lastAttemptedAt := some 0
  firstAttemptedAt := some 0
  finishedAt := none
  runAt := 0
  createdAt := 0
  updatedAt := 0
  concurrencyKey := none

def table : Jobs where
  rows := [row]
  nextId := 2
  distinct := by decide
  drawn := by decide

def reap : OpenStatement :=
  ⟨.reap 20 "mail" 100 fun id => id, rfl⟩

theorem accepted_done (now : Int) (token : Uuid) :
    (Underway.mark now 1 token .done).Accepted := by
  intro reason hasReason
  cases hasReason

def mark : OpenStatement :=
  ⟨.mark 20 1 ⟨7⟩ .done, accepted_done 20 ⟨7⟩⟩

def start : Interleaving := State.initial table

def reaping : Interleaving := start.setSession 1 ⟨reap, table, [1], [], []⟩

def bothOpen : Interleaving :=
  reaping.setSession 2 ⟨mark, table, [1], [], []⟩

def locked : Interleaving :=
  bothOpen.lock (lockingDatabase Unit) 1 ⟨reap, table, [1], [], []⟩ 1 row []

def reaped : Interleaving :=
  locked.commit (lockingDatabase Unit) 1 ⟨reap, table, [], [1], [row]⟩

def released : Row := reapedRow 20 row

/-- The mark has the lock now, but not the row. -/
def dropped : Interleaving :=
  reaped.lock (lockingDatabase Unit) 2 ⟨mark, table, [1], [], []⟩ 1 released []

def missed : Interleaving :=
  dropped.commit (lockingDatabase Unit) 2 ⟨mark, table, [], [1], []⟩

/-- The steps up to the lock. -/
def opening : List (Transition Interleaving (Part Unit)) :=
  [⟨start, .start 1 reap, reaping⟩, ⟨reaping, .start 2 mark, bothOpen⟩,
    ⟨bothOpen, .visit 1, locked⟩]

def reapCommit : Transition Interleaving (Part Unit) :=
  ⟨locked, .commit 1, reaped⟩

def closing : List (Transition Interleaving (Part Unit)) :=
  [⟨reaped, .visit 2, dropped⟩, ⟨dropped, .commit 2, missed⟩]

theorem run_opening :
    Run (Step (lockingDatabase Unit)) (State.initial table) opening locked := by
  refine Run.append (Run.single (.start start 1 reap rfl trivial)) ?_
  refine Run.append (Run.single (.start reaping 2 mark rfl trivial)) ?_
  refine Run.single (.lock bothOpen 1 ⟨reap, table, [1], [], []⟩ 1 [] row rfl ?_
    rfl rfl rfl)
  change 0 < min 100 i32Max
  decide

theorem run :
    Run (Step (lockingDatabase Unit)) (State.initial table)
      (opening ++ reapCommit :: closing) missed := by
  refine Run.append run_opening ?_
  refine Run.append (Run.single (.commit locked 1 _ rfl (Or.inl rfl))) ?_
  refine Run.append (Run.single (.lock reaped 2 ⟨mark, table, [1], [], []⟩ 1 []
    released rfl Nat.zero_lt_one rfl rfl rfl)) ?_
  exact Run.single (.commit dropped 2 _ rfl (Or.inl rfl))

end MarkAndReap

open MarkAndReap in
/-- The reap takes place and the mark does not. -/
theorem interleaved_statements_linearize_on_markAndReap :
    (executionsOf (opening ++ reapCommit :: closing)).length = 1 ∧
      Run (Executes Unit) table
        (executionsOf (opening ++ reapCommit :: closing)) missed.table ∧
      replyOf (T := Unit) ⟨dropped, .commit 2, missed⟩ =
        some (.affected 0) :=
  ⟨rfl, (interleaved_statements_linearize run).1, rfl⟩

end PgWorkQueue
