import PgWorkQueue.Database.Statements

/-!
# Leaving `running`: `mark_done`, `mark_retry`, `mark_dead`

All three statements carry the fencing guard `status = 'running' AND
lease_token = $2` and return the number of rows they changed.
-/

namespace PgWorkQueue

/-- The WHERE clause of every mark statement. -/
def Row.leasedUnder (id : Nat) (token : Uuid) (row : Row) : Bool :=
  row.id == id && row.status == .running && row.leaseToken == some token

/-- A mark statement: UPDATE of the row leased under the token, and the number
of rows affected. -/
def updateLeased (jobs : Jobs) (now : Int) (id : Nat) (token : Uuid)
    (set : Row → Except SqlError Row) : Except SqlError (Jobs × Nat) := do
  let updated ← jobs.update now (Row.leasedUnder id token) set
  .ok (updated, jobs.rows.countP (Row.leasedUnder id token))

def deadVersion (now : Int) (reason : String) (row : Row) : Row :=
  { row with
    status := .dead
    finishedAt := some now
    lastError := some reason
    leaseToken := none
    leaseExpiresAt := none }

def doneVersion (now : Int) (row : Row) : Row :=
  { row with
    status := .done
    finishedAt := some now
    lastError := none
    leaseToken := none
    leaseExpiresAt := none }

def retryVersion (reason : String) (runAt : Int) (row : Row) : Row :=
  { row with
    status := .awaitingRetry
    lastError := some reason
    runAt := runAt
    leaseToken := none
    leaseExpiresAt := none }

def markDead (jobs : Jobs) (now : Int) (id : Nat) (token : Uuid)
    (reason : String) : Except SqlError (Jobs × Nat) := do
  let reason ← textParam reason
  updateLeased jobs now id token fun row => .ok (deadVersion now reason row)

def markDone (jobs : Jobs) (now : Int) (id : Nat) (token : Uuid) :
    Except SqlError (Jobs × Nat) :=
  updateLeased jobs now id token fun row => .ok (doneVersion now row)

/-- The interval `mark_retry` binds: the microseconds of the delay, saturated
to `i64::MAX`. -/
def retryMicros (delay : Duration) : Nat :=
  min delay.asMicros i64Max

def markRetry (jobs : Jobs) (now : Int) (id : Nat) (token : Uuid)
    (reason : String) (delay : Duration) :
    Except SqlError (Jobs × Nat) := do
  let reason ← textParam reason
  updateLeased jobs now id token fun row => do
    let runAt ← timestampAdd now (retryMicros delay)
    .ok (retryVersion reason runAt row)

/-! ## What a mark changes -/

section Effect

variable {jobs updated : Jobs} {now : Int} {id count : Nat} {token : Uuid}
  {row : Row}

theorem Row.leasedUnder_iff :
    row.leasedUnder id token = true ↔
      row.id = id ∧ row.status = .running ∧ row.leaseToken = some token := by
  simp [Row.leasedUnder, and_assoc]

/-- The row of a mark statement is held under the very token it carries. -/
def HeldUnder (jobs : Jobs) (id : Nat) (token : Uuid) : Prop :=
  ∃ row, jobs.find id = some row ∧ row.status = .running ∧
    row.leaseToken = some token

theorem countP_leasedUnder :
    jobs.rows.countP (Row.leasedUnder id token) =
      if (jobs.find id).any (Row.leasedUnder id token) then 1 else 0 :=
  Library.KeyedRows.countP_eq_of_key jobs.distinct fun _ leased =>
    (Row.leasedUnder_iff.mp leased).1

/-- A mark that misses, because its token is not the one the row is held under,
leaves the table as it is. -/
theorem updateLeased_of_not_held
    (missed : ¬ HeldUnder jobs id token) (set : Row → Except SqlError Row) :
    updateLeased jobs now id token set = .ok (jobs, 0) := by
  have noneLeased : ∀ row ∈ jobs.rows,
      row.leasedUnder id token = false := by
    intro row member
    rw [Bool.eq_false_iff]
    intro leased
    obtain ⟨sameId, running, held⟩ := Row.leasedUnder_iff.mp leased
    exact missed ⟨row, Jobs.find_eq_some_iff.mpr ⟨member, sameId⟩, running,
      held⟩
  have noCount : jobs.rows.countP (Row.leasedUnder id token) = 0 := by
    rw [List.countP_eq_zero]
    intro row member
    simp [noneLeased row member]
  unfold updateLeased
  rw [Jobs.update_eq_self noneLeased, noCount]
  rfl

/-- A mark that hits replaces that one row and no other. -/
theorem updateLeased_of_held
    {set : Row → Except SqlError Row}
    (outcome : updateLeased jobs now id token set = .ok (updated, count))
    (found : jobs.find id = some row) (running : row.status = .running)
    (held : row.leaseToken = some token) :
    count = 1 ∧ updated.nextId = jobs.nextId ∧
      (∃ new, Jobs.updateRow now set row = .ok new ∧
        updated.find id = some new) ∧
      ∀ other, other ≠ id → updated.find other = jobs.find other := by
  have leased : row.leasedUnder id token = true :=
    Row.leasedUnder_iff.mpr ⟨Jobs.id_of_find found, running, held⟩
  unfold updateLeased at outcome
  cases result : jobs.update now (Row.leasedUnder id token) set with
  | error failure =>
      rw [result] at outcome
      cases outcome
  | ok written =>
      rw [result] at outcome
      cases outcome
      refine ⟨?_, (Jobs.mapM_of_update result).2, ?_, ?_⟩
      · rw [countP_leasedUnder, found]
        simp [leased]
      · rcases Jobs.find_update_of_some result found with
          ⟨_, replaced⟩ | ⟨skipped, _⟩
        · exact replaced
        · rw [leased] at skipped
          cases skipped
      · intro other different
        cases otherFound : jobs.find other with
        | none =>
            exact Jobs.find_update_of_none result otherFound
        | some otherRow =>
            rcases Jobs.find_update_of_some result otherFound with
              ⟨selected, _⟩ | ⟨_, same⟩
            · have sameId := (Row.leasedUnder_iff.mp selected).1
              rw [Jobs.id_of_find otherFound] at sameId
              exact (different sameId).elim
            · exact same

end Effect

/-! ## The three statements together -/

/-- A call of one of the three mark functions, without its target. -/
inductive Mark where
  | done
  | retry (reason : String) (delay : Duration)
  | dead (reason : String)
  deriving DecidableEq

namespace Mark

def execute (jobs : Jobs) (now : Int) (id : Nat) (token : Uuid) :
    Mark → Except SqlError (Jobs × Nat)
  | done => markDone jobs now id token
  | retry reason delay => markRetry jobs now id token reason delay
  | dead reason => markDead jobs now id token reason

/-- The version of a row the SET clause writes. -/
def version (now : Int) : Mark → Row → Row
  | done => doneVersion now
  | retry reason delay => retryVersion reason (now + retryMicros delay)
  | dead reason => deadVersion now reason

/-- The stored version: the SET clause, then the trigger. -/
def markedRow (now : Int) (mark : Mark) (row : Row) : Row :=
  setUpdatedAt now (mark.version now row)

/-- The status a mark leaves behind. -/
def status : Mark → JobStatus
  | done => .done
  | retry _ _ => .awaitingRetry
  | dead _ => .dead

/-- The text a mark stores in `last_error`. -/
def reason : Mark → Option String
  | done => none
  | retry reason _ => some reason
  | dead reason => some reason

/-- The SET clause with the overflow check of `now() + $4`. -/
def set (now : Int) (mark : Mark) (row : Row) : Except SqlError Row :=
  match mark with
  | retry _ delay => do
      let _runAt ← timestampAdd now (retryMicros delay)
      .ok (mark.version now row)
  | _ => .ok (mark.version now row)

variable {jobs updated : Jobs} {now : Int} {id count : Nat} {token : Uuid}
  {mark : Mark} {row new : Row} {failure : SqlError}

@[simp]
theorem version_id : (mark.version now row).id = row.id := by
  cases mark <;> rfl

@[simp]
theorem version_concurrencyKey :
    (mark.version now row).concurrencyKey = row.concurrencyKey := by
  cases mark <;> rfl

@[simp]
theorem markedRow_status (now : Int) (mark : Mark) (row : Row) :
    (mark.markedRow now row).status = mark.status := by
  cases mark <;> rfl

theorem status_ne_running (mark : Mark) : mark.status ≠ .running := by
  cases mark <;> simp [status]

/-- Whether the text of a mark is accepted does not depend on the table. -/
theorem execute_uniform (now : Int) (id : Nat) (token : Uuid) (mark : Mark) :
    (∀ jobs, mark.execute jobs now id token =
        .error .characterNotInRepertoire) ∨
      ∀ jobs, mark.execute jobs now id token =
        updateLeased jobs now id token (mark.set now) := by
  cases mark with
  | done =>
      exact Or.inr fun _ => rfl
  | retry reason delay =>
      simp only [execute, markRetry, textParam]
      split
      · exact Or.inl fun _ => rfl
      · right
        intro jobs
        simp only [bind, Except.bind]
        congr 1
        funext row
        simp only [set, timestampAdd]
        by_cases inRange :
            timestampInRange (now + retryMicros delay) = true
        · simp only [if_pos inRange]
          rfl
        · simp only [if_neg inRange]
          rfl
  | dead reason =>
      simp only [execute, markDead, textParam]
      split
      · exact Or.inl fun _ => rfl
      · exact Or.inr fun _ => rfl

theorem execute_eq (jobs : Jobs) (now : Int) (id : Nat) (token : Uuid)
    (mark : Mark) :
    mark.execute jobs now id token = .error .characterNotInRepertoire ∨
      mark.execute jobs now id token =
        updateLeased jobs now id token (mark.set now) := by
  rcases execute_uniform now id token mark with refused | sent
  · exact Or.inl (refused jobs)
  · exact Or.inr (sent jobs)

theorem set_eq (now : Int) (mark : Mark) (row : Row) :
    mark.set now row = .error .datetimeFieldOverflow ∨
      mark.set now row = .ok (mark.version now row) := by
  cases mark with
  | done =>
      exact Or.inr rfl
  | dead reason =>
      exact Or.inr rfl
  | retry reason delay =>
      simp only [set, timestampAdd]
      split
      · exact Or.inr rfl
      · exact Or.inl rfl

theorem updateRow_set_eq_ok
    (outcome : Jobs.updateRow now (mark.set now) row = .ok new) :
    new = mark.markedRow now row ∧ new.PassesChecks := by
  obtain ⟨written, result, _, _, rfl, passes⟩ :=
    Jobs.updateRow_eq_ok_iff.mp outcome
  rcases set_eq now mark row with overflow | set
  · rw [overflow] at result
    cases result
  · rw [set] at result
    cases result
    exact ⟨rfl, passes⟩

/-- A mark that reports success either missed and left the whole table alone,
or replaced the one row held under its token. -/
theorem execute_spec
    (outcome : mark.execute jobs now id token = .ok (updated, count)) :
    (¬ HeldUnder jobs id token ∧ updated = jobs ∧ count = 0) ∨
      ∃ row, jobs.find id = some row ∧ row.status = .running ∧
        row.leaseToken = some token ∧ count = 1 ∧
        updated.nextId = jobs.nextId ∧
        (mark.markedRow now row).PassesChecks ∧
        updated.find id = some (mark.markedRow now row) ∧
        ∀ other, other ≠ id → updated.find other = jobs.find other := by
  rcases execute_eq jobs now id token mark with refused | sent
  · rw [refused] at outcome
    cases outcome
  · rw [sent] at outcome
    by_cases held : HeldUnder jobs id token
    · obtain ⟨row, found, running, leased⟩ := held
      obtain ⟨one, sequence, ⟨new, written, foundNew⟩, others⟩ :=
        updateLeased_of_held outcome found running leased
      obtain ⟨rfl, passes⟩ := updateRow_set_eq_ok written
      exact Or.inr ⟨row, found, running, leased, one, sequence, passes,
        foundNew, others⟩
    · rw [updateLeased_of_not_held held] at outcome
      cases outcome
      exact Or.inl ⟨held, rfl, rfl⟩

/-- A mark fails on its parameters, on `now() + $4`, or on a CHECK that the
new version of the row held under its token violates. -/
theorem execute_eq_error
    (outcome : mark.execute jobs now id token = .error failure) :
    failure = .characterNotInRepertoire ∨
      failure = .datetimeFieldOverflow ∨
      ∃ row, jobs.find id = some row ∧ row.status = .running ∧
        row.leaseToken = some token ∧
        ¬ (mark.markedRow now row).PassesChecks := by
  rcases execute_eq jobs now id token mark with refused | sent
  · rw [refused] at outcome
    cases outcome
    exact Or.inl rfl
  · rw [sent, updateLeased] at outcome
    cases result : jobs.update now (Row.leasedUnder id token)
        (mark.set now) with
    | ok written =>
        rw [result] at outcome
        cases outcome
    | error rowFailure =>
        rw [result] at outcome
        cases outcome
        obtain ⟨row, member, leased, rowFailed⟩ :=
          Jobs.exists_of_update_eq_error result
        obtain ⟨rfl, running, held⟩ := Row.leasedUnder_iff.mp leased
        right
        rcases set_eq now mark row with overflow | set
        · left
          simp only [Jobs.updateRow, overflow, bind, Except.bind]
            at rowFailed
          cases rowFailed
          rfl
        · right
          refine ⟨row, Jobs.find_id_of_mem member, running, held, ?_⟩
          intro passes
          have succeeds := Jobs.updateRow_eq_ok_iff.mpr
            ⟨mark.version now row, set, version_id,
              version_concurrencyKey, rfl, passes⟩
          rw [succeeds] at rowFailed
          cases rowFailed

/-- What Postgres accepts of a mark, whatever the table: no U+0000 in the
reason, and a `run_at` that is a timestamp. -/
structure Accepted (now : Int) (mark : Mark) : Prop where
  text : ∀ reason, mark.reason = some reason → '\x00' ∉ reason.toList
  runAt : ∀ reason delay, mark = retry reason delay →
    timestampInRange (now + retryMicros delay) = true

theorem accepted_done (now : Int) : Accepted now done where
  text := by
    intro reason hasReason
    cases hasReason
  runAt := by
    intro reason delay isRetry
    cases isRetry

theorem Accepted.execute_eq (accepted : Accepted now mark) (jobs : Jobs)
    (id : Nat) (token : Uuid) :
    mark.execute jobs now id token =
      updateLeased jobs now id token fun row => .ok (mark.version now row) := by
  cases mark with
  | done => rfl
  | dead reason =>
      simp only [execute, markDead, textParam,
        if_neg (accepted.text reason rfl)]
      rfl
  | retry reason delay =>
      simp only [execute, markRetry, textParam, timestampAdd,
        if_neg (accepted.text reason rfl),
        if_pos (accepted.runAt reason delay rfl)]
      rfl

/-- A mark that is accepted and whose row passes the CHECKs writes the row held
under its token. -/
theorem Accepted.exists_execute_eq_ok (accepted : Accepted now mark)
    (found : jobs.find id = some row) (running : row.status = .running)
    (held : row.leaseToken = some token)
    (passes : (mark.markedRow now row).PassesChecks) :
    ∃ updated, mark.execute jobs now id token = .ok (updated, 1) ∧
      updated.find id = some (mark.markedRow now row) := by
  cases outcome : mark.execute jobs now id token with
  | ok reply =>
      obtain ⟨updated, count⟩ := reply
      rcases execute_spec outcome with
        ⟨missed, _⟩ | ⟨stored, storedFound, _, _, rfl, _, _, after, _⟩
      · exact absurd ⟨row, found, running, held⟩ missed
      · rw [found] at storedFound
        cases storedFound
        exact ⟨updated, rfl, after⟩
  | error failure =>
      rw [accepted.execute_eq, updateLeased] at outcome
      cases update : jobs.update now (Row.leasedUnder id token)
          (fun row => .ok (mark.version now row)) with
      | ok written =>
          rw [update] at outcome
          cases outcome
      | error rowFailure =>
          obtain ⟨stored, member, leased, refused⟩ :=
            Jobs.exists_of_update_eq_error update
          have sameId := (Row.leasedUnder_iff.mp leased).1
          have storedFound := Jobs.find_eq_some_iff.mpr ⟨member, sameId⟩
          rw [found] at storedFound
          cases storedFound
          have written : Jobs.updateRow now
              (fun row => .ok (mark.version now row)) row = .ok _ :=
            Jobs.updateRow_eq_ok_iff.mpr
              ⟨mark.version now row, rfl, version_id, version_concurrencyKey,
                rfl, passes⟩
          rw [written] at refused
          cases refused

/-- A mark that wrote the row held under its token was accepted. -/
theorem accepted_of_execute_eq_ok (found : jobs.find id = some row)
    (running : row.status = .running) (held : row.leaseToken = some token)
    (outcome : mark.execute jobs now id token = .ok (updated, count)) :
    Accepted now mark := by
  cases mark with
  | done => exact accepted_done now
  | dead reason =>
      refine ⟨?_, fun _ _ isRetry => Mark.noConfusion isRetry⟩
      intro stored hasReason nul
      cases hasReason
      simp only [execute, markDead, textParam, if_pos nul] at outcome
      cases outcome
  | retry reason delay =>
      by_cases nul : '\x00' ∈ reason.toList
      · simp only [execute, markRetry, textParam, if_pos nul] at outcome
        cases outcome
      · simp only [execute, markRetry, textParam, if_neg nul] at outcome
        obtain ⟨_, _, ⟨new, written, _⟩, _⟩ :=
          updateLeased_of_held outcome found running held
        obtain ⟨version, set, _⟩ := Jobs.updateRow_eq_ok_iff.mp written
        refine ⟨?_, ?_⟩
        · intro stored hasReason
          cases hasReason
          exact nul
        · intro stored given isRetry
          cases isRetry
          by_contra outOfRange
          simp only [timestampAdd, if_neg outOfRange] at set
          cases set

end Mark

end PgWorkQueue
