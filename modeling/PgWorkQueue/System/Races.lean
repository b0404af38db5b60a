import PgWorkQueue.System.ConcurrentClaim
import PgWorkQueue.System.Fencing

/-!
# Races for a row

Statements that interleave race for rows: two claims for a waiting row, a mark
and a reap for a running one.  Every write of a row moves it on by one, from
waiting to running or from running to an end of the attempt, so of the
statements that race for one such move exactly one makes it.

A mark waits when another statement has locked its row; nothing else waits, and
nobody waits for a mark that waits.  The other statement is in the race, or it
comes too late for an earlier one: its snapshot showed the row before the
attempt began, and it keeps the lock of a row that no longer passes its WHERE
clause.
-/

namespace PgWorkQueue

open Library.Runs Library.RowLocking

/-! ## How far a row has come -/

section Progress

variable {T : Type} {jobs next : Jobs} {id : Nat} {old new row : Row}

theorem Row.Succeeds.progress_le (succeeds : new.Succeeds old) :
    old.progress ≤ new.progress := by
  rcases succeeds.moved with same | moved
  · rw [same]
  · exact Int.le_of_lt moved

theorem follows_of_run {trace : List (Transition Jobs (Event T))}
    (run : Run (Executes T) jobs trace next) : Follows jobs next := by
  induction run with
  | refl => exact Follows.refl jobs
  | snoc _ executes inductionHypothesis =>
      apply inductionHypothesis.trans
      rw [executes]
      exact follows_execute ..

/-- A row never goes back, and never returns once it is deleted. -/
theorem progress_le_of_run {trace : List (Transition Jobs (Event T))}
    (run : Run (Executes T) jobs trace next)
    (before : jobs.find id = some old) (after : next.find id = some new) :
    old.progress ≤ new.progress :=
  ((follows_of_run run).succeeds before after).progress_le

end Progress

/-! ## What a commit reports -/

section Reports

variable {T : Type}

/-- A mark or a reap that commits reports the end of an attempt: the mark that
it has written its row, the reap the row as it has left it. -/
inductive Settles (taken : Transition Interleaving (Part T)) (version : Row) :
    Prop
  | mark (id session now target token mark accepted)
      (isCommit : taken.label = .commit id)
      (found : taken.source.sessions id = some session)
      (isMark : session.statement = ⟨.mark now target token mark, accepted⟩)
      (member : version ∈ session.held)
      (replied : replyOf taken = some (.affected 1))
  | reap (id session now queue batchLimit tie accepted rows)
      (isCommit : taken.label = .commit id)
      (found : taken.source.sessions id = some session)
      (isReap : session.statement =
        ⟨.reap now queue batchLimit tie, accepted⟩)
      (member : version ∈ session.held)
      (replied : replyOf taken = some (.reaped rows))
      (reported : ReapedRow.fromRow (reapedRow now version) ∈ rows)

variable {source target : Interleaving} {part : Part T} {version : Row}
  {raw : RawClaimedRow}

/-- A commit hands out no row twice. -/
theorem nodup_handedOut (sound : source.Sound (lockingDatabase T))
    (taken : Step (lockingDatabase T) source part target) :
    ((handedOut ⟨source, part, target⟩).map RawClaimedRow.id).Nodup := by
  rcases handedOut_cases sound taken with
    nothing | ⟨id, session, claim, accepted, _, found, _, returned, _⟩
  · rw [nothing]
    exact List.nodup_nil
  · rw [returned, List.map_map]
    exact ids_nodup_of_holds (sound.sessions id session found).holds

/-- An attempt that is handed out starts with the commit. -/
theorem starts_of_handedOut (sound : source.Sound (lockingDatabase T))
    (taken : Step (lockingDatabase T) source part target)
    (member : raw ∈ handedOut ⟨source, part, target⟩) :
    ∃ row claimed, source.table.find raw.id = some row ∧
      row.status ≠ .running ∧ target.table.find raw.id = some claimed ∧
      claimed.status = .running ∧ claimed.attempts = row.attempts + 1 ∧
      (raw.attempts : Int) = claimed.attempts := by
  rcases handedOut_cases sound taken with
    nothing | ⟨id, session, claim, accepted, _, found, isClaim, returned, each⟩
  · rw [nothing] at member
    cases member
  · rw [returned] at member
    obtain ⟨row, isHeld, rfl⟩ := List.mem_map.mp member
    have holds := (sound.sessions id session found).holds
    rw [isClaim] at holds
    obtain ⟨passes, after⟩ := each row isHeld
    have waiting := OpenClaim.waiting_of_test (holds.passes row isHeld)
    have nonneg : 0 ≤ row.attempts + 1 :=
      of_decide_eq_true (passes .jobsAttemptsNonneg)
    exact ⟨row, claim.writes row, holds.latest row isHeld,
      Row.not_running_of_waiting waiting, after, rfl, rfl,
      Int.toNat_of_nonneg nonneg⟩

theorem table_of_commit {id : Nat}
    {session : Session Jobs Nat Row OpenStatement}
    (taken : Step (lockingDatabase T) source (.commit id) target)
    (found : source.sessions id = some session) :
    target.table =
      (session.statement.val.outcome source.table session.held).1 := by
  cases taken with
  | commit _ same sameFound _ =>
      rw [found] at sameFound
      cases sameFound
      rfl

/-- An attempt that is settled ends with the commit. -/
theorem ends_of_settles (sound : source.Sound (lockingDatabase T))
    (taken : Step (lockingDatabase T) source part target)
    (settles : Settles ⟨source, part, target⟩ version) :
    source.table.find version.id = some version ∧
      version.status = .running ∧
      ∃ ended, target.table.find version.id = some ended ∧
        ended.status ≠ .running ∧ ended.attempts = version.attempts := by
  cases settles with
  | mark id session now _ token mark accepted isCommit found isMark member
      replied =>
      cases isCommit
      have holds := (sound.sessions id session found).holds
      have latest := holds.latest version member
      have passes := holds.passes version member
      rw [isMark] at passes
      refine ⟨latest, (Row.leasedUnder_iff.mp passes).2.1, ?_⟩
      rw [table_of_commit taken found, isMark]
      rw [reply_of_commit found, isMark] at replied
      simp only [Underway.outcome, bind, Except.bind] at replied ⊢
      cases written : source.table.update now (named session.held)
          (mark.set now) with
      | error failure =>
          rw [written] at replied
          cases replied
      | ok updated =>
          obtain ⟨_, new, isNew, after⟩ | ⟨skipped, _⟩ :=
            Jobs.find_update_of_some written latest
          · obtain ⟨rfl, _⟩ := Mark.updateRow_set_eq_ok isNew
            refine ⟨_, after, ?_, ?_⟩
            · rw [Mark.markedRow_status]
              exact mark.status_ne_running
            · cases mark <;> rfl
          · rw [named_iff.mpr (List.mem_map_of_mem member)] at skipped
            cases skipped
  | reap id session now queue batchLimit tie accepted rows isCommit found
      isReap member replied reported =>
      cases isCommit
      have holds := (sound.sessions id session found).holds
      have latest := holds.latest version member
      have passes := holds.passes version member
      rw [isReap] at passes
      have running := (Row.stale_iff.mp passes).2.1
      refine ⟨latest, running, ?_⟩
      rw [table_of_commit taken found, isReap]
      rw [reply_of_commit found, isReap] at replied
      simp only [Underway.outcome, bind, Except.bind] at replied ⊢
      cases written : source.table.update now
          (fun row => named session.held row && row.status == .running)
          (fun row => .ok (reapedVersion now row)) with
      | error failure =>
          rw [written] at replied
          cases replied
      | ok updated =>
          obtain ⟨_, new, isNew, after⟩ | ⟨skipped, _⟩ :=
            Jobs.find_update_of_some written latest
          · obtain ⟨rfl, _⟩ := updateRow_reapedVersion_eq_ok_iff.mp isNew
            exact ⟨_, after, reapedRow_status_ne_running now version, rfl⟩
          · rw [named_iff.mpr (List.mem_map_of_mem member), running] at skipped
            cases skipped

end Reports

/-! ## Every race has one winner -/

section Winners

variable {T : Type} {jobs : Jobs} {finish : Interleaving}
  {trace : List (Transition Interleaving (Part T))}

/-- However statements interleave, each attempt of a job is handed out by one
claim, and it is settled at most once: of the marks and reaps that race for it,
only one reports that it has ended it. -/
theorem each_attempt_has_one_winner
    (run : Run (Step (lockingDatabase T)) (State.initial jobs) trace finish) :
    (∀ taken ∈ trace, ((handedOut taken).map RawClaimedRow.id).Nodup) ∧
      ∀ before first between second after,
        trace = before ++ first :: (between ++ second :: after) →
        (∀ raw ∈ handedOut first, ∀ later ∈ handedOut second,
          later.id = raw.id → raw.attempts < later.attempts) ∧
        ∀ version later, Settles first version → Settles second later →
          later.id = version.id → version.attempts < later.attempts := by
  constructor
  · intro taken member
    obtain ⟨_, earlier, step⟩ := run.reaches_source member
    exact nodup_handedOut (Interleaving.sound_of_run earlier) step
  · rintro before first between second after rfl
    obtain ⟨earlier, firstStep, rest⟩ := run.splitAt
    obtain ⟨middle, secondStep, _⟩ := rest.splitAt
    have sound := Interleaving.sound_of_run earlier
    have soundNext := sound.step firstStep
    have soundLater := soundNext.run middle
    have executions := Interleaving.execution_run soundNext middle
    constructor
    · intro raw member later laterMember sameId
      obtain ⟨_, claimed, _, _, nowClaimed, running, _, attempt⟩ :=
        starts_of_handedOut sound firstStep member
      obtain ⟨row, again, stillThere, waiting, _, _, next, laterAttempt⟩ :=
        starts_of_handedOut soundLater secondStep laterMember
      rw [sameId] at stillThere
      have grown := progress_le_of_run executions nowClaimed stillThere
      rw [Row.progress_of_running running,
        Row.progress_of_not_running waiting] at grown
      omega
    · intro version later settles settlesLater sameId
      obtain ⟨_, _, ended, nowEnded, notRunning, attempt⟩ :=
        ends_of_settles sound firstStep settles
      obtain ⟨stillThere, running, _⟩ :=
        ends_of_settles soundLater secondStep settlesLater
      rw [sameId] at stillThere
      have grown := progress_le_of_run executions nowEnded stillThere
      rw [Row.progress_of_not_running notRunning,
        Row.progress_of_running running] at grown
      omega

end Winners

/-! ### The next attempt of the row

After the reap of `MarkAndReap` the row is claimed again, and the mark of the
second attempt finds its row. -/

namespace MarkAndReap

def claim : OpenClaim where
  params :=
    { queue := "mail"
      batchSize := 1
      leaseTimeout := Duration.tenMicros
      maxAttempts := 3
      headroom := ∅ }
  now := 30
  gen := fun _ => ⟨9⟩
  leaseMicros := 10
  eligible := none

def claimStatement : OpenStatement := ⟨.claim claim, rfl, rfl⟩

def secondMark : OpenStatement :=
  ⟨.mark 35 1 ⟨9⟩ .done, accepted_done 35 ⟨9⟩⟩

def reclaimed : Row := claim.writes released

def claiming : Interleaving :=
  missed.start (lockingDatabase Unit) 3 claimStatement

def claimLocked : Interleaving :=
  claiming.lock (lockingDatabase Unit) 3
    ⟨claimStatement, missed.table, [1], [], []⟩ 1 released []

def claimed : Interleaving :=
  claimLocked.commit (lockingDatabase Unit) 3
    ⟨claimStatement, missed.table, [], [1], [released]⟩

def marking : Interleaving :=
  claimed.start (lockingDatabase Unit) 4 secondMark

def markLocked : Interleaving :=
  marking.lock (lockingDatabase Unit) 4
    ⟨secondMark, claimed.table, [1], [], []⟩ 1 reclaimed []

def done : Interleaving :=
  markLocked.commit (lockingDatabase Unit) 4
    ⟨secondMark, claimed.table, [], [1], [reclaimed]⟩

/-- From the end of the first mark to the lock of the second. -/
def again : List (Transition Interleaving (Part Unit)) :=
  [⟨missed, .start 3 claimStatement, claiming⟩,
    ⟨claiming, .visit 3, claimLocked⟩,
    ⟨claimLocked, .commit 3, claimed⟩,
    ⟨claimed, .start 4 secondMark, marking⟩,
    ⟨marking, .visit 4, markLocked⟩]

def markCommit : Transition Interleaving (Part Unit) :=
  ⟨markLocked, .commit 4, done⟩

theorem run_again :
    Run (Step (lockingDatabase Unit)) (State.initial table)
      (opening ++ reapCommit :: ((closing ++ again) ++ [markCommit])) done := by
  have first : Run (Step (lockingDatabase Unit)) missed again markLocked := by
    refine Run.append (Run.single (.start missed 3 claimStatement rfl rfl)) ?_
    refine Run.append (Run.single (.lock claiming 3 _ 1 [] released rfl
      Nat.zero_lt_one rfl rfl rfl)) ?_
    refine Run.append
      (Run.single (.commit claimLocked 3 _ rfl (Or.inl rfl))) ?_
    refine Run.append
      (Run.single (.start claimed 4 secondMark rfl trivial)) ?_
    exact Run.single (.lock marking 4 _ 1 [] reclaimed rfl Nat.zero_lt_one rfl
      rfl rfl)
  have second : Run (Step (lockingDatabase Unit)) markLocked [markCommit]
      done :=
    Run.single (.commit markLocked 4 _ rfl (Or.inl rfl))
  have whole := (run.append first).append second
  simpa using whole

theorem reap_settles : Settles reapCommit row :=
  .reap 1 ⟨reap, table, [], [1], [row]⟩ 20 "mail" 100 (fun id => id) rfl
    [.fromRow released] rfl rfl rfl List.mem_cons_self rfl List.mem_cons_self

theorem mark_settles : Settles markCommit reclaimed :=
  .mark 4 ⟨secondMark, claimed.table, [], [1], [reclaimed]⟩ 35 1 ⟨9⟩ .done
    secondMark.property rfl rfl rfl List.mem_cons_self rfl

end MarkAndReap

open MarkAndReap in
theorem each_attempt_has_one_winner_on_markAndReap :
    Settles reapCommit row ∧ Settles markCommit reclaimed ∧
      row.attempts < reclaimed.attempts :=
  ⟨reap_settles, mark_settles,
    ((each_attempt_has_one_winner run_again).2 opening reapCommit
      (closing ++ again) markCommit [] rfl).2 row reclaimed reap_settles
      mark_settles rfl⟩

/-! ## Waiting -/

section Waiting

variable {T : Type} {jobs : Jobs} {finish state : Interleaving}
  {trace : List (Transition Interleaving (Part T))} {waiting holder id : Nat}
  {token : Uuid} {session : Session Jobs Nat Row OpenStatement}

/-- Who may hold the row of a lease that is current: a reap that has found the
lease expired, or a mark of the same lease. -/
def Underway.Contests (jobs : Jobs) (id : Nat) (token : Uuid) :
    Underway → Prop
  | .reap now queue _ _ =>
      ∃ row, jobs.find id = some row ∧ row.stale queue now = true
  | .mark _ target other _ => target = id ∧ other = token
  | _ => False

/-- The statement is too late for the row, which passed the WHERE clause in the
snapshot, but has begun another attempt since and passes no longer. -/
def Underway.Outrun (snapshot jobs : Jobs) (id : Nat) (statement : Underway) :
    Prop :=
  ∃ old row, snapshot.find id = some old ∧ statement.test old = true ∧
    jobs.find id = some row ∧ statement.test row = false ∧
    old.attempts < row.attempts

/-- A statement that holds the row of a current lease contests it. -/
theorem contests_of_holds {statement : OpenStatement} {snapshot : Jobs}
    {held : List Row}
    (holds : Holds (lockingSignature T) statement snapshot jobs held)
    (listed : id ∈ held.map Row.id) (current : HeldUnder jobs id token) :
    statement.val.Contests jobs id token := by
  obtain ⟨version, member, rfl⟩ := List.mem_map.mp listed
  have latest := holds.latest version member
  obtain ⟨row, found, running, leased⟩ := current
  rw [show jobs.find version.id = some version from latest] at found
  cases found
  have passes := holds.passes version member
  obtain ⟨statement, accepted⟩ := statement
  cases statement with
  | claim claim =>
      exact Row.not_running_of_waiting (OpenClaim.waiting_of_test passes)
        running
  | mark now target other mark =>
      obtain ⟨sameId, _, sameToken⟩ := Row.leasedUnder_iff.mp passes
      rw [leased] at sameToken
      exact ⟨sameId.symm, (Option.some.inj sameToken).symm⟩
  | reap now queue batchLimit tie => exact ⟨version, latest, passes⟩
  | purge now status age tie =>
      have terminal := (Row.expired_iff.mp passes).1
      rw [running] at terminal
      cases status with
      | done => cases terminal
      | dead => cases terminal

/-- A running row that is no longer what it was has begun another attempt. -/
theorem Row.Succeeds.attempts_lt {old new : Row} (succeeds : new.Succeeds old)
    (changed : new ≠ old) (running : new.status = .running) :
    old.attempts < new.attempts := by
  rcases succeeds.moved with same | moved
  · exact absurd same changed
  · rw [Row.progress_of_running running, Row.progress] at moved
    split at moved
    · omega
    · omega

/-- A row that is finished stays as it is, so no purge comes too late for it. -/
theorem Row.Succeeds.expired {old new : Row} {status : TerminalStatus}
    {cutoff : Int} (succeeds : new.Succeeds old)
    (expired : old.expired status.toJobStatus cutoff = true) : new = old := by
  have terminal := (Row.expired_iff.mp expired).1
  apply succeeds.frozen
  rw [terminal]
  cases status with
  | done => exact Or.inl rfl
  | dead => exact Or.inr rfl

/-- A statement that has locked the row of a current lease contests it or has
been outrun; it is no purge. -/
theorem contests_or_outrun (inOrder : session.Sound (lockingDatabase T) state
      holder) (isLocked : id ∈ session.locked)
    (current : HeldUnder state.table id token) :
    (∀ now status age tie,
        session.statement.val ≠ .purge now status age tie) ∧
      (id ∈ session.held.map Row.id ∧
          session.statement.val.Contests state.table id token ∨
        id ∉ session.held.map Row.id ∧
          session.statement.val.Outrun session.snapshot state.table id) := by
  obtain ⟨row, latest, isHeld | ⟨fails, notHeld⟩⟩ :=
    inOrder.held_or_fails isLocked
  · have listed : id ∈ session.held.map Row.id := by
      rw [← Jobs.id_of_find latest]
      exact List.mem_map_of_mem isHeld
    have contests := contests_of_holds inOrder.holds listed current
    refine ⟨?_, Or.inl ⟨listed, contests⟩⟩
    intro now status age tie isPurge
    rw [isPurge] at contests
    exact contests
  · obtain ⟨old, before, passed, succeeds⟩ := Underway.exists_candidate
      inOrder.followed (inOrder.visits.subset
        (List.mem_append_left _ isLocked)) latest
    have changed : row ≠ old := by
      rintro rfl
      rw [show session.statement.val.test row = false from fails] at passed
      cases passed
    obtain ⟨same, found, running, _⟩ := current
    rw [show state.table.find id = some row from latest] at found
    cases found
    refine ⟨?_, Or.inr ⟨notHeld, old, row, before, passed, latest, fails,
      succeeds.attempts_lt changed running⟩⟩
    intro now status age tie isPurge
    rw [isPurge] at passed
    exact changed (succeeds.expired passed)

/-- Only a mark waits, and it has locked nothing while it waits. -/
theorem exists_mark_of_waits (sound : state.Sound (lockingDatabase T))
    (waits : state.Waits (lockingDatabase T) waiting holder) :
    ∃ session now id token mark accepted,
      state.sessions waiting = some session ∧
      session.statement = ⟨.mark now id token mark, accepted⟩ ∧
      session.locked = [] ∧ session.held = [] ∧
      state.owner id = some holder := by
  have ⟨session, key, rest, found, _, isNext, blocks, owned⟩ := waits
  have inOrder := sound.sessions waiting session found
  have locksNothing := sound.locked_of_waits found waits
  have holdsNothing : session.held = [] := by
    rw [inOrder.held, locksNothing]
    rfl
  have proposed : key ∈ session.statement.val.candidates session.snapshot := by
    apply inOrder.visits.subset
    rw [isNext]
    exact List.mem_append_right _ List.mem_cons_self
  obtain ⟨old, before, passes⟩ := Underway.mem_candidates.mp proposed
  cases isStatement : session.statement with
  | mk statement accepted =>
      rw [isStatement] at blocks passes
      cases statement with
      | claim claim => cases blocks
      | mark now id token mark =>
          have isTarget : key = id := by
            rw [← Jobs.id_of_find before]
            exact (Row.leasedUnder_iff.mp passes).1
          rw [isTarget] at owned
          exact ⟨session, now, id, token, mark, accepted, found, isStatement,
            locksNothing, holdsNothing, owned⟩
      | reap now queue batchLimit tie => cases blocks
      | purge now status age tie => cases blocks

/-- Only marks wait, and nobody waits for a mark that waits.  A mark whose
lease is current waits for a reap that has found the lease expired or another
mark of the same lease, which holds the row, or for a statement whose snapshot
is older than the attempt, which has locked the row and will leave it as it is;
it never waits for a purge.  Every statement under way can be brought to its
commit, by its own steps and those of the statement it waits for. -/
theorem statements_never_deadlock
    (run : Run (Step (lockingDatabase T)) (State.initial jobs) trace finish) :
    (∀ waiting holder, finish.Waits (lockingDatabase T) waiting holder →
        (∀ other, ¬ finish.Waits (lockingDatabase T) holder other) ∧
        ∃ session now id token mark accepted holding,
          finish.sessions waiting = some session ∧
          session.statement = ⟨.mark now id token mark, accepted⟩ ∧
          session.locked = [] ∧ session.held = [] ∧
          finish.sessions holder = some holding ∧ id ∈ holding.locked ∧
          (HeldUnder finish.table id token →
            (∀ now status age tie,
                holding.statement.val ≠ .purge now status age tie) ∧
              (id ∈ holding.held.map Row.id ∧
                  holding.statement.val.Contests finish.table id token ∨
                id ∉ holding.held.map Row.id ∧
                  holding.statement.val.Outrun holding.snapshot finish.table
                    id))) ∧
      ∀ id session, finish.sessions id = some session →
        ∃ later last, Run (Step (lockingDatabase T)) finish later last ∧
          last.sessions id = none ∧
          (∃ taken ∈ later, taken.label = .commit id) ∧
          ∀ taken ∈ later, taken.label.Advances id ∨
            ∃ holder, finish.Waits (lockingDatabase T) id holder ∧
              taken.label.Advances holder := by
  have sound := Interleaving.sound_of_run run
  constructor
  · intro waiting holder waits
    refine ⟨sound.not_waits_of_waits waits, ?_⟩
    obtain ⟨session, now, id, token, mark, accepted, found, isMark, locked,
      held, owned⟩ := exists_mark_of_waits sound waits
    obtain ⟨holding, holderFound, isLocked⟩ := sound.owners id holder owned
    refine ⟨session, now, id, token, mark, accepted, holding, found, isMark,
      locked, held, holderFound, isLocked, ?_⟩
    intro current
    exact contests_or_outrun (sound.sessions holder holding holderFound)
      isLocked current
  · intro id session found
    exact sound.exists_commit found

end Waiting

/-! ### A claim that comes too late

Two claims have the released row of `MarkAndReap` in their snapshots.  The first
takes it; the second locks it afterwards, finds it running and keeps the lock.
The mark of the first claim's lease waits for the second claim. -/

namespace MarkAndReap

def lateClaim : OpenClaim := { claim with gen := fun _ => ⟨10⟩ }

def lateStatement : OpenStatement := ⟨.claim lateClaim, rfl, rfl⟩

def bothClaiming : Interleaving :=
  claiming.start (lockingDatabase Unit) 5 lateStatement

def firstLocked : Interleaving :=
  bothClaiming.lock (lockingDatabase Unit) 3
    ⟨claimStatement, missed.table, [1], [], []⟩ 1 released []

def firstClaimed : Interleaving :=
  firstLocked.commit (lockingDatabase Unit) 3
    ⟨claimStatement, missed.table, [], [1], [released]⟩

def lateLocked : Interleaving :=
  firstClaimed.lock (lockingDatabase Unit) 5
    ⟨lateStatement, missed.table, [1], [], []⟩ 1 reclaimed []

def markWaits : Interleaving :=
  lateLocked.start (lockingDatabase Unit) 4 secondMark

def lateSteps : List (Transition Interleaving (Part Unit)) :=
  [⟨missed, .start 3 claimStatement, claiming⟩,
    ⟨claiming, .start 5 lateStatement, bothClaiming⟩,
    ⟨bothClaiming, .visit 3, firstLocked⟩,
    ⟨firstLocked, .commit 3, firstClaimed⟩,
    ⟨firstClaimed, .visit 5, lateLocked⟩,
    ⟨lateLocked, .start 4 secondMark, markWaits⟩]

theorem run_late :
    Run (Step (lockingDatabase Unit)) (State.initial table)
      ((opening ++ reapCommit :: closing) ++ lateSteps) markWaits := by
  refine Run.append run ?_
  refine Run.append (Run.single (.start missed 3 claimStatement rfl rfl)) ?_
  refine Run.append (Run.single (.start claiming 5 lateStatement rfl rfl)) ?_
  refine Run.append (Run.single (.lock bothClaiming 3 _ 1 [] released rfl
    Nat.zero_lt_one rfl rfl rfl)) ?_
  refine Run.append (Run.single (.commit firstLocked 3 _ rfl (Or.inl rfl))) ?_
  refine Run.append (Run.single (.lock firstClaimed 5 _ 1 [] reclaimed rfl
    Nat.zero_lt_one rfl rfl rfl)) ?_
  exact Run.single (.start lateLocked 4 secondMark rfl trivial)

theorem mark_waits : markWaits.Waits (lockingDatabase Unit) 4 5 :=
  ⟨⟨secondMark, lateLocked.table, [1], [], []⟩, 1, [], rfl, Nat.zero_lt_one,
    rfl, rfl, rfl⟩

end MarkAndReap

open MarkAndReap in
/-- The mark waits for the late claim, and can still be brought to its end. -/
theorem statements_never_deadlock_on_lateClaim :
    markWaits.Waits (lockingDatabase Unit) 4 5 ∧
      (Underway.claim lateClaim).Outrun missed.table markWaits.table 1 ∧
      (∀ other, ¬ markWaits.Waits (lockingDatabase Unit) 5 other) ∧
      ∃ later last, Run (Step (lockingDatabase Unit)) markWaits later last ∧
        last.sessions 4 = none := by
  refine ⟨mark_waits, ⟨released, reclaimed, rfl, rfl, rfl, rfl, by decide⟩,
    ((statements_never_deadlock run_late).1 4 5 mark_waits).1, ?_⟩
  obtain ⟨later, last, run, ended, _⟩ :=
    (statements_never_deadlock run_late).2 4 _ rfl
  exact ⟨later, last, run, ended⟩

end PgWorkQueue
