import PgWorkQueue.Client.Handler
import PgWorkQueue.System.CheckSafety
import PgWorkQueue.System.Fencing

/-!
# Whether a reason reaches `last_error`

`Abort` and a payload that does not decode are meant to be final: `mark_dead`
is issued at once, with the reason cut to what `last_error` may hold.  The
length is taken care of by `fmt_err_trimmed`.  The characters are not: Postgres
refuses a text with U+0000, the statement fails, and the row stays running.
-/

namespace PgWorkQueue

open Library.Runs

theorem toList_fmtErrTrimmed (text : String) :
    (fmtErrTrimmed text).toList = text.toList.take maxLastErrorLen := by
  unfold fmtErrTrimmed
  split
  · rename_i short
    rw [List.getElem?_eq_none_iff] at short
    exact (List.take_of_length_le short).symm
  · rw [String.toList_ofList]

/-- A `mark_dead` whose text is accepted and whose row passes the CHECKs writes
that row. -/
theorem exists_markDead_eq_ok
    {jobs : Jobs} {now : Int} {id : Nat} {token : Uuid} {row : Row}
    {reason : String} (found : jobs.find id = some row)
    (running : row.status = .running) (held : row.leaseToken = some token)
    (clean : '\x00' ∉ reason.toList)
    (passes : ((Mark.dead reason).markedRow now row).PassesChecks) :
    ∃ updated, (Mark.dead reason).execute jobs now id token =
        .ok (updated, 1) ∧
      updated.find id = some ((Mark.dead reason).markedRow now row) := by
  cases result : (Mark.dead reason).execute jobs now id token with
  | ok reply =>
      obtain ⟨updated, count⟩ := reply
      rcases Mark.execute_spec result with
        ⟨missed, _⟩ | ⟨stored, storedFound, _, _, rfl, _, _, after, _⟩
      · exact absurd ⟨row, found, running, held⟩ missed
      · rw [found] at storedFound
        cases storedFound
        exact ⟨updated, rfl, after⟩
  | error failure =>
      simp only [Mark.execute, markDead, textParam, if_neg clean, updateLeased,
        bind, Except.bind] at result
      cases update : jobs.update now (Row.leasedUnder id token)
          (fun row => .ok (deadVersion now reason row)) with
      | ok written =>
          rw [update] at result
          cases result
      | error rowFailure =>
          obtain ⟨stored, member, leased, refused⟩ :=
            Jobs.exists_of_update_eq_error update
          have sameId := (Row.leasedUnder_iff.mp leased).1
          have storedFound := Jobs.find_eq_some_iff.mpr ⟨member, sameId⟩
          rw [found] at storedFound
          cases storedFound
          have written : Jobs.updateRow now
              (fun row => .ok (deadVersion now reason row)) row = .ok _ :=
            Jobs.updateRow_eq_ok_iff.mpr
              ⟨deadVersion now reason row, rfl, rfl, rfl, rfl, passes⟩
          rw [written] at refused
          cases refused

namespace DbState

variable {T : Type} {state : DbState} {now : Int} {raw : RawClaimedRow}

/-- Executing the mark under the token of the claim leaves the row dead, in the
attempt of that claim. -/
def Buries (T : Type) (state : DbState) (now : Int) (raw : RawClaimedRow)
    (mark : Mark) : Prop :=
  ∃ row, (state.after (T := T)
      ⟨now, .mark raw.id raw.leaseToken mark⟩).jobs.find raw.id = some row ∧
    row.status = .dead ∧ row.attempts = raw.attempts

/-- A row that is held under the token of a claim is in the attempt of that
claim. -/
theorem attempts_of_held (consistent : state.Consistent)
    (fenced : state.Fenced) (member : raw ∈ state.returned) {row : Row}
    (found : state.jobs.find raw.id = some row)
    (running : row.status = .running)
    (token : row.leaseToken = some raw.leaseToken) :
    row.attempts = raw.attempts := by
  obtain ⟨_, read⟩ := fenced.lease_unique member found running token
  have passes := (consistent raw.id row found).passes
  have nonneg := (row.passesChecks_iff.mp passes).1
  have column := (columns_of_fromRow read).2.2.2.1
  omega

/-- While the lease is held, a reason that fits buries the row exactly when it
contains no U+0000. -/
theorem buries_dead_iff (consistent : state.Consistent) (fenced : state.Fenced)
    (later : state.clock ≤ now) (member : raw ∈ state.returned)
    (held : HeldUnder state.jobs raw.id raw.leaseToken) {reason : String}
    (short : reason.length ≤ maxLastErrorLen) :
    state.Buries T now raw (.dead reason) ↔ '\x00' ∉ reason.toList := by
  obtain ⟨row, found, running, token⟩ := held
  have consistentRow := consistent raw.id row found
  constructor
  · rintro ⟨after, foundAfter, isDead, _⟩ nul
    have refused : (Mark.dead reason).execute state.jobs now raw.id
        raw.leaseToken = .error .characterNotInRepertoire := by
      simp only [Mark.execute, markDead, textParam, if_pos nul, bind,
        Except.bind]
    simp only [DbState.after, execute, refused, commitOr, found,
      Option.some.injEq] at foundAfter
    rw [← foundAfter, running] at isDead
    cases isDead
  · intro clean
    have marked := consistentRow.marked later running (.dead reason)
      (by
        intro text stored
        cases stored
        exact short)
    obtain ⟨updated, executed, after⟩ :=
      exists_markDead_eq_ok found running token clean marked.passes
    have attempts :=
      attempts_of_held consistent fenced member found running token
    refine ⟨(Mark.dead reason).markedRow now row, ?_, rfl, attempts⟩
    simp only [DbState.after, execute, executed, commitOr, after]

end DbState

/-- The prefix of a decode failure takes fourteen characters of the reason. -/
theorem nul_mem_decode_reason_iff (text : String) :
    '\x00' ∈ ("codec decode: " ++ text).toList.take maxLastErrorLen ↔
      '\x00' ∈ text.toList.take 8178 := by
  have split : ("codec decode: " ++ text).toList.take maxLastErrorLen =
      "codec decode: ".toList ++ text.toList.take 8178 := by
    rw [String.toList_append, List.take_append]
    rfl
  have clean : '\x00' ∉ "codec decode: ".toList := by decide
  rw [split, List.mem_append]
  simp only [clean, false_or]

section Finality

variable {T : Type} {clock : Int} {state : DbState} {now : Int}
  {raw : RawClaimedRow} {trace : List (Transition DbState (Event T))}

/-- A claim whose lease is still held: `Abort` leaves its row dead exactly when
the part of the reason that is kept contains no U+0000, and so does a payload
whose decode error displays as a text. -/
theorem abort_and_decode_failure_bury_iff
    (run : Run (DbState.Step T) (DbState.initial clock) trace state)
    (later : state.clock ≤ now) (member : raw ∈ state.returned)
    (held : HeldUnder state.jobs raw.id raw.leaseToken) :
    (∀ config policy text,
      (∃ mark, handleJob config policy raw.attempts raw.maxAttempts
          (.returned (.error (.abort text))) = some mark ∧
        state.Buries T now raw mark) ↔
        '\x00' ∉ text.toList.take maxLastErrorLen) ∧
    ∀ (codec : Codec T) text, codec.decode raw.payload = .failed text →
      ((∃ reason, decodeRow codec raw = .error reason ∧
          state.Buries T now raw (.dead reason)) ↔
        '\x00' ∉ text.toList.take 8178) := by
  have buries (text : String) :
      state.Buries T now raw (.dead (fmtErrTrimmed text)) ↔
        '\x00' ∉ text.toList.take maxLastErrorLen := by
    rw [← toList_fmtErrTrimmed]
    exact DbState.buries_dead_iff (consistent_of_run run)
      (DbState.fenced_of_run run) later member held
      (length_fmtErrTrimmed_le text)
  refine ⟨?_, ?_⟩
  · intro config policy text
    rw [← buries text]
    constructor
    · rintro ⟨mark, issued, buried⟩
      cases issued
      exact buried
    · intro buried
      exact ⟨_, rfl, buried⟩
  · intro codec text refused
    have reason : decodeRow codec raw =
        .error (fmtErrTrimmed ("codec decode: " ++ text)) := by
      rw [decodeRow, refused]
    rw [← nul_mem_decode_reason_iff, ← buries, reason]
    constructor
    · rintro ⟨_, same, buried⟩
      cases same
      exact buried
    · intro buried
      exact ⟨_, rfl, buried⟩

end Finality

namespace LateMark

/-- The run up to the second claim, which holds the row. -/
theorem heldRun :
    Run (DbState.Step Unit) (DbState.initial 0)
      ((DbState.initial 0).transitions (events.take 4))
      ((DbState.initial 0).afterAll (events.take 4)) :=
  DbState.run_of_allAllowed
    ⟨admissible.1, admissible.2.1, admissible.2.2.1, admissible.2.2.2.1,
      trivial⟩

/-- What the second claim returned. -/
def secondClaim : RawClaimedRow where
  id := 1
  publicId := ⟨7⟩
  queue := "mail"
  concurrencyKey := none
  payload := []
  attempts := 2
  maxAttempts := 2
  firstAttemptedAt := 1
  leaseToken := ⟨2⟩
  leaseExpiresAt := 31

def heldState : DbState := (DbState.initial 0).afterAll (events.take 4)

theorem secondClaim_returned : secondClaim ∈ heldState.returned := by decide

theorem secondClaim_held :
    HeldUnder heldState.jobs secondClaim.id secondClaim.leaseToken :=
  ⟨_, rfl, rfl, rfl⟩

end LateMark

theorem abort_buries_secondClaim :
    ∃ mark, handleJob ⟨fun _ => .tenMicros, .tenMicros⟩ .retry 2 2
        (.returned (.error (.abort "no such address"))) = some mark ∧
      LateMark.heldState.Buries Unit 25 LateMark.secondClaim mark :=
  ((abort_and_decode_failure_bury_iff LateMark.heldRun (by decide)
    LateMark.secondClaim_returned LateMark.secondClaim_held).1
      _ .retry "no such address").mpr (by decide)

/-- A reason of one U+0000 leaves the row running, for the reaper to hand it
out again or to bury it under its own reason. -/
theorem abort_with_nul_leaves_secondClaim_running :
    LateMark.secondClaim ∈ LateMark.heldState.returned ∧
      HeldUnder LateMark.heldState.jobs LateMark.secondClaim.id
        LateMark.secondClaim.leaseToken ∧
      ∀ config, ∃ mark, handleJob config .retry 2 2
          (.returned (.error (.abort "\x00"))) = some mark ∧
        ((LateMark.heldState.after (T := Unit)
          ⟨25, .mark 1 ⟨2⟩ mark⟩).jobs.find 1).map Row.status =
            some .running := by
  refine ⟨LateMark.secondClaim_returned, LateMark.secondClaim_held, ?_⟩
  intro config
  exact ⟨_, rfl, by decide⟩

end PgWorkQueue
