import PgWorkQueue.System.Execution

/-!
# Fencing by lease tokens

A claim is known by the token it drew.  Three facts carry the argument.  A
running row is held under the token and the expiry of a claim on record; tokens
on record are distinct; and once the row of a claim is no longer held under the
claim's token, no later statement brings that token back, because only a claim
writes a token and it writes a fresh one.
-/

namespace PgWorkQueue

open Library.Runs

theorem reapedRow_status (now : Int) (row : Row) :
    (reapedRow now row).status =
      if row.exhausted then .dead else .awaitingRetry :=
  rfl

theorem reapedRow_status_ne_running (now : Int) (row : Row) :
    (reapedRow now row).status ≠ .running := by
  rw [reapedRow_status]
  split <;> simp

theorem Row.status_ne_running_of_runnable
    {row : Row} {queue : String} {now : Int}
    (runnable : row.runnable queue now = true) :
    row.status ≠ .running := by
  rcases (Row.runnable_iff.mp runnable).2.1 with queued | awaitingRetry
  · simp [queued]
  · simp [awaitingRetry]

namespace DbState

variable {T : Type} {state : DbState} {event : Event T} {id : Nat}
  {raw : RawClaimedRow} {row : Row}

/-- Every running row reads as a claim on record returned it, and no two
claims on record share a token. -/
structure Fenced (state : DbState) : Prop where
  recorded : ∀ id row, state.jobs.find id = some row →
    row.status = .running → ∃ raw ∈ state.returned,
      RawClaimedRow.fromRow row = .ok raw
  distinct : (state.returned.map RawClaimedRow.leaseToken).Nodup

theorem fenced_initial (clock : Int) : (initial clock).Fenced where
  recorded := fun _ _ found => nomatch found
  distinct := List.nodup_nil

theorem Fenced.step
    (fenced : state.Fenced) (admissible : state.Admissible event) :
    (state.after event).Fenced where
  distinct := admissible.freshTokens
  recorded := by
    intro id row found running
    obtain ⟨now, statement⟩ := event
    cases state.rowEffect now statement id with
    | same _ unchanged =>
        rw [unchanged] at found
        obtain ⟨raw, member, recorded⟩ :=
          fenced.recorded id row found running
        exact ⟨raw, List.mem_append_left _ member, recorded⟩
    | inserted _ new _ _ _ _ _ after =>
        rw [after] at found
        cases found
        cases running
    | claimed params gen lockedElsewhere old leaseMicros before _ _ _
        returned after =>
        rw [after] at found
        cases found
        exact ⟨_, List.mem_append_right _ returned, fromRow_claimedRow old⟩
    | marked token mark old _ _ _ _ after =>
        rw [after] at found
        cases found
        rw [Mark.markedRow_status] at running
        exact (mark.status_ne_running running).elim
    | reaped _ _ _ _ old _ _ after =>
        rw [after] at found
        cases found
        exact (reapedRow_status_ne_running _ _ running).elim
    | purged _ _ _ _ _ _ _ _ _ _ after =>
        rw [after] at found
        cases found

theorem fenced_of_run
    {clock : Int} {trace : List (Transition DbState (Event T))}
    {finish : DbState} (run : Run (Step T) (initial clock) trace finish) :
    finish.Fenced :=
  run.invariant Fenced (fenced_initial clock)
    fun _ _ _ fenced ⟨admissible, next⟩ => next ▸ fenced.step admissible

/-- A claim on record is the only one that can account for its token: the row
held under it still reads as the claim returned it. -/
theorem Fenced.lease_unique
    (fenced : state.Fenced) (member : raw ∈ state.returned)
    (found : state.jobs.find id = some row) (running : row.status = .running)
    (held : row.leaseToken = some raw.leaseToken) :
    raw.id = id ∧ RawClaimedRow.fromRow row = .ok raw := by
  obtain ⟨other, otherMember, read⟩ := fenced.recorded id row found running
  obtain ⟨sameId, token, _⟩ := columns_of_fromRow read
  rw [held, Option.some.injEq] at token
  have same : raw = other :=
    List.inj_on_of_nodup_map fenced.distinct member otherMember token
  subst same
  exact ⟨sameId.trans (Jobs.id_of_find found), read⟩

/-- Only the claim that draws a token puts a row under it. -/
theorem heldUnder_of_after
    (fresh : ((state.returned ++ (state.reply event).claimedRows).map
      RawClaimedRow.leaseToken).Nodup)
    (member : raw ∈ state.returned)
    (after : HeldUnder (state.after event).jobs id raw.leaseToken) :
    HeldUnder state.jobs id raw.leaseToken := by
  obtain ⟨row, found, running, held⟩ := after
  obtain ⟨now, statement⟩ := event
  cases state.rowEffect now statement id with
  | same _ unchanged =>
      rw [unchanged] at found
      exact ⟨row, found, running, held⟩
  | inserted _ new _ _ _ _ _ after =>
      rw [after] at found
      cases found
      cases running
  | claimed params gen lockedElsewhere old leaseMicros _ _ _ _ returned
      after =>
      rw [after] at found
      cases found
      -- the token just drawn would stand twice on record
      rw [List.map_append, List.nodup_append] at fresh
      exact absurd (Option.some.inj held).symm (fresh.2.2 _
        (List.mem_map_of_mem member) _ (List.mem_map_of_mem returned))
  | marked token mark old _ _ _ _ after =>
      rw [after] at found
      cases found
      rw [Mark.markedRow_status] at running
      exact absurd running mark.status_ne_running
  | reaped _ _ _ _ old _ _ after =>
      rw [after] at found
      cases found
      exact absurd running (reapedRow_status_ne_running _ _)
  | purged _ _ _ _ _ _ _ _ _ _ after =>
      rw [after] at found
      cases found

/-- A token that is not in use stays out of use. -/
theorem not_held_step
    (admissible : state.Admissible event) (member : raw ∈ state.returned)
    (unused : ∀ id, ¬ HeldUnder state.jobs id raw.leaseToken) (id : Nat) :
    ¬ HeldUnder (state.after event).jobs id raw.leaseToken := by
  intro after
  exact unused id (heldUnder_of_after admissible.freshTokens member after)

theorem not_held_of_run
    {trace : List (Transition DbState (Event T))} {start finish : DbState}
    (run : Run (Step T) start trace finish) (member : raw ∈ start.returned)
    (unused : ∀ id, ¬ HeldUnder start.jobs id raw.leaseToken) (id : Nat) :
    ¬ HeldUnder finish.jobs id raw.leaseToken := by
  refine (run.invariant (fun state => raw ∈ state.returned ∧
    ∀ id, ¬ HeldUnder state.jobs id raw.leaseToken)
    ⟨member, unused⟩ ?_).2 id
  rintro source label _ ⟨recorded, stillUnused⟩ ⟨admissible, rfl⟩
  exact ⟨List.mem_append_left _ recorded,
    not_held_step admissible recorded stillUnused⟩

end DbState

/-! ## How a claim ends -/

section Ending

variable {T : Type}

/-- The row stops being held under the token of the claim `raw`. -/
def EndsClaim (raw : RawClaimedRow)
    (taken : Transition DbState (Event T)) : Prop :=
  HeldUnder taken.source.jobs raw.id raw.leaseToken ∧
    ¬ HeldUnder taken.target.jobs raw.id raw.leaseToken

/-- A mark that carries the token of the claim, or a reap after the lease of
the claim has run out. -/
def MayEndClaim (raw : RawClaimedRow) (event : Event T) : Prop :=
  (∃ mark, event.statement = .mark raw.id raw.leaseToken mark) ∨
    ((∃ queue batchLimit tie lockedElsewhere, event.statement =
        .reap queue batchLimit tie lockedElsewhere) ∧
      raw.leaseExpiresAt < event.now)

/-- A mark that changed no row.  Postgres refuses a reason with U+0000 in it
before it looks for the row. -/
def MarkMissed (taken : Transition DbState (Event T)) : Prop :=
  taken.target.jobs = taken.source.jobs ∧
    (taken.source.reply taken.label = .affected 0 ∨
      taken.source.reply taken.label = .failed .characterNotInRepertoire)

variable {taken : Transition DbState (Event T)} {raw : RawClaimedRow}

theorem mayEndClaim_of_ends
    (next : taken.target = taken.source.after taken.label)
    (fenced : taken.source.Fenced) (member : raw ∈ taken.source.returned)
    (ends : EndsClaim raw taken) :
    MayEndClaim raw taken.label := by
  obtain ⟨state, ⟨now, statement⟩, target⟩ := taken
  dsimp only at next
  subst next
  obtain ⟨⟨row, found, running, held⟩, released⟩ := ends
  cases state.rowEffect now statement raw.id with
  | same _ unchanged =>
      rw [← unchanged] at found
      exact (released ⟨row, found, running, held⟩).elim
  | inserted _ new _ fresh _ _ _ _ =>
      exact (fresh.not_gt (Jobs.lt_nextId_of_find found)).elim
  | claimed params gen lockedElsewhere old leaseMicros before runnable
      _ _ _ _ =>
      rw [before] at found
      cases found
      exact (Row.status_ne_running_of_runnable runnable running).elim
  | marked token mark old before _ oldHeld _ _ =>
      rw [before] at found
      cases found
      rw [oldHeld, Option.some.injEq] at held
      subst held
      exact Or.inl ⟨mark, rfl⟩
  | reaped queue batchLimit tie lockedElsewhere old before stale _ =>
      rw [before] at found
      cases found
      obtain ⟨_, _, expiry, leased, expired⟩ := Row.stale_iff.mp stale
      have read := (fenced.lease_unique member before running held).2
      rw [(columns_of_fromRow read).2.2.1, Option.some.injEq] at leased
      subst leased
      exact Or.inr ⟨⟨queue, batchLimit, tie, lockedElsewhere, rfl⟩, expired⟩
  | purged status _ _ _ old _ before terminal _ _ _ =>
      rw [before] at found
      cases found
      rw [terminal] at running
      cases status <;> cases running

theorem markMissed_of_not_held
    {target : Nat} {token : Uuid} {mark : Mark}
    (next : taken.target = taken.source.after taken.label)
    (isMark : taken.label.statement = .mark target token mark)
    (missed : ¬ HeldUnder taken.source.jobs target token) :
    MarkMissed taken := by
  simp only [MarkMissed, next, DbState.after, DbState.reply, isMark, execute]
  rcases mark.execute_eq taken.source.jobs taken.label.now target token with
    refused | sent
  · rw [refused]
    exact ⟨rfl, Or.inr rfl⟩
  · rw [sent, updateLeased_of_not_held missed]
    exact ⟨rfl, Or.inl rfl⟩

end Ending

/-! ## Which claim a finished row belongs to -/

section Provenance

variable {T : Type} {history : List (Transition DbState (Event T))}
  {taken : Transition DbState (Event T)} {id : Nat} {token : Uuid}

/-- The latest claim of the row `id` drew `token`. -/
def LatestClaim (history : List (Transition DbState (Event T))) (id : Nat)
    (token : Uuid) : Prop :=
  ∃ earlier claim later raw, history = earlier ++ claim :: later ∧
    raw ∈ DbState.claimsOf claim ∧ raw.id = id ∧ raw.leaseToken = token ∧
    ∀ other ∈ later, ∀ raw ∈ DbState.claimsOf other, raw.id ≠ id

theorem LatestClaim.snoc
    (latest : LatestClaim history id token)
    (noClaim : ∀ raw ∈ DbState.claimsOf taken, raw.id ≠ id) :
    LatestClaim (history ++ [taken]) id token := by
  obtain ⟨earlier, claim, later, raw, rfl, member, sameId, sameToken,
    noneLater⟩ := latest
  refine ⟨earlier, claim, later ++ [taken], raw, by simp, member, sameId,
    sameToken, ?_⟩
  intro other inLater
  rcases List.mem_append.mp inLater with old | new
  · exact noneLater other old
  · rw [List.mem_singleton.mp new]
    exact noClaim

theorem latestClaim_of_claim
    (history : List (Transition DbState (Event T)))
    (taken : Transition DbState (Event T)) {raw : RawClaimedRow}
    (member : raw ∈ DbState.claimsOf taken) :
    LatestClaim (history ++ [taken]) raw.id raw.leaseToken :=
  ⟨history, taken, [], raw, rfl, member, rfl, rfl, by simp⟩

/-- A `mark_done` under `token` that moves the row `id` from running to
done. -/
def MovesToDone (id : Nat) (token : Uuid)
    (taken : Transition DbState (Event T)) : Prop :=
  taken.label.statement = .mark id token .done ∧
    (∃ old, taken.source.jobs.find id = some old ∧
      old.status = .running ∧ old.leaseToken = some token) ∧
    ∃ new, taken.target.jobs.find id = some new ∧ new.status = .done

/-- Where the running and the done rows of a state come from. -/
structure Provenance (history : List (Transition DbState (Event T)))
    (state : DbState) : Prop where
  running : ∀ id row token, state.jobs.find id = some row →
    row.status = .running → row.leaseToken = some token →
      LatestClaim history id token
  done : ∀ id row, state.jobs.find id = some row → row.status = .done →
    ∃ token, LatestClaim history id token ∧
      ∃ taken ∈ history, MovesToDone id token taken

theorem Provenance.running_step
    {state : DbState} (provenance : Provenance history state)
    (now : Int) (statement : Statement T) (id : Nat) (row : Row)
    (token : Uuid)
    (found : (state.after ⟨now, statement⟩).jobs.find id = some row)
    (running : row.status = .running)
    (held : row.leaseToken = some token) :
    LatestClaim (history ++ [⟨state, ⟨now, statement⟩,
      state.after ⟨now, statement⟩⟩]) id token := by
  cases state.rowEffect now statement id with
  | same _ unchanged =>
      rw [unchanged] at found
      apply (provenance.running id row token found running held).snoc
      exact DbState.no_claim_of_not_waiting found
        (by simp [Row.waiting, running])
  | inserted _ new _ _ _ _ _ after =>
      rw [after] at found
      cases found
      cases running
  | claimed params gen lockedElsewhere old leaseMicros before _ _ _
      returned after =>
      rw [after] at found
      cases found
      cases held
      rw [← Jobs.id_of_find before]
      exact latestClaim_of_claim history ⟨state, _, _⟩ returned
  | marked _ mark old _ _ _ _ after =>
      rw [after] at found
      cases found
      rw [Mark.markedRow_status] at running
      exact (mark.status_ne_running running).elim
  | reaped _ _ _ _ old _ _ after =>
      rw [after] at found
      cases found
      exact (reapedRow_status_ne_running _ _ running).elim
  | purged _ _ _ _ _ _ _ _ _ _ after =>
      rw [after] at found
      cases found

theorem Provenance.done_step
    {state : DbState} (provenance : Provenance history state)
    (now : Int) (statement : Statement T) (id : Nat) (row : Row)
    (found : (state.after ⟨now, statement⟩).jobs.find id = some row)
    (isDone : row.status = .done) :
    ∃ token, LatestClaim (history ++ [⟨state, ⟨now, statement⟩,
        state.after ⟨now, statement⟩⟩]) id token ∧
      ∃ taken ∈ history ++ [⟨state, ⟨now, statement⟩,
          state.after ⟨now, statement⟩⟩],
        MovesToDone id token taken := by
  cases state.rowEffect now statement id with
  | same _ unchanged =>
      rw [unchanged] at found
      obtain ⟨token, latest, taken, member, moves⟩ :=
        provenance.done id row found isDone
      refine ⟨token, latest.snoc ?_, taken,
        List.mem_append_left _ member, moves⟩
      exact DbState.no_claim_of_not_waiting found
        (by simp [Row.waiting, isDone])
  | inserted _ new _ _ _ _ _ after =>
      rw [after] at found
      cases found
      cases isDone
  | claimed _ _ _ _ _ _ _ _ _ _ after =>
      rw [after] at found
      cases found
      cases isDone
  | marked token mark old before running held _ after =>
      rw [after] at found
      cases found
      cases mark with
      | done =>
          refine ⟨token,
            (provenance.running id old token before running held).snoc ?_,
            ⟨state, _, _⟩, List.mem_append_right _ List.mem_cons_self,
            rfl, ⟨old, before, running, held⟩, _, after, isDone⟩
          exact DbState.no_claim_of_not_waiting before
            (by simp [Row.waiting, running])
      | retry reason delay => cases isDone
      | dead reason => cases isDone
  | reaped _ _ _ _ old _ _ after =>
      rw [after] at found
      cases found
      rw [reapedRow_status] at isDone
      split at isDone <;> cases isDone
  | purged _ _ _ _ _ _ _ _ _ _ after =>
      rw [after] at found
      cases found

theorem Provenance.step
    {state : DbState} (provenance : Provenance history state)
    (event : Event T) :
    Provenance (history ++ [⟨state, event, state.after event⟩])
      (state.after event) where
  running := provenance.running_step event.now event.statement
  done := provenance.done_step event.now event.statement

theorem provenance_of_run
    {clock : Int} {finish : DbState}
    (run : Run (DbState.Step T) (DbState.initial clock) history finish) :
    Provenance history finish := by
  refine run.historyInvariant Provenance ?_ ?_
  · exact
      { running := fun _ _ _ found => nomatch found
        done := fun _ _ found => nomatch found }
  · rintro earlier source event _ _ provenance ⟨_, rfl⟩
    exact provenance.step event

end Provenance

/-! ## Every run -/

section Run

variable {T : Type} {clock : Int}
  {trace : List (Transition DbState (Event T))} {finish : DbState}

/-- What is known at the transition that ends a claim of the run. -/
private theorem at_end_of_claim
    {raw : RawClaimedRow} {earlier later : List (Transition DbState (Event T))}
    {ending : Transition DbState (Event T)}
    (run : Run (DbState.Step T) (DbState.initial clock)
      (earlier ++ ending :: later) finish)
    (member : raw ∈ finish.returned) (ends : EndsClaim raw ending) :
    ending.source.Fenced ∧ raw ∈ ending.source.returned ∧
      ending.target = ending.source.after ending.label ∧
      Run (DbState.Step T) ending.target later finish ∧
      raw ∈ ending.target.returned ∧
      ∀ id, ¬ HeldUnder ending.target.jobs id raw.leaseToken := by
  obtain ⟨before, ⟨admissible, next⟩, after⟩ := run.splitAt
  have fenced := DbState.fenced_of_run before
  obtain ⟨row, found, running, held⟩ := ends.1
  obtain ⟨recorded, inRecord, read⟩ :=
    fenced.recorded raw.id row found running
  have token := (columns_of_fromRow read).2.1
  have kept : recorded ∈ ending.target.returned := by
    rw [next]
    exact List.mem_append_left _ inRecord
  have same : recorded = raw := by
    rw [held, Option.some.injEq] at token
    exact List.inj_on_of_nodup_map (DbState.fenced_of_run run).distinct
      (DbState.mem_returned_of_run after kept) member token.symm
  subst same
  refine ⟨fenced, inRecord, next, after, kept, ?_⟩
  rintro id ⟨other, otherFound, otherRunning, otherHeld⟩
  have fencedTarget : ending.target.Fenced := next ▸ fenced.step admissible
  have sameId :=
    (fencedTarget.lease_unique kept otherFound otherRunning otherHeld).1
  subst sameId
  exact ends.2 ⟨other, otherFound, otherRunning, otherHeld⟩

/-- After the end of a claim its token opens nothing any more. -/
private theorem not_held_after_end
    {raw : RawClaimedRow} {earlier later : List (Transition DbState (Event T))}
    {ending late : Transition DbState (Event T)}
    (run : Run (DbState.Step T) (DbState.initial clock)
      (earlier ++ ending :: later) finish)
    (member : raw ∈ finish.returned) (ends : EndsClaim raw ending)
    (inLater : late ∈ later) :
    late.target = late.source.after late.label ∧
      ∀ id, ¬ HeldUnder late.source.jobs id raw.leaseToken := by
  obtain ⟨_, _, _, after, recorded, unused⟩ :=
    at_end_of_claim run member ends
  obtain ⟨_, between, _, next⟩ := after.reaches_source inLater
  exact ⟨next, DbState.not_held_of_run between recorded unused⟩

private theorem mem_returned_of_claim
    {claim : Transition DbState (Event T)} {raw : RawClaimedRow}
    (run : Run (DbState.Step T) (DbState.initial clock) trace finish)
    (isClaim : claim ∈ trace) (member : raw ∈ DbState.claimsOf claim) :
    raw ∈ finish.returned := by
  rw [DbState.returned_of_run run]
  exact List.mem_append_right _
    (List.mem_flatMap.mpr ⟨claim, isClaim, member⟩)

/-- A claim is ended by at most one transition of the run, a mark that carries
its token or a reap after its lease has run out; marks that carry the token
later miss and change nothing; and a row is done by a `mark_done` that carried
the token of the row's latest claim. -/
theorem claims_end_once_and_are_fenced
    (run : Run (DbState.Step T) (DbState.initial clock) trace finish) :
    (∀ claim ∈ trace, ∀ raw ∈ DbState.claimsOf claim,
      (∀ ending ∈ trace, EndsClaim raw ending →
        MayEndClaim raw ending.label) ∧
      ∀ earlier ending later, trace = earlier ++ ending :: later →
        EndsClaim raw ending →
          (∀ other ∈ earlier ++ later, ¬ EndsClaim raw other) ∧
          ∀ late ∈ later, ∀ target mark,
            late.label.statement = .mark target raw.leaseToken mark →
              MarkMissed late) ∧
      ∀ id row, finish.jobs.find id = some row → row.status = .done →
        ∃ token, LatestClaim trace id token ∧
          ∃ taken ∈ trace, MovesToDone id token taken := by
  refine ⟨?_, (provenance_of_run run).done⟩
  intro claim isClaim raw returned
  have member := mem_returned_of_claim run isClaim returned
  have onlyOnce : ∀ earlier ending later,
      trace = earlier ++ ending :: later → EndsClaim raw ending →
        ∀ other ∈ later, ¬ EndsClaim raw other := by
    rintro earlier ending later rfl ends other inLater again
    exact (not_held_after_end run member ends inLater).2 raw.id again.1
  constructor
  · intro ending inTrace ends
    obtain ⟨earlier, later, rfl⟩ := List.mem_iff_append.mp inTrace
    obtain ⟨fenced, recorded, next, _⟩ := at_end_of_claim run member ends
    exact mayEndClaim_of_ends next fenced recorded ends
  · intro earlier ending later shape ends
    constructor
    · intro other elsewhere again
      rcases List.mem_append.mp elsewhere with before | after
      · -- seen from the other end, `ending` would be the second one
        obtain ⟨first, second, rfl⟩ := List.mem_iff_append.mp before
        exact onlyOnce first other (second ++ ending :: later)
          (by simp [shape]) again ending (by simp) ends
      · exact onlyOnce earlier ending later shape ends other after again
    · intro late inLater target mark isMark
      subst shape
      obtain ⟨next, unused⟩ := not_held_after_end run member ends inLater
      exact markMissed_of_not_held next isMark (unused target)

/-- The first claim of the run is ended by the reap, and its late mark
misses. -/
theorem claims_are_fenced_on_lateMark :
    (∃ claim ∈ (DbState.initial 0).transitions LateMark.events,
      ∃ raw ∈ DbState.claimsOf claim, raw.leaseToken = ⟨1⟩ ∧
        EndsClaim raw (LateMark.transition 2
          ⟨20, .reap "mail" 100 id fun _ => false⟩)) ∧
      MarkMissed (LateMark.transition 4 ⟨22, .mark 1 ⟨1⟩ .done⟩) := by
  have fenced := claims_end_once_and_are_fenced LateMark.run
  have isClaim :
      LateMark.transition 1
          ⟨1, .claim LateMark.params (fun _ => ⟨1⟩) fun _ => false⟩ ∈
        (DbState.initial 0).transitions LateMark.events :=
    List.mem_cons_of_mem _ List.mem_cons_self
  have returned :
      ⟨1, ⟨7⟩, "mail", none, [], 1, 2, 1, ⟨1⟩, 11⟩ ∈
        DbState.claimsOf (LateMark.transition 1
          ⟨1, .claim LateMark.params (fun _ => ⟨1⟩) fun _ => false⟩) := by
    decide
  have ends :
      EndsClaim ⟨1, ⟨7⟩, "mail", none, [], 1, 2, 1, ⟨1⟩, 11⟩
        (LateMark.transition 2
          ⟨20, .reap "mail" 100 id fun _ => false⟩) := by
    constructor
    · exact ⟨_, rfl, rfl, rfl⟩
    · rintro ⟨row, found, running, _⟩
      cases found
      cases running
  refine ⟨⟨_, isClaim, _, returned, rfl, ends⟩, ?_⟩
  exact ((fenced.1 _ isClaim _ returned).2 [_, _] _ [_, _, _] rfl ends).2 _
    (List.mem_cons_of_mem _ List.mem_cons_self) 1 _ rfl

end Run

end PgWorkQueue
