import PgWorkQueue.Library.Loop
import PgWorkQueue.System.Execution

/-!
# `purge_done` and `purge_dead`

Both calls are `purge_terminal`, a loop of DELETEs that ends with the first one
that finds nothing.  `now()` is read by every DELETE for itself, so the cutoff
moves while the loop runs: what is certain to go is what had expired at the
first chunk, and what is certain to stay is what has not expired at the last.
-/

namespace PgWorkQueue

open Library.Loop

/-! ## The loop of `purge_terminal` -/

inductive PurgeError where
  | database (failure : SqlError)

/-- What a DELETE of the loop meets: its instant, the order of equal timestamps
and the rows others hold locked. -/
structure ChunkSetting where
  now : Int
  tie : Nat → Nat
  lockedElsewhere : Nat → Bool

structure PurgeState where
  jobs : Jobs
  total : Nat

def PurgeState.chunk (state : PurgeState) (status : TerminalStatus)
    (age : Duration) (setting : ChunkSetting) : Except SqlError (Jobs × Nat) :=
  purgeChunk state.jobs setting.now setting.tie setting.lockedElsewhere
    status.toJobStatus age purgeChunkSize

/-- One round of the loop. -/
def purgeBody (status : TerminalStatus) (age : Duration)
    (settings : Nat → ChunkSetting) (index : Nat) (state : PurgeState) :
    Flow PurgeState (Jobs × Except PurgeError Nat) :=
  match state.chunk status age (settings index) with
  | .error failure => .leave (state.jobs, .error (.database failure))
  | .ok (updated, affected) =>
      let total := min (state.total + affected) u64Max
      if affected = 0 then .leave (updated, .ok total)
      else .next ⟨updated, total⟩

/-- `purge_terminal`, for at most `fuel` chunks. -/
def purgeTerminal (status : TerminalStatus) (age : Duration)
    (settings : Nat → ChunkSetting) (fuel : Nat) (jobs : Jobs) :
    Option (Jobs × Except PurgeError Nat) :=
  run (purgeBody status age settings) fuel 0 ⟨jobs, 0⟩

def purgeDone (age : Duration) (settings : Nat → ChunkSetting) :
    Nat → Jobs → Option (Jobs × Except PurgeError Nat) :=
  purgeTerminal .done age settings

def purgeDead (age : Duration) (settings : Nat → ChunkSetting) :
    Nat → Jobs → Option (Jobs × Except PurgeError Nat) :=
  purgeTerminal .dead age settings

/-- The call that purges rows of a status. -/
def TerminalStatus.purge : TerminalStatus → Duration → (Nat → ChunkSetting) →
    Nat → Jobs → Option (Jobs × Except PurgeError Nat)
  | done => purgeDone
  | dead => purgeDead

theorem purge_eq (status : TerminalStatus) :
    status.purge = purgeTerminal status := by
  cases status with
  | done => rfl
  | dead => rfl

/-! ## One chunk -/

section Chunk

variable {status : TerminalStatus} {age : Duration} {setting : ChunkSetting}
  {state : PurgeState} {updated : Jobs} {affected : Nat} {row : Row}

/-- What a chunk deletes had expired; it counts what it deletes. -/
theorem chunk_spec
    (outcome : state.chunk status age setting = .ok (updated, affected)) :
    updated.rows.Sublist state.jobs.rows ∧
      affected + updated.rows.length = state.jobs.rows.length ∧
      ∀ row ∈ state.jobs.rows, row ∉ updated.rows →
        row.expired status.toJobStatus (setting.now - age.asMicros) = true := by
  obtain ⟨rfl, rfl⟩ := purgeChunk_eq_ok outcome
  refine ⟨List.filter_sublist, ?_, ?_⟩
  · rw [List.countP_eq_length_filter]
    exact (List.length_eq_length_filter_add _).symm
  · intro row stored gone
    have doomed := mt List.mem_filter.mpr gone
    simp only [stored, true_and, Bool.not_eq_true', Bool.not_eq_false,
      contains_victims_iff stored] at doomed
    exact (expired_of_mem_victimsCte doomed).2

/-- With no foreign locks a chunk that deletes nothing had nothing to
delete. -/
theorem chunk_exhaustive
    (unlocked : ∀ id, setting.lockedElsewhere id = false)
    (outcome : state.chunk status age setting = .ok (updated, 0))
    (stored : row ∈ state.jobs.rows) :
    row.expired status.toJobStatus (setting.now - age.asMicros) = false := by
  obtain ⟨_, none⟩ := purgeChunk_eq_ok outcome
  have noVictims : victimsCte state.jobs setting.tie setting.lockedElsewhere
      status.toJobStatus (setting.now - age.asMicros) purgeChunkSize = [] := by
    rw [List.eq_nil_iff_forall_not_mem]
    intro victim member
    have inTable := (expired_of_mem_victimsCte member).1
    exact List.countP_eq_zero.mp none.symm victim inTable
      ((contains_victims_iff inTable).mpr member)
  have size := congrArg List.length noVictims
  rw [victimsCte, length_lockByTime fun row _ => unlocked row.id] at size
  have noCandidates : (state.jobs.rows.filter (Row.expired status.toJobStatus
      (setting.now - age.asMicros))).length = 0 := by
    have positive : 0 < purgeChunkSize := by decide
    rw [List.length_nil] at size
    omega
  rw [List.length_eq_zero_iff, List.filter_eq_nil_iff] at noCandidates
  exact Bool.eq_false_iff.mpr (noCandidates row stored)

end Chunk

/-! ## The whole call -/

/-- The outcome of a call: `first` and `last` are the instants of its first and
its last statement. -/
structure PurgedExactly (status : TerminalStatus) (age : Duration)
    (first last : Int) (jobs updated : Jobs) (total : Nat) : Prop where
  expiredDeleted : ∀ row ∈ jobs.rows, ∀ finished,
    row.status = status.toJobStatus → row.finishedAt = some finished →
    finished < first - age.asMicros → row ∉ updated.rows
  otherStatusKept : ∀ row ∈ jobs.rows,
    row.status ≠ status.toJobStatus → row ∈ updated.rows
  recentKept : ∀ row ∈ jobs.rows,
    (∀ finished, row.finishedAt = some finished →
      last - age.asMicros ≤ finished) → row ∈ updated.rows
  survivorsUnchanged : updated.rows.Sublist jobs.rows
  counted : total + updated.rows.length = jobs.rows.length

section Call

variable {status : TerminalStatus} {age : Duration}
  {settings : Nat → ChunkSetting} {jobs : Jobs} {index : Nat}
  {state following : PurgeState}

/-- What holds whenever a chunk is about to be sent. -/
structure Purging (status : TerminalStatus) (age : Duration)
    (settings : Nat → ChunkSetting) (jobs : Jobs) (index : Nat)
    (state : PurgeState) : Prop where
  sublist : state.jobs.rows.Sublist jobs.rows
  counted : state.total + state.jobs.rows.length = jobs.rows.length
  deleted : ∀ row ∈ jobs.rows, row ∉ state.jobs.rows →
    ∃ earlier < index, row.expired status.toJobStatus
      ((settings earlier).now - age.asMicros) = true

theorem purging_start : Purging status age settings jobs 0 ⟨jobs, 0⟩ where
  sublist := List.Sublist.refl _
  counted := Nat.zero_add _
  deleted := fun _ stored gone => absurd stored gone

/-- A chunk keeps the account, whether or not the loop goes on after it. -/
theorem Purging.after {updated : Jobs} {affected : Nat}
    (purging : Purging status age settings jobs index state)
    (fits : jobs.rows.length ≤ u64Max)
    (outcome : state.chunk status age (settings index) =
      .ok (updated, affected)) :
    Purging status age settings jobs (index + 1)
      ⟨updated, min (state.total + affected) u64Max⟩ := by
  obtain ⟨sublist, counted, expired⟩ := chunk_spec outcome
  have total := purging.counted
  refine ⟨sublist.trans purging.sublist, ?_, ?_⟩
  · have unsaturated : min (state.total + affected) u64Max =
        state.total + affected := by omega
    dsimp only
    omega
  · intro row stored gone
    by_cases wasThere : row ∈ state.jobs.rows
    · exact ⟨index, Nat.lt_succ_self index, expired row wasThere gone⟩
    · obtain ⟨earlier, before, wasExpired⟩ :=
        purging.deleted row stored wasThere
      exact ⟨earlier, Nat.lt_succ_of_lt before, wasExpired⟩

theorem chunk_of_next
    (goesOn : purgeBody status age settings index state = .next following) :
    ∃ affected, 0 < affected ∧
      state.chunk status age (settings index) = .ok (following.jobs, affected) ∧
      following.total = min (state.total + affected) u64Max := by
  unfold purgeBody at goesOn
  split at goesOn
  · cases goesOn
  · rename_i updated affected outcome
    dsimp only at goesOn
    split at goesOn
    · cases goesOn
    · rename_i some
      cases goesOn
      exact ⟨affected, Nat.pos_of_ne_zero some, outcome, rfl⟩

theorem Purging.of_reaches
    (fits : jobs.rows.length ≤ u64Max)
    (reached : Reaches (purgeBody status age settings) ⟨jobs, 0⟩ index state) :
    Purging status age settings jobs index state := by
  refine reached.invariant (Purging status age settings jobs) purging_start ?_
  intro index state following _ purging goesOn
  obtain ⟨affected, _, outcome, total⟩ := chunk_of_next goesOn
  have after := purging.after fits outcome
  rw [← total] at after
  exact after

/-- Every chunk but the last deletes a row, so the loop ends. -/
theorem purge_leaves (jobs : Jobs) :
    ∃ last state result,
      Reaches (purgeBody status age settings) ⟨jobs, 0⟩ last state ∧
        purgeBody status age settings last state = .leave result := by
  apply exists_leaves fun state => state.jobs.rows.length
  intro index state following _ goesOn
  obtain ⟨affected, positive, outcome, _⟩ := chunk_of_next goesOn
  have counted := (chunk_spec outcome).2.1
  omega

/-- A `BIGINT` key leaves room for fewer rows than a `u64` counts. -/
theorem length_rows_le_u64Max (bigint : ∀ row ∈ jobs.rows, row.id ≤ i64Max) :
    jobs.rows.length ≤ u64Max := by
  have within : jobs.rows.map Row.id ⊆ List.range (i64Max + 1) := by
    intro id member
    obtain ⟨row, stored, rfl⟩ := List.mem_map.mp member
    exact List.mem_range.mpr (Nat.lt_succ_of_le (bigint row stored))
  have few := (List.subperm_of_subset jobs.distinct within).length_le
  rw [List.length_map, List.length_range] at few
  have room : i64Max + 1 ≤ u64Max := by decide
  exact few.trans room

theorem Row.expired_mono {row : Row} {status : JobStatus}
    {cutoff laterCutoff : Int} (later : cutoff ≤ laterCutoff)
    (expired : row.expired status cutoff = true) :
    row.expired status laterCutoff = true := by
  obtain ⟨sameStatus, finished, isFinished, early⟩ := Row.expired_iff.mp expired
  exact Row.expired_iff.mpr
    ⟨sameStatus, finished, isFinished, early.trans_le later⟩

/-- The last chunk found nothing: what it leaves is what the call promises. -/
theorem Purging.purgedExactly {updated : Jobs}
    (purging : Purging status age settings jobs index state)
    (clock : ∀ earlier later, earlier ≤ later →
      (settings earlier).now ≤ (settings later).now)
    (unlocked : ∀ index id, (settings index).lockedElsewhere id = false)
    (fits : jobs.rows.length ≤ u64Max)
    (outcome : state.chunk status age (settings index) = .ok (updated, 0)) :
    PurgedExactly status age (settings 0).now (settings index).now jobs updated
      (min (state.total + 0) u64Max) := by
  have after := purging.after fits outcome
  have expiredAtLast {row : Row} (stored : row ∈ jobs.rows)
      (gone : row ∉ updated.rows) : row.expired status.toJobStatus
        ((settings index).now - age.asMicros) = true := by
    obtain ⟨earlier, before, expired⟩ := after.deleted row stored gone
    have advanced := clock earlier index (Nat.le_of_lt_succ before)
    exact Row.expired_mono (by omega) expired
  refine ⟨?_, ?_, ?_, after.sublist, after.counted⟩
  · intro row stored finished sameStatus isFinished early survives
    have wasThere := (chunk_spec outcome).1.subset survives
    have notExpired := chunk_exhaustive (unlocked index) outcome wasThere
    have advanced := clock 0 index (Nat.zero_le index)
    rw [Row.expired_iff.mpr ⟨sameStatus, finished, isFinished, by omega⟩]
      at notExpired
    cases notExpired
  · intro row stored otherStatus
    by_contra gone
    exact otherStatus (Row.expired_iff.mp (expiredAtLast stored gone)).1
  · intro row stored recent
    by_contra gone
    obtain ⟨_, finished, isFinished, early⟩ :=
      Row.expired_iff.mp (expiredAtLast stored gone)
    exact absurd early (Int.not_lt.mpr (recent finished isFinished))

/-- `purge_done` and `purge_dead` end, delete the rows of their status that had
expired when they began, keep those that have not expired when they end, and
return how many rows they deleted. -/
theorem purge_deletes_exactly_expired (status : TerminalStatus)
    (age : Duration) (settings : Nat → ChunkSetting) (jobs : Jobs)
    (clock : ∀ earlier later, earlier ≤ later →
      (settings earlier).now ≤ (settings later).now)
    (unlocked : ∀ index id, (settings index).lockedElsewhere id = false)
    (bigint : ∀ row ∈ jobs.rows, row.id ≤ i64Max)
    (succeeds : ∀ index state,
      Reaches (purgeBody status age settings) ⟨jobs, 0⟩ index state →
      ∃ reply, state.chunk status age (settings index) = .ok reply) :
    ∃ last updated total,
      (∀ fuel ≤ last, status.purge age settings fuel jobs = none) ∧
      (∀ fuel > last, status.purge age settings fuel jobs =
        some (updated, .ok total)) ∧
      PurgedExactly status age (settings 0).now (settings last).now jobs
        updated total := by
  obtain ⟨last, state, result, reached, leaves⟩ := purge_leaves jobs
  obtain ⟨⟨updated, affected⟩, outcome⟩ := succeeds last state reached
  have decided : purgeBody status age settings last state =
      if affected = 0 then
        .leave (updated, .ok (min (state.total + affected) u64Max))
      else .next ⟨updated, min (state.total + affected) u64Max⟩ := by
    simp only [purgeBody, outcome]
  have none : affected = 0 := by
    by_contra some
    rw [decided, if_neg some] at leaves
    cases leaves
  subst none
  obtain ⟨unfinished, finished⟩ := reached.run_of_leaves decided
  have fits := length_rows_le_u64Max bigint
  rw [purge_eq]
  exact ⟨last, updated, _, unfinished, finished,
    (Purging.of_reaches fits reached).purgedExactly clock unlocked fits
      outcome⟩

end Call

/-! ### Two finished jobs -/

namespace TwoFinished

def finishedJob (id : Nat) (status : JobStatus) (finishedAt : Int) : Row where
  id := id
  publicId := ⟨id⟩
  queue := "mail"
  payload := []
  status := status
  attempts := 1
  maxAttempts := 3
  leaseToken := none
  leaseExpiresAt := none
  lastError := none
  lastAttemptedAt := some 0
  firstAttemptedAt := some 0
  finishedAt := some finishedAt
  runAt := 0
  createdAt := 0
  updatedAt := finishedAt
  concurrencyKey := none

/-- One job was done at 5, another at 95. -/
def jobs : Jobs where
  rows := [finishedJob 0 .done 5, finishedJob 1 .done 95]
  nextId := 2
  distinct := by decide
  drawn := by decide

/-- The clock moves on after the first chunk. -/
def settings (index : Nat) : ChunkSetting where
  now := if index = 0 then 100 else 101
  tie := id
  lockedElsewhere := fun _ => false

end TwoFinished

/-- With an age of ten microseconds the older job goes. -/
theorem purge_deletes_older_of_two :
    ∃ last updated total,
      (∀ fuel ≤ last, purgeDone .tenMicros TwoFinished.settings fuel
        TwoFinished.jobs = none) ∧
      (∀ fuel > last, purgeDone .tenMicros TwoFinished.settings fuel
        TwoFinished.jobs = some (updated, .ok total)) ∧
      PurgedExactly .done .tenMicros (TwoFinished.settings 0).now
        (TwoFinished.settings last).now TwoFinished.jobs updated total := by
  apply purge_deletes_exactly_expired .done
  · intro earlier later before
    dsimp only [TwoFinished.settings]
    split <;> split <;> omega
  · intro _ _
    rfl
  · decide
  · intro index state _
    cases index with
    | zero => exact ⟨_, rfl⟩
    | succ index => exact ⟨_, rfl⟩

end PgWorkQueue
