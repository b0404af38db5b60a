import PgWorkQueue.System.Locality

/-!
# Workers of different queues do not meet

A mark names its row by id and token and does not mention the queue.  That it
still stays within the queue of its worker is a fact about runs: a row keeps
its queue and an id is never drawn twice, so the row a claim was made on is of
the queue of that claim for as long as it exists.
-/

namespace PgWorkQueue

open Library.Footprint
open Library.Runs

namespace DbState

/-- The rows that claims have handed out, and the rows of the table under their
ids, are of one queue. -/
structure QueuesKept (state : DbState) : Prop where
  drawn : ∀ raw ∈ state.returned, raw.id < state.jobs.nextId
  stored : ∀ raw ∈ state.returned, ∀ row,
    state.jobs.find raw.id = some row → row.queue = raw.queue
  single : ∀ raw ∈ state.returned, ∀ other ∈ state.returned,
    raw.id = other.id → raw.queue = other.queue

theorem queuesKept_initial (clock : Int) : (initial clock).QueuesKept where
  drawn := fun _ member => absurd member List.not_mem_nil
  stored := fun _ member => absurd member List.not_mem_nil
  single := fun _ member => absurd member List.not_mem_nil

section Step

variable {T : Type} {state : DbState}

/-- A row that a statement leaves behind has the queue it had before, unless
its id was new. -/
theorem queue_of_rowEffect {now : Int} {statement : Statement T} {id : Nat}
    {row : Row} (old : id < state.jobs.nextId)
    (found : (state.after ⟨now, statement⟩).jobs.find id = some row) :
    ∃ before, state.jobs.find id = some before ∧ before.queue = row.queue := by
  cases state.rowEffect now statement id with
  | same _ unchanged => exact ⟨row, unchanged ▸ found, rfl⟩
  | inserted _ new inserts fresh => exact absurd old (Nat.not_lt.mpr fresh)
  | claimed _ _ _ before _ foundBefore _ _ _ _ after =>
      rw [after] at found
      cases found
      exact ⟨before, foundBefore, rfl⟩
  | marked _ mark before foundBefore _ _ _ after =>
      rw [after] at found
      cases found
      refine ⟨before, foundBefore, ?_⟩
      cases mark with
      | done => rfl
      | retry _ _ => rfl
      | dead _ => rfl
  | reaped _ _ _ _ before foundBefore _ after =>
      rw [after] at found
      cases found
      exact ⟨before, foundBefore, rfl⟩
  | purged _ _ _ _ _ _ _ _ _ _ after =>
      rw [after] at found
      cases found

/-- What a claim hands out is the row it found under that id. -/
theorem queue_of_claimed {event : Event T} {raw : RawClaimedRow}
    (member : raw ∈ (state.reply event).claimedRows) :
    ∃ before, state.jobs.find raw.id = some before ∧
      before.queue = raw.queue := by
  obtain ⟨_, _, _, before, _, _, found, _, _, same, _⟩ :=
    (claimedRows_spec state.jobs event.now event.statement).2 raw member
  refine ⟨before, found, ?_⟩
  rw [same]
  rfl

theorem QueuesKept.step (kept : state.QueuesKept) (event : Event T) :
    (state.after event).QueuesKept := by
  have sequence : state.jobs.nextId ≤ (state.after event).jobs.nextId :=
    nextId_le_execute state.jobs event.now event.statement
  -- An old or a new claim has a row number that was drawn before the step,
  -- and agrees with the row it names.
  have before : ∀ raw ∈ (state.after event).returned,
      raw.id < state.jobs.nextId ∧ ∀ row,
        state.jobs.find raw.id = some row → row.queue = raw.queue := by
    intro raw member
    rcases List.mem_append.mp member with old | new
    · exact ⟨kept.drawn raw old, kept.stored raw old⟩
    · obtain ⟨row, found, queue⟩ := queue_of_claimed new
      refine ⟨?_, fun other foundOther => ?_⟩
      · obtain ⟨stored, sameId⟩ := Jobs.find_eq_some_iff.mp found
        exact sameId ▸ state.jobs.drawn row stored
      · rw [found] at foundOther
        cases foundOther
        exact queue
  refine ⟨?_, ?_, ?_⟩
  · intro raw member
    exact lt_of_lt_of_le (before raw member).1 sequence
  · intro raw member row found
    obtain ⟨old, foundOld, queue⟩ :=
      queue_of_rowEffect (before raw member).1 found
    exact queue ▸ (before raw member).2 old foundOld
  · intro raw member other otherMember sameId
    rcases List.mem_append.mp member with old | new
    · rcases List.mem_append.mp otherMember with otherOld | otherNew
      · exact kept.single raw old other otherOld sameId
      · obtain ⟨row, found, queue⟩ := queue_of_claimed otherNew
        rw [← queue]
        exact ((before raw member).2 row (sameId ▸ found)).symm
    · obtain ⟨row, found, queue⟩ := queue_of_claimed new
      rw [← queue]
      exact (before other otherMember).2 row (sameId ▸ found)

theorem queuesKept_of_run {clock : Int} {finish : DbState}
    {trace : List (Transition DbState (Event T))}
    (run : Run (Step T) (initial clock) trace finish) : finish.QueuesKept :=
  run.invariant QueuesKept (queuesKept_initial clock)
    fun _ event _ kept ⟨_, next⟩ => next ▸ kept.step event

end Step

end DbState

/-! ## The statements of a worker -/

/-- The statements of a worker bound to a queue: its claims and reaps, and the
marks under a token that a claim on the queue has handed out. -/
inductive WorkerStatement {T : Type} (state : DbState) (queue : String) :
    Statement T → Prop
  | claim (params : ClaimParams) (gen : Nat → Uuid)
      (lockedElsewhere : Nat → Bool) (bound : params.queue = queue) :
      WorkerStatement state queue (.claim params gen lockedElsewhere)
  | mark (raw : RawClaimedRow) (mark : Mark) (own : raw ∈ state.returned)
      (bound : raw.queue = queue) :
      WorkerStatement state queue (.mark raw.id raw.leaseToken mark)
  | reap (batchLimit : Nat) (tie : Nat → Nat)
      (lockedElsewhere : Nat → Bool) :
      WorkerStatement state queue (.reap queue batchLimit tie lockedElsewhere)

/-- An id that belongs to a queue: a row of the queue has it, or a claim on
the queue was made on it. -/
def DbState.Belongs (state : DbState) (queue : String) (id : Nat) : Prop :=
  state.jobs.shape.holds queue id ∨
    ∃ raw ∈ state.returned, raw.id = id ∧ raw.queue = queue

section Isolation

variable {T : Type} {state : DbState} {queue other : String}
  {first : Statement T} {id : Nat}

theorem Jobs.exists_of_holds {jobs : Jobs}
    (holds : jobs.shape.holds queue id) :
    ∃ row, jobs.find id = some row ∧ row.queue = queue := by
  obtain ⟨row, member, same⟩ := List.mem_map.mp holds
  simp only [Prod.mk.injEq] at same
  exact ⟨row, Jobs.find_eq_some_iff.mpr ⟨member, same.1⟩, same.2⟩

/-- No id belongs to two queues. -/
theorem DbState.QueuesKept.queue_unique (kept : state.QueuesKept)
    (left : state.Belongs queue id) (right : state.Belongs other id) :
    queue = other := by
  rcases left with holds | ⟨raw, member, rfl, rfl⟩
  · obtain ⟨row, found, rfl⟩ := Jobs.exists_of_holds holds
    rcases right with otherHolds | ⟨raw, member, rfl, rfl⟩
    · exact Jobs.queue_of_holds otherHolds found
    · exact kept.stored raw member row found
  · rcases right with otherHolds | ⟨another, otherMember, sameId, rfl⟩
    · obtain ⟨row, found, rfl⟩ := Jobs.exists_of_holds otherHolds
      exact (kept.stored raw member row found).symm
    · exact kept.single raw member another otherMember sameId.symm

/-- A statement of a worker is local to ids that belong to its queue. -/
theorem WorkerStatement.exists_local
    (issued : WorkerStatement state queue first) (now : Int) :
    ∃ region : Jobs.Shape → Nat → Prop,
      Local Jobs.view region (fun jobs => execute jobs now first) ∧
        ∀ id, region state.jobs.shape id → state.Belongs queue id := by
  cases issued with
  | claim params gen lockedElsewhere bound =>
      subst bound
      exact ⟨_, local_claim, fun _ holds => .inl holds⟩
  | mark raw mark own bound =>
      exact ⟨_, local_mark, fun _ same => .inr ⟨raw, own, same.symm, bound⟩⟩
  | reap batchLimit tie lockedElsewhere =>
      exact ⟨_, local_reap, fun _ holds => .inl holds⟩

variable {clock : Int} {trace : List (Transition DbState (Event T))}

/-- In every reachable table, statements of workers of different queues give
the same table and the same replies in either order, and a statement of a
worker leaves the rows of every other queue as they are. -/
theorem queues_are_isolated
    (run : Run (DbState.Step T) (DbState.initial clock) trace state)
    (now : Int) (issuedFirst : WorkerStatement state queue first) :
    (∀ (other : String) (second : Statement T), queue ≠ other →
      WorkerStatement state other second →
      (execute (execute state.jobs now first).1 now second).1 =
          (execute (execute state.jobs now second).1 now first).1 ∧
        (execute (execute state.jobs now first).1 now second).2 =
          (execute state.jobs now second).2 ∧
        (execute (execute state.jobs now second).1 now first).2 =
          (execute state.jobs now first).2) ∧
    ∀ other, queue ≠ other →
      (execute state.jobs now first).1.queueRows other =
        state.jobs.queueRows other := by
  have kept := DbState.queuesKept_of_run run
  obtain ⟨region, localFirst, inQueue⟩ := issuedFirst.exists_local now
  refine ⟨?_, ?_⟩
  · intro other second different issuedSecond
    obtain ⟨otherRegion, localSecond, inOther⟩ := issuedSecond.exists_local now
    have disjoint : ∀ id, region (Jobs.view.shape state.jobs) id →
        ¬ otherRegion (Jobs.view.shape state.jobs) id :=
      fun id left right =>
        different (kept.queue_unique (inQueue id left) (inOther id right))
    have apart : ∀ id, otherRegion (Jobs.view.shape state.jobs) id →
        ¬ region (Jobs.view.shape state.jobs) id :=
      fun id right left => disjoint id left right
    exact ⟨localFirst.commute localSecond disjoint,
      (localSecond.unaffected localFirst apart).1,
      (localFirst.unaffected localSecond disjoint).1⟩
  · intro other different
    apply Jobs.queueRows_congr (localFirst.shape state.jobs)
    intro id holds
    have sameShape : (execute state.jobs now first).1.shape = state.jobs.shape :=
      localFirst.shape state.jobs
    rw [sameShape] at holds
    exact localFirst.frame state.jobs id fun inside =>
      different (kept.queue_unique (inQueue id inside) (.inl holds))

end Isolation

namespace TwoQueues

def smsParams : ClaimParams := { LateMark.params with queue := "sms" }

/-- One job in each of two queues; the one in `mail` is claimed. -/
def events : List (Event Unit) :=
  [⟨0, .push LateMark.pusher ⟨7⟩ () none⟩,
    ⟨1, .push { LateMark.pusher with queue := "sms" } ⟨8⟩ () none⟩,
    ⟨2, .claim LateMark.params (fun _ => ⟨1⟩) fun _ => false⟩]

def state : DbState := (DbState.initial 0).afterAll events

theorem run :
    Run (DbState.Step Unit) (DbState.initial 0)
      ((DbState.initial 0).transitions events) state := by
  apply DbState.run_of_allAllowed
  refine ⟨⟨by decide, ?_, ?_, by decide⟩, ⟨by decide, ?_, ?_, by decide⟩,
    ⟨by decide, ?_, ?_, by decide⟩, trivial⟩
  all_goals rintro _ _ _ ⟨⟩
  decide

/-- What the claim on `mail` returned. -/
def mailClaim : RawClaimedRow where
  id := 1
  publicId := ⟨7⟩
  queue := "mail"
  concurrencyKey := none
  payload := []
  attempts := 1
  maxAttempts := 2
  firstAttemptedAt := 2
  leaseToken := ⟨1⟩
  leaseExpiresAt := 12

theorem mailClaim_returned : mailClaim ∈ state.returned := by decide

end TwoQueues

theorem queues_are_isolated_on_twoQueues :
    (execute (execute (T := Unit) TwoQueues.state.jobs 5
        (.mark 1 ⟨1⟩ .done)).1 5
        (.claim (T := Unit) TwoQueues.smsParams (fun _ => ⟨2⟩)
          fun _ => false)).1 =
      (execute (execute (T := Unit) TwoQueues.state.jobs 5
        (.claim TwoQueues.smsParams (fun _ => ⟨2⟩) fun _ => false)).1 5
        (.mark (T := Unit) 1 ⟨1⟩ .done)).1 :=
  ((queues_are_isolated TwoQueues.run 5
    (.mark TwoQueues.mailClaim .done TwoQueues.mailClaim_returned rfl)).1
      "sms" _ (by decide) (.claim TwoQueues.smsParams _ _ rfl)).1

end PgWorkQueue
