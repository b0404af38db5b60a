import PgWorkQueue.System.Availability

/-!
# How long a job waits

A claim that passes over a due job whose key it does not cap, although nothing
in the queue is locked, fills its batch with rows before the job.  These rows
stood there when the wait began, and the retry budget bounds how often each of
them is claimed.  So the number of such claims is bounded, and with one more the
job is claimed.

Claims are executed as one step here, and `now()` does not go back: neither a
row that is taken from a keyed claim between its snapshot and its locks nor a
`push` in a transaction that began before the wait is among the statements of
these runs.
-/

namespace PgWorkQueue

open Library.Runs Library.CappedScan

/-! ## What a claim takes instead -/

section Instead

variable {jobs : Jobs} {now : Int} {lockedElsewhere : Nat → Bool}
  {params : ClaimParams} {row other : Row} {limit : Nat} {queue : String}
  {headroom : HashMap Nat}

theorem Row.Precedes.trans {first second third : Row}
    (before : first.Precedes second) (after : second.Precedes third) :
    first.Precedes third := by
  unfold Row.Precedes at before after ⊢
  omega

theorem Row.precedes_of_not_precedes (behind : ¬ other.Precedes row) :
    row.Precedes other := by
  unfold Row.Precedes at behind ⊢
  omega

theorem unlocked_of_heldElsewhere
    (free : heldElsewhere jobs now lockedElsewhere queue = [])
    (runnable : row ∈ runnableInOrder jobs now queue) :
    lockedElsewhere row.id = false := by
  by_contra locked
  have held : row ∈ heldElsewhere jobs now lockedElsewhere queue :=
    List.mem_filter.mpr ⟨runnable, Bool.eq_true_of_not_eq_false locked⟩
  rw [free] at held
  cases held

/-- With a row a claim takes the unlocked candidates before it. -/
theorem mem_lockInOrder_of_before {keep : Row → Bool}
    (isChosen : other ∈
      lockInOrder lockedElsewhere limit (jobs.rows.filter keep))
    (listed : row ∈ jobs.rows.filter keep)
    (unlocked : lockedElsewhere row.id = false)
    (precedes : row.Precedes other) :
    row ∈ lockInOrder lockedElsewhere limit (jobs.rows.filter keep) := by
  by_cases same : row.id = other.id
  · have found := Jobs.find_id_of_mem (List.mem_of_mem_filter listed)
    have otherFound := Jobs.find_id_of_mem
      (List.mem_of_mem_filter (mem_of_mem_lockInOrder isChosen).1)
    rw [same, otherFound, Option.some.injEq] at found
    exact found ▸ isChosen
  · exact mem_lockInOrder_of_precedes isChosen listed unlocked precedes same

/-- A keyed claim that passes over an uncapped row takes rows before it.  If the
row is not even eligible, then as many uncapped rows before it are as the claim
wants. -/
theorem precedes_of_lockedCte
    (free : heldElsewhere jobs now lockedElsewhere queue = [])
    (runnable : row ∈ runnableInOrder jobs now queue)
    (uncapped : keyCap headroom row.concurrencyKey = none)
    (left : row ∉ lockedCte jobs now lockedElsewhere queue limit
      (hrRows headroom))
    (isChosen : other ∈ lockedCte jobs now lockedElsewhere queue limit
      (hrRows headroom)) : other.Precedes row := by
  by_contra behind
  have precedes := Row.precedes_of_not_precedes behind
  have listed := mem_rankMates_self headroom runnable
  have notFirst : row ∉ (rankMates jobs now queue headroom
      row.concurrencyKey).take limit := by
    intro first
    have eligible : row.id ∈
        eligibleIds jobs now queue limit (hrRows headroom) := by
      rw [eligible_iff_of_rank listed, uncapped]
      exact first
    exact left (mem_lockInOrder_of_before isChosen
      (mem_lockable_of_eligible runnable eligible)
      (unlocked_of_heldElsewhere free runnable) precedes)
  have before : ∀ mate ∈ (rankMates jobs now queue headroom
      row.concurrencyKey).take limit, mate.Precedes row := by
    intro mate first
    by_contra notBefore
    exact notFirst (mem_take_of_not_behind
      ((orderByRunAtId_sorted _).filter _) first listed notBefore)
  have distinct := List.nodup_cons.mpr ⟨fun first => behind (before other first),
    rankMates_nodup.sublist (List.take_sublist limit _)⟩
  have many := (List.subperm_of_subset distinct (?_ : _ ⊆
    lockedCte jobs now lockedElsewhere queue limit (hrRows headroom))).length_le
  · have few : (lockedCte jobs now lockedElsewhere queue limit
        (hrRows headroom)).length ≤ limit := (chosen_lockedCte _).bounded
    rw [List.length_cons, length_take_of_left listed notFirst] at many
    omega
  · intro mate member
    rcases List.mem_cons.mp member with rfl | first
    · exact isChosen
    · have isMate := List.mem_of_mem_take first
      have mateRunnable := (mem_rankMates.mp isMate).1
      have eligible : mate.id ∈
          eligibleIds jobs now queue limit (hrRows headroom) := by
        rw [eligible_iff_of_rank isMate, uncapped]
        exact first
      exact mem_lockInOrder_of_before isChosen
        (mem_lockable_of_eligible mateRunnable eligible)
        (unlocked_of_heldElsewhere free mateRunnable)
        ((before mate first).trans precedes)

/-- A claim that passes over an uncapped row while nothing is locked fills its
batch, with rows before it. -/
theorem chosenRows_of_left
    (free : heldElsewhere jobs now lockedElsewhere params.queue = [])
    (runnable : row ∈ runnableInOrder jobs now params.queue)
    (uncapped : keyCap params.headroom row.concurrencyKey = none)
    (left : row ∉ chosenRows jobs now lockedElsewhere params) :
    min params.batchSize i32Max ≤
        (chosenRows jobs now lockedElsewhere params).length ∧
      ∀ other ∈ chosenRows jobs now lockedElsewhere params,
        other.Precedes row := by
  have unlocked := unlocked_of_heldElsewhere free runnable
  constructor
  · rcases saturated_of_left runnable unlocked left with
      full | ⟨key, room, hasKey, found, _⟩
    · rw [free] at full
      exact full
    · rw [hasKey] at uncapped
      change params.headroom.lookup key = none at uncapped
      rw [found] at uncapped
      cases uncapped
  · intro other isChosen
    unfold chosenRows at left isChosen
    by_cases plain : params.headroom.entries.isEmpty = true
    · rw [if_pos plain] at left isChosen
      by_contra behind
      exact left (mem_lockInOrder_of_before isChosen
        (mem_orderByRunAtId.mp runnable) unlocked
        (Row.precedes_of_not_precedes behind))
    · rw [if_neg plain] at left isChosen
      exact precedes_of_lockedCte free runnable uncapped left isChosen

end Instead

/-! ## The wait -/

/-- A claim of the job's queue goes through, asks for rows, has no cap on the
key of the job, and no other transaction holds a row that it could take. -/
def offersRoom {T : Type} (job : Row) (taken : Transition DbState (Event T)) :
    Bool :=
  match taken.label.statement with
  | .claim params gen lockedElsewhere =>
      decide (params.queue = job.queue) && decide (1 ≤ params.batchSize) &&
        (keyCap params.headroom job.concurrencyKey).isNone &&
        (heldElsewhere taken.source.jobs taken.label.now lockedElsewhere
          params.queue).isEmpty &&
        (claimBatchRaw taken.source.jobs taken.label.now gen lockedElsewhere
          params).isOk
  | _ => false

/-- The rows that a claim with room for the job hands out. -/
def roomyClaims {T : Type} (job : Row)
    (taken : Transition DbState (Event T)) : List RawClaimedRow :=
  if offersRoom job taken then DbState.claimsOf taken else []

section Wait

variable {T : Type} {start state finish : DbState} {job : Row}
  {trace : List (Transition DbState (Event T))}

/-- A claim that passes over the job hands out rows before it. -/
theorem PassedOver.claimed_of_room
    (passedOver : PassedOver start job state) (waiting : job.waiting = true)
    {params : ClaimParams} {gen : Nat → Uuid} {lockedElsewhere : Nat → Bool}
    {now : Int} {updated : Jobs} {raws : List RawClaimedRow}
    (due : job.runAt ≤ now) (queue : params.queue = job.queue)
    (wants : 1 ≤ params.batchSize)
    (uncapped : keyCap params.headroom job.concurrencyKey = none)
    (free : heldElsewhere state.jobs now lockedElsewhere params.queue = [])
    (outcome : claimBatchRaw state.jobs now gen lockedElsewhere params =
      .ok (updated, raws))
    (unclaimed : ∀ raw ∈ raws, raw.id ≠ job.id) :
    raws ≠ [] ∧ ∀ raw ∈ raws, ∃ row, state.jobs.find raw.id = some row ∧
      row.queue = job.queue ∧ row.Precedes job := by
  obtain ⟨leaseMicros, rfl⟩ := claimBatchRaw_chosen outcome
  have runnable : job ∈ runnableInOrder state.jobs now params.queue := by
    apply mem_runnableInOrder.mpr
    refine ⟨(Jobs.find_eq_some_iff.mp passedOver.waits).1, ?_⟩
    simp [Row.runnable, Row.due, waiting, due, queue]
  have left : job ∉ chosenRows state.jobs now lockedElsewhere params :=
    fun isChosen => unclaimed _ (List.mem_map_of_mem isChosen) rfl
  obtain ⟨full, before⟩ := chosenRows_of_left free runnable uncapped left
  constructor
  · intro none
    have few := congrArg List.length none
    have positive : 1 ≤ i32Max := by decide
    rw [List.length_map, List.length_nil] at few
    omega
  · intro raw claimed
    obtain ⟨row, isChosen, rfl⟩ := List.mem_map.mp claimed
    have choice : Chosen state.jobs now lockedElsewhere params.queue _ _ :=
      chosen_chosenRows
    refine ⟨row, Jobs.find_id_of_mem (choice.stored row isChosen), ?_,
      before row isChosen⟩
    exact (Row.runnable_iff.mp (choice.runnable row isChosen)).1.trans queue

/-- While an overdue job waits unclaimed, each claim with room for it hands out
rows, and only rows that stood before the job when the wait began. -/
theorem claims_of_offersRoom
    (run : Run (DbState.Step T) start trace finish)
    (stored : start.jobs.find job.id = some job)
    (waiting : job.waiting = true) (overdue : job.runAt < start.clock)
    (unclaimed : claimHistory trace job.id = [])
    {taken : Transition DbState (Event T)} (member : taken ∈ trace)
    (offers : offersRoom job taken = true) :
    DbState.claimsOf taken ≠ [] ∧ ∀ raw ∈ DbState.claimsOf taken,
      raw.id ∈ (start.ahead job).map Row.id := by
  have notJob := no_claim_of_claimHistory unclaimed member
  obtain ⟨before, after, rfl⟩ := List.mem_iff_append.mp member
  obtain ⟨earlier, stepTaken, _⟩ := run.splitAt
  rw [claimHistory, List.flatMap_append, List.append_eq_nil_iff] at unclaimed
  have passedOver := passedOver_of_run earlier stored waiting overdue
    unclaimed.1
  have due := passedOver.due overdue stepTaken.1.clock
  obtain ⟨source, ⟨now, statement⟩, target⟩ := taken
  cases statement with
  | claim params gen lockedElsewhere =>
      simp only [offersRoom, Bool.and_eq_true, decide_eq_true_eq,
        Option.isNone_iff_eq_none, List.isEmpty_iff] at offers
      obtain ⟨⟨⟨⟨queue, wants⟩, uncapped⟩, free⟩, goesThrough⟩ := offers
      cases outcome : claimBatchRaw source.jobs now gen lockedElsewhere
          params with
      | error failure =>
          rw [outcome] at goesThrough
          cases goesThrough
      | ok reply =>
          have claims : DbState.claimsOf
              (⟨source, ⟨now, .claim params gen lockedElsewhere⟩, target⟩ :
                Transition DbState (Event T)) = reply.2 := by
            simp only [DbState.claimsOf, DbState.reply, execute, outcome,
              commitOr, Reply.claimedRows]
          rw [claims] at notJob ⊢
          obtain ⟨some, ahead⟩ := passedOver.claimed_of_room waiting due queue
            wants uncapped free outcome notJob
          refine ⟨some, ?_⟩
          intro raw claimed
          obtain ⟨row, found, rowQueue, precedes⟩ := ahead raw claimed
          obtain ⟨old, atStart, place⟩ := passedOver.stood_ahead earlier found
            rowQueue precedes (notJob raw claimed)
          exact DbState.mem_ahead atStart place
  | _ => cases offers

theorem roomyClaims_sublist (job : Row)
    (taken : Transition DbState (Event T)) :
    (roomyClaims job taken).Sublist (DbState.claimsOf taken) := by
  by_cases offers : offersRoom job taken = true
  · rw [roomyClaims, if_pos offers]
  · rw [roomyClaims, if_neg offers]
    exact List.nil_sublist _

/-- An overdue job that waits is claimed at the latest by the claim that comes
after `limit` claims for each row that stands before it, counting claims of its
queue with room for it: they go through, ask for at least one row and do not
cap its key, and nothing they could take is locked.  What else the fleet does
meanwhile, and what is pushed or retried, does not matter, as each statement is
one step and `now()` does not go back. -/
theorem waiting_is_bounded {fleet : Set Nat} {limit : Nat} {clock : Int}
    {history : List (Transition DbState (Event T))}
    (positive : ∀ budget ∈ fleet, 1 ≤ budget)
    (bounded : ∀ budget ∈ fleet, budget ≤ limit) (atLeastOne : 1 ≤ limit)
    (earlier : Run (DbState.FleetStep T fleet) (DbState.initial clock) history
      start)
    (later : Run (DbState.FleetStep T fleet) start trace finish)
    (stored : start.jobs.find job.id = some job)
    (waiting : job.waiting = true) (overdue : job.runAt < start.clock)
    (enough : limit * (start.ahead job).length <
      trace.countP (offersRoom job)) :
    claimHistory trace job.id ≠ [] := by
  intro unclaimed
  have offered (taken : Transition DbState (Event T)) (member : taken ∈ trace)
      (offers : offersRoom job taken = true) :=
    claims_of_offersRoom (DbState.run_of_fleetRun positive later) stored waiting
      overdue unclaimed member offers
  have many : trace.countP (offersRoom job) ≤
      (trace.flatMap (roomyClaims job)).length := by
    apply countP_le_length_flatMap
    intro taken member offers
    rw [roomyClaims, if_pos offers]
    exact (offered taken member offers).1
  have stoodAhead : ∀ raw ∈ trace.flatMap (roomyClaims job),
      raw.id ∈ (start.ahead job).map Row.id := by
    intro raw listed
    obtain ⟨taken, member, claimed⟩ := List.mem_flatMap.mp listed
    by_cases offers : offersRoom job taken = true
    · rw [roomyClaims, if_pos offers] at claimed
      exact (offered taken member offers).2 raw claimed
    · rw [roomyClaims, if_neg offers] at claimed
      cases claimed
  have few := length_claims_ahead_le positive bounded atLeastOne earlier later
    (roomyClaims job) (roomyClaims_sublist job) stoodAhead
  omega

end Wait

/-! ### Until the second in line is claimed -/

namespace SecondInLine

def claimOne (now : Int) (token : Uuid) : Event Unit :=
  ⟨now, .claim { LateMark.params with batchSize := 1 } (fun _ => token)
    fun _ => false⟩

def reapAll (now : Int) : Event Unit :=
  ⟨now, .reap "mail" 100 id fun _ => false⟩

/-- The first in line fails twice. -/
def untilClaimed : List (Event Unit) :=
  [claimOne 2 ⟨1⟩, reapAll 20, claimOne 21 ⟨2⟩, reapAll 40, claimOne 41 ⟨3⟩]

theorem untilClaimed_allowed :
    DbState.AllAllowed (DbState.FleetAdmissible {2}) start untilClaimed := by
  refine ⟨⟨by decide, ?_, ?_, by decide⟩, ⟨by decide, ?_, ?_, by decide⟩,
    ⟨by decide, ?_, ?_, by decide⟩, ⟨by decide, ?_, ?_, by decide⟩,
    ⟨by decide, ?_, ?_, by decide⟩, trivial⟩
  all_goals rintro _ _ _ ⟨⟩
  all_goals rfl

end SecondInLine

open SecondInLine in
/-- Three claims have room for the job, and the third takes it. -/
theorem waiting_is_bounded_on_secondInLine :
    (start.transitions untilClaimed).countP (offersRoom job) = 3 ∧
      2 * (start.ahead job).length = 2 ∧
      claimHistory (start.transitions untilClaimed) job.id ≠ [] := by
  refine ⟨by decide, by decide, ?_⟩
  have budget : ∀ budget ∈ ({2} : Set Nat), budget = 2 := by simp
  have positive : ∀ budget ∈ ({2} : Set Nat), 1 ≤ budget := by
    intro value member
    rw [budget value member]
    decide
  have bounded : ∀ budget ∈ ({2} : Set Nat), budget ≤ 2 := fun value member =>
    (budget value member).le
  exact waiting_is_bounded positive bounded (by decide)
    (DbState.run_of_allAllowed earlier_allowed)
    (DbState.run_of_allAllowed untilClaimed_allowed) (by decide) (by decide)
    (by decide) (by decide)

end PgWorkQueue
