import PgWorkQueue.Client.Claim

/-!
# The keyed claim as one greedy pass

`SQL_KEYED` cuts the candidates of every key down to the key's headroom, cuts
the candidates without a cap down to the batch limit, merges the two and cuts
again.  This module shows that the rows it updates are those of `greedyClaim`,
a single pass over the runnable rows in `(run_at, id)` order.  The passage goes
through `Library.CappedScan`: what the two `eligible` CTEs leave is `withinCap`
for the caps lowered to the batch limit.
-/

namespace PgWorkQueue

open Library Library.CappedScan

/-! ## The abstract claim -/

/-- The cap of a key: its headroom.  NULL and a key without an entry have
none. -/
def keyCap (headroom : HashMap Nat) (key : Option String) : Option Nat :=
  key.bind fun name => headroom.lookup name

/-- The runnable rows of a queue in claim order. -/
def runnableInOrder (jobs : Jobs) (now : Int) (queue : String) : List Row :=
  orderByRunAtId (jobs.rows.filter (Row.runnable queue now))

/-- One pass over the runnable rows: a row is admitted unless as many rows of
its key were admitted before it as the key has headroom; the pass stops after
`limit` admissions. -/
def greedyClaim (jobs : Jobs) (now : Int) (queue : String) (limit : Nat)
    (headroom : HashMap Nat) : List Row :=
  greedyScan Row.concurrencyKey (keyCap headroom) limit []
    (runnableInOrder jobs now queue)

/-- What the casts of the CTE `hr` accept. -/
def HeadroomAccepted (headroom : HashMap Nat) : Prop :=
  ∀ key room, headroom.lookup key = some room →
    '\x00' ∉ key.toList ∧ room ≤ i32Max

/-- The rows of `hr` for an accepted map. -/
def hrRows (headroom : HashMap Nat) : List (String × Nat) :=
  headroom.entries.map fun entry => (entry.1, entry.2)

/-- The key a row is ranked under: keys without a cap are ranked together. -/
def rankKey (headroom : HashMap Nat) (key : Option String) : Option String :=
  if (keyCap headroom key).isSome then key else none

section Casts

variable {headroom : HashMap Nat}

theorem mem_hrRows {key : String} {room : Nat} :
    (key, room) ∈ hrRows headroom ↔ headroom.lookup key = some room := by
  rw [← Option.mem_def, AList.mem_lookup_iff, hrRows, List.mem_map]
  constructor
  · rintro ⟨⟨name, value⟩, member, same⟩
    cases same
    exact member
  · intro member
    exact ⟨⟨key, room⟩, member, rfl⟩

theorem hrCte_eq_ok_iff {hr : List (String × Nat)} :
    hrCte headroom = .ok hr ↔
      HeadroomAccepted headroom ∧ hr = hrRows headroom := by
  have entry {key : String} {room : Nat} :
      headroom.lookup key = some room ↔ ⟨key, room⟩ ∈ headroom.entries := by
    rw [← Option.mem_def, AList.mem_lookup_iff]
  unfold hrCte
  split
  · rename_i refused
    obtain ⟨⟨key, room⟩, member, nul⟩ := List.any_eq_true.mp refused
    simp only [reduceCtorEq, false_iff]
    rintro ⟨accepted, _⟩
    exact (accepted key room (entry.mpr member)).1 (by simpa using nul)
  · rename_i noNul
    split
    · rename_i refused
      obtain ⟨⟨key, room⟩, member, large⟩ := List.any_eq_true.mp refused
      simp only [reduceCtorEq, false_iff]
      rintro ⟨accepted, _⟩
      have small := (accepted key room (entry.mpr member)).2
      simp only [decide_eq_true_eq] at large
      omega
    · rename_i noLarge
      have accepted : HeadroomAccepted headroom := by
        intro key room found
        have member := entry.mp found
        constructor
        · intro nul
          exact noNul (List.any_eq_true.mpr ⟨_, member, by simpa using nul⟩)
        · by_contra large
          exact noLarge (List.any_eq_true.mpr
            ⟨_, member, by simpa using large⟩)
      simp only [Except.ok.injEq, accepted, true_and]
      exact eq_comm

theorem keyCap_rankKey (key : Option String) :
    keyCap headroom (rankKey headroom key) = keyCap headroom key := by
  unfold rankKey
  split
  · rfl
  · rename_i uncapped
    rw [Option.not_isSome_iff_eq_none.mp uncapped]
    rfl

theorem rankKey_eq_none_iff {key : Option String} :
    rankKey headroom key = none ↔ keyCap headroom key = none := by
  constructor
  · intro unranked
    rw [← keyCap_rankKey, unranked]
    rfl
  · intro uncapped
    simp [rankKey, uncapped]

theorem rankKey_of_capped
    {key : Option String} {room : Nat}
    (capped : keyCap headroom key = some room) :
    rankKey headroom key = key := by
  simp [rankKey, capped]

theorem eq_of_rankKey_eq
    {key other : Option String} {room : Nat}
    (capped : keyCap headroom key = some room)
    (same : rankKey headroom other = rankKey headroom key) :
    other = key := by
  rw [rankKey_of_capped capped] at same
  unfold rankKey at same
  split at same
  · exact same
  · rw [← same] at capped
    cases capped

end Casts

/-! ## The truncating selection -/

section Selection

variable {jobs : Jobs} {now : Int} {queue : String} {limit : Nat}
  {headroom : HashMap Nat} {row : Row}

/-- The rows that the two `eligible` CTEs leave, in claim order. -/
def eligibleInOrder (jobs : Jobs) (now : Int) (queue : String) (limit : Nat)
    (headroom : HashMap Nat) : List Row :=
  withinCap (fun row => rankKey headroom row.concurrencyKey)
    (fun tested => some (lower limit (keyCap headroom tested))) []
    (runnableInOrder jobs now queue)

/-- The greedy pass keeps the first `limit` of them. -/
theorem greedyClaim_eq_take :
    greedyClaim jobs now queue limit headroom =
      (eligibleInOrder jobs now queue limit headroom).take limit := by
  have byRank :
      greedyClaim jobs now queue limit headroom =
        (withinCap Row.concurrencyKey (keyCap headroom) []
          (runnableInOrder jobs now queue)).take limit := by
    refine greedyScan_eq_take_withinCap limit [] [] _ ?_
    intro tested
    cases keyCap headroom tested with
    | none =>
        rfl
    | some room =>
        simp [clip]
  have merged :
      withinCap (fun row => rankKey headroom row.concurrencyKey)
          (keyCap headroom) [] (runnableInOrder jobs now queue) =
        withinCap Row.concurrencyKey (keyCap headroom) []
          (runnableInOrder jobs now queue) :=
    withinCap_merge keyCap_rankKey
      (fun _ _ capped _ same => eq_of_rankKey_eq capped same) [] _
  rw [byRank, ← merged]
  exact take_withinCap_lower limit [] (runnableInOrder jobs now queue) 0
    (fun tested => by simp)

theorem mem_runnableInOrder :
    row ∈ runnableInOrder jobs now queue ↔
      row ∈ jobs.rows ∧ row.runnable queue now = true := by
  rw [runnableInOrder, mem_orderByRunAtId, List.mem_filter]

theorem runnableInOrder_nodup :
    (runnableInOrder jobs now queue).Nodup := by
  rw [runnableInOrder, (orderByRunAtId_perm _).nodup_iff]
  exact (List.Nodup.of_map Row.id jobs.distinct).filter _

/-- Sorting the rows that pass one more test is filtering the sorted rows. -/
theorem orderByRunAtId_filter (keep : Row → Bool) :
    orderByRunAtId (jobs.rows.filter fun row =>
        row.runnable queue now && keep row) =
      (runnableInOrder jobs now queue).filter keep := by
  have nested :
      (jobs.rows.filter fun row => row.runnable queue now && keep row) =
        (jobs.rows.filter (Row.runnable queue now)).filter keep := by
    rw [List.filter_filter]
    refine List.filter_congr fun row _ => ?_
    rw [Bool.and_comm]
  rw [nested]
  refine insertionSort_filter ?_ keep
  intro left leftMember right rightMember forward backward
  exact Jobs.eq_of_id_eq (List.mem_of_mem_filter leftMember)
    (List.mem_of_mem_filter rightMember)
    (Row.id_eq_of_precedes forward backward)

/-- An id names one stored row, so a list of stored rows contains the id of a
stored row exactly when it contains the row. -/
theorem id_mem_map_iff
    {rows : List Row} (stored : ∀ other ∈ rows, other ∈ jobs.rows)
    (rowStored : row ∈ jobs.rows) :
    row.id ∈ rows.map Row.id ↔ row ∈ rows := by
  constructor
  · intro listed
    obtain ⟨other, member, sameId⟩ := List.mem_map.mp listed
    rw [← Jobs.eq_of_id_eq (stored other member) rowStored sameId]
    exact member
  · intro member
    exact List.mem_map_of_mem member

theorem id_mem_eligibleKeyed_iff (rowStored : row ∈ jobs.rows) :
    row.id ∈ eligibleKeyed jobs now queue limit (hrRows headroom) ↔
      ∃ key room, headroom.lookup key = some room ∧
        row ∈ ((runnableInOrder jobs now queue).filter
          (·.concurrencyKey == some key)).take (min room limit) := by
  have perKey (entry : String × Nat) :
      row.id ∈ (eligibleOfKey jobs now queue limit entry).map Row.id ↔
        row ∈ ((runnableInOrder jobs now queue).filter
          (·.concurrencyKey == some entry.1)).take (min entry.2 limit) := by
    rw [eligibleOfKey, orderByRunAtId_filter, Nat.max_zero,
      id_mem_map_iff ?_ rowStored]
    intro other member
    exact (mem_runnableInOrder.mp (List.mem_of_mem_filter
      (List.mem_of_mem_take member))).1
  rw [eligibleKeyed, List.mem_flatMap]
  constructor
  · rintro ⟨⟨key, room⟩, member, inEntry⟩
    exact ⟨key, room, mem_hrRows.mp member, (perKey _).mp inEntry⟩
  · rintro ⟨key, room, found, inTake⟩
    exact ⟨(key, room), mem_hrRows.mpr found, (perKey (key, room)).mpr inTake⟩

theorem unmatched_iff :
    unmatched (hrRows headroom) row = true ↔
      keyCap headroom row.concurrencyKey = none := by
  rw [unmatched, List.all_eq_true]
  constructor
  · intro none
    cases key : row.concurrencyKey with
    | none =>
        rfl
    | some name =>
        cases found : headroom.lookup name with
        | none =>
            exact found
        | some room =>
            have differs := none (name, room) (mem_hrRows.mpr found)
            simp [key] at differs
  · rintro uncapped ⟨name, room⟩ member
    rw [bne_iff_ne]
    intro key
    rw [key] at uncapped
    exact Option.some_ne_none room
      ((mem_hrRows.mp member).symm.trans uncapped)

theorem id_mem_eligibleUnlimited_iff (rowStored : row ∈ jobs.rows) :
    row.id ∈ eligibleUnlimited jobs now queue limit (hrRows headroom) ↔
      row ∈ ((runnableInOrder jobs now queue).filter
        (unmatched (hrRows headroom))).take limit := by
  rw [eligibleUnlimited, orderByRunAtId_filter, id_mem_map_iff ?_ rowStored]
  intro other member
  exact (mem_runnableInOrder.mp (List.mem_of_mem_filter
    (List.mem_of_mem_take member))).1

/-- A runnable row is eligible exactly when it is among the first rows of its
rank key, as many as its cap and the batch limit let through. -/
theorem id_mem_eligibleIds_iff
    (ordered : row ∈ runnableInOrder jobs now queue) :
    row.id ∈ eligibleIds jobs now queue limit (hrRows headroom) ↔
      row ∈ ((runnableInOrder jobs now queue).filter fun other =>
          decide (rankKey headroom other.concurrencyKey =
            rankKey headroom row.concurrencyKey)).take
        (lower limit (keyCap headroom (rankKey headroom
          row.concurrencyKey))) := by
  have rowStored := (mem_runnableInOrder.mp ordered).1
  rw [eligibleIds, List.mem_append, id_mem_eligibleKeyed_iff rowStored,
    id_mem_eligibleUnlimited_iff rowStored, keyCap_rankKey]
  cases capped : keyCap headroom row.concurrencyKey with
  | none =>
      have sameFilter :
          (runnableInOrder jobs now queue).filter
              (unmatched (hrRows headroom)) =
            (runnableInOrder jobs now queue).filter fun other =>
              decide (rankKey headroom other.concurrencyKey =
                rankKey headroom row.concurrencyKey) := by
        refine List.filter_congr fun other _ => ?_
        rw [Bool.eq_iff_iff, unmatched_iff, decide_eq_true_iff,
          rankKey_eq_none_iff.mpr capped, rankKey_eq_none_iff]
      rw [sameFilter, lower]
      refine or_iff_right ?_
      rintro ⟨key, room, found, inTake⟩
      have hasKey := (List.mem_filter.mp (List.mem_of_mem_take inTake)).2
      rw [beq_iff_eq.mp hasKey] at capped
      exact Option.some_ne_none room (found.symm.trans capped)
  | some room =>
      obtain ⟨key, hasKey, found⟩ := Option.bind_eq_some_iff.mp capped
      have sameFilter :
          ((runnableInOrder jobs now queue).filter
              (·.concurrencyKey == some key)) =
            (runnableInOrder jobs now queue).filter fun other =>
              decide (rankKey headroom other.concurrencyKey =
                rankKey headroom row.concurrencyKey) := by
        refine List.filter_congr fun other _ => ?_
        rw [Bool.eq_iff_iff, beq_iff_eq, decide_eq_true_iff, ← hasKey]
        exact ⟨fun same => same ▸ rfl, eq_of_rankKey_eq capped⟩
      rw [← sameFilter, lower]
      constructor
      · rintro (⟨otherKey, otherRoom, otherFound, inTake⟩ | inTake)
        · have otherHasKey :=
            (List.mem_filter.mp (List.mem_of_mem_take inTake)).2
          rw [beq_iff_eq, hasKey] at otherHasKey
          cases otherHasKey
          cases found.symm.trans otherFound
          exact inTake
        · have uncapped := unmatched_iff.mp
            (List.mem_filter.mp (List.mem_of_mem_take inTake)).2
          rw [capped] at uncapped
          cases uncapped
      · intro inTake
        exact Or.inl ⟨key, room, found, inTake⟩

/-- The candidates of the CTE `locked`, in claim order. -/
theorem orderByRunAtId_lockable :
    orderByRunAtId (jobs.rows.filter (Row.lockable
        (eligibleIds jobs now queue limit (hrRows headroom)) now)) =
      eligibleInOrder jobs now queue limit headroom := by
  have onlyRunnable :
      jobs.rows.filter (Row.lockable
          (eligibleIds jobs now queue limit (hrRows headroom)) now) =
        jobs.rows.filter fun row => row.runnable queue now &&
          row.lockable
            (eligibleIds jobs now queue limit (hrRows headroom)) now := by
    refine List.filter_congr fun row stored => ?_
    rw [Bool.eq_iff_iff, Bool.and_eq_true_iff]
    exact (and_iff_right_of_imp (runnable_of_lockable stored)).symm
  rw [onlyRunnable, orderByRunAtId_filter]
  refine filter_eq_withinCap _ _ [] _ runnableInOrder_nodup ?_
  intro row ordered
  have due : row.due now = true :=
    (Bool.and_eq_true_iff.mp (mem_runnableInOrder.mp ordered).2).2
  rw [Row.lockable, due, Bool.and_true, List.contains_iff_mem,
    id_mem_eligibleIds_iff ordered]
  rfl

/-- What the CTE `locked` keeps of them. -/
theorem lockedCte_eq (lockedElsewhere : Nat → Bool) :
    lockedCte jobs now lockedElsewhere queue limit (hrRows headroom) =
      ((eligibleInOrder jobs now queue limit headroom).filter fun row =>
        !lockedElsewhere row.id).take limit := by
  rw [lockedCte, lockInOrder, orderByRunAtId_lockable]

/-- At most as many candidates have a key as the key has headroom. -/
theorem countP_eligibleInOrder_le
    {key : String} {room : Nat} (found : headroom.lookup key = some room) :
    (eligibleInOrder jobs now queue limit headroom).countP
      (·.concurrencyKey == some key) ≤ room := by
  have capped : keyCap headroom (some key) = some room := found
  have ranked : (eligibleInOrder jobs now queue limit headroom).countP
      (fun row => decide (rankKey headroom row.concurrencyKey = some key)) ≤
        lower limit (keyCap headroom (some key)) := by
    unfold eligibleInOrder
    exact countP_withinCap_le (by rfl) _
  calc (eligibleInOrder jobs now queue limit headroom).countP
          (·.concurrencyKey == some key)
      ≤ (eligibleInOrder jobs now queue limit headroom).countP
          (fun row =>
            decide (rankKey headroom row.concurrencyKey = some key)) := by
        refine List.countP_mono_left fun row _ hasKey => ?_
        rw [beq_iff_eq.mp hasKey, rankKey_of_capped capped]
        exact decide_eq_true rfl
    _ ≤ room := by
        rw [capped, lower] at ranked
        omega

/-- Whatever other transactions hold, at most as many rows of a key are chosen
as the key has headroom. -/
theorem countP_lockedCte_le
    {key : String} {room : Nat} (lockedElsewhere : Nat → Bool)
    (found : headroom.lookup key = some room) :
    (lockedCte jobs now lockedElsewhere queue limit
        (hrRows headroom)).countP (·.concurrencyKey == some key) ≤ room := by
  have chosen : (lockedCte jobs now lockedElsewhere queue limit
      (hrRows headroom)).Sublist
        (eligibleInOrder jobs now queue limit headroom) := by
    rw [lockedCte_eq]
    exact (List.take_sublist _ _).trans List.filter_sublist
  exact chosen.countP_le.trans (countP_eligibleInOrder_le found)

/-- With no foreign lock the rows that `locked` keeps are those of the greedy
pass. -/
theorem lockedCte_eq_greedyClaim :
    lockedCte jobs now (fun _ => false) queue limit (hrRows headroom) =
      greedyClaim jobs now queue limit headroom := by
  rw [lockedCte_eq, greedyClaim_eq_take]
  simp

theorem claimedCte_eq_take :
    claimedCte jobs now (fun _ => false) queue limit =
      (runnableInOrder jobs now queue).take limit := by
  simp [claimedCte, lockInOrder, runnableInOrder]

theorem sqlKeyed_of_accepted
    {gen : Nat → Uuid} {lockedElsewhere : Nat → Bool}
    {leaseMicros maxAttempts : Int} (accepted : HeadroomAccepted headroom) :
    sqlKeyed jobs now gen lockedElsewhere queue limit leaseMicros maxAttempts
        headroom =
      updateChosen jobs now gen leaseMicros maxAttempts
        (lockedCte jobs now lockedElsewhere queue limit
          (hrRows headroom)) := by
  rw [sqlKeyed, hrCte_eq_ok_iff.mpr ⟨accepted, rfl⟩]
  rfl

/-- A claim returns no more rows of a key than the key has headroom. -/
theorem claimBatchRaw_countP_le
    {updated : Jobs} {gen : Nat → Uuid} {lockedElsewhere : Nat → Bool}
    {params : ClaimParams} {raws : List RawClaimedRow} {key : String}
    {room : Nat}
    (outcome : claimBatchRaw jobs now gen lockedElsewhere params =
      .ok (updated, raws))
    (found : params.headroom.lookup key = some room) :
    raws.countP (·.concurrencyKey == some key) ≤ room := by
  have keyed : params.headroom.entries.isEmpty = false := by
    have member := AList.mem_lookup_iff.mp (Option.mem_def.mpr found)
    rw [List.isEmpty_eq_false_iff]
    exact List.ne_nil_of_mem member
  unfold claimBatchRaw claimStatement textParam at outcome
  split at outcome
  · cases outcome
  · cases interval : intervalParam params.leaseTimeout with
    | error failure =>
        rw [interval] at outcome
        cases outcome
    | ok leaseMicros =>
        simp only [interval, keyed, bind, Except.bind, sqlKeyed,
          Bool.false_eq_true, if_false] at outcome
        cases cast : hrCte params.headroom with
        | error failure =>
            simp only [cast] at outcome
            cases outcome
        | ok hr =>
            obtain ⟨_, rfl⟩ := hrCte_eq_ok_iff.mp cast
            simp only [cast] at outcome
            cases result : updateChosen jobs now gen leaseMicros
                (min params.maxAttempts i32Max : Nat)
                (lockedCte jobs now lockedElsewhere params.queue
                  (min params.batchSize i32Max)
                  (hrRows params.headroom)) with
            | error failure =>
                simp only [result] at outcome
                cases outcome
            | ok reply =>
                obtain ⟨written, rows⟩ := reply
                obtain ⟨rfl, _⟩ := updateChosen_spec
                  (chosen_lockedCte _).stored result
                simp only [result, mapM_fromRow_claimed] at outcome
                cases outcome
                rw [List.countP_map]
                exact countP_lockedCte_le lockedElsewhere found

end Selection

/-! ## The refinement -/

section Refinement

variable {jobs updated : Jobs} {now : Int} {gen : Nat → Uuid}
  {leaseMicros maxAttempts : Int} {chosen rows : List Row}

/-- The statement moved the row `id` to `running`. -/
def MovedToRunning (jobs updated : Jobs) (id : Nat) : Prop :=
  ∃ old new, jobs.find id = some old ∧ old.status ≠ .running ∧
    updated.find id = some new ∧ new.status = .running

/-- The rows a claim moves to `running` are the rows it chose. -/
theorem movedToRunning_iff_of_updateChosen
    {lockedElsewhere : Nat → Bool} {queue : String} {limit : Nat}
    (choice : Chosen jobs now lockedElsewhere queue limit chosen)
    (outcome : updateChosen jobs now gen leaseMicros maxAttempts chosen =
      .ok (updated, rows)) (id : Nat) :
    MovedToRunning jobs updated id ↔ id ∈ chosen.map Row.id := by
  obtain ⟨_, eachChosen, others, _⟩ :=
    updateChosen_spec choice.stored outcome
  constructor
  · rintro ⟨old, new, before, notRunning, after, running⟩
    by_contra notChosen
    rw [others id notChosen, before] at after
    cases after
    exact notRunning running
  · intro listed
    obtain ⟨row, member, rfl⟩ := List.mem_map.mp listed
    have waiting := Row.waiting_of_runnable (choice.runnable row member)
    refine ⟨row, _, Jobs.find_id_of_mem (choice.stored row member), ?_,
      (eachChosen row member).2.2, rfl⟩
    intro running
    simp [Row.waiting, running] at waiting

/-- No entry of the map can hold a row back: every key has headroom for a
whole batch, or no row of the table has a key of the map. -/
def Unrestricted (jobs : Jobs) (limit : Nat) (headroom : HashMap Nat) : Prop :=
  (∀ key room, headroom.lookup key = some room → limit ≤ room) ∨
    ∀ key room, headroom.lookup key = some room →
      ∀ row ∈ jobs.rows, row.concurrencyKey ≠ some key

theorem greedyClaim_of_unrestricted
    {queue : String} {limit : Nat} {headroom : HashMap Nat}
    (unrestricted : Unrestricted jobs limit headroom) :
    greedyClaim jobs now queue limit headroom =
      (runnableInOrder jobs now queue).take limit := by
  refine greedyScan_eq_take limit [] _ ?_
  intro row ordered room capped
  obtain ⟨key, hasKey, found⟩ := Option.bind_eq_some_iff.mp capped
  rcases unrestricted with roomy | absent
  · have enough := roomy key room found
    simpa using enough
  · have stored := (mem_runnableInOrder.mp ordered).1
    exact (absent key room found row stored hasKey).elim

/-- With no foreign lock and a map that the casts accept, `SQL_KEYED` goes
through when every admitted row can be updated, and the rows it moves to
`running` are then those of `greedyClaim`.  Rows of a key without headroom may
as well be absent, and with an unrestricted map the statement does what
`SQL_PLAIN` does.  `queue` is the parameter as Postgres has received it, a text
without U+0000; `claimBatchRaw` binds it with `textParam`. -/
theorem keyed_claim_is_greedy
    (jobs : Jobs) (now : Int) (gen : Nat → Uuid) (queue : String)
    (limit : Nat) (leaseMicros maxAttempts : Int) (headroom : HashMap Nat)
    (accepted : HeadroomAccepted headroom) :
    ((∀ row ∈ greedyClaim jobs now queue limit headroom,
        row.Claimable now gen leaseMicros maxAttempts) →
      ∃ updated rows,
        sqlKeyed jobs now gen (fun _ => false) queue limit leaseMicros
          maxAttempts headroom = .ok (updated, rows)) ∧
    (∀ updated rows,
      sqlKeyed jobs now gen (fun _ => false) queue limit leaseMicros
          maxAttempts headroom = .ok (updated, rows) →
        ∀ id, MovedToRunning jobs updated id ↔
          id ∈ (greedyClaim jobs now queue limit headroom).map Row.id) ∧
    (∀ key, headroom.lookup key = some 0 →
      greedyClaim jobs now queue limit headroom =
        greedyScan Row.concurrencyKey (keyCap headroom) limit []
          ((runnableInOrder jobs now queue).filter fun row =>
            decide (row.concurrencyKey ≠ some key))) ∧
    (Unrestricted jobs limit headroom →
      sqlKeyed jobs now gen (fun _ => false) queue limit leaseMicros
          maxAttempts headroom =
        sqlPlain jobs now gen (fun _ => false) queue limit leaseMicros
          maxAttempts) := by
  have choice : Chosen jobs now (fun _ => false) queue limit
      (greedyClaim jobs now queue limit headroom) := by
    rw [← lockedCte_eq_greedyClaim]
    exact chosen_lockedCte _
  rw [sqlKeyed_of_accepted accepted, lockedCte_eq_greedyClaim]
  refine ⟨exists_updateChosen_eq_ok choice, ?_, ?_, ?_⟩
  · intro updated rows outcome id
    exact movedToRunning_iff_of_updateChosen choice outcome id
  · intro key full
    have capped : keyCap headroom (some key) = some 0 := full
    exact (greedyScan_filter_full capped limit [] _).symm
  · intro unrestricted
    rw [greedyClaim_of_unrestricted unrestricted, sqlPlain,
      claimedCte_eq_take]

end Refinement

namespace KeyedTable

/-- A waiting row of the queue `mail`. -/
def waitingRow (id : Nat) (runAt : Int) (key : Option String) : Row where
  id := id
  publicId := ⟨id⟩
  queue := "mail"
  payload := []
  status := .queued
  attempts := 0
  maxAttempts := 5
  leaseToken := none
  leaseExpiresAt := none
  lastError := none
  lastAttemptedAt := none
  firstAttemptedAt := none
  finishedAt := none
  runAt := runAt
  createdAt := 0
  updatedAt := 0
  concurrencyKey := key

/-- Two rows of one key, a later row of another and one without a key. -/
def table : Jobs where
  rows :=
    [waitingRow 1 0 (some "a"), waitingRow 2 0 (some "a"),
      waitingRow 3 1 (some "b"), waitingRow 4 2 none]
  nextId := 5
  distinct := by decide
  drawn := by decide

def headroomOf (room : Nat) : HashMap Nat :=
  AList.insert "a" room ∅

example :
    ((greedyClaim table 5 "mail" 2 (headroomOf 1)).map Row.id,
      (greedyClaim table 5 "mail" 2 (headroomOf 0)).map Row.id) =
      ([1, 3], [3, 4]) := by
  decide

end KeyedTable

open KeyedTable in
/-- With headroom for one row of the key, its second row waits. -/
theorem keyed_claim_is_greedy_on_table :
    ∃ updated rows,
      sqlKeyed table 5 (fun id => ⟨id⟩) (fun _ => false) "mail" 10 10 3
          (headroomOf 1) = .ok (updated, rows) ∧
        ∀ id, MovedToRunning table updated id ↔ id ∈ [1, 3, 4] := by
  have accepted : HeadroomAccepted (headroomOf 1) := by
    intro key room found
    rw [headroomOf] at found
    by_cases same : key = "a"
    · subst same
      rw [AList.lookup_insert] at found
      cases found
      decide
    · rw [AList.lookup_insert_ne same] at found
      cases found
  obtain ⟨succeeds, moves, _⟩ := keyed_claim_is_greedy table 5
    (fun id => ⟨id⟩) "mail" 10 10 3 (headroomOf 1) accepted
  obtain ⟨updated, rows, outcome⟩ := succeeds (by decide)
  exact ⟨updated, rows, outcome, moves updated rows outcome⟩

open KeyedTable in
/-- A headroom above `i32::MAX` fails the cast `value::int`, so no row moves
although the pass admits all of them. -/
theorem keyed_claim_refuses_large_headroom :
    (greedyClaim table 5 "mail" 10 (headroomOf 2147483648)).map Row.id =
        [1, 2, 3, 4] ∧
      sqlKeyed table 5 (fun id => ⟨id⟩) (fun _ => false) "mail" 10 10 3
          (headroomOf 2147483648) = .error .numericValueOutOfRange := by
  refine ⟨by decide, ?_⟩
  have cast : hrCte (headroomOf 2147483648) =
      .error .numericValueOutOfRange := by
    decide
  rw [sqlKeyed, cast]
  rfl

end PgWorkQueue
