import PgWorkQueue.Client.Knobs
import PgWorkQueue.Library.Json

/-!
# The parameters of a claim

`build` looks at the lengths of the queue name and of the keys and at the size
of the limits.  The claim statement binds the same configuration as a text, an
interval and a JSON object, whose admissible values are others.  This file puts
the JSON text of the headroom under the CTE `hr`, and says for which accepted
configurations the claims of the worker can go through.
-/

namespace PgWorkQueue

/-! ## The headroom as JSON text -/

/-- `serde_json::to_string(headroom)`, with the entries in the order in which
the map happens to iterate. -/
def headroomJson (headroom : HashMap Nat) : List Char :=
  Library.Json.writeObject (headroom.entries.map fun entry => (entry.1.toList, entry.2))

/-- `$5::jsonb` accepts the text, `jsonb_each_text` gives back the entries, and
`value::int` accepts every value. -/
def JsonAccepted (headroom : HashMap Nat) : Prop :=
  Library.Json.readObject (headroomJson headroom) =
      .ok (headroom.entries.map fun entry => (entry.1.toList, entry.2)) ∧
    ∀ entry ∈ headroom.entries, entry.2 ≤ i32Max

section HeadroomText

variable {headroom : HashMap Nat}

theorem lookup_eq_some_iff_mem_entries {key : String} {room : Nat} :
    headroom.lookup key = some room ↔ ⟨key, room⟩ ∈ headroom.entries := by
  rw [← Option.mem_def, AList.mem_lookup_iff]

theorem hasNul_headroom_eq_false_iff :
    Library.Json.hasNul (headroom.entries.map fun entry =>
        (entry.1.toList, entry.2)) = false ↔
      ∀ entry ∈ headroom.entries, '\x00' ∉ entry.1.toList := by
  simp [Library.Json.hasNul]

/-- The text is accepted exactly when the map is, as the CTE `hr` takes it. -/
theorem jsonAccepted_iff : JsonAccepted headroom ↔ HeadroomAccepted headroom := by
  rw [JsonAccepted, headroomJson, Library.Json.readObject_writeObject]
  constructor
  · rintro ⟨readBack, small⟩ key room found
    have member := lookup_eq_some_iff_mem_entries.mp found
    split at readBack
    · cases readBack
    · rename_i clean
      have noNul := hasNul_headroom_eq_false_iff.mp
        (Bool.eq_false_of_not_eq_true clean)
      exact ⟨noNul _ member, small _ member⟩
  · intro accepted
    have clean := hasNul_headroom_eq_false_iff.mpr fun entry member =>
      (accepted _ _ (lookup_eq_some_iff_mem_entries.mpr member)).1
    rw [clean]
    exact ⟨rfl, fun entry member =>
      (accepted _ _ (lookup_eq_some_iff_mem_entries.mpr member)).2⟩

end HeadroomText

/-- A snapshot has the configured keys, and what a limit leaves is an `int`. -/
theorem jsonAccepted_headroomSnapshot_iff {limits running : HashMap Nat}
    (small : ∀ key limit, limits.lookup key = some limit → limit ≤ i32Max) :
    JsonAccepted (headroomSnapshot limits running) ↔
      ∀ key limit, limits.lookup key = some limit → '\x00' ∉ key.toList := by
  rw [jsonAccepted_iff, HeadroomAccepted]
  unfold headroomSnapshot
  split
  · rename_i noLimits
    have none : ∀ key, limits.lookup key = none := by
      intro key
      rw [List.isEmpty_iff] at noLimits
      simp [AList.lookup, noLimits]
    simp [none]
  · simp only [HashMap.lookup_mapValues, Option.map_eq_some_iff]
    constructor
    · intro accepted key limit configured
      exact (accepted key _ ⟨limit, configured, rfl⟩).1
    · rintro clean key room ⟨limit, configured, rfl⟩
      have bound := small key limit configured
      exact ⟨clean key limit configured, by omega⟩

/-! ## Claims that the configuration lets through -/

/-- What the UPDATE of a claim asks of a row, apart from the deadline of the
lease. -/
def Row.Advances (now : Int) (gen : Nat → Uuid) (maxAttempts : Int)
    (row : Row) : Prop :=
  row.attempts + 1 ≤ i32Max ∧
    (claimedRow now gen 0 maxAttempts row).PassesChecks

/-- No CHECK looks at when the lease ends. -/
theorem Row.claimable_iff {now : Int} {gen : Nat → Uuid}
    {leaseMicros maxAttempts : Int} {row : Row} :
    row.Claimable now gen leaseMicros maxAttempts ↔
      row.Advances now gen maxAttempts ∧
        timestampInRange (now + leaseMicros) = true := by
  have checks : (claimedRow now gen leaseMicros maxAttempts row).PassesChecks ↔
      (claimedRow now gen 0 maxAttempts row).PassesChecks := Iff.rfl
  rw [Claimable, Advances, checks]
  constructor
  · rintro ⟨room, inRange, passes⟩
    exact ⟨⟨room, passes⟩, inRange⟩
  · rintro ⟨⟨room, passes⟩, inRange⟩
    exact ⟨room, inRange, passes⟩

/-- The rows a claim chooses once its parameters are accepted. -/
def chosenRows (jobs : Jobs) (now : Int) (lockedElsewhere : Nat → Bool)
    (params : ClaimParams) : List Row :=
  if params.headroom.entries.isEmpty then
    claimedCte jobs now lockedElsewhere params.queue
      (min params.batchSize i32Max)
  else
    lockedCte jobs now lockedElsewhere params.queue
      (min params.batchSize i32Max) (hrRows params.headroom)

section AcceptedParameters

variable {jobs : Jobs} {now : Int} {gen : Nat → Uuid}
  {lockedElsewhere : Nat → Bool} {params : ClaimParams} {leaseMicros : Int}

theorem chosen_chosenRows :
    Chosen jobs now lockedElsewhere params.queue (min params.batchSize i32Max)
      (chosenRows jobs now lockedElsewhere params) := by
  unfold chosenRows
  split
  · exact chosen_claimedCte
  · exact chosen_lockedCte _

theorem claimStatement_of_accepted
    (queueText : '\x00' ∉ params.queue.toList)
    (interval : intervalParam params.leaseTimeout = .ok leaseMicros)
    (accepted : HeadroomAccepted params.headroom) :
    claimStatement jobs now gen lockedElsewhere params =
      updateChosen jobs now gen leaseMicros (min params.maxAttempts i32Max : Nat)
        (chosenRows jobs now lockedElsewhere params) := by
  have text : textParam params.queue = .ok params.queue := by
    rw [textParam, if_neg queueText]
  unfold claimStatement chosenRows
  rw [text, interval]
  simp only [bind, Except.bind, sqlKeyed_of_accepted accepted, sqlPlain]
  split
  · rfl
  · rfl

/-- With accepted parameters a claim goes through when every runnable row can
be updated. -/
theorem exists_claimBatchRaw_eq_ok
    (queueText : '\x00' ∉ params.queue.toList)
    (interval : intervalParam params.leaseTimeout = .ok leaseMicros)
    (accepted : HeadroomAccepted params.headroom)
    (claimable : ∀ row ∈ jobs.rows, row.runnable params.queue now = true →
      row.Claimable now gen leaseMicros (min params.maxAttempts i32Max : Nat)) :
    ∃ updated raws,
      claimBatchRaw jobs now gen lockedElsewhere params =
        .ok (updated, raws) := by
  have choice : Chosen jobs now lockedElsewhere params.queue _ _ :=
    chosen_chosenRows
  obtain ⟨updated, rows, update⟩ := exists_updateChosen_eq_ok choice
    fun row member =>
      claimable row (choice.stored row member) (choice.runnable row member)
  exact ⟨updated, _, claimBatchRaw_of_update choice.stored
    (claimStatement_of_accepted queueText interval accepted) update⟩

end AcceptedParameters

/-- No claim of the worker at this time fails because of its configuration:
the lease is an interval, the text of every headroom snapshot is accepted and
read back, and a claim goes through on every table whose runnable rows can be
updated. -/
structure Worker.CanClaim {T : Type} (worker : Worker T) (now : Int) :
    Prop where
  interval : ∃ leaseMicros, intervalParam worker.leaseTimeout = .ok leaseMicros
  headroom : ∀ running,
    JsonAccepted (headroomSnapshot worker.concurrencyLimits running)
  statement : ∀ (jobs : Jobs) (gen : Nat → Uuid) (lockedElsewhere : Nat → Bool)
      (want : Nat) (running : HashMap Nat),
    (∀ row ∈ jobs.rows, row.runnable worker.queue now = true →
      row.Advances now gen (min worker.maxAttempts i32Max : Nat)) →
    ∃ updated raws,
      claimBatchRaw jobs now gen lockedElsewhere
        (worker.claimParams want
          (headroomSnapshot worker.concurrencyLimits running)) =
        .ok (updated, raws)

/-! ### A table on which the deadline is computed -/

namespace OneRow

/-- A row of the queue that was just pushed, without a key. -/
def row (queue : String) (now : Int) : Row where
  id := 1
  publicId := ⟨1⟩
  queue := queue
  payload := []
  status := .queued
  attempts := 0
  maxAttempts := 0
  leaseToken := none
  leaseExpiresAt := none
  lastError := none
  lastAttemptedAt := none
  firstAttemptedAt := none
  finishedAt := none
  runAt := now
  createdAt := now
  updatedAt := now
  concurrencyKey := none

def table (queue : String) (now : Int) : Jobs where
  rows := [row queue now]
  nextId := 2
  distinct := List.nodup_singleton _
  drawn := fun stored member => by
    rw [List.mem_singleton.mp member]
    exact Nat.one_lt_two

variable {queue : String} {now : Int}

theorem runnable_row : (row queue now).runnable queue now = true := by
  simp [Row.runnable, Row.due, Row.waiting, row]

theorem advances_row {gen : Nat → Uuid} {maxAttempts : Nat}
    (accepted : 0 < queue.length ∧ queue.length ≤ maxQueueLen) :
    (row queue now).Advances now gen maxAttempts := by
  have fits : (0 : Int) + 1 ≤ i32Max := by decide
  have upper : queue.length ≤ 64 := accepted.2
  refine ⟨fits, ?_⟩
  rw [Row.passesChecks_iff]
  refine ⟨Int.one_nonneg, ?_, ?_, Int.natCast_nonneg _, Nat.zero_le _, upper,
    accepted.1, rfl, ?_⟩
  · intro key keyed
    cases keyed
  · intro text stored
    cases stored
  · simp [jobsTemporal, claimedRow, claimedVersion, setUpdatedAt, row]

/-- Every headroom lets a row without a key through. -/
theorem chosenRows_table {params : ClaimParams} (wanted : params.batchSize = 1) :
    chosenRows (table params.queue now) now (fun _ => false) params =
      [row params.queue now] := by
  have due : (row params.queue now).due now = true := by
    simp [Row.due, Row.waiting, row]
  have key : (row params.queue now).concurrencyKey = none := rfl
  have limit : min params.batchSize i32Max = 1 := by
    rw [wanted]
    rfl
  unfold chosenRows
  rw [limit]
  split
  · simp [claimedCte, lockInOrder, orderByRunAtId, table, runnable_row]
  · simp [lockedCte, lockInOrder, orderByRunAtId, table, eligibleIds,
      eligibleUnlimited, unmatched, key, Row.lockable, due, runnable_row]

/-- Where the deadline is no timestamp, the row cannot be claimed. -/
theorem not_claimed_of_out_of_range {gen : Nat → Uuid}
    {leaseMicros maxAttempts : Int} {updated : Jobs} {rows : List Row}
    (outOfRange : ¬ timestampInRange (now + leaseMicros) = true) :
    updateChosen (table queue now) now gen leaseMicros maxAttempts
      [row queue now] ≠ .ok (updated, rows) := by
  intro outcome
  unfold updateChosen at outcome
  cases result : (table queue now).update now
      (fun stored => ([row queue now].map Row.id).contains stored.id)
      (claimSet now gen leaseMicros maxAttempts) with
  | error failure =>
      rw [result] at outcome
      cases outcome
  | ok written =>
      obtain ⟨replaced, _⟩ := Jobs.mapM_of_update result
      rw [Library.KeyedRows.mapM_eq_ok_iff_forall₂] at replaced
      obtain ⟨new, _, replacedRow, _, _⟩ := List.forall₂_cons_left_iff.mp replaced
      rw [Jobs.updateSelected, if_pos (by simp),
        updateRow_claimSet_eq_ok_iff] at replacedRow
      exact outOfRange replacedRow.2.1

/-- A claim that goes through on the table has computed a deadline. -/
theorem deadline_of_claimed {gen : Nat → Uuid} {params : ClaimParams}
    {leaseMicros : Int} {updated : Jobs} {raws : List RawClaimedRow}
    (queueText : '\x00' ∉ params.queue.toList)
    (interval : intervalParam params.leaseTimeout = .ok leaseMicros)
    (accepted : HeadroomAccepted params.headroom)
    (wanted : params.batchSize = 1)
    (outcome : claimBatchRaw (table params.queue now) now gen (fun _ => false)
      params = .ok (updated, raws)) :
    timestampInRange (now + leaseMicros) = true := by
  by_contra outOfRange
  rw [claimBatchRaw, claimStatement_of_accepted queueText interval accepted,
    chosenRows_table wanted] at outcome
  cases result : updateChosen (table params.queue now) now gen leaseMicros
      (min params.maxAttempts i32Max : Nat) [row params.queue now] with
  | error failure =>
      rw [result] at outcome
      cases outcome
  | ok reply => exact not_claimed_of_out_of_range outOfRange result

end OneRow

/-! ### Which accepted configurations can claim -/

theorem exists_intervalParam_iff {duration : Duration} :
    (∃ micros, intervalParam duration = .ok micros) ↔
      duration.nanos % 1000 = 0 ∧ duration.asMicros ≤ i64Max := by
  unfold intervalParam
  split
  · rename_i encodable
    exact ⟨fun _ => encodable, fun _ => ⟨_, rfl⟩⟩
  · rename_i refused
    constructor
    · rintro ⟨_, impossible⟩
      cases impossible
    · intro encodable
      exact absurd encodable refused

section AcceptedConfigurations

variable {T : Type} {worker : BuiltWorker T} {now : Int}

theorem BuiltWorker.jsonAccepted_iff (running : HashMap Nat) :
    JsonAccepted (headroomSnapshot worker.concurrencyLimits running) ↔
      ∀ key limit, worker.concurrencyLimits.lookup key = some limit →
        '\x00' ∉ key.toList :=
  jsonAccepted_headroomSnapshot_iff fun key limit configured =>
    (worker.limitsAccepted key limit configured).2.2.2

/-- A claim that is bound to a queue name with U+0000 is refused whatever the
table holds. -/
theorem BuiltWorker.queueText_of_canClaim
    (able : worker.toWorker.CanClaim now) : '\x00' ∉ worker.queue.toList := by
  intro nul
  obtain ⟨updated, raws, outcome⟩ := able.statement Jobs.empty (fun _ => ⟨0⟩)
    (fun _ => false) 1 ∅ (fun row member => absurd member List.not_mem_nil)
  have refused : textParam worker.queue = .error .characterNotInRepertoire := by
    rw [textParam, if_pos nul]
  simp only [claimBatchRaw, claimStatement, Worker.claimParams, refused, bind,
    Except.bind] at outcome
  cases outcome

/-- A row that was just pushed makes the claim compute its deadline. -/
theorem BuiltWorker.deadline_of_canClaim {leaseMicros : Int}
    (able : worker.toWorker.CanClaim now)
    (interval : intervalParam worker.leaseTimeout = .ok leaseMicros) :
    timestampInRange (now + leaseMicros) = true := by
  obtain ⟨updated, raws, outcome⟩ := able.statement
    (OneRow.table worker.queue now) (fun _ => ⟨0⟩) (fun _ => false) 1 ∅
    (fun row member _ => by
      rw [List.mem_singleton.mp member]
      exact OneRow.advances_row worker.queueAccepted)
  exact OneRow.deadline_of_claimed (queueText_of_canClaim able) interval
    (PgWorkQueue.jsonAccepted_iff.mp (able.headroom ∅)) rfl outcome

theorem BuiltWorker.canClaim_iff :
    worker.toWorker.CanClaim now ↔
      (worker.leaseTimeout.nanos % 1000 = 0 ∧
        worker.leaseTimeout.asMicros ≤ i64Max ∧
        timestampInRange (now + worker.leaseTimeout.asMicros) = true) ∧
      '\x00' ∉ worker.queue.toList ∧
      ∀ key limit, worker.concurrencyLimits.lookup key = some limit →
        '\x00' ∉ key.toList := by
  have encoded (encodable : worker.leaseTimeout.nanos % 1000 = 0 ∧
      worker.leaseTimeout.asMicros ≤ i64Max) :
      intervalParam worker.leaseTimeout = .ok worker.leaseTimeout.asMicros := by
    rw [intervalParam, if_pos encodable]
  constructor
  · intro able
    have encodable := exists_intervalParam_iff.mp able.interval
    exact ⟨⟨encodable.1, encodable.2, deadline_of_canClaim able (encoded encodable)⟩,
      queueText_of_canClaim able, (jsonAccepted_iff ∅).mp (able.headroom ∅)⟩
  · rintro ⟨⟨whole, fits, deadline⟩, queueText, keys⟩
    have interval := encoded ⟨whole, fits⟩
    refine ⟨⟨_, interval⟩, fun running => (jsonAccepted_iff running).mpr keys, ?_⟩
    intro jobs gen lockedElsewhere want running advances
    exact exists_claimBatchRaw_eq_ok queueText interval
      (PgWorkQueue.jsonAccepted_iff.mp ((jsonAccepted_iff running).mpr keys))
      fun row member runnable =>
        Row.claimable_iff.mpr ⟨advances row member runnable, deadline⟩

/-- An accepted configuration can claim exactly when its lease is a whole
number of microseconds that fits in an `i64` and ends at a timestamp, and
neither the queue name nor a key contains U+0000. -/
theorem canClaim_of_build_iff {builder : WorkerBuilder T} {host : Host}
    (built : builder.build host = .ok worker) :
    worker.toWorker.CanClaim now ↔
      (builder.leaseTimeout.nanos % 1000 = 0 ∧
        builder.leaseTimeout.asMicros ≤ i64Max ∧
        timestampInRange (now + builder.leaseTimeout.asMicros) = true) ∧
      '\x00' ∉ (builder.queue.getD "").toList ∧
      ∀ key ∈ builder.concurrencyLimits, '\x00' ∉ key.toList := by
  have knobs := WorkerBuilder.builds_of_build built
  have keys : (∀ key limit, worker.concurrencyLimits.lookup key = some limit →
      '\x00' ∉ key.toList) ↔
      ∀ key ∈ builder.concurrencyLimits, '\x00' ∉ key.toList := by
    simp only [knobs.concurrencyLimits, HashMap.lookup_mapValues,
      Option.map_eq_some_iff]
    constructor
    · intro clean key configured
      obtain ⟨limit, found⟩ :=
        Option.isSome_iff_exists.mp (AList.lookup_isSome.mpr configured)
      exact clean key _ ⟨limit, found, rfl⟩
    · rintro clean key _ ⟨limit, found, _⟩
      exact clean key (AList.lookup_isSome.mp (Option.isSome_of_eq_some found))
  rw [BuiltWorker.canClaim_iff, keys, knobs.leaseTimeout, knobs.queue]

end AcceptedConfigurations

namespace SmallWorker

/-- The lease of 30 s and one nanosecond. -/
def oddLease : WorkerBuilder Unit :=
  { builder with leaseTimeout := ⟨30000000001, by decide⟩ }

/-- A limit for a key with U+0000. -/
def nulKey : WorkerBuilder Unit :=
  { builder with
    concurrencyLimits := (∅ : HashMap UInt32).insert "tenant\x00" 1 }

/-- A limit for one key. -/
def limited : WorkerBuilder Unit :=
  { builder with
    concurrencyLimits := (∅ : HashMap UInt32).insert "tenant" 1 }

theorem exists_build_limited : ∃ worker, limited.build host = .ok worker :=
  exists_of_isOk (by decide +kernel)

theorem exists_build_oddLease : ∃ worker, oddLease.build host = .ok worker :=
  exists_of_isOk (by decide +kernel)

theorem exists_build_nulKey : ∃ worker, nulKey.build host = .ok worker :=
  exists_of_isOk (by decide +kernel)

end SmallWorker

theorem canClaim_smallWorker :
    ∃ worker, SmallWorker.limited.build SmallWorker.host = .ok worker ∧
      worker.toWorker.CanClaim 0 := by
  obtain ⟨worker, built⟩ := SmallWorker.exists_build_limited
  refine ⟨worker, built, (canClaim_of_build_iff built).mpr
    ⟨by decide, by decide, ?_⟩⟩
  intro key configured
  rcases (AList.mem_insert _).mp configured with rfl | absent
  · decide
  · exact absurd absent (AList.notMem_empty key)

/-- `build` accepts a lease that sqlx cannot encode, and a key that `jsonb`
cannot hold; neither worker can claim at any time. -/
theorem accepted_without_canClaim :
    (∃ worker, SmallWorker.oddLease.build SmallWorker.host = .ok worker ∧
      ∀ now, ¬ worker.toWorker.CanClaim now) ∧
    ∃ worker, SmallWorker.nulKey.build SmallWorker.host = .ok worker ∧
      ∀ now, ¬ worker.toWorker.CanClaim now := by
  constructor
  · obtain ⟨worker, built⟩ := SmallWorker.exists_build_oddLease
    refine ⟨worker, built, fun now able => ?_⟩
    have encodable := exists_intervalParam_iff.mp able.interval
    rw [(WorkerBuilder.builds_of_build built).leaseTimeout] at encodable
    exact absurd encodable.1 (by decide)
  · obtain ⟨worker, built⟩ := SmallWorker.exists_build_nulKey
    refine ⟨worker, built, fun now able => ?_⟩
    have clean := (BuiltWorker.jsonAccepted_iff ∅).mp (able.headroom ∅)
    have configured : worker.concurrencyLimits.lookup "tenant\x00" = some 1 := by
      rw [(WorkerBuilder.builds_of_build built).concurrencyLimits]
      decide
    exact clean _ _ configured (by decide)

end PgWorkQueue
