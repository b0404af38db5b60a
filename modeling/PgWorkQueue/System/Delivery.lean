import PgWorkQueue.System.BatchPush
import PgWorkQueue.System.Completion

/-!
# From the push to the handler

A job passes an INSERT, any number of claims, and the codec of a worker before a
handler sees it.  Here the way is followed back: what a handler gets is what a
caller pushed to the worker's queue.  Each attempt of a job is delivered to one
task of the fleet at most, and the idempotency key tells the jobs apart.
-/

namespace PgWorkQueue

open Library.Runs

/-! ## What a caller submits -/

/-- What a caller of `push`, `push_at` or `push_batch` gave for one job. -/
structure Submission (T : Type) where
  pusher : Pusher T
  publicId : Uuid
  payload : T
  concurrencyKey : Option String

/-- The submissions of a statement; those of a batch are its items. -/
inductive Statement.Submits {T : Type} : Statement T → Submission T → Prop
  | push (pusher : Pusher T) (publicId : Uuid) (payload : T)
      (concurrencyKey : Option String) :
      Submits (.push pusher publicId payload concurrencyKey)
        ⟨pusher, publicId, payload, concurrencyKey⟩
  | pushAt (pusher : Pusher T) (publicId : Uuid) (payload : T) (runAt : Int)
      (concurrencyKey : Option String) :
      Submits (.pushAt pusher publicId payload runAt concurrencyKey)
        ⟨pusher, publicId, payload, concurrencyKey⟩
  | pushBatch (pusher : Pusher T) (draw : Nat → Uuid)
      (items : List (T × Option String)) (position : Nat)
      (item : T × Option String) (here : items[position]? = some item) :
      Submits (.pushBatch pusher draw items)
        ⟨pusher, draw position, item.1, item.2⟩

/-- The columns hold what was submitted, the payload as its encoding. -/
structure Submission.Fills {T : Type} (submission : Submission T)
    (queue : String) (publicId : Uuid) (concurrencyKey : Option String)
    (payload : Bytes) : Prop where
  queue : queue = submission.pusher.queue
  publicId : publicId = submission.publicId
  concurrencyKey : concurrencyKey = submission.concurrencyKey
  payload : submission.pusher.codec.encode submission.payload = .ok payload

def Submission.FillsNew {T : Type} (submission : Submission T)
    (new : NewJob) : Prop :=
  submission.Fills new.queue new.publicId new.concurrencyKey new.payload

def Submission.FillsRow {T : Type} (submission : Submission T) (row : Row) :
    Prop :=
  submission.Fills row.queue row.publicId row.concurrencyKey row.payload

section Inserting

variable {T : Type} {pusher : Pusher T} {jobs updated : Jobs} {now : Int}

theorem Pusher.encode_of_encodeOne {value : T} {index : Nat} {bytes : Bytes}
    (encoded : pusher.encodeOne value index = .ok bytes) :
    pusher.codec.encode value = .ok bytes := by
  unfold encodeOne at encoded
  split at encoded
  · split at encoded
    · cases encoded
    · cases encoded
  · split at encoded
    · cases encoded
    · cases encoded
      assumption

/-- The rows that a statement inserts, each with the submission it comes
from. -/
def Statement.InsertsRows (statement : Statement T) (now : Int)
    (jobs updated : Jobs) : Prop :=
  ∃ news, Jobs.insertAll now jobs news = .ok updated ∧
    ∀ new ∈ news, ∃ submission, statement.Submits submission ∧
      submission.FillsNew new

theorem Statement.insertsRows_none (statement : Statement T) (now : Int)
    (jobs : Jobs) : statement.InsertsRows now jobs jobs := by
  refine ⟨[], rfl, ?_⟩
  intro new member
  cases member

theorem Pusher.insertsRows_of_pushOne {statement : Statement T}
    {publicId returned : Uuid} {payload : T} {runAt : Option Int}
    {concurrencyKey : Option String}
    (submits : statement.Submits ⟨pusher, publicId, payload, concurrencyKey⟩)
    (outcome : pusher.pushOne jobs now publicId payload runAt concurrencyKey =
      .ok (updated, returned)) :
    statement.InsertsRows now jobs updated := by
  rcases sends_or_refused pusher payload runAt concurrencyKey with
    ⟨bytes, sends⟩ | ⟨failure, _, refused⟩
  · rw [pushOne_of_sends sends] at outcome
    split at outcome
    · cases outcome
    · rename_i stored inserted
      cases outcome
      refine ⟨[pusher.newJob publicId bytes runAt concurrencyKey], ?_, ?_⟩
      · simp only [Jobs.insertAll, inserted, bind, Except.bind]
      · intro new member
        rw [List.mem_singleton.mp member]
        exact ⟨_, submits, rfl, rfl, rfl, encode_of_encodeOne sends.encoded⟩
  · rw [refused] at outcome
    cases outcome

/-- A row of the batch is the item at its position. -/
theorem Pusher.insertsRows_of_pushBatch {draw : Nat → Uuid}
    {items : List (T × Option String)} {returned : List Uuid}
    (outcome : pusher.pushBatch jobs now draw items =
      .ok (updated, returned)) :
    (Statement.pushBatch pusher draw items).InsertsRows now jobs updated := by
  rw [pushBatch_eq] at outcome
  cases prepared : pusher.prepareBatch items with
  | error failure =>
      rw [prepared] at outcome
      cases outcome
  | ok encoded =>
      rw [prepared] at outcome
      obtain ⟨_, inserted⟩ := sendBatch_eq_ok outcome
      obtain ⟨_, _, _, encoding⟩ := prepareBatch_eq_ok_iff.mp prepared
      refine ⟨_, inserted, ?_⟩
      intro new member
      have sameLength : encoded.length =
          ((List.range items.length).map draw).length := by
        rw [(encodeItems_spec encoding).1]
        simp
      obtain ⟨position, sent⟩ := List.mem_iff_getElem?.mp member
      have drawn : ((List.range items.length).map draw)[position]? =
          some new.publicId := by
        rw [← map_publicId_unnest sameLength, List.getElem?_map, sent]
        rfl
      have inside : position < items.length := by
        have bound := (List.getElem?_eq_some_iff.mp drawn).1
        simpa using bound
      have here := List.getElem?_eq_getElem inside
      obtain ⟨bytes, encodes, coded⟩ :=
        getElem?_of_encodeItems (Nat.zero_le _) encoding here
      have isNew : (unnest pusher.queue encoded _)[position]? = some _ :=
        getElem?_unnest coded drawn
      rw [sent] at isNew
      have isDraw : new.publicId = draw position := by
        simpa [inside, eq_comm] using drawn
      refine ⟨_, .pushBatch pusher draw items position _ here, ?_⟩
      rw [Option.some.inj isNew]
      exact ⟨rfl, isDraw, rfl, encodes⟩

/-- A statement of a pusher inserts its submissions or nothing. -/
theorem Statement.Inserts.insertsRows {statement : Statement T}
    {runAt : Option Int} (inserts : statement.Inserts runAt) (jobs : Jobs)
    (now : Int) :
    statement.InsertsRows now jobs (execute jobs now statement).1 := by
  cases inserts with
  | push pusher publicId payload concurrencyKey =>
      simp only [execute, commitOr]
      split
      · rename_i outcome
        exact Pusher.insertsRows_of_pushOne (.push ..) outcome
      · exact insertsRows_none _ _ _
  | pushAt pusher publicId payload runAt concurrencyKey =>
      simp only [execute, commitOr]
      split
      · rename_i outcome
        exact Pusher.insertsRows_of_pushOne (.pushAt ..) outcome
      · exact insertsRows_none _ _ _
  | pushBatch pusher draw items =>
      simp only [execute, commitOr]
      split
      · rename_i outcome
        exact Pusher.insertsRows_of_pushBatch outcome
      · exact insertsRows_none _ _ _

end Inserting

/-! ## The rows of a run -/

/-- A statement of the history submitted it. -/
def Submission.Pushed {T : Type} (submission : Submission T)
    (history : List (Transition DbState (Event T))) : Prop :=
  ∃ taken ∈ history, taken.label.statement.Submits submission

/-- Every row, in the table or handed out, holds what was submitted. -/
structure Traced {T : Type}
    (history : List (Transition DbState (Event T))) (state : DbState) :
    Prop where
  stored : ∀ id row, state.jobs.find id = some row →
    ∃ submission : Submission T, submission.Pushed history ∧
      submission.FillsRow row
  returned : ∀ raw ∈ state.returned,
    ∃ submission : Submission T, submission.Pushed history ∧
      submission.Fills raw.queue raw.publicId raw.concurrencyKey raw.payload

/-- `public_id` is a key of the table. -/
def Jobs.UniquePublicIds (jobs : Jobs) : Prop :=
  ∀ row ∈ jobs.rows, ∀ other ∈ jobs.rows, row.publicId = other.publicId →
    row = other

section Traced

variable {T : Type} {state : DbState} {event : Event T} {id : Nat} {row : Row}
  {history : List (Transition DbState (Event T))}

theorem Submission.Pushed.snoc {submission : Submission T}
    (pushed : submission.Pushed history)
    (taken : Transition DbState (Event T)) :
    submission.Pushed (history ++ [taken]) := by
  obtain ⟨earlier, member, submits⟩ := pushed
  exact ⟨earlier, List.mem_append_left _ member, submits⟩

theorem Submission.FillsRow.of_sameJob {submission : Submission T}
    {old new : Row} (fills : submission.FillsRow old)
    (sameJob : SameJob old new) : submission.FillsRow new where
  queue := sameJob.queue.trans fills.queue
  publicId := sameJob.publicId.trans fills.publicId
  concurrencyKey := sameJob.concurrencyKey.trans fills.concurrencyKey
  payload := by
    rw [sameJob.payload]
    exact fills.payload

/-- A row that was not there before holds a submission of the statement. -/
theorem exists_submission_of_absent (absent : state.jobs.find id = none)
    (found : (state.after event).jobs.find id = some row) :
    ∃ submission, event.statement.Submits submission ∧
      submission.FillsRow row := by
  obtain ⟨_, _, inserts, _⟩ := DbState.exists_insert_of_absent absent found
  obtain ⟨news, inserted, submitted⟩ :=
    inserts.insertsRows state.jobs event.now
  rcases (Jobs.insertAll_spec inserted).2.2 id with
    same | ⟨_, new, member, stored, _⟩
  · have stays := same.trans absent
    rw [DbState.after] at found
    rw [found] at stays
    cases stays
  · rw [DbState.after, stored, Option.some.injEq] at found
    subst found
    exact submitted new member

theorem Traced.step (traced : Traced history state)
    (event : Event T) :
    Traced (history ++ [⟨state, event, state.after event⟩])
      (state.after event) where
  stored := by
    intro id row found
    cases before : state.jobs.find id with
    | none =>
        obtain ⟨submission, submits, fills⟩ :=
          exists_submission_of_absent before found
        have last : (⟨state, event, state.after event⟩ :
            Transition DbState (Event T)) ∈
              history ++ [⟨state, event, state.after event⟩] :=
          List.mem_append_right _ List.mem_cons_self
        exact ⟨submission, ⟨_, last, submits⟩, fills⟩
    | some old =>
        obtain ⟨submission, pushed, fills⟩ := traced.stored id old before
        rcases rowLaw_of_step event before with ⟨new, stored, law⟩ | ⟨gone, _⟩
        · rw [stored, Option.some.injEq] at found
          subst found
          exact ⟨submission, pushed.snoc _, fills.of_sameJob law.sameJob⟩
        · rw [gone] at found
          cases found
  returned := by
    intro raw member
    rcases List.mem_append.mp member with earlier | new
    · obtain ⟨submission, pushed, fills⟩ := traced.returned raw earlier
      exact ⟨submission, pushed.snoc _, fills⟩
    · obtain ⟨_, _, _, row, _, _, before, _, _, rfl, _⟩ :=
        (claimedRows_spec state.jobs event.now event.statement).2 raw new
      obtain ⟨submission, pushed, fills⟩ := traced.stored _ row before
      exact ⟨submission, pushed.snoc _, fills⟩

theorem traced_of_run {clock : Int} {finish : DbState}
    (run : Run (DbState.Step T) (DbState.initial clock) history finish) :
    Traced history finish := by
  apply run.historyInvariant Traced
  · constructor
    · intro id row found
      cases found
    · intro raw member
      cases member
  · intro earlier source event target _ traced taken
    rw [taken.2]
    exact traced.step event

/-- A row of the table that the statement did not insert was there before. -/
theorem exists_old_of_no_insert
    (noInsert : ∀ runAt, ¬ event.statement.Inserts runAt)
    (member : row ∈ (state.after event).jobs.rows) :
    ∃ old ∈ state.jobs.rows, old.id = row.id ∧
      row.publicId = old.publicId := by
  have found := Jobs.find_id_of_mem member
  cases before : state.jobs.find row.id with
  | none =>
      obtain ⟨_, _, inserts, _⟩ := DbState.exists_insert_of_absent before found
      exact absurd inserts (noInsert _)
  | some old =>
      rcases rowLaw_of_step event before with ⟨new, stored, law⟩ | ⟨gone, _⟩
      · rw [stored, Option.some.injEq] at found
        subst found
        obtain ⟨listed, sameId⟩ := Jobs.find_eq_some_iff.mp before
        exact ⟨old, listed, sameId, law.sameJob.publicId⟩
      · rw [gone] at found
        cases found

theorem Jobs.UniquePublicIds.insertAll {jobs updated : Jobs} {now : Int}
    {news : List NewJob} (unique : jobs.UniquePublicIds)
    (inserted : Jobs.insertAll now jobs news = .ok updated) :
    updated.UniquePublicIds := by
  obtain ⟨rows, distinct, fresh⟩ := Jobs.rows_of_insertAll inserted
  have apart {old : Row} {position : Nat} {new : NewJob}
      (listed : old ∈ jobs.rows) (sent : news[position]? = some new) :
      old.publicId ≠ new.publicId :=
    fresh new (List.mem_of_getElem? sent) old listed
  intro row member other otherMember same
  rw [rows, List.mem_append] at member otherMember
  rcases member with old | new
  · rcases otherMember with otherOld | otherNew
    · exact unique row old other otherOld same
    · obtain ⟨position, new, sent, rfl⟩ := Pusher.mem_newRows otherNew
      exact absurd same (apart old sent)
  · obtain ⟨position, new, sent, rfl⟩ := Pusher.mem_newRows new
    rcases otherMember with otherOld | otherNew
    · exact absurd same.symm (apart otherOld sent)
    · obtain ⟨place, rival, rivalSent, rfl⟩ := Pusher.mem_newRows otherNew
      have inside : position < (news.map NewJob.publicId).length := by
        rw [List.length_map]
        exact (List.getElem?_eq_some_iff.mp sent).1
      have samePosition : position = place := by
        apply (List.getElem?_inj inside distinct).mp
        rw [List.getElem?_map, List.getElem?_map, sent, rivalSent]
        exact congrArg some same
      subst samePosition
      rw [sent, Option.some.injEq] at rivalSent
      rw [rivalSent]

theorem Jobs.UniquePublicIds.step (unique : state.jobs.UniquePublicIds)
    (event : Event T) : (state.after event).jobs.UniquePublicIds := by
  by_cases inserts : ∃ runAt, event.statement.Inserts runAt
  · obtain ⟨runAt, inserts⟩ := inserts
    obtain ⟨news, inserted, _⟩ := inserts.insertsRows state.jobs event.now
    exact unique.insertAll inserted
  · have noInsert : ∀ runAt, ¬ event.statement.Inserts runAt :=
      fun runAt isInsert => inserts ⟨runAt, isInsert⟩
    intro row member other otherMember same
    obtain ⟨old, listed, sameId, samePublic⟩ :=
      exists_old_of_no_insert noInsert member
    obtain ⟨rival, rivalListed, rivalId, rivalPublic⟩ :=
      exists_old_of_no_insert noInsert otherMember
    have oneRow : old = rival := by
      apply unique old listed rival rivalListed
      rw [← samePublic, ← rivalPublic, same]
    subst oneRow
    exact Jobs.eq_of_id_eq member otherMember (sameId.symm.trans rivalId)

theorem uniquePublicIds_of_run {clock : Int} {finish : DbState}
    (run : Run (DbState.Step T) (DbState.initial clock) history finish) :
    finish.jobs.UniquePublicIds := by
  apply run.invariant fun state => state.jobs.UniquePublicIds
  · intro row member
    cases member
  · intro source event target unique taken
    rw [taken.2]
    exact unique.step event

end Traced

/-! ## What a handler gets -/

/-- `JobContext`. -/
structure JobContext where
  id : Nat
  publicId : Uuid
  idempotencyKey : Uuid
  queue : String
  attempt : Nat
  maxAttempts : Nat
  firstAttemptedAt : Int
  leaseToken : Uuid

/-- `Job::context`, what a handler is called with beside the payload. -/
def Job.context {T : Type} (job : Job T) : JobContext where
  id := job.id
  publicId := job.publicId
  idempotencyKey := job.publicId
  queue := job.queue
  attempt := job.attempts
  maxAttempts := job.maxAttempts
  firstAttemptedAt := job.firstAttemptedAt
  leaseToken := job.leaseToken

/-- The worker reads what the pusher writes. -/
def Codec.Reads {T : Type} (reader writer : Codec T) : Prop :=
  ∀ payload bytes, writer.encode payload = .ok bytes →
    reader.decode bytes = .value payload

/-- The job is what the worker made of the submission. -/
structure Submission.DeliveredTo {T : Type} (submission : Submission T)
    (worker : StartedWorker T) (job : Job T) : Prop where
  queue : submission.pusher.queue = worker.queue
  idempotencyKey : job.context.idempotencyKey = submission.publicId
  concurrencyKey : job.concurrencyKey = submission.concurrencyKey
  decoded : ∃ bytes,
    submission.pusher.codec.encode submission.payload = .ok bytes ∧
      worker.codec.decode bytes = .value job.payload
  payload : worker.codec.Reads submission.pusher.codec →
    job.payload = submission.payload

section Delivery

variable {T : Type} {fleet : Fleet T} {clock : Int} {state : FleetState T}
  {trace : List (Transition (FleetState T) (FleetLabel T))}

/-- Decoding a row that holds a submission. -/
theorem Submission.Fills.deliveredTo {submission : Submission T}
    {worker : StartedWorker T} {raw : RawClaimedRow} {job : Job T}
    (fills : submission.Fills raw.queue raw.publicId raw.concurrencyKey
      raw.payload)
    (ownQueue : raw.queue = worker.queue)
    (decoded : decodeRow worker.codec raw = .ok job) :
    submission.DeliveredTo worker job := by
  obtain ⟨payload, decodes, rfl⟩ := job_of_decodeRow decoded
  refine ⟨fills.queue.symm.trans ownQueue, fills.publicId,
    fills.concurrencyKey, ⟨_, fills.payload, decodes⟩, ?_⟩
  intro reads
  have value := reads _ _ fills.payload
  rw [decodes] at value
  cases value
  rfl

/-- The job of every task of a fleet goes back to a submission to the worker's
own queue, with its id, its key and its payload as the codecs of the two sides
carry it over. -/
theorem handlers_get_what_was_pushed
    (run : Run (FleetState.Step fleet) (fleet.initial clock) trace state)
    {index : Nat} {task : Entry T}
    (listed : task ∈ (state.worker index).entries) :
    ∃ submission : Submission T, submission.Pushed (statementsOf trace) ∧
      submission.DeliveredTo (fleet.worker index) task.job := by
  have traced := traced_of_run (FleetState.statement_run run)
  obtain ⟨raw, handedTo, decoded⟩ :=
    (FleetState.rooted_of_run run index).entries task listed
  obtain ⟨submission, pushed, fills⟩ := traced.returned raw handedTo.returned
  exact ⟨submission, pushed, fills.deliveredTo handedTo.queue decoded⟩

/-! ## One task for each attempt -/

/-- The tasks that the replicas have spawned. -/
def FleetState.tasks (state : FleetState T) (indices : List Nat) :
    List (Entry T) :=
  indices.flatMap fun index => (state.worker index).entries

theorem FleetState.Distinct.nodup_tasks (distinct : state.Distinct)
    {indices : List Nat} (apart : indices.Nodup) :
    ((state.tasks indices).map (·.job.lease)).Nodup := by
  have leases := distinct.nodup_flatMap (fun _ => true) apart
  simp only [List.filter_true] at leases
  rw [FleetState.tasks, List.map_flatMap]
  exact leases

/-- The job of a task was handed out by a claim of the history. -/
theorem FleetState.exists_claim
    (run : Run (FleetState.Step fleet) (fleet.initial clock) trace state)
    {indices : List Nat} {task : Entry T}
    (listed : task ∈ state.tasks indices) :
    ∃ claim ∈ claimHistory (statementsOf trace) task.job.id,
      claim.2.lease = task.job.lease ∧
        claim.2.attempts = task.job.attempts ∧
        claim.2.idempotencyKey = task.job.context.idempotencyKey := by
  obtain ⟨index, _, inIndex⟩ := List.mem_flatMap.mp listed
  obtain ⟨raw, handedTo, decoded⟩ := (rooted_of_run run index).entries task
    inIndex
  have onRecord := handedTo.returned
  rw [DbState.returned_of_run (statement_run run)] at onRecord
  obtain ⟨taken, member, claimed⟩ := List.mem_flatMap.mp onRecord
  obtain ⟨payload, _, sameJob⟩ := job_of_decodeRow decoded
  rw [sameJob]
  refine ⟨(taken.label.now, raw), ?_, rfl, rfl, rfl⟩
  · apply List.mem_flatMap.mpr
    refine ⟨taken, member, List.mem_map.mpr ⟨raw, ?_, rfl⟩⟩
    apply List.mem_filter.mpr
    exact ⟨claimed, by simp⟩

/-- Two claims of one row with one number are the same claim. -/
theorem Numbered.eq_of_attempts {claims : List (Int × RawClaimedRow)}
    (numbered : Numbered claims) {first second : Int × RawClaimedRow}
    (firstListed : first ∈ claims) (secondListed : second ∈ claims)
    (same : first.2.attempts = second.2.attempts) : first = second := by
  have distinct : (claims.map fun claim => claim.2.attempts).Nodup := by
    rw [numbered.attempts]
    exact List.nodup_range'
  exact List.inj_on_of_nodup_map distinct firstListed secondListed same

theorem Numbered.attempts_le {claims : List (Int × RawClaimedRow)}
    (numbered : Numbered claims) {claim : Int × RawClaimedRow}
    (listed : claim ∈ claims) :
    1 ≤ claim.2.attempts ∧ claim.2.attempts ≤ claims.length := by
  have number := List.mem_map_of_mem (f := fun claim => claim.2.attempts)
    listed
  rw [numbered.attempts, List.mem_range'_1] at number
  omega

/-- The claims of a fleet stay within its budgets. -/
theorem FleetState.claims_le
    (run : Run (FleetState.Step fleet) (fleet.initial clock) trace state)
    {limit : Nat} (bounded : ∀ index, (fleet.worker index).maxAttempts ≤ limit)
    (id : Nat) :
    (claimHistory (statementsOf trace) id).length ≤ limit := by
  have stamped : ∀ budget ∈ fleet.budgets, min budget i32Max ≤ limit := by
    rintro _ ⟨index, rfl⟩
    exact Nat.le_trans (Nat.min_le_left _ _) (bounded index)
  have atLeastOne := Nat.le_trans (fleet.maxAttemptsPos 0) (bounded 0)
  have kept := budgetKept_of_run fleet.budgets_pos stamped atLeastOne
    (database_run run)
  exact kept.claims id

/-- Two tasks of one job under one attempt are the same task. -/
theorem FleetState.eq_of_attempt
    (run : Run (FleetState.Step fleet) (fleet.initial clock) trace state)
    {indices : List Nat} (apart : indices.Nodup) {task rival : Entry T}
    (listed : task ∈ state.tasks indices)
    (rivalListed : rival ∈ state.tasks indices)
    (sameJob : task.job.id = rival.job.id)
    (sameAttempt : task.job.attempts = rival.job.attempts) : task = rival := by
  have recorded := claimsRecorded_of_run (statement_run run)
  obtain ⟨claim, claimed, lease, attempts, _⟩ := exists_claim run listed
  obtain ⟨other, otherClaimed, otherLease, otherAttempts, _⟩ :=
    exists_claim run rivalListed
  rw [sameJob] at claimed
  have sameClaim : claim = other := by
    apply (recorded.numbered _).eq_of_attempts claimed otherClaimed
    rw [attempts, otherAttempts, sameAttempt]
  apply List.inj_on_of_nodup_map ((distinct_of_run run).nodup_tasks apart)
    listed rivalListed
  rw [← lease, ← otherLease, sameClaim]

/-- No two tasks of a fleet have the same job under the same attempt, so that a
job is never given to more tasks than the largest `max_attempts` of the fleet,
whatever becomes of the workers. -/
theorem each_attempt_is_delivered_once
    (run : Run (FleetState.Step fleet) (fleet.initial clock) trace state)
    {indices : List Nat} (apart : indices.Nodup) {limit : Nat}
    (bounded : ∀ index, (fleet.worker index).maxAttempts ≤ limit) :
    ((state.tasks indices).map fun task =>
        (task.job.context.id, task.job.context.attempt)).Nodup ∧
      ∀ id, ((state.tasks indices).filter
        (·.job.context.id == id)).length ≤ limit := by
  have recorded := claimsRecorded_of_run (FleetState.statement_run run)
  have distinct : (state.tasks indices).Nodup :=
    ((FleetState.distinct_of_run run).nodup_tasks apart).of_map
  constructor
  · refine List.Nodup.map_on ?_ distinct
    intro task listed rival rivalListed same
    obtain ⟨sameJob, sameAttempt⟩ := Prod.mk.inj same
    exact FleetState.eq_of_attempt run apart listed rivalListed sameJob
      sameAttempt
  · intro id
    -- the attempts of the job are distinct numbers between 1 and the limit
    have numbers : (((state.tasks indices).filter
        (·.job.context.id == id)).map (·.job.context.attempt)).Nodup := by
      refine List.Nodup.map_on ?_ (distinct.filter _)
      intro task kept rival rivalKept sameAttempt
      obtain ⟨listed, ofJob⟩ := List.mem_filter.mp kept
      obtain ⟨rivalListed, rivalOfJob⟩ := List.mem_filter.mp rivalKept
      have sameJob := (beq_iff_eq.mp ofJob).trans (beq_iff_eq.mp rivalOfJob).symm
      exact FleetState.eq_of_attempt run apart listed rivalListed sameJob
        sameAttempt
    have within : ((state.tasks indices).filter
        (·.job.context.id == id)).map (·.job.context.attempt) ⊆
          List.range' 1 limit := by
      intro number member
      obtain ⟨task, kept, rfl⟩ := List.mem_map.mp member
      obtain ⟨claim, claimed, _, attempts, _⟩ :=
        FleetState.exists_claim run (List.mem_filter.mp kept).1
      have range := (recorded.numbered _).attempts_le claimed
      have few := FleetState.claims_le run bounded task.job.id
      have isNumber : task.job.context.attempt = task.job.attempts := rfl
      rw [List.mem_range'_1, isNumber]
      omega
    have shorter := (List.subperm_of_subset numbers within).length_le
    rwa [List.length_map, List.length_range'] at shorter

/-- All deliveries of a job come with the same key, and deliveries of two jobs
of the table come with different ones. -/
theorem idempotency_key_identifies_the_job
    (run : Run (FleetState.Step fleet) (fleet.initial clock) trace state)
    {index other : Nat} {task rival : Entry T}
    (listed : task ∈ (state.worker index).entries)
    (rivalListed : rival ∈ (state.worker other).entries) :
    (task.job.context.id = rival.job.context.id →
      task.job.context.idempotencyKey = rival.job.context.idempotencyKey) ∧
    ∀ row rivalRow, state.db.jobs.find task.job.context.id = some row →
      state.db.jobs.find rival.job.context.id = some rivalRow →
      task.job.context.idempotencyKey = rival.job.context.idempotencyKey →
        task.job.context.id = rival.job.context.id := by
  have recorded := claimsRecorded_of_run (FleetState.statement_run run)
  have inTasks {place : Nat} {entry : Entry T}
      (member : entry ∈ (state.worker place).entries) :
      entry ∈ state.tasks [place] := by
    simpa [FleetState.tasks] using member
  obtain ⟨claim, claimed, _, _, key⟩ :=
    FleetState.exists_claim run (inTasks listed)
  obtain ⟨rivalClaim, rivalClaimed, _, _, rivalKey⟩ :=
    FleetState.exists_claim run (inTasks rivalListed)
  constructor
  · intro sameJob
    have sameId : task.job.id = rival.job.id := sameJob
    rw [sameId] at claimed
    rw [← key, ← rivalKey]
    exact (recorded.numbered _).oneKey _ claimed _ rivalClaimed
  · intro row rivalRow found rivalFound sameKey
    have unique := uniquePublicIds_of_run (FleetState.statement_run run)
    obtain ⟨stored, rowId⟩ := Jobs.find_eq_some_iff.mp found
    obtain ⟨rivalStored, rivalRowId⟩ := Jobs.find_eq_some_iff.mp rivalFound
    have onRow := (recorded.recorded _ _ found).key claim claimed
    have onRival := (recorded.recorded _ _ rivalFound).key rivalClaim
      rivalClaimed
    rw [← rowId, ← rivalRowId]
    apply congrArg Row.id
    apply unique row stored rivalRow rivalStored
    rw [← onRow, ← onRival, key, rivalKey, sameKey]

end Delivery

namespace TwoReplicas

theorem first_task :
    Entry.spawned (job 1 ⟨1⟩ 11) ∈ (rivals.worker 0).entries :=
  List.mem_cons_self

theorem second_task :
    Entry.spawned (job 2 ⟨2⟩ 31) ∈ (rivals.worker 1).entries :=
  List.mem_cons_self

end TwoReplicas

theorem handlers_get_what_was_pushed_on_rivals :
    ∃ trace, Run (FleetState.Step TwoReplicas.fleet)
        (TwoReplicas.fleet.initial 0) trace TwoReplicas.rivals ∧
      ∃ submission : Submission Unit, submission.Pushed (statementsOf trace) ∧
        submission.DeliveredTo OneSlot.worker (TwoReplicas.job 2 ⟨2⟩ 31) := by
  obtain ⟨trace, run⟩ := TwoReplicas.run_rivals
  exact ⟨trace, run,
    handlers_get_what_was_pushed run TwoReplicas.second_task⟩

theorem each_attempt_is_delivered_once_on_rivals :
    ((TwoReplicas.rivals.tasks [0, 1]).map fun task =>
        (task.job.context.id, task.job.context.attempt)) =
          [(1, 1), (1, 2)] ∧
      ((TwoReplicas.rivals.tasks [0, 1]).filter
        (·.job.context.id == 1)).length ≤ 2 := by
  obtain ⟨trace, run⟩ := TwoReplicas.run_rivals
  have apart : ([0, 1] : List Nat).Nodup := by decide
  have budget (index : Nat) :
      (TwoReplicas.fleet.worker index).maxAttempts ≤ 2 := Nat.le_refl 2
  refine ⟨by decide, ?_⟩
  exact (each_attempt_is_delivered_once run apart budget).2 1

theorem idempotency_key_identifies_on_rivals :
    ∃ trace, Run (FleetState.Step TwoReplicas.fleet)
        (TwoReplicas.fleet.initial 0) trace TwoReplicas.rivals ∧
      (TwoReplicas.job 1 ⟨1⟩ 11).context.idempotencyKey =
        (TwoReplicas.job 2 ⟨2⟩ 31).context.idempotencyKey := by
  obtain ⟨trace, run⟩ := TwoReplicas.run_rivals
  exact ⟨trace, run, (idempotency_key_identifies_the_job run
    TwoReplicas.first_task TwoReplicas.second_task).1 rfl⟩

end PgWorkQueue
