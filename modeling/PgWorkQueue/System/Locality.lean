import PgWorkQueue.Client.Binding
import PgWorkQueue.Library.Footprint
import PgWorkQueue.System.Execution

/-!
# What a statement reads and writes

Claims, marks and reaps are UPDATEs: they keep the ids of the table, their
order and the queue of every row.  A claim and a reap read and write rows of
their queue only; a mark reads and writes the one row whose id it carries.  In
the terms of `Library.Footprint` each of them is local to a region, which
depends on the table only through the queue of each id.
-/

namespace PgWorkQueue

open Library.Footprint

/-! ## The table as shape and contents -/

/-- What no UPDATE changes: the ids with their queues, and the sequence. -/
structure Jobs.Shape where
  queues : List (Nat × String)
  nextId : Nat

namespace Jobs

def shape (jobs : Jobs) : Shape where
  queues := jobs.rows.map fun row => (row.id, row.queue)
  nextId := jobs.nextId

theorem rows_ext {left right : List Row}
    (distinct : (left.map Row.id).Nodup)
    (sameIds : left.map Row.id = right.map Row.id)
    (sameRows : ∀ id, Library.KeyedRows.lookup Row.id id left =
      Library.KeyedRows.lookup Row.id id right) :
    left = right := by
  have distinctRight : (right.map Row.id).Nodup := sameIds ▸ distinct
  apply List.ext_getElem
  · simpa using congrArg List.length sameIds
  · intro index inLeft inRight
    have sameId : (left[index]).id = (right[index]).id := by
      have := congrArg (fun ids => ids[index]?) sameIds
      simpa [inLeft, inRight] using this
    have foundLeft := Library.KeyedRows.lookup_eq_some_of_mem distinct
      (List.getElem_mem inLeft)
    have foundRight := Library.KeyedRows.lookup_eq_some_of_mem distinctRight
      (List.getElem_mem inRight)
    rw [sameRows, sameId, foundRight] at foundLeft
    exact (Option.some.inj foundLeft).symm

/-- The table, seen row by row. -/
def view : View Jobs Shape Nat (Option Row) where
  shape := shape
  read := find
  ext := by
    intro left right sameShape sameRows
    obtain ⟨leftRows, leftNext, leftDistinct, leftDrawn⟩ := left
    obtain ⟨rightRows, rightNext, rightDistinct, rightDrawn⟩ := right
    have sameNext : leftNext = rightNext := congrArg Shape.nextId sameShape
    have sameIds : leftRows.map Row.id = rightRows.map Row.id := by
      simpa [shape, Function.comp_def] using congrArg
        (fun kept => kept.queues.map Prod.fst) sameShape
    have sameList : leftRows = rightRows :=
      rows_ext leftDistinct sameIds sameRows
    subst sameNext sameList
    rfl

/-- The ids of a queue. -/
def Shape.holds (queue : String) (kept : Shape) (id : Nat) : Prop :=
  (id, queue) ∈ kept.queues

theorem holds_of_mem {jobs : Jobs} {row : Row} (member : row ∈ jobs.rows) :
    jobs.shape.holds row.queue row.id :=
  List.mem_map.mpr ⟨row, member, rfl⟩

theorem queue_of_holds {jobs : Jobs} {queue : String} {id : Nat} {row : Row}
    (holds : jobs.shape.holds queue id) (found : jobs.find id = some row) :
    row.queue = queue := by
  obtain ⟨stored, member, same⟩ := List.mem_map.mp holds
  simp only [Prod.mk.injEq] at same
  have storedFound := find_eq_some_iff.mpr ⟨member, same.1⟩
  rw [found] at storedFound
  cases storedFound
  exact same.2

/-- The rows of a queue. -/
def queueRows (queue : String) (jobs : Jobs) : List Row :=
  jobs.rows.filter fun row => row.queue == queue

/-- Two tables of one shape that agree on a queue have the same rows of that
queue, in the same order. -/
theorem queueRows_congr {left right : Jobs} {queue : String}
    (sameShape : left.shape = right.shape)
    (agree : ∀ id, left.shape.holds queue id → left.find id = right.find id) :
    queueRows queue left = queueRows queue right := by
  have sameQueues : left.rows.map (fun row => (row.id, row.queue)) =
      right.rows.map (fun row => (row.id, row.queue)) :=
    congrArg Shape.queues sameShape
  have sameRows : ∀ row ∈ left.rows, ∀ other ∈ right.rows,
      row.id = other.id → row.queue = queue → row = other := by
    intro row member other otherMember sameId inQueue
    have found := agree row.id (inQueue ▸ holds_of_mem member)
    rw [find_id_of_mem member, sameId, find_id_of_mem otherMember] at found
    exact Option.some.inj found
  unfold queueRows
  clear agree sameShape
  -- Both lists are walked together; they have the same ids and queues.
  generalize left.rows = rows at sameQueues sameRows
  generalize right.rows = others at sameQueues sameRows
  induction rows generalizing others with
  | nil =>
      rw [List.map_nil, List.nil_eq, List.map_eq_nil_iff] at sameQueues
      rw [sameQueues]
  | cons row rows walked =>
      cases others with
      | nil => cases sameQueues
      | cons other others =>
          simp only [List.map_cons, List.cons.injEq, Prod.mk.injEq] at sameQueues
          obtain ⟨⟨sameId, sameQueue⟩, later⟩ := sameQueues
          have tails := walked others later fun first inRows second inOthers =>
            sameRows first (List.mem_cons_of_mem _ inRows) second
              (List.mem_cons_of_mem _ inOthers)
          by_cases inQueue : row.queue = queue
          · have same := sameRows row List.mem_cons_self other
              List.mem_cons_self sameId inQueue
            subst same
            simp only [List.filter_cons, tails]
          · have otherOut : other.queue ≠ queue := sameQueue ▸ inQueue
            simp only [List.filter_cons, beq_eq_false_iff_ne.mpr inQueue,
              beq_eq_false_iff_ne.mpr otherOut, Bool.false_eq_true, if_false,
              tails]

/-! ## UPDATEs -/

section Update

variable {now : Int} {selected : Row → Bool}
  {set : Row → Except SqlError Row}

theorem bind_pure_eq_error_iff {outcome : Except SqlError (List Row)}
    {finish : List Row → List Row} {failure : SqlError} :
    (outcome >>= fun found => pure (finish found)) = .error failure ↔
      outcome = .error failure := by
  cases outcome with
  | error _ => exact Iff.rfl
  | ok _ =>
      constructor
      · intro impossible
        cases impossible
      · intro impossible
        cases impossible

/-- Only the selected rows decide whether an UPDATE fails, and how. -/
theorem mapM_updateSelected_eq_error_iff (rows : List Row)
    (failure : SqlError) :
    rows.mapM (updateSelected now selected set) = .error failure ↔
      (rows.filter selected).mapM (updateRow now set) = .error failure := by
  induction rows with
  | nil => rfl
  | cons row rows later =>
      rw [List.mapM_cons, List.filter_cons]
      by_cases chosen : selected row = true
      · rw [if_pos chosen, List.mapM_cons, updateSelected, if_pos chosen]
        cases updateRow now set row with
        | error refused => rfl
        | ok new =>
            exact bind_pure_eq_error_iff.trans
              (later.trans bind_pure_eq_error_iff.symm)
      · rw [if_neg chosen, updateSelected, if_neg chosen]
        exact bind_pure_eq_error_iff.trans later

theorem update_eq_error_iff {jobs : Jobs} {failure : SqlError} :
    jobs.update now selected set = .error failure ↔
      (jobs.rows.filter selected).mapM (updateRow now set) =
        .error failure := by
  rw [← mapM_updateSelected_eq_error_iff]
  unfold update
  split
  · rename_i refused
    rw [refused]
    simp only [Except.error.injEq]
  · rename_i written
    constructor
    · intro impossible
      cases impossible
    · intro refused
      rw [written] at refused
      cases refused

/-- An UPDATE that leaves the queues alone keeps the shape. -/
theorem shape_of_update {jobs updated : Jobs}
    (keepsQueue : ∀ row new, set row = .ok new → new.queue = row.queue)
    (outcome : jobs.update now selected set = .ok updated) :
    updated.shape = jobs.shape := by
  obtain ⟨replaced, sequence⟩ := mapM_of_update outcome
  have kept : ∀ row new, updateSelected now selected set row = .ok new →
      (new.id, new.queue) = (row.id, row.queue) := by
    intro row new written
    have sameId := updateSelected_id row new written
    unfold updateSelected at written
    split at written
    · obtain ⟨version, isSet, _, _, rfl, _⟩ := updateRow_eq_ok_iff.mp written
      exact Prod.ext sameId (keepsQueue row version isSet)
    · cases written
      rfl
  simp only [shape, sequence,
    Library.KeyedRows.map_key_eq_of_mapM kept replaced]

/-- UPDATEs that select the same rows fail alike, or do the same to every row
the two tables share. -/
theorem update_congr {left right : Jobs} {other : Row → Bool}
    (sameRows : left.rows.filter selected = right.rows.filter other) :
    (∃ failure, left.update now selected set = .error failure ∧
      right.update now other set = .error failure) ∨
    ∃ leftAfter rightAfter,
      left.update now selected set = .ok leftAfter ∧
      right.update now other set = .ok rightAfter ∧
      ∀ id, left.find id = right.find id →
        leftAfter.find id = rightAfter.find id := by
  cases leftResult : left.update now selected set with
  | error failure =>
      have refused := update_eq_error_iff.mp leftResult
      rw [sameRows] at refused
      exact .inl ⟨failure, rfl, update_eq_error_iff.mpr refused⟩
  | ok leftAfter =>
      cases rightResult : right.update now other set with
      | error failure =>
          have refused := update_eq_error_iff.mp rightResult
          rw [← sameRows] at refused
          rw [update_eq_error_iff.mpr refused] at leftResult
          cases leftResult
      | ok rightAfter =>
          refine .inr ⟨leftAfter, rightAfter, rfl, rfl, ?_⟩
          intro id agree
          cases found : left.find id with
          | none =>
              rw [find_update_of_none leftResult found,
                find_update_of_none rightResult (agree ▸ found)]
          | some row =>
              have foundRight : right.find id = some row := agree ▸ found
              have sameChoice : selected row = other row := by
                have inLeft := (find_eq_some_iff.mp found).1
                have inRight := (find_eq_some_iff.mp foundRight).1
                have both : row ∈ left.rows.filter selected ↔
                    row ∈ right.rows.filter other := by rw [sameRows]
                simp only [List.mem_filter, inLeft, inRight, true_and] at both
                exact Bool.eq_iff_iff.mpr both
              rcases find_update_of_some leftResult found with
                ⟨chosen, new, written, after⟩ | ⟨skipped, after⟩
              · rcases find_update_of_some rightResult foundRight with
                  ⟨_, newRight, writtenRight, afterRight⟩ | ⟨skipped, _⟩
                · rw [written] at writtenRight
                  cases writtenRight
                  rw [after, afterRight]
                · rw [← sameChoice, chosen] at skipped
                  cases skipped
              · rcases find_update_of_some rightResult foundRight with
                  ⟨chosen, _⟩ | ⟨_, afterRight⟩
                · rw [← sameChoice, skipped] at chosen
                  cases chosen
                · rw [after, afterRight]

end Update

end Jobs

/-! ## Local statements -/

/-- An UPDATE of the rows a statement has chosen, with what it answers. -/
def updateStatement (now : Int) (chosen : Jobs → Row → Bool)
    (set : Row → Except SqlError Row) (answer : Jobs → Jobs → Reply)
    (jobs : Jobs) : Jobs × Reply :=
  match jobs.update now (chosen jobs) set with
  | .error failure => (jobs, .failed failure)
  | .ok updated => (updated, answer jobs updated)

/-- Such a statement is local to a region that holds the rows it chooses and
that determines the choice and the answer. -/
theorem local_updateStatement {now : Int} {chosen : Jobs → Row → Bool}
    {set : Row → Except SqlError Row} {answer : Jobs → Jobs → Reply}
    {region : Jobs.Shape → Nat → Prop}
    (keepsQueue : ∀ row new, set row = .ok new → new.queue = row.queue)
    (inside : ∀ jobs, ∀ row ∈ jobs.rows, chosen jobs row = true →
      region jobs.shape row.id)
    (determined : ∀ left right : Jobs, left.shape = right.shape →
      (∀ id, region left.shape id → left.find id = right.find id) →
      left.rows.filter (chosen left) = right.rows.filter (chosen right) ∧
        ∀ leftAfter rightAfter : Jobs,
          (∀ id, region left.shape id →
            leftAfter.find id = rightAfter.find id) →
          answer left leftAfter = answer right rightAfter) :
    Local Jobs.view region (updateStatement now chosen set answer) where
  shape := by
    intro jobs
    unfold updateStatement
    split
    · rfl
    · rename_i outcome
      exact Jobs.shape_of_update keepsQueue outcome
  frame := by
    intro jobs id outside
    unfold updateStatement
    split
    · rfl
    · rename_i updated outcome
      change updated.find id = jobs.find id
      cases found : jobs.find id with
      | none => exact Jobs.find_update_of_none outcome found
      | some row =>
          rcases Jobs.find_update_of_some outcome found with
            ⟨isChosen, _⟩ | ⟨_, same⟩
          · obtain ⟨member, rfl⟩ := Jobs.find_eq_some_iff.mp found
            exact absurd (inside jobs row member isChosen) outside
          · exact same
  reads := by
    intro left right sameShape agree
    obtain ⟨sameRows, sameAnswer⟩ := determined left right sameShape agree
    rcases (Jobs.update_congr sameRows :
      (∃ failure, left.update now (chosen left) set = .error failure ∧ _) ∨ _)
      with ⟨failure, leftFailed, rightFailed⟩ |
      ⟨leftAfter, rightAfter, leftDone, rightDone, shared⟩
    · simp only [updateStatement, leftFailed, rightFailed]
      exact ⟨trivial, agree⟩
    · have after : ∀ id, region left.shape id →
          leftAfter.find id = rightAfter.find id :=
        fun id within => shared id (agree id within)
      simp only [updateStatement, leftDone, rightDone]
      exact ⟨sameAnswer leftAfter rightAfter after, after⟩

section Marks

variable {T : Type} {now : Int} {id : Nat} {token : Uuid} {mark : Mark}

theorem filter_leasedUnder (jobs : Jobs) :
    jobs.rows.filter (Row.leasedUnder id token) =
      ((jobs.find id).filter (Row.leasedUnder id token)).toList := by
  have pinned : jobs.rows.filter (Row.leasedUnder id token) =
      (jobs.rows.filter fun row => row.id == id).filter
        (Row.leasedUnder id token) := by
    rw [List.filter_filter]
    apply List.filter_congr
    intro row _
    cases leased : row.leasedUnder id token with
    | false => rfl
    | true => simp [(Row.leasedUnder_iff.mp leased).1]
  rw [pinned]
  cases found : jobs.find id with
  | none =>
      have none : (jobs.rows.filter fun row => row.id == id) = [] := by
        rw [List.filter_eq_nil_iff]
        intro row member same
        have stored := Jobs.find_eq_some_iff.mpr ⟨member, by simpa using same⟩
        rw [found] at stored
        cases stored
      rw [none]
      rfl
  | some row =>
      obtain ⟨member, rfl⟩ := Jobs.find_eq_some_iff.mp found
      rw [Library.KeyedRows.filter_key_eq_singleton jobs.distinct member]
      cases leased : row.leasedUnder row.id token with
      | false => simp [Option.filter, leased]
      | true => simp [Option.filter, leased]

theorem Mark.queue_of_set {row new : Row} (isSet : mark.set now row = .ok new) :
    new.queue = row.queue := by
  rcases Mark.set_eq now mark row with overflow | version
  · rw [overflow] at isSet
    cases isSet
  · rw [version] at isSet
    cases isSet
    cases mark with
    | done => rfl
    | retry _ _ => rfl
    | dead _ => rfl

theorem execute_mark_eq
    (sent : ∀ jobs, mark.execute jobs now id token =
      updateLeased jobs now id token (mark.set now)) (jobs : Jobs) :
    execute (T := T) jobs now (.mark id token mark) =
      updateStatement now (fun _ => Row.leasedUnder id token) (mark.set now)
        (fun before _ =>
          .affected (before.rows.countP (Row.leasedUnder id token)))
        jobs := by
  simp only [execute, sent, updateLeased, updateStatement]
  cases jobs.update now (Row.leasedUnder id token) (mark.set now) with
  | error failure => rfl
  | ok updated => rfl

/-- A mark reads and writes the row whose id it carries. -/
theorem local_mark :
    Local Jobs.view (fun _ location => location = id)
      (fun jobs => execute (T := T) jobs now (.mark id token mark)) := by
  rcases Mark.execute_uniform now id token mark with refused | sent
  · have constant : (fun jobs => execute (T := T) jobs now
        (.mark id token mark)) =
        fun jobs => (jobs, .failed .characterNotInRepertoire) := by
      funext jobs
      simp only [execute, refused, commitOr]
    rw [constant]
    exact Local.unchanged _ _ _
  · rw [funext (execute_mark_eq sent)]
    apply local_updateStatement
    · intro row new isSet
      exact Mark.queue_of_set isSet
    · intro jobs row _ leased
      exact (Row.leasedUnder_iff.mp leased).1
    · intro left right _ agree
      have sameRows : left.rows.filter (Row.leasedUnder id token) =
          right.rows.filter (Row.leasedUnder id token) := by
        rw [filter_leasedUnder, filter_leasedUnder, agree id rfl]
      refine ⟨sameRows, ?_⟩
      intro _ _ _
      rw [List.countP_eq_length_filter, List.countP_eq_length_filter, sameRows]

end Marks

section Claims

variable {T : Type} {now : Int} {gen : Nat → Uuid}
  {lockedElsewhere : Nat → Bool} {params : ClaimParams}

/-- Filtering for what implies the queue is filtering the rows of the queue. -/
theorem filter_eq_filter_queueRows {jobs : Jobs} {queue : String}
    {test : Row → Bool}
    (implies : ∀ row ∈ jobs.rows, test row = true → row.queue = queue) :
    jobs.rows.filter test = (jobs.queueRows queue).filter test := by
  rw [Jobs.queueRows, List.filter_filter]
  apply List.filter_congr
  intro row member
  cases passes : test row with
  | false => rfl
  | true => simp [implies row member passes]

theorem queue_of_runnable {row : Row} {queue : String}
    (runnable : row.runnable queue now = true) : row.queue = queue :=
  (Row.runnable_iff.mp runnable).1

/-- What a claim chooses is determined by the rows of its queue. -/
theorem chosenRows_congr {left right : Jobs}
    (sameRows : left.queueRows params.queue = right.queueRows params.queue) :
    chosenRows left now lockedElsewhere params =
      chosenRows right now lockedElsewhere params := by
  have filtered (test : Row → Bool)
      (implies : ∀ row, test row = true →
        row.runnable params.queue now = true) :
      left.rows.filter test = right.rows.filter test := by
    have queue : ∀ row, test row = true → row.queue = params.queue :=
      fun row passes => queue_of_runnable (implies row passes)
    rw [filter_eq_filter_queueRows fun row _ => queue row,
      filter_eq_filter_queueRows fun row _ => queue row, sameRows]
  have eligible (limit : Nat) (hr : List (String × Nat)) :
      eligibleIds left now params.queue limit hr =
        eligibleIds right now params.queue limit hr := by
    have keyed (entry : String × Nat) := filtered
      (fun row => row.runnable params.queue now &&
        row.concurrencyKey == some entry.1) fun row passes =>
          (Bool.and_eq_true_iff.mp passes).1
    have unlimited := filtered
      (fun row => row.runnable params.queue now && unmatched hr row)
      fun row passes => (Bool.and_eq_true_iff.mp passes).1
    simp only [eligibleIds, eligibleKeyed, eligibleOfKey, eligibleUnlimited,
      keyed, unlimited]
  have lockable (limit : Nat) (hr : List (String × Nat)) :
      left.rows.filter
          (Row.lockable (eligibleIds left now params.queue limit hr) now) =
        right.rows.filter
          (Row.lockable (eligibleIds right now params.queue limit hr) now) := by
    have inQueue (jobs : Jobs) : ∀ row ∈ jobs.rows,
        row.lockable (eligibleIds jobs now params.queue limit hr) now = true →
          row.queue = params.queue :=
      fun row stored passes =>
        queue_of_runnable (runnable_of_lockable stored passes)
    rw [filter_eq_filter_queueRows (inQueue left),
      filter_eq_filter_queueRows (inQueue right), sameRows, eligible]
  unfold chosenRows claimedCte lockedCte
  rw [filtered _ fun row runnable => runnable, lockable]

/-- The UPDATE of a claim whose parameters are accepted. -/
def claimUpdate (now : Int) (gen : Nat → Uuid) (lockedElsewhere : Nat → Bool)
    (params : ClaimParams) (leaseMicros : Int) : Jobs → Jobs × Reply :=
  updateStatement now
    (fun jobs row =>
      ((chosenRows jobs now lockedElsewhere params).map Row.id).contains row.id)
    (claimSet now gen leaseMicros (min params.maxAttempts i32Max : Nat))
    (fun jobs _ => .claimed ((chosenRows jobs now lockedElsewhere params).map
      (claimedRaw now gen leaseMicros (min params.maxAttempts i32Max : Nat))))

theorem execute_claim_of_accepted {leaseMicros : Int}
    (queueText : '\x00' ∉ params.queue.toList)
    (interval : intervalParam params.leaseTimeout = .ok leaseMicros)
    (accepted : HeadroomAccepted params.headroom) (jobs : Jobs) :
    execute (T := T) jobs now (.claim params gen lockedElsewhere) =
      claimUpdate now gen lockedElsewhere params leaseMicros jobs := by
  have choice : Chosen jobs now lockedElsewhere params.queue _ _ :=
    chosen_chosenRows
  cases update : jobs.update now
      (fun row => ((chosenRows jobs now lockedElsewhere params).map
        Row.id).contains row.id)
      (claimSet now gen leaseMicros
        (min params.maxAttempts i32Max : Nat)) with
  | error failure =>
      have failed : updateChosen jobs now gen leaseMicros
          (min params.maxAttempts i32Max : Nat)
          (chosenRows jobs now lockedElsewhere params) = .error failure := by
        rw [updateChosen, update]
        rfl
      simp only [execute, claimBatchRaw, failed, bind, Except.bind, commitOr,
        claimStatement_of_accepted queueText interval accepted, claimUpdate,
        updateStatement, update]
  | ok updated =>
      obtain ⟨rows, done⟩ : ∃ rows, updateChosen jobs now gen leaseMicros
          (min params.maxAttempts i32Max : Nat)
          (chosenRows jobs now lockedElsewhere params) =
            .ok (updated, rows) := by
        rw [updateChosen, update]
        exact ⟨_, rfl⟩
      have read := claimBatchRaw_of_update choice.stored
        (claimStatement_of_accepted queueText interval accepted) done
      simp only [execute, read, commitOr, claimUpdate, updateStatement, update]

theorem exists_hrCte_eq_error {headroom : HashMap Nat}
    (refused : ¬ HeadroomAccepted headroom) :
    headroom.entries.isEmpty = false ∧
      ∃ failure, hrCte headroom = .error failure := by
  constructor
  · by_contra empty
    apply refused
    intro key room found
    have member := lookup_eq_some_iff_mem_entries.mp found
    simp only [Bool.not_eq_false, List.isEmpty_iff] at empty
    rw [empty] at member
    cases member
  · cases cast : hrCte headroom with
    | error failure => exact ⟨failure, rfl⟩
    | ok hr => exact absurd (hrCte_eq_ok_iff.mp cast).1 refused

/-- Whether the parameters of a claim are accepted does not depend on the
table. -/
theorem execute_claim_uniform (T : Type) (now : Int) (gen : Nat → Uuid)
    (lockedElsewhere : Nat → Bool) (params : ClaimParams) :
    (∃ failure, ∀ jobs, execute (T := T) jobs now
        (.claim params gen lockedElsewhere) = (jobs, .failed failure)) ∨
    ∃ leaseMicros, ∀ jobs, execute (T := T) jobs now
        (.claim params gen lockedElsewhere) =
      claimUpdate now gen lockedElsewhere params leaseMicros jobs := by
  by_cases nul : '\x00' ∈ params.queue.toList
  · left
    refine ⟨.characterNotInRepertoire, fun jobs => ?_⟩
    simp only [execute, claimBatchRaw, claimStatement, textParam, if_pos nul,
      bind, Except.bind, commitOr]
  cases interval : intervalParam params.leaseTimeout with
  | error failure =>
      left
      refine ⟨failure, fun jobs => ?_⟩
      simp only [execute, claimBatchRaw, claimStatement, textParam, if_neg nul,
        interval, bind, Except.bind, commitOr]
  | ok leaseMicros =>
      by_cases accepted : HeadroomAccepted params.headroom
      · exact .inr ⟨leaseMicros, execute_claim_of_accepted nul interval accepted⟩
      · left
        obtain ⟨nonempty, failure, refused⟩ := exists_hrCte_eq_error accepted
        refine ⟨failure, fun jobs => ?_⟩
        simp only [execute, claimBatchRaw, claimStatement, textParam,
          if_neg nul, interval, nonempty, sqlKeyed, refused, bind, Except.bind,
          commitOr, Bool.false_eq_true, if_false]

/-- A claim reads and writes the rows of its queue. -/
theorem local_claim :
    Local Jobs.view (Jobs.Shape.holds params.queue)
      (fun jobs => execute (T := T) jobs now
        (.claim params gen lockedElsewhere)) := by
  rcases execute_claim_uniform T now gen lockedElsewhere params with
    ⟨failure, refused⟩ | ⟨leaseMicros, sent⟩
  · rw [funext refused]
    exact Local.unchanged _ _ _
  · rw [funext sent]
    have inQueue (jobs : Jobs) : ∀ row ∈ jobs.rows,
        ((chosenRows jobs now lockedElsewhere params).map
          Row.id).contains row.id = true → row.queue = params.queue := by
      intro row member chosen
      have choice : Chosen jobs now lockedElsewhere params.queue _ _ :=
        chosen_chosenRows
      obtain ⟨other, isChosen, sameId⟩ :=
        List.mem_map.mp (List.contains_iff_mem.mp chosen)
      have same := Jobs.eq_of_id_eq (choice.stored other isChosen) member sameId
      exact queue_of_runnable (same ▸ choice.runnable other isChosen)
    apply local_updateStatement
    · intro row new isSet
      obtain ⟨_, _, rfl⟩ := claimSet_eq_ok_iff.mp isSet
      rfl
    · intro jobs row member chosen
      exact inQueue jobs row member chosen ▸ Jobs.holds_of_mem member
    · intro left right sameShape agree
      have sameRows := Jobs.queueRows_congr sameShape agree
      have sameChoice : chosenRows left now lockedElsewhere params =
          chosenRows right now lockedElsewhere params :=
        chosenRows_congr sameRows
      refine ⟨?_, fun _ _ _ => by rw [sameChoice]⟩
      rw [filter_eq_filter_queueRows (inQueue left),
        filter_eq_filter_queueRows (inQueue right), sameRows, sameChoice]

end Claims

section Reaps

variable {T : Type} {now : Int} {queue : String} {batchLimit : Nat}
  {tie : Nat → Nat} {lockedElsewhere : Nat → Bool}

/-- The rows a reap takes, in the order of the CTE. -/
def reapedRows (now : Int) (queue : String) (batchLimit : Nat)
    (tie : Nat → Nat) (lockedElsewhere : Nat → Bool) (jobs : Jobs) :
    List Row :=
  staleCte jobs now tie lockedElsewhere queue (min batchLimit i32Max)

/-- The UPDATE of a reap whose queue name is accepted. -/
def reapUpdate (now : Int) (queue : String) (batchLimit : Nat)
    (tie : Nat → Nat) (lockedElsewhere : Nat → Bool) : Jobs → Jobs × Reply :=
  updateStatement now
    (fun jobs row =>
      ((reapedRows now queue batchLimit tie lockedElsewhere jobs).map
        Row.id).contains row.id && row.status == .running)
    (fun row => .ok (reapedVersion now row))
    (fun jobs updated => .reaped
      ((reapedRows now queue batchLimit tie lockedElsewhere jobs).filterMap
        fun row => (updated.find row.id).map ReapedRow.fromRow))

theorem execute_reap_uniform (T : Type) (now : Int) (queue : String)
    (batchLimit : Nat) (tie : Nat → Nat) (lockedElsewhere : Nat → Bool) :
    (∀ jobs, execute (T := T) jobs now
        (.reap queue batchLimit tie lockedElsewhere) =
      (jobs, .failed .characterNotInRepertoire)) ∨
    ∀ jobs, execute (T := T) jobs now
        (.reap queue batchLimit tie lockedElsewhere) =
      reapUpdate now queue batchLimit tie lockedElsewhere jobs := by
  by_cases nul : '\x00' ∈ queue.toList
  · left
    intro jobs
    simp only [execute, reap, textParam, if_pos nul, bind, Except.bind, commitOr]
  · right
    intro jobs
    simp only [execute, reap, textParam, if_neg nul, bind, Except.bind,
      reapUpdate, updateStatement, reapedRows]
    cases jobs.update now _ _ with
    | error failure => rfl
    | ok updated => rfl

theorem Row.stale_queue {row : Row} (stale : row.stale queue now = true) :
    row.queue = queue := by
  simp only [Row.stale, Bool.and_eq_true, beq_iff_eq] at stale
  exact stale.1.1

theorem reapedRows_congr {left right : Jobs}
    (sameRows : left.queueRows queue = right.queueRows queue) :
    reapedRows now queue batchLimit tie lockedElsewhere left =
      reapedRows now queue batchLimit tie lockedElsewhere right := by
  have inQueue (jobs : Jobs) : ∀ row ∈ jobs.rows,
      row.stale queue now = true → row.queue = queue :=
    fun _ _ stale => Row.stale_queue stale
  rw [reapedRows, reapedRows, staleCte, staleCte,
    filter_eq_filter_queueRows (inQueue left),
    filter_eq_filter_queueRows (inQueue right), sameRows]

/-- A reap reads and writes the rows of its queue. -/
theorem local_reap :
    Local Jobs.view (Jobs.Shape.holds queue)
      (fun jobs => execute (T := T) jobs now
        (.reap queue batchLimit tie lockedElsewhere)) := by
  rcases execute_reap_uniform T now queue batchLimit tie lockedElsewhere with
    refused | sent
  · rw [funext refused]
    exact Local.unchanged _ _ _
  · rw [funext sent]
    have stored (jobs : Jobs) :
        ∀ row ∈ reapedRows now queue batchLimit tie lockedElsewhere jobs,
          row ∈ jobs.rows ∧ row.queue = queue := by
      intro row member
      obtain ⟨inTable, stale⟩ := mem_of_mem_staleCte member
      exact ⟨inTable, Row.stale_queue stale⟩
    have inQueue (jobs : Jobs) : ∀ row ∈ jobs.rows,
        (((reapedRows now queue batchLimit tie lockedElsewhere jobs).map
          Row.id).contains row.id && row.status == .running) = true →
          row.queue = queue := by
      intro row member chosen
      obtain ⟨listed, _⟩ := Bool.and_eq_true_iff.mp chosen
      obtain ⟨other, isReaped, sameId⟩ :=
        List.mem_map.mp (List.contains_iff_mem.mp listed)
      obtain ⟨otherStored, otherQueue⟩ := stored jobs other isReaped
      exact Jobs.eq_of_id_eq otherStored member sameId ▸ otherQueue
    apply local_updateStatement
    · intro row new isSet
      cases isSet
      rfl
    · intro jobs row member chosen
      exact inQueue jobs row member chosen ▸ Jobs.holds_of_mem member
    · intro left right sameShape agree
      have sameRows := Jobs.queueRows_congr sameShape agree
      have sameChoice : reapedRows now queue batchLimit tie lockedElsewhere
          left = reapedRows now queue batchLimit tie lockedElsewhere right :=
        reapedRows_congr sameRows
      refine ⟨?_, ?_⟩
      · rw [filter_eq_filter_queueRows (inQueue left),
          filter_eq_filter_queueRows (inQueue right), sameRows, sameChoice]
      · intro leftAfter rightAfter after
        rw [sameChoice]
        congr 1
        apply List.filterMap_congr
        intro row member
        rw [← sameChoice] at member
        obtain ⟨inTable, inQueue⟩ := stored left row member
        rw [after row.id (inQueue ▸ Jobs.holds_of_mem inTable)]

end Reaps

end PgWorkQueue
