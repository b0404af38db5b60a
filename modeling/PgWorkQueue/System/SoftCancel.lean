import PgWorkQueue.System.ClaimBooks

/-!
# A soft cancel and the rows of the current claim

The `select!` around `claim_and_decode` may take its `cancelled()` arm after the
claim statement has moved rows to `running`: while the reply is on its way, and
while the `mark_dead` of a row that does not decode is awaited.  The rows of the
claim that were neither decoded into a task nor marked are then lost with the
future.  The same happens to the rows of a statement that was sent and is
executed after the loop has stopped waiting for it.  It happens as well when the
connection breaks before the reply arrives.

A row for which `mark_dead` was issued is not safe yet.  It stays `running` when
the future is dropped while the `mark_dead` waits for a connection, when no
connection is to be had or it breaks before the statement is executed, and when
Postgres rejects the statement; errors are only logged.  What has become of a
row is read off the table that the loop shares with others.
-/

namespace PgWorkQueue

open Library.Runs

/-! ## Rows that are left running -/

section Stranding

variable {T : Type}

/-- The row whose `mark_dead` waits for a connection. -/
def Phase.unsentMark : Phase T → List RawClaimedRow
  | marking _ raw _ _ => [raw]
  | _ => []

/-- The rows whose `mark_dead` ends in a step without having been executed: it
is dropped before it was sent, or there is no connection any more. -/
def unexecutedBy (taken : Transition (PollState T) PollLabel) :
    List RawClaimedRow :=
  match taken.label with
  | .stop | .abort => taken.source.phase.unsentMark
  | .refuseMark => taken.source.phase.burials
  | .loseOrphanMark => taken.source.orphanMark.toList
  | _ => []

/-- The rows whose `mark_dead` comes to nothing in a transition: it is not
executed, or Postgres rejects it. -/
def givenUpBy (taken : Transition (LoopState T) (LoopLabel T)) :
    List RawClaimedRow :=
  match taken.label with
  | .inside label =>
      unexecutedBy ⟨taken.source.loop, label, taken.target.loop⟩
  | .statement .executeMark event | .statement .executeOrphanMark event =>
      match taken.source.db.reply event with
      | .failed _ => taken.source.loop.burials
      | _ => []
  | _ => []

end Stranding

/-! ## The `mark_dead` under way -/

section Burials

variable {T : Type} {worker : Worker T} {state target : PollState T}
  {label : PollLabel} {raw : RawClaimedRow}

/-- Only a loop that has ended leaves a `mark_dead` in flight. -/
def PollState.OrphansAtEnd (state : PollState T) : Prop :=
  state.orphanMark = none ∨ state.phase = .exited

theorem PollState.OrphansAtEnd.exited (atEnd : state.OrphansAtEnd)
    (waiting : state.orphanMark = some raw) : state.phase = .exited := by
  refine atEnd.resolve_left fun noOrphan => ?_
  rw [noOrphan] at waiting
  cases waiting

theorem PollState.OrphansAtEnd.step (atEnd : state.OrphansAtEnd)
    (taken : PollState.Step worker state label target) :
    target.OrphansAtEnd := by
  have failed (fatal : Bool) :
      (state.claimFailed fatal).orphanMark = state.orphanMark := by
    unfold PollState.claimFailed
    split
    · rfl
    · split <;> rfl
  have succeeded (out : List (Job T)) :
      (state.claimSucceeded out).orphanMark = state.orphanMark := by
    unfold PollState.claimSucceeded
    split <;> rfl
  have stays (goesOn : state.phase ≠ .exited)
      (same : target.orphanMark = state.orphanMark) : target.OrphansAtEnd :=
    Or.inl (same.trans (atEnd.resolve_right goesOn))
  cases taken with
  | stop | abort => exact Or.inr rfl
  | executeOrphanMark | loseOrphanMark => exact Or.inl rfl
  | cancel | executeOrphan | endTask => exact atEnd
  | refuse permits headroom fatal inPhase =>
      refine stays ?_ (failed fatal)
      rcases inPhase with inPhase | inPhase
      · simp [inPhase]
      · simp [inPhase]
  | receiveError permits failure fatal inPhase =>
      exact stays (by simp [inPhase]) (failed fatal)
  | loseReply permits reply fatal inPhase =>
      exact stays (by simp [inPhase]) (failed fatal)
  | finishDecode permits out inPhase =>
      exact stays (by simp [inPhase]) (succeeded out)
  | _ =>
      refine atEnd.imp_right fun exited => ?_
      simp_all only [reduceCtorEq, or_self]

end Burials

/-! ## What becomes of the rows -/

section Rows

variable {T : Type} {worker : Worker T} {db : DbState}
  {state target finish : LoopState T} {label : LoopLabel T}
  {history trace : List (Transition (LoopState T) (LoopLabel T))}
  {raw : RawClaimedRow}

/-- The rows that the loop has in hand and those it has marked are on record,
and a `mark_dead` under way was issued. -/
structure Recorded
    (history : List (Transition (LoopState T) (LoopLabel T)))
    (state : LoopState T) : Prop where
  raws : ∀ raw ∈ state.loop.phase.raws, raw ∈ state.db.returned
  marked : ∀ raw ∈ (pollTrace history).flatMap markedRows,
    raw ∈ state.db.returned
  burials : ∀ raw ∈ state.loop.burials,
    raw ∈ (pollTrace history).flatMap markedRows
  atEnd : state.loop.OrphansAtEnd

theorem pollTrace_append
    (first second : List (Transition (LoopState T) (LoopLabel T))) :
    pollTrace (first ++ second) = pollTrace first ++ pollTrace second :=
  List.filterMap_append

theorem pollTrace_snoc
    (taken : Transition (LoopState T) (LoopLabel T)) :
    pollTrace (history ++ [taken]) =
      pollTrace history ++ (pollStep taken).toList := by
  have one : pollTrace [taken] = (pollStep taken).toList := by
    cases seen : pollStep taken with
    | none => exact List.filterMap_cons_none seen
    | some step => exact List.filterMap_cons_some seen
  rw [pollTrace_append, one]

/-- The record only grows, and a claim of the loop is on it. -/
theorem returned_of_step (taken : LoopState.Step worker state label target) :
    (∀ raw ∈ state.db.returned, raw ∈ target.db.returned) ∧
      ∀ raw ∈ target.loop.phase.raws,
        raw ∈ state.loop.phase.raws ∨ raw ∈ target.db.returned := by
  cases taken with
  | inside label loop taken offTable =>
      refine ⟨fun _ member => member, ?_⟩
      intro raw member
      refine Or.inl (raws_of_step taken ?_ member)
      rintro database rfl
      cases offTable
  | statement label loop event taken sends admits =>
      refine ⟨fun _ member => List.mem_append_left _ member, ?_⟩
      intro raw member
      exact (raws_of_sends taken sends member).imp_right
        (List.mem_append_right _)
  | other event admits =>
      exact ⟨fun _ member => List.mem_append_left _ member,
        fun _ member => Or.inl member⟩

theorem Recorded.step (recorded : Recorded history state)
    (taken : LoopState.Step worker state label target) :
    Recorded (history ++ [⟨state, label, target⟩]) target := by
  obtain ⟨grows, rawsGrow⟩ := returned_of_step taken
  have raws : ∀ raw ∈ target.loop.phase.raws, raw ∈ target.db.returned := by
    intro raw member
    rcases rawsGrow raw member with earlier | new
    · exact grows raw (recorded.raws raw earlier)
    · exact new
  rcases pollStep_of_step taken with ⟨pollLabel, seen, step⟩ | ⟨unseen, same⟩
  · refine ⟨raws, ?_, ?_, recorded.atEnd.step step⟩
    · intro raw member
      rw [pollTrace_snoc, seen, List.flatMap_append, Option.toList_some,
        List.flatMap_singleton] at member
      rcases List.mem_append.mp member with earlier | new
      · exact grows raw (recorded.marked raw earlier)
      · exact grows raw (recorded.raws raw (markedRows_subset _ new))
    · intro raw member
      rw [pollTrace_snoc, seen, List.flatMap_append, Option.toList_some,
        List.flatMap_singleton]
      rcases burials_of_step step member with earlier | new
      · exact List.mem_append_left _ (recorded.burials raw earlier)
      · exact List.mem_append_right _ new
  · have noMore : pollTrace (history ++ [⟨state, label, target⟩]) =
        pollTrace history := by
      rw [pollTrace_snoc, unseen]
      exact List.append_nil _
    refine ⟨raws, ?_, ?_, ?_⟩
    · intro raw member
      rw [noMore] at member
      exact grows raw (recorded.marked raw member)
    · intro raw member
      rw [noMore]
      rw [same] at member
      exact recorded.burials raw member
    · rw [same]
      exact recorded.atEnd

end Rows

/-! ## A batch with a row that does not decode

The first row of the batch does not decode.  While its `mark_dead` waits for a
connection the token fires. -/

/-- The labels that may lose rows. -/
def PollLabel.interrupts : PollLabel → Bool
  | .stop | .abort | .executeOrphan _ | .loseReply _ => true
  | _ => false

/-- A transition in which nothing can be lost. -/
def goesOn {T : Type} (taken : Transition (LoopState T) (LoopLabel T)) : Bool :=
  !taken.label.poll.any PollLabel.interrupts && (givenUpBy taken).isEmpty

namespace MixedBatch

def worker : Worker Unit :=
  { LimitedTick.worker with
    codec :=
      { encode := fun _ => .ok []
        decode := fun bytes =>
          if bytes = [0] then .failed "bad" else .value () }
    concurrencyLimits := ∅
    limitsAccepted := by
      intro key limit found
      cases found }

def table : Jobs where
  rows :=
    [{ KeyedTable.waitingRow 1 0 none with payload := [0] },
      KeyedTable.waitingRow 2 0 none]
  nextId := 3
  distinct := by decide
  drawn := by decide

def database : Database where
  jobs := table
  now := 5
  gen := fun id => ⟨id⟩
  lockedElsewhere := fun _ => false

/-- A row as the claim returns it. -/
def claimed (id : Nat) (payload : List UInt8) : RawClaimedRow where
  id := id
  publicId := ⟨id⟩
  queue := "mail"
  concurrencyKey := none
  payload := payload
  attempts := 1
  maxAttempts := 3
  firstAttemptedAt := 5
  leaseToken := ⟨id⟩
  leaseExpiresAt := 100005

/-- The `mark_dead` of the first row waits for a connection. -/
def marking : PollState Unit where
  phase := .marking [0, 1] (claimed 1 [0]) [claimed 2 []] []
  free := []
  tasks := []
  running := ∅
  shutdown := false
  consecutiveClaimErrors := 0
  lastFatal := false
  orphan := none
  orphanMark := none

def start : DbState := ⟨table, 0, []⟩

/-- Both rows are running. -/
def bothClaimed : DbState := start.after (database.claimEvent worker 2 ∅)

/-- The `cancelled()` arm is taken there. -/
theorem stops :
    ∃ later finish, Run (LoopState.Step worker) ⟨marking, bothClaimed⟩ later
        finish ∧
      (∀ taken ∈ later, taken.label.poll ≠ some .abort) ∧
      (pollTrace later).flatMap handedBy = [] ∧
      (pollTrace later).flatMap markedBy = [] ∧
      finish.loop.phase = .exited ∧ finish.db = bothClaimed ∧
      finish.loop.burials = [] := by
  have here : Run (LoopState.Step worker) ⟨marking, bothClaimed⟩ []
      ⟨marking, bothClaimed⟩ := Run.refl
  have cancelled := here.snoc (.inside _ _ _ (.cancel _) rfl)
  have stopped := cancelled.snoc (.inside _ _ _ (.stop _ rfl rfl) rfl)
  refine ⟨_, _, stopped, ?_, rfl, rfl, rfl, rfl, rfl⟩
  intro taken member
  rcases List.mem_append.mp member with first | second
  · rw [List.mem_singleton.mp first]
    intro isAbort
    cases isAbort
  · rw [List.mem_singleton.mp second]
    intro isAbort
    cases isAbort

def reason : String := fmtErrTrimmed "codec decode: bad"

end MixedBatch

end PgWorkQueue
