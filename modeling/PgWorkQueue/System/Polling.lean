import PgWorkQueue.Client.PollLoop
import PgWorkQueue.System.Fencing

/-!
# The poll loop beside its table

In `Client.PollLoop` a claim may find any table.  Here the loop runs beside one
table.  Its statements, the claims and the `mark_dead` of rows that do not
decode, find the rows that are there and leave them changed; between any two of
its steps others execute what statements they like.
-/

namespace PgWorkQueue

open Library.Runs

/-! ## The statements of the loop -/

/-- What is assumed of Postgres when it executes a statement: the clock does
not go back, and no token is drawn twice. -/
structure DbState.Admits {T : Type} (db : DbState) (event : Event T) :
    Prop where
  clock : db.clock ≤ event.now
  freshTokens : ((db.returned ++ (db.reply event).claimedRows).map
    RawClaimedRow.leaseToken).Nodup

/-- The claim that a worker sends. -/
def Database.claimEvent {T : Type} (database : Database) (worker : Worker T)
    (want : Nat) (headroom : HashMap Nat) : Event T where
  now := database.now
  statement := .claim (worker.claimParams want headroom) database.gen
    database.lockedElsewhere

/-- The `mark_dead` of a row that does not decode. -/
def RawClaimedRow.burialEvent (T : Type) (raw : RawClaimedRow)
    (reason : String) (now : Int) : Event T where
  now := now
  statement := .mark raw.id raw.leaseToken (.dead reason)

/-- The steps of the loop in which a statement is executed. -/
def PollLabel.executes : PollLabel → Bool
  | execute _ | executeOrphan _ | executeMark | executeOrphanMark => true
  | _ => false

/-- The statement that is executed in a step of the loop. -/
inductive Worker.Sends {T : Type} (worker : Worker T) (jobs : Jobs)
    (loop : PollState T) : PollLabel → Event T → Prop
  | claim (permits : List Nat) (headroom : HashMap Nat) (database : Database)
      (inPhase : loop.phase = .sent permits headroom)
      (shared : database.jobs = jobs) :
      Sends worker jobs loop (.execute database)
        (database.claimEvent worker permits.length headroom)
  | claimOrphan (want : Nat) (headroom : HashMap Nat) (database : Database)
      (waiting : loop.orphan = some (want, headroom))
      (shared : database.jobs = jobs) :
      Sends worker jobs loop (.executeOrphan database)
        (database.claimEvent worker want headroom)
  | bury (permits : List Nat) (raw : RawClaimedRow)
      (raws : List RawClaimedRow) (out : List (Job T)) (reason : String)
      (now : Int) (inPhase : loop.phase = .markSent permits raw raws out)
      (refused : decodeRow worker.codec raw = .error reason) :
      Sends worker jobs loop .executeMark (raw.burialEvent T reason now)
  | buryOrphan (raw : RawClaimedRow) (reason : String) (now : Int)
      (waiting : loop.orphanMark = some raw)
      (refused : decodeRow worker.codec raw = .error reason) :
      Sends worker jobs loop .executeOrphanMark (raw.burialEvent T reason now)

section Statements

variable {T : Type} {worker : Worker T} {db : DbState}

/-- The reply that the worker reads is the one the database gave. -/
theorem Database.claimedRows_claimEvent {database : Database} {want : Nat}
    {headroom : HashMap Nat} (permits : List Nat)
    (shared : database.jobs = db.jobs) :
    (db.reply (database.claimEvent worker want headroom)).claimedRows =
      (Phase.answered (T := T) permits
        (worker.claimReply want headroom database)).raws := by
  simp only [DbState.reply, Database.claimEvent, execute, Worker.claimReply,
    shared]
  cases claimBatchRaw db.jobs database.now database.gen
      database.lockedElsewhere (worker.claimParams want headroom) with
  | error failure => rfl
  | ok committed => rfl

/-- A worker claims rows of its own queue. -/
theorem Database.queue_of_claimEvent {database : Database} {want : Nat}
    {headroom : HashMap Nat} {raw : RawClaimedRow}
    (claimed : raw ∈ (db.reply (database.claimEvent worker want
      headroom)).claimedRows) :
    raw.queue = worker.queue := by
  obtain ⟨params, _, _, row, _, isClaim, _, runnable, _, rfl, _⟩ :=
    (claimedRows_spec _ _ _).2 raw claimed
  cases isClaim
  exact (Row.runnable_iff.mp runnable).1

/-- A `mark_dead` that fails changes nothing; otherwise the row no longer runs
under the token. -/
theorem RawClaimedRow.burial_cases (T : Type) (raw : RawClaimedRow)
    (reason : String) (now : Int) (db : DbState) :
    (∃ failure, db.reply (raw.burialEvent T reason now) = .failed failure ∧
        (db.after (raw.burialEvent T reason now)).jobs = db.jobs) ∨
      (∃ count, db.reply (raw.burialEvent T reason now) = .affected count) ∧
        ¬ HeldUnder (db.after (raw.burialEvent T reason now)).jobs raw.id
          raw.leaseToken := by
  simp only [DbState.reply, DbState.after, RawClaimedRow.burialEvent, execute]
  cases outcome : (Mark.dead reason).execute db.jobs now raw.id
      raw.leaseToken with
  | error failure => exact Or.inl ⟨failure, rfl, rfl⟩
  | ok written =>
      obtain ⟨updated, count⟩ := written
      refine Or.inr ⟨⟨count, rfl⟩, ?_⟩
      rintro ⟨row, found, running, held⟩
      rcases Mark.execute_spec outcome with
        ⟨notHeld, rfl, _⟩ | ⟨old, _, _, _, _, _, _, after, _⟩
      · exact notHeld ⟨row, found, running, held⟩
      · rw [show updated.find raw.id = some row from found] at after
        cases after
        rw [Mark.markedRow_status] at running
        cases running

theorem RawClaimedRow.claimedRows_burialEvent (raw : RawClaimedRow)
    (reason : String) (now : Int) :
    (db.reply (raw.burialEvent T reason now)).claimedRows = [] := by
  rcases raw.burial_cases T reason now db with
    ⟨failure, failed, _⟩ | ⟨⟨count, affected⟩, _⟩
  · rw [failed]
    rfl
  · rw [affected]
    rfl

/-- What a statement of the loop claims is of the worker's queue. -/
theorem Worker.Sends.queue {loop : PollState T} {label : PollLabel}
    {event : Event T} {raw : RawClaimedRow}
    (sends : worker.Sends db.jobs loop label event)
    (claimed : raw ∈ (db.reply event).claimedRows) :
    raw.queue = worker.queue := by
  cases sends with
  | claim => exact Database.queue_of_claimEvent claimed
  | claimOrphan => exact Database.queue_of_claimEvent claimed
  | bury =>
      rw [RawClaimedRow.claimedRows_burialEvent] at claimed
      cases claimed
  | buryOrphan =>
      rw [RawClaimedRow.claimedRows_burialEvent] at claimed
      cases claimed

end Statements

/-! ## What the loop has in hand -/

/-- The rows for which `claim_and_decode` issued `mark_dead`. -/
def markedRows {T : Type} (taken : Transition (PollState T) PollLabel) :
    List RawClaimedRow :=
  match taken.label with
  | .mark => taken.source.phase.raws.take 1
  | _ => []

section InHand

variable {T : Type} {worker : Worker T} {state target : PollState T}
  {label : PollLabel}

theorem claimFailed_inHand (state : PollState T) (fatal : Bool) :
    (state.claimFailed fatal).phase.raws = [] ∧
      (state.claimFailed fatal).phase.jobs = [] ∧
      (state.claimFailed fatal).burials = state.orphanMark.toList := by
  unfold PollState.claimFailed
  split
  · exact ⟨rfl, rfl, rfl⟩
  · split
    · exact ⟨rfl, rfl, rfl⟩
    · exact ⟨rfl, rfl, rfl⟩

theorem claimSucceeded_inHand (state : PollState T) (out : List (Job T)) :
    (state.claimSucceeded out).phase.raws = [] ∧
      (state.claimSucceeded out).phase.jobs = out ∧
      (state.claimSucceeded out).burials = state.orphanMark.toList := by
  unfold PollState.claimSucceeded
  split
  · rename_i empty
    exact ⟨rfl, (List.isEmpty_iff.mp empty).symm, rfl⟩
  · exact ⟨rfl, rfl, rfl⟩

/-- Rows come into the hands of the loop with the reply to a claim. -/
theorem raws_of_step (taken : PollState.Step worker state label target)
    (answered : ∀ database, label ≠ .execute database)
    {raw : RawClaimedRow} (member : raw ∈ target.phase.raws) :
    raw ∈ state.phase.raws := by
  cases taken with
  | cancel | executeOrphan | executeOrphanMark | loseOrphanMark | endTask =>
      exact member
  | execute permits headroom database inPhase =>
      exact absurd rfl (answered database)
  | refuse permits headroom fatal inPhase
  | receiveError permits failure fatal inPhase
  | loseReply permits reply fatal inPhase =>
      rw [(claimFailed_inHand state fatal).1] at member
      cases member
  | receive permits raws inPhase =>
      rw [inPhase]
      exact member
  | decode permits raw raws out job inPhase decoded =>
      rw [inPhase]
      exact List.mem_cons_of_mem _ member
  | mark permits raw raws out reason inPhase undecodable =>
      rw [inPhase]
      exact List.mem_cons_of_mem _ member
  | sendMark permits raw raws out inPhase
  | executeMark permits raw raws out inPhase =>
      rw [inPhase]
      exact member
  | refuseMark permits raw raws out inPhase =>
      rcases inPhase with inPhase | inPhase
      · rw [inPhase]
        exact member
      · rw [inPhase]
        exact member
  | marked permits raws out inPhase =>
      rw [inPhase]
      exact member
  | finishDecode permits out inPhase =>
      rw [(claimSucceeded_inHand state out).1] at member
      cases member
  | _ => cases member

/-- When the loop has a statement executed, it gets the rows that it claims. -/
theorem raws_of_sends {db : DbState} {event : Event T}
    (taken : PollState.Step worker state label target)
    (sends : worker.Sends db.jobs state label event)
    {raw : RawClaimedRow} (member : raw ∈ target.phase.raws) :
    raw ∈ state.phase.raws ∨ raw ∈ (db.reply event).claimedRows := by
  cases sends with
  | claim permits headroom database inPhase shared =>
      cases taken with
      | execute _ _ _ samePhase =>
          rw [inPhase] at samePhase
          cases samePhase
          rw [Database.claimedRows_claimEvent permits shared]
          exact Or.inr member
  | claimOrphan | bury | buryOrphan =>
      exact Or.inl (raws_of_step taken (fun _ => PollLabel.noConfusion)
        member)

/-- Jobs come into the hands of the loop by decoding rows. -/
theorem jobs_of_step (taken : PollState.Step worker state label target)
    {job : Job T} (member : job ∈ target.phase.jobs) :
    job ∈ state.phase.jobs ∨
      ∃ raw ∈ state.phase.raws, decodeRow worker.codec raw = .ok job := by
  cases taken with
  | cancel | executeOrphan | executeOrphanMark | loseOrphanMark | endTask =>
      exact Or.inl member
  | refuse permits headroom fatal inPhase
  | receiveError permits failure fatal inPhase
  | loseReply permits reply fatal inPhase =>
      rw [(claimFailed_inHand state fatal).2.1] at member
      cases member
  | decode permits raw raws out decodedJob inPhase decoded =>
      rw [inPhase]
      rcases List.mem_append.mp member with earlier | new
      · exact Or.inl earlier
      · rw [List.mem_singleton.mp new]
        exact Or.inr ⟨raw, List.mem_cons_self, decoded⟩
  | mark permits raw raws out reason inPhase undecodable =>
      rw [inPhase]
      exact Or.inl member
  | sendMark permits raw raws out inPhase
  | executeMark permits raw raws out inPhase =>
      rw [inPhase]
      exact Or.inl member
  | refuseMark permits raw raws out inPhase =>
      rcases inPhase with inPhase | inPhase
      · rw [inPhase]
        exact Or.inl member
      · rw [inPhase]
        exact Or.inl member
  | marked permits raws out inPhase =>
      rw [inPhase]
      exact Or.inl member
  | finishDecode permits out inPhase =>
      rw [(claimSucceeded_inHand state out).2.1] at member
      rw [inPhase]
      exact Or.inl member
  | lock permits rows inPhase =>
      rw [inPhase]
      exact Or.inl member
  | spawn permit permits row rows inPhase =>
      rw [inPhase]
      exact Or.inl (List.mem_cons_of_mem _ member)
  | _ => cases member

/-- A burial begins when `mark_dead` is issued. -/
theorem burials_sublist_of_step
    (taken : PollState.Step worker state label target) :
    target.burials.Sublist
      (markedRows ⟨state, label, target⟩ ++ state.burials) := by
  have orphaned : state.orphanMark.toList.Sublist state.burials :=
    List.sublist_append_right _ _
  cases taken with
  | cancel | executeOrphan | endTask => exact List.Sublist.refl _
  | stop | abort =>
      change state.phase.markInFlight.toList.Sublist state.burials
      refine List.Sublist.trans ?_ (List.sublist_append_left _ _)
      cases state.phase with
      | markSent permits sent raws out => exact List.Sublist.refl _
      | _ => exact List.nil_sublist _
  | executeOrphanMark | loseOrphanMark =>
      exact (List.Sublist.refl _).append (List.nil_sublist _)
  | refuse permits headroom fatal inPhase
  | receiveError permits failure fatal inPhase
  | loseReply permits reply fatal inPhase =>
      rw [(claimFailed_inHand state fatal).2.2]
      exact orphaned
  | mark permits marked raws out reason inPhase undecodable =>
      rw [markedRows, inPhase]
      exact (List.Sublist.refl _).append orphaned
  | sendMark permits marked raws out inPhase =>
      rw [PollState.burials, PollState.burials, inPhase]
      exact List.Sublist.refl _
  | finishDecode permits out inPhase =>
      rw [(claimSucceeded_inHand state out).2.2]
      exact orphaned
  | _ => exact orphaned

theorem burials_of_step (taken : PollState.Step worker state label target)
    {raw : RawClaimedRow} (member : raw ∈ target.burials) :
    raw ∈ state.burials ∨ raw ∈ markedRows ⟨state, label, target⟩ :=
  (List.mem_append.mp ((burials_sublist_of_step taken).subset member)).symm

theorem markedRows_subset (taken : Transition (PollState T) PollLabel)
    {raw : RawClaimedRow} (member : raw ∈ markedRows taken) :
    raw ∈ taken.source.phase.raws := by
  unfold markedRows at member
  split at member
  · exact List.mem_of_mem_take member
  · cases member

end InHand

/-! ## The loop and the table -/

/-- The loop of one worker, and the table it shares with others. -/
structure LoopState (T : Type) where
  loop : PollState T
  db : DbState

/-- A step of the loop, with the statement that is executed in it if there is
one, or a statement of somebody else. -/
inductive LoopLabel (T : Type) where
  | inside (label : PollLabel)
  | statement (label : PollLabel) (event : Event T)
  | other (event : Event T)

namespace LoopState

variable {T : Type}

/-- The loop as `start` leaves it, beside any table. -/
def initial (worker : Worker T) (db : DbState) : LoopState T where
  loop := worker.initial
  db := db

inductive Step (worker : Worker T) :
    LoopState T → LoopLabel T → LoopState T → Prop
  | inside (state : LoopState T) (label : PollLabel) (loop : PollState T)
      (taken : PollState.Step worker state.loop label loop)
      (offTable : label.executes = false) :
      Step worker state (.inside label) { state with loop := loop }
  | statement (state : LoopState T) (label : PollLabel) (loop : PollState T)
      (event : Event T) (taken : PollState.Step worker state.loop label loop)
      (sends : worker.Sends state.db.jobs state.loop label event)
      (admits : state.db.Admits event) :
      Step worker state (.statement label event) ⟨loop, state.db.after event⟩
  | other (state : LoopState T) (event : Event T)
      (admits : state.db.Admits event) :
      Step worker state (.other event)
        { state with db := state.db.after event }

end LoopState

/-- The step of the loop that a transition is or contains. -/
def LoopLabel.poll {T : Type} : LoopLabel T → Option PollLabel
  | inside label | statement label _ => some label
  | other _ => none

section Polling

variable {T : Type}

def pollStep (taken : Transition (LoopState T) (LoopLabel T)) :
    Option (Transition (PollState T) PollLabel) :=
  taken.label.poll.map fun label =>
    ⟨taken.source.loop, label, taken.target.loop⟩

/-- What the loop does in a run. -/
def pollTrace (trace : List (Transition (LoopState T) (LoopLabel T))) :
    List (Transition (PollState T) PollLabel) :=
  trace.filterMap pollStep

variable {worker : Worker T} {start finish state target : LoopState T}
  {label : LoopLabel T}
  {trace : List (Transition (LoopState T) (LoopLabel T))}

theorem pollStep_of_step (taken : LoopState.Step worker state label target) :
    (∃ pollLabel,
        pollStep ⟨state, label, target⟩ =
          some ⟨state.loop, pollLabel, target.loop⟩ ∧
        PollState.Step worker state.loop pollLabel target.loop) ∨
      pollStep ⟨state, label, target⟩ = none ∧ target.loop = state.loop := by
  cases taken with
  | inside label loop taken offTable => exact Or.inl ⟨label, rfl, taken⟩
  | statement label loop event taken sends admits =>
      exact Or.inl ⟨label, rfl, taken⟩
  | other event admits => exact Or.inr ⟨rfl, rfl⟩

end Polling

end PgWorkQueue
