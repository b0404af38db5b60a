import PgWorkQueue.Client.Handler
import PgWorkQueue.Client.KeySlot
import PgWorkQueue.Client.KeyedClaim
import PgWorkQueue.Library.Runs

/-!
# `poll_loop` and its handler tasks

The loop as a transition system.  A `Phase` says where the loop is, down to the
await points of `poll_loop` and `claim_and_decode`; handler tasks end between
any two steps, and the cancellation token may fire at any time.  What the
database answers to a claim is computed by `claimBatchRaw` from a table that is
arbitrary each time, since others write to it.

The arm `cancelled()` of a `select!` can be taken at every await inside that
`select!`.  In the one around the claim these are the wait for a connection, the
wait for the answer and, for every row that does not decode, the same two waits
of its `mark_dead`.  A statement that was sent is executed even when the loop no
longer waits for it.  The connection may break before the statement is executed
(`refuse`, `refuseMark`) or after it (`loseReply`); the loop sees an error in
both cases.  That of a `mark_dead` it only logs, so `marked` stands for every
answer to one, an error included.

Permits carry a name so that one can say which task holds which.  Nothing
closes the semaphore, so the branches for a closed one are left out.
-/

namespace PgWorkQueue

open Library.Runs

/-- The fields of a `Worker` that the loop reads, with what `build` has checked
about them. -/
structure Worker (T : Type) where
  queue : String
  codec : Codec T
  maxAttempts : Nat
  leaseTimeout : Duration
  batchSize : Nat
  concurrency : Nat
  concurrencyLimits : HashMap Nat
  batchSizeMin : 1 ≤ batchSize
  batchSizeMax : batchSize ≤ 1000
  concurrencyPos : 0 < concurrency
  limitsAccepted : ∀ key limit,
    concurrencyLimits.lookup key = some limit →
      1 ≤ key.length ∧ key.length ≤ maxConcurrencyKeyLen ∧
        1 ≤ limit ∧ limit ≤ i32Max

/-- An unfinished `handle_job` task: its job, the permit and the slot it
owns. -/
structure Task (T : Type) where
  job : Job T
  permit : Nat
  slot : Option String

/-- Where the loop is. -/
inductive Phase (T : Type) where
  /-- Awaiting the ticker. -/
  | ticking
  /-- Awaiting the first permit. -/
  | acquiring
  /-- In the loop of `try_acquire_owned`. -/
  | gathering (permits : List Nat)
  /-- Before the headroom snapshot. -/
  | ready (permits : List Nat)
  /-- `claim_batch_raw` awaits a connection. -/
  | claiming (permits : List Nat) (headroom : HashMap Nat)
  /-- The claim statement was sent. -/
  | sent (permits : List Nat) (headroom : HashMap Nat)
  /-- The statement was executed; its reply was not received yet. -/
  | answered (permits : List Nat)
      (reply : Except SqlError (List RawClaimedRow))
  /-- In the decode loop of `claim_and_decode`. -/
  | decoding (permits : List Nat) (raws : List RawClaimedRow)
      (out : List (Job T))
  /-- The `mark_dead` of a row that did not decode awaits a connection. -/
  | marking (permits : List Nat) (raw : RawClaimedRow)
      (raws : List RawClaimedRow) (out : List (Job T))
  /-- The `mark_dead` was sent. -/
  | markSent (permits : List Nat) (raw : RawClaimedRow)
      (raws : List RawClaimedRow) (out : List (Job T))
  /-- The `mark_dead` was executed; its answer was not received yet. -/
  | markExecuted (permits : List Nat) (raws : List RawClaimedRow)
      (out : List (Job T))
  /-- Awaiting the lock of the task set. -/
  | locking (permits : List Nat) (rows : List (Job T))
  /-- In the loop that spawns the tasks. -/
  | spawning (permits : List Nat) (rows : List (Job T))
  | exited

namespace Phase

variable {T : Type}

/-- The permits the loop holds. -/
def permits : Phase T → List Nat
  | ticking | acquiring | exited => []
  | gathering permits | ready permits => permits
  | claiming permits _ | sent permits _ | answered permits _ => permits
  | decoding permits _ _ | markExecuted permits _ _ => permits
  | marking permits _ _ _ | markSent permits _ _ _ => permits
  | locking permits _ | spawning permits _ => permits

/-- The rows of the current claim that wait to be decoded. -/
def raws : Phase T → List RawClaimedRow
  | answered _ (.ok raws) | decoding _ raws _ | markExecuted _ raws _ => raws
  | marking _ _ raws _ | markSent _ _ raws _ => raws
  | _ => []

/-- The jobs of the current claim that wait to be spawned. -/
def jobs : Phase T → List (Job T)
  | decoding _ _ out | markExecuted _ _ out => out
  | marking _ _ _ out | markSent _ _ _ out => out
  | locking _ rows | spawning _ rows => rows
  | _ => []

/-- The row whose `mark_dead` is awaited and was not executed yet. -/
def burials : Phase T → List RawClaimedRow
  | marking _ raw _ _ | markSent _ raw _ _ => [raw]
  | _ => []

/-- The awaits that stand in a `select!` with `cancelled()`. -/
def selects : Phase T → Bool
  | ticking | acquiring | claiming _ _ | sent _ _ | answered _ _
  | marking _ _ _ _ | markSent _ _ _ _ | markExecuted _ _ _ => true
  | _ => false

/-- The awaits at which an aborted task is dropped. -/
def awaits : Phase T → Bool
  | locking _ _ => true
  | phase => phase.selects

/-- The headroom of a statement that was sent and not executed yet. -/
def inFlight : Phase T → Option (Nat × HashMap Nat)
  | sent permits headroom => some (permits.length, headroom)
  | _ => none

/-- The row of a `mark_dead` that was sent and not executed yet. -/
def markInFlight : Phase T → Option RawClaimedRow
  | markSent _ raw _ _ => some raw
  | _ => none

end Phase

/-- The loop, the semaphore, the task set, the counter per key, the token, and
a claim and a `mark_dead` in flight that the loop no longer waits for. -/
structure PollState (T : Type) where
  phase : Phase T
  free : List Nat
  tasks : List (Task T)
  running : HashMap Nat
  shutdown : Bool
  consecutiveClaimErrors : Nat
  lastFatal : Bool
  orphan : Option (Nat × HashMap Nat)
  orphanMark : Option RawClaimedRow

/-- The table a claim finds, and the choices Postgres makes for it. -/
structure Database where
  jobs : Jobs
  now : Int
  gen : Nat → Uuid
  lockedElsewhere : Nat → Bool

inductive PollLabel where
  | cancel
  | tick
  | stop
  | acquire
  | tryAcquire
  | gathered
  | snapshot
  | send
  | execute (database : Database)
  | executeOrphan (database : Database)
  | refuse (fatal : Bool)
  | receive
  | receiveError (fatal : Bool)
  | loseReply (fatal : Bool)
  | decode
  | mark
  | sendMark
  | executeMark
  | executeOrphanMark
  | refuseMark
  | loseOrphanMark
  | marked
  | finishDecode
  | lock
  | spawn
  | finishSpawn
  | endTask (index : Nat)
  | abort

/-- A statement that nobody waits for is executed or lost. -/
def PollLabel.ofOrphan : PollLabel → Bool
  | executeOrphan _ | executeOrphanMark | loseOrphanMark => true
  | _ => false

namespace Worker

variable {T : Type}

/-- The state in which `start` leaves the loop. -/
def initial (worker : Worker T) : PollState T where
  phase := .ticking
  free := List.range worker.concurrency
  tasks := []
  running := initialCounter worker.concurrencyLimits
  shutdown := false
  consecutiveClaimErrors := 0
  lastFatal := false
  orphan := none
  orphanMark := none

/-- What `claim_batch_raw` is called with. -/
def claimParams (worker : Worker T) (want : Nat) (headroom : HashMap Nat) :
    ClaimParams where
  queue := worker.queue
  batchSize := want
  leaseTimeout := worker.leaseTimeout
  maxAttempts := worker.maxAttempts
  headroom := headroom

/-- The rows a claim statement of the worker returns. -/
def claimReply (worker : Worker T) (want : Nat) (headroom : HashMap Nat)
    (database : Database) : Except SqlError (List RawClaimedRow) :=
  match claimBatchRaw database.jobs database.now database.gen
      database.lockedElsewhere (worker.claimParams want headroom) with
  | .ok (_, raws) => .ok raws
  | .error failure => .error failure

/-- The slot `poll_loop` acquires for a job. -/
def slotFor (worker : Worker T) (job : Job T) : Option String :=
  match job.concurrencyKey with
  | some key =>
      if (worker.concurrencyLimits.lookup key).isSome then some key else none
  | none => none

end Worker

namespace PollState

variable {T : Type}

/-- The rows whose `mark_dead` was issued and is neither executed nor given
up. -/
def burials (state : PollState T) : List RawClaimedRow :=
  state.phase.burials ++ state.orphanMark.toList

/-- The loop goes to another phase; the permits it held are dropped. -/
def leave (state : PollState T) (phase : Phase T) : PollState T :=
  { state with
    phase := phase
    free := state.free ++ state.phase.permits }

/-- The loop ends while it waits; a statement that was sent goes on. -/
def exit (state : PollState T) : PollState T :=
  { state.leave .exited with
    orphan := state.phase.inFlight
    orphanMark := state.phase.markInFlight }

/-- `Err(e)` of `claim_and_decode`. -/
def claimFailed (state : PollState T) (fatal : Bool) : PollState T :=
  if fatal then
    { state.leave .exited with
      shutdown := true
      lastFatal := true }
  else if maxConsecutiveClaimErrors ≤
      min (state.consecutiveClaimErrors + 1) u32Max then
    { state.leave .exited with
      consecutiveClaimErrors := min (state.consecutiveClaimErrors + 1) u32Max
      shutdown := true
      lastFatal := true }
  else
    { state.leave .ticking with
      consecutiveClaimErrors :=
        min (state.consecutiveClaimErrors + 1) u32Max }

/-- `Ok(rows)` of `claim_and_decode`. -/
def claimSucceeded (state : PollState T) (rows : List (Job T)) :
    PollState T :=
  if rows.isEmpty then
    { state.leave .ticking with consecutiveClaimErrors := 0 }
  else
    { state with
      phase := .locking state.phase.permits rows
      consecutiveClaimErrors := 0 }

/-- One round of the spawn loop. -/
def spawn (state : PollState T) (worker : Worker T) (row : Job T)
    (permit : Nat) (rows : List (Job T)) (permits : List Nat) :
    PollState T :=
  { state with
    phase := .spawning permits rows
    tasks := state.tasks ++ [⟨row, permit, worker.slotFor row⟩]
    running :=
      match worker.slotFor row with
      | some key => acquireSlot state.running key
      | none => state.running }

/-- A task ends, however it ends: its slot and its permit are dropped. -/
def endTask (state : PollState T) (task : Task T) (others : List (Task T)) :
    PollState T :=
  { state with
    tasks := others
    free := state.free ++ [task.permit]
    running := dropSlot state.running task.slot }

/-- The steps of the loop and of what runs beside it. -/
inductive Step (worker : Worker T) :
    PollState T → PollLabel → PollState T → Prop
  | cancel (state : PollState T) :
      Step worker state .cancel { state with shutdown := true }
  | tick (state : PollState T) (inPhase : state.phase = .ticking) :
      Step worker state .tick { state with phase := .acquiring }
  | stop (state : PollState T) (fired : state.shutdown = true)
      (inPhase : state.phase.selects = true) :
      Step worker state .stop state.exit
  | acquire (state : PollState T) (permit : Nat) (free : List Nat)
      (inPhase : state.phase = .acquiring)
      (available : state.free = permit :: free) :
      Step worker state .acquire
        { state with phase := .gathering [permit], free := free }
  | tryAcquire (state : PollState T) (permits : List Nat) (permit : Nat)
      (free : List Nat) (inPhase : state.phase = .gathering permits)
      (wanted : permits.length < worker.batchSize)
      (available : state.free = permit :: free) :
      Step worker state .tryAcquire
        { state with phase := .gathering (permits ++ [permit]), free := free }
  | gathered (state : PollState T) (permits : List Nat)
      (inPhase : state.phase = .gathering permits)
      (complete : worker.batchSize ≤ permits.length ∨ state.free = []) :
      Step worker state .gathered { state with phase := .ready permits }
  | snapshot (state : PollState T) (permits : List Nat)
      (inPhase : state.phase = .ready permits) :
      Step worker state .snapshot
        { state with
          phase := .claiming permits
            (headroomSnapshot worker.concurrencyLimits state.running) }
  | send (state : PollState T) (permits : List Nat) (headroom : HashMap Nat)
      (inPhase : state.phase = .claiming permits headroom) :
      Step worker state .send { state with phase := .sent permits headroom }
  | execute (state : PollState T) (permits : List Nat)
      (headroom : HashMap Nat) (database : Database)
      (inPhase : state.phase = .sent permits headroom) :
      Step worker state (.execute database)
        { state with
          phase := .answered permits
            (worker.claimReply permits.length headroom database) }
  | executeOrphan (state : PollState T) (want : Nat)
      (headroom : HashMap Nat) (database : Database)
      (waiting : state.orphan = some (want, headroom)) :
      Step worker state (.executeOrphan database)
        { state with orphan := none }
  | refuse (state : PollState T) (permits : List Nat)
      (headroom : HashMap Nat) (fatal : Bool)
      (inPhase : state.phase = .claiming permits headroom ∨
        state.phase = .sent permits headroom) :
      Step worker state (.refuse fatal) (state.claimFailed fatal)
  | receive (state : PollState T) (permits : List Nat)
      (raws : List RawClaimedRow)
      (inPhase : state.phase = .answered permits (.ok raws)) :
      Step worker state .receive
        { state with phase := .decoding permits raws [] }
  | receiveError (state : PollState T) (permits : List Nat)
      (failure : SqlError) (fatal : Bool)
      (inPhase : state.phase = .answered permits (.error failure)) :
      Step worker state (.receiveError fatal) (state.claimFailed fatal)
  | loseReply (state : PollState T) (permits : List Nat)
      (reply : Except SqlError (List RawClaimedRow)) (fatal : Bool)
      (inPhase : state.phase = .answered permits reply) :
      Step worker state (.loseReply fatal) (state.claimFailed fatal)
  | decode (state : PollState T) (permits : List Nat) (raw : RawClaimedRow)
      (raws : List RawClaimedRow) (out : List (Job T)) (job : Job T)
      (inPhase : state.phase = .decoding permits (raw :: raws) out)
      (decoded : decodeRow worker.codec raw = .ok job) :
      Step worker state .decode
        { state with phase := .decoding permits raws (out ++ [job]) }
  | mark (state : PollState T) (permits : List Nat) (raw : RawClaimedRow)
      (raws : List RawClaimedRow) (out : List (Job T)) (reason : String)
      (inPhase : state.phase = .decoding permits (raw :: raws) out)
      (undecodable : decodeRow worker.codec raw = .error reason) :
      Step worker state .mark
        { state with phase := .marking permits raw raws out }
  | sendMark (state : PollState T) (permits : List Nat) (raw : RawClaimedRow)
      (raws : List RawClaimedRow) (out : List (Job T))
      (inPhase : state.phase = .marking permits raw raws out) :
      Step worker state .sendMark
        { state with phase := .markSent permits raw raws out }
  | executeMark (state : PollState T) (permits : List Nat)
      (raw : RawClaimedRow) (raws : List RawClaimedRow) (out : List (Job T))
      (inPhase : state.phase = .markSent permits raw raws out) :
      Step worker state .executeMark
        { state with phase := .markExecuted permits raws out }
  | executeOrphanMark (state : PollState T) (raw : RawClaimedRow)
      (waiting : state.orphanMark = some raw) :
      Step worker state .executeOrphanMark { state with orphanMark := none }
  | refuseMark (state : PollState T) (permits : List Nat)
      (raw : RawClaimedRow) (raws : List RawClaimedRow) (out : List (Job T))
      (inPhase : state.phase = .marking permits raw raws out ∨
        state.phase = .markSent permits raw raws out) :
      Step worker state .refuseMark
        { state with phase := .decoding permits raws out }
  | loseOrphanMark (state : PollState T) (raw : RawClaimedRow)
      (waiting : state.orphanMark = some raw) :
      Step worker state .loseOrphanMark { state with orphanMark := none }
  | marked (state : PollState T) (permits : List Nat)
      (raws : List RawClaimedRow) (out : List (Job T))
      (inPhase : state.phase = .markExecuted permits raws out) :
      Step worker state .marked
        { state with phase := .decoding permits raws out }
  | finishDecode (state : PollState T) (permits : List Nat)
      (out : List (Job T)) (inPhase : state.phase = .decoding permits [] out) :
      Step worker state .finishDecode (state.claimSucceeded out)
  | lock (state : PollState T) (permits : List Nat) (rows : List (Job T))
      (inPhase : state.phase = .locking permits rows) :
      Step worker state .lock { state with phase := .spawning permits rows }
  | spawn (state : PollState T) (permit : Nat) (permits : List Nat)
      (row : Job T) (rows : List (Job T))
      (inPhase : state.phase = .spawning (permit :: permits) (row :: rows)) :
      Step worker state .spawn (state.spawn worker row permit rows permits)
  | finishSpawn (state : PollState T) (permits : List Nat)
      (rows : List (Job T)) (inPhase : state.phase = .spawning permits rows)
      (zipped : permits = [] ∨ rows = []) :
      Step worker state .finishSpawn (state.leave .ticking)
  | endTask (state : PollState T) (before after : List (Task T))
      (task : Task T) (shape : state.tasks = before ++ task :: after) :
      Step worker state (.endTask before.length)
        (state.endTask task (before ++ after))
  | abort (state : PollState T) (inPhase : state.phase.awaits = true) :
      Step worker state .abort state.exit

end PollState

/-! ## What the database answers -/

section Reply

variable {T : Type} {worker : Worker T} {want : Nat}
  {headroom : HashMap Nat} {database : Database}
  {raws : List RawClaimedRow}

/-- A claim returns the rows it moves, no more than asked for and no more of a
key than its headroom. -/
theorem Worker.claimReply_eq_ok
    (answer : worker.claimReply want headroom database = .ok raws) :
    raws.length ≤ want ∧
      ∀ key room, headroom.lookup key = some room →
        raws.countP (·.concurrencyKey == some key) ≤ room := by
  unfold Worker.claimReply at answer
  split at answer
  · rename_i updated returned outcome
    cases answer
    constructor
    · obtain ⟨_, chosen, _, choice, rfl, _⟩ := claimBatchRaw_spec outcome
      rw [List.length_map]
      exact choice.bounded.trans (Nat.min_le_left _ _)
    · intro key room found
      exact claimBatchRaw_countP_le outcome found
  · cases answer

end Reply

end PgWorkQueue
