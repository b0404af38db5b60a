import PgWorkQueue.System.Permits
import PgWorkQueue.System.Polling

/-!
# The books of a poll loop

The rows that the claims of a loop moved to `running` are those handed to a
task, those for which `mark_dead` was issued because they do not decode, those
still in the hands of the loop, and those that a step has lost: the loop ends
with rows in its hands, the reply that names them does not arrive, or nobody
waits for the statement that moved them.
-/

namespace PgWorkQueue

open Library.Runs

/-! ## The books -/

section Books

variable {T : Type}

/-- A claimed row is known by its `id` and the token of the claim. -/
abbrev Lease := Nat × Uuid

def RawClaimedRow.lease (raw : RawClaimedRow) : Lease :=
  (raw.id, raw.leaseToken)

def Job.lease (job : Job T) : Lease :=
  (job.id, job.leaseToken)

/-- The rows of the current claim that are still in the hands of the loop. -/
def Phase.undealt (phase : Phase T) : List Lease :=
  phase.raws.map RawClaimedRow.lease ++ phase.jobs.map Job.lease

/-- The leases in the reply to a claim statement. -/
def repliedLeases : Except SqlError (List RawClaimedRow) → List Lease
  | .ok raws => raws.map RawClaimedRow.lease
  | .error _ => []

/-- The rows that a claim statement of the worker moved to `running`. -/
def movedBy (worker : Worker T)
    (taken : Transition (PollState T) PollLabel) : List Lease :=
  match taken.label with
  | .execute database =>
      match taken.source.phase with
      | .sent permits headroom =>
          repliedLeases (worker.claimReply permits.length headroom database)
      | _ => []
  | .executeOrphan database =>
      match taken.source.orphan with
      | some (want, headroom) =>
          repliedLeases (worker.claimReply want headroom database)
      | none => []
  | _ => []

/-- The rows for which a `handle_job` task was spawned. -/
def handedBy (taken : Transition (PollState T) PollLabel) : List Lease :=
  (spawnedJobs taken).map Job.lease

def markedBy (taken : Transition (PollState T) PollLabel) : List Lease :=
  (markedRows taken).map RawClaimedRow.lease

/-- The rows that are lost in a transition: the loop ends with rows in its
hands, the reply that names them does not arrive, or nobody waits for the
statement that moved them. -/
def strandedBy (worker : Worker T)
    (taken : Transition (PollState T) PollLabel) : List Lease :=
  match taken.label with
  | .stop | .abort | .loseReply _ => taken.source.phase.undealt
  | .executeOrphan _ => movedBy worker taken
  | _ => []

end Books

section Accounting

variable {T : Type} {worker : Worker T} {state target finish : PollState T}
  {label : PollLabel}
  {trace : List (Transition (PollState T) PollLabel)}

theorem claimFailed_undealt (state : PollState T) (fatal : Bool) :
    (state.claimFailed fatal).phase.undealt = [] := by
  obtain ⟨noRaws, noJobs, _⟩ := claimFailed_inHand state fatal
  rw [Phase.undealt, noRaws, noJobs]
  rfl

theorem claimSucceeded_undealt (state : PollState T) (out : List (Job T)) :
    (state.claimSucceeded out).phase.undealt = out.map Job.lease := by
  obtain ⟨noRaws, jobs, _⟩ := claimSucceeded_inHand state out
  rw [Phase.undealt, noRaws, jobs]
  rfl

theorem lease_of_decodeRow
    {codec : Codec T} {raw : RawClaimedRow} {job : Job T}
    (decoded : decodeRow codec raw = .ok job) :
    job.lease = raw.lease := by
  obtain ⟨payload, _, rfl⟩ := job_of_decodeRow decoded
  rfl

theorem undealt_answered
    (permits : List Nat) (reply : Except SqlError (List RawClaimedRow)) :
    (Phase.answered (T := T) permits reply).undealt =
      repliedLeases reply := by
  cases reply with
  | error failure => rfl
  | ok raws => exact List.append_nil _

/-- The leases in a reply are those of the rows the loop then has in hand. -/
theorem repliedLeases_eq (permits : List Nat)
    (reply : Except SqlError (List RawClaimedRow)) :
    repliedLeases reply =
      (Phase.answered (T := T) permits reply).raws.map
        RawClaimedRow.lease := by
  cases reply with
  | error failure => rfl
  | ok raws => rfl

/-- What the loop moves in a step is what its statement claims. -/
theorem movedBy_of_sends {db : DbState} {event : Event T}
    (sends : worker.Sends db.jobs state label event) :
    movedBy worker ⟨state, label, target⟩ =
      (db.reply event).claimedRows.map RawClaimedRow.lease := by
  cases sends with
  | claim permits headroom database inPhase shared =>
      rw [Database.claimedRows_claimEvent permits shared, ← repliedLeases_eq]
      simp only [movedBy, inPhase]
  | claimOrphan want headroom database waiting shared =>
      rw [Database.claimedRows_claimEvent [] shared, ← repliedLeases_eq]
      simp only [movedBy, waiting]
  | bury permits raw raws out reason now inPhase refused =>
      rw [RawClaimedRow.claimedRows_burialEvent]
      rfl
  | buryOrphan raw reason now waiting refused =>
      rw [RawClaimedRow.claimedRows_burialEvent]
      rfl

/-- A step that enters nothing in the books. -/
theorem balanced_of_quiet
    (moved : movedBy worker ⟨state, label, target⟩ = [])
    (handed : handedBy ⟨state, label, target⟩ = [])
    (marked : markedBy ⟨state, label, target⟩ = [])
    (stranded : strandedBy worker ⟨state, label, target⟩ = [])
    (same : state.phase.undealt = target.phase.undealt) :
    (state.phase.undealt ++ movedBy worker ⟨state, label, target⟩).Perm
      (handedBy ⟨state, label, target⟩ ++ markedBy ⟨state, label, target⟩ ++
        target.phase.undealt ++ strandedBy worker ⟨state, label, target⟩) := by
  rw [moved, handed, marked, stranded, same, List.append_nil,
    List.append_nil]
  exact List.Perm.refl _

/-- The books balance over one step. -/
theorem undealt_of_step
    (kept : state.PermitsKept worker)
    (taken : PollState.Step worker state label target) :
    (state.phase.undealt ++ movedBy worker ⟨state, label, target⟩).Perm
      (handedBy ⟨state, label, target⟩ ++ markedBy ⟨state, label, target⟩ ++
        target.phase.undealt ++ strandedBy worker ⟨state, label, target⟩) := by
  cases taken with
  | cancel => exact balanced_of_quiet rfl rfl rfl rfl rfl
  | tick inPhase =>
      exact balanced_of_quiet rfl rfl rfl rfl (by rw [inPhase]; rfl)
  | stop | abort =>
      change (state.phase.undealt ++ []).Perm
        ([] ++ [] ++ [] ++ state.phase.undealt)
      rw [List.append_nil]
      exact List.Perm.refl _
  | acquire permit free inPhase _ =>
      exact balanced_of_quiet rfl rfl rfl rfl (by rw [inPhase]; rfl)
  | tryAcquire permits permit free inPhase _ _ =>
      exact balanced_of_quiet rfl rfl rfl rfl (by rw [inPhase]; rfl)
  | gathered permits inPhase _ =>
      exact balanced_of_quiet rfl rfl rfl rfl (by rw [inPhase]; rfl)
  | snapshot permits inPhase =>
      exact balanced_of_quiet rfl rfl rfl rfl (by rw [inPhase]; rfl)
  | send permits headroom inPhase =>
      exact balanced_of_quiet rfl rfl rfl rfl (by rw [inPhase]; rfl)
  | execute permits headroom database inPhase =>
      have moved (next : PollState T) :
          movedBy worker ⟨state, .execute database, next⟩ =
            repliedLeases
              (worker.claimReply permits.length headroom database) := by
        simp only [movedBy, inPhase]
      rw [moved, undealt_answered, inPhase]
      change ([] ++ _).Perm ([] ++ [] ++ _ ++ [])
      rw [List.append_nil]
      exact List.Perm.refl _
  | executeOrphan want headroom database waiting =>
      change (state.phase.undealt ++ _).Perm
        ([] ++ [] ++ state.phase.undealt ++ _)
      exact List.Perm.refl _
  | refuse permits headroom fatal inPhase =>
      refine balanced_of_quiet rfl rfl rfl rfl ?_
      rw [claimFailed_undealt]
      rcases inPhase with inPhase | inPhase
      · rw [inPhase]
        rfl
      · rw [inPhase]
        rfl
  | receive permits raws inPhase =>
      exact balanced_of_quiet rfl rfl rfl rfl (by rw [inPhase]; rfl)
  | receiveError permits failure fatal inPhase =>
      refine balanced_of_quiet rfl rfl rfl rfl ?_
      rw [claimFailed_undealt, inPhase]
      rfl
  | loseReply permits reply fatal inPhase =>
      change (state.phase.undealt ++ []).Perm
        ([] ++ [] ++ (state.claimFailed fatal).phase.undealt ++
          state.phase.undealt)
      rw [claimFailed_undealt, List.append_nil]
      exact List.Perm.refl _
  | decode permits raw raws out job inPhase decoded =>
      rw [List.perm_iff_count]
      intro lease
      simp only [movedBy, handedBy, spawnedJobs, markedBy, markedRows,
        strandedBy, inPhase, Phase.undealt, Phase.raws, Phase.jobs,
        List.map_cons, List.map_append, List.map_nil, List.count_append,
        List.count_cons, List.count_nil, lease_of_decodeRow decoded]
      omega
  | mark permits raw raws out reason inPhase _ =>
      rw [List.perm_iff_count]
      intro lease
      simp only [movedBy, handedBy, spawnedJobs, markedBy, markedRows,
        strandedBy, inPhase, Phase.undealt, Phase.raws, Phase.jobs,
        List.take_succ_cons, List.take_zero, List.map_cons, List.map_nil,
        List.count_append, List.count_cons, List.count_nil]
      omega
  | sendMark permits raw raws out inPhase =>
      exact balanced_of_quiet rfl rfl rfl rfl (by rw [inPhase]; rfl)
  | executeMark permits raw raws out inPhase =>
      exact balanced_of_quiet rfl rfl rfl rfl (by rw [inPhase]; rfl)
  | executeOrphanMark => exact balanced_of_quiet rfl rfl rfl rfl rfl
  | refuseMark permits raw raws out inPhase =>
      rcases inPhase with inPhase | inPhase
      · exact balanced_of_quiet rfl rfl rfl rfl (by rw [inPhase]; rfl)
      · exact balanced_of_quiet rfl rfl rfl rfl (by rw [inPhase]; rfl)
  | loseOrphanMark => exact balanced_of_quiet rfl rfl rfl rfl rfl
  | marked permits raws out inPhase =>
      exact balanced_of_quiet rfl rfl rfl rfl (by rw [inPhase]; rfl)
  | finishDecode permits out inPhase =>
      refine balanced_of_quiet rfl rfl rfl rfl ?_
      rw [claimSucceeded_undealt, inPhase]
      rfl
  | lock permits rows inPhase =>
      exact balanced_of_quiet rfl rfl rfl rfl (by rw [inPhase]; rfl)
  | spawn permit permits row rows inPhase =>
      simp [movedBy, handedBy, spawnedJobs, markedBy, markedRows, strandedBy,
        inPhase, Phase.undealt, Phase.raws, Phase.jobs, PollState.spawn]
  | finishSpawn permits rows inPhase zipped =>
      have noRows := jobs_eq_nil_of_finishSpawn kept inPhase zipped
      refine balanced_of_quiet rfl rfl rfl rfl ?_
      rw [inPhase, noRows]
      rfl
  | endTask => exact balanced_of_quiet rfl rfl rfl rfl rfl

end Accounting

end PgWorkQueue
