import PgWorkQueue.Client.Pusher

/-!
# Client-side validation against the schema

`push` checks the lengths of the queue name, of the concurrency key and of the
encoded payload before it sends its INSERT; the table has CHECKs of its own.
The two agree on lengths.  The type of a `TEXT` column refuses U+0000 as well,
which `push` does not look for, and the refusal comes back with a SQLSTATE that
`From<sqlx::Error>` takes for transient.
-/

namespace PgWorkQueue

/-- `PushError::is_retriable`. -/
def PushError.isRetriable : PushError → Bool
  | transient _ => true
  | _ => false

/-- The errors with which validation rejects the input of `push`. -/
def PushError.isValidation : PushError → Bool
  | queueNameInvalid _ | concurrencyKeyInvalid _ | payloadTooLarge _ _ _ =>
      true
  | _ => false

theorem PushError.isRetriable_of_isValidation {failure : PushError}
    (validation : failure.isValidation = true) :
    failure.isRetriable = false := by
  cases failure with
  | transient source => cases validation
  | _ => rfl

theorem PushError.isValidation_fromSqlx (failure : SqlError) :
    (PushError.fromSqlx failure).isValidation = false := by
  unfold fromSqlx
  split <;> rfl

/-- Of a row that leaves `run_at` to its default the CHECKs ask no more than
validation does. -/
theorem NewJob.passesChecks_iff_validated {new : NewJob} {id : Nat}
    {now : Int} (unscheduled : new.runAt = none) :
    (new.row id now).PassesChecks ↔ new.Validated := by
  constructor
  · intro passes
    obtain ⟨_, keyLength, _, _, payloadSize, queueShort, queueNonempty, _⟩ :=
      (new.row id now).passesChecks_iff.mp passes
    exact ⟨queueNonempty, queueShort, payloadSize, keyLength⟩
  · intro valid
    rw [valid.passesChecks_iff, unscheduled]
    exact Int.le_refl now

namespace Pusher

variable {T : Type} {pusher : Pusher T} {jobs : Jobs} {now : Int}
  {publicId : Uuid} {payload : T} {bytes : Bytes} {key : Option String}

/-- Queue, key and payload have the lengths that are allowed. -/
structure WithinLimits (pusher : Pusher T) (bytes : Bytes)
    (key : Option String) : Prop where
  queue : pusher.validateQueue = .ok ()
  key : validateConcurrencyKey key = .ok ()
  payload : bytes.length ≤ maxPayloadBytes

/-- Queue and key are free of U+0000. -/
structure Storable (pusher : Pusher T) (key : Option String) : Prop where
  queue : '\x00' ∉ pusher.queue.toList
  key : ∀ text, key = some text → '\x00' ∉ text.toList

theorem validated_newJob_iff :
    (pusher.newJob publicId bytes none key).Validated ↔
      pusher.WithinLimits bytes key := by
  constructor
  · intro valid
    exact ⟨validateQueue_eq_ok_iff.mpr
        ⟨valid.queueNonempty, valid.queueShort⟩,
      validateConcurrencyKey_eq_ok_iff.mpr valid.keyBounded,
      valid.payloadSmall⟩
  · intro within
    obtain ⟨nonempty, short⟩ := validateQueue_eq_ok_iff.mp within.queue
    exact ⟨nonempty, short, within.payload,
      validateConcurrencyKey_eq_ok_iff.mp within.key⟩

theorem textParam_eq_ok_iff {text : String} :
    textParam text = .ok text ↔ '\x00' ∉ text.toList := by
  unfold textParam
  split
  · rename_i hasNul
    simp [hasNul]
  · rename_i clean
    simp [clean]

theorem bindOption_textParam_eq_ok_iff :
    bindOption textParam key = .ok key ↔
      ∀ text, key = some text → '\x00' ∉ text.toList := by
  cases key with
  | none => simp [bindOption]
  | some text =>
      rcases textParam_eq text with bound | refused
      · have clean := textParam_eq_ok_iff.mp bound
        simp [bindOption, bound, bind, Except.bind, clean]
      · have hasNul : '\x00' ∈ text.toList := by
          by_contra clean
          rw [textParam_eq_ok_iff.mpr clean] at refused
          cases refused
        simp [bindOption, refused, bind, Except.bind, hasNul]

theorem insertOne_of_storable (storable : pusher.Storable key) :
    pusher.insertOne jobs now publicId bytes none key =
      jobs.insert now (pusher.newJob publicId bytes none key) := by
  have noRunAt : bindOption timestampParam none = .ok none := rfl
  simp only [insertOne, textParam_eq_ok_iff.mpr storable.queue, noRunAt,
    bindOption_textParam_eq_ok_iff.mpr storable.key, bind, Except.bind,
    newJob]

/-- A text with U+0000 is refused for its type. -/
theorem insertOne_of_not_storable (refused : ¬ pusher.Storable key) :
    pusher.insertOne jobs now publicId bytes none key =
      .error .characterNotInRepertoire := by
  rcases textParam_eq pusher.queue with queueBound | queueRefused
  · rcases bindOption_eq textParam_eq key with keyBound | keyRefused
    · exact absurd ⟨textParam_eq_ok_iff.mp queueBound,
        bindOption_textParam_eq_ok_iff.mp keyBound⟩ refused
    · simp only [insertOne, queueBound, keyRefused, bind, Except.bind]
      rfl
  · simp only [insertOne, queueRefused, bind, Except.bind]

/-- The INSERT goes through exactly when lengths and characters are accepted;
the id is fresh. -/
theorem insertOne_refused_iff
    (fresh : ∀ row ∈ jobs.rows, row.publicId ≠ publicId) :
    (∃ refusal, pusher.insertOne jobs now publicId bytes none key =
        .error refusal) ↔
      ¬ (pusher.WithinLimits bytes key ∧ pusher.Storable key) := by
  by_cases storable : pusher.Storable key
  · rw [insertOne_of_storable storable]
    have inserts := @Jobs.insert_eq_ok_iff jobs
      (jobs.append ((pusher.newJob publicId bytes none key).row jobs.nextId
        now) rfl) now (pusher.newJob publicId bytes none key)
    rw [NewJob.passesChecks_iff_validated rfl, validated_newJob_iff]
      at inserts
    constructor
    · rintro ⟨refusal, failed⟩ ⟨within, _⟩
      rw [inserts.mpr ⟨within, fresh, rfl⟩] at failed
      cases failed
    · intro outside
      cases outcome : jobs.insert now
          (pusher.newJob publicId bytes none key) with
      | error refusal => exact ⟨refusal, rfl⟩
      | ok updated =>
          have passes := (Jobs.insert_eq_ok_iff.mp outcome).1
          rw [NewJob.passesChecks_iff_validated rfl,
            validated_newJob_iff] at passes
          exact absurd ⟨passes, storable⟩ outside
  · rw [insertOne_of_not_storable storable]
    exact iff_of_true ⟨_, rfl⟩ fun both => storable both.2

/-- Within the limits `push` reports what its INSERT returns. -/
theorem push_of_withinLimits
    (encodes : pusher.codec.encode payload = .ok bytes)
    (within : pusher.WithinLimits bytes key) :
    pusher.push jobs now publicId payload key =
      match pusher.insertOne jobs now publicId bytes none key with
      | .error failure => .error (.fromSqlx failure)
      | .ok updated => .ok (updated, publicId) := by
  have encoded : pusher.encodeOne payload 0 = .ok bytes := by
    rw [encodeOne, encodes]
    exact if_neg (Nat.not_lt.mpr within.payload)
  cases inserted : pusher.insertOne jobs now publicId bytes none key with
  | error failure =>
      simp only [push, pushOne, within.queue, within.key, encoded, inserted,
        bind, Except.bind]
  | ok updated =>
      simp only [push, pushOne, within.queue, within.key, encoded, inserted,
        bind, Except.bind]

/-- Outside of them it rejects its input, whatever the table. -/
theorem push_of_not_withinLimits
    (encodes : pusher.codec.encode payload = .ok bytes)
    (outside : ¬ pusher.WithinLimits bytes key) :
    ∃ failure : PushError, failure.isValidation = true ∧
      ∀ jobs now publicId,
        pusher.push jobs now publicId payload key = .error failure := by
  cases queueValid : pusher.validateQueue with
  | error failure =>
      refine ⟨failure, ?_, ?_⟩
      · unfold validateQueue at queueValid
        split at queueValid
        · cases queueValid
          rfl
        · cases queueValid
      · intro jobs now publicId
        simp only [push, pushOne, queueValid, bind, Except.bind]
  | ok _ =>
    cases keyValid : validateConcurrencyKey key with
    | error failure =>
        refine ⟨failure, ?_, ?_⟩
        · cases key with
          | none => cases keyValid
          | some text =>
              unfold validateConcurrencyKey at keyValid
              dsimp only at keyValid
              split at keyValid
              · cases keyValid
                rfl
              · cases keyValid
        · intro jobs now publicId
          simp only [push, pushOne, queueValid, keyValid, bind, Except.bind]
    | ok _ =>
        have tooLarge : maxPayloadBytes < bytes.length := by
          by_contra small
          exact outside ⟨queueValid, keyValid, Nat.le_of_not_lt small⟩
        have refused : pusher.encodeOne payload 0 =
            .error (.payloadTooLarge 0 bytes.length maxPayloadBytes) := by
          rw [encodeOne, encodes]
          exact if_pos tooLarge
        refine ⟨.payloadTooLarge 0 bytes.length maxPayloadBytes, rfl, ?_⟩
        intro jobs now publicId
        simp only [push, pushOne, queueValid, keyValid, refused, bind,
          Except.bind]

theorem push_rejects_iff
    (encodes : pusher.codec.encode payload = .ok bytes) :
    (∃ failure, pusher.push jobs now publicId payload key = .error failure ∧
        failure.isValidation = true) ↔
      ¬ pusher.WithinLimits bytes key := by
  constructor
  · rintro ⟨failure, rejected, validation⟩ within
    rw [push_of_withinLimits encodes within] at rejected
    split at rejected
    · cases rejected
      rw [PushError.isValidation_fromSqlx] at validation
      cases validation
    · cases rejected
  · intro outside
    obtain ⟨failure, validation, rejected⟩ :=
      push_of_not_withinLimits encodes outside
    exact ⟨failure, rejected jobs now publicId, validation⟩

/-- Validation rejects exactly what the INSERT would be refused for, and what
is refused is not reported as retriable.  The id is fresh. -/
structure AgreesWithDatabase (pusher : Pusher T) (payload : T)
    (bytes : Bytes) (key : Option String) : Prop where
  rejects_iff : ∀ jobs now publicId,
    (∀ row ∈ jobs.rows, row.publicId ≠ publicId) →
      ((∃ failure,
          pusher.push jobs now publicId payload key = .error failure ∧
            failure.isValidation = true) ↔
        ∃ refusal, pusher.insertOne jobs now publicId bytes none key =
          .error refusal)
  notRetriable : ∀ jobs now publicId failure,
    (∀ row ∈ jobs.rows, row.publicId ≠ publicId) →
      pusher.push jobs now publicId payload key = .error failure →
        failure.isRetriable = false

end Pusher

/-- Validation and schema agree on an input exactly when, its lengths being
allowed, it has no U+0000. -/
theorem push_validation_agrees_iff {T : Type} {pusher : Pusher T}
    {payload : T} {bytes : Bytes} {key : Option String}
    (encodes : pusher.codec.encode payload = .ok bytes) :
    pusher.AgreesWithDatabase payload bytes key ↔
      (pusher.WithinLimits bytes key → pusher.Storable key) := by
  constructor
  · intro agrees within
    by_contra refused
    have unused : ∀ row ∈ Jobs.empty.rows, row.publicId ≠ ⟨0⟩ :=
      fun row member => absurd member List.not_mem_nil
    have rejects := (agrees.rejects_iff Jobs.empty 0 ⟨0⟩ unused).mpr
      ⟨_, Pusher.insertOne_of_not_storable refused⟩
    exact (Pusher.push_rejects_iff encodes).mp rejects within
  · intro storable
    have same : pusher.WithinLimits bytes key ∧ pusher.Storable key ↔
        pusher.WithinLimits bytes key :=
      and_iff_left_of_imp storable
    refine ⟨fun jobs now publicId fresh => ?_,
      fun jobs now publicId failure fresh failed => ?_⟩
    · rw [Pusher.push_rejects_iff encodes,
        Pusher.insertOne_refused_iff fresh, same]
    · by_cases within : pusher.WithinLimits bytes key
      · have accepted : ¬ ∃ refusal, pusher.insertOne jobs now publicId
            bytes none key = .error refusal := by
          rw [Pusher.insertOne_refused_iff fresh, not_not]
          exact ⟨within, storable within⟩
        rw [Pusher.push_of_withinLimits encodes within] at failed
        split at failed
        · rename_i refusal refused
          exact absurd ⟨refusal, refused⟩ accepted
        · cases failed
      · obtain ⟨rejection, validation, rejected⟩ :=
          Pusher.push_of_not_withinLimits encodes within
        rw [rejected] at failed
        cases failed
        exact PushError.isRetriable_of_isValidation validation

/-! ### U+0000 in a queue name and in a key -/

namespace NulText

def codec : Codec Unit := ⟨fun _ => .ok [], fun _ => .value ()⟩

/-- The queue whose name is U+0000. -/
def pusher : Pusher Unit := ⟨"\x00", codec⟩

def mail : Pusher Unit := ⟨"mail", codec⟩

end NulText

theorem push_validation_agrees_on_mail :
    NulText.mail.AgreesWithDatabase () [] (some "customer-1") := by
  refine (push_validation_agrees_iff rfl).mpr fun _ => ⟨by decide, ?_⟩
  rintro _ ⟨⟩
  decide

/-- A queue name and a key of one U+0000 pass validation; the refusal of the
INSERT is reported as retriable, on every table. -/
theorem push_reports_nul_as_retriable :
    (PushError.transient .characterNotInRepertoire).isRetriable = true ∧
      ∀ jobs now publicId,
        NulText.pusher.push jobs now publicId () none =
            .error (.transient .characterNotInRepertoire) ∧
          NulText.mail.push jobs now publicId () (some "\x00") =
            .error (.transient .characterNotInRepertoire) :=
  ⟨rfl, fun _ _ _ => ⟨rfl, rfl⟩⟩

end PgWorkQueue
