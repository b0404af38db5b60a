import PgWorkQueue.Client.Limits
import PgWorkQueue.Database.Statements

/-!
# Enqueueing: `Pusher`

`push`, `push_at` and `push_batch`.  Validation runs before the INSERT, and a
call that fails, in validation or in the database, leaves the table as it was.
The public ids are drawn by the client (`Uuid::now_v7`), so each function takes
the ids it draws as an argument.
-/

namespace PgWorkQueue

/-- What decoding a payload leads to: `catch_unwind` also reports a panic of
the codec. -/
inductive Decoded (T : Type) where
  | value (payload : T)
  | failed (message : String)
  | panicked (message : String)

/-- A payload codec.  Its errors are known to the library only through their
display text. -/
structure Codec (T : Type) where
  encode : T → Except String Bytes
  decode : Bytes → Decoded T

/-- `PushError`. -/
inductive PushError where
  | payloadTooLarge (index size max : Nat)
  | batchTooLarge (size max : Nat)
  | batchPayloadTooLarge (totalBytes max : Nat)
  | batchEmpty
  | queueNameInvalid (queue : String)
  | concurrencyKeyInvalid (key : String)
  | codec (source : String)
  | batchCodec (index : Nat) (source : String)
  | constraint (source : SqlError)
  | transient (source : SqlError)
  | batchPartial (inserted expected : Nat)
  deriving DecidableEq, Repr

/-- `From<sqlx::Error>`: SQLSTATE class 23 is deterministic, everything else
counts as transient. -/
def PushError.fromSqlx (failure : SqlError) : PushError :=
  if failure.sqlState.any fun code => ['2', '3'].isPrefixOf code.toList then
    .constraint failure
  else
    .transient failure

/-- `Pusher`. -/
structure Pusher (T : Type) where
  queue : String
  codec : Codec T

namespace Pusher

variable {T : Type}

def validateQueue (pusher : Pusher T) : Except PushError Unit :=
  if pusher.queue.length = 0 ∨ maxQueueLen < pusher.queue.length then
    .error (.queueNameInvalid pusher.queue)
  else
    .ok ()

def validateConcurrencyKey : Option String → Except PushError Unit
  | none => .ok ()
  | some key =>
      if key.length = 0 ∨ maxConcurrencyKeyLen < key.length then
        .error (.concurrencyKeyInvalid key)
      else
        .ok ()

/-- Index 0 stands both for a single push and for the first item of a
batch. -/
def encodeOne (pusher : Pusher T) (value : T) (index : Nat) :
    Except PushError Bytes :=
  match pusher.codec.encode value with
  | .error source =>
      if index = 0 then .error (.codec source)
      else .error (.batchCodec index source)
  | .ok bytes =>
      if maxPayloadBytes < bytes.length then
        .error (.payloadTooLarge index bytes.length maxPayloadBytes)
      else
        .ok bytes

/-- Binding an optional parameter: NULL is always accepted. -/
def bindOption {Value : Type} (param : Value → Except SqlError Value) :
    Option Value → Except SqlError (Option Value)
  | none => .ok none
  | some value => do
      let value ← param value
      .ok (some value)

/-- The single-row INSERT shared by `push` and `push_at`. -/
def insertOne (pusher : Pusher T) (jobs : Jobs) (now : Int)
    (publicId : Uuid) (bytes : Bytes) (runAt : Option Int)
    (concurrencyKey : Option String) : Except SqlError Jobs := do
  let queue ← textParam pusher.queue
  let runAt ← bindOption timestampParam runAt
  let key ← bindOption textParam concurrencyKey
  jobs.insert now
    { queue := queue
      payload := bytes
      publicId := publicId
      runAt := runAt
      concurrencyKey := key }

/-- `push` and `push_at` differ only in the `run_at` column. -/
def pushOne (pusher : Pusher T) (jobs : Jobs) (now : Int)
    (publicId : Uuid) (payload : T) (runAt : Option Int)
    (concurrencyKey : Option String) : Except PushError (Jobs × Uuid) := do
  pusher.validateQueue
  validateConcurrencyKey concurrencyKey
  let bytes ← pusher.encodeOne payload 0
  match pusher.insertOne jobs now publicId bytes runAt concurrencyKey with
  | .error failure => .error (.fromSqlx failure)
  | .ok updated => .ok (updated, publicId)

def push (pusher : Pusher T) (jobs : Jobs) (now : Int)
    (publicId : Uuid) (payload : T) (concurrencyKey : Option String) :
    Except PushError (Jobs × Uuid) :=
  pusher.pushOne jobs now publicId payload none concurrencyKey

def pushAt (pusher : Pusher T) (jobs : Jobs) (now : Int)
    (publicId : Uuid) (payload : T) (runAt : Int)
    (concurrencyKey : Option String) : Except PushError (Jobs × Uuid) :=
  pusher.pushOne jobs now publicId payload (some runAt) concurrencyKey

/-- The encode loop of `push_batch` from item `index` on, with the bytes
accumulated so far. -/
def encodeItems (pusher : Pusher T) :
    Nat → Nat → List (T × Option String) →
      Except PushError (List (Bytes × Option String))
  | _, _, [] => .ok []
  | index, totalBytes, (payload, key) :: rest => do
      validateConcurrencyKey key
      let bytes ← pusher.encodeOne payload index
      -- `saturating_add` on `usize`
      let totalBytes := min (totalBytes + bytes.length) usizeMax
      if maxBatchBytes < totalBytes then
        .error (.batchPayloadTooLarge totalBytes maxBatchBytes)
      else
        let encoded ← pusher.encodeItems (index + 1) totalBytes rest
        .ok ((bytes, key) :: encoded)

/-- The rows `unnest` pairs up: position `i` of each array. -/
def unnest (queue : String) :
    List (Bytes × Option String) → List Uuid → List NewJob
  | (bytes, key) :: items, publicId :: publicIds =>
      { queue := queue
        payload := bytes
        publicId := publicId
        runAt := none
        concurrencyKey := key } :: unnest queue items publicIds
  | _, _ => []

/-- The INSERT of `push_batch`. -/
def insertBatch (pusher : Pusher T) (jobs : Jobs) (now : Int)
    (items : List (Bytes × Option String)) (publicIds : List Uuid) :
    Except SqlError Jobs := do
  let queue ← textParam pusher.queue
  let keys ← items.mapM fun item => bindOption textParam item.2
  Jobs.insertAll now jobs
    (unnest queue ((items.map Prod.fst).zip keys) publicIds)

/-- `push_batch`; `draw i` is the `i`-th id the call draws. -/
def pushBatch (pusher : Pusher T) (jobs : Jobs) (now : Int)
    (draw : Nat → Uuid) (items : List (T × Option String)) :
    Except PushError (Jobs × List Uuid) := do
  pusher.validateQueue
  if items.isEmpty then
    .error .batchEmpty
  else if maxBatchSize < items.length then
    .error (.batchTooLarge items.length maxBatchSize)
  else
    let encoded ← pusher.encodeItems 0 0 items
    let publicIds := (List.range items.length).map draw
    match pusher.insertBatch jobs now encoded publicIds with
    | .error failure => .error (.fromSqlx failure)
    | .ok updated =>
        let inserted := updated.rows.length - jobs.rows.length
        if inserted ≠ publicIds.length then
          .error (.batchPartial inserted publicIds.length)
        else
          .ok (updated, publicIds)

/-- What `push_batch` does before it draws ids and sends its INSERT. -/
def prepareBatch (pusher : Pusher T) (items : List (T × Option String)) :
    Except PushError (List (Bytes × Option String)) := do
  pusher.validateQueue
  if items.isEmpty then
    .error .batchEmpty
  else if maxBatchSize < items.length then
    .error (.batchTooLarge items.length maxBatchSize)
  else
    pusher.encodeItems 0 0 items

/-- The INSERT of `push_batch`, with what is made of its reply. -/
def sendBatch (pusher : Pusher T) (jobs : Jobs) (now : Int)
    (publicIds : List Uuid) (encoded : List (Bytes × Option String)) :
    Except PushError (Jobs × List Uuid) :=
  match pusher.insertBatch jobs now encoded publicIds with
  | .error failure => .error (.fromSqlx failure)
  | .ok updated =>
      let inserted := updated.rows.length - jobs.rows.length
      if inserted ≠ publicIds.length then
        .error (.batchPartial inserted publicIds.length)
      else
        .ok (updated, publicIds)

end Pusher

/-! ## What a push guarantees -/

/-- The columns that client-side validation bounds. -/
structure NewJob.Validated (new : NewJob) : Prop where
  queueNonempty : 0 < new.queue.length
  queueShort : new.queue.length ≤ maxQueueLen
  payloadSmall : new.payload.length ≤ maxPayloadBytes
  keyBounded : ∀ key, new.concurrencyKey = some key →
    0 < key.length ∧ key.length ≤ maxConcurrencyKeyLen

/-- A validated row passes every CHECK unless its `run_at` lies before its
`created_at`. -/
theorem NewJob.Validated.passesChecks_iff
    {new : NewJob} (valid : new.Validated) (id : Nat) (now : Int) :
    (new.row id now).PassesChecks ↔ now ≤ new.runAt.getD now := by
  rw [Row.passesChecks_iff, jobsTemporal_iff]
  constructor
  · rintro ⟨_, _, _, _, _, _, _, _, _, _, _, _, notBefore⟩
    exact notBefore
  · intro notBefore
    refine ⟨Int.le_refl _, valid.keyBounded, ?_, Int.le_refl _,
      valid.payloadSmall, valid.queueShort, valid.queueNonempty, rfl,
      ?_, ?_, ?_, Int.le_refl _, notBefore⟩
    all_goals simp [NewJob.row]

/-- The INSERT of a push was rejected by a CHECK. -/
def PushError.IsCheckViolation : PushError → Prop
  | .constraint source => source.IsCheckViolation
  | .transient source => source.IsCheckViolation
  | _ => False

/-- Validation or the codec refused the push; no statement was sent. -/
def PushError.ClientSide : PushError → Prop
  | .constraint _ => False
  | .transient _ => False
  | .batchPartial _ _ => False
  | _ => True

theorem PushError.ClientSide.not_isCheckViolation
    {failure : PushError} (clientSide : failure.ClientSide) :
    ¬ failure.IsCheckViolation := by
  cases failure with
  | constraint source => exact clientSide.elim
  | transient source => exact clientSide.elim
  | _ => exact id

@[simp]
theorem PushError.isCheckViolation_fromSqlx (failure : SqlError) :
    (PushError.fromSqlx failure).IsCheckViolation ↔
      failure.IsCheckViolation := by
  unfold fromSqlx
  split <;> rfl

theorem PushError.fromSqlx_ne_batchPartial (failure : SqlError)
    (inserted expected : Nat) :
    PushError.fromSqlx failure ≠ .batchPartial inserted expected := by
  unfold fromSqlx
  split <;> simp

namespace Pusher

variable {T : Type} {pusher : Pusher T} {jobs updated : Jobs} {now : Int}
  {publicId : Uuid} {payload : T} {runAt : Option Int}
  {concurrencyKey : Option String} {bytes : Bytes}

/-- The columns of the INSERT that `push` and `push_at` send. -/
def newJob (pusher : Pusher T) (publicId : Uuid) (bytes : Bytes)
    (runAt : Option Int) (concurrencyKey : Option String) : NewJob where
  queue := pusher.queue
  payload := bytes
  publicId := publicId
  runAt := runAt
  concurrencyKey := concurrencyKey

/-- A single push gets as far as its INSERT: validation passes, the codec
encodes and the server accepts every parameter. -/
structure Sends (pusher : Pusher T) (payload : T) (runAt : Option Int)
    (concurrencyKey : Option String) (bytes : Bytes) : Prop where
  queueValid : pusher.validateQueue = .ok ()
  keyValid : validateConcurrencyKey concurrencyKey = .ok ()
  encoded : pusher.encodeOne payload 0 = .ok bytes
  queueBound : textParam pusher.queue = .ok pusher.queue
  runAtBound : bindOption timestampParam runAt = .ok runAt
  keyBound : bindOption textParam concurrencyKey = .ok concurrencyKey

theorem textParam_eq (text : String) :
    textParam text = .ok text ∨
      textParam text = .error .characterNotInRepertoire := by
  unfold textParam
  split
  · exact Or.inr rfl
  · exact Or.inl rfl

theorem timestampParam_eq (time : Int) :
    timestampParam time = .ok time ∨
      timestampParam time = .error .datetimeFieldOverflow := by
  unfold timestampParam
  split
  · exact Or.inl rfl
  · exact Or.inr rfl

/-- A parameter is bound unchanged or refused; so is an optional one. -/
theorem bindOption_eq
    {Value : Type} {param : Value → Except SqlError Value}
    {refusal : SqlError}
    (unchanged : ∀ value, param value = .ok value ∨
      param value = .error refusal)
    (value : Option Value) :
    bindOption param value = .ok value ∨
      bindOption param value = .error refusal := by
  cases value with
  | none =>
      exact Or.inl rfl
  | some value =>
      rcases unchanged value with bound | refused
      · left
        rw [bindOption, bound]
        rfl
      · right
        rw [bindOption, refused]
        rfl

theorem validateQueue_eq_ok_iff :
    pusher.validateQueue = .ok () ↔
      0 < pusher.queue.length ∧ pusher.queue.length ≤ maxQueueLen := by
  unfold validateQueue
  split
  · simp only [reduceCtorEq, false_iff]
    omega
  · simp only [true_iff]
    omega

theorem validateConcurrencyKey_eq_ok_iff :
    validateConcurrencyKey concurrencyKey = .ok () ↔
      ∀ key, concurrencyKey = some key →
        0 < key.length ∧ key.length ≤ maxConcurrencyKeyLen := by
  cases concurrencyKey with
  | none =>
      simp [validateConcurrencyKey]
  | some key =>
      simp only [validateConcurrencyKey, Option.some.injEq, forall_eq']
      split
      · simp only [reduceCtorEq, false_iff]
        omega
      · simp only [true_iff]
        omega

theorem length_of_encodeOne
    {value : T} {index : Nat}
    (encoded : pusher.encodeOne value index = .ok bytes) :
    bytes.length ≤ maxPayloadBytes := by
  unfold encodeOne at encoded
  split at encoded
  · split at encoded <;> cases encoded
  · split at encoded
    · cases encoded
    · cases encoded
      omega

theorem Sends.validated
    (sends : pusher.Sends payload runAt concurrencyKey bytes)
    (publicId : Uuid) :
    (pusher.newJob publicId bytes runAt concurrencyKey).Validated where
  queueNonempty := (validateQueue_eq_ok_iff.mp sends.queueValid).1
  queueShort := (validateQueue_eq_ok_iff.mp sends.queueValid).2
  payloadSmall := length_of_encodeOne sends.encoded
  keyBounded := validateConcurrencyKey_eq_ok_iff.mp sends.keyValid

theorem pushOne_of_sends
    (sends : pusher.Sends payload runAt concurrencyKey bytes) :
    pusher.pushOne jobs now publicId payload runAt concurrencyKey =
      match jobs.insert now
          (pusher.newJob publicId bytes runAt concurrencyKey) with
      | .error failure => .error (.fromSqlx failure)
      | .ok updated => .ok (updated, publicId) := by
  simp only [pushOne, insertOne, sends.queueValid, sends.keyValid,
    sends.encoded, sends.queueBound, sends.runAtBound, sends.keyBound,
    bind, Except.bind, newJob]

theorem validateQueue_eq_error
    {failure : PushError}
    (refused : pusher.validateQueue = .error failure) :
    failure.ClientSide := by
  unfold validateQueue at refused
  split at refused
  · cases refused
    trivial
  · cases refused

theorem validateConcurrencyKey_eq_error
    {failure : PushError}
    (refused : validateConcurrencyKey concurrencyKey = .error failure) :
    failure.ClientSide := by
  cases concurrencyKey with
  | none =>
      cases refused
  | some key =>
      unfold validateConcurrencyKey at refused
      dsimp only at refused
      split at refused
      · cases refused
        trivial
      · cases refused

theorem encodeOne_eq_error
    {value : T} {index : Nat} {failure : PushError}
    (refused : pusher.encodeOne value index = .error failure) :
    failure.ClientSide := by
  unfold encodeOne at refused
  split at refused
  · split at refused
    · cases refused
      trivial
    · cases refused
      trivial
  · split at refused
    · cases refused
      trivial
    · cases refused

/-- A single push either gets as far as its INSERT, or fails before any CHECK
is evaluated. -/
theorem sends_or_refused (pusher : Pusher T) (payload : T)
    (runAt : Option Int) (concurrencyKey : Option String) :
    (∃ bytes, pusher.Sends payload runAt concurrencyKey bytes) ∨
      ∃ failure : PushError, ¬ failure.IsCheckViolation ∧
        ∀ jobs now publicId, pusher.pushOne jobs now publicId payload runAt
          concurrencyKey = .error failure := by
  cases queueValid : pusher.validateQueue with
  | error failure =>
      refine Or.inr ⟨failure,
        (validateQueue_eq_error queueValid).not_isCheckViolation, ?_⟩
      intro jobs now publicId
      simp only [pushOne, queueValid, bind, Except.bind]
  | ok _ =>
    cases keyValid : validateConcurrencyKey concurrencyKey with
    | error failure =>
        refine Or.inr
          ⟨failure,
            (validateConcurrencyKey_eq_error keyValid).not_isCheckViolation,
            ?_⟩
        intro jobs now publicId
        simp only [pushOne, queueValid, keyValid, bind, Except.bind]
    | ok _ =>
      cases encoded : pusher.encodeOne payload 0 with
      | error failure =>
          refine Or.inr ⟨failure,
            (encodeOne_eq_error encoded).not_isCheckViolation, ?_⟩
          intro jobs now publicId
          simp only [pushOne, queueValid, keyValid, encoded, bind,
            Except.bind]
      | ok bytes =>
          have refusedIn (refusal : SqlError)
              (notCheck : ¬ refusal.IsCheckViolation)
              (fails : ∀ jobs now publicId, pusher.insertOne jobs now
                publicId bytes runAt concurrencyKey = .error refusal) :
              ∃ failure : PushError, ¬ failure.IsCheckViolation ∧
                ∀ jobs now publicId, pusher.pushOne jobs now publicId
                  payload runAt concurrencyKey = .error failure := by
            refine ⟨.fromSqlx refusal, by simpa using notCheck, ?_⟩
            intro jobs now publicId
            simp only [pushOne, queueValid, keyValid, encoded, fails, bind,
              Except.bind]
          rcases textParam_eq pusher.queue with queueBound | refused
          · rcases bindOption_eq timestampParam_eq runAt with
              runAtBound | refused
            · rcases bindOption_eq textParam_eq concurrencyKey with
                keyBound | refused
              · exact Or.inl ⟨bytes, queueValid, keyValid, encoded,
                  queueBound, runAtBound, keyBound⟩
              · exact Or.inr (refusedIn .characterNotInRepertoire
                  (by decide)
                  fun jobs now publicId => by
                    simp only [insertOne, queueBound, runAtBound, refused,
                      bind, Except.bind])
            · exact Or.inr (refusedIn .datetimeFieldOverflow
                (by decide)
                fun jobs now publicId => by
                  simp only [insertOne, queueBound, refused, bind,
                    Except.bind])
          · exact Or.inr (refusedIn .characterNotInRepertoire
              (by decide)
              fun jobs now publicId => by
                simp only [insertOne, refused, bind, Except.bind])

/-- A successful push inserted one validated row. -/
theorem pushOne_spec
    {returned : Uuid}
    (outcome : pusher.pushOne jobs now publicId payload runAt
      concurrencyKey = .ok (updated, returned)) :
    ∃ new : NewJob, new.Validated ∧ new.runAt = runAt ∧
      textParam new.queue = .ok new.queue ∧
      jobs.insert now new = .ok updated := by
  rcases sends_or_refused pusher payload runAt concurrencyKey with
    ⟨bytes, sends⟩ | ⟨failure, _, refused⟩
  · rw [pushOne_of_sends sends] at outcome
    split at outcome
    · cases outcome
    · rename_i inserted
      cases outcome
      exact ⟨_, sends.validated publicId, rfl, sends.queueBound, inserted⟩
  · rw [refused] at outcome
    cases outcome

private theorem pushOne_checkViolation_iff_of_sends
    (sends : pusher.Sends payload runAt concurrencyKey bytes) :
    (∃ failure : PushError, pusher.pushOne jobs now publicId payload runAt
        concurrencyKey = .error failure ∧ failure.IsCheckViolation) ↔
      runAt.getD now < now := by
  have inserted := Jobs.insert_checkViolation_iff jobs now
    (pusher.newJob publicId bytes runAt concurrencyKey)
  rw [(sends.validated publicId).passesChecks_iff, Int.not_le] at inserted
  rw [pushOne_of_sends sends]
  constructor
  · rintro ⟨failure, result, isCheck⟩
    split at result
    · rename_i refusal rejected
      cases result
      rw [PushError.isCheckViolation_fromSqlx] at isCheck
      exact inserted.mp ⟨refusal, rejected, isCheck⟩
    · cases result
  · intro early
    obtain ⟨refusal, rejected, isCheck⟩ := inserted.mpr early
    exact ⟨.fromSqlx refusal, by rw [rejected], by simpa using isCheck⟩

/-- A push is rejected by a CHECK exactly when it reaches its INSERT with a
`run_at` before the `created_at` the row would get. -/
theorem pushOne_checkViolation_iff :
    (∃ failure : PushError, pusher.pushOne jobs now publicId payload runAt
        concurrencyKey = .error failure ∧ failure.IsCheckViolation) ↔
      (∃ bytes, pusher.Sends payload runAt concurrencyKey bytes) ∧
        runAt.getD now < now := by
  constructor
  · rintro ⟨failure, result, isCheck⟩
    rcases sends_or_refused pusher payload runAt concurrencyKey with
      ⟨bytes, sends⟩ | ⟨refusal, notCheck, refused⟩
    · exact ⟨⟨bytes, sends⟩, (pushOne_checkViolation_iff_of_sends sends).mp
        ⟨failure, result, isCheck⟩⟩
    · rw [refused] at result
      cases result
      exact (notCheck isCheck).elim
  · rintro ⟨⟨bytes, sends⟩, early⟩
    exact (pushOne_checkViolation_iff_of_sends sends).mpr early

/-! ### `push_batch` -/

theorem encodeItems_spec
    {items : List (T × Option String)} {index totalBytes : Nat}
    {encoded : List (Bytes × Option String)}
    (outcome : pusher.encodeItems index totalBytes items = .ok encoded) :
    encoded.length = items.length ∧
      ∀ item ∈ encoded, item.1.length ≤ maxPayloadBytes ∧
        validateConcurrencyKey item.2 = .ok () := by
  induction items generalizing index totalBytes encoded with
  | nil =>
      cases outcome
      simp
  | cons item rest inductionHypothesis =>
      obtain ⟨payload, key⟩ := item
      unfold encodeItems at outcome
      cases keyValid : validateConcurrencyKey key with
      | error failure =>
          simp only [keyValid, bind, Except.bind] at outcome
          cases outcome
      | ok _ =>
        cases first : pusher.encodeOne payload index with
        | error failure =>
            simp only [keyValid, first, bind, Except.bind] at outcome
            cases outcome
        | ok bytes =>
            simp only [keyValid, first, bind, Except.bind] at outcome
            split at outcome
            · cases outcome
            · split at outcome
              · cases outcome
              · rename_i remaining tail
                cases outcome
                obtain ⟨sameLength, eachValid⟩ := inductionHypothesis tail
                refine ⟨by simp [sameLength], ?_⟩
                rintro item member
                rcases List.mem_cons.mp member with rfl | later
                · exact ⟨length_of_encodeOne first, keyValid⟩
                · exact eachValid item later

theorem encodeItems_eq_error
    {items : List (T × Option String)} {index totalBytes : Nat}
    {failure : PushError}
    (outcome : pusher.encodeItems index totalBytes items =
      .error failure) :
    failure.ClientSide := by
  induction items generalizing index totalBytes with
  | nil =>
      cases outcome
  | cons item rest inductionHypothesis =>
      obtain ⟨payload, key⟩ := item
      unfold encodeItems at outcome
      cases keyValid : validateConcurrencyKey key with
      | error refusal =>
          simp only [keyValid, bind, Except.bind] at outcome
          cases outcome
          exact validateConcurrencyKey_eq_error keyValid
      | ok _ =>
        cases first : pusher.encodeOne payload index with
        | error refusal =>
            simp only [keyValid, first, bind, Except.bind] at outcome
            cases outcome
            exact encodeOne_eq_error first
        | ok bytes =>
            simp only [keyValid, first, bind, Except.bind] at outcome
            split at outcome
            · cases outcome
              trivial
            · split at outcome
              · rename_i tail
                cases outcome
                exact inductionHypothesis tail
              · cases outcome

/-- Every row `unnest` builds pairs an item with an id. -/
theorem mem_unnest
    {queue : String} {items : List (Bytes × Option String)}
    {publicIds : List Uuid} {new : NewJob}
    (member : new ∈ unnest queue items publicIds) :
    (new.payload, new.concurrencyKey) ∈ items ∧ new.queue = queue ∧
      new.runAt = none := by
  induction items generalizing publicIds with
  | nil =>
      simp [unnest] at member
  | cons item rest inductionHypothesis =>
      obtain ⟨bytes, key⟩ := item
      cases publicIds with
      | nil =>
          simp [unnest] at member
      | cons publicId remaining =>
          rw [unnest] at member
          rcases List.mem_cons.mp member with rfl | later
          · exact ⟨List.mem_cons_self, rfl, rfl⟩
          · obtain ⟨paired, rest⟩ := inductionHypothesis later
            exact ⟨List.mem_cons_of_mem _ paired, rest⟩

theorem length_unnest
    (queue : String) (items : List (Bytes × Option String))
    (publicIds : List Uuid) (sameLength : items.length = publicIds.length) :
    (unnest queue items publicIds).length = publicIds.length := by
  induction items generalizing publicIds with
  | nil =>
      simpa [unnest] using sameLength
  | cons item rest inductionHypothesis =>
      cases publicIds with
      | nil =>
          simp at sameLength
      | cons publicId remaining =>
          simp only [List.length_cons, Nat.add_right_cancel_iff]
            at sameLength
          simp [unnest, inductionHypothesis remaining sameLength]

theorem mapM_bindOption_eq (items : List (Bytes × Option String)) :
    (items.mapM fun item => bindOption textParam item.2) =
        .ok (items.map Prod.snd) ∨
      (items.mapM fun item => bindOption textParam item.2) =
        .error .characterNotInRepertoire := by
  induction items with
  | nil =>
      exact Or.inl rfl
  | cons item rest inductionHypothesis =>
      rw [List.mapM_cons]
      rcases bindOption_eq textParam_eq item.2 with bound | refused
      · rcases inductionHypothesis with restBound | restRefused
        · rw [bound, restBound]
          exact Or.inl rfl
        · rw [bound, restRefused]
          exact Or.inr rfl
      · rw [refused]
        exact Or.inr rfl

/-- The INSERT of a batch fails on a parameter, or is the INSERT of the rows
`unnest` builds. -/
theorem insertBatch_eq (pusher : Pusher T) (jobs : Jobs) (now : Int)
    (items : List (Bytes × Option String)) (publicIds : List Uuid) :
    pusher.insertBatch jobs now items publicIds =
        .error .characterNotInRepertoire ∨
      textParam pusher.queue = .ok pusher.queue ∧
        pusher.insertBatch jobs now items publicIds =
          Jobs.insertAll now jobs (unnest pusher.queue items publicIds) := by
  unfold insertBatch
  rcases textParam_eq pusher.queue with queueBound | refused
  · rcases mapM_bindOption_eq items with keysBound | refused
    · refine Or.inr ⟨queueBound, ?_⟩
      rw [queueBound, keysBound]
      have rezipped :
          (items.map Prod.fst).zip (items.map Prod.snd) = items := by
        rw [← List.unzip_fst, ← List.unzip_snd, List.zip_unzip]
      simp only [bind, Except.bind, rezipped]
    · left
      rw [queueBound, refused]
      rfl
  · left
    rw [refused]
    rfl

/-- The rows of a batch that passed validation pass every CHECK. -/
theorem validated_of_mem_unnest
    {items : List (T × Option String)}
    {encoded : List (Bytes × Option String)} {publicIds : List Uuid}
    {new : NewJob}
    (queueValid : pusher.validateQueue = .ok ())
    (outcome : pusher.encodeItems 0 0 items = .ok encoded)
    (member : new ∈ unnest pusher.queue encoded publicIds) :
    new.Validated := by
  obtain ⟨paired, sameQueue, _⟩ := mem_unnest member
  obtain ⟨small, keyValid⟩ := (encodeItems_spec outcome).2 _ paired
  obtain ⟨nonempty, short⟩ := validateQueue_eq_ok_iff.mp queueValid
  exact
    { queueNonempty := sameQueue ▸ nonempty
      queueShort := sameQueue ▸ short
      payloadSmall := small
      keyBounded := validateConcurrencyKey_eq_ok_iff.mp keyValid }

/-- `push_batch` sends its INSERT only when its checks have passed. -/
theorem pushBatch_eq (pusher : Pusher T) (jobs : Jobs) (now : Int)
    (draw : Nat → Uuid) (items : List (T × Option String)) :
    pusher.pushBatch jobs now draw items =
      (pusher.prepareBatch items >>=
        pusher.sendBatch jobs now ((List.range items.length).map draw)) := by
  unfold pushBatch prepareBatch
  cases pusher.validateQueue with
  | error failure => rfl
  | ok _ =>
      simp only [bind, Except.bind]
      split
      · rfl
      · split
        · rfl
        · cases pusher.encodeItems 0 0 items with
          | error failure => rfl
          | ok encoded => rfl

theorem prepareBatch_eq_ok_iff {items : List (T × Option String)}
    {encoded : List (Bytes × Option String)} :
    pusher.prepareBatch items = .ok encoded ↔
      pusher.validateQueue = .ok () ∧ 1 ≤ items.length ∧
        items.length ≤ maxBatchSize ∧
        pusher.encodeItems 0 0 items = .ok encoded := by
  unfold prepareBatch
  cases pusher.validateQueue with
  | error failure => simp [bind, Except.bind]
  | ok _ =>
      simp only [bind, Except.bind, true_and, List.isEmpty_iff]
      by_cases empty : items = []
      · simp [empty]
      · have nonempty : 1 ≤ items.length := List.length_pos_iff.mpr empty
        rw [if_neg empty]
        by_cases large : maxBatchSize < items.length
        · simp only [if_pos large, reduceCtorEq, false_iff]
          rintro ⟨_, bounded, _⟩
          omega
        · simp only [if_neg large, nonempty, Nat.le_of_not_lt large,
            true_and]

theorem prepareBatch_eq_error {items : List (T × Option String)}
    {failure : PushError}
    (refused : pusher.prepareBatch items = .error failure) :
    failure.ClientSide := by
  unfold prepareBatch at refused
  cases queueValid : pusher.validateQueue with
  | error own =>
      rw [queueValid] at refused
      cases refused
      exact validateQueue_eq_error queueValid
  | ok _ =>
      simp only [queueValid, bind, Except.bind] at refused
      split at refused
      · cases refused
        trivial
      · split at refused
        · cases refused
          trivial
        · exact encodeItems_eq_error refused

/-- The INSERT of a batch that passed the checks fails for a parameter or a
`public_id`, or inserts one validated row per item. -/
theorem sendBatch_cases {items : List (T × Option String)}
    {encoded : List (Bytes × Option String)} {publicIds : List Uuid}
    (jobs : Jobs) (now : Int)
    (prepared : pusher.prepareBatch items = .ok encoded)
    (sameLength : encoded.length = publicIds.length) :
    (∃ failure : SqlError, ¬ failure.IsCheckViolation ∧
        pusher.sendBatch jobs now publicIds encoded =
          .error (.fromSqlx failure)) ∨
      ∃ updated news, (∀ new ∈ news, new.Validated ∧ new.runAt = none ∧
          textParam new.queue = .ok new.queue) ∧
        Jobs.insertAll now jobs news = .ok updated ∧
        pusher.sendBatch jobs now publicIds encoded =
          .ok (updated, publicIds) := by
  obtain ⟨queueValid, _, _, encoding⟩ := prepareBatch_eq_ok_iff.mp prepared
  unfold sendBatch
  rcases insertBatch_eq pusher jobs now encoded publicIds with
    paramRefused | ⟨queueBound, sent⟩
  · rw [paramRefused]
    exact Or.inl ⟨_, by decide, rfl⟩
  · rw [sent]
    have validated (new : NewJob)
        (member : new ∈ unnest pusher.queue encoded publicIds) :
        new.Validated :=
      validated_of_mem_unnest queueValid encoding member
    cases inserted : Jobs.insertAll now jobs
        (unnest pusher.queue encoded publicIds) with
    | error failure =>
        have unique := Jobs.insertAll_eq_error
          (fun new member id =>
            ((validated new member).passesChecks_iff id now).mpr
              (by simp [(mem_unnest member).2.2]))
          inserted
        subst unique
        exact Or.inl ⟨_, by decide, rfl⟩
    | ok updated =>
        obtain ⟨_, size, _⟩ := Jobs.insertAll_spec inserted
        rw [length_unnest _ _ _ sameLength] at size
        refine Or.inr ⟨updated, _, fun new member =>
          ⟨validated new member, (mem_unnest member).2.2,
            (mem_unnest member).2.1 ▸ queueBound⟩, inserted, ?_⟩
        dsimp only
        rw [if_neg (by omega)]

/-- A batch is refused by the client, refused by the server for a parameter or
a `public_id`, or inserts one validated row per item. -/
theorem pushBatch_cases (pusher : Pusher T) (jobs : Jobs) (now : Int)
    (draw : Nat → Uuid) (items : List (T × Option String)) :
    (∃ failure : PushError, ¬ failure.IsCheckViolation ∧
        (∀ inserted expected, failure ≠ .batchPartial inserted expected) ∧
        pusher.pushBatch jobs now draw items = .error failure) ∨
      ∃ updated news, (∀ new ∈ news, new.Validated ∧ new.runAt = none ∧
          textParam new.queue = .ok new.queue) ∧
        Jobs.insertAll now jobs news = .ok updated ∧
        pusher.pushBatch jobs now draw items =
          .ok (updated, (List.range items.length).map draw) := by
  rw [pushBatch_eq]
  cases prepared : pusher.prepareBatch items with
  | error failure =>
      have clientSide := prepareBatch_eq_error prepared
      refine Or.inl ⟨failure, clientSide.not_isCheckViolation, ?_, rfl⟩
      rintro _ _ rfl
      exact clientSide
  | ok encoded =>
      obtain ⟨_, _, _, encoding⟩ := prepareBatch_eq_ok_iff.mp prepared
      have sameLength : encoded.length =
          ((List.range items.length).map draw).length := by
        simp [(encodeItems_spec encoding).1]
      rcases sendBatch_cases jobs now prepared sameLength with
        ⟨failure, notCheck, refused⟩ | inserted
      · exact Or.inl ⟨_, (PushError.isCheckViolation_fromSqlx _).not.mpr
          notCheck, PushError.fromSqlx_ne_batchPartial _, refused⟩
      · exact Or.inr inserted

end Pusher

end PgWorkQueue
