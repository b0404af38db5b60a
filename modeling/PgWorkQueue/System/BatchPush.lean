import PgWorkQueue.System.Execution

/-!
# `push_batch`: all or nothing, in order, and which error

`push_batch` validates and encodes every item before it sends one INSERT for
all of them.  What the loop over the items stops at is compared with the
documented failure of each position: the key, the codec, the size of the
payload, the running total.
-/

namespace PgWorkQueue

namespace Pusher

variable {T : Type}

/-! ## The documented failure of a position -/

/-- The size of a payload that encodes. -/
def encodedSize (pusher : Pusher T) (payload : T) : Nat :=
  match pusher.codec.encode payload with
  | .ok bytes => bytes.length
  | .error _ => 0

def totalSize (pusher : Pusher T) : List (T × Option String) → Nat
  | [] => 0
  | item :: rest => pusher.encodedSize item.1 + pusher.totalSize rest

def keyFailure : Option String → Option PushError
  | none => none
  | some key =>
      if 1 ≤ key.length ∧ key.length ≤ maxConcurrencyKeyLen then none
      else some (.concurrencyKeyInvalid key)

/-- The failure of a payload; `totalBytes` counts the items up to and with
this one. -/
def payloadFailure (pusher : Pusher T) (index totalBytes : Nat)
    (payload : T) : Option PushError :=
  match pusher.codec.encode payload with
  | .error source => some (.batchCodec index source)
  | .ok bytes =>
      if maxPayloadBytes < bytes.length then
        some (.payloadTooLarge index bytes.length maxPayloadBytes)
      else if maxBatchBytes < totalBytes then
        some (.batchPayloadTooLarge totalBytes maxBatchBytes)
      else none

def itemFailure (pusher : Pusher T) (index totalBytes : Nat)
    (item : T × Option String) : Option PushError :=
  (keyFailure item.2).or (pusher.payloadFailure index totalBytes item.1)

/-- The failure of the item at a position of the batch. -/
def failureAt (pusher : Pusher T) (items : List (T × Option String))
    (position : Nat) : Option PushError :=
  items[position]?.bind
    (pusher.itemFailure position (pusher.totalSize (items.take (position + 1))))

end Pusher

/-- Index 0 stands for a single push: `encode_one` reports the codec's error on
the first item of a batch as `Codec`. -/
def PushError.reported : PushError → PushError
  | batchCodec 0 source => codec source
  | failure => failure

namespace Pusher

variable {T : Type} {pusher : Pusher T} {item : T × Option String}
  {rest items : List (T × Option String)} {index totalBytes : Nat}

/-! ## One round of the loop -/

theorem validateConcurrencyKey_eq (key : Option String) :
    validateConcurrencyKey key =
      match keyFailure key with
      | none => .ok ()
      | some failure => .error failure := by
  cases key with
  | none => rfl
  | some key =>
      unfold validateConcurrencyKey keyFailure
      dsimp only
      split
      · rw [if_neg (by omega)]
      · rw [if_pos (by omega)]

theorem reported_of_keyFailure {key : Option String} {failure : PushError}
    (failed : keyFailure key = some failure) :
    failure.reported = failure := by
  cases key with
  | none => cases failed
  | some key =>
      unfold keyFailure at failed
      dsimp only at failed
      split at failed
      · cases failed
      · cases failed
        rfl

theorem encodeOne_eq (pusher : Pusher T) (payload : T) (index : Nat) :
    pusher.encodeOne payload index =
      match pusher.codec.encode payload with
      | .error source => .error (PushError.batchCodec index source).reported
      | .ok bytes =>
          if maxPayloadBytes < bytes.length then
            .error (.payloadTooLarge index bytes.length maxPayloadBytes)
          else .ok bytes := by
  unfold encodeOne
  cases pusher.codec.encode payload with
  | error source =>
      cases index with
      | zero => rfl
      | succ index => rfl
  | ok bytes => rfl

/-- What the loop does with an item. -/
inductive Round (pusher : Pusher T) (index totalBytes : Nat)
    (item : T × Option String) (rest : List (T × Option String)) : Prop
  | stops (failure : PushError)
      (failed : pusher.itemFailure index
        (totalBytes + pusher.encodedSize item.1) item = some failure)
      (reports : pusher.encodeItems index totalBytes (item :: rest) =
        .error failure.reported)
  | goesOn (bytes : Bytes)
      (passed : pusher.itemFailure index
        (totalBytes + pusher.encodedSize item.1) item = none)
      (encodes : pusher.codec.encode item.1 = .ok bytes)
      (small : totalBytes + pusher.encodedSize item.1 ≤ maxBatchBytes)
      (continues : pusher.encodeItems index totalBytes (item :: rest) =
        (pusher.encodeItems (index + 1)
          (totalBytes + pusher.encodedSize item.1) rest).map
            ((bytes, item.2) :: ·))

/-- The total stays far below `usize::MAX`: nothing saturates. -/
theorem totalBytes_exact {bytes : Bytes}
    (small : totalBytes ≤ maxBatchBytes)
    (notLarge : ¬ maxPayloadBytes < bytes.length) :
    min (totalBytes + bytes.length) usizeMax = totalBytes + bytes.length := by
  have room : maxBatchBytes + maxPayloadBytes ≤ usizeMax := by decide
  omega

theorem round_of_valid_key {payload : T} {key : Option String}
    (small : totalBytes ≤ maxBatchBytes) (validKey : keyFailure key = none) :
    pusher.Round index totalBytes (payload, key) rest := by
  have keyCheck := validateConcurrencyKey_eq key
  rw [validKey] at keyCheck
  have own (total : Nat) : pusher.itemFailure index total (payload, key) =
      pusher.payloadFailure index total payload := by
    simp [itemFailure, validKey]
  have encodeCheck := pusher.encodeOne_eq payload index
  cases encodes : pusher.codec.encode payload with
  | error source =>
      rw [encodes] at encodeCheck
      refine .stops (.batchCodec index source) ?_ ?_
      · simp [own, payloadFailure, encodes]
      · simp only [encodeItems, keyCheck, encodeCheck, bind, Except.bind]
  | ok bytes =>
      have size : pusher.encodedSize payload = bytes.length := by
        simp [encodedSize, encodes]
      rw [encodes] at encodeCheck
      by_cases large : maxPayloadBytes < bytes.length
      · simp only [if_pos large] at encodeCheck
        refine .stops (.payloadTooLarge index bytes.length maxPayloadBytes)
          ?_ ?_
        · simp [own, payloadFailure, encodes, large]
        · simp only [encodeItems, keyCheck, encodeCheck, bind, Except.bind]
          rfl
      · simp only [if_neg large] at encodeCheck
        by_cases exceeds : maxBatchBytes < totalBytes + bytes.length
        · refine .stops
            (.batchPayloadTooLarge (totalBytes + bytes.length) maxBatchBytes)
            ?_ ?_
          · simp [own, payloadFailure, encodes, size, large, exceeds]
          · simp only [encodeItems, keyCheck, encodeCheck, bind, Except.bind,
              totalBytes_exact small large, if_pos exceeds]
            rfl
        · refine .goesOn bytes ?_ encodes ?_ ?_
          · simp [own, payloadFailure, encodes, size, large, exceeds]
          · rw [size]
            exact Nat.le_of_not_lt exceeds
          · simp only [encodeItems, keyCheck, encodeCheck, bind, Except.bind,
              totalBytes_exact small large, if_neg exceeds, size]
            cases pusher.encodeItems (index + 1) (totalBytes + bytes.length)
              rest <;> rfl

/-- The loop stops at an item with its documented failure, as it is reported,
or adds the encoded item and goes on. -/
theorem round (small : totalBytes ≤ maxBatchBytes) :
    pusher.Round index totalBytes item rest := by
  obtain ⟨payload, key⟩ := item
  cases keyFails : keyFailure key with
  | none => exact round_of_valid_key small keyFails
  | some failure =>
      have keyCheck := validateConcurrencyKey_eq key
      rw [keyFails] at keyCheck
      refine .stops failure ?_ ?_
      · simp [itemFailure, keyFails]
      · rw [reported_of_keyFailure keyFails]
        simp only [encodeItems, keyCheck, bind, Except.bind]

/-! ## The first failing position -/

/-- The failure at a position when the loop is at `index` with `totalBytes`
behind it. -/
def failureFrom (pusher : Pusher T) (index totalBytes : Nat)
    (items : List (T × Option String)) (position : Nat) : Option PushError :=
  items[position]?.bind (pusher.itemFailure (index + position)
    (totalBytes + pusher.totalSize (items.take (position + 1))))

theorem failureAt_eq (position : Nat) :
    pusher.failureAt items position =
      pusher.failureFrom 0 0 items position := by
  simp [failureAt, failureFrom]

theorem failureFrom_zero :
    pusher.failureFrom index totalBytes (item :: rest) 0 =
      pusher.itemFailure index (totalBytes + pusher.encodedSize item.1)
        item := by
  simp [failureFrom, totalSize]

theorem failureFrom_succ (position : Nat) :
    pusher.failureFrom index totalBytes (item :: rest) (position + 1) =
      pusher.failureFrom (index + 1)
        (totalBytes + pusher.encodedSize item.1) rest position := by
  have sameIndex : index + (position + 1) = index + 1 + position := by omega
  simp [failureFrom, totalSize, sameIndex, Nat.add_assoc]

/-- The loop reports the failure of the first position that has one. -/
theorem encodeItems_of_first_failure {position : Nat} {failure : PushError}
    (small : totalBytes ≤ maxBatchBytes)
    (failing : pusher.failureFrom index totalBytes items position =
      some failure)
    (first : ∀ earlier < position,
      pusher.failureFrom index totalBytes items earlier = none) :
    pusher.encodeItems index totalBytes items = .error failure.reported := by
  induction items generalizing index totalBytes position with
  | nil => simp [failureFrom] at failing
  | cons item rest inductionHypothesis =>
      cases position with
      | zero =>
          rw [failureFrom_zero] at failing
          cases pusher.round small with
          | stops own failed reports =>
              rw [failing] at failed
              cases failed
              exact reports
          | goesOn bytes passed _ _ _ =>
              rw [failing] at passed
              cases passed
      | succ position =>
          have head := first 0 (Nat.succ_pos position)
          rw [failureFrom_zero] at head
          rw [failureFrom_succ] at failing
          cases pusher.round small with
          | stops own failed _ =>
              rw [head] at failed
              cases failed
          | goesOn bytes _ _ stillSmall continues =>
              rw [continues, inductionHypothesis stillSmall failing ?_]
              · rfl
              · intro earlier before
                rw [← failureFrom_succ]
                exact first (earlier + 1) (Nat.succ_lt_succ before)

/-- A failure in a list of allowed length on a valid queue is what
`push_batch` returns. -/
theorem prepareBatch_of_first_failure {position : Nat} {failure : PushError}
    (queueValid : pusher.validateQueue = .ok ())
    (size : items.length ≤ maxBatchSize)
    (failing : pusher.failureAt items position = some failure)
    (first : ∀ earlier < position, pusher.failureAt items earlier = none) :
    pusher.prepareBatch items = .error failure.reported := by
  have nonempty : ¬ items.isEmpty = true := by
    intro empty
    rw [List.isEmpty_iff.mp empty] at failing
    cases failing
  simp only [failureAt_eq] at failing first
  simp only [prepareBatch, queueValid, bind, Except.bind, if_neg nonempty,
    if_neg (Nat.not_lt.mpr size)]
  exact encodeItems_of_first_failure (Nat.zero_le _) failing first

end Pusher

theorem PushError.reported_eq_self_iff {failure : PushError} :
    failure.reported = failure ↔ ∀ source, failure ≠ .batchCodec 0 source := by
  cases failure with
  | batchCodec index source =>
      cases index with
      | zero => simp [reported]
      | succ index => simp [reported]
  | _ => simp [reported]

/-- `push_batch` returns the documented failure of the first failing position,
except for an error of the codec on the first item. -/
theorem pushBatch_reports_first_failure_iff {T : Type} {pusher : Pusher T}
    {items : List (T × Option String)} {position : Nat} {failure : PushError}
    (queueValid : pusher.validateQueue = .ok ())
    (size : items.length ≤ maxBatchSize)
    (failing : pusher.failureAt items position = some failure)
    (first : ∀ earlier < position, pusher.failureAt items earlier = none)
    (jobs : Jobs) (now : Int) (draw : Nat → Uuid) :
    pusher.pushBatch jobs now draw items = .error failure ↔
      ∀ source, failure ≠ .batchCodec 0 source := by
  have reports : pusher.pushBatch jobs now draw items =
      .error failure.reported := by
    rw [Pusher.pushBatch_eq, Pusher.prepareBatch_of_first_failure queueValid
      size failing first]
    rfl
  rw [reports, ← PushError.reported_eq_self_iff, Except.error.injEq]

/-! ### A codec that refuses an item -/

namespace PickyBatch

/-- A codec that encodes `true` only. -/
def codec : Codec Bool where
  encode := fun payload => if payload then .ok [] else .error "refused"
  decode := fun _ => .value true

def pusher : Pusher Bool := ⟨"mail", codec⟩

end PickyBatch

theorem pushBatch_reports_refused_second :
    PickyBatch.pusher.pushBatch .empty 0 (fun _ => ⟨0⟩)
        [(true, none), (false, none)] = .error (.batchCodec 1 "refused") := by
  have failing : PickyBatch.pusher.failureAt [(true, none), (false, none)] 1 =
      some (.batchCodec 1 "refused") := rfl
  refine (pushBatch_reports_first_failure_iff rfl (by decide) failing ?_
    _ _ _).mpr ?_
  · intro earlier before
    obtain rfl : earlier = 0 := by omega
    rfl
  · intro source same
    cases same

/-- The first item is refused, and the error does not say that it was item 0 of
a batch. -/
theorem pushBatch_reports_refused_first_as_codec :
    PickyBatch.pusher.failureAt [(false, none), (true, none)] 0 =
        some (.batchCodec 0 "refused") ∧
      ∀ jobs now draw,
        PickyBatch.pusher.pushBatch jobs now draw
          [(false, none), (true, none)] = .error (.codec "refused") :=
  ⟨rfl, fun _ _ _ => rfl⟩

/-! ## Which batches pass -/

namespace Pusher

variable {T : Type} {pusher : Pusher T} {item : T × Option String}
  {items : List (T × Option String)} {index totalBytes : Nat}

structure ValidItem (pusher : Pusher T) (item : T × Option String) :
    Prop where
  keyBounded : ∀ key, item.2 = some key →
    1 ≤ key.length ∧ key.length ≤ maxConcurrencyKeyLen
  encodes : ∃ bytes, pusher.codec.encode item.1 = .ok bytes ∧
    bytes.length ≤ maxPayloadBytes

/-- What a batch has to be to reach the INSERT. -/
structure ValidBatch (pusher : Pusher T) (items : List (T × Option String)) :
    Prop where
  queueNonempty : 1 ≤ pusher.queue.length
  queueShort : pusher.queue.length ≤ maxQueueLen
  nonempty : 1 ≤ items.length
  bounded : items.length ≤ maxBatchSize
  eachValid : ∀ item ∈ items, pusher.ValidItem item
  totalBounded : pusher.totalSize items ≤ maxBatchBytes

theorem keyFailure_eq_none_iff {key : Option String} :
    keyFailure key = none ↔ ∀ text, key = some text →
      1 ≤ text.length ∧ text.length ≤ maxConcurrencyKeyLen := by
  cases key with
  | none => simp [keyFailure]
  | some text => simp [keyFailure]

theorem payloadFailure_eq_none_iff {payload : T} :
    pusher.payloadFailure index totalBytes payload = none ↔
      (∃ bytes, pusher.codec.encode payload = .ok bytes ∧
        bytes.length ≤ maxPayloadBytes) ∧ totalBytes ≤ maxBatchBytes := by
  unfold payloadFailure
  cases pusher.codec.encode payload with
  | error source => simp
  | ok bytes =>
      by_cases large : maxPayloadBytes < bytes.length
      · simp [large]
      · simp [large, Nat.le_of_not_lt large]

theorem itemFailure_eq_none_iff :
    pusher.itemFailure index totalBytes item = none ↔
      pusher.ValidItem item ∧ totalBytes ≤ maxBatchBytes := by
  rw [itemFailure, Option.or_eq_none_iff, keyFailure_eq_none_iff,
    payloadFailure_eq_none_iff]
  constructor
  · rintro ⟨keyBounded, encodes, small⟩
    exact ⟨⟨keyBounded, encodes⟩, small⟩
  · rintro ⟨valid, small⟩
    exact ⟨valid.keyBounded, valid.encodes, small⟩

/-- The loop comes to its end exactly on valid items that are small together. -/
theorem exists_encodeItems_eq_ok_iff (small : totalBytes ≤ maxBatchBytes) :
    (∃ encoded, pusher.encodeItems index totalBytes items = .ok encoded) ↔
      (∀ item ∈ items, pusher.ValidItem item) ∧
        totalBytes + pusher.totalSize items ≤ maxBatchBytes := by
  induction items generalizing index totalBytes with
  | nil => simpa [encodeItems, totalSize] using small
  | cons item rest inductionHypothesis =>
      rw [List.forall_mem_cons, totalSize, ← Nat.add_assoc]
      have round : pusher.Round index totalBytes item rest :=
        pusher.round small
      cases round with
      | stops failure failed reports =>
          simp only [reports, reduceCtorEq, exists_false, false_iff]
          rintro ⟨⟨valid, _⟩, bounded⟩
          rw [itemFailure_eq_none_iff.mpr
            ⟨valid, Nat.le_of_add_right_le bounded⟩] at failed
          cases failed
      | goesOn bytes passed _ stillSmall continues =>
          have valid := (itemFailure_eq_none_iff.mp passed).1
          rw [continues, ← and_assoc.symm, and_iff_right valid,
            ← inductionHypothesis stillSmall]
          cases pusher.encodeItems (index + 1)
            (totalBytes + pusher.encodedSize item.1) rest with
          | error failure => simp [Except.map]
          | ok encoded => simp [Except.map]

/-- The client-side checks of `push_batch` pass exactly on a valid batch. -/
theorem exists_prepareBatch_eq_ok_iff :
    (∃ encoded, pusher.prepareBatch items = .ok encoded) ↔
      pusher.ValidBatch items := by
  simp only [prepareBatch_eq_ok_iff, exists_and_left,
    exists_encodeItems_eq_ok_iff (Nat.zero_le _), Nat.zero_add,
    validateQueue_eq_ok_iff]
  constructor
  · rintro ⟨⟨queueNonempty, queueShort⟩, nonempty, bounded, eachValid, total⟩
    exact ⟨queueNonempty, queueShort, nonempty, bounded, eachValid, total⟩
  · intro valid
    exact ⟨⟨valid.queueNonempty, valid.queueShort⟩, valid.nonempty,
      valid.bounded, valid.eachValid, valid.totalBounded⟩

/-! ## Position by position -/

/-- Item `i` of the encoded list is the encoding of item `i`, with its key. -/
theorem getElem?_of_encodeItems
    {encoded : List (Bytes × Option String)} {position : Nat}
    (small : totalBytes ≤ maxBatchBytes)
    (outcome : pusher.encodeItems index totalBytes items = .ok encoded)
    (here : items[position]? = some item) :
    ∃ bytes, pusher.codec.encode item.1 = .ok bytes ∧
      encoded[position]? = some (bytes, item.2) := by
  induction items generalizing index totalBytes encoded position with
  | nil => cases here
  | cons first rest inductionHypothesis =>
      have round : pusher.Round index totalBytes first rest :=
        pusher.round small
      cases round with
      | stops failure failed reports =>
          rw [reports] at outcome
          cases outcome
      | goesOn bytes _ encodes stillSmall continues =>
          rw [continues] at outcome
          cases later : pusher.encodeItems (index + 1)
              (totalBytes + pusher.encodedSize first.1) rest with
          | error failure =>
              rw [later] at outcome
              cases outcome
          | ok remaining =>
              rw [later] at outcome
              cases outcome
              cases position with
              | zero =>
                  cases here
                  exact ⟨bytes, encodes, rfl⟩
              | succ position =>
                  obtain ⟨tailBytes, tailEncodes, coded⟩ :=
                    inductionHypothesis stillSmall later here
                  exact ⟨tailBytes, tailEncodes, coded⟩

theorem getElem?_unnest {queue : String}
    {encoded : List (Bytes × Option String)} {publicIds : List Uuid}
    {position : Nat} {bytes : Bytes} {key : Option String} {publicId : Uuid}
    (coded : encoded[position]? = some (bytes, key))
    (drawn : publicIds[position]? = some publicId) :
    (unnest queue encoded publicIds)[position]? =
      some ⟨queue, bytes, publicId, none, key⟩ := by
  induction encoded generalizing publicIds position with
  | nil => cases coded
  | cons head rest inductionHypothesis =>
      cases publicIds with
      | nil => cases drawn
      | cons id remaining =>
          cases position with
          | zero =>
              cases coded
              cases drawn
              rfl
          | succ position => exact inductionHypothesis coded drawn

theorem map_publicId_unnest {queue : String}
    {encoded : List (Bytes × Option String)} {publicIds : List Uuid}
    (sameLength : encoded.length = publicIds.length) :
    (unnest queue encoded publicIds).map NewJob.publicId = publicIds := by
  induction encoded generalizing publicIds with
  | nil => exact (List.eq_nil_of_length_eq_zero sameLength.symm).symm
  | cons head rest inductionHypothesis =>
      cases publicIds with
      | nil => cases sameLength
      | cons id remaining =>
          rw [unnest, List.map_cons,
            inductionHypothesis (Nat.succ.inj sameLength)]

/-- The ids of a batch are distinct, so an id gives back its position. -/
theorem eq_of_publicId {queue : String}
    {encoded : List (Bytes × Option String)} {publicIds : List Uuid}
    {position other : Nat} {new otherNew : NewJob}
    (sameLength : encoded.length = publicIds.length)
    (distinct : publicIds.Nodup)
    (sent : (unnest queue encoded publicIds)[position]? = some new)
    (otherSent : (unnest queue encoded publicIds)[other]? = some otherNew)
    (same : otherNew.publicId = new.publicId) : position = other := by
  have drawn : publicIds[position]? = some new.publicId := by
    rw [← map_publicId_unnest sameLength, List.getElem?_map, sent]
    rfl
  have otherDrawn : publicIds[other]? = some new.publicId := by
    rw [← map_publicId_unnest sameLength, List.getElem?_map, otherSent]
    exact congrArg some same
  exact (List.getElem?_inj (List.getElem?_eq_some_iff.mp drawn).1
    distinct).mp (drawn.trans otherDrawn.symm)

/-- The row of an item: queued, with the item's encoding and key. -/
structure HoldsItem (pusher : Pusher T) (item : T × Option String)
    (publicId : Uuid) (row : Row) : Prop where
  publicId : row.publicId = publicId
  queued : row.status = .queued
  payload : pusher.codec.encode item.1 = .ok row.payload
  key : row.concurrencyKey = item.2
  queue : row.queue = pusher.queue

/-- What a successful batch leaves: one new row for each position, under the
id returned there, beside the old rows. -/
structure InsertedInOrder (pusher : Pusher T)
    (items : List (T × Option String)) (publicIds : List Uuid)
    (jobs updated : Jobs) : Prop where
  sameLength : publicIds.length = items.length
  distinct : publicIds.Nodup
  inserted : ∀ (position : Nat) (item : T × Option String) (publicId : Uuid),
    items[position]? = some item →
    publicIds[position]? = some publicId →
    ∃ row ∈ updated.rows, row ∉ jobs.rows ∧
      pusher.HoldsItem item publicId row ∧
      ∀ other ∈ updated.rows, other.publicId = publicId → other = row
  kept : ∀ row ∈ jobs.rows, row ∈ updated.rows
  noOther : ∀ row ∈ updated.rows, row ∈ jobs.rows ∨ row.publicId ∈ publicIds

variable {jobs updated : Jobs} {now : Int}
  {encoded : List (Bytes × Option String)} {publicIds : List Uuid}

theorem mem_newRows {id : Nat} {news : List NewJob} {row : Row}
    (member : row ∈ Jobs.newRows now id news) :
    ∃ (position : Nat) (new : NewJob), news[position]? = some new ∧
      row = new.row (id + position) now := by
  obtain ⟨position, here⟩ := List.mem_iff_getElem?.mp member
  rw [Jobs.getElem?_newRows, Option.map_eq_some_iff] at here
  obtain ⟨new, found, rfl⟩ := here
  exact ⟨position, new, found, rfl⟩

/-- The INSERT of an encoded batch puts each item under its own id. -/
theorem insertedInOrder_of_insertAll
    (encoding : pusher.encodeItems 0 0 items = .ok encoded)
    (sameLength : publicIds.length = items.length)
    (outcome : Jobs.insertAll now jobs
      (unnest pusher.queue encoded publicIds) = .ok updated) :
    pusher.InsertedInOrder items publicIds jobs updated := by
  have drawnEach : encoded.length = publicIds.length := by
    rw [(encodeItems_spec encoding).1, sameLength]
  obtain ⟨rows, distinct, fresh⟩ := Jobs.rows_of_insertAll outcome
  rw [map_publicId_unnest drawnEach] at distinct
  refine ⟨sameLength, distinct, ?_, ?_, ?_⟩
  · intro position item publicId here drawn
    obtain ⟨bytes, encodes, coded⟩ :=
      getElem?_of_encodeItems (Nat.zero_le _) encoding here
    have sent : (unnest pusher.queue encoded publicIds)[position]? =
        some ⟨pusher.queue, bytes, publicId, none, item.2⟩ :=
      getElem?_unnest coded drawn
    have added := Jobs.getElem?_newRows now jobs.nextId
      (unnest pusher.queue encoded publicIds) position
    rw [sent, Option.map_some] at added
    have newId (row : Row) (old : row ∈ jobs.rows) :
        row.publicId ≠ publicId :=
      fresh _ (List.mem_of_getElem? sent) row old
    refine ⟨_, rows ▸ List.mem_append_right _ (List.mem_of_getElem? added),
      fun old => newId _ old rfl, ⟨rfl, rfl, encodes, rfl, rfl⟩, ?_⟩
    intro other stored same
    rw [rows] at stored
    rcases List.mem_append.mp stored with old | new
    · exact absurd same (newId other old)
    · obtain ⟨otherPosition, otherNew, otherSent, rfl⟩ := mem_newRows new
      have samePosition := eq_of_publicId drawnEach distinct sent otherSent same
      rw [← samePosition] at otherSent ⊢
      rw [sent] at otherSent
      rw [Option.some.inj otherSent]
  · intro row old
    rw [rows]
    exact List.mem_append_left _ old
  · intro row stored
    rw [rows] at stored
    rcases List.mem_append.mp stored with old | new
    · exact Or.inl old
    · obtain ⟨position, added, sent, rfl⟩ := mem_newRows new
      right
      have drawn := List.mem_map_of_mem (f := NewJob.publicId)
        (List.mem_of_getElem? sent)
      rw [map_publicId_unnest drawnEach] at drawn
      exact drawn

/-- A batch that was sent and not refused returns the ids it inserted. -/
theorem sendBatch_eq_ok {returned : List Uuid}
    (outcome : pusher.sendBatch jobs now publicIds encoded =
      .ok (updated, returned)) :
    returned = publicIds ∧ Jobs.insertAll now jobs
      (unnest pusher.queue encoded publicIds) = .ok updated := by
  unfold sendBatch at outcome
  rcases insertBatch_eq pusher jobs now encoded publicIds with
    refused | ⟨_, sent⟩
  · rw [refused] at outcome
    cases outcome
  · rw [sent] at outcome
    split at outcome
    · cases outcome
    · rename_i stored inserted
      dsimp only at outcome
      split at outcome
      · cases outcome
      · cases outcome
        exact ⟨rfl, inserted⟩

end Pusher

/-- `push_batch` is all or nothing and positional: the INSERT is sent only when
the client-side checks pass, they pass exactly on valid batches, a batch that
fails them leaves the table as it was, and the ids returned are those of the
rows inserted, position by position. -/
theorem pushBatch_all_or_nothing_in_order {T : Type} (pusher : Pusher T)
    (items : List (T × Option String)) :
    (∀ jobs now draw, pusher.pushBatch jobs now draw items =
      (pusher.prepareBatch items >>=
        pusher.sendBatch jobs now ((List.range items.length).map draw))) ∧
    (∀ failure, pusher.prepareBatch items = .error failure →
      ∀ jobs now draw,
        execute jobs now (.pushBatch pusher draw items) =
          (jobs, .pushFailed failure)) ∧
    ((∃ encoded, pusher.prepareBatch items = .ok encoded) ↔
      pusher.ValidBatch items) ∧
    ∀ jobs now draw updated publicIds,
      pusher.pushBatch jobs now draw items = .ok (updated, publicIds) →
      pusher.InsertedInOrder items publicIds jobs updated := by
  refine ⟨fun jobs now draw => pusher.pushBatch_eq jobs now draw items, ?_,
    Pusher.exists_prepareBatch_eq_ok_iff, ?_⟩
  · intro failure refused jobs now draw
    have returns : pusher.pushBatch jobs now draw items = .error failure := by
      rw [Pusher.pushBatch_eq, refused]
      rfl
    simp only [execute, commitOr, returns]
  · intro jobs now draw updated publicIds outcome
    rw [Pusher.pushBatch_eq] at outcome
    cases prepared : pusher.prepareBatch items with
    | error failure =>
        rw [prepared] at outcome
        cases outcome
    | ok encoded =>
        rw [prepared] at outcome
        obtain ⟨rfl, inserted⟩ := Pusher.sendBatch_eq_ok outcome
        obtain ⟨_, _, _, encoding⟩ :=
          Pusher.prepareBatch_eq_ok_iff.mp prepared
        exact Pusher.insertedInOrder_of_insertAll encoding (by simp) inserted

/-- Two items with and without a key, stored in order. -/
theorem pushBatch_stores_two_in_order :
    ∃ updated, PickyBatch.pusher.pushBatch .empty 0 (fun index => ⟨index⟩)
        [(true, some "alice"), (true, none)] = .ok (updated, [⟨0⟩, ⟨1⟩]) ∧
      PickyBatch.pusher.InsertedInOrder [(true, some "alice"), (true, none)]
        [⟨0⟩, ⟨1⟩] .empty updated := by
  refine ⟨_, rfl, ?_⟩
  exact (pushBatch_all_or_nothing_in_order PickyBatch.pusher _).2.2.2
    .empty 0 (fun index => ⟨index⟩) _ _ rfl

end PgWorkQueue
