import Mathlib.Data.List.Nodup
import Mathlib.Logic.Function.Basic
import PgWorkQueue.Library.Runs

/-!
# Statements that lock the rows they write

A database at READ COMMITTED executes a statement in parts.  A snapshot proposes
candidates; they are visited one by one, and each is locked in its latest
committed version.  The predicate of the statement is then evaluated on that
version: if it passes, the statement holds it and will write it; if not, the row
stays locked all the same.  At last the statement writes the rows it holds,
commits and releases its locks.  When another statement has locked a candidate,
a statement either skips it or waits.  Any number of statements are under way at
once.

Three facts are proved for every such database.  What a statement holds is
current until it commits, so that no update is lost.  Every version that is held
can be traced back to the step that locked it.  And if a statement that waits
never wants more than one row, no statement waits for one that waits itself, so
that every statement can be brought to its end.
-/

namespace Library.RowLocking

open Library.Runs

/-- Keeping an item or leaving it out makes a sublist. -/
theorem filterMap_sublist {Item : Type} {pick : Item → Option Item}
    (keeps : ∀ item picked, pick item = some picked → picked = item)
    (items : List Item) : (items.filterMap pick).Sublist items := by
  induction items with
  | nil => exact List.Sublist.slnil
  | cons item rest inductionHypothesis =>
      cases picked : pick item with
      | none =>
          rw [List.filterMap_cons_none picked]
          exact inductionHypothesis.cons item
      | some same =>
          rw [List.filterMap_cons_some picked, keeps item same picked]
          exact inductionHypothesis.cons_cons item

/-- What a database offers: a table of versions under keys, statements that are
executed in parts, and insertions of new rows. -/
structure Signature (Table Key Version Statement Insertion : Type) where
  find : Table → Key → Option Version
  key : Version → Key
  /-- The statement may take its snapshot of this table. -/
  opens : Table → Statement → Prop
  /-- The rows that the snapshot proposes, in the order of the visits. -/
  candidates : Statement → Table → List Key
  /-- The predicate, evaluated again on the latest version of a row. -/
  test : Statement → Version → Bool
  limit : Statement → Nat
  /-- The statement skips a row that is locked and does not wait for it. -/
  skipsLocked : Statement → Bool
  /-- The table after the statement has written the rows it holds. -/
  write : Statement → Table → List Version → Table
  inserts : Insertion → Table → Table → Prop
  /-- What a statement may rely on of a table later than its snapshot. -/
  follows : Table → Table → Prop

section Databases

variable {Id Table Key Version Statement Insertion : Type}

/-- The latest version of a row, if it passes the predicate. -/
def Signature.passing
    (signature : Signature Table Key Version Statement Insertion)
    (table : Table) (statement : Statement) (wanted : Key) : Option Version :=
  (signature.find table wanted).filter (signature.test statement)

/-- A statement holds rows: candidates of its snapshot, each in its latest
version, which passes the predicate. -/
structure Holds
    (signature : Signature Table Key Version Statement Insertion)
    (statement : Statement) (snapshot table : Table) (held : List Version) :
    Prop where
  opened : signature.opens snapshot statement
  followed : signature.follows snapshot table
  proposed : (held.map signature.key).Sublist
    (signature.candidates statement snapshot)
  latest : ∀ version ∈ held,
    signature.find table (signature.key version) = some version
  passes : ∀ version ∈ held, signature.test statement version = true
  bounded : held.length ≤ signature.limit statement

/-- The laws of a database: a write touches only the rows that are held, and an
insertion none of those that exist. -/
structure Database (Table Key Version Statement Insertion : Type) extends
    Signature Table Key Version Statement Insertion where
  key_of_find : ∀ {table wanted version},
    find table wanted = some version → key version = wanted
  distinct : ∀ statement table, (candidates statement table).Nodup
  single : ∀ statement table, skipsLocked statement = false →
    (candidates statement table).length ≤ 1
  find_write : ∀ {statement snapshot table held wanted},
    Holds toSignature statement snapshot table held → wanted ∉ held.map key →
      find (write statement table held) wanted = find table wanted
  find_inserted : ∀ {insertion table next wanted version},
    inserts insertion table next → find table wanted = some version →
      find next wanted = some version
  follows_refl : ∀ table, follows table table
  follows_trans : ∀ {first second third}, follows first second →
    follows second third → follows first third
  follows_write : ∀ {statement snapshot table held},
    Holds toSignature statement snapshot table held →
      follows table (write statement table held)
  follows_inserted : ∀ {insertion table next},
    inserts insertion table next → follows table next

/-! ## Statements under way -/

/-- A statement under way: its snapshot, the candidates it has not visited yet,
the rows it has locked, and the versions it holds. -/
structure Session (Table Key Version Statement : Type) where
  statement : Statement
  snapshot : Table
  pending : List Key
  locked : List Key
  held : List Version

/-- The committed table, the statements under way, and who has locked which
row. -/
structure State (Id Table Key Version Statement : Type) where
  table : Table
  sessions : Id → Option (Session Table Key Version Statement)
  owner : Key → Option Id

/-- The parts of statements. -/
inductive Label (Id Statement Insertion : Type) where
  | insert (insertion : Insertion)
  | start (id : Id) (statement : Statement)
  | visit (id : Id)
  | commit (id : Id)
  | rollback (id : Id)

section Sessions

/-- No statement is under way. -/
def State.initial (table : Table) : State Id Table Key Version Statement where
  table := table
  sessions := fun _ => none
  owner := fun _ => none

variable (db : Database Table Key Version Statement Insertion)

/-- The statement still looks for rows. -/
def Session.HasRoom (session : Session Table Key Version Statement) : Prop :=
  session.held.length < db.limit session.statement

/-- The statement has all the rows it will get. -/
def Session.Complete (session : Session Table Key Version Statement) : Prop :=
  session.pending = [] ∨ db.limit session.statement ≤ session.held.length

/-- The next candidate is locked in its latest version, which is held if it
passes the predicate. -/
def Session.lock (session : Session Table Key Version Statement) (key : Key)
    (version : Version) (rest : List Key) :
    Session Table Key Version Statement where
  statement := session.statement
  snapshot := session.snapshot
  pending := rest
  locked := session.locked ++ [key]
  held := session.held ++ [version].filter (db.test session.statement)

/-- A statement under way in order: what it has locked is its own, and it holds
the latest versions of those rows that pass its predicate. -/
structure Session.Sound (state : State Id Table Key Version Statement)
    (id : Id) (session : Session Table Key Version Statement) : Prop where
  opened : db.opens session.snapshot session.statement
  followed : db.follows session.snapshot state.table
  visits : (session.locked ++ session.pending).Sublist
    (db.candidates session.statement session.snapshot)
  owned : ∀ key ∈ session.locked, state.owner key = some id
  present : ∀ key ∈ session.locked, (db.find state.table key).isSome = true
  held : session.held = session.locked.filterMap
    (db.passing state.table session.statement)
  bounded : session.held.length ≤ db.limit session.statement

/-- Every statement is in order, and who has locked a row is under way. -/
structure State.Sound (state : State Id Table Key Version Statement) :
    Prop where
  sessions : ∀ id session, state.sessions id = some session →
    session.Sound db state id
  owners : ∀ key id, state.owner key = some id →
    ∃ session, state.sessions id = some session ∧ key ∈ session.locked

variable {db} {state next : State Id Table Key Version Statement}
  {id : Id} {session : Session Table Key Version Statement}
  {label : Label Id Statement Insertion}

theorem passing_eq_some_iff {table : Table} {statement : Statement}
    {wanted : Key} {version : Version} :
    db.passing table statement wanted = some version ↔
      db.find table wanted = some version ∧
        db.test statement version = true := by
  rw [Signature.passing, Option.filter_eq_some_iff]

theorem Session.held_lock {version : Version} (key : Key) (rest : List Key)
    (passes : db.test session.statement version = true) :
    (session.lock db key version rest).held = session.held ++ [version] := by
  change session.held ++ [version].filter _ = _
  rw [List.filter_cons_of_pos passes, List.filter_nil]

/-- What is held has been locked, is the latest version and passes. -/
theorem Session.Sound.of_mem_held (sound : session.Sound db state id)
    {version : Version} (member : version ∈ session.held) :
    db.key version ∈ session.locked ∧
      db.find state.table (db.key version) = some version ∧
      db.test session.statement version = true := by
  rw [sound.held] at member
  obtain ⟨key, isLocked, passes⟩ := List.mem_filterMap.mp member
  obtain ⟨latest, test⟩ := passing_eq_some_iff.mp passes
  have isKey := db.key_of_find latest
  rw [isKey]
  exact ⟨isLocked, latest, test⟩

/-- A row that is locked is held, or its latest version fails the predicate. -/
theorem Session.Sound.held_or_fails (sound : session.Sound db state id)
    {key : Key} (isLocked : key ∈ session.locked) :
    ∃ version, db.find state.table key = some version ∧
      (version ∈ session.held ∨
        db.test session.statement version = false ∧
          key ∉ session.held.map db.key) := by
  obtain ⟨version, latest⟩ :=
    Option.isSome_iff_exists.mp (sound.present key isLocked)
  refine ⟨version, latest, ?_⟩
  cases test : db.test session.statement version with
  | true =>
      left
      rw [sound.held]
      exact List.mem_filterMap.mpr
        ⟨key, isLocked, passing_eq_some_iff.mpr ⟨latest, test⟩⟩
  | false =>
      refine Or.inr ⟨rfl, ?_⟩
      intro listed
      obtain ⟨other, member, sameKey⟩ := List.mem_map.mp listed
      obtain ⟨_, otherLatest, passes⟩ := sound.of_mem_held member
      rw [sameKey, latest] at otherLatest
      cases otherLatest
      rw [test] at passes
      cases passes

theorem Session.Sound.keys_sublist (sound : session.Sound db state id) :
    (session.held.map db.key).Sublist session.locked := by
  rw [sound.held, List.map_filterMap]
  apply filterMap_sublist
  intro key picked isPicked
  obtain ⟨version, passes, rfl⟩ := Option.map_eq_some_iff.mp isPicked
  exact db.key_of_find (passing_eq_some_iff.mp passes).1

theorem Session.Sound.holds (sound : session.Sound db state id) :
    Holds db.toSignature session.statement session.snapshot state.table
      session.held where
  opened := sound.opened
  followed := sound.followed
  proposed := sound.keys_sublist.trans
    ((List.sublist_append_left _ _).trans sound.visits)
  latest := fun _ member => (sound.of_mem_held member).2.1
  passes := fun _ member => (sound.of_mem_held member).2.2
  bounded := sound.bounded

theorem Session.Sound.distinct (sound : session.Sound db state id) :
    (session.locked ++ session.pending).Nodup :=
  (db.distinct _ _).sublist sound.visits

/-- A statement that waits wants one row. -/
theorem Session.Sound.single (sound : session.Sound db state id)
    (waits : db.skipsLocked session.statement = false) :
    session.locked.length + session.pending.length ≤ 1 := by
  rw [← List.length_append]
  exact Nat.le_trans sound.visits.length_le (db.single _ _ waits)

/-- A statement stays in order when the table and the locks change elsewhere. -/
theorem Session.Sound.frame (sound : session.Sound db state id)
    (kept : ∀ key ∈ session.locked,
      db.find next.table key = db.find state.table key)
    (follows : db.follows state.table next.table)
    (stillOwned : ∀ key ∈ session.locked,
      next.owner key = state.owner key) :
    session.Sound db next id where
  opened := sound.opened
  followed := db.follows_trans sound.followed follows
  visits := sound.visits
  owned := fun key member =>
    (stillOwned key member).trans (sound.owned key member)
  present := fun key member => by
    rw [kept key member]
    exact sound.present key member
  held := by
    rw [sound.held]
    apply List.filterMap_congr
    intro key member
    rw [Signature.passing, Signature.passing, kept key member]
  bounded := sound.bounded

theorem Session.Sound.pass {key : Key} {rest : List Key}
    (sound : session.Sound db state id)
    (isNext : session.pending = key :: rest) :
    Session.Sound db state id { session with pending := rest } := by
  have fewer : (session.locked ++ rest).Sublist
      (session.locked ++ session.pending) := by
    rw [isNext]
    exact List.Sublist.append_left (List.sublist_cons_self _ _) _
  exact
    { opened := sound.opened
      followed := sound.followed
      visits := fewer.trans sound.visits
      owned := sound.owned
      present := sound.present
      held := sound.held
      bounded := sound.bounded }

theorem sound_initial (table : Table) :
    (State.initial table : State Id Table Key Version Statement).Sound db where
  sessions := by
    intro id session found
    cases found
  owners := by
    intro key id owned
    cases owned

theorem State.Sound.insert (sound : state.Sound db) {insertion : Insertion}
    {table : Table} (inserted : db.inserts insertion state.table table) :
    State.Sound db { state with table := table } where
  sessions := by
    intro id session found
    have inOrder := sound.sessions id session found
    apply inOrder.frame
    · intro key member
      obtain ⟨version, latest⟩ :=
        Option.isSome_iff_exists.mp (inOrder.present key member)
      rw [latest]
      exact db.find_inserted inserted latest
    · exact db.follows_inserted inserted
    · intro key member
      rfl
  owners := sound.owners

/-- A row that a statement does not own is none of those it holds. -/
theorem State.Sound.not_mem_held (sound : state.Sound db)
    (found : state.sessions id = some session) {key : Key}
    (notOwned : state.owner key ≠ some id) :
    key ∉ session.held.map db.key := by
  intro listed
  have inOrder := sound.sessions id session found
  exact notOwned (inOrder.owned key (inOrder.keys_sublist.subset listed))

/-- A statement waits for a row that another has locked. -/
def State.Waits (db : Database Table Key Version Statement Insertion)
    (state : State Id Table Key Version Statement) (waiting holder : Id) :
    Prop :=
  ∃ session key rest, state.sessions waiting = some session ∧
    session.HasRoom db ∧ session.pending = key :: rest ∧
    db.skipsLocked session.statement = false ∧
    state.owner key = some holder

theorem Session.Sound.rest_eq_nil {key : Key} {rest : List Key}
    (sound : session.Sound db state id)
    (waits : db.skipsLocked session.statement = false)
    (isNext : session.pending = key :: rest) :
    session.locked = [] ∧ rest = [] := by
  have single := sound.single waits
  rw [isNext, List.length_cons] at single
  exact ⟨List.eq_nil_of_length_eq_zero (by omega),
    List.eq_nil_of_length_eq_zero (by omega)⟩

/-- A statement that waits has locked nothing. -/
theorem State.Sound.locked_of_waits (sound : state.Sound db)
    (found : state.sessions id = some session) {holder : Id}
    (waits : state.Waits db id holder) : session.locked = [] := by
  obtain ⟨waiting, key, rest, isWaiting, _, isNext, blocks, _⟩ := waits
  rw [found] at isWaiting
  cases isWaiting
  exact ((sound.sessions id session found).rest_eq_nil blocks isNext).1

/-- Nobody waits for a statement that waits itself. -/
theorem State.Sound.not_waits_of_waits (sound : state.Sound db)
    {waiting holder : Id} (waits : state.Waits db waiting holder)
    (other : Id) : ¬ state.Waits db holder other := by
  intro waitsToo
  obtain ⟨_, key, _, _, _, _, _, owned⟩ := waits
  obtain ⟨session, found, isLocked⟩ := sound.owners key holder owned
  rw [sound.locked_of_waits found waitsToo] at isLocked
  cases isLocked

/-- The statement is visiting rows or committing. -/
def Label.Advances (id : Id) (label : Label Id Statement Insertion) : Prop :=
  label = .visit id ∨ label = .commit id

/-- The label ends the statement. -/
def Label.Ends (id : Id) (label : Label Id Statement Insertion) : Prop :=
  label = .commit id ∨ label = .rollback id

/-! ## Where a version that is held comes from -/

/-- The moment at which a statement locked a version: it was the latest
committed one, nobody had locked it, it passed the predicate, and the same
statement has been under way since. -/
def LockedAt (db : Database Table Key Version Statement Insertion)
    (history : List (Transition (State Id Table Key Version Statement)
      (Label Id Statement Insertion)))
    (id : Id) (statement : Statement) (version : Version) : Prop :=
  ∃ earlier lock later,
    history = earlier ++ lock :: later ∧
    lock.label = .visit id ∧
    (∀ taken ∈ later, ¬ taken.label.Ends id) ∧
    (∃ visiting, lock.source.sessions id = some visiting ∧
      visiting.statement = statement) ∧
    lock.source.owner (db.key version) = none ∧
    db.find lock.source.table (db.key version) = some version ∧
    db.test statement version = true

theorem LockedAt.extend
    {history : List (Transition (State Id Table Key Version Statement)
      (Label Id Statement Insertion))}
    {statement : Statement} {version : Version}
    (locked : LockedAt db history id statement version)
    (taken : Transition (State Id Table Key Version Statement)
      (Label Id Statement Insertion)) (goesOn : ¬ taken.label.Ends id) :
    LockedAt db (history ++ [taken]) id statement version := by
  obtain ⟨earlier, lock, later, rfl, isLock, quiet, moment⟩ := locked
  refine ⟨earlier, lock, later ++ [taken], by simp, isLock, ?_, moment⟩
  intro other member
  rcases List.mem_append.mp member with before | last
  · exact quiet other before
  · rw [List.mem_singleton.mp last]
    exact goesOn

/-- A statement goes on through a step: it was under way before, and each
version it holds after the step was held before or is locked by it. -/
def State.CarriesOn (db : Database Table Key Version Statement Insertion)
    (state : State Id Table Key Version Statement)
    (label : Label Id Statement Insertion) (id : Id)
    (current : Session Table Key Version Statement) : Prop :=
  ¬ label.Ends id ∧
    ∃ before, state.sessions id = some before ∧
      before.statement = current.statement ∧
      ∀ version ∈ current.held,
        version ∈ before.held ∨
          label = .visit id ∧ state.owner (db.key version) = none ∧
            db.find state.table (db.key version) = some version ∧
            db.test before.statement version = true

theorem State.CarriesOn.of_same (goesOn : ¬ label.Ends id)
    (same : state.sessions id = some session) :
    state.CarriesOn db label id session :=
  ⟨goesOn, session, same, rfl, fun _ member => Or.inl member⟩

theorem Label.not_ends_visit (id visited : Id) :
    ¬ (Label.visit visited : Label Id Statement Insertion).Ends id := by
  rintro (isCommit | isRollback)
  · cases isCommit
  · cases isRollback

end Sessions

/-! ## Interleavings -/

section Interleavings

variable [DecidableEq Id]
  (db : Database Table Key Version Statement Insertion)

namespace State

def setSession (state : State Id Table Key Version Statement) (id : Id)
    (session : Session Table Key Version Statement) :
    State Id Table Key Version Statement :=
  { state with sessions := Function.update state.sessions id (some session) }

/-- A statement takes its snapshot. -/
def start (state : State Id Table Key Version Statement) (id : Id)
    (statement : Statement) : State Id Table Key Version Statement :=
  state.setSession id
    ⟨statement, state.table, db.candidates statement state.table, [], []⟩

/-- A candidate is passed over. -/
def pass (state : State Id Table Key Version Statement) (id : Id)
    (session : Session Table Key Version Statement) (rest : List Key) :
    State Id Table Key Version Statement :=
  state.setSession id { session with pending := rest }

/-- The statement ends and its locks are released. -/
def close (state : State Id Table Key Version Statement) (id : Id) :
    State Id Table Key Version Statement where
  table := state.table
  sessions := Function.update state.sessions id none
  owner := fun key => if state.owner key = some id then none
    else state.owner key

/-- The rows that are held are written, and the statement ends. -/
def commit (state : State Id Table Key Version Statement) (id : Id)
    (session : Session Table Key Version Statement) :
    State Id Table Key Version Statement :=
  { state.close id with
    table := db.write session.statement state.table session.held }

end State

variable {db} {state next : State Id Table Key Version Statement}
  {id : Id} {session : Session Table Key Version Statement}
  {label : Label Id Statement Insertion}

/-! ## What is held stays current -/

namespace State.Sound

/-- What a change of one session leaves to be shown. -/
theorem setSession (sound : state.Sound db)
    (inOrder : session.Sound db (state.setSession id session) id)
    (keeps : ∀ before, state.sessions id = some before →
      before.locked = session.locked) :
    (state.setSession id session).Sound db where
  sessions := by
    intro other current found
    by_cases same : other = id
    · subst same
      change Function.update state.sessions other _ other = _ at found
      rw [Function.update_self] at found
      cases found
      exact inOrder
    · change Function.update state.sessions id _ other = _ at found
      rw [Function.update_of_ne same] at found
      exact (sound.sessions other current found).frame (fun _ _ => rfl)
        (db.follows_refl _) (fun _ _ => rfl)
  owners := by
    intro key owner owned
    obtain ⟨before, found, isLocked⟩ := sound.owners key owner owned
    by_cases same : owner = id
    · subst same
      refine ⟨session, Function.update_self .., ?_⟩
      rw [← keeps before found]
      exact isLocked
    · exact ⟨before, (Function.update_of_ne same ..).trans found, isLocked⟩

theorem start (sound : state.Sound db) {statement : Statement}
    (idle : state.sessions id = none)
    (opens : db.opens state.table statement) :
    (state.start db id statement).Sound db := by
  apply sound.setSession
  · exact
      { opened := opens
        followed := db.follows_refl _
        visits := List.Sublist.refl _
        owned := fun key member => absurd member List.not_mem_nil
        present := fun key member => absurd member List.not_mem_nil
        held := rfl
        bounded := Nat.zero_le _ }
  · intro before found
    rw [idle] at found
    cases found

theorem pass (sound : state.Sound db) {key : Key} {rest : List Key}
    (found : state.sessions id = some session)
    (isNext : session.pending = key :: rest) :
    (state.pass id session rest).Sound db := by
  apply sound.setSession
  · exact ((sound.sessions id session found).pass isNext).frame
      (fun _ _ => rfl) (db.follows_refl _) (fun _ _ => rfl)
  · intro before isBefore
    rw [found] at isBefore
    cases isBefore
    rfl

theorem owner_close {key : Key} {owner : Id}
    (owned : (state.close id).owner key = some owner) :
    owner ≠ id ∧ state.owner key = some owner := by
  change (if state.owner key = some id then none else state.owner key) =
    some owner at owned
  split at owned
  · cases owned
  · rename_i notMine
    refine ⟨?_, owned⟩
    intro same
    rw [same] at owned
    exact notMine owned

/-- A statement that ends leaves the others in order, whatever becomes of the
rows it held. -/
theorem close (sound : state.Sound db) {table : Table}
    (kept : ∀ key, state.owner key ≠ some id →
      db.find table key = db.find state.table key)
    (follows : db.follows state.table table) :
    State.Sound db { state.close id with table := table } where
  sessions := by
    intro other current found
    by_cases same : other = id
    · subst same
      change Function.update state.sessions other none other = _ at found
      rw [Function.update_self] at found
      cases found
    · change Function.update state.sessions id none other = _ at found
      rw [Function.update_of_ne same] at found
      have inOrder := sound.sessions other current found
      have notMine : ∀ key ∈ current.locked, state.owner key ≠ some id := by
        intro key member mine
        rw [inOrder.owned key member] at mine
        exact same (Option.some.inj mine)
      apply inOrder.frame
      · intro key member
        exact kept _ (notMine key member)
      · exact follows
      · intro key member
        exact if_neg (notMine key member)
  owners := by
    intro key owner owned
    obtain ⟨different, wasOwned⟩ := owner_close owned
    obtain ⟨before, found, isLocked⟩ := sound.owners key owner wasOwned
    exact ⟨before, (Function.update_of_ne different ..).trans found, isLocked⟩

theorem commit (sound : state.Sound db)
    (found : state.sessions id = some session) :
    (state.commit db id session).Sound db := by
  have holds := (sound.sessions id session found).holds
  apply sound.close
  · intro key notOwned
    exact db.find_write holds (sound.not_mem_held found notOwned)
  · exact db.follows_write holds

end State.Sound

/-! ## Passing over a candidate and ending -/

/-- A statement that passes over a candidate goes on, and so do the others. -/
theorem State.CarriesOn.of_pass {visited : Id}
    {visiting current : Session Table Key Version Statement} {rest : List Key}
    (visitingFound : state.sessions visited = some visiting)
    (found : (state.pass visited visiting rest).sessions id = some current) :
    state.CarriesOn db (.visit visited) id current := by
  by_cases same : id = visited
  · subst same
    change Function.update state.sessions id _ id = _ at found
    rw [Function.update_self] at found
    cases found
    exact ⟨Label.not_ends_visit _ _, visiting, visitingFound, rfl,
      fun _ member => Or.inl member⟩
  · change Function.update state.sessions visited _ id = _ at found
    rw [Function.update_of_ne same] at found
    exact .of_same (Label.not_ends_visit _ _) found

/-- A statement that ends is not under way afterwards, and the others go on. -/
theorem State.CarriesOn.of_close {ended : Id}
    (ends : ∀ other, label.Ends other → other = ended)
    (found : (state.close ended).sessions id = some session) :
    state.CarriesOn db label id session := by
  change Function.update state.sessions ended none id = _ at found
  by_cases same : id = ended
  · rw [same, Function.update_self] at found
    cases found
  · rw [Function.update_of_ne same] at found
    exact .of_same (fun isEnd => same (ends id isEnd)) found

/-! ## Candidates that have not changed -/

/-- The candidates that a statement has still to visit, none of which has changed
since its snapshot; it passes over those that are locked elsewhere. -/
structure Session.Upcoming
    (db : Database Table Key Version Statement Insertion) (id : Id)
    (lockedElsewhere : Key → Bool) (versions : List Version)
    (state : State Id Table Key Version Statement)
    (session : Session Table Key Version Statement) : Prop where
  opened : state.sessions id = some session
  pending : session.pending = versions.map db.key
  skips : db.skipsLocked session.statement = true
  distinct : (versions.map db.key).Nodup
  latest : ∀ version ∈ versions,
    db.find state.table (db.key version) = some version
  passes : ∀ version ∈ versions, db.test session.statement version = true
  owner : ∀ version ∈ versions,
    (state.owner (db.key version)).isSome = lockedElsewhere (db.key version)

theorem Session.Upcoming.skip
    {lockedElsewhere : Key → Bool} {version : Version}
    {versions : List Version}
    (upcoming : session.Upcoming db id lockedElsewhere (version :: versions)
      state) :
    ({ session with pending := versions.map db.key } :
      Session Table Key Version Statement).Upcoming db id lockedElsewhere
        versions (state.pass id session (versions.map db.key)) where
  opened := Function.update_self ..
  pending := rfl
  skips := upcoming.skips
  distinct := (List.nodup_cons.mp upcoming.distinct).2
  latest := fun later member =>
    upcoming.latest later (List.mem_cons_of_mem _ member)
  passes := fun later member =>
    upcoming.passes later (List.mem_cons_of_mem _ member)
  owner := fun later member =>
    upcoming.owner later (List.mem_cons_of_mem _ member)

variable [DecidableEq Key] (db)

/-- A candidate is locked. -/
def State.lock (state : State Id Table Key Version Statement) (id : Id)
    (session : Session Table Key Version Statement) (key : Key)
    (version : Version) (rest : List Key) :
    State Id Table Key Version Statement :=
  { state.setSession id (session.lock db key version rest) with
    owner := Function.update state.owner key (some id) }

/-- One part of one statement. -/
inductive Step : State Id Table Key Version Statement →
    Label Id Statement Insertion → State Id Table Key Version Statement → Prop
  | insert (state : State Id Table Key Version Statement)
      (insertion : Insertion) (table : Table)
      (inserted : db.inserts insertion state.table table) :
      Step state (.insert insertion) { state with table := table }
  | start (state : State Id Table Key Version Statement) (id : Id)
      (statement : Statement) (idle : state.sessions id = none)
      (opens : db.opens state.table statement) :
      Step state (.start id statement) (state.start db id statement)
  | skip (state : State Id Table Key Version Statement) (id other : Id)
      (session : Session Table Key Version Statement) (key : Key)
      (rest : List Key) (found : state.sessions id = some session)
      (room : session.HasRoom db) (next : session.pending = key :: rest)
      (skips : db.skipsLocked session.statement = true)
      (owned : state.owner key = some other) :
      Step state (.visit id) (state.pass id session rest)
  /-- The row has been deleted. -/
  | gone (state : State Id Table Key Version Statement) (id : Id)
      (session : Session Table Key Version Statement) (key : Key)
      (rest : List Key) (found : state.sessions id = some session)
      (room : session.HasRoom db) (next : session.pending = key :: rest)
      (free : state.owner key = none)
      (absent : db.find state.table key = none) :
      Step state (.visit id) (state.pass id session rest)
  | lock (state : State Id Table Key Version Statement) (id : Id)
      (session : Session Table Key Version Statement) (key : Key)
      (rest : List Key) (version : Version)
      (found : state.sessions id = some session)
      (room : session.HasRoom db) (next : session.pending = key :: rest)
      (free : state.owner key = none)
      (latest : db.find state.table key = some version) :
      Step state (.visit id) (state.lock db id session key version rest)
  | commit (state : State Id Table Key Version Statement) (id : Id)
      (session : Session Table Key Version Statement)
      (found : state.sessions id = some session)
      (complete : session.Complete db) :
      Step state (.commit id) (state.commit db id session)
  | rollback (state : State Id Table Key Version Statement) (id : Id)
      (session : Session Table Key Version Statement)
      (found : state.sessions id = some session) :
      Step state (.rollback id) (state.close id)

variable {db}

theorem Session.Sound.lock {key : Key} {rest : List Key} {version : Version}
    (sound : session.Sound db state id)
    (room : session.HasRoom db) (isNext : session.pending = key :: rest)
    (latest : db.find state.table key = some version) :
    (session.lock db key version rest).Sound db
      (state.lock db id session key version rest) id where
  opened := sound.opened
  followed := sound.followed
  visits := by
    have visits := sound.visits
    rw [isNext, List.append_cons] at visits
    exact visits
  owned := by
    intro other member
    change Function.update state.owner key (some id) other = some id
    by_cases isNew : other = key
    · rw [isNew, Function.update_self]
    · rw [Function.update_of_ne isNew]
      rcases List.mem_append.mp member with earlier | new
      · exact sound.owned other earlier
      · exact absurd (List.mem_singleton.mp new) isNew
  present := by
    intro other member
    rcases List.mem_append.mp member with earlier | new
    · exact sound.present other earlier
    · rw [List.mem_singleton.mp new]
      exact Option.isSome_of_eq_some latest
  held := by
    have one : [key].filterMap (db.passing state.table session.statement) =
        [version].filter (db.test session.statement) := by
      cases test : db.test session.statement version with
      | true =>
          rw [List.filterMap_cons_some
            (passing_eq_some_iff.mpr ⟨latest, test⟩), List.filter_cons_of_pos
              test]
          rfl
      | false =>
          have fails : db.passing state.table session.statement key =
              none := by
            rw [Signature.passing, latest, Option.filter_some, test]
            rfl
          rw [List.filterMap_cons_none fails, List.filter_cons_of_neg
            (Bool.not_eq_true _ ▸ test)]
          rfl
    change session.held ++ _ = (session.locked ++ [key]).filterMap
      (db.passing state.table session.statement)
    rw [List.filterMap_append, ← sound.held, one]
  bounded := by
    have few : ([version].filter (db.test session.statement)).length ≤ 1 :=
      List.length_filter_le _ _
    have room : session.held.length < db.limit session.statement := room
    change (session.held ++ _).length ≤ db.limit session.statement
    rw [List.length_append]
    omega

theorem State.Sound.lock (sound : state.Sound db) {key : Key} {rest : List Key}
    {version : Version} (found : state.sessions id = some session)
    (room : session.HasRoom db) (isNext : session.pending = key :: rest)
    (free : state.owner key = none)
    (latest : db.find state.table key = some version) :
    (state.lock db id session key version rest).Sound db := by
  constructor
  · intro other current otherFound
    by_cases same : other = id
    · subst same
      change Function.update state.sessions other _ other = _ at otherFound
      rw [Function.update_self] at otherFound
      cases otherFound
      exact (sound.sessions other session found).lock room isNext latest
    · change Function.update state.sessions id _ other = _ at otherFound
      rw [Function.update_of_ne same] at otherFound
      have inOrder := sound.sessions other current otherFound
      refine inOrder.frame (fun _ _ => rfl) (db.follows_refl _) ?_
      intro wanted member
      -- The row was free, so the other statement has not locked it.
      have isOther : wanted ≠ key := by
        rintro rfl
        rw [inOrder.owned wanted member] at free
        cases free
      exact Function.update_of_ne isOther ..
  · intro wanted owner owned
    change Function.update state.owner key (some id) wanted = _ at owned
    by_cases isNew : wanted = key
    · subst isNew
      rw [Function.update_self] at owned
      cases owned
      exact ⟨_, Function.update_self ..,
        List.mem_append_right _ (List.mem_singleton_self _)⟩
    · rw [Function.update_of_ne isNew] at owned
      obtain ⟨before, isBefore, isLocked⟩ := sound.owners wanted owner owned
      by_cases same : owner = id
      · subst same
        rw [found] at isBefore
        cases isBefore
        exact ⟨_, Function.update_self .., List.mem_append_left _ isLocked⟩
      · exact ⟨before, (Function.update_of_ne same ..).trans isBefore,
          isLocked⟩

theorem State.Sound.step (sound : state.Sound db)
    (taken : Step db state label next) : next.Sound db := by
  cases taken with
  | insert insertion table inserted => exact sound.insert inserted
  | start id statement idle opens => exact sound.start idle opens
  | skip id other session key rest found _ isNext _ _ =>
      exact sound.pass found isNext
  | gone id session key rest found _ isNext _ _ =>
      exact sound.pass found isNext
  | lock id session key rest version found room isNext free latest =>
      exact sound.lock found room isNext free latest
  | commit id session found _ => exact sound.commit found
  | rollback id session found =>
      exact sound.close (fun _ _ => rfl) (db.follows_refl _)

theorem State.Sound.run
    {trace : List (Transition (State Id Table Key Version Statement)
      (Label Id Statement Insertion))}
    {finish : State Id Table Key Version Statement} (sound : state.Sound db)
    (run : Run (Step db) state trace finish) : finish.Sound db := by
  induction run with
  | refl => exact sound
  | snoc _ taken inductionHypothesis => exact inductionHypothesis.step taken

/-! ## Held versions have been locked -/

section Provenance

variable {trace : List (Transition
    (State Id Table Key Version Statement) (Label Id Statement Insertion))}
  {version : Version}

theorem State.CarriesOn.of_lock {visited : Id}
    {visiting current : Session Table Key Version Statement} {key : Key}
    {rest : List Key}
    (visitingFound : state.sessions visited = some visiting)
    (free : state.owner key = none)
    (latest : db.find state.table key = some version)
    (found : (state.lock db visited visiting key version rest).sessions id =
      some current) :
    state.CarriesOn db (.visit visited) id current := by
  by_cases same : id = visited
  · subst same
    change Function.update state.sessions id _ id = _ at found
    rw [Function.update_self] at found
    cases found
    refine ⟨Label.not_ends_visit _ _, visiting, visitingFound, rfl, ?_⟩
    intro other member
    rcases List.mem_append.mp member with earlier | new
    · exact Or.inl earlier
    · obtain ⟨isVersion, passes⟩ := List.mem_filter.mp new
      rw [List.mem_singleton.mp isVersion] at passes ⊢
      rw [db.key_of_find latest]
      exact Or.inr ⟨rfl, free, latest, passes⟩
  · change Function.update state.sessions visited _ id = _ at found
    rw [Function.update_of_ne same] at found
    exact .of_same (Label.not_ends_visit _ _) found

/-- A statement that is under way after a step has just been opened, or goes on
through the step. -/
theorem Step.session_cases (taken : Step db state label next)
    (found : next.sessions id = some session) :
    session.held = [] ∨ state.CarriesOn db label id session := by
  cases taken with
  | insert insertion table inserted =>
      refine Or.inr (.of_same ?_ found)
      rintro (isCommit | isRollback)
      · cases isCommit
      · cases isRollback
  | start opened statement idle opens =>
      by_cases same : id = opened
      · subst same
        change Function.update state.sessions id _ id = _ at found
        rw [Function.update_self] at found
        cases found
        exact Or.inl rfl
      · change Function.update state.sessions opened _ id = _ at found
        rw [Function.update_of_ne same] at found
        refine Or.inr (.of_same ?_ found)
        rintro (isCommit | isRollback)
        · cases isCommit
        · cases isRollback
  | skip visited other visiting key rest visitingFound room isNext _ owned =>
      exact Or.inr (.of_pass visitingFound found)
  | gone visited visiting key rest visitingFound room isNext free absent =>
      exact Or.inr (.of_pass visitingFound found)
  | lock visited visiting key rest version visitingFound room isNext free
      latest =>
      exact Or.inr (.of_lock visitingFound free latest found)
  | commit ended ending endingFound complete =>
      refine Or.inr (.of_close ?_ found)
      rintro other (isCommit | isRollback)
      · cases isCommit
        rfl
      · cases isRollback
  | rollback ended ending endingFound =>
      refine Or.inr (.of_close ?_ found)
      rintro other (isCommit | isRollback)
      · cases isCommit
      · cases isRollback
        rfl

theorem lockedAt_of_run {table : Table}
    (run : Run (Step db) (State.initial table) trace state) :
    ∀ id session, state.sessions id = some session →
      ∀ version ∈ session.held,
        LockedAt db trace id session.statement version := by
  refine run.historyInvariant
    (fun history state => ∀ id session, state.sessions id = some session →
      ∀ version ∈ session.held,
        LockedAt db history id session.statement version) ?_ ?_
  · intro id session found
    cases found
  · intro history source label target _ provenance taken id session found
      version member
    rcases taken.session_cases found with
      empty | ⟨goesOn, before, wasOpen, sameStatement, each⟩
    · rw [empty] at member
      cases member
    · rcases each version member with
        earlier | ⟨isLock, free, latest, passes⟩
      · rw [← sameStatement]
        exact (provenance id before wasOpen version earlier).extend _ goesOn
      · rw [← sameStatement]
        exact ⟨history, _, [], rfl, isLock,
          fun _ later => absurd later List.not_mem_nil,
          ⟨before, wasOpen, rfl⟩, free, latest, passes⟩

end Provenance

/-! ## The visits of a statement that nobody interrupts -/

/-- A version that is locked uses up one place of the limit. -/
theorem append_take_cons_of_room {limit : Nat} {held : List Version}
    (room : held.length < limit) (version : Version)
    (later : List Version) :
    held ++ (version :: later).take (limit - held.length) =
      (held ++ [version]) ++
        later.take (limit - (held ++ [version]).length) := by
  obtain ⟨more, left⟩ : ∃ more, limit - held.length = more + 1 :=
    ⟨limit - held.length - 1, by omega⟩
  have afterwards : limit - (held ++ [version]).length = more := by
    rw [List.length_append, List.length_singleton]
    omega
  rw [left, afterwards, List.take_succ_cons, List.append_assoc]
  rfl

/-- The new lock is on a row that is not visited again. -/
theorem Session.Upcoming.lock
    {lockedElsewhere : Key → Bool} {version : Version}
    {versions : List Version}
    (upcoming : session.Upcoming db id lockedElsewhere (version :: versions)
      state) :
    (session.lock db (db.key version) version
      (versions.map db.key)).Upcoming db id lockedElsewhere versions
        (state.lock db id session (db.key version) version
          (versions.map db.key)) where
  opened := Function.update_self ..
  pending := rfl
  skips := upcoming.skips
  distinct := (List.nodup_cons.mp upcoming.distinct).2
  latest := fun later member =>
    upcoming.latest later (List.mem_cons_of_mem _ member)
  passes := fun later member =>
    upcoming.passes later (List.mem_cons_of_mem _ member)
  owner := by
    intro later member
    have isOther : db.key later ≠ db.key version := by
      intro same
      exact (List.nodup_cons.mp upcoming.distinct).1
        (same ▸ List.mem_map_of_mem member)
    change (Function.update state.owner _ _ _).isSome = _
    rw [Function.update_of_ne isOther]
    exact upcoming.owner later (List.mem_cons_of_mem _ member)

/-- Visiting candidates that have not changed since the snapshot, one after the
other, gets those that nobody has locked, up to the limit. -/
theorem exists_visits (lockedElsewhere : Key → Bool)
    {versions : List Version}
    {state : State Id Table Key Version Statement}
    {session : Session Table Key Version Statement}
    (upcoming : session.Upcoming db id lockedElsewhere versions state) :
    ∃ trace finish final, Run (Step db) state trace finish ∧
      finish.table = state.table ∧
      finish.sessions id = some final ∧
      final.statement = session.statement ∧ final.Complete db ∧
      final.held = session.held ++
        (versions.filter fun version =>
          !lockedElsewhere (db.key version)).take
            (db.limit session.statement - session.held.length) := by
  induction versions generalizing state session with
  | nil =>
      refine ⟨[], state, session, Run.refl, rfl, upcoming.opened, rfl,
        Or.inl upcoming.pending, ?_⟩
      rw [List.filter_nil, List.take_nil, List.append_nil]
  | cons version rest inductionHypothesis =>
      by_cases room : session.HasRoom db
      · have owner := upcoming.owner version List.mem_cons_self
        cases elsewhere : lockedElsewhere (db.key version) with
        | true =>
            rw [elsewhere] at owner
            obtain ⟨other, owned⟩ := Option.isSome_iff_exists.mp owner
            obtain ⟨trace, finish, final, run, tail⟩ :=
              inductionHypothesis upcoming.skip
            refine ⟨_, finish, final, (Run.single (.skip state id other session
              (db.key version) (rest.map db.key) upcoming.opened room
              upcoming.pending upcoming.skips owned)).append run, ?_⟩
            rw [List.filter_cons_of_neg (by simp [elsewhere])]
            exact tail
        | false =>
            rw [elsewhere] at owner
            have free : state.owner (db.key version) = none :=
              Option.not_isSome_iff_eq_none.mp (by simp [owner])
            obtain ⟨trace, finish, final, run, sameTable, stillOpen,
              sameStatement, complete, held⟩ :=
                inductionHypothesis upcoming.lock
            refine ⟨_, finish, final, (Run.single (.lock state id session
              (db.key version) (rest.map db.key) version upcoming.opened room
              upcoming.pending free
              (upcoming.latest version List.mem_cons_self))).append run,
              sameTable, stillOpen, sameStatement, complete, ?_⟩
            rw [held, Session.held_lock _ _ (upcoming.passes version
                List.mem_cons_self),
              List.filter_cons_of_pos (by simp [elsewhere]),
              append_take_cons_of_room room]
            rfl
      · have full := Nat.le_of_not_lt room
        refine ⟨[], state, session, Run.refl, rfl, upcoming.opened, rfl,
          Or.inr full, ?_⟩
        rw [Nat.sub_eq_zero_of_le full, List.take_zero, List.append_nil]

/-! ## Waiting -/

/-- A statement comes to its commit by its own steps; the others stay where
they are. -/
structure Finishes (db : Database Table Key Version Statement Insertion)
    (state : State Id Table Key Version Statement) (id : Id)
    (trace : List (Transition (State Id Table Key Version Statement)
      (Label Id Statement Insertion)))
    (finish : State Id Table Key Version Statement) : Prop where
  run : Run (Step db) state trace finish
  advances : ∀ taken ∈ trace, taken.label.Advances id
  committed : ∃ taken ∈ trace, taken.label = .commit id
  ended : finish.sessions id = none
  others : ∀ other, other ≠ id → finish.sessions other = state.sessions other
  released : ∀ key, state.owner key = some id → finish.owner key = none

theorem finishes_commit (found : state.sessions id = some session)
    (complete : session.Complete db) :
    Finishes db state id
      [⟨state, .commit id, state.commit db id session⟩]
      (state.commit db id session) where
  run := Run.single (.commit state id session found complete)
  advances := by
    intro taken member
    rw [List.mem_singleton.mp member]
    exact Or.inr rfl
  committed := ⟨_, List.mem_singleton_self _, rfl⟩
  ended := Function.update_self ..
  others := fun _ different => Function.update_of_ne different ..
  released := fun _ owned => if_pos owned

/-- A visit before the rest. -/
theorem Finishes.after_visit
    {trace : List (Transition (State Id Table Key Version Statement)
      (Label Id Statement Insertion))}
    {middle finish : State Id Table Key Version Statement}
    (taken : Step db state (.visit id) middle)
    (finishes : Finishes db middle id trace finish)
    (others : ∀ other, other ≠ id →
      middle.sessions other = state.sessions other)
    (released : ∀ key, state.owner key = some id →
      middle.owner key = some id) :
    Finishes db state id (⟨state, .visit id, middle⟩ :: trace) finish where
  run := (Run.single taken).append finishes.run
  advances := by
    intro other member
    rcases List.mem_cons.mp member with rfl | later
    · exact Or.inl rfl
    · exact finishes.advances other later
  committed := by
    obtain ⟨last, member, isCommit⟩ := finishes.committed
    exact ⟨last, List.mem_cons_of_mem _ member, isCommit⟩
  ended := finishes.ended
  others := fun other different =>
    (finishes.others other different).trans (others other different)
  released := fun key owned => finishes.released key (released key owned)

/-- A candidate that the statement need not wait for is visited. -/
theorem exists_visit {key : Key} {rest : List Key}
    (found : state.sessions id = some session)
    (room : session.HasRoom db) (isNext : session.pending = key :: rest)
    (passable : db.skipsLocked session.statement = true ∨
      state.owner key = none) :
    ∃ middle visited, Step db state (.visit id) middle ∧
      middle.sessions id = some visited ∧
      visited.statement = session.statement ∧ visited.pending = rest ∧
      (∀ other, other ≠ id →
        middle.sessions other = state.sessions other) ∧
      (∀ wanted, state.owner wanted = some id →
        middle.owner wanted = some id) ∧
      ∀ wanted, wanted ≠ key → middle.owner wanted = state.owner wanted := by
  cases owned : state.owner key with
  | some other =>
      rcases passable with skips | free
      · exact ⟨_, _, .skip state id other session key rest found room isNext
          skips owned, Function.update_self .., rfl, rfl,
          fun _ different => Function.update_of_ne different ..,
          fun _ mine => mine, fun _ _ => rfl⟩
      · rw [free] at owned
        cases owned
  | none =>
      cases latest : db.find state.table key with
      | none =>
          exact ⟨_, _, .gone state id session key rest found room isNext owned
            latest, Function.update_self .., rfl, rfl,
            fun _ different => Function.update_of_ne different ..,
            fun _ mine => mine, fun _ _ => rfl⟩
      | some version =>
          refine ⟨_, _, .lock state id session key rest version found room
            isNext owned latest, Function.update_self .., rfl, rfl,
            fun _ different => Function.update_of_ne different .., ?_,
            fun _ different => Function.update_of_ne different ..⟩
          intro wanted mine
          change Function.update state.owner key _ wanted = some id
          by_cases isNew : wanted = key
          · rw [isNew, Function.update_self]
          · rw [Function.update_of_ne isNew]
            exact mine

/-- A statement that has nothing to wait for comes to its commit. -/
theorem exists_finishes_of_passable (pending : List Key) :
    ∀ (state : State Id Table Key Version Statement)
      (session : Session Table Key Version Statement),
      state.sessions id = some session → session.pending = pending →
      pending.Nodup →
      (db.skipsLocked session.statement = true ∨
        ∀ key ∈ pending, state.owner key = none) →
      ∃ trace finish, Finishes db state id trace finish := by
  induction pending with
  | nil =>
      intro state session found noneLeft _ _
      exact ⟨_, _, finishes_commit found (Or.inl noneLeft)⟩
  | cons key rest inductionHypothesis =>
      intro state session found isNext distinct passable
      by_cases room : session.HasRoom db
      · obtain ⟨notLater, restDistinct⟩ := List.nodup_cons.mp distinct
        obtain ⟨middle, visited, taken, nowFound, sameStatement, nowPending,
          others, kept, elsewhere⟩ := exists_visit found room isNext
            (passable.imp_right fun free => free key List.mem_cons_self)
        have stillPassable : db.skipsLocked visited.statement = true ∨
            ∀ wanted ∈ rest, middle.owner wanted = none := by
          rw [sameStatement]
          apply passable.imp_right
          intro free wanted member
          have different : wanted ≠ key := by
            rintro rfl
            exact notLater member
          rw [elsewhere wanted different]
          exact free wanted (List.mem_cons_of_mem _ member)
        obtain ⟨trace, finish, finishes⟩ := inductionHypothesis middle visited
          nowFound nowPending restDistinct stillPassable
        exact ⟨_, finish, finishes.after_visit taken others kept⟩
      · exact ⟨_, _, finishes_commit found (Or.inr (Nat.le_of_not_lt room))⟩

/-- A statement that does not wait comes to its commit. -/
theorem State.Sound.exists_finishes (sound : state.Sound db)
    (found : state.sessions id = some session)
    (ready : ∀ holder, ¬ state.Waits db id holder) :
    ∃ trace finish, Finishes db state id trace finish := by
  have inOrder := sound.sessions id session found
  by_cases room : session.HasRoom db
  · apply exists_finishes_of_passable session.pending state session found rfl
      (inOrder.distinct.sublist (List.sublist_append_right _ _))
    by_cases skips : db.skipsLocked session.statement = true
    · exact Or.inl skips
    · right
      rw [Bool.not_eq_true] at skips
      cases isNext : session.pending with
      | nil =>
          intro key member
          cases member
      | cons key rest =>
          have restEmpty := (inOrder.rest_eq_nil skips isNext).2
          intro wanted member
          rw [restEmpty, List.mem_singleton] at member
          subst member
          cases owned : state.owner wanted with
          | none => rfl
          | some holder =>
              exact absurd ⟨session, wanted, rest, found, room, isNext, skips,
                owned⟩ (ready holder)
  · exact ⟨_, _, finishes_commit found (Or.inr (Nat.le_of_not_lt room))⟩

/-- Every statement under way can be brought to its commit, by its own steps
and those of the one statement it may be waiting for. -/
theorem State.Sound.exists_commit (sound : state.Sound db)
    (found : state.sessions id = some session) :
    ∃ trace finish, Run (Step db) state trace finish ∧
      finish.sessions id = none ∧
      (∃ taken ∈ trace, taken.label = .commit id) ∧
      ∀ taken ∈ trace, taken.label.Advances id ∨
        ∃ holder, state.Waits db id holder ∧
          taken.label.Advances holder := by
  by_cases waiting : ∃ holder, state.Waits db id holder
  · obtain ⟨holder, waits⟩ := waiting
    have ⟨_, key, rest, isWaiting, _, isNext, _, owned⟩ := waits
    rw [found] at isWaiting
    cases isWaiting
    obtain ⟨holding, holderFound, _⟩ := sound.owners key holder owned
    obtain ⟨first, middle, firstFinishes⟩ := sound.exists_finishes holderFound
      (sound.not_waits_of_waits waits)
    have different : id ≠ holder := by
      intro same
      rw [← same] at waits
      exact sound.not_waits_of_waits waits id waits
    have stillFound : middle.sessions id = some session :=
      (firstFinishes.others id different).trans found
    -- It waited for one row, and that is free now.
    have ready : ∀ other, ¬ middle.Waits db id other := by
      rintro other ⟨_, wanted, later, isSame, _, wantedNext, _, nowOwned⟩
      rw [stillFound] at isSame
      cases isSame
      rw [isNext] at wantedNext
      cases wantedNext
      rw [firstFinishes.released key owned] at nowOwned
      cases nowOwned
    obtain ⟨second, finish, finishes⟩ :=
      (sound.run firstFinishes.run).exists_finishes stillFound ready
    obtain ⟨last, lastMember, isCommit⟩ := finishes.committed
    refine ⟨first ++ second, finish, firstFinishes.run.append finishes.run,
      finishes.ended, ⟨last, List.mem_append_right _ lastMember, isCommit⟩, ?_⟩
    intro taken member
    rcases List.mem_append.mp member with early | late
    · exact Or.inr ⟨holder, waits, firstFinishes.advances taken early⟩
    · exact Or.inl (finishes.advances taken late)
  · obtain ⟨trace, finish, finishes⟩ := sound.exists_finishes found
      (fun holder waits => waiting ⟨holder, waits⟩)
    exact ⟨trace, finish, finishes.run, finishes.ended, finishes.committed,
      fun taken member => Or.inl (finishes.advances taken member)⟩

end Interleavings

end Databases

end Library.RowLocking
