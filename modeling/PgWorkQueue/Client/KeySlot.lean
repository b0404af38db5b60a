import PgWorkQueue.Client.Claim

/-!
# `KeySlotGuard` and the headroom of a tick

The counter of live handler tasks per concurrency key.  A guard that owns a
slot is modelled by the key it was acquired for; `none` is the guard of a job
without a configured key.  The mutex around the counter makes each operation
one step, and no critical section panics, so it is never poisoned.
-/

namespace PgWorkQueue

/-- The same keys with other values. -/
def HashMap.mapValues {V W : Type} (change : String → V → W)
    (map : HashMap V) : HashMap W where
  entries := map.entries.map (.map id change)
  nodupKeys := List.NodupKeys.map₂ change map.entries map.nodupKeys

theorem HashMap.lookup_mapValues
    {V W : Type} (change : String → V → W) (map : HashMap V) (key : String) :
    (map.mapValues change).lookup key = (map.lookup key).map (change key) :=
  List.dlookup_map₂ key

/-- `KeySlotGuard::acquire`: `or_insert(0)`, then `saturating_add(1)`. -/
def acquireSlot (running : HashMap Nat) (key : String) : HashMap Nat :=
  running.insert key (min ((running.lookup key).getD 0 + 1) u32Max)

/-- `Drop for KeySlotGuard`: `saturating_sub(1)` on the entry of the slot. -/
def dropSlot (running : HashMap Nat) : Option String → HashMap Nat
  | none => running
  | some key =>
      match running.lookup key with
      | none => running
      | some count => running.insert key (count - 1)

/-- The headroom snapshot of `poll_loop`: what each limit leaves. -/
def headroomSnapshot (limits running : HashMap Nat) : HashMap Nat :=
  if limits.entries.isEmpty then
    ∅
  else
    limits.mapValues fun key limit => limit - (running.lookup key).getD 0

/-- The counter `start` creates. -/
def initialCounter (limits : HashMap Nat) : HashMap Nat :=
  limits.mapValues fun _ _ => 0

section Lookup

variable {limits running : HashMap Nat} {key other : String}
  {count limit : Nat}

theorem lookup_acquireSlot
    (found : running.lookup key = some count) (small : count < u32Max) :
    (acquireSlot running key).lookup key = some (count + 1) := by
  rw [acquireSlot, AList.lookup_insert, found, Option.getD_some,
    Nat.min_eq_left small]

theorem lookup_acquireSlot_ne (differs : other ≠ key) :
    (acquireSlot running key).lookup other = running.lookup other :=
  AList.lookup_insert_ne differs

theorem lookup_dropSlot (found : running.lookup key = some count) :
    (dropSlot running (some key)).lookup key = some (count - 1) := by
  rw [dropSlot, found]
  exact AList.lookup_insert running

theorem lookup_dropSlot_ne
    {slot : Option String} (differs : slot ≠ some other) :
    (dropSlot running slot).lookup other = running.lookup other := by
  cases slot with
  | none =>
      rfl
  | some key =>
      have otherKey : other ≠ key := fun same => differs (same ▸ rfl)
      cases found : running.lookup key with
      | none =>
          simp only [dropSlot, found]
      | some count =>
          simp only [dropSlot, found]
          exact AList.lookup_insert_ne otherKey

theorem lookup_headroomSnapshot
    (configured : limits.lookup key = some limit)
    (found : running.lookup key = some count) :
    (headroomSnapshot limits running).lookup key = some (limit - count) := by
  have nonempty : limits.entries.isEmpty = false := by
    rw [← Option.mem_def, AList.mem_lookup_iff] at configured
    rw [List.isEmpty_eq_false_iff]
    exact List.ne_nil_of_mem configured
  rw [headroomSnapshot, nonempty, if_neg Bool.false_ne_true,
    HashMap.lookup_mapValues, configured, Option.map_some, found,
    Option.getD_some]

theorem lookup_initialCounter (configured : limits.lookup key = some limit) :
    (initialCounter limits).lookup key = some 0 := by
  rw [initialCounter, HashMap.lookup_mapValues, configured, Option.map_some]

end Lookup

end PgWorkQueue
