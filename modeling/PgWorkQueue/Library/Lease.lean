import Mathlib.Order.Notation

/-!
# Leases

A resource is lent to one holder at a time.  The holder is known by a token and
keeps the resource until it shows the token or, at the latest, until the time
is over; from then on the resource may be taken back from it.

A holder cannot tell from its own state whether it still has the resource.  What
it can rely on is `Table.Entitled`: as long as nobody shows its token, the
resource is its own or its time is over.
-/

namespace Library.Lease

universe u v w

/-- Who holds each resource and until when, and what time it is. -/
structure Table (Resource : Type u) (Token : Type v) (Time : Type w) where
  holder : Resource → Option (Token × Time)
  clock : Time

section Holders

variable {Resource : Type u} {Token : Type v} {Time : Type w} [LT Time]
  {table : Table Resource Token Time} {resource : Resource}
  {token other : Token} {expiry otherExpiry : Time}

/-- The resource is held under the token, or the time of that lease is over. -/
def Table.Entitled (table : Table Resource Token Time) (resource : Resource)
    (token : Token) (expiry : Time) : Prop :=
  table.holder resource = some (token, expiry) ∨ expiry < table.clock

/-- Of two holders of one resource, the time of one is over. -/
theorem Table.Entitled.exclusive
    (first : table.Entitled resource token expiry)
    (second : table.Entitled resource other otherExpiry)
    (differ : token ≠ other) :
    expiry < table.clock ∨ otherExpiry < table.clock := by
  rcases first with held | late
  · rcases second with otherHeld | otherLate
    · rw [held, Option.some.injEq, Prod.mk.injEq] at otherHeld
      exact absurd otherHeld.1 differ
    · exact Or.inr otherLate
  · exact Or.inl late

end Holders

section Protocol

variable {Resource : Type u} {Token : Type v} {Time : Type w}
  [LE Time] [LT Time]

/-- What may happen to one resource; `shown` is the token that is shown to give
a resource back. -/
inductive Change (shown : Option (Resource × Token))
    (before after : Table Resource Token Time) (resource : Resource) : Prop
  | kept (same : after.holder resource = before.holder resource)
  | lent (free : before.holder resource = none)
  | returned (token : Token) (expiry : Time)
      (held : before.holder resource = some (token, expiry))
      (shows : shown = some (resource, token))
  | revoked (token : Token) (expiry : Time)
      (held : before.holder resource = some (token, expiry))
      (late : expiry < after.clock)

/-- One step of the protocol. -/
structure Follows (shown : Option (Resource × Token))
    (before after : Table Resource Token Time) : Prop where
  clock : before.clock ≤ after.clock
  change : ∀ resource, Change shown before after resource

/-- Only showing the token ends a lease before its time. -/
theorem Table.Entitled.follows {shown : Option (Resource × Token)}
    {before after : Table Resource Token Time} {resource : Resource}
    {token : Token} {expiry : Time}
    (transitive : ∀ first second third : Time,
      first < second → second ≤ third → first < third)
    (entitled : before.Entitled resource token expiry)
    (follows : Follows shown before after)
    (unshown : shown ≠ some (resource, token)) :
    after.Entitled resource token expiry := by
  rcases entitled with held | late
  · cases follows.change resource with
    | kept same => exact Or.inl (same.trans held)
    | lent free =>
        rw [free] at held
        cases held
    | returned holder due heldThen shows =>
        rw [held, Option.some.injEq, Prod.mk.injEq] at heldThen
        exact absurd (heldThen.1 ▸ shows) unshown
    | revoked holder due heldThen late =>
        rw [held, Option.some.injEq, Prod.mk.injEq] at heldThen
        exact Or.inr (heldThen.2 ▸ late)
  · exact Or.inr (transitive _ _ _ late follows.clock)

end Protocol

end Library.Lease
