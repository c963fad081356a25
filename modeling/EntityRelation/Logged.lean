import EntityRelation.Event
import EntityRelation.Failure

/-!
# Computations that report events

A computation that may fail and reports events on its way. Events that were reported before a
failure are kept. The outcome of a sequence is the outcome of the same sequence without events
(`outcome_bind`), so that what a computation answers can be told without looking at what it
reports. A sequence without events answers when all of it answers, and fails as the first part of
it that fails (`bind_eq_ok_iff`, `bind_eq_error_iff`).
-/

namespace EntityRelation

/-! ### Sequences of checks -/

section Sequence

variable {α β : Type} {x : Except Failure α} {k : α → Except Failure β}

theorem bind_eq_ok_iff {b : β} : (x >>= k) = .ok b ↔ ∃ a, x = .ok a ∧ k a = .ok b := by
  cases x <;> simp [bind, Except.bind]

theorem bind_eq_error_iff {f : Failure} :
    (x >>= k) = .error f ↔ x = .error f ∨ ∃ a, x = .ok a ∧ k a = .error f := by
  cases x <;> simp [bind, Except.bind]

theorem map_eq_ok_iff {f : α → β} {b : β} : x.map f = .ok b ↔ ∃ a, x = .ok a ∧ f a = b := by
  cases x <;> simp [Except.map]

theorem map_eq_error_iff {f : α → β} {e : Failure} : x.map f = .error e ↔ x = .error e := by
  cases x <;> simp [Except.map]

/-- A computation that does not fail answers. -/
theorem exists_ok_of_ne_error (h : ∀ f, x ≠ .error f) : ∃ a, x = .ok a := by
  cases x with
  | error e => exact absurd rfl (h e)
  | ok a => exact ⟨a, rfl⟩

end Sequence

/-! ### Reports -/

/-- A computation that may fail, together with what it reported. -/
structure Logged (α : Type) where
  /-- What was reported, in order. -/
  events : List Event
  /-- The answer, or why there is none. -/
  outcome : Except Failure α

namespace Logged

/-- An answer without events. -/
def ofExcept (x : Except Failure α) : Logged α := ⟨[], x⟩

/-- A failure without events. -/
def fail (f : Failure) : Logged α := ⟨[], .error f⟩

/-- Events without an answer. -/
def reportAll (events : List Event) : Logged Unit := ⟨events, .ok ()⟩

/-- One event without an answer. -/
def report (e : Event) : Logged Unit := reportAll [e]

/-- One computation after the other, unless the first one fails. -/
def bind (x : Logged α) (f : α → Logged β) : Logged β :=
  match x.outcome with
  | .error e => ⟨x.events, .error e⟩
  | .ok a => ⟨x.events ++ (f a).events, (f a).outcome⟩

instance : Monad Logged where
  pure a := ⟨[], .ok a⟩
  bind := bind

instance : MonadLift (Except Failure) Logged where
  monadLift := ofExcept

@[simp] theorem outcome_pure (a : α) : (pure a : Logged α).outcome = .ok a := rfl

@[simp] theorem outcome_ofExcept (x : Except Failure α) : (ofExcept x).outcome = x := rfl

@[simp] theorem outcome_liftM (x : Except Failure α) : (liftM x : Logged α).outcome = x := rfl

@[simp] theorem outcome_fail (f : Failure) : (fail f : Logged α).outcome = .error f := rfl

@[simp] theorem outcome_reportAll (es : List Event) : (reportAll es).outcome = .ok () := rfl

@[simp] theorem outcome_bind (x : Logged α) (f : α → Logged β) :
    (x >>= f).outcome = x.outcome >>= fun a => (f a).outcome := by
  change (bind x f).outcome = _
  unfold bind
  cases x.outcome <;> rfl

/-- A sequence reports what its first part reports and, if that answers, what the rest reports. -/
theorem mem_events_bind {x : Logged α} {f : α → Logged β} {e : Event} :
    e ∈ (x >>= f).events ↔ e ∈ x.events ∨ ∃ a, x.outcome = .ok a ∧ e ∈ (f a).events := by
  change e ∈ (bind x f).events ↔ _
  unfold bind
  cases x.outcome <;> simp

@[simp] theorem events_liftM (x : Except Failure α) : (liftM x : Logged α).events = [] := rfl

@[simp] theorem events_pure (a : α) : (pure a : Logged α).events = [] := rfl

@[simp] theorem events_report (e : Event) : (report e).events = [e] := rfl

end Logged

end EntityRelation
