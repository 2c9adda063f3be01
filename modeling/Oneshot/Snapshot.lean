import Oneshot.Outcome

/-! # What an observer sees at one moment

Done, cancelled, the kind and the reading are told apart on their own; the lemmas say that they agree. -/
set_option autoImplicit false
namespace Oneshot
variable {V : Type}

structure Snapshot (V : Type) where
  outcome : Option (Outcome V)
  queued : Nat

namespace Snapshot

def isDone (x : Snapshot V) : Bool := x.outcome.isSome

def isCancelled (x : Snapshot V) : Bool :=
  match x.outcome with
  | some .cancelled => true
  | _ => false

def kind (x : Snapshot V) : Kind := kindOf x.outcome

def reading? (x : Snapshot V) : Option (Reading V) := x.outcome.map Outcome.reading

theorem isDone_iff_kind {x : Snapshot V} : x.isDone = true ↔ x.kind ≠ .pending := by
  simp only [isDone, kind, Ne, kindOf_eq_pending_iff, Option.isSome_iff_ne_none]

theorem isCancelled_iff_kind {x : Snapshot V} : x.isCancelled = true ↔ x.kind = .cancelled := by
  obtain ⟨outcome, queued⟩ := x
  cases outcome with
  | none => simp [isCancelled, kind, kindOf]
  | some o => cases o <;> simp [isCancelled, kind, kindOf, Outcome.kind]

end Snapshot

structure ExternalSnapshot (V : Type) where
  value : Option (Reading V)
  wakers : Nat

namespace ExternalSnapshot

def isDone (x : ExternalSnapshot V) : Bool := x.value.isSome

def isCancelled (x : ExternalSnapshot V) : Bool :=
  match x.value with
  | some (.error .cancelled) => true
  | _ => false

def kind (x : ExternalSnapshot V) : Kind :=
  match x.value with
  | none => .pending
  | some r => Reading.kind r

theorem isDone_iff_kind {x : ExternalSnapshot V} : x.isDone = true ↔ x.kind ≠ .pending := by
  obtain ⟨value, wakers⟩ := x
  cases value with
  | none => simp [isDone, kind]
  | some r =>
    match r with
    | .ok v => simp [isDone, kind, Reading.kind]
    | .error .cancelled => simp [isDone, kind, Reading.kind]
    | .error (.timeout limit) => simp [isDone, kind, Reading.kind]
    | .error (.failed cause) => simp [isDone, kind, Reading.kind]

theorem isCancelled_iff_kind {x : ExternalSnapshot V} :
    x.isCancelled = true ↔ x.kind = .cancelled := by
  obtain ⟨value, wakers⟩ := x
  cases value with
  | none => simp [isCancelled, kind]
  | some r =>
    match r with
    | .ok v => simp [isCancelled, kind, Reading.kind]
    | .error .cancelled => simp [isCancelled, kind, Reading.kind]
    | .error (.timeout limit) => simp [isCancelled, kind, Reading.kind]
    | .error (.failed cause) => simp [isCancelled, kind, Reading.kind]

end ExternalSnapshot
end Oneshot
