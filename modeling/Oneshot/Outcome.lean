import Oneshot.Failure

/-! # Outcomes and the ways to reach them

A cell is undecided or holds an outcome for ever.  Readers see a reading of it.  An attempt asks for an
outcome; a body of code comes to an ending. -/
set_option autoImplicit false
namespace Oneshot

abbrev CellId := Nat
abbrev ExternalId := Nat
abbrev WakerId := Nat
abbrev ThreadId := Nat

inductive Kind
  | pending | value | error | cancelled
  deriving DecidableEq

def Kind.name : Kind → String
  | .pending => "pending"
  | .value => "value"
  | .error => "error"
  | .cancelled => "cancelled"

inductive Outcome (V : Type)
  | value (v : V)
  | failed (cause : Cause)
  | cancelled

abbrev Reading (V : Type) := Except ReadError V

namespace Outcome
variable {V : Type}

def kind : Outcome V → Kind
  | .value _ => .value
  | .failed _ => .error
  | .cancelled => .cancelled

def reading : Outcome V → Reading V
  | .value v => .ok v
  | .failed cause => .error (.failed cause)
  | .cancelled => .error .cancelled

theorem kind_ne_pending (o : Outcome V) : o.kind ≠ .pending := by
  cases o <;> simp [kind]

theorem reading_injective {o o' : Outcome V} (same : o.reading = o'.reading) : o = o' := by
  cases o <;> cases o' <;> simp_all [reading]

end Outcome

/-- The outcome that hands a read error on.  A failure keeps its cause; a timeout would be a failure of
its own, with this identity. -/
def ReadError.outcome {V : Type} (id : CauseId) : ReadError → Outcome V
  | .failed cause => .failed cause
  | .cancelled => .cancelled
  | .timeout limit => .failed (.mk id (.unread (.timeout limit)))

theorem ReadError.outcome_of_reading {V : Type} {o : Outcome V} {e : ReadError}
    (read : o.reading = .error e) (id : CauseId) : e.outcome id = o := by
  cases o with
  | value v => cases read
  | failed cause =>
    cases read
    rfl
  | cancelled =>
    cases read
    rfl

namespace Reading
variable {V : Type}

/-- A timeout counts as an error: only a cancellation is told apart. -/
def kind : Reading V → Kind
  | .ok _ => .value
  | .error .cancelled => .cancelled
  | .error _ => .error

def cause? : Reading V → Option Cause
  | .ok _ => none
  | .error e => e.cause?

@[simp] theorem kind_reading (o : Outcome V) : Reading.kind o.reading = o.kind := by
  cases o <;> rfl

end Reading

def kindOf {V : Type} : Option (Outcome V) → Kind
  | none => .pending
  | some o => o.kind

theorem kindOf_eq_pending_iff {V : Type} {o : Option (Outcome V)} :
    kindOf o = .pending ↔ o = none := by
  cases o with
  | none => simp [kindOf]
  | some o => simp [kindOf, o.kind_ne_pending]

/-- What a panic carries: text, or something that has no text. -/
inductive Payload
  | text (s : String)
  | other

def Payload.message : Payload → String
  | .text s => s
  | .other => "non-string panic payload"

inductive Ending (V : Type)
  | value (v : V)
  | failed (failure : Failure)
  | panicked (payload : Payload)

instance {V : Type} [Inhabited V] : Inhabited (Ending V) := ⟨.value default⟩

inductive Attempt (V : Type)
  | complete (v : V)
  | fail (failure : Failure)
  | cancel

/-- The outcome that an attempt asks for, given the identity that its failure would have as a cause. -/
def Attempt.outcome {V : Type} (id : CauseId) : Attempt V → Outcome V
  | .complete v => .value v
  | .fail failure => .failed (.mk id failure)
  | .cancel => .cancelled

/-- Whether an attempt needs a promise: a future can do no more than cancel. -/
def Attempt.needsPromise {V : Type} : Attempt V → Bool
  | .cancel => false
  | _ => true

/-- What the future of a continuation is to be decided with, by how its body ended. -/
def Ending.attempt {V : Type} : Ending V → Attempt V
  | .value v => .complete v
  | .failed failure => .fail failure
  | .panicked payload => .fail (.panicked payload.message)

end Oneshot
