import Oneshot.Machine.Step

/-! # One schedule

The thread that was started last and can go on, goes on; when none can, time passes until the first
timed wait ends.  So a new thread runs until it ends or blocks before its parent goes on.  Steps take
time, and a wait at its deadline ends even if others could go on.  Every run of this schedule is one of
the runs of the machine (`reaches_advance`). -/
set_option autoImplicit false
namespace Oneshot
namespace State
variable {V N S : Type} [Inhabited V]

/-- How many nanoseconds a step takes. -/
def stepTime : Nat := 100

/-- How many more nanoseconds the start of a thread takes. -/
def startTime : Nat := 20000

def elapsed (s s' : State V N S) : Nat :=
  stepTime + startTime * (s'.threads.size - s.threads.size)

/-- A thread goes on with its next step, or with the end of its wait. -/
def goOn (s : State V N S) (t : ThreadId) : Option (State V N S) :=
  match s.move (.step t) with
  | some s' => s'.move (.pass (elapsed s s'))
  | none => s.move (.expire t)

/-- The last thread before `n` that can go on, goes on. -/
def goOnBelow (s : State V N S) : Nat → Option (State V N S)
  | 0 => none
  | n + 1 =>
    match s.goOn n with
    | some s' => some s'
    | none => s.goOnBelow n

/-- The timed wait that ends first, with the moment of its end. -/
def firstDeadline (s : State V N S) : Nat → Option (ThreadId × Nat)
  | 0 => none
  | n + 1 =>
    match s.threads[n]? with
    | some ⟨_, .asleep ⟨_, some (_, deadline), _⟩, _⟩ =>
      match s.firstDeadline n with
      | some (t, earlier) => some (if earlier ≤ deadline then (t, earlier) else (n, deadline))
      | none => some (n, deadline)
    | _ => s.firstDeadline n

def letPass (s : State V N S) : Option (State V N S) :=
  match s.firstDeadline s.threads.size with
  | none => none
  | some (t, deadline) =>
    (s.move (.pass (deadline - s.now))).bind fun s' => s'.move (.expire t)

def proceed (s : State V N S) : Option (State V N S) :=
  match s.goOnBelow s.threads.size with
  | some s' => some s'
  | none => s.letPass

/-- Goes on until the first thread has ended, nothing can go on, or `fuel` is used up. -/
def advance (s : State V N S) : Nat → State V N S
  | 0 => s
  | fuel + 1 =>
    match s.ending? 0 with
    | some _ => s
    | none =>
      match s.proceed with
      | none => s
      | some s' => s'.advance fuel

theorem reaches_goOn {s s' : State V N S} {t : ThreadId} (moved : s.goOn t = some s') :
    Reaches s s' := by
  unfold goOn at moved
  split at moved
  next stepped => exact (Reaches.of_move stepped).trans (.of_move moved)
  next => exact .of_move moved

theorem reaches_goOnBelow {s s' : State V N S} {n : Nat} (moved : s.goOnBelow n = some s') :
    Reaches s s' := by
  induction n with
  | zero => cases moved
  | succ n ih =>
    simp only [goOnBelow] at moved
    split at moved
    next went =>
      cases Option.some.inj moved
      exact reaches_goOn went
    next => exact ih moved

theorem reaches_letPass {s s' : State V N S} (moved : s.letPass = some s') : Reaches s s' := by
  simp only [letPass] at moved
  split at moved
  next => cases moved
  next =>
    obtain ⟨middle, passed, expired⟩ := Option.bind_eq_some_iff.mp moved
    exact (Reaches.of_move passed).trans (.of_move expired)

theorem reaches_proceed {s s' : State V N S} (moved : s.proceed = some s') : Reaches s s' := by
  simp only [proceed] at moved
  split at moved
  next stepped =>
    cases Option.some.inj moved
    exact reaches_goOnBelow stepped
  next => exact reaches_letPass moved

theorem reaches_advance (s : State V N S) (fuel : Nat) : Reaches s (s.advance fuel) := by
  induction fuel generalizing s with
  | zero => exact .refl s
  | succ fuel ih =>
    simp only [advance]
    split
    next => exact .refl s
    next =>
      split
      next => exact .refl s
      next moved => exact (reaches_proceed moved).trans (ih _)

end State
end Oneshot
