import Oneshot.Cell
import Oneshot.External
import Oneshot.Event

/-! # States of the machine

Threads share cells, external futures, wakers, a clock and a client state.  A thread is what it does now
and the frames to come back to, innermost first.  The history has the latest entry first. -/
set_option autoImplicit false
namespace Oneshot

/-- A blocked read: the cell, the limit and the moment it ends at, if it has one, and what follows. -/
structure Wait (V N S : Type) where
  cell : CellId
  limit : Option (Duration × Nat)
  resume : Reading V → Prog V N S

inductive Doing (V N S : Type)
  | run (p : Prog V N S)
  /-- About to enter the critical section of a decision; `k` is told who won. -/
  | deciding (c : CellId) (o : Outcome V) (k : Option (Bool → Prog V N S))
  /-- Has decided `c` and is about to notify its readers. -/
  | announcing (c : CellId) (kind : Kind) (queued : Nat)
  /-- About to take the next continuation of `c`. -/
  | draining (c : CellId)
  | starting (c : CellId) (task : Task V N S)
  | relaying (c : CellId) (e : ExternalId)
  | settling (e : ExternalId) (r : Reading V) (k : Option (Bool → Prog V N S))
  /-- About to check the cell under its lock. -/
  | checking (w : Wait V N S)
  | asleep (w : Wait V N S)
  /-- Has left the waiting set at its deadline and is about to check once more. -/
  | expired (c : CellId) (limit : Duration) (k : Reading V → Prog V N S)
  | ended (e : Ending V)

inductive Frame (V N S : Type)
  | resume (p : Prog V N S)
  | finishing (c result : CellId)
  | draining (c : CellId)
  | capturing (result : CellId)
  | waking (e : ExternalId) (ws : List WakerId)
  | guarding (k : Ending V → Prog V N S)

structure Thread (V N S : Type) where
  name : Option String
  doing : Doing V N S
  frames : List (Frame V N S)

structure State (V N S : Type) where
  cells : Array (Cell V N S)
  externals : Array (External V)
  wakers : Array (Prog V N S)
  threads : Array (Thread V N S)
  nextCause : CauseId
  now : Nat
  client : S
  history : List (Entry N)

namespace State
variable {V N S : Type}

/-- One thread, named `main`, at the start of `p`. -/
def start (client : S) (p : Prog V N S) : State V N S where
  cells := #[]
  externals := #[]
  wakers := #[]
  threads := #[⟨some "main", .run p, []⟩]
  nextCause := 0
  now := 0
  client := client
  history := []

def outcome? (s : State V N S) (c : CellId) : Option (Outcome V) :=
  s.cells[c]?.bind Cell.outcome

def snapshot (s : State V N S) (c : CellId) : Snapshot V :=
  match s.cells[c]? with
  | none => ⟨none, 0⟩
  | some cell => cell.snapshot

def externalSnapshot (s : State V N S) (e : ExternalId) : ExternalSnapshot V :=
  match s.externals[e]? with
  | none => ⟨none, 0⟩
  | some x => x.snapshot

def log (s : State V N S) (t : ThreadId) (event : Event N) : State V N S :=
  { s with history := ⟨t, event⟩ :: s.history }

/-- A body that does not come to a value is recorded. -/
def logEnding (s : State V N S) (t : ThreadId) (result : CellId) : Ending V → State V N S
  | .value _ => s
  | .failed failure => s.log t (.bodyFailed result failure)
  | .panicked payload => s.log t (.bodyPanicked result payload.message)

def modifyCell (s : State V N S) (c : CellId) (f : Cell V N S → Cell V N S) : State V N S :=
  { s with cells := s.cells.modify c f }

def modifyExternal (s : State V N S) (e : ExternalId) (f : External V → External V) : State V N S :=
  { s with externals := s.externals.modify e f }

def setThread (s : State V N S) (t : ThreadId) (thread : Thread V N S) : State V N S :=
  { s with threads := s.threads.setIfInBounds t thread }

def addCell (s : State V N S) (cell : Cell V N S) : State V N S :=
  { s with cells := s.cells.push cell }

def addExternal (s : State V N S) : State V N S :=
  { s with externals := s.externals.push .new }

def addWaker (s : State V N S) (onWake : Prog V N S) : State V N S :=
  { s with wakers := s.wakers.push onWake }

def addThread (s : State V N S) (name : Option String) (body : Prog V N S) : State V N S :=
  { s with threads := s.threads.push ⟨name, .run body, []⟩ }

def useCause (s : State V N S) : State V N S := { s with nextCause := s.nextCause + 1 }

/-- Moments from here on cannot be told: a limit that reaches it is no limit. -/
def endOfTime : Nat := 0x8000000000000000 * nanosPerSecond

def deadline? (s : State V N S) (limit : Duration) : Option (Duration × Nat) :=
  if s.now + limit.toNanos < endOfTime then some (limit, s.now + limit.toNanos) else none

/-- Whether `c` may be decided in this way from outside: completed or failed only through a promise. -/
def admits (s : State V N S) (c : CellId) (a : Attempt V) : Bool :=
  match s.cells[c]? with
  | none => false
  | some cell => cell.promised || !a.needsPromise

def ending? (s : State V N S) (t : ThreadId) : Option (Ending V) :=
  match s.threads[t]? with
  | some ⟨_, .ended e, []⟩ => some e
  | _ => none

/-- Whether a thread is in the waiting set of a cell. -/
def Waits (s : State V N S) (t : ThreadId) (c : CellId) : Prop :=
  ∃ cell, s.cells[c]? = some cell ∧ t ∈ cell.waiting

/-- Whether `t` may come out of the wait on `c`: the cell exists and its waiting set is without `t`. -/
def awake (s : State V N S) (t : ThreadId) (c : CellId) : Bool :=
  match s.cells[c]? with
  | none => false
  | some cell => !cell.waiting.contains t

theorem awake_iff {s : State V N S} {t : ThreadId} {c : CellId} :
    s.awake t c = true ↔ c < s.cells.size ∧ ¬ s.Waits t c := by
  unfold awake Waits
  split
  next missing => simp [Array.getElem?_eq_none_iff.mp missing]
  next cell found =>
    obtain ⟨inside, rfl⟩ := Array.getElem?_eq_some_iff.mp found
    simp [inside]

theorem getElem?_modifyCell (s : State V N S) (c d : CellId) (f : Cell V N S → Cell V N S) :
    (s.modifyCell c f).cells[d]? = if c = d then s.cells[d]?.map f else s.cells[d]? := by
  simp only [modifyCell, Array.getElem?_modify]

theorem getElem?_setThread (s : State V N S) (t u : ThreadId) (thread : Thread V N S) :
    (s.setThread t thread).threads[u]? =
      if t = u then (if t < s.threads.size then some thread else none) else s.threads[u]? := by
  simp only [setThread, Array.getElem?_setIfInBounds]

theorem outcome?_modifyCell (s : State V N S) (c d : CellId) (f : Cell V N S → Cell V N S)
    (same : ∀ cell, (f cell).outcome = cell.outcome) :
    (s.modifyCell c f).outcome? d = s.outcome? d := by
  simp only [outcome?, getElem?_modifyCell]
  split
  next =>
    cases s.cells[d]? with
    | none => rfl
    | some cell => exact same cell
  next => rfl

@[simp] theorem outcome?_log (s : State V N S) (t : ThreadId) (event : Event N) (c : CellId) :
    (s.log t event).outcome? c = s.outcome? c := rfl

@[simp] theorem outcome?_setThread (s : State V N S) (t : ThreadId) (thread : Thread V N S)
    (c : CellId) : (s.setThread t thread).outcome? c = s.outcome? c := rfl

end State
end Oneshot
