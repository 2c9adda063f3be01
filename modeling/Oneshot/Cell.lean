import Oneshot.Prog

/-! # The one-shot cell

A cell is undecided or holds one outcome.  Continuations wait in its queue from their registration until
the deciding thread takes them out, one at a time, and the cell says whether that dispatch is still
going on.  Blocked readers are in its waiting set.  A cell without a promise is decided by its
continuation alone, unless it is cancelled before. -/
set_option autoImplicit false
namespace Oneshot

/-- A registered continuation, with the cell that it decides in the end. -/
inductive Task (V N S : Type)
  | chain (result : CellId) (body : Prog V N S)
  | transform (result : CellId) (f : V → Prog V N S)
  | relay (result : CellId) (external : ExternalId)

def Task.result {V N S : Type} : Task V N S → CellId
  | .chain result _ => result
  | .transform result _ => result
  | .relay result _ => result

structure Cell (V N S : Type) where
  promised : Bool
  outcome : Option (Outcome V)
  queue : List (Task V N S)
  dispatching : Bool
  waiting : List ThreadId

namespace Cell
variable {V N S : Type}

/-- The cell of a new pair. -/
def pending : Cell V N S := ⟨true, none, [], false, []⟩

/-- The cell that a continuation is to decide. -/
def derived : Cell V N S := ⟨false, none, [], false, []⟩

/-- The cell of a ready-made future. -/
def ready (o : Outcome V) : Cell V N S := ⟨false, some o, [], false, []⟩

def snapshot (cell : Cell V N S) : Snapshot V := ⟨cell.outcome, cell.queue.length⟩

/-- Whether a continuation has to queue: the cell is undecided, or earlier ones are still being run. -/
def queues (cell : Cell V N S) : Bool := cell.outcome.isNone || cell.dispatching

def enqueue (cell : Cell V N S) (task : Task V N S) : Cell V N S :=
  { cell with queue := cell.queue ++ [task] }

def decide (cell : Cell V N S) (o : Outcome V) : Cell V N S :=
  { cell with outcome := some o, dispatching := true }

def takeFirst (cell : Cell V N S) : Option (Task V N S) × Cell V N S :=
  match cell.queue with
  | [] => (none, { cell with dispatching := false })
  | task :: rest => (some task, { cell with queue := rest })

def notifyAll (cell : Cell V N S) : Cell V N S := { cell with waiting := [] }

def sleep (cell : Cell V N S) (t : ThreadId) : Cell V N S :=
  { cell with waiting := t :: cell.waiting }

def rouse (cell : Cell V N S) (t : ThreadId) : Cell V N S :=
  { cell with waiting := cell.waiting.filter (· ≠ t) }

theorem queues_eq_false_iff {cell : Cell V N S} :
    cell.queues = false ↔ (∃ o, cell.outcome = some o) ∧ cell.dispatching = false := by
  cases h : cell.outcome <;> simp [queues, h]

@[simp] theorem outcome_enqueue (cell : Cell V N S) (task : Task V N S) :
    (cell.enqueue task).outcome = cell.outcome := rfl

@[simp] theorem outcome_decide (cell : Cell V N S) (o : Outcome V) :
    (cell.decide o).outcome = some o := rfl

@[simp] theorem outcome_takeFirst (cell : Cell V N S) :
    cell.takeFirst.2.outcome = cell.outcome := by
  unfold takeFirst
  split <;> rfl

theorem mem_waiting_rouse {cell : Cell V N S} {t u : ThreadId} :
    u ∈ (cell.rouse t).waiting ↔ u ∈ cell.waiting ∧ u ≠ t := by
  simp [rouse]

end Cell
end Oneshot
