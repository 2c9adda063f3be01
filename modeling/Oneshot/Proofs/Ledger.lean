import Mathlib.Logic.Function.Basic
import Oneshot.Proofs.Stack

/-! # The ledger of a state

What a state says of dispatches: which cells are decided, what waits in their queues, what each thread
is in the middle of, and the marks that continuations have left in the history.  A move of the machine
makes one of nine changes to the ledger (`posts_of_advance`). -/
set_option autoImplicit false
namespace Oneshot
open Function (update)

/-- What the history says of a cell or of a continuation, which is named by the cell it decides. -/
inductive Mark
  | decided (c : CellId)
  | queued (c result : CellId)
  | inlined (c result : CellId)
  | started (c result : CellId)
  | finished (c result : CellId)
  deriving DecidableEq

/-- What a thread is in the middle of. -/
inductive Duty
  /-- The winning decision of `c`, whose readers are not notified yet. -/
  | announce (c : CellId)
  /-- The winning decision of `c`, in its drain loop. -/
  | dispatch (c : CellId)
  /-- A continuation that the drain loop of `c` has taken out of the queue. -/
  | queued (c result : CellId)
  /-- A continuation that its registration runs at once. -/
  | inline (c result : CellId)
  deriving DecidableEq

@[ext]
structure Ledger where
  size : Nat
  threads : Nat
  decided : CellId → Bool
  queue : CellId → List CellId
  dispatches : CellId → Bool
  /-- Innermost first. -/
  duties : ThreadId → List Duty
  /-- Latest first. -/
  marks : List (ThreadId × Mark)

inductive Posts (v : Ledger) : Ledger → Prop
  | grows {size threads} (cells : v.size ≤ size) (more : v.threads ≤ threads) :
      Posts v { v with size := size, threads := threads }
  | readies : Posts v { v with size := v.size + 1, decided := update v.decided v.size true }
  | decides {t c} (member : t < v.threads) (inside : c < v.size) (undecided : v.decided c = false) :
      Posts v
        { v with
          decided := update v.decided c true
          dispatches := update v.dispatches c true
          duties := update v.duties t (.announce c :: v.duties t) }
  | announces {t c ds} (member : t < v.threads) (top : v.duties t = .announce c :: ds) :
      Posts v
        { v with
          duties := update v.duties t (.dispatch c :: ds)
          marks := (t, .decided c) :: v.marks }
  | queues {t c} (inside : c < v.size) (waits : v.decided c = false ∨ v.dispatches c = true) :
      Posts v
        { v with
          size := v.size + 1
          queue := update v.queue c (v.queue c ++ [v.size])
          marks := (t, .queued c v.size) :: v.marks }
  | inlines {t c} (member : t < v.threads) (decided : v.decided c = true)
      (free : v.dispatches c = false) :
      Posts v
        { v with
          size := v.size + 1
          duties := update v.duties t (.inline c v.size :: v.duties t)
          marks := (t, .started c v.size) :: (t, .inlined c v.size) :: v.marks }
  | takes {t c r rest ds} (member : t < v.threads) (queue : v.queue c = r :: rest)
      (top : v.duties t = .dispatch c :: ds) :
      Posts v
        { v with
          queue := update v.queue c rest
          duties := update v.duties t (.queued c r :: .dispatch c :: ds)
          marks := (t, .started c r) :: v.marks }
  | empties {t c ds} (member : t < v.threads) (queue : v.queue c = [])
      (top : v.duties t = .dispatch c :: ds) :
      Posts v
        { v with
          dispatches := update v.dispatches c false
          duties := update v.duties t ds }
  | finishes {t c r duty ds} (member : t < v.threads) (which : duty = .queued c r ∨ duty = .inline c r)
      (top : v.duties t = duty :: ds) (landed : v.decided r = true) :
      Posts v
        { v with
          duties := update v.duties t ds
          marks := (t, .finished c r) :: v.marks }

variable {V N S : Type}

def Event.mark? : Event N → Option Mark
  | .decided c _ _ => some (.decided c)
  | .queued c result _ _ => some (.queued c result)
  | .inlined c result => some (.inlined c result)
  | .started c result => some (.started c result)
  | .finished c result => some (.finished c result)
  | _ => none

theorem Event.Aside.mark? {event : Event N} (aside : event.Aside) : event.mark? = none := by
  cases event <;> first | rfl | exact aside.elim

def Entry.mark? (entry : Entry N) : Option (ThreadId × Mark) :=
  entry.event.mark?.map fun mark => (entry.thread, mark)

/-- A continuation of `c` that runs above the frames `fs`: a drain loop below has taken it. -/
def Duty.ofRun (c result : CellId) : List (Frame V N S) → Duty
  | .draining _ :: _ => .queued c result
  | _ => .inline c result

def frameDuties : List (Frame V N S) → List Duty
  | [] => []
  | .draining c :: fs => .dispatch c :: frameDuties fs
  | .finishing c result :: fs => .ofRun c result fs :: frameDuties fs
  | .resume _ :: fs | .capturing _ :: fs | .waking _ _ :: fs | .guarding _ :: fs => frameDuties fs

def dutiesOf (doing : Doing V N S) (fs : List (Frame V N S)) : List Duty :=
  match doing with
  | .announcing c _ _ => .announce c :: frameDuties fs
  | .draining c => .dispatch c :: frameDuties fs
  | .starting c task => .ofRun c task.result fs :: frameDuties fs
  | _ => frameDuties fs

namespace State

def duties (s : State V N S) (t : ThreadId) : List Duty :=
  match s.threads[t]? with
  | none => []
  | some thread => dutiesOf thread.doing thread.frames

def marks (s : State V N S) : List (ThreadId × Mark) := s.history.filterMap Entry.mark?

def ledger (s : State V N S) : Ledger where
  size := s.cells.size
  threads := s.threads.size
  decided c := (s.outcome? c).isSome
  queue c := (s.queueOf c).map Task.result
  dispatches := s.dispatches
  duties := s.duties
  marks := s.marks

theorem duties_of_found {s : State V N S} {t : ThreadId} {thread : Thread V N S}
    (found : s.threads[t]? = some thread) : s.duties t = dutiesOf thread.doing thread.frames := by
  simp [duties, found]

theorem duties_push {s s' : State V N S} {name : Option String} {body : Prog V N S}
    (threads : s'.threads = s.threads.push ⟨name, .run body, []⟩) : s'.duties = s.duties := by
  funext u
  simp only [duties, threads, Array.getElem?_push]
  by_cases last : u = s.threads.size
  · subst last
    simp [dutiesOf, frameDuties]
  · simp [last]

theorem duties_setThread {s : State V N S} {t : ThreadId} (member : t < s.threads.size)
    (thread : Thread V N S) :
    (s.setThread t thread).duties = update s.duties t (dutiesOf thread.doing thread.frames) := by
  funext u
  simp only [duties, getElem?_setThread]
  by_cases same : t = u
  · subst same
    simp [member]
  · simp [same, Function.update_of_ne (Ne.symm same), duties]

theorem marks_of_still {s s' : State V N S} (still : Still s s') : s'.marks = s.marks := by
  obtain ⟨entries, history, aside⟩ := still.history
  have none_left : entries.filterMap Entry.mark? = [] := by
    rw [List.filterMap_eq_nil_iff]
    intro entry member
    simp [Entry.mark?, (aside entry member).mark?]
  rw [marks, history, List.filterMap_append, none_left, List.nil_append, marks]

theorem ledger_log {event : Event N} {mark : Mark} (marked : event.mark? = some mark)
    (s : State V N S) (t : ThreadId) :
    (s.log t event).ledger = { s.ledger with marks := (t, mark) :: s.ledger.marks } := by
  have marks : (s.log t event).marks = (t, mark) :: s.marks := by
    simp [State.marks, log, Entry.mark?, marked]
  exact Ledger.ext rfl rfl rfl rfl rfl rfl marks

theorem ledger_of_still {s s' : State V N S} (still : Still s s') :
    s'.ledger = { s.ledger with threads := s'.threads.size } := by
  have duties : s'.duties = s.duties := by
    rcases still.threads with same | ⟨name, body, pushed⟩
    · funext u
      rw [State.duties, same, State.duties]
    · exact duties_push pushed
  apply Ledger.ext
  · exact still.size
  · rfl
  · funext c
    exact congrArg Option.isSome (still.outcome? c)
  · funext c
    exact congrArg (List.map Task.result) (still.queueOf c)
  · exact funext still.dispatches
  · exact duties
  · exact marks_of_still still

theorem ledger_addCell (s : State V N S) {cell : Cell V N S} (empty : cell.queue = [])
    (idle : cell.dispatching = false) :
    (s.addCell cell).ledger =
      { s.ledger with
        size := s.cells.size + 1
        decided := update s.ledger.decided s.cells.size cell.outcome.isSome } := by
  apply Ledger.ext
  · exact size_addCell s cell
  · rfl
  · funext c
    simp only [ledger, outcome?_addCell, Function.update_apply]
    split <;> rfl
  · funext c
    exact congrArg (List.map Task.result) (queueOf_addCell s empty c)
  · exact funext (dispatches_addCell s idle)
  · rfl
  · rfl

theorem decided_outside (s : State V N S) : s.ledger.decided s.cells.size = false := by
  simp [ledger, outcome?_outside]

/-- An undecided cell is as if it were not there yet. -/
theorem ledger_addCell_undecided (s : State V N S) {cell : Cell V N S} (empty : cell.queue = [])
    (idle : cell.dispatching = false) (undecided : cell.outcome = none) :
    (s.addCell cell).ledger = { s.ledger with size := s.cells.size + 1 } := by
  rw [ledger_addCell s empty idle, undecided]
  simp only [Option.isSome_none, ← decided_outside s, Function.update_eq_self]

theorem ledger_replaceCell {s : State V N S} {c : CellId} {cell : Cell V N S}
    (found : s.cells[c]? = some cell) (f : Cell V N S → Cell V N S) :
    (s.modifyCell c f).ledger =
      { s.ledger with
        decided := update s.ledger.decided c (f cell).outcome.isSome
        queue := update s.ledger.queue c ((f cell).queue.map Task.result)
        dispatches := update s.ledger.dispatches c (f cell).dispatching } := by
  apply Ledger.ext
  · exact size_modifyCell s c f
  · rfl
  · funext d
    simp only [ledger, outcome?_replaceCell found, Function.update_apply]
    split <;> rfl
  · funext d
    simp only [ledger, queueOf_replaceCell found, Function.update_apply]
    split <;> rfl
  · funext d
    simp only [ledger, dispatches_replaceCell found, Function.update_apply]
  · rfl
  · rfl

theorem decided_of_found {s : State V N S} {c : CellId} {cell : Cell V N S}
    (found : s.cells[c]? = some cell) : s.ledger.decided c = cell.outcome.isSome := by
  simp [ledger, outcome?_of_found found]

theorem queue_of_found {s : State V N S} {c : CellId} {cell : Cell V N S}
    (found : s.cells[c]? = some cell) : s.ledger.queue c = cell.queue.map Task.result := by
  simp [ledger, queueOf_of_found found]

theorem ledger_requeue {s : State V N S} {c : CellId} {cell : Cell V N S}
    (found : s.cells[c]? = some cell) (f : Cell V N S → Cell V N S)
    (outcome : (f cell).outcome = cell.outcome)
    (dispatching : (f cell).dispatching = cell.dispatching) :
    (s.modifyCell c f).ledger =
      { s.ledger with queue := update s.ledger.queue c ((f cell).queue.map Task.result) } := by
  have same : s.ledger.dispatches c = cell.dispatching := dispatches_of_found found
  rw [ledger_replaceCell found, outcome, dispatching, ← decided_of_found found, ← same,
    Function.update_eq_self, Function.update_eq_self]

theorem ledger_setThread {s : State V N S} {t : ThreadId} (member : t < s.threads.size)
    (thread : Thread V N S) :
    (s.setThread t thread).ledger =
      { s.ledger with duties := update s.duties t (dutiesOf thread.doing thread.frames) } := by
  apply Ledger.ext
  · rfl
  · simp [ledger, setThread]
  · rfl
  · rfl
  · rfl
  · exact duties_setThread member thread
  · rfl

end State

section Next
variable {s : State V N S} {t : ThreadId} {name : Option String} {d : Doing V N S}
  {fs : List (Frame V N S)} {n : Next V N S}

theorem ofRun_cases (c result : CellId) (fs : List (Frame V N S)) :
    Duty.ofRun c result fs = .queued c result ∨ Duty.ofRun c result fs = .inline c result := by
  unfold Duty.ofRun
  split
  next => exact Or.inl rfl
  next => exact Or.inr rfl

theorem ledger_next {s' : State V N S} {v : Ledger} (state : s'.ledger = v) (member : t < v.threads) :
    (s'.setThread t ⟨name, d, fs⟩).ledger =
      { v with duties := update v.duties t (dutiesOf d fs) } := by
  subst state
  exact State.ledger_setThread member _

/-- A thread that stays in the middle of the same things changes the ledger only by what it adds. -/
theorem posts_of_same_duties {size threads : Nat}
    (found : s.threads[t]? = some ⟨name, d, fs⟩)
    (state : n.state.ledger = { s.ledger with size := size, threads := threads })
    (cells : s.cells.size ≤ size) (more : s.threads.size ≤ threads)
    (same : dutiesOf n.doing n.frames = dutiesOf d fs) :
    Posts s.ledger (n.state.setThread t ⟨name, n.doing, n.frames⟩).ledger := by
  have member : t < s.threads.size := (Array.getElem?_eq_some_iff.mp found).1
  have here : s.ledger.duties t = dutiesOf d fs := State.duties_of_found found
  rw [ledger_next state (Nat.lt_of_lt_of_le member more), same, ← here, Function.update_eq_self]
  exact .grows cells more

theorem dutiesOf_plain (plain : d.Plain ∨ ∃ e, d = .ended e) : dutiesOf d fs = frameDuties fs := by
  rcases plain with plain | ⟨e, rfl⟩
  · cases d <;> first | rfl | exact plain.elim
  · rfl

theorem ledger_of_opens {s₀ : State V N S} (opens : Opens s t s₀) : s₀.ledger = s.ledger := by
  cases opens <;> rfl

theorem ledger_addDerived {s₀ : State V N S} (opens : Opens s t s₀) :
    (s₀.addCell .derived).ledger = { s.ledger with size := s.cells.size + 1 } := by
  rw [State.ledger_addCell_undecided _ rfl rfl rfl, opens.cells, ledger_of_opens opens]

theorem ledger_of_queues {s₀ : State V N S} {c : CellId} {cell : Cell V N S} {task : Task V N S}
    {length : Nat} {dispatching : Bool} (opens : Opens s t s₀) (held : s.cells[c]? = some cell)
    (new : task.result = s.cells.size) :
    (((s₀.addCell .derived).modifyCell c (·.enqueue task)).log t
        (.queued c task.result length dispatching)).ledger =
      { s.ledger with
        size := s.cells.size + 1
        queue := update s.ledger.queue c (s.ledger.queue c ++ [s.cells.size])
        marks := (t, .queued c s.cells.size) :: s.ledger.marks } := by
  have enqueued := State.ledger_requeue (opens.found_addCell .derived held) (·.enqueue task) rfl rfl
  rw [ledger_addDerived opens] at enqueued
  rw [State.ledger_log rfl, enqueued, State.queue_of_found held, ← new]
  simp only [Cell.enqueue, List.map_append, List.map_cons, List.map_nil]

theorem ledger_of_inlines {s₀ : State V N S} {c : CellId} {task : Task V N S}
    (opens : Opens s t s₀) (new : task.result = s.cells.size) :
    (((s₀.addCell .derived).log t (.inlined c task.result)).log t
        (.started c task.result)).ledger =
      { s.ledger with
        size := s.cells.size + 1
        marks := (t, .started c s.cells.size) :: (t, .inlined c s.cells.size) :: s.ledger.marks } := by
  rw [State.ledger_log rfl, State.ledger_log rfl, ledger_addDerived opens, new]

theorem ledger_logEnding (result : CellId) (e : Ending V) :
    (s.logEnding t result e).ledger = s.ledger := by
  cases e <;> rfl

theorem threads_of_still {s' : State V N S} (still : Still s s') :
    s.threads.size ≤ s'.threads.size := by
  rcases still.threads with same | ⟨name, body, pushed⟩
  · exact Nat.le_of_eq (congrArg Array.size same).symm
  · rw [pushed, Array.size_push]
    omega

theorem frameDuties_won (k : Option (Bool → Prog V N S)) :
    frameDuties (won k ++ fs) = frameDuties fs := by
  cases k <;> rfl

theorem posts_of_still {s' : State V N S} (still : Still s s') : Posts s.ledger s'.ledger := by
  rw [State.ledger_of_still still]
  exact .grows (Nat.le_refl _) (threads_of_still still)

end Next

section Inhabited
variable [Inhabited V] {s s' : State V N S} {t : ThreadId} {name : Option String}
  {d : Doing V N S} {fs : List (Frame V N S)} {n : Next V N S}

theorem dutiesOf_lost (k : Option (Bool → Prog V N S)) : dutiesOf (lost k) fs = frameDuties fs := by
  cases k <;> rfl

omit [Inhabited V] in
theorem posts_of_readies {p p' : Prog V N S} (found : s.threads[t]? = some ⟨name, .run p, fs⟩)
    (o : Outcome V) (next : CauseId) :
    Posts s.ledger ({ s.addCell (.ready o) with nextCause := next }.setThread t
      ⟨name, .run p', fs⟩).ledger := by
  have member : t < s.threads.size := (Array.getElem?_eq_some_iff.mp found).1
  have state : ({ s.addCell (.ready o) with nextCause := next } : State V N S).ledger = _ :=
    State.ledger_addCell s rfl rfl
  have same : dutiesOf (.run p') fs = s.ledger.duties t := (State.duties_of_found found).symm
  rw [ledger_next state member]
  simp only [same, Function.update_eq_self]
  exact .readies

omit [Inhabited V] in
theorem posts_of_queues {s₀ : State V N S} {p p' : Prog V N S} {c : CellId} {cell : Cell V N S}
    {task : Task V N S} (found : s.threads[t]? = some ⟨name, .run p, fs⟩) (opens : Opens s t s₀)
    (held : s.cells[c]? = some cell) (waits : cell.queues = true)
    (new : task.result = s.cells.size) (length : Nat) (dispatching : Bool) :
    Posts s.ledger ((((s₀.addCell .derived).modifyCell c (·.enqueue task)).log t
      (.queued c task.result length dispatching)).setThread t ⟨name, .run p', fs⟩).ledger := by
  have member : t < s.threads.size := (Array.getElem?_eq_some_iff.mp found).1
  have inside : c < s.cells.size := (Array.getElem?_eq_some_iff.mp held).1
  have pending : s.ledger.decided c = false ∨ s.ledger.dispatches c = true := by
    have flag : s.ledger.dispatches c = cell.dispatching := State.dispatches_of_found held
    rw [State.decided_of_found held, flag]
    simpa [Cell.queues] using waits
  have same : dutiesOf (.run p') fs = s.ledger.duties t := (State.duties_of_found found).symm
  rw [ledger_next (ledger_of_queues opens held new) member]
  simp only [same, Function.update_eq_self]
  exact .queues inside pending

omit [Inhabited V] in
theorem posts_of_inlines {s₀ : State V N S} {p p' : Prog V N S} {c : CellId} {cell : Cell V N S}
    {task : Task V N S} (found : s.threads[t]? = some ⟨name, .run p, fs⟩) (opens : Opens s t s₀)
    (held : s.cells[c]? = some cell) (free : cell.queues = false)
    (new : task.result = s.cells.size) :
    Posts s.ledger ((((s₀.addCell .derived).log t (.inlined c task.result)).log t
      (.started c task.result)).setThread t ⟨name, .starting c task, .resume p' :: fs⟩).ledger := by
  have member : t < s.threads.size := (Array.getElem?_eq_some_iff.mp found).1
  obtain ⟨⟨o, decided⟩, idle⟩ := Cell.queues_eq_false_iff.mp free
  have done : s.ledger.decided c = true := by simp [State.decided_of_found held, decided]
  have idle' : s.ledger.dispatches c = false := by
    rw [← idle]
    exact State.dispatches_of_found held
  have here : s.ledger.duties t = frameDuties fs := State.duties_of_found found
  have same : dutiesOf (.starting c task) (.resume p' :: fs) =
      .inline c s.cells.size :: s.ledger.duties t := by
    rw [here, ← new]
    rfl
  rw [ledger_next (ledger_of_inlines opens new) member]
  simp only [same]
  exact .inlines member done idle'

omit [Inhabited V] in
theorem posts_of_wins {c : CellId} {o : Outcome V} {k : Option (Bool → Prog V N S)}
    {cell : Cell V N S} (found : s.threads[t]? = some ⟨name, .deciding c o k, fs⟩)
    (held : s.cells[c]? = some cell) (undecided : cell.outcome = none) (kind : Kind) (queued : Nat) :
    Posts s.ledger ((s.modifyCell c (·.decide o)).setThread t
      ⟨name, .announcing c kind queued, won k ++ fs⟩).ledger := by
  have member : t < s.threads.size := (Array.getElem?_eq_some_iff.mp found).1
  have inside : c < s.cells.size := (Array.getElem?_eq_some_iff.mp held).1
  have pending : s.ledger.decided c = false := by simp [State.decided_of_found held, undecided]
  have queue : s.ledger.queue c = cell.queue.map Task.result := State.queue_of_found held
  have here : s.ledger.duties t = frameDuties fs := State.duties_of_found found
  have duties : dutiesOf (.announcing c kind queued) (won k ++ fs) =
      .announce c :: s.ledger.duties t := by
    rw [here]
    exact congrArg (Duty.announce c :: ·) (frameDuties_won k)
  rw [ledger_next (State.ledger_replaceCell held (·.decide o)) member]
  simp only [Cell.decide, ← queue, Function.update_eq_self, duties]
  exact .decides member inside pending

omit [Inhabited V] in
theorem posts_of_announces {c : CellId} {kind : Kind} {queued : Nat}
    (found : s.threads[t]? = some ⟨name, .announcing c kind queued, fs⟩) :
    Posts s.ledger (((s.modifyCell c Cell.notifyAll).log t (.decided c kind queued)).setThread t
      ⟨name, .draining c, fs⟩).ledger := by
  have member : t < s.threads.size := (Array.getElem?_eq_some_iff.mp found).1
  have notified : (s.modifyCell c Cell.notifyAll).ledger = s.ledger :=
    State.ledger_of_still (still_of_waiting s c Cell.notifyAll fun _ => rfl)
  have state : ((s.modifyCell c Cell.notifyAll).log t (.decided c kind queued)).ledger = _ :=
    State.ledger_log rfl _ t
  rw [ledger_next state member, notified]
  exact .announces member (State.duties_of_found found)

omit [Inhabited V] in
theorem posts_of_takes {c : CellId} {cell : Cell V N S} {task : Task V N S}
    {rest : List (Task V N S)} (found : s.threads[t]? = some ⟨name, .draining c, fs⟩)
    (held : s.cells[c]? = some cell) (queue : cell.queue = task :: rest) :
    Posts s.ledger (((s.modifyCell c fun _ => { cell with queue := rest }).log t
      (.started c task.result)).setThread t ⟨name, .starting c task, .draining c :: fs⟩).ledger := by
  have member : t < s.threads.size := (Array.getElem?_eq_some_iff.mp found).1
  have waiting : s.ledger.queue c = task.result :: rest.map Task.result := by
    rw [State.queue_of_found held, queue]
    rfl
  have state : ((s.modifyCell c fun _ => { cell with queue := rest }).log t
      (.started c task.result)).ledger = _ := State.ledger_log rfl _ t
  rw [ledger_next state member,
    State.ledger_requeue held (fun _ => { cell with queue := rest }) rfl rfl]
  exact .takes member waiting (State.duties_of_found found)

omit [Inhabited V] in
theorem posts_of_empties {c : CellId} {cell : Cell V N S} {e : Ending V}
    (found : s.threads[t]? = some ⟨name, .draining c, fs⟩) (held : s.cells[c]? = some cell)
    (queue : cell.queue = []) :
    Posts s.ledger ((s.modifyCell c fun _ => { cell with queue := [], dispatching := false }).setThread
      t ⟨name, .ended e, fs⟩).ledger := by
  have member : t < s.threads.size := (Array.getElem?_eq_some_iff.mp found).1
  have waiting : s.ledger.queue c = [] := by
    rw [State.queue_of_found held, queue]
    rfl
  have outcome : s.ledger.decided c = cell.outcome.isSome := State.decided_of_found held
  rw [ledger_next (State.ledger_replaceCell held _) member]
  simp only [List.map_nil, ← waiting, ← outcome, Function.update_eq_self]
  exact .empties member waiting (State.duties_of_found found)

theorem posts_of_finishes {e : Ending V} {c r : CellId}
    (found : s.threads[t]? = some ⟨name, .ended e, .finishing c r :: fs⟩)
    (landed : s.outcome? r ≠ none) :
    Posts s.ledger ((s.log t (.finished c r)).setThread t ⟨name, .ended default, fs⟩).ledger := by
  have member : t < s.threads.size := (Array.getElem?_eq_some_iff.mp found).1
  have landed : s.ledger.decided r = true := by
    simpa [State.ledger, Option.isSome_iff_ne_none] using landed
  rw [ledger_next (State.ledger_log rfl s t) member]
  exact .finishes member (ofRun_cases c r fs) (State.duties_of_found found) landed

theorem posts_of_transition (found : s.threads[t]? = some ⟨name, d, fs⟩)
    (sound : Thread.Sound s d fs) (transition : Transition s t d fs n) :
    Posts s.ledger (n.state.setThread t ⟨name, n.doing, n.frames⟩).ledger := by
  have quiet (state : n.state.ledger = s.ledger) (same : dutiesOf n.doing n.frames = dutiesOf d fs) :
      Posts s.ledger (n.state.setThread t ⟨name, n.doing, n.frames⟩).ledger :=
    posts_of_same_duties found state (Nat.le_refl _) (Nat.le_refl _) same
  cases transition with
  | plain was is still =>
    refine posts_of_same_duties found (State.ledger_of_still still) (Nat.le_refl _)
      (threads_of_still still) ?_
    rw [dutiesOf_plain is, dutiesOf_plain (Or.inl was)]
  | guards => exact quiet rfl rfl
  | @creates p p' _ cell next fresh =>
    rcases fresh with rfl | ⟨o, rfl⟩
    · exact posts_of_same_duties found (State.ledger_addCell_undecided s rfl rfl rfl)
        (Nat.le_succ _) (Nat.le_refl _) rfl
    · exact posts_of_readies found o next
  | asks _ => exact quiet rfl rfl
  | asksExternal => exact quiet rfl rfl
  | strays opens =>
    have state : (_ : State V N S).ledger = { s.ledger with size := s.cells.size + 1 } :=
      ledger_addDerived opens
    exact posts_of_same_duties found state (Nat.le_succ _) (Nat.le_refl _) rfl
  | queues opens held waits new => exact posts_of_queues found opens held waits new _ _
  | inlines opens held free new => exact posts_of_inlines found opens held free new
  | @loses _ _ k _ _ still _ =>
    exact posts_of_same_duties found (State.ledger_of_still still) (Nat.le_refl _)
      (threads_of_still still) (dutiesOf_lost k)
  | wins held undecided => exact posts_of_wins found held undecided _ _
  | announces => exact posts_of_announces found
  | takes held queue => exact posts_of_takes found held queue
  | empties held queue => exact posts_of_empties found held queue
  | idles missing => exact absurd (by simp [State.outcome?, missing]) sound.top.1
  | begins _ => exact quiet rfl rfl
  | beginsRelay => exact quiet rfl rfl
  | handsOn => exact quiet rfl rfl
  | gapes _ => exact quiet rfl rfl
  | relays _ => exact quiet rfl rfl
  | skips _ => exact quiet rfl rfl
  | @refuses _ _ k _ _ still _ =>
    exact posts_of_same_duties found (State.ledger_of_still still) (Nat.le_refl _)
      (threads_of_still still) (dutiesOf_lost k)
  | @settles _ _ k _ _ _ _ => exact quiet rfl (frameDuties_won k)
  | captures => exact quiet (ledger_logEnding _ _) rfl
  | catches => exact quiet rfl rfl
  | resumes _ => exact quiet rfl rfl
  | @finishes e c r fs _ => exact posts_of_finishes found (sound.top.1 c r _ rfl)
  | loops _ => exact quiet rfl rfl
  | rests _ => exact quiet rfl rfl
  | wakes _ => exact quiet rfl rfl
  | @unwinds payload frame _ passes =>
    cases frame with
    | capturing r => exact passes.elim
    | guarding k => exact passes.elim
    | resume p => exact quiet rfl rfl
    | waking x ws => exact quiet rfl rfl
    | finishing c r => exact (calm_of_rests sound.top (Or.inl ⟨c, r, rfl⟩)).elim
    | draining c => exact (calm_of_rests sound.top (Or.inr ⟨c, rfl⟩)).elim

/-- The threads are on sound stacks, and every waiting continuation has its cell. -/
structure State.Sound (s : State V N S) : Prop where
  threads : ∀ (t : ThreadId) (thread : Thread V N S), s.threads[t]? = some thread →
    Thread.Sound s thread.doing thread.frames
  issued : Issued s

omit [Inhabited V] in
theorem issued_iff : Issued s ↔ ∀ c, ∀ r ∈ s.ledger.queue c, r < s.ledger.size := by
  simp [Issued, State.ledger]

/-- Only a registration makes a queue longer, and it makes the cell of what it adds. -/
theorem queue_of_posts {v v' : Ledger} (posts : Posts v v')
    (issued : ∀ c, ∀ r ∈ v.queue c, r < v.size) : ∀ c, ∀ r ∈ v'.queue c, r < v'.size := by
  intro c r member
  cases posts with
  | grows cells _ => exact Nat.lt_of_lt_of_le (issued c r member) cells
  | readies => exact Nat.lt_succ_of_lt (issued c r member)
  | @queues _ b _ _ =>
    dsimp only at member ⊢
    rw [Function.update_apply] at member
    split at member
    next same =>
      subst same
      rw [List.mem_append, List.mem_singleton] at member
      rcases member with waiting | rfl
      · exact Nat.lt_succ_of_lt (issued c r waiting)
      · exact Nat.lt_succ_self _
    next => exact Nat.lt_succ_of_lt (issued c r member)
  | inlines _ _ _ => exact Nat.lt_succ_of_lt (issued c r member)
  | @takes _ b _ _ _ _ queue _ =>
    dsimp only at member ⊢
    rw [Function.update_apply] at member
    split at member
    next same =>
      subst same
      exact issued c r (by rw [queue]; exact List.mem_cons_of_mem _ member)
    next => exact issued c r member
  | _ => exact issued c r member

theorem posts_of_advance (advance : Advance s s') (sound : s.Sound) : Posts s.ledger s'.ledger := by
  cases advance with
  | aside still _ => exact posts_of_still still
  | @thread t thread n found transition =>
    obtain ⟨name, doing, fs⟩ := thread
    exact posts_of_transition found (sound.threads t _ found) transition

theorem sound_of_advance (advance : Advance s s') (sound : s.Sound) : s'.Sound := by
  have later := extends_of_advance advance
  have issued : Issued s' :=
    issued_iff.mpr (queue_of_posts (posts_of_advance advance sound) (issued_iff.mp sound.issued))
  refine ⟨?_, issued⟩
  intro u thread' found'
  cases advance with
  | aside _ threads =>
    rw [threads] at found'
    exact (sound.threads u thread' found').mono later
  | @thread t thread n found transition =>
    rw [State.getElem?_setThread] at found'
    split at found'
    next =>
      split at found'
      next =>
        cases found'
        have now := sound_of_transition transition (sound.threads t thread found) sound.issued
        exact now.mono ((Extends.refl n.state).of_same rfl rfl)
      next => cases found'
    next =>
      rcases threads_of_transition transition with same | ⟨name, body, pushed⟩
      · rw [same] at found'
        exact (sound.threads u thread' found').mono later
      · rw [pushed, Array.getElem?_push] at found'
        split at found'
        next =>
          cases found'
          exact ⟨trivial, trivial⟩
        next => exact (sound.threads u thread' found').mono later

omit [Inhabited V] in
theorem sound_start (client : S) (p : Prog V N S) : (State.start client p).Sound := by
  refine ⟨fun t thread found => ?_, fun c task member => ?_⟩
  · have one : t = 0 := by
      have inside := (Array.getElem?_eq_some_iff.mp found).1
      simpa [State.start] using inside
    subst one
    cases found
    exact ⟨trivial, trivial⟩
  · simp [State.start, State.queueOf] at member

theorem sound_of_reachable (reachable : Reachable s) : s.Sound :=
  reachable.induct sound_start fun _ _ sound advance => sound_of_advance advance sound

theorem ledger_of_reachable {P : Ledger → Prop} (reachable : Reachable s)
    (start : ∀ (client : S) (p : Prog V N S), P (State.start (N := N) client p).ledger)
    (keeps : ∀ v v', P v → Posts v v' → P v') : P s.ledger := by
  have both : s.Sound ∧ P s.ledger := by
    refine reachable.induct (P := fun s => s.Sound ∧ P s.ledger)
      (fun client p => ⟨sound_start client p, start client p⟩) ?_
    intro s s' now advance
    exact ⟨sound_of_advance advance now.1, keeps _ _ now.2 (posts_of_advance advance now.1)⟩
  exact both.2

end Inhabited
end Oneshot
