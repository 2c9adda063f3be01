import Oneshot.Proofs.Alone

/-! # Trees of continuations

A body that at most reads its source is a `Reader`, and a `Forest` is what is registered on a cell, with
what is registered on the futures of that, and so on.  The call that decides the cell processes the whole
forest, each continuation before what is registered on its future, and all of that before the next
(`forest_processed`). -/
set_option autoImplicit false
namespace Oneshot
variable {V N S : Type}

/-- A body that at most reads its source. -/
inductive Reader (V N : Type)
  | ret (v : V)
  | err (failure : Failure)
  | panic (payload : Payload)
  | look (k : Snapshot V → Reader V N)
  | get (k : Reading V → Reader V N)
  | getTimeout (limit : Duration) (k : Reading V → Reader V N)
  | note (n : N) (k : Reader V N)

namespace Reader

def code (c : CellId) : Reader V N → Prog V N S
  | .ret v => .ret v
  | .err failure => .err failure
  | .panic payload => .panic payload
  | .look k => .look c fun x => (k x).code c
  | .get k => .get c fun r => (k r).code c
  | .getTimeout limit k => .getTimeout c limit fun r => (k r).code c
  | .note n k => .note n (k.code c)

/-- What a body notes when its source is decided and so many continuations wait behind it. -/
def notes (o : Outcome V) (queued : Nat) : Reader V N → List N
  | .ret _ | .err _ | .panic _ => []
  | .look k => (k ⟨some o, queued⟩).notes o queued
  | .get k => (k o.reading).notes o queued
  | .getTimeout _ k => (k o.reading).notes o queued
  | .note n k => n :: k.notes o queued

def ending (o : Outcome V) (queued : Nat) : Reader V N → Ending V
  | .ret v => .value v
  | .err failure => .failed failure
  | .panic payload => .panicked payload
  | .look k => (k ⟨some o, queued⟩).ending o queued
  | .get k => (k o.reading).ending o queued
  | .getTimeout _ k => (k o.reading).ending o queued
  | .note _ k => k.ending o queued

end Reader

inductive Stage (V N : Type)
  | chain (body : Reader V N)
  | transform (f : V → Reader V N)

def Ending.events (r : CellId) : Ending V → List (Event N)
  | .value _ => []
  | .failed failure => [.bodyFailed r failure]
  | .panicked payload => [.bodyPanicked r payload.message]

namespace Stage

def task (c r : CellId) : Stage V N → Task V N S
  | .chain body => .chain r (body.code c)
  | .transform f => .transform r fun v => (f v).code c

def body? (o : Outcome V) : Stage V N → Option (Reader V N)
  | .chain body => some body
  | .transform f =>
    match o with
    | .value v => some (f v)
    | _ => none

/-- What is recorded between the start of a continuation and the decision of its future. -/
def events (c r : CellId) (o : Outcome V) (queued : Nat) (stage : Stage V N) : List (Event N) :=
  match stage.body? o with
  | some body => (body.notes o queued).map .noted ++ (body.ending o queued).events r
  | none => [.handedOn c r]

/-- What the future of a continuation is decided with: by its body, or with what the source has. -/
def outcome (o : Outcome V) (queued : Nat) (id : CauseId) (stage : Stage V N) : Outcome V :=
  match stage.body? o with
  | some body => (body.ending o queued).attempt.outcome id
  | none => o

end Stage

/-- The continuations of one cell in the order of their registration, each with the name of its future and
with the continuations of that. -/
inductive Forest (V N : Type)
  | nil
  | node (r : Nat) (stage : Stage V N) (kids rest : Forest V N)

namespace Forest

/-- How many continuations the cell itself has. -/
def width : Forest V N → Nat
  | .nil => 0
  | .node _ _ _ rest => rest.width + 1

def size : Forest V N → Nat
  | .nil => 0
  | .node _ _ kids rest => 1 + kids.size + rest.size

/-- All names, each before those below it, and these before those behind it. -/
def preorder : Forest V N → List Nat
  | .nil => []
  | .node r _ kids rest => r :: (kids.preorder ++ rest.preorder)

/-- All names, each after those below it and before those behind it. -/
def postorder : Forest V N → List Nat
  | .nil => []
  | .node r _ kids rest => kids.postorder ++ r :: rest.postorder

/-- What the names stand for is said by `env`. -/
def tasks (env : Nat → CellId) (c : CellId) : Forest V N → List (Task V N S)
  | .nil => []
  | .node r stage _ rest => stage.task c (env r) :: rest.tasks env c

/-- The futures of the forest are undecided, and what is registered on them is as the forest says. -/
def Planted (env : Nat → CellId) (s : State V N S) : Forest V N → Prop
  | .nil => True
  | .node r _ kids rest =>
    s.Pends (env r) (kids.tasks env (env r)) ∧ kids.Planted env s ∧ rest.Planted env s

/-- What the processing of the forest records, oldest first, if the cell `x` has the outcome `o` and `id`
is the first free identity. -/
def events (env : Nat → CellId) (x : Nat) (o : Outcome V) (id : CauseId) : Forest V N → List (Event N)
  | .nil => []
  | .node r stage kids rest =>
    let o' := stage.outcome o rest.width id
    .started (env x) (env r) ::
      (stage.events (env x) (env r) o rest.width ++
        .decided (env r) o'.kind kids.width ::
          (kids.events env r o' (id + 1) ++
            .finished (env x) (env r) :: rest.events env x o (id + 1 + kids.size)))

def outcomes (o : Outcome V) (id : CauseId) : Forest V N → List (Nat × Outcome V)
  | .nil => []
  | .node r stage kids rest =>
    let o' := stage.outcome o rest.width id
    (r, o') :: (kids.outcomes o' (id + 1) ++ rest.outcomes o (id + 1 + kids.size))

theorem length_tasks (env : Nat → CellId) (c : CellId) (forest : Forest V N) :
    (forest.tasks env c : List (Task V N S)).length = forest.width := by
  induction forest with
  | nil => rfl
  | node r stage kids rest _ ih => simp [tasks, width, ih]

theorem Planted.mono {env : Nat → CellId} {s s' : State V N S} {forest : Forest V N}
    (planted : forest.Planted env s)
    (same : ∀ r ∈ forest.preorder, s'.cells[env r]? = s.cells[env r]?) : forest.Planted env s' := by
  induction forest with
  | nil => trivial
  | node r stage kids rest ihKids ihRest =>
    obtain ⟨pends, planted, behind⟩ := planted
    simp only [preorder, List.mem_cons, List.mem_append] at same
    refine ⟨pends.of_cell (same r (Or.inl rfl)), ?_, ?_⟩
    · exact ihKids planted fun r member => same r (Or.inr (Or.inl member))
    · exact ihRest behind fun r member => same r (Or.inr (Or.inr member))

end Forest

section Inhabited
variable [Inhabited V] {s : State V N S} {t : ThreadId} {name : Option String}
  {fs : List (Frame V N S)}

theorem check_runs {w : Wait V N S} {o : Outcome V} {queue : List (Task V N S)}
    (found : s.threads[t]? = some ⟨name, .checking w, fs⟩) (serves : s.Serves w.cell o queue) :
    ∃ s', Alone t [] 0 s s' ∧ s'.threads[t]? = some ⟨name, .run (w.resume o.reading), fs⟩ ∧
      s'.cells = s.cells := by
  obtain ⟨cell, held, decided, -⟩ := serves
  exact alone_of_idle found (by simp [State.next, State.check, held, decided])

theorem reader_runs (body : Reader V N) {c : CellId} {o : Outcome V} {queue : List (Task V N S)}
    (found : s.threads[t]? = some ⟨name, .run (body.code c), fs⟩) (serves : s.Serves c o queue) :
    ∃ s', Alone t ((body.notes o queue.length).map .noted) 0 s s' ∧
      s'.threads[t]? = some ⟨name, .ended (body.ending o queue.length), fs⟩ ∧ s'.cells = s.cells := by
  induction body generalizing s with
  | ret v => exact alone_of_idle found rfl
  | err failure => exact alone_of_idle found rfl
  | panic payload => exact alone_of_idle found rfl
  | look k ih =>
    obtain ⟨s₁, looked, found₁, cells₁⟩ := alone_of_idle found rfl
    have seen : s.snapshot c = ⟨some o, queue.length⟩ := by
      obtain ⟨cell, held, decided, queued, -⟩ := serves
      simp [State.snapshot, held, Cell.snapshot, decided, queued]
    rw [seen] at found₁
    obtain ⟨s', alone, found', cells'⟩ := ih _ found₁ (serves.of_cells cells₁)
    exact ⟨s', looked.trans alone, found', cells'.trans cells₁⟩
  | get k ih =>
    obtain ⟨s₁, asked, found₁, cells₁⟩ := alone_of_idle found rfl
    obtain ⟨s₂, read, found₂, cells₂⟩ := check_runs found₁ (serves.of_cells cells₁)
    obtain ⟨s', alone, found', cells'⟩ := ih _ found₂ (serves.of_cells (cells₂.trans cells₁))
    exact ⟨s', (asked.trans read).trans alone, found', cells'.trans (cells₂.trans cells₁)⟩
  | getTimeout limit k ih =>
    obtain ⟨s₁, asked, found₁, cells₁⟩ := alone_of_idle found rfl
    obtain ⟨s₂, read, found₂, cells₂⟩ := check_runs found₁ (serves.of_cells cells₁)
    obtain ⟨s', alone, found', cells'⟩ := ih _ found₂ (serves.of_cells (cells₂.trans cells₁))
    exact ⟨s', (asked.trans read).trans alone, found', cells'.trans (cells₂.trans cells₁)⟩
  | note n k ih =>
    obtain ⟨s₁, noted, found₁, cells₁⟩ := alone_of_next [.noted n] 0 found rfl rfl rfl rfl rfl
    obtain ⟨s', alone, found', cells'⟩ := ih found₁ (serves.of_cells cells₁)
    exact ⟨s', noted.trans alone, found', cells'.trans cells₁⟩

theorem captures_runs (e : Ending V) {r : CellId}
    (found : s.threads[t]? = some ⟨name, .ended e, .capturing r :: fs⟩) :
    ∃ s', Alone t (e.events r) 1 s s' ∧
      s'.threads[t]? = some ⟨name, .deciding r (e.attempt.outcome s.nextCause) none, fs⟩ ∧
      s'.cells = s.cells := by
  cases e <;> exact alone_of_next _ 1 found rfl rfl rfl rfl rfl

theorem body_runs {stage : Stage V N} {c r : CellId} {o : Outcome V} {queue : List (Task V N S)}
    (found : s.threads[t]? = some ⟨name, .starting c (stage.task c r), fs⟩)
    (serves : s.Serves c o queue) (body : Reader V N) (runs : stage.body? o = some body)
    (started : s.next t (.starting c (stage.task c r)) fs =
      some ⟨s, .run (body.code c), .capturing r :: .finishing c r :: fs⟩) :
    ∃ s', Alone t (stage.events c r o queue.length) 1 s s' ∧
      s'.threads[t]? = some ⟨name, .deciding r (stage.outcome o queue.length s.nextCause) none,
        .finishing c r :: fs⟩ ∧ s'.cells = s.cells := by
  obtain ⟨s₁, begun, found₁, cells₁⟩ := alone_of_idle found started
  obtain ⟨s₂, ran, found₂, cells₂⟩ := reader_runs body found₁ (serves.of_cells cells₁)
  obtain ⟨s', captured, found', cells'⟩ := captures_runs _ found₂
  have events : stage.events c r o queue.length =
      (body.notes o queue.length).map .noted ++ (body.ending o queue.length).events r := by
    simp [Stage.events, runs]
  have causes : s₂.nextCause = s.nextCause := ran.nextCause.trans begun.nextCause
  have outcome : stage.outcome o queue.length s.nextCause =
      (body.ending o queue.length).attempt.outcome s₂.nextCause := by
    simp [Stage.outcome, runs, causes]
  refine ⟨s', ?_, ?_, cells'.trans (cells₂.trans cells₁)⟩
  · rw [events]
    exact (begun.trans ran).trans captured
  · rw [outcome]
    exact found'

theorem stage_runs (stage : Stage V N) {c r : CellId} {o : Outcome V} {queue : List (Task V N S)}
    (found : s.threads[t]? = some ⟨name, .starting c (stage.task c r), fs⟩)
    (serves : s.Serves c o queue) :
    ∃ s', Alone t (stage.events c r o queue.length) 1 s s' ∧
      s'.threads[t]? = some ⟨name, .deciding r (stage.outcome o queue.length s.nextCause) none,
        .finishing c r :: fs⟩ ∧ s'.cells = s.cells := by
  have outcome : s.outcome? c = some o := by
    obtain ⟨cell, held, decided, -⟩ := serves
    rw [State.outcome?_of_found held, decided]
  cases stage with
  | chain body => exact body_runs found serves body rfl rfl
  | transform f =>
    have passes {e : ReadError} (read : o.reading = .error e) :
        s.next t (.starting c (Stage.task c r (.transform f))) fs =
          some ⟨(s.log t (.handedOn c r)).useCause, .deciding r o none, .finishing c r :: fs⟩ := by
      simp [State.next, State.startTask, Stage.task, Task.result, outcome, read,
        ReadError.outcome_of_reading read]
    cases o with
    | value v =>
      refine body_runs found serves (f v) rfl ?_
      simp [State.next, State.startTask, Stage.task, outcome, Outcome.reading, Task.result]
    | failed cause => exact alone_of_next [.handedOn c r] 1 found (passes rfl) rfl rfl rfl rfl
    | cancelled => exact alone_of_next [.handedOn c r] 1 found (passes rfl) rfl rfl rfl rfl

theorem asks_next {c : CellId} {a : Attempt V} {k : Bool → Prog V N S} (t : ThreadId)
    (fs : List (Frame V N S)) (admitted : s.admits c a = true) :
    s.next t (.run (.decide c a k)) fs =
      some ⟨s.useCause, .deciding c (a.outcome s.nextCause) (some k), fs⟩ := by
  simp [State.next, State.perform, admitted]

theorem asks_runs {c : CellId} {a : Attempt V} {k : Bool → Prog V N S}
    (found : s.threads[t]? = some ⟨name, .run (.decide c a k), fs⟩) (admitted : s.admits c a = true) :
    ∃ s', Alone t [] 1 s s' ∧
      s'.threads[t]? = some ⟨name, .deciding c (a.outcome s.nextCause) (some k), fs⟩ ∧
      s'.cells = s.cells :=
  alone_of_next [] 1 found (asks_next t fs admitted) rfl rfl rfl rfl

theorem decides_runs {c : CellId} {o : Outcome V} {k : Option (Bool → Prog V N S)}
    {queue : List (Task V N S)} (found : s.threads[t]? = some ⟨name, .deciding c o k, fs⟩)
    (pends : s.Pends c queue) :
    ∃ s', Alone t [.decided c o.kind queue.length] 0 s s' ∧
      s'.threads[t]? = some ⟨name, .draining c, won k ++ fs⟩ ∧ s'.Serves c o queue ∧
      ∀ d, d ≠ c → s'.cells[d]? = s.cells[d]? := by
  obtain ⟨cell, held, undecided, rfl, idle⟩ := pends
  have decides : s.next t (.deciding c o k) fs =
      some ⟨s.modifyCell c (·.decide o), .announcing c o.kind cell.queue.length, won k ++ fs⟩ := by
    simp [State.next, State.decideCell, held, undecided]
  obtain ⟨s₁, decided, found₁, cells₁⟩ := alone_of_next [] 0 found decides rfl rfl rfl rfl
  obtain ⟨s', announced, found', cells'⟩ :=
    alone_of_next [.decided c o.kind cell.queue.length] 0 found₁ rfl rfl rfl rfl rfl
  have held₁ (d : CellId) : s₁.cells[d]? = if d = c then some (cell.decide o) else s.cells[d]? := by
    rw [cells₁]
    exact State.getElem?_replaceCell held (·.decide o) d
  have here : s₁.cells[c]? = some (cell.decide o) := by rw [held₁, if_pos rfl]
  have held' (d : CellId) :
      s'.cells[d]? = if d = c then some (cell.decide o).notifyAll else s₁.cells[d]? := by
    rw [cells']
    exact State.getElem?_replaceCell here Cell.notifyAll d
  refine ⟨s', decided.trans announced, found', ⟨_, (held' c).trans (if_pos rfl), rfl, rfl, rfl⟩, ?_⟩
  intro d other
  rw [held', if_neg other, held₁, if_neg other]

theorem takes_runs {c : CellId} {o : Outcome V} {task : Task V N S} {rest : List (Task V N S)}
    (found : s.threads[t]? = some ⟨name, .draining c, fs⟩) (serves : s.Serves c o (task :: rest)) :
    ∃ s', Alone t [.started c task.result] 0 s s' ∧
      s'.threads[t]? = some ⟨name, .starting c task, .draining c :: fs⟩ ∧ s'.Serves c o rest ∧
      ∀ d, d ≠ c → s'.cells[d]? = s.cells[d]? := by
  obtain ⟨cell, held, decided, queued, dispatching⟩ := serves
  have takes : s.next t (.draining c) fs =
      some ⟨(s.modifyCell c fun _ => { cell with queue := rest }).log t (.started c task.result),
        .starting c task, .draining c :: fs⟩ := by
    simp [State.next, State.drain, held, Cell.takeFirst, queued]
  obtain ⟨s', took, found', cells'⟩ :=
    alone_of_next [.started c task.result] 0 found takes rfl rfl rfl rfl
  have held' (d : CellId) :
      s'.cells[d]? = if d = c then some { cell with queue := rest } else s.cells[d]? := by
    rw [cells']
    exact State.getElem?_replaceCell held (fun _ => { cell with queue := rest }) d
  refine ⟨s', took, found', ⟨_, (held' c).trans (if_pos rfl), decided, rfl, dispatching⟩, ?_⟩
  intro d other
  rw [held', if_neg other]

theorem empties_runs {c : CellId} {o : Outcome V}
    (found : s.threads[t]? = some ⟨name, .draining c, fs⟩) (serves : s.Serves c o []) :
    ∃ s', Alone t [] 0 s s' ∧ s'.threads[t]? = some ⟨name, .ended default, fs⟩ ∧ s'.Closed c o ∧
      ∀ d, d ≠ c → s'.cells[d]? = s.cells[d]? := by
  obtain ⟨cell, held, decided, queued, dispatching⟩ := serves
  have empties : s.next t (.draining c) fs =
      some ⟨s.modifyCell c fun _ => { cell with dispatching := false }, .ended default, fs⟩ := by
    simp [State.next, State.drain, held, Cell.takeFirst, queued]
  obtain ⟨s', emptied, found', cells'⟩ := alone_of_next [] 0 found empties rfl rfl rfl rfl
  have held' (d : CellId) :
      s'.cells[d]? = if d = c then some { cell with dispatching := false } else s.cells[d]? := by
    rw [cells']
    exact State.getElem?_replaceCell held (fun _ => { cell with dispatching := false }) d
  refine ⟨s', emptied, found', ⟨_, (held' c).trans (if_pos rfl), decided, queued, rfl⟩, ?_⟩
  intro d other
  rw [held', if_neg other]

/-- A registration on an undecided cell queues. -/
theorem queues_runs {c : CellId} {task : Task V N S} {p q : Prog V N S} {queue : List (Task V N S)}
    (found : s.threads[t]? = some ⟨name, .run p, fs⟩)
    (registers : s.next t (.run p) fs = some (s.register t c task q fs)) (pends : s.Pends c queue) :
    ∃ event s', Alone t [event] 0 s s' ∧ s'.threads[t]? = some ⟨name, .run q, fs⟩ ∧
      s'.Pends c (queue ++ [task]) ∧ s'.Pends s.cells.size [] ∧
      ∀ d, d ≠ c → d ≠ s.cells.size → s'.cells[d]? = s.cells[d]? := by
  obtain ⟨cell, held, undecided, rfl, idle⟩ := pends
  let event : Event N := .queued c task.result (cell.queue.length + 1) cell.dispatching
  let s₁ := (s.addCell .derived).modifyCell c (·.enqueue task)
  have queued : s.next t (.run p) fs = some ⟨s₁.log t event, .run q, fs⟩ := by
    have queues : cell.queues = true := by simp [Cell.queues, undecided]
    rw [registers]
    simp [State.register, held, queues, s₁, event]
  obtain ⟨s', alone, found', cells'⟩ := alone_of_next [event] 0 found queued rfl rfl rfl rfl
  have inside := (Array.getElem?_eq_some_iff.mp held).1
  have before : (s.addCell .derived).cells[c]? = some cell := by
    rw [State.getElem?_addCell, if_neg (Nat.ne_of_lt inside), held]
  have after (d : CellId) : s'.cells[d]? =
      if d = c then some (cell.enqueue task)
      else if d = s.cells.size then some .derived else s.cells[d]? := by
    rw [cells', ← State.getElem?_addCell]
    exact State.getElem?_replaceCell before (·.enqueue task) d
  refine ⟨event, s', alone, found', ?_, ?_, ?_⟩
  · exact ⟨_, (after _).trans (if_pos rfl), undecided, rfl, idle⟩
  · refine ⟨.derived, ?_, rfl, rfl, rfl⟩
    rw [after, if_neg (Nat.ne_of_gt inside), if_pos rfl]
  · intro d source fresh
    rw [after, if_neg source, if_neg fresh]

/-- A registration on a cell whose dispatch is over starts the continuation. -/
theorem inlines_runs {c : CellId} {task : Task V N S} {p q : Prog V N S} {o : Outcome V}
    (found : s.threads[t]? = some ⟨name, .run p, fs⟩)
    (registers : s.next t (.run p) fs = some (s.register t c task q fs)) (closed : s.Closed c o) :
    ∃ events s', Alone t events 0 s s' ∧
      s'.threads[t]? = some ⟨name, .starting c task, .resume q :: fs⟩ ∧ s'.Pends s.cells.size [] ∧
      ∀ d, d ≠ s.cells.size → s'.cells[d]? = s.cells[d]? := by
  obtain ⟨cell, held, decided, -, idle⟩ := closed
  let s₁ := ((s.addCell .derived).log t (.inlined c task.result)).log t (.started c task.result)
  have inlined : s.next t (.run p) fs = some ⟨s₁, .starting c task, .resume q :: fs⟩ := by
    have free : cell.queues = false := by simp [Cell.queues, decided, idle]
    rw [registers]
    simp [State.register, held, free, s₁]
  obtain ⟨s', alone, found', cells'⟩ := alone_of_next
    [.inlined c task.result, .started c task.result] 0 found inlined rfl rfl rfl rfl
  have after (d : CellId) :
      s'.cells[d]? = if d = s.cells.size then some .derived else s.cells[d]? := by
    rw [cells']
    exact State.getElem?_addCell s .derived d
  refine ⟨_, s', alone, found', ⟨.derived, (after _).trans (if_pos rfl), rfl, rfl, rfl⟩, ?_⟩
  intro d other
  rw [after, if_neg other]

def State.Decided (s : State V N S) (env : Nat → CellId) (outcomes : List (Nat × Outcome V)) : Prop :=
  ∀ p ∈ outcomes, s.Closed (env p.1) p.2

/-- What the dispatch of the cell `x` does from `s` to `s'`, if the forest is registered on it. -/
structure Traversed (t : ThreadId) (name : Option String) (fs : List (Frame V N S)) (env : Nat → CellId)
    (x : Nat) (o : Outcome V) (forest : Forest V N) (s s' : State V N S) : Prop where
  alone : Alone t (forest.events env x o s.nextCause) forest.size s s'
  found : s'.threads[t]? = some ⟨name, .ended default, fs⟩
  closed : s'.Closed (env x) o
  decided : s'.Decided env (forest.outcomes o s.nextCause)
  same : ∀ d, d ≠ env x → d ∉ forest.preorder.map env → s'.cells[d]? = s.cells[d]?

omit [Inhabited V] in
theorem Forest.names_outcomes (forest : Forest V N) (o : Outcome V) (id : CauseId) :
    (forest.outcomes o id).map Prod.fst = forest.preorder := by
  induction forest generalizing o id with
  | nil => rfl
  | node r stage kids rest ihKids ihRest => simp [Forest.outcomes, Forest.preorder, ihKids, ihRest]

/-- One continuation is processed, with all that is registered on its future. -/
theorem node_runs {env : Nat → CellId} {x r : Nat} {stage : Stage V N} {kids : Forest V N}
    {o : Outcome V} {queue : List (Task V N S)}
    (below : ∀ {s : State V N S} {fs : List (Frame V N S)} {o : Outcome V},
      s.threads[t]? = some ⟨name, .draining (env r), fs⟩ →
      s.Serves (env r) o (kids.tasks env (env r)) → kids.Planted env s →
      ∃ s', Traversed t name fs env r o kids s s')
    (found : s.threads[t]? = some ⟨name, .draining (env x), fs⟩)
    (serves : s.Serves (env x) o (stage.task (env x) (env r) :: queue))
    (pends : s.Pends (env r) (kids.tasks env (env r))) (planted : kids.Planted env s)
    (other : env x ≠ env r) (above : env x ∉ kids.preorder.map env)
    (new : env r ∉ kids.preorder.map env) :
    let o' := stage.outcome o queue.length s.nextCause
    ∃ s', Alone t (.started (env x) (env r) :: (stage.events (env x) (env r) o queue.length ++
        .decided (env r) o'.kind kids.width ::
          (kids.events env r o' (s.nextCause + 1) ++ [.finished (env x) (env r)])))
        (1 + kids.size) s s' ∧
      s'.threads[t]? = some ⟨name, .draining (env x), fs⟩ ∧ s'.Serves (env x) o queue ∧
      s'.Decided env ((r, o') :: kids.outcomes o' (s.nextCause + 1)) ∧
      ∀ d, d ≠ env x → d ≠ env r → d ∉ kids.preorder.map env → s'.cells[d]? = s.cells[d]? := by
  intro o'
  obtain ⟨s₁, took, found₁, serves₁, same₁⟩ := takes_runs found serves
  obtain ⟨s₂, ran, found₂, cells₂⟩ := stage_runs stage found₁ serves₁
  have causes₁ : s₁.nextCause = s.nextCause := took.nextCause
  rw [causes₁] at found₂
  obtain ⟨s₃, decided, found₃, serves₃, same₃⟩ := decides_runs found₂
    (pends.of_cell (by rw [cells₂, same₁ _ (Ne.symm other)]))
  have same (d : CellId) (source : d ≠ env x) (result : d ≠ env r) : s₃.cells[d]? = s.cells[d]? := by
    rw [same₃ d result, cells₂, same₁ d source]
  have planted₃ : kids.Planted env s₃ := by
    refine planted.mono fun y member => same _ ?_ ?_
    · exact fun here => above (here ▸ List.mem_map_of_mem member)
    · exact fun here => new (here ▸ List.mem_map_of_mem member)
  have causes₃ : s₃.nextCause = s.nextCause + 1 := by
    rw [decided.nextCause, ran.nextCause, causes₁]
  obtain ⟨s₄, traversed⟩ := below found₃ serves₃ planted₃
  obtain ⟨s₅, finished, found₅, cells₅⟩ :=
    alone_of_next [.finished (env x) (env r)] 0 traversed.found rfl rfl rfl rfl rfl
  obtain ⟨s₆, looped, found₆, cells₆⟩ := alone_of_idle found₅ rfl
  have cells : s₆.cells = s₄.cells := cells₆.trans cells₅
  have whole := took.trans (ran.trans (decided.trans (traversed.alone.trans (finished.trans looped))))
  have outside (d : CellId) (source : d ≠ env x) (result : d ≠ env r)
      (aside : d ∉ kids.preorder.map env) : s₆.cells[d]? = s.cells[d]? := by
    rw [cells, traversed.same d result aside, same d source result]
  have result : (stage.task (env x) (env r) : Task V N S).result = env r := by cases stage <;> rfl
  refine ⟨s₆, ?_, found₆, ?_, ?_, outside⟩
  · rw [result, Forest.length_tasks, causes₃] at whole
    have count : 0 + (1 + (0 + (kids.size + (0 + 0)))) = 1 + kids.size := by omega
    rw [count] at whole
    simpa using whole
  · refine serves₁.of_cell ?_
    rw [cells, traversed.same _ other above, same₃ _ other, cells₂]
  · intro p member
    refine State.Closed.of_cell (s := s₄) ?_ (by rw [cells])
    rcases List.mem_cons.mp member with rfl | member
    · exact traversed.closed
    · exact traversed.decided p (causes₃ ▸ member)

/-- The dispatch of a cell processes all that is registered on it, and what is registered on that. -/
theorem dispatch_traverses (env : Nat → CellId) (forest : Forest V N) {x : Nat} {o : Outcome V}
    (found : s.threads[t]? = some ⟨name, .draining (env x), fs⟩)
    (serves : s.Serves (env x) o (forest.tasks env (env x))) (planted : forest.Planted env s)
    (distinct : ((x :: forest.preorder).map env).Nodup) :
    ∃ s', Traversed t name fs env x o forest s s' := by
  induction forest generalizing s fs x o with
  | nil =>
    obtain ⟨s', alone, found', closed, same⟩ := empties_runs found serves
    exact ⟨s', alone, found', closed, by simp [State.Decided, Forest.outcomes],
      fun d other _ => same d other⟩
  | node r stage kids rest ihKids ihRest =>
    obtain ⟨pends, planted, behind⟩ := planted
    simp only [Forest.preorder, List.map_cons, List.map_append, List.nodup_cons, List.mem_cons,
      List.mem_append, List.nodup_append, not_or] at distinct
    obtain ⟨⟨other, notKids, notRest⟩, ⟨kidsNew, restNew⟩, kidsDistinct, restDistinct, apart⟩ := distinct
    have width : (rest.tasks env (env x) : List (Task V N S)).length = rest.width :=
      rest.length_tasks env _
    obtain ⟨s₁, processed, found₁, serves₁, decided₁, same₁⟩ := node_runs
      (fun found serves planted => ihKids found serves planted (by simp [kidsNew, kidsDistinct]))
      found serves pends planted other notKids kidsNew
    have planted₁ : rest.Planted env s₁ := by
      refine behind.mono fun y member => ?_
      have mem : env y ∈ rest.preorder.map env := List.mem_map_of_mem member
      refine same₁ _ ?_ ?_ ?_
      · exact fun here => notRest (here ▸ mem)
      · exact fun here => restNew (here ▸ mem)
      · exact fun here => apart _ here _ mem rfl
    obtain ⟨s', traversed⟩ := ihRest found₁ serves₁ planted₁ (by simp [notRest, restDistinct])
    have causes : s₁.nextCause = s.nextCause + 1 + kids.size := by
      rw [processed.nextCause, Nat.add_assoc]
    rw [width] at processed decided₁
    refine ⟨s', ?_, traversed.found, traversed.closed, ?_, ?_⟩
    · have whole := processed.trans traversed.alone
      rw [causes] at whole
      simpa [Forest.events, Forest.size] using whole
    · intro p member
      simp only [Forest.outcomes, List.mem_cons, List.mem_append, ← or_assoc] at member
      rcases member with first | later
      · have name : env p.1 = env r ∨ env p.1 ∈ kids.preorder.map env := by
          rcases first with rfl | below
          · exact Or.inl rfl
          · have named := List.mem_map_of_mem (f := Prod.fst) below
            rw [kids.names_outcomes] at named
            exact Or.inr (List.mem_map_of_mem named)
        refine (decided₁ p (List.mem_cons.mpr first)).of_cell (traversed.same _ ?_ ?_)
        · rcases name with here | below
          · exact here ▸ Ne.symm other
          · exact fun same => notKids (same ▸ below)
        · rcases name with here | below
          · exact here ▸ restNew
          · exact fun later => apart _ below _ later rfl
      · exact traversed.decided p (by rwa [causes])
    · intro d source aside
      simp only [Forest.preorder, List.map_cons, List.map_append, List.mem_cons, List.mem_append,
        not_or] at aside
      rw [traversed.same d source aside.2.2, same₁ d source aside.1 aside.2.1]

/-- What the call that decides the cell `x` does from `s` to `s'` before it goes on with `q`, if the
forest is registered on the cell. -/
structure Processed (t : ThreadId) (name : Option String) (q : Prog V N S) (fs : List (Frame V N S))
    (env : Nat → CellId) (x : Nat) (o : Outcome V) (forest : Forest V N) (s s' : State V N S) : Prop where
  alone : Alone t
    (.decided (env x) o.kind forest.width :: forest.events env x o (s.nextCause + 1))
    (1 + forest.size) s s'
  back : s'.threads[t]? = some ⟨name, .run q, fs⟩
  decided : s'.Decided env ((x, o) :: forest.outcomes o (s.nextCause + 1))
  same : ∀ d, d ≠ env x → d ∉ forest.preorder.map env → s'.cells[d]? = s.cells[d]?

theorem forest_processed (env : Nat → CellId) (forest : Forest V N) {x : Nat} {a : Attempt V}
    {k : Bool → Prog V N S} (found : s.threads[t]? = some ⟨name, .run (.decide (env x) a k), fs⟩)
    (admitted : s.admits (env x) a = true)
    (pends : s.Pends (env x) (forest.tasks env (env x))) (planted : forest.Planted env s)
    (distinct : ((x :: forest.preorder).map env).Nodup) :
    ∃ s', Processed t name (k true) fs env x (a.outcome s.nextCause) forest s s' := by
  obtain ⟨s₁, asked, found₁, cells₁⟩ := asks_runs found admitted
  obtain ⟨s₂, decided, found₂, serves₂, same₂⟩ := decides_runs found₁
    (pends.of_cell (congrArg (·[env x]?) cells₁))
  have same (d : CellId) (other : d ≠ env x) : s₂.cells[d]? = s.cells[d]? := by
    rw [same₂ d other, cells₁]
  have above : env x ∉ forest.preorder.map env := (List.nodup_cons.mp distinct).1
  have planted₂ : forest.Planted env s₂ :=
    planted.mono fun y member => same _ fun here => above (here ▸ List.mem_map_of_mem member)
  obtain ⟨s₃, traversed⟩ := dispatch_traverses env forest found₂ serves₂ planted₂ distinct
  obtain ⟨s', resumed, found', cells'⟩ := alone_of_idle traversed.found rfl
  have causes : s₂.nextCause = s.nextCause + 1 := by
    rw [decided.nextCause, asked.nextCause]
  have whole := asked.trans (decided.trans (traversed.alone.trans resumed))
  have closed := traversed.closed
  have below := traversed.decided
  rw [causes, Forest.length_tasks] at whole
  rw [causes] at below
  refine ⟨s', by simpa using whole, found', ?_, ?_⟩
  · intro p member
    refine State.Closed.of_cell (s := s₃) ?_ (by rw [cells'])
    rcases List.mem_cons.mp member with rfl | member
    · exact closed
    · exact below p member
  · intro d other aside
    rw [cells', traversed.same d other aside, same d other]

end Inhabited

def Event.rename (f : CellId → CellId) : Event N → Event N
  | .decided c kind waiting => .decided (f c) kind waiting
  | .ignored c attempted held => .ignored (f c) attempted held
  | .queued c result length dispatching => .queued (f c) (f result) length dispatching
  | .inlined c result => .inlined (f c) (f result)
  | .started c result => .started (f c) (f result)
  | .finished c result => .finished (f c) (f result)
  | .handedOn c result => .handedOn (f c) (f result)
  | .bridged c e => .bridged (f c) e
  | .bodyFailed result failure => .bodyFailed (f result) failure
  | .bodyPanicked result message => .bodyPanicked (f result) message
  | .timedOut c limit => .timedOut (f c) limit
  | .resolved e wakers => .resolved e wakers
  | .refused e => .refused e
  | .parked e w => .parked e w
  | .woke e w => .woke e w
  | .noted n => .noted n

def Event.started? : Event N → Option CellId
  | .started _ result => some result
  | _ => none

def Event.decided? : Event N → Option CellId
  | .decided c _ _ => some c
  | _ => none

def Event.finished? : Event N → Option CellId
  | .finished _ result => some result
  | _ => none

namespace Forest

theorem rename_stage (env : Nat → CellId) (x r : Nat) (o : Outcome V) (queued : Nat)
    (stage : Stage V N) : stage.events (env x) (env r) o queued =
      (stage.events x r o queued).map (Event.rename env) := by
  unfold Stage.events
  split
  next body runs =>
    have notes : (Event.rename env ∘ Event.noted : N → Event N) = Event.noted := rfl
    rw [List.map_append, List.map_map, notes]
    cases body.ending o queued <;> rfl
  next => rfl

/-- The names alone say what is recorded. -/
theorem events_rename (env : Nat → CellId) (forest : Forest V N) (x : Nat) (o : Outcome V)
    (id : CauseId) : forest.events env x o id =
      (forest.events (fun y => y) x o id).map (Event.rename env) := by
  induction forest generalizing x o id with
  | nil => rfl
  | node r stage kids rest ihKids ihRest =>
    simp only [events, List.map_cons, List.map_append, Event.rename]
    rw [rename_stage env x r, ihKids, ihRest]

/-- No continuation starts, is decided or finishes before its own decision. -/
theorem stage_aside (c r : CellId) (o : Outcome V) (queued : Nat) (stage : Stage V N) :
    (stage.events c r o queued).filterMap Event.started? = [] ∧
      (stage.events c r o queued).filterMap Event.decided? = [] ∧
      (stage.events c r o queued).filterMap Event.finished? = [] := by
  unfold Stage.events
  split
  next body runs => cases body.ending o queued <;>
    simp [Ending.events, Event.started?, Event.decided?, Event.finished?]
  next => exact ⟨rfl, rfl, rfl⟩

theorem order_events (env : Nat → CellId) (forest : Forest V N) (x : Nat) (o : Outcome V)
    (id : CauseId) :
    (forest.events env x o id).filterMap Event.started? = forest.preorder.map env ∧
      (forest.events env x o id).filterMap Event.decided? = forest.preorder.map env ∧
      (forest.events env x o id).filterMap Event.finished? = forest.postorder.map env := by
  induction forest generalizing x o id with
  | nil => exact ⟨rfl, rfl, rfl⟩
  | node r stage kids rest ihKids ihRest =>
    obtain ⟨started, decided, finished⟩ := stage_aside (env x) (env r) o rest.width stage
    simp only [events, List.filterMap_cons, List.filterMap_append, started, decided, finished,
      ihKids, ihRest, preorder, postorder, List.map_cons, List.map_append, Event.started?,
      Event.decided?, Event.finished?, List.nil_append]
    exact ⟨trivial, trivial, trivial⟩

end Forest
end Oneshot
