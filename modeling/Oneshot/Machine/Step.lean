import Oneshot.Machine.State

/-! # Steps of a thread

`State.step` takes one thread one step further, a step holding at most one critical section of one cell
or external future; a thread that is blocked or has ended has none.  `State.move` adds what happens
around the threads: time passes, a timed wait reaches its deadline, a wait ends without a reason. -/
set_option autoImplicit false
namespace Oneshot
variable {V N S : Type} [Inhabited V]

/-- What a step leaves behind: the state, and what the thread does next with which frames. -/
structure Next (V N S : Type) where
  state : State V N S
  doing : Doing V N S
  frames : List (Frame V N S)

/-- The attempt has lost: the caller is told, or the call is over. -/
def lost (k : Option (Bool → Prog V N S)) : Doing V N S :=
  match k with
  | none => .ended default
  | some k => .run (k false)

/-- The attempt has won: the caller is told after what the attempt brings about. -/
def won (k : Option (Bool → Prog V N S)) : List (Frame V N S) :=
  match k with
  | none => []
  | some k => [.resume (k true)]

/-- The text of a panic that no run can reach: a dispatched continuation finds its cell undecided. -/
def undecidedText : String := "internal error: entered unreachable code: decided cell reads back"

namespace State

/-- The critical section of a decision: the first attempt stores its outcome and starts the dispatch. -/
def decideCell (s : State V N S) (t : ThreadId) (c : CellId) (o : Outcome V)
    (k : Option (Bool → Prog V N S)) (fs : List (Frame V N S)) : Next V N S :=
  match s.cells[c]? with
  | none => ⟨s, lost k, fs⟩
  | some cell =>
    match cell.outcome with
    | some held => ⟨s.log t (.ignored c o.kind held.kind), lost k, fs⟩
    | none =>
      ⟨s.modifyCell c (·.decide o), .announcing c o.kind cell.queue.length, won k ++ fs⟩

/-- The critical section of a registration: the continuation queues, or it is to be run by the caller,
who goes on with `p`. -/
def register (s : State V N S) (t : ThreadId) (c : CellId) (task : Task V N S) (p : Prog V N S)
    (fs : List (Frame V N S)) : Next V N S :=
  match s.cells[c]? with
  | none => ⟨s.addCell .derived, .run p, fs⟩
  | some cell =>
    if cell.queues then
      ⟨((s.addCell .derived).modifyCell c (·.enqueue task)).log t
        (.queued c task.result (cell.queue.length + 1) cell.dispatching), .run p, fs⟩
    else
      ⟨((s.addCell .derived).log t (.inlined c task.result)).log t (.started c task.result),
        .starting c task, .resume p :: fs⟩

/-- One round of the drain loop: the first continuation is taken out, or the dispatch is over. -/
def drain (s : State V N S) (t : ThreadId) (c : CellId) (fs : List (Frame V N S)) : Next V N S :=
  match s.cells[c]? with
  | none => ⟨s, .ended default, fs⟩
  | some cell =>
    match cell.takeFirst with
    | (none, cell') => ⟨s.modifyCell c fun _ => cell', .ended default, fs⟩
    | (some task, cell') =>
      ⟨(s.modifyCell c fun _ => cell').log t (.started c task.result), .starting c task,
        .draining c :: fs⟩

/-- What a continuation does first.  A transformation runs its function on a value and hands on all
else. -/
def startTask (s : State V N S) (t : ThreadId) (c : CellId) (task : Task V N S)
    (fs : List (Frame V N S)) : Next V N S :=
  let fs' := .finishing c task.result :: fs
  match task with
  | .chain result body => ⟨s, .run body, .capturing result :: fs'⟩
  | .relay result e => ⟨s, .relaying c e, .capturing result :: fs'⟩
  | .transform result f =>
    match (s.outcome? c).map Outcome.reading with
    | none => ⟨s, .ended (.panicked (.text undecidedText)), fs'⟩
    | some (.ok v) => ⟨s, .run (f v), .capturing result :: fs'⟩
    | some (.error e) =>
      ⟨(s.log t (.handedOn c result)).useCause, .deciding result (e.outcome s.nextCause) none, fs'⟩

/-- The critical section of settling: the first reading stays, and all stored wakers are to be woken. -/
def settleExternal (s : State V N S) (t : ThreadId) (e : ExternalId) (r : Reading V)
    (k : Option (Bool → Prog V N S)) (fs : List (Frame V N S)) : Next V N S :=
  match s.externals[e]? with
  | none => ⟨s, lost k, fs⟩
  | some x =>
    match x.value with
    | some _ => ⟨s.log t (.refused e), lost k, fs⟩
    | none =>
      ⟨(s.modifyExternal e (·.settle r)).log t (.resolved e x.wakers.length), .ended default,
        .waking e x.wakers :: (won k ++ fs)⟩

def pollExternal (s : State V N S) (t : ThreadId) (e : ExternalId) (w : WakerId)
    (k : Option (Reading V) → Prog V N S) (fs : List (Frame V N S)) : Next V N S :=
  match s.externals[e]? with
  | none => ⟨s, .run (k none), fs⟩
  | some x =>
    match x.value with
    | some r => ⟨s, .run (k (some r)), fs⟩
    | none => ⟨(s.modifyExternal e (·.park w)).log t (.parked e w), .run (k none), fs⟩

/-- A reader under the lock: it has its reading, or it joins the waiting set. -/
def check (s : State V N S) (t : ThreadId) (w : Wait V N S) (fs : List (Frame V N S)) :
    Option (Next V N S) :=
  match s.cells[w.cell]? with
  | none => none
  | some cell =>
    match cell.outcome with
    | some o => some ⟨s, .run (w.resume o.reading), fs⟩
    | none => some ⟨s.modifyCell w.cell (·.sleep t), .asleep w, fs⟩

/-- A reader whose wait reported a timeout looks once more before it says so. -/
def giveUp (s : State V N S) (t : ThreadId) (c : CellId) (limit : Duration)
    (k : Reading V → Prog V N S) (fs : List (Frame V N S)) : Next V N S :=
  match s.outcome? c with
  | some o => ⟨s, .run (k o.reading), fs⟩
  | none => ⟨s.log t (.timedOut c limit), .run (k (.error (.timeout limit))), fs⟩

/-- The ending of a body or call reaches the innermost frame.  A panic takes away every frame but those
that capture it; a frame that waits for a call only goes on. -/
def receive (s : State V N S) (t : ThreadId) (frame : Frame V N S) (e : Ending V)
    (fs : List (Frame V N S)) : Next V N S :=
  match frame, e with
  | .capturing result, e =>
    ⟨(s.logEnding t result e).useCause, .deciding result (e.attempt.outcome s.nextCause) none, fs⟩
  | .guarding k, e => ⟨s, .run (k e), fs⟩
  | .resume _, .panicked payload => ⟨s, .ended (.panicked payload), fs⟩
  | .resume p, _ => ⟨s, .run p, fs⟩
  | .finishing _ _, .panicked payload => ⟨s, .ended (.panicked payload), fs⟩
  | .finishing c result, _ => ⟨s.log t (.finished c result), .ended default, fs⟩
  | .draining _, .panicked payload => ⟨s, .ended (.panicked payload), fs⟩
  | .draining c, _ => ⟨s, .draining c, fs⟩
  | .waking _ _, .panicked payload => ⟨s, .ended (.panicked payload), fs⟩
  | .waking _ [], _ => ⟨s, .ended default, fs⟩
  | .waking x (w :: ws), _ =>
    ⟨s.log t (.woke x w), .run (s.wakers.getD w (.ret default)), .waking x ws :: fs⟩

def perform (s : State V N S) (t : ThreadId) (p : Prog V N S) (fs : List (Frame V N S)) :
    Option (Next V N S) :=
  match p with
  | .ret v => some ⟨s, .ended (.value v), fs⟩
  | .err failure => some ⟨s, .ended (.failed failure), fs⟩
  | .panic payload => some ⟨s, .ended (.panicked payload), fs⟩
  | .newCell none k => some ⟨s.addCell .pending, .run (k s.cells.size), fs⟩
  | .newCell (some a) k =>
    some ⟨(s.addCell (.ready (a.outcome s.nextCause))).useCause, .run (k s.cells.size), fs⟩
  | .look c k => some ⟨s, .run (k (s.snapshot c)), fs⟩
  | .decide c a k =>
    if s.admits c a then some ⟨s.useCause, .deciding c (a.outcome s.nextCause) (some k), fs⟩
    else some ⟨s, .run (k false), fs⟩
  | .get c k => some ⟨s, .checking ⟨c, none, k⟩, fs⟩
  | .getTimeout c limit k => some ⟨s, .checking ⟨c, s.deadline? limit, k⟩, fs⟩
  | .chain c body k =>
    some (s.register t c (.chain s.cells.size body) (k s.cells.size) fs)
  | .transform c f k =>
    some (s.register t c (.transform s.cells.size f) (k s.cells.size) fs)
  | .relay c k =>
    some ((s.addExternal.log t (.bridged c s.externals.size)).register t c
      (.relay s.cells.size s.externals.size) (k s.externals.size) fs)
  | .newExternal k => some ⟨s.addExternal, .run (k s.externals.size), fs⟩
  | .lookExternal e k => some ⟨s, .run (k (s.externalSnapshot e)), fs⟩
  | .settle e a k =>
    some ⟨s.useCause, .settling e (a.outcome s.nextCause).reading (some k), fs⟩
  | .poll e w k => some (s.pollExternal t e w k fs)
  | .newWaker onWake k => some ⟨s.addWaker onWake, .run (k s.wakers.size), fs⟩
  | .share failure k => some ⟨s.useCause, .run (k (.mk s.nextCause failure)), fs⟩
  | .guarded body k => some ⟨s, .run body, .guarding k :: fs⟩
  | .spawn name body k => some ⟨s.addThread name body, .run (k s.threads.size), fs⟩
  | .join u k => (s.ending? u).map fun e => ⟨s, .run (k e), fs⟩
  | .threadName k => some ⟨s, .run (k (s.threads[t]?.bind Thread.name)), fs⟩
  | .note n k => some ⟨s.log t (.noted n), .run k, fs⟩
  | .ask k => some ⟨s, .run (k s.client), fs⟩
  | .update f k => some ⟨{ s with client := f s.client }, .run k, fs⟩

def next (s : State V N S) (t : ThreadId) (doing : Doing V N S) (fs : List (Frame V N S)) :
    Option (Next V N S) :=
  match doing with
  | .run p => s.perform t p fs
  | .deciding c o k => some (s.decideCell t c o k fs)
  | .announcing c kind queued =>
    some ⟨(s.modifyCell c Cell.notifyAll).log t (.decided c kind queued), .draining c, fs⟩
  | .draining c => some (s.drain t c fs)
  | .starting c task => some (s.startTask t c task fs)
  | .relaying c e =>
    match s.outcome? c with
    | none => some ⟨s, .ended default, fs⟩
    | some o => some ⟨s, .settling e o.reading none, fs⟩
  | .settling e r k => some (s.settleExternal t e r k fs)
  | .checking w => s.check t w fs
  | .asleep w => if s.awake t w.cell then some ⟨s, .checking w, fs⟩ else none
  | .expired c limit k => some (s.giveUp t c limit k fs)
  | .ended e =>
    match fs with
    | [] => none
    | frame :: rest => some (s.receive t frame e rest)

def step (s : State V N S) (t : ThreadId) : Option (State V N S) :=
  match s.threads[t]? with
  | none => none
  | some thread =>
    (s.next t thread.doing thread.frames).map fun n =>
      n.state.setThread t ⟨thread.name, n.doing, n.frames⟩

end State

inductive Move
  | step (t : ThreadId)
  | pass (nanos : Nat)
  /-- The timed wait of `t` ends at its deadline. -/
  | expire (t : ThreadId)
  /-- The wait of `t` ends without a reason. -/
  | stir (t : ThreadId)

namespace State

def expire (s : State V N S) (t : ThreadId) : Option (State V N S) :=
  match s.threads[t]? with
  | some ⟨name, .asleep ⟨c, some (limit, deadline), k⟩, fs⟩ =>
    if s.awake t c || s.now < deadline then none
    else some ((s.modifyCell c (·.rouse t)).setThread t ⟨name, .expired c limit k, fs⟩)
  | _ => none

def stir (s : State V N S) (t : ThreadId) : Option (State V N S) :=
  match s.threads[t]? with
  | some ⟨_, .asleep w, _⟩ => some (s.modifyCell w.cell (·.rouse t))
  | _ => none

def move (s : State V N S) : Move → Option (State V N S)
  | .step t => s.step t
  | .pass nanos => some { s with now := s.now + nanos }
  | .expire t => s.expire t
  | .stir t => s.stir t

/-- The state after these moves, if each of them is possible in its turn. -/
def run (s : State V N S) : List Move → Option (State V N S)
  | [] => some s
  | m :: ms => (s.move m).bind fun s' => s'.run ms

theorem run_append (s : State V N S) (ms ms' : List Move) :
    s.run (ms ++ ms') = (s.run ms).bind fun s' => s'.run ms' := by
  induction ms generalizing s with
  | nil => rfl
  | cons m ms ih =>
    simp only [List.cons_append, run]
    cases s.move m with
    | none => rfl
    | some s' => exact ih s'

end State

def Reaches (s s' : State V N S) : Prop := ∃ ms, s.run ms = some s'

namespace Reaches

theorem refl (s : State V N S) : Reaches s s := ⟨[], rfl⟩

theorem trans {s s' s'' : State V N S} (first : Reaches s s') (rest : Reaches s' s'') :
    Reaches s s'' := by
  obtain ⟨ms, run⟩ := first
  obtain ⟨ms', run'⟩ := rest
  exact ⟨ms ++ ms', by rw [State.run_append, run]; exact run'⟩

theorem of_move {s s' : State V N S} {m : Move} (moved : s.move m = some s') : Reaches s s' :=
  ⟨[m], by simp [State.run, moved]⟩

theorem induct {P : State V N S → Prop} {s s' : State V N S} (reached : Reaches s s') (now : P s)
    (keeps : ∀ s m s', P s → s.move m = some s' → P s') : P s' := by
  obtain ⟨ms, run⟩ := reached
  induction ms generalizing s with
  | nil =>
    cases Option.some.inj run
    exact now
  | cons m ms ih =>
    obtain ⟨middle, moved, run⟩ := Option.bind_eq_some_iff.mp run
    exact ih (keeps s m middle now moved) run

end Reaches
end Oneshot
