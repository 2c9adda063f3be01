import Oneshot.Proofs.Course

/-! # What is recorded

The marks of a cell are what the steps do at it: a call registers the continuation of the cell that it
makes, a start is the turn of a thread to a continuation, and a finish the return from it
(`recorded_of_reachable`). -/
set_option autoImplicit false
namespace Oneshot
variable {V N S : Type}

def View.finished (w : View) : List CellId := w.trace.results Mark.finished?

def Prog.source? : Prog V N S → Option CellId
  | .chain c _ _ | .transform c _ _ | .relay c _ => some c
  | _ => none

/-- The continuations of `c` that are about to begin. -/
def Doing.starts (c : CellId) : Doing V N S → List CellId
  | .starting b task => if b = c then [task.result] else []
  | _ => []

/-- The continuations of `c` that have come to their end, with the decision of their cells. -/
def finishes (c : CellId) : Doing V N S → List (Frame V N S) → List CellId
  | .ended _, .finishing b r :: _ => if b = c then [r] else []
  | _, _ => []

section Inhabited
variable [Inhabited V] {s s' : State V N S} {t : ThreadId}

omit [Inhabited V] in
theorem registered_register {c : CellId} {cell : Cell V N S} (found : s.cells[c]? = some cell)
    (t : ThreadId) (task : Task V N S) (p : Prog V N S) (fs : List (Frame V N S)) :
    ((s.register t c task p fs).state.ledger.view c).registered =
      (s.ledger.view c).registered ++ [task.result] := by
  unfold State.register
  rw [found]
  by_cases queues : cell.queues = true
  · have recorded : traceOf c ((t, .queued c task.result) :: s.marks) =
        traceOf c s.marks ++ [(t, .queued c task.result)] := by
      simp only [traceOf_cons, Mark.cell, if_true]
    simp only [queues, if_true]
    exact (congrArg (Trace.results Mark.registered?) recorded).trans (Trace.results_snoc ..)
  · have recorded : traceOf c ((t, .started c task.result) :: (t, .inlined c task.result) :: s.marks) =
        traceOf c s.marks ++ [(t, .inlined c task.result)] ++ [(t, .started c task.result)] := by
      simp only [traceOf_cons, Mark.cell, if_true]
    simp only [queues]
    refine (congrArg (Trace.results Mark.registered?) recorded).trans ?_
    rw [Trace.results_snoc, Trace.results_snoc]
    exact List.append_nil _

theorem registered_of_step {name : Option String} {p : Prog V N S} {fs : List (Frame V N S)}
    {c : CellId} (found : s.threads[t]? = some ⟨name, .run p, fs⟩) (source : p.source? = some c)
    (inside : c < s.cells.size) (moved : s.move (.step t) = some s') :
    (s'.ledger.view c).registered = (s.ledger.view c).registered ++ [s.cells.size] := by
  have held : s.cells[c]? = some s.cells[c] := Array.getElem?_eq_getElem inside
  have stepped : s.step t = some s' := moved
  simp only [State.step, found] at stepped
  cases p with
  | chain b body k =>
    cases source
    cases stepped
    exact registered_register held t (.chain s.cells.size body) _ fs
  | transform b f k =>
    cases source
    cases stepped
    exact registered_register held t (.transform s.cells.size f) _ fs
  | relay b k =>
    cases source
    cases stepped
    let s₀ := s.addExternal.log t (.bridged c s.externals.size)
    have held₀ : s₀.cells[c]? = some s.cells[c] := held
    exact registered_register held₀ t (.relay s.cells.size s.externals.size) _ fs
  | _ => cases source

omit [Inhabited V] in
theorem results_of_marks {s' : State V N S} (same : s'.marks = s.marks) (kind : Mark → Option CellId)
    (c : CellId) : (s'.ledger.view c).trace.results kind = (s.ledger.view c).trace.results kind :=
  congrArg (fun marks => Trace.results kind (traceOf c marks)) same

omit [Inhabited V] in
theorem results_log {event : Event N} {mark : Mark} (marked : event.mark? = some mark)
    (s : State V N S) (t : ThreadId) (kind : Mark → Option CellId) (c : CellId) :
    ((s.log t event).ledger.view c).trace.results kind =
      (s.ledger.view c).trace.results kind ++ if mark.cell = c then (kind mark).toList else [] := by
  rw [State.ledger_log marked]
  simp only [Ledger.view, traceOf_cons]
  split
  next => exact Trace.results_snoc ..
  next => exact (List.append_nil _).symm

omit [Inhabited V] in
theorem results_of_other {s₀ : State V N S} (same : s₀.marks = s.marks) {event : Event N} {mark : Mark}
    (marked : event.mark? = some mark) {kind : Mark → Option CellId} (none : kind mark = none)
    (t : ThreadId) (c : CellId) : ((s₀.log t event).ledger.view c).trace.results kind =
      (s.ledger.view c).trace.results kind := by
  rw [results_log marked, none, results_of_marks same]
  split <;> exact List.append_nil _

theorem started_of_transition {d : Doing V N S} {fs : List (Frame V N S)} {n : Next V N S}
    (transition : Transition s t d fs n) (c : CellId) :
    (n.state.ledger.view c).started = (s.ledger.view c).started ++ n.doing.starts c := by
  have silent (same : n.state.marks = s.marks) (none : n.doing.starts c = []) :
      (n.state.ledger.view c).started = (s.ledger.view c).started ++ n.doing.starts c := by
    rw [none, List.append_nil]
    exact results_of_marks same Mark.started? c
  have other {s₀ : State V N S} (same : s₀.marks = s.marks) {event : Event N} {mark : Mark}
      (marked : event.mark? = some mark) (none : mark.started? = none) :
      ((s₀.log t event).ledger.view c).started = (s.ledger.view c).started ++ [] := by
    rw [List.append_nil]
    exact results_of_other same marked none t c
  cases transition with
  | @plain _ d' _ _ _ is still =>
    refine silent (State.marks_of_still still) ?_
    rcases is with plain | ⟨e, rfl⟩
    · cases d' <;> first | rfl | exact False.elim plain
    · rfl
  | strays opens =>
    have same := State.marks_of_still opens.still
    exact silent same rfl
  | @queues p p' _ s₀ b cell task opens _ _ _ =>
    have before : s₀.marks = s.marks := State.marks_of_still opens.still
    have same : ((s₀.addCell .derived).modifyCell b (·.enqueue task)).marks = s.marks := before
    exact other same rfl rfl
  | @inlines p p' _ s₀ b cell task opens found free new =>
    have before : s₀.marks = s.marks := State.marks_of_still opens.still
    have same : (s₀.addCell .derived).marks = s.marks := before
    have marked : (Event.inlined b task.result : Event N).mark? = some (.inlined b task.result) := rfl
    have entered := other same marked rfl
    rw [List.append_nil] at entered
    have marked : (Event.started b task.result : Event N).mark? = some (.started b task.result) := rfl
    have logged := results_log marked ((s₀.addCell .derived).log t (.inlined b task.result)) t
      Mark.started? c
    exact logged.trans (congrArg (· ++ _) entered)
  | @loses _ _ k _ _ still _ =>
    refine silent (State.marks_of_still still) ?_
    cases k <;> rfl
  | announces => exact other rfl rfl rfl
  | @takes b _ cell task rest found queue =>
    have marked : (Event.started b task.result : Event N).mark? = some (.started b task.result) := rfl
    exact results_log marked _ t Mark.started? c
  | @refuses _ _ k _ _ still _ =>
    refine silent (State.marks_of_still still) ?_
    cases k <;> rfl
  | @captures e r _ =>
    refine silent ?_ rfl
    cases e <;> rfl
  | finishes _ => exact other rfl rfl rfl
  | unwinds _ => exact silent rfl rfl
  | _ => exact silent rfl rfl

theorem finished_of_transition {d : Doing V N S} {fs : List (Frame V N S)} {n : Next V N S}
    (transition : Transition s t d fs n) (sound : Thread.Sound s d fs) (c : CellId) :
    (n.state.ledger.view c).finished = (s.ledger.view c).finished ++ finishes c d fs := by
  have silent (same : n.state.marks = s.marks) (none : finishes c d fs = []) :
      (n.state.ledger.view c).finished = (s.ledger.view c).finished ++ finishes c d fs := by
    rw [none, List.append_nil]
    exact results_of_marks same Mark.finished? c
  have other {s₀ : State V N S} (same : s₀.marks = s.marks) {event : Event N} {mark : Mark}
      (marked : event.mark? = some mark) (none : mark.finished? = none) :
      ((s₀.log t event).ledger.view c).finished = (s.ledger.view c).finished ++ [] := by
    rw [List.append_nil]
    exact results_of_other same marked none t c
  cases transition with
  | @plain d _ _ _ was _ still =>
    refine silent (State.marks_of_still still) ?_
    cases d <;> first | rfl | exact False.elim was
  | strays opens =>
    have same := State.marks_of_still opens.still
    exact silent same rfl
  | @queues p p' _ s₀ b cell task opens _ _ _ =>
    have before : s₀.marks = s.marks := State.marks_of_still opens.still
    have same : ((s₀.addCell .derived).modifyCell b (·.enqueue task)).marks = s.marks := before
    exact other same rfl rfl
  | @inlines p p' _ s₀ b cell task opens found free new =>
    have before : s₀.marks = s.marks := State.marks_of_still opens.still
    have same : (s₀.addCell .derived).marks = s.marks := before
    have marked : (Event.inlined b task.result : Event N).mark? = some (.inlined b task.result) := rfl
    have entered := other same marked rfl
    let middle := (s₀.addCell .derived).log t (.inlined b task.result)
    have marked : (Event.started b task.result : Event N).mark? = some (.started b task.result) := rfl
    have begun := results_of_other (s := middle) rfl marked (rfl : Mark.finished? _ = none) t c
    exact begun.trans entered
  | loses still _ => exact silent (State.marks_of_still still) rfl
  | announces => exact other rfl rfl rfl
  | takes found queue => exact other rfl rfl rfl
  | refuses still _ => exact silent (State.marks_of_still still) rfl
  | @captures e r _ =>
    refine silent ?_ rfl
    cases e <;> rfl
  | @finishes e b r fs _ =>
    have marked : (Event.finished b r : Event N).mark? = some (.finished b r) := rfl
    exact results_log marked s t Mark.finished? c
  | @unwinds payload frame _ passes =>
    cases frame with
    | finishing b r => exact (calm_of_rests sound.top (Or.inl ⟨b, r, rfl⟩)).elim
    | _ => exact silent rfl rfl
  | _ => exact silent rfl rfl

/-- The records of `c` are what the steps do: a call registers the continuation of the cell it makes,
a start is the turn of a thread to a continuation, and a finish the return from it. -/
structure Recorded (c : CellId) (s : State V N S) : Prop where
  registers : ∀ {t name p fs s'}, s.threads[t]? = some ⟨name, .run p, fs⟩ → p.source? = some c →
    c < s.cells.size → s.move (.step t) = some s' →
    (s'.ledger.view c).registered = (s.ledger.view c).registered ++ [s.cells.size]
  starts : ∀ {t thread s'}, s.move (.step t) = some s' → s'.threads[t]? = some thread →
    (s'.ledger.view c).started = (s.ledger.view c).started ++ thread.doing.starts c
  finishes : ∀ {t thread s'}, s.move (.step t) = some s' → s.threads[t]? = some thread →
    (s'.ledger.view c).finished =
      (s.ledger.view c).finished ++ finishes c thread.doing thread.frames

theorem recorded_of_reachable (reachable : Reachable s) (c : CellId) : Recorded c s := by
  have sound := sound_of_reachable reachable
  refine ⟨registered_of_step, ?_, ?_⟩
  · intro t thread' s' moved after
    obtain ⟨thread, n, found, transition, rfl⟩ := transition_of_step (s := s) moved
    rw [thread_after transition found] at after
    cases after
    exact started_of_transition transition c
  · intro t thread s' moved found
    obtain ⟨thread', n, found', transition, rfl⟩ := transition_of_step (s := s) moved
    cases found.symm.trans found'
    exact finished_of_transition transition (sound.threads t thread found) c

end Inhabited
end Oneshot
