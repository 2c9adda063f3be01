import Oneshot.Proofs.Transition

/-! # What stays

`Extends s s'` says that `s'` has all cells and external futures of `s`, and that what was decided or
settled in `s` is so in `s'`, with the same outcome.  Every run extends the state it begins in
(`extends_of_reaches`). -/
set_option autoImplicit false
namespace Oneshot
variable {V N S : Type}

namespace State

def queueOf (s : State V N S) (c : CellId) : List (Task V N S) :=
  (s.cells[c]?.map Cell.queue).getD []

def dispatches (s : State V N S) (c : CellId) : Bool :=
  (s.cells[c]?.map Cell.dispatching).getD false

def settled? (s : State V N S) (e : ExternalId) : Option (Reading V) :=
  s.externals[e]?.bind External.value

variable {s : State V N S}

theorem outcome?_of_found {c : CellId} {cell : Cell V N S} (found : s.cells[c]? = some cell) :
    s.outcome? c = cell.outcome := by
  simp [outcome?, found]

theorem queueOf_of_found {c : CellId} {cell : Cell V N S} (found : s.cells[c]? = some cell) :
    s.queueOf c = cell.queue := by
  simp [queueOf, found]

theorem dispatches_of_found {c : CellId} {cell : Cell V N S} (found : s.cells[c]? = some cell) :
    s.dispatches c = cell.dispatching := by
  simp [dispatches, found]

theorem found_of_outcome? {c : CellId} (decided : s.outcome? c ≠ none) :
    ∃ cell, s.cells[c]? = some cell := by
  cases found : s.cells[c]? with
  | none => simp [outcome?, found] at decided
  | some cell => exact ⟨cell, rfl⟩

theorem inside_of_outcome? {c : CellId} (decided : s.outcome? c ≠ none) : c < s.cells.size := by
  obtain ⟨cell, found⟩ := found_of_outcome? decided
  exact (Array.getElem?_eq_some_iff.mp found).1

theorem outcome?_outside : s.outcome? s.cells.size = none := by
  simp [outcome?]

theorem getElem?_addCell (s : State V N S) (cell : Cell V N S) (c : CellId) :
    (s.addCell cell).cells[c]? = if c = s.cells.size then some cell else s.cells[c]? := by
  simp only [addCell, Array.getElem?_push]

theorem getElem?_replaceCell {c : CellId} {cell : Cell V N S} (found : s.cells[c]? = some cell)
    (f : Cell V N S → Cell V N S) (d : CellId) :
    (s.modifyCell c f).cells[d]? = if d = c then some (f cell) else s.cells[d]? := by
  rw [getElem?_modifyCell]
  by_cases same : c = d
  · subst same
    simp [found]
  · simp [same, Ne.symm same]

theorem outcome?_addCell (s : State V N S) (cell : Cell V N S) (c : CellId) :
    (s.addCell cell).outcome? c = if c = s.cells.size then cell.outcome else s.outcome? c := by
  simp only [outcome?, getElem?_addCell]
  split <;> rfl

theorem outcome?_replaceCell {c : CellId} {cell : Cell V N S} (found : s.cells[c]? = some cell)
    (f : Cell V N S → Cell V N S) (d : CellId) :
    (s.modifyCell c f).outcome? d = if d = c then (f cell).outcome else s.outcome? d := by
  simp only [outcome?, getElem?_replaceCell found]
  split <;> rfl

theorem queueOf_addCell (s : State V N S) {cell : Cell V N S} (empty : cell.queue = [])
    (c : CellId) : (s.addCell cell).queueOf c = s.queueOf c := by
  simp only [queueOf, getElem?_addCell]
  split
  next outside => simp [outside, empty]
  next => rfl

theorem queueOf_replaceCell {c : CellId} {cell : Cell V N S} (found : s.cells[c]? = some cell)
    (f : Cell V N S → Cell V N S) (d : CellId) :
    (s.modifyCell c f).queueOf d = if d = c then (f cell).queue else s.queueOf d := by
  simp only [queueOf, getElem?_replaceCell found]
  split <;> rfl

theorem dispatches_addCell (s : State V N S) {cell : Cell V N S} (idle : cell.dispatching = false)
    (c : CellId) : (s.addCell cell).dispatches c = s.dispatches c := by
  simp only [dispatches, getElem?_addCell]
  split
  next outside => simp [outside, idle]
  next => rfl

theorem dispatches_replaceCell {c : CellId} {cell : Cell V N S} (found : s.cells[c]? = some cell)
    (f : Cell V N S → Cell V N S) (d : CellId) :
    (s.modifyCell c f).dispatches d = if d = c then (f cell).dispatching else s.dispatches d := by
  simp only [dispatches, getElem?_replaceCell found]
  split <;> rfl

theorem size_addCell (s : State V N S) (cell : Cell V N S) :
    (s.addCell cell).cells.size = s.cells.size + 1 := by
  simp [addCell]

theorem cells_logEnding (s : State V N S) (t : ThreadId) (result : CellId) (e : Ending V) :
    (s.logEnding t result e).cells = s.cells := by
  cases e <;> rfl

theorem externals_logEnding (s : State V N S) (t : ThreadId) (result : CellId) (e : Ending V) :
    (s.logEnding t result e).externals = s.externals := by
  cases e <;> rfl

theorem threads_logEnding (s : State V N S) (t : ThreadId) (result : CellId) (e : Ending V) :
    (s.logEnding t result e).threads = s.threads := by
  cases e <;> rfl

theorem size_modifyCell (s : State V N S) (c : CellId) (f : Cell V N S → Cell V N S) :
    (s.modifyCell c f).cells.size = s.cells.size := by
  simp [modifyCell]

end State

namespace Still
variable {s s' : State V N S}

theorem core (still : Still s s') (c : CellId) :
    s'.cells[c]?.map Cell.core = s.cells[c]?.map Cell.core := by
  rw [← Array.getElem?_map, ← Array.getElem?_map, still.cores]

theorem size (still : Still s s') : s'.cells.size = s.cells.size := by
  have same := congrArg Array.size still.cores
  simpa only [Array.size_map] using same

theorem outcome? (still : Still s s') (c : CellId) : s'.outcome? c = s.outcome? c := by
  have same := still.core c
  unfold State.outcome?
  cases now : s'.cells[c]? <;> cases before : s.cells[c]? <;> simp_all [Cell.core]

theorem queueOf (still : Still s s') (c : CellId) : s'.queueOf c = s.queueOf c := by
  have same := still.core c
  unfold State.queueOf
  cases now : s'.cells[c]? <;> cases before : s.cells[c]? <;> simp_all [Cell.core]

theorem dispatches (still : Still s s') (c : CellId) : s'.dispatches c = s.dispatches c := by
  have same := still.core c
  unfold State.dispatches
  cases now : s'.cells[c]? <;> cases before : s.cells[c]? <;> simp_all [Cell.core]

theorem settled? (still : Still s s') {e : ExternalId} (settled : s.settled? e ≠ none) :
    s'.settled? e = s.settled? e := by
  cases found : s.externals[e]? with
  | none => simp [State.settled?, found] at settled
  | some x =>
    obtain ⟨x', found', same⟩ := still.values e x found
    simp [State.settled?, found, found', same]

theorem externals (still : Still s s') : s.externals.size ≤ s'.externals.size := by
  refine Nat.le_of_not_lt fun inside => ?_
  obtain ⟨x', found, -⟩ := still.values _ _ (Array.getElem?_eq_getElem inside)
  simp at found

end Still

/-- `s'` goes on from `s`: what there was is there, and what was decided is as it was decided. -/
structure Extends (s s' : State V N S) : Prop where
  cells : s.cells.size ≤ s'.cells.size
  externals : s.externals.size ≤ s'.externals.size
  outcomes : ∀ c, s.outcome? c ≠ none → s'.outcome? c = s.outcome? c
  readings : ∀ e, s.settled? e ≠ none → s'.settled? e = s.settled? e

namespace Extends
variable {s s' s'' : State V N S}

theorem refl (s : State V N S) : Extends s s :=
  ⟨Nat.le_refl _, Nat.le_refl _, fun _ _ => rfl, fun _ _ => rfl⟩

theorem trans (first : Extends s s') (rest : Extends s' s'') : Extends s s'' where
  cells := Nat.le_trans first.cells rest.cells
  externals := Nat.le_trans first.externals rest.externals
  outcomes c decided := by
    have kept := first.outcomes c decided
    rw [rest.outcomes c (by rw [kept]; exact decided), kept]
  readings e settled := by
    have kept := first.readings e settled
    rw [rest.readings e (by rw [kept]; exact settled), kept]

theorem decided (extends' : Extends s s') {c : CellId} (decided : s.outcome? c ≠ none) :
    s'.outcome? c ≠ none := by
  rw [extends'.outcomes c decided]
  exact decided

theorem keeps (extends' : Extends s s') {c : CellId} {o : Outcome V} (held : s.outcome? c = some o) :
    s'.outcome? c = some o :=
  (extends'.outcomes c (by rw [held]; simp)).trans held

theorem of_still (still : Still s s') : Extends s s' :=
  ⟨Nat.le_of_eq still.size.symm, still.externals, fun c _ => still.outcome? c, fun _ => still.settled?⟩

theorem of_cells (externals : s'.externals = s.externals) (cells : s.cells.size ≤ s'.cells.size)
    (outcomes : ∀ c, s.outcome? c ≠ none → s'.outcome? c = s.outcome? c) : Extends s s' :=
  ⟨cells, Nat.le_of_eq (by rw [externals]), outcomes,
    fun e _ => by rw [State.settled?, State.settled?, externals]⟩

theorem of_same (extends' : Extends s s') (cells : s''.cells = s'.cells)
    (externals : s''.externals = s'.externals) : Extends s s'' := by
  refine extends'.trans (of_cells externals (Nat.le_of_eq (by rw [cells])) fun c _ => ?_)
  rw [State.outcome?, State.outcome?, cells]

theorem of_addCell (s : State V N S) (cell : Cell V N S) : Extends s (s.addCell cell) := by
  refine of_cells rfl (by rw [State.size_addCell]; omega) fun c decided => ?_
  have inside := State.inside_of_outcome? decided
  rw [State.outcome?_addCell, if_neg (Nat.ne_of_lt inside)]

theorem of_replaceCell {c : CellId} {cell : Cell V N S} (found : s.cells[c]? = some cell)
    (f : Cell V N S → Cell V N S)
    (kept : cell.outcome ≠ none → (f cell).outcome = cell.outcome) :
    Extends s (s.modifyCell c f) := by
  refine of_cells rfl (Nat.le_of_eq (State.size_modifyCell s c f).symm) fun d decided => ?_
  rw [State.outcome?_replaceCell found]
  split
  next same =>
    subst same
    rw [State.outcome?_of_found found] at decided ⊢
    exact kept decided
  next => rfl

theorem of_settle {e : ExternalId} {x : External V} (found : s.externals[e]? = some x)
    (unsettled : x.value = none) (r : Reading V) :
    Extends s (s.modifyExternal e (·.settle r)) := by
  refine ⟨Nat.le_refl _, by simp [State.modifyExternal], fun _ _ => rfl, fun e' settled => ?_⟩
  have other : e' ≠ e := by
    rintro rfl
    exact settled (by simp [State.settled?, found, unsettled])
  simp [State.settled?, State.modifyExternal, Array.getElem?_modify, Ne.symm other]

end Extends

theorem Opens.cells {s s₀ : State V N S} {t : ThreadId} (opens : Opens s t s₀) :
    s₀.cells = s.cells := by
  cases opens <;> rfl

theorem Opens.found_addCell {s s₀ : State V N S} {t : ThreadId} (opens : Opens s t s₀)
    (new : Cell V N S) {c : CellId} {cell : Cell V N S} (found : s.cells[c]? = some cell) :
    (s₀.addCell new).cells[c]? = some cell := by
  have inside := (Array.getElem?_eq_some_iff.mp found).1
  rw [State.getElem?_addCell, opens.cells, if_neg (Nat.ne_of_lt inside), found]

theorem Opens.extends' {s s₀ : State V N S} {t : ThreadId} (opens : Opens s t s₀)
    (cell : Cell V N S) : Extends s (s₀.addCell cell) :=
  (Extends.of_still opens.still).trans (Extends.of_addCell s₀ cell)

theorem register_same (s : State V N S) (t : ThreadId) (c : CellId) (task : Task V N S)
    (p : Prog V N S) (fs : List (Frame V N S)) :
    (s.register t c task p fs).state.externals = s.externals ∧
      (s.register t c task p fs).state.threads = s.threads := by
  unfold State.register
  split
  next => exact ⟨rfl, rfl⟩
  next =>
    split
    next => exact ⟨rfl, rfl⟩
    next => exact ⟨rfl, rfl⟩

section Inhabited
variable [Inhabited V] {s s' : State V N S} {t : ThreadId}

theorem extends_of_transition {d : Doing V N S} {fs : List (Frame V N S)} {n : Next V N S}
    (transition : Transition s t d fs n) : Extends s n.state := by
  cases transition with
  | plain _ _ still => exact .of_still still
  | creates _ => exact (Extends.of_addCell s _).of_same rfl rfl
  | strays opens => exact opens.extends' _
  | @queues _ _ _ _ _ _ task opens found _ _ =>
    exact ((opens.extends' _).trans (.of_replaceCell (opens.found_addCell .derived found)
      (·.enqueue task) fun _ => rfl)).of_same rfl rfl
  | inlines opens _ _ _ => exact (opens.extends' _).of_same rfl rfl
  | loses still _ => exact .of_still still
  | wins found undecided =>
    exact .of_replaceCell found _ fun decided => absurd undecided decided
  | announces =>
    exact (Extends.of_still (still_of_waiting s _ Cell.notifyAll fun _ => rfl)).of_same rfl rfl
  | @takes c _ cell _ rest found _ =>
    exact (Extends.of_replaceCell found (fun _ => { cell with queue := rest })
      fun _ => rfl).of_same rfl rfl
  | empties found _ => exact .of_replaceCell found _ fun _ => rfl
  | refuses still _ => exact .of_still still
  | settles found unsettled => exact (Extends.of_settle found unsettled _).of_same rfl rfl
  | captures =>
    exact (Extends.refl s).of_same (State.cells_logEnding s t _ _) (State.externals_logEnding s t _ _)
  | _ => exact (Extends.refl s).of_same rfl rfl

/-- A step leaves the other threads alone, but for one that it may begin. -/
theorem threads_of_transition {d : Doing V N S} {fs : List (Frame V N S)} {n : Next V N S}
    (transition : Transition s t d fs n) : n.state.threads = s.threads ∨
      ∃ name body, n.state.threads = s.threads.push ⟨name, .run body, []⟩ := by
  cases transition with
  | plain _ _ still => exact still.threads
  | strays opens => cases opens <;> exact Or.inl rfl
  | queues opens _ _ _ => cases opens <;> exact Or.inl rfl
  | inlines opens _ _ _ => cases opens <;> exact Or.inl rfl
  | loses still _ => exact still.threads
  | refuses still _ => exact still.threads
  | captures => exact Or.inl (State.threads_logEnding s t _ _)
  | _ => exact Or.inl rfl

theorem thread_of_transition {d : Doing V N S} {fs : List (Frame V N S)} {n : Next V N S}
    (transition : Transition s t d fs n) {u : ThreadId} {thread : Thread V N S}
    (found : s.threads[u]? = some thread) : n.state.threads[u]? = some thread := by
  rcases threads_of_transition transition with same | ⟨name, body, pushed⟩
  · rwa [same]
  · have inside := (Array.getElem?_eq_some_iff.mp found).1
    rw [pushed, Array.getElem?_push, if_neg (Nat.ne_of_lt inside)]
    exact found

theorem thread_after {d : Doing V N S} {fs : List (Frame V N S)} {n : Next V N S}
    (transition : Transition s t d fs n) {thread thread' : Thread V N S}
    (found : s.threads[t]? = some thread) :
    (n.state.setThread t thread').threads[t]? = some thread' := by
  have inside := (Array.getElem?_eq_some_iff.mp (thread_of_transition transition found)).1
  rw [State.getElem?_setThread, if_pos rfl, if_pos inside]

theorem thread_other {d : Doing V N S} {fs : List (Frame V N S)} {n : Next V N S}
    (transition : Transition s t d fs n) {u : ThreadId} {thread thread' : Thread V N S}
    (other : u ≠ t) (found : s.threads[u]? = some thread) :
    (n.state.setThread t thread').threads[u]? = some thread := by
  rw [State.getElem?_setThread, if_neg (Ne.symm other)]
  exact thread_of_transition transition found

theorem extends_of_advance (advance : Advance s s') : Extends s s' := by
  cases advance with
  | aside still _ => exact .of_still still
  | thread _ transition => exact (extends_of_transition transition).of_same rfl rfl

theorem extends_of_reaches (reached : Reaches s s') : Extends s s' :=
  reached.induct (.refl s) fun _ _ _ kept moved =>
    kept.trans (extends_of_advance (advance_of_move moved))

end Inhabited
end Oneshot
