import Oneshot.Proofs.Permanence

/-! # One thread alone

`Alone t events causes s s'` says that `t`, taking some steps on its own, leads from `s` to `s'`, that it
records `events` on the way and uses up so many identities of causes.  What it does to cells is said
apart. -/
set_option autoImplicit false
namespace Oneshot
variable {V N S : Type}

namespace State

def Pends (s : State V N S) (c : CellId) (queue : List (Task V N S)) : Prop :=
  ∃ cell, s.cells[c]? = some cell ∧ cell.outcome = none ∧ cell.queue = queue ∧
    cell.dispatching = false

/-- The cell is decided, and its dispatch has come so far that this is the queue. -/
def Serves (s : State V N S) (c : CellId) (o : Outcome V) (queue : List (Task V N S)) : Prop :=
  ∃ cell, s.cells[c]? = some cell ∧ cell.outcome = some o ∧ cell.queue = queue ∧
    cell.dispatching = true

def Closed (s : State V N S) (c : CellId) (o : Outcome V) : Prop :=
  ∃ cell, s.cells[c]? = some cell ∧ cell.outcome = some o ∧ cell.queue = [] ∧
    cell.dispatching = false

variable {s s' : State V N S} {c : CellId} {o : Outcome V} {queue : List (Task V N S)}

theorem Pends.of_cell (pends : s.Pends c queue) (same : s'.cells[c]? = s.cells[c]?) :
    s'.Pends c queue := by
  obtain ⟨cell, found, pends⟩ := pends
  exact ⟨cell, same ▸ found, pends⟩

theorem Serves.of_cell (serves : s.Serves c o queue) (same : s'.cells[c]? = s.cells[c]?) :
    s'.Serves c o queue := by
  obtain ⟨cell, found, serves⟩ := serves
  exact ⟨cell, same ▸ found, serves⟩

theorem Closed.of_cell (closed : s.Closed c o) (same : s'.cells[c]? = s.cells[c]?) :
    s'.Closed c o := by
  obtain ⟨cell, found, closed⟩ := closed
  exact ⟨cell, same ▸ found, closed⟩

theorem Serves.of_cells (serves : s.Serves c o queue) (same : s'.cells = s.cells) :
    s'.Serves c o queue :=
  serves.of_cell (congrArg (·[c]?) same)

end State

section Inhabited
variable [Inhabited V] {s s' s'' : State V N S} {t : ThreadId}

structure Alone (t : ThreadId) (events : List (Event N)) (causes : Nat) (s s' : State V N S) : Prop where
  run : ∃ n, s.run (List.replicate n (.step t)) = some s'
  history : s'.history = (events.map (Entry.mk t)).reverse ++ s.history
  nextCause : s'.nextCause = s.nextCause + causes
  others : ∀ u, u ≠ t → s'.threads[u]? = s.threads[u]?
  rest : (s'.externals, s'.wakers, s'.now, s'.client) = (s.externals, s.wakers, s.now, s.client)

namespace Alone

theorem refl (t : ThreadId) (s : State V N S) : Alone t [] 0 s s :=
  ⟨⟨0, rfl⟩, rfl, rfl, fun _ _ => rfl, rfl⟩

theorem trans {events events' : List (Event N)} {causes causes' : Nat}
    (first : Alone t events causes s s') (second : Alone t events' causes' s' s'') :
    Alone t (events ++ events') (causes + causes') s s'' where
  run := by
    obtain ⟨n, run⟩ := first.run
    obtain ⟨n', run'⟩ := second.run
    exact ⟨n + n', by rw [← List.replicate_append_replicate, State.run_append, run]; exact run'⟩
  history := by
    rw [second.history, first.history, List.map_append, List.reverse_append, List.append_assoc]
  nextCause := by rw [second.nextCause, first.nextCause, Nat.add_assoc]
  others u other := (second.others u other).trans (first.others u other)
  rest := second.rest.trans first.rest

end Alone

theorem alone_of_next (events : List (Event N)) (causes : Nat) {name : Option String}
    {d : Doing V N S} {fs : List (Frame V N S)} {n : Next V N S}
    (found : s.threads[t]? = some ⟨name, d, fs⟩) (next : s.next t d fs = some n)
    (history : n.state.history = (events.map (Entry.mk t)).reverse ++ s.history)
    (nextCause : n.state.nextCause = s.nextCause + causes) (threads : n.state.threads = s.threads)
    (rest : (n.state.externals, n.state.wakers, n.state.now, n.state.client) =
      (s.externals, s.wakers, s.now, s.client)) :
    ∃ s', Alone t events causes s s' ∧ s'.threads[t]? = some ⟨name, n.doing, n.frames⟩ ∧
      s'.cells = n.state.cells := by
  have once : s.run (List.replicate 1 (.step t)) =
      some (n.state.setThread t ⟨name, n.doing, n.frames⟩) := by
    simp [State.run, State.move, step_of_next found next]
  refine ⟨_, ⟨⟨1, once⟩, history, nextCause, ?_, rest⟩, ?_, rfl⟩
  · intro u other
    rw [State.getElem?_setThread, if_neg (Ne.symm other), threads]
  · have inside := (Array.getElem?_eq_some_iff.mp found).1
    rw [State.getElem?_setThread, if_pos rfl, if_pos (threads ▸ inside)]

theorem alone_of_idle {name : Option String} {d d' : Doing V N S} {fs fs' : List (Frame V N S)}
    (found : s.threads[t]? = some ⟨name, d, fs⟩) (next : s.next t d fs = some ⟨s, d', fs'⟩) :
    ∃ s', Alone t [] 0 s s' ∧ s'.threads[t]? = some ⟨name, d', fs'⟩ ∧ s'.cells = s.cells :=
  alone_of_next [] 0 found next rfl rfl rfl rfl

end Inhabited
end Oneshot
