import Oneshot.Proofs.Descent
import Oneshot.Proofs.Traversal

/-! # What a decision sweeps

The call that decides a cell takes out its continuations, decides their cells, takes out the
continuations of those, and so on.  Whatever is undecided, decided or cancelled in between, it changes no
cell and no external future but those below the first one, and leaves all of them at rest (`drains`). -/
set_option autoImplicit false
namespace Oneshot
variable {V N S : Type}

/-- Code that does not touch cells and external futures, nor anything else that waits. -/
inductive Prog.Inert : Prog V N S → Prop
  | ret (v : V) : Inert (.ret v)
  | err (failure : Failure) : Inert (.err failure)
  | panic (payload : Payload) : Inert (.panic payload)
  | note {n : N} {k : Prog V N S} (rest : k.Inert) : Inert (.note n k)
  | ask {k : S → Prog V N S} (rest : ∀ x, (k x).Inert) : Inert (.ask k)
  | update {f : S → S} {k : Prog V N S} (rest : k.Inert) : Inert (.update f k)

namespace State

def InertWakers (s : State V N S) : Prop :=
  ∀ (e : ExternalId) (x : External V), s.externals[e]? = some x → ∀ w ∈ x.wakers,
    ∀ p : Prog V N S, s.wakers[w]? = some p → p.Inert

/-- What waits in `s` is known to `s₀`, and is a body that at most reads its source, or a bridge. -/
structure Harmless (s₀ s : State V N S) : Prop where
  queued : ∀ c, ∀ task ∈ s.queueOf c, s₀.Child c task.result ∧
    ((∃ stage : Stage V N, task = stage.task c task.result) ∨
      ∃ e, task = .relay task.result e ∧ s₀.Bridges c e)
  wakers : s.InertWakers

/-- Nothing is going on at the cell: it is undecided, or its dispatch is over. -/
def Rests (s : State V N S) (c : CellId) : Prop := (∃ queue, s.Pends c queue) ∨ ∃ o, s.Closed c o

/-- The external futures that were bridged from a cell below `c`. -/
def Fed (s : State V N S) (c : CellId) (e : ExternalId) : Prop := ∃ d, s.Below c d ∧ s.Bridges d e

theorem Rests.of_cell {s s' : State V N S} {c : CellId} (rests : s.Rests c)
    (same : s'.cells[c]? = s.cells[c]?) : s'.Rests c := by
  rcases rests with ⟨queue, pends⟩ | ⟨o, closed⟩
  · exact Or.inl ⟨queue, pends.of_cell same⟩
  · exact Or.inr ⟨o, closed.of_cell same⟩

theorem queueOf_of_cell {s s' : State V N S} {c : CellId} (same : s'.cells[c]? = s.cells[c]?) :
    s'.queueOf c = s.queueOf c := by
  rw [queueOf, same, queueOf]

end State

section Inhabited
variable [Inhabited V] {s s' s'' s₀ : State V N S} {t : ThreadId} {name : Option String}
  {fs : List (Frame V N S)}

/-- `t`, taking some steps on its own, leads from `s` to `s'`, and changes no cells but those of `W` and
no external futures but those of `E`; nothing is added to what waits. -/
structure Sweeps (t : ThreadId) (W : CellId → Prop) (E : ExternalId → Prop) (s s' : State V N S) :
    Prop where
  run : ∃ n, s.run (List.replicate n (.step t)) = some s'
  others : ∀ u, u ≠ t → s'.threads[u]? = s.threads[u]?
  wakers : s'.wakers = s.wakers
  cells : ∀ d, ¬ W d → s'.cells[d]? = s.cells[d]?
  externals : ∀ e, ¬ E e → s'.externals[e]? = s.externals[e]?
  queues : ∀ d, ∀ task ∈ s'.queueOf d, task ∈ s.queueOf d
  stored : ∀ (e : ExternalId) (x' : External V), s'.externals[e]? = some x' →
    ∃ x : External V, s.externals[e]? = some x ∧ ∀ w ∈ x'.wakers, w ∈ x.wakers

namespace Sweeps
variable {W W' : CellId → Prop} {E E' : ExternalId → Prop}

theorem trans (first : Sweeps t W E s s') (second : Sweeps t W E s' s'') : Sweeps t W E s s'' where
  run := by
    obtain ⟨n, run⟩ := first.run
    obtain ⟨n', run'⟩ := second.run
    exact ⟨n + n', by rw [← List.replicate_append_replicate, State.run_append, run]; exact run'⟩
  others u other := (second.others u other).trans (first.others u other)
  wakers := second.wakers.trans first.wakers
  cells d aside := (second.cells d aside).trans (first.cells d aside)
  externals e aside := (second.externals e aside).trans (first.externals e aside)
  queues d task member := first.queues d task (second.queues d task member)
  stored e x' found := by
    obtain ⟨x, found', fewer'⟩ := second.stored e x' found
    obtain ⟨y, found'', fewer⟩ := first.stored e x found'
    exact ⟨y, found'', fun w member => fewer w (fewer' w member)⟩

theorem mono (sweeps : Sweeps t W E s s') (cells : ∀ d, W d → W' d) (externals : ∀ e, E e → E' e) :
    Sweeps t W' E' s s' :=
  { sweeps with
    cells := fun d aside => sweeps.cells d fun inside => aside (cells d inside)
    externals := fun e aside => sweeps.externals e fun inside => aside (externals e inside) }

theorem reaches (sweeps : Sweeps t W E s s') : Reaches s s' := by
  obtain ⟨n, run⟩ := sweeps.run
  exact ⟨_, run⟩

theorem of_alone {events : List (Event N)} {causes : Nat} (alone : Alone t events causes s s')
    (cells : ∀ d, ¬ W d → s'.cells[d]? = s.cells[d]?)
    (queues : ∀ d, W d → ∀ task ∈ s'.queueOf d, task ∈ s.queueOf d) : Sweeps t W E s s' := by
  obtain ⟨externals, wakers, -, -⟩ := by simpa only [Prod.mk.injEq] using alone.rest
  refine ⟨alone.run, alone.others, wakers, cells, fun e _ => by rw [externals], ?_, ?_⟩
  · intro d task member
    by_cases inside : W d
    · exact queues d inside task member
    · rwa [← State.queueOf_of_cell (cells d inside)]
  · intro e x found
    exact ⟨x, externals ▸ found, fun _ member => member⟩

theorem of_idle {events : List (Event N)} {causes : Nat} (alone : Alone t events causes s s')
    (same : s'.cells = s.cells) : Sweeps t W E s s' :=
  of_alone alone (fun d _ => by rw [same]) fun d _ task member => by
    rwa [← State.queueOf_of_cells same]

theorem inert (sweeps : Sweeps t W E s s') (inert : s.InertWakers) : s'.InertWakers := by
  intro e x' found w member p stored
  obtain ⟨x, known, fewer⟩ := sweeps.stored e x' found
  rw [sweeps.wakers] at stored
  exact inert e x known w (fewer w member) p stored

theorem harmless (sweeps : Sweeps t W E s s') (harmless : s₀.Harmless s) : s₀.Harmless s' where
  queued c task member := harmless.queued c task (sweeps.queues c task member)
  wakers := sweeps.inert harmless.wakers

end Sweeps

variable {W : CellId → Prop} {E : ExternalId → Prop}

/-- A step that leaves all cells and external futures as they are. -/
theorem sweeps_of_next {d : Doing V N S} {n : Next V N S}
    (found : s.threads[t]? = some ⟨name, d, fs⟩) (next : s.next t d fs = some n)
    (threads : n.state.threads = s.threads) (wakers : n.state.wakers = s.wakers)
    (cells : n.state.cells = s.cells) (externals : n.state.externals = s.externals) :
    ∃ s', Sweeps t W E s s' ∧ s'.threads[t]? = some ⟨name, n.doing, n.frames⟩ ∧
      s'.cells = s.cells ∧ s'.externals = s.externals := by
  have once : s.run (List.replicate 1 (.step t)) =
      some (n.state.setThread t ⟨name, n.doing, n.frames⟩) := by
    simp [State.run, State.move, step_of_next found next]
  refine ⟨_, ⟨⟨1, once⟩, ?_, wakers, fun d _ => congrArg (·[d]?) cells,
    fun e _ => congrArg (·[e]?) externals, ?_, ?_⟩, thread_setThread found threads, cells, externals⟩
  · intro u other
    rw [State.getElem?_setThread, if_neg (Ne.symm other), threads]
  · intro d task member
    rwa [← State.queueOf_of_cells cells]
  · intro e x known
    exact ⟨x, externals ▸ known, fun _ member => member⟩

theorem inert_runs {p : Prog V N S} (inert : p.Inert)
    (found : s.threads[t]? = some ⟨name, .run p, fs⟩) :
    ∃ s' e, Sweeps t W E s s' ∧ s'.threads[t]? = some ⟨name, .ended e, fs⟩ ∧ s'.cells = s.cells := by
  induction inert generalizing s with
  | note _ ih =>
    obtain ⟨s₁, first, found₁, cells₁, -⟩ := sweeps_of_next found rfl rfl rfl rfl rfl
    obtain ⟨s', e, rest, found', cells'⟩ := ih found₁
    exact ⟨s', e, first.trans rest, found', cells'.trans cells₁⟩
  | ask _ ih =>
    obtain ⟨s₁, first, found₁, cells₁, -⟩ := sweeps_of_next found rfl rfl rfl rfl rfl
    obtain ⟨s', e, rest, found', cells'⟩ := ih _ found₁
    exact ⟨s', e, first.trans rest, found', cells'.trans cells₁⟩
  | update _ ih =>
    obtain ⟨s₁, first, found₁, cells₁, -⟩ := sweeps_of_next found rfl rfl rfl rfl rfl
    obtain ⟨s', e, rest, found', cells'⟩ := ih found₁
    exact ⟨s', e, first.trans rest, found', cells'.trans cells₁⟩
  | _ =>
    obtain ⟨s', sweeps, found', cells, -⟩ := sweeps_of_next found rfl rfl rfl rfl rfl
    exact ⟨s', _, sweeps, found', cells⟩

theorem wakes_runs {x : ExternalId} {ws : List WakerId} {e : Ending V}
    (inert : ∀ w ∈ ws, ∀ p : Prog V N S, s.wakers[w]? = some p → p.Inert)
    (found : s.threads[t]? = some ⟨name, .ended e, .waking x ws :: fs⟩) :
    ∃ s' e', Sweeps t W E s s' ∧ s'.threads[t]? = some ⟨name, .ended e', fs⟩ ∧ s'.cells = s.cells := by
  induction ws generalizing s e with
  | nil =>
    cases e <;>
    · obtain ⟨s', sweeps, found', cells, -⟩ := sweeps_of_next found rfl rfl rfl rfl rfl
      exact ⟨s', _, sweeps, found', cells⟩
  | cons w ws ih =>
    have wakes (calm : e.Calm) : s.next t (.ended e) (.waking x (w :: ws) :: fs) =
        some ⟨s.log t (.woke x w), .run (s.wakers.getD w (.ret default)), .waking x ws :: fs⟩ := by
      cases e <;> first | rfl | exact calm.elim
    rcases e.calm_or_panicked with calm | ⟨payload, rfl⟩
    · obtain ⟨s₁, woke, found₁, cells₁, -⟩ :=
        sweeps_of_next (W := W) (E := E) found (wakes calm) rfl rfl rfl rfl
      have quiet : (s.wakers.getD w (.ret default)).Inert := by
        cases stored : s.wakers[w]? with
        | none =>
          rw [Array.getD_eq_getD_getElem?, stored]
          exact .ret default
        | some p =>
          rw [Array.getD_eq_getD_getElem?, stored]
          exact inert w (List.mem_cons_self ..) p stored
      obtain ⟨s₂, e₂, ran, found₂, cells₂⟩ := inert_runs (W := W) (E := E) quiet found₁
      have inert₂ : ∀ w ∈ ws, ∀ p : Prog V N S, s₂.wakers[w]? = some p → p.Inert := by
        rw [ran.wakers, woke.wakers]
        exact fun w member => inert w (List.mem_cons_of_mem _ member)
      obtain ⟨s', e', rest, found', cells'⟩ := ih inert₂ found₂
      exact ⟨s', e', (woke.trans ran).trans rest, found', cells'.trans (cells₂.trans cells₁)⟩
    · obtain ⟨s', sweeps, found', cells, -⟩ := sweeps_of_next found rfl rfl rfl rfl rfl
      exact ⟨s', _, sweeps, found', cells⟩

theorem settles_runs {e : ExternalId} {r : Reading V} (inert : ∀ x : External V,
      s.externals[e]? = some x → ∀ w ∈ x.wakers, ∀ p : Prog V N S, s.wakers[w]? = some p → p.Inert)
    (found : s.threads[t]? = some ⟨name, .settling e r none, fs⟩) (own : E e) :
    ∃ s' e', Sweeps t W E s s' ∧ s'.threads[t]? = some ⟨name, .ended e', fs⟩ ∧ s'.cells = s.cells := by
  cases held : s.externals[e]? with
  | none =>
    have next : s.next t (.settling e r none) fs = some ⟨s, .ended default, fs⟩ := by
      simp [State.next, State.settleExternal, held, lost]
    obtain ⟨s', sweeps, found', cells, -⟩ := sweeps_of_next found next rfl rfl rfl rfl
    exact ⟨s', _, sweeps, found', cells⟩
  | some x =>
    cases value : x.value with
    | some r' =>
      have next : s.next t (.settling e r none) fs =
          some ⟨s.log t (.refused e), .ended default, fs⟩ := by
        simp [State.next, State.settleExternal, held, value, lost]
      obtain ⟨s', sweeps, found', cells, -⟩ := sweeps_of_next found next rfl rfl rfl rfl
      exact ⟨s', _, sweeps, found', cells⟩
    | none =>
      let s₁ := ((s.modifyExternal e (·.settle r)).log t (.resolved e x.wakers.length)).setThread t
        ⟨name, .ended default, .waking e x.wakers :: fs⟩
      have moved : s.step t = some s₁ := by
        simp [step_of_found found, State.next, State.settleExternal, held, value, won, s₁]
      have found₁ : s₁.threads[t]? = some ⟨name, .ended default, .waking e x.wakers :: fs⟩ :=
        thread_setThread found rfl
      have externals (d : ExternalId) : s₁.externals[d]? =
          if e = d then some (x.settle r) else s.externals[d]? := by
        simp only [s₁, State.setThread, State.log, State.modifyExternal, Array.getElem?_modify]
        split
        next same => rw [← same, held]; rfl
        next => rfl
      have settled : Sweeps t W E s s₁ := by
        refine ⟨⟨1, by simp [State.run, State.move, moved]⟩, ?_, rfl, fun _ _ => rfl, ?_,
          fun _ _ member => member, ?_⟩
        · intro u other
          exact (State.getElem?_setThread ..).trans (if_neg (Ne.symm other))
        · intro d aside
          rw [externals, if_neg fun same : e = d => aside (same ▸ own)]
        · intro d x' known
          rw [externals] at known
          split at known
          next same =>
            cases known
            exact ⟨x, same ▸ held, fun _ member => by cases member⟩
          next => exact ⟨x', known, fun _ member => member⟩
      obtain ⟨s', e', woke, found', cells'⟩ := wakes_runs (s := s₁) (W := W) (E := E)
        (inert x held) found₁
      exact ⟨s', e', settled.trans woke, found', cells'⟩

theorem task_runs {c : CellId} {task : Task V N S} {o : Outcome V} {queue : List (Task V N S)}
    (harmless : s₀.Harmless s) (member : task ∈ s.queueOf c) {s₁ : State V N S}
    (taken : Sweeps t W (s₀.Fed c) s s₁) (serves : s₁.Serves c o queue)
    (found : s₁.threads[t]? = some ⟨name, .starting c task, fs⟩) :
    ∃ s' o', Sweeps t W (s₀.Fed c) s₁ s' ∧ s'.cells = s₁.cells ∧
      s'.threads[t]? = some ⟨name, .deciding task.result o' none, .finishing c task.result :: fs⟩ := by
  obtain ⟨-, ⟨stage, same⟩ | ⟨e, same, bridged⟩⟩ := harmless.queued c task member
  · rw [same] at found
    obtain ⟨s', ran, found', cells⟩ := stage_runs stage found serves
    exact ⟨s', _, .of_idle ran cells, cells, found'⟩
  · rw [same] at found
    have fed : s₀.Fed c e := ⟨c, .refl, bridged⟩
    obtain ⟨s₂, begun, found₂, cells₂, -⟩ :=
      sweeps_of_next (W := W) (E := s₀.Fed c) found rfl rfl rfl rfl rfl
    obtain ⟨cell, held, decided, -⟩ := serves
    have outcome : s₂.outcome? c = some o := by
      rw [State.outcome?, cells₂, ← State.outcome?, State.outcome?_of_found held, decided]
    let above : List (Frame V N S) := .capturing task.result :: .finishing c task.result :: fs
    have relays : s₂.next t (.relaying c e) above = some ⟨s₂, .settling e o.reading none, above⟩ := by
      simp [State.next, outcome]
    obtain ⟨s₃, relayed, found₃, cells₃, -⟩ :=
      sweeps_of_next (W := W) (E := s₀.Fed c) found₂ relays rfl rfl rfl rfl
    have harmless₃ := relayed.harmless (begun.harmless (taken.harmless harmless))
    obtain ⟨s₄, ending, settled, found₄, cells₄⟩ :=
      settles_runs (W := W) (harmless₃.wakers e) found₃ fed
    obtain ⟨s', captured, found', cells'⟩ := captures_runs ending found₄
    have cells : s'.cells = s₁.cells := cells'.trans (cells₄.trans (cells₃.trans cells₂))
    have whole := ((begun.trans relayed).trans settled).trans (.of_idle captured cells')
    exact ⟨s', _, whole, cells, found'⟩

/-- The dispatch of `c` is over in `s'`: it has swept what is below `c`, and all of that is at rest. -/
structure Clears (s₀ : State V N S) (t : ThreadId) (name : Option String) (fs : List (Frame V N S))
    (c : CellId) (s s' : State V N S) : Prop where
  sweeps : Sweeps t (s₀.Below c) (s₀.Fed c) s s'
  found : s'.threads[t]? = some ⟨name, .ended default, fs⟩
  rests : ∀ d, c ≤ d → d < s₀.cells.size → s'.Rests d

omit [Inhabited V] in
theorem State.Serves.queueOf {c : CellId} {o : Outcome V} {queue : List (Task V N S)}
    (serves : s.Serves c o queue) : s.queueOf c = queue := by
  obtain ⟨cell, found, -, queued, -⟩ := serves
  rw [State.queueOf_of_found found, queued]

/-- A step of the dispatch of `c` itself sweeps no other cell. -/
theorem sweeps_of_own {c : CellId} {events : List (Event N)} {causes : Nat}
    (alone : Alone t events causes s s') (own : W c)
    (fewer : ∀ task ∈ s'.queueOf c, task ∈ s.queueOf c)
    (same : ∀ d, d ≠ c → s'.cells[d]? = s.cells[d]?) : Sweeps t W E s s' := by
  refine .of_alone alone (fun d aside => same d fun here => aside (here ▸ own)) ?_
  intro d _ task member
  by_cases here : d = c
  · subst here
    exact fewer task member
  · rwa [← State.queueOf_of_cell (same d here)]

/-- Wherever the dispatch of `c` begins, with younger cells at rest, it clears what is below `c`. -/
def Clearing (s₀ : State V N S) (t : ThreadId) (name : Option String) (c : CellId) : Prop :=
  ∀ (s : State V N S) (fs : List (Frame V N S)) (o : Outcome V) (queue : List (Task V N S)),
    s₀.Harmless s → s.threads[t]? = some ⟨name, .draining c, fs⟩ → s.Serves c o queue →
      (∀ d, c < d → d < s₀.cells.size → s.Rests d) → ∃ s', Clears s₀ t name fs c s s'

theorem lands_runs {r : CellId} {o : Outcome V} (inside : r < s₀.cells.size) (harmless : s₀.Harmless s)
    (clearing : Clearing s₀ t name r) (found : s.threads[t]? = some ⟨name, .deciding r o none, fs⟩)
    (rests : ∀ d, r ≤ d → d < s₀.cells.size → s.Rests d) : ∃ s', Clears s₀ t name fs r s s' := by
  rcases rests r (Nat.le_refl r) inside with ⟨queue, pends⟩ | ⟨o', cell, held, decided, -⟩
  · obtain ⟨s₁, wins, found₁, serves, same⟩ := decides_runs found pends
    have queued : s₁.queueOf r = s.queueOf r := by
      obtain ⟨cell, held, -, known, -⟩ := pends
      rw [serves.queueOf, State.queueOf_of_found held, known]
    have first : Sweeps t (s₀.Below r) (s₀.Fed r) s s₁ :=
      sweeps_of_own wins .refl (fun _ member => queued ▸ member) same
    obtain ⟨s', clears⟩ := clearing _ _ _ _ (first.harmless harmless) found₁ serves
      fun d above known => (rests d (Nat.le_of_lt above) known).of_cell (same d (Nat.ne_of_gt above))
    exact ⟨s', first.trans clears.sweeps, clears.found, clears.rests⟩
  · have loses : s.next t (.deciding r o none) fs =
        some ⟨s.log t (.ignored r o.kind o'.kind), .ended default, fs⟩ := by
      simp [State.next, State.decideCell, held, decided, lost]
    obtain ⟨s', sweeps, found', cells, -⟩ := sweeps_of_next found loses rfl rfl rfl rfl
    exact ⟨s', sweeps, found', fun d above known =>
      (rests d above known).of_cell (congrArg (·[d]?) cells)⟩

theorem turn_runs (reachable : Reachable s₀) {c : CellId} {o : Outcome V} {task : Task V N S}
    {rest : List (Task V N S)} (younger : ∀ r, c < r → r < s₀.cells.size → Clearing s₀ t name r)
    (harmless : s₀.Harmless s) (found : s.threads[t]? = some ⟨name, .draining c, fs⟩)
    (serves : s.Serves c o (task :: rest)) (rests : ∀ d, c < d → d < s₀.cells.size → s.Rests d) :
    ∃ s', Sweeps t (s₀.Below c) (s₀.Fed c) s s' ∧
      s'.threads[t]? = some ⟨name, .draining c, fs⟩ ∧ s'.Serves c o rest ∧
      ∀ d, c < d → d < s₀.cells.size → s'.Rests d := by
  have member : task ∈ s.queueOf c := serves.queueOf ▸ List.mem_cons_self ..
  obtain ⟨child, -⟩ := harmless.queued c task member
  obtain ⟨after, known⟩ := child_younger reachable child
  obtain ⟨s₁, took, found₁, serves₁, same₁⟩ := takes_runs found serves
  have taken : Sweeps t (s₀.Below c) (s₀.Fed c) s s₁ := by
    refine sweeps_of_own took .refl (fun _ member => ?_) same₁
    rw [serves₁.queueOf] at member
    exact serves.queueOf ▸ List.mem_cons_of_mem _ member
  obtain ⟨s₂, o', ran, cells₂, found₂⟩ := task_runs harmless member taken serves₁ found₁
  have before (d : CellId) (above : c < d) (known : d < s₀.cells.size) : s₂.Rests d := by
    refine (rests d above known).of_cell ?_
    rw [cells₂, same₁ d (Nat.ne_of_gt above)]
  obtain ⟨s₃, clears⟩ := lands_runs known (ran.harmless (taken.harmless harmless))
    (younger task.result after known) found₂
    fun d above known => before d (Nat.lt_of_lt_of_le after above) known
  have aside (d : CellId) (above : d < task.result) : s₃.cells[d]? = s₂.cells[d]? :=
    clears.sweeps.cells d fun below => Nat.not_lt_of_le (below_le reachable below) above
  obtain ⟨s₄, finished, found₄, cells₄, -⟩ := sweeps_of_next clears.found rfl rfl rfl rfl rfl
  obtain ⟨s', looped, found', cells', -⟩ := sweeps_of_next found₄ rfl rfl rfl rfl rfl
  have cells : s'.cells = s₃.cells := cells'.trans cells₄
  have below : Sweeps t (s₀.Below c) (s₀.Fed c) s₂ s₃ := by
    refine clears.sweeps.mono (fun d below => .head child below) ?_
    exact fun e ⟨d, below, bridged⟩ => ⟨d, .head child below, bridged⟩
  have whole := (((taken.trans ran).trans below).trans finished).trans looped
  refine ⟨s', whole, found', ?_, ?_⟩
  · exact serves₁.of_cell (by rw [cells, aside c after, cells₂])
  · intro d above known
    rcases Nat.lt_or_ge d task.result with first | later
    · exact (before d above known).of_cell (by rw [cells, aside d first])
    · exact (clears.rests d later known).of_cell (by rw [cells])

/-- The dispatch of a cell clears all that is below it, if those of younger cells do. -/
theorem clearing_of_younger (reachable : Reachable s₀) {c : CellId}
    (younger : ∀ r, c < r → r < s₀.cells.size → Clearing s₀ t name r) : Clearing s₀ t name c := by
  intro s fs o queue harmless found serves rests
  induction queue generalizing s with
  | nil =>
    obtain ⟨s', emptied, found', closed, same⟩ := empties_runs found serves
    have none : s'.queueOf c = [] := by
      obtain ⟨cell, held, -, empty, -⟩ := closed
      rw [State.queueOf_of_found held, empty]
    refine ⟨s', sweeps_of_own emptied .refl (fun _ member => ?_) same, found', ?_⟩
    · rw [none] at member
      cases member
    · intro d above known
      rcases Nat.eq_or_lt_of_le above with rfl | above
      · exact Or.inr ⟨o, closed⟩
      · exact (rests d above known).of_cell (same d (Nat.ne_of_gt above))
  | cons task rest ih =>
    obtain ⟨s₁, turned, found₁, serves₁, rests₁⟩ :=
      turn_runs reachable younger harmless found serves rests
    obtain ⟨s', clears⟩ := ih s₁ (turned.harmless harmless) found₁ serves₁ rests₁
    exact ⟨s', turned.trans clears.sweeps, clears.found, clears.rests⟩

theorem drains (reachable : Reachable s₀) (c : CellId) : Clearing s₀ t name c := by
  suffices all : ∀ n c, s₀.cells.size ≤ c + n → Clearing s₀ t name c from
    all s₀.cells.size c (Nat.le_add_left _ _)
  -- On how many cells are younger than `c`.
  intro n
  induction n with
  | zero =>
    intro c room
    exact clearing_of_younger reachable fun r above known =>
      absurd (Nat.lt_trans above known) (Nat.not_lt_of_le room)
  | succ n ih =>
    intro c room
    refine clearing_of_younger reachable fun r above _ => ih r ?_
    calc s₀.cells.size ≤ c + (n + 1) := room
      _ = c + 1 + n := by rw [Nat.add_assoc, Nat.add_comm n 1]
      _ ≤ r + n := Nat.add_le_add_right above n

end Inhabited
end Oneshot
