import Oneshot.Proofs.Sweep

/-! # Effects flow downstream

When nothing is going on and all that waits is docile, a call that decides a cell changes that cell and
what descends from it, and nothing else; all of that is decided then.  So a derived cell that is
cancelled leaves no trace in its source (`effects_flow_down`). -/
set_option autoImplicit false
namespace Oneshot
variable {V N S : Type}

/-- What the continuation runs at most reads the cell `c`, and then comes to an ending. -/
def Task.Reads (c : CellId) : Task V N S → Prop
  | .chain _ body => ∃ reader : Reader V N, body = reader.code c
  | .transform _ f => ∃ readers : V → Reader V N, ∀ v, f v = (readers v).code c
  | .relay _ _ => True

/-- The bodies that wait at most read their sources, and the wakers that are stored do nothing. -/
structure State.Docile (s : State V N S) : Prop where
  bodies : ∀ c, ∀ task ∈ s.queueOf c, task.Reads c
  wakers : s.InertWakers

theorem stage_of_reads {c : CellId} {task : Task V N S} (reads : task.Reads c) :
    (∃ stage : Stage V N, task = stage.task c task.result) ∨ ∃ r e, task = .relay r e := by
  cases task with
  | chain r body =>
    obtain ⟨reader, rfl⟩ := reads
    exact Or.inl ⟨.chain reader, rfl⟩
  | transform r f =>
    obtain ⟨readers, same⟩ := reads
    obtain rfl := funext same
    exact Or.inl ⟨.transform readers, rfl⟩
  | relay r e => exact Or.inr ⟨r, e, rfl⟩

section Inhabited
variable [Inhabited V] {s s' : State V N S} {t : ThreadId} {name : Option String}
  {fs : List (Frame V N S)}

/-- What a call that decides `c` does from `s` to `s'`. -/
structure Downstream (s : State V N S) (t : ThreadId) (c : CellId) (s' : State V N S) : Prop where
  /-- A cell that is not `c` and does not descend from it is as it was, with its queue and its flag. -/
  cells : ∀ d, ¬ s.Below c d → s'.cells[d]? = s.cells[d]?
  externals : ∀ e, (∀ d, s.Below c d → ¬ s.Bridges d e) → s'.externals[e]? = s.externals[e]?
  sizes : s'.cells.size = s.cells.size ∧ s'.externals.size = s.externals.size
  others : ∀ u, u ≠ t → s'.threads[u]? = s.threads[u]?
  /-- All that descends from `c` is decided, and so is `c`. -/
  decided : ∀ d, s.Below c d → s'.outcome? d ≠ none
  /-- The same may be said of the next call. -/
  quiet : s'.Quiet
  docile : s'.Docile

/-- What cancelling `r`, which was derived from `c`, leaves of `c`. -/
structure LeavesSource (c r : CellId) (s s' : State V N S) : Prop where
  same : s'.cells[c]? = s.cells[c]?
  pending : s'.outcome? c = none
  counts : r ∈ (s'.queueOf c).map Task.result
  cancelled : s'.outcome? r = some ((s.outcome? r).getD .cancelled)
  /-- Once `c` is decided and the decision has returned, the continuation has run, once. -/
  ran : ∀ s'', Reaches s' s'' → s''.outcome? c ≠ none → (s''.ledger.view c).Returned c →
    s''.outcome? r = s'.outcome? r ∧ ∃ u, (s''.ledger.view c).trace.ran [r] = turn u c r

/-- Calls have no effect but downstream. -/
structure State.FlowsDown (s : State V N S) : Prop where
  made : ∀ c r, s.Child c r ↔ Made s c r
  decides : ∀ {t name c a k fs}, s.threads[t]? = some ⟨name, .run (.decide c a k), fs⟩ →
    s.admits c a = true → ∃ n s', s.run (List.replicate n (.step t)) = some s' ∧
      s'.Back t name (k (s.pending c)) fs ∧
      s'.outcome? c = some ((s.outcome? c).getD (a.outcome s.nextCause)) ∧ Downstream s t c s'
  cancels : ∀ {t name c r k fs}, s.threads[t]? = some ⟨name, .run (.decide r .cancel k), fs⟩ →
    s.Child c r → s.outcome? c = none → ∃ n s', s.run (List.replicate n (.step t)) = some s' ∧
      s'.Back t name (k (s.pending r)) fs ∧ LeavesSource c r s s'

theorem harmless_of_docile (reachable : Reachable s) (docile : s.Docile) : s.Harmless s where
  queued c task member := by
    refine ⟨child_of_queue reachable member, ?_⟩
    rcases stage_of_reads (docile.bodies c task member) with stage | ⟨r, e, rfl⟩
    · exact Or.inl stage
    · exact Or.inr ⟨e, rfl, (wellBridged_of_reachable reachable).queued c r e member⟩
  wakers := docile.wakers

theorem rests_of_quiet (reachable : Reachable s) (quiet : s.Quiet) {c : CellId}
    (inside : c < s.cells.size) : s.Rests c := by
  have held : s.cells[c]? = some s.cells[c] := Array.getElem?_eq_getElem inside
  have outcome := State.outcome?_of_found held
  cases decided : s.cells[c].outcome with
  | none =>
    have undecided : (s.ledger.view c).decided = false := by
      simp [Ledger.view, State.ledger, outcome, decided]
    refine Or.inl ⟨_, _, held, decided, rfl, ?_⟩
    rw [← State.dispatches_of_found held]
    cases phase_of_reachable reachable c with
    | pending _ idle => exact idle
    | announcing _ closed => cases undecided.symm.trans closed
    | dispatching _ _ closed => cases undecided.symm.trans closed
    | running _ _ _ closed => cases undecided.symm.trans closed
    | closed _ _ closed => cases undecided.symm.trans closed
  | some o =>
    obtain ⟨empty, idle⟩ := idle_of_quiet reachable quiet (c := c) (by rw [outcome, decided]; simp)
    rw [State.queueOf_of_found held] at empty
    rw [State.dispatches_of_found held] at idle
    exact Or.inr ⟨o, _, held, decided, empty, idle⟩

theorem docile_of_sweeps {W : CellId → Prop} {E : ExternalId → Prop} (sweeps : Sweeps t W E s s')
    (docile : s.Docile) : s'.Docile where
  bodies c task member := docile.bodies c task (sweeps.queues c task member)
  wakers := sweeps.inert docile.wakers

theorem decide_sweeps (reachable : Reachable s) (quiet : s.Quiet) (docile : s.Docile) {c : CellId}
    {a : Attempt V} {k : Bool → Prog V N S}
    (found : s.threads[t]? = some ⟨name, .run (.decide c a k), fs⟩) (admitted : s.admits c a = true) :
    ∃ s', Sweeps t (s.Below c) (s.Fed c) s s' ∧ s'.Back t name (k (s.pending c)) fs ∧
      s'.outcome? c = some ((s.outcome? c).getD (a.outcome s.nextCause)) := by
  have inside := admits_inside admitted
  obtain ⟨s₁, asked, found₁, cells₁, -⟩ := sweeps_of_next (W := s.Below c) (E := s.Fed c) found
    (asks_next t fs admitted) rfl rfl rfl rfl
  have rests {d : CellId} (known : d < s.cells.size) : s₁.Rests d :=
    (rests_of_quiet reachable quiet known).of_cell (by rw [cells₁])
  have before : s₁.cells[c]? = s.cells[c]? := by rw [cells₁]
  rcases rests inside with ⟨queue, pends⟩ | ⟨o, cell, held, decided, -⟩
  · obtain ⟨s₂, wins, found₂, serves, same⟩ := decides_runs found₁ pends
    have queued : s₂.queueOf c = s₁.queueOf c := by
      obtain ⟨cell, held, -, known, -⟩ := pends
      rw [serves.queueOf, State.queueOf_of_found held, known]
    have first : Sweeps t (s.Below c) (s.Fed c) s₁ s₂ :=
      sweeps_of_own wins .refl (fun _ member => queued ▸ member) same
    have whole := asked.trans first
    obtain ⟨s₃, clears⟩ := drains reachable c _ _ _ _
      (whole.harmless (harmless_of_docile reachable docile)) found₂ serves
      fun d above known => (rests known).of_cell (same d (Nat.ne_of_gt above))
    obtain ⟨s', resumed, found', -⟩ := sweeps_of_next clears.found rfl rfl rfl rfl rfl
    have rest := clears.sweeps.trans resumed
    obtain ⟨cell, held, undecided, -⟩ := pends
    rw [before] at held
    refine ⟨s', whole.trans rest, ?_, ?_⟩
    · have pending : s.pending c = true := by simp [State.pending, held, undecided]
      rw [pending]
      exact found'
    · obtain ⟨cell₂, held₂, decided, -⟩ := serves
      have outcome := State.outcome?_of_found held₂
      have kept := (extends_of_reaches rest.reaches).outcomes c (by rw [outcome, decided]; simp)
      rw [kept, outcome, decided, State.outcome?_of_found held, undecided]
      rfl
  · have loses : s₁.next t (.deciding c (a.outcome s.nextCause) (some k)) fs =
        some ⟨s₁.log t (.ignored c (a.outcome s.nextCause).kind o.kind), .run (k false), fs⟩ := by
      simp [State.next, State.decideCell, held, decided, lost]
    obtain ⟨s', sweeps, found', cells', -⟩ := sweeps_of_next found₁ loses rfl rfl rfl rfl
    rw [before] at held
    refine ⟨s', asked.trans sweeps, ?_, ?_⟩
    · have pending : s.pending c = false := by simp [State.pending, held, decided]
      rw [pending]
      exact found'
    · rw [State.outcome?, cells', before, ← State.outcome?, State.outcome?_of_found held, decided]
      rfl

theorem quiet_of_sweeps {W : CellId → Prop} {E : ExternalId → Prop} {p q : Prog V N S}
    (quiet : s.Quiet) (sweeps : Sweeps t W E s s') (found : s.threads[t]? = some ⟨name, .run p, fs⟩)
    (back : s'.Back t name q fs) : s'.Quiet := by
  intro u
  by_cases own : u = t
  · subst own
    have before := quiet u
    rw [State.duties_of_found found] at before
    rw [State.duties_of_found back]
    exact before
  · rw [State.duties, sweeps.others u own]
    exact quiet u

theorem below_inside (reachable : Reachable s) {c d : CellId} (below : s.Below c d)
    (inside : c < s.cells.size) : d < s.cells.size := by
  cases below with
  | refl => exact inside
  | tail _ child => exact (child_younger reachable child).2

theorem downstream_of_sweeps (reachable : Reachable s) (quiet : s.Quiet) (docile : s.Docile)
    {c : CellId} {p q : Prog V N S} (inside : c < s.cells.size)
    (sweeps : Sweeps t (s.Below c) (s.Fed c) s s')
    (found : s.threads[t]? = some ⟨name, .run p, fs⟩) (back : s'.Back t name q fs)
    (decided : s'.outcome? c ≠ none) : Downstream s t c s' := by
  have later := extends_of_reaches sweeps.reaches
  have quiet' := quiet_of_sweeps quiet sweeps found back
  have reachable' := reachable_of_reaches reachable sweeps.reaches
  have unfed {e : ExternalId} (apart : ∀ d, s.Below c d → ¬ s.Bridges d e) : ¬ s.Fed c e :=
    fun ⟨d, below, bridged⟩ => apart d below bridged
  refine ⟨sweeps.cells, fun e apart => sweeps.externals e (unfed apart), ⟨?_, ?_⟩, sweeps.others, ?_,
    quiet', docile_of_sweeps sweeps docile⟩
  · have last := sweeps.cells s.cells.size fun below =>
      Nat.lt_irrefl _ (below_inside reachable below inside)
    rw [Array.getElem?_eq_none (Nat.le_refl _)] at last
    exact Nat.le_antisymm (Array.getElem?_eq_none_iff.mp last) later.cells
  · have last := sweeps.externals s.externals.size <| unfed fun d _ bridged =>
      Nat.lt_irrefl _ ((wellBridged_of_reachable reachable).inside d _ bridged)
    rw [Array.getElem?_eq_none (Nat.le_refl _)] at last
    exact Nat.le_antisymm (Array.getElem?_eq_none_iff.mp last) later.externals
  · intro d below
    refine decided_of_below reachable' quiet' ?_ decided
    exact Relation.ReflTransGen.mono
      (fun _ _ child => registered_of_reaches reachable sweeps.reaches child) _ _ below

theorem effects_flow_down (reachable : Reachable s) (quiet : s.Quiet) (docile : s.Docile) :
    s.FlowsDown := by
  refine ⟨fun c r => child_iff_made reachable, ?_, ?_⟩
  · intro t name c a k fs found admitted
    obtain ⟨s', sweeps, back, outcome⟩ := decide_sweeps reachable quiet docile found admitted
    obtain ⟨n, ran⟩ := sweeps.run
    exact ⟨n, s', ran, back, outcome, downstream_of_sweeps reachable quiet docile
      (admits_inside admitted) sweeps found back (by rw [outcome]; simp)⟩
  · intro t name c r k fs found child undecided
    obtain ⟨younger, inside⟩ := child_younger reachable child
    have admitted : s.admits r .cancel = true := by
      simp [State.admits, Array.getElem?_eq_getElem inside, Attempt.needsPromise]
    obtain ⟨s', sweeps, back, outcome⟩ := decide_sweeps reachable quiet docile found admitted
    obtain ⟨n, ran⟩ := sweeps.run
    have reachable' := reachable_of_reaches reachable sweeps.reaches
    have same : s'.cells[c]? = s.cells[c]? :=
      sweeps.cells c fun below => Nat.not_le_of_lt younger (below_le reachable below)
    have pending : s'.outcome? c = none := by
      rw [State.outcome?, same, ← State.outcome?, undecided]
    refine ⟨n, s', ran, back, same, pending, ?_, outcome, ?_⟩
    · rw [State.queueOf_of_cell same]
      exact queue_of_child reachable child undecided
    · intro s'' reached decided returned
      refine ⟨(extends_of_reaches reached).outcomes r (by rw [outcome]; simp), ?_⟩
      have course := (orderly_of_reachable (reachable_of_reaches reachable' reached)).course c
      exact ran_of_returned course (Option.isSome_iff_ne_none.mpr decided) returned r
        (registered_of_reaches reachable (sweeps.reaches.trans reached) child)

/-- A continuation is cancelled that has a transformation and a bridge behind it. -/
def cancelledReader : Prog Nat Empty Unit :=
  .newCell none fun c => .chain c (.get c fun _ => .ret 1) fun r => .transform r .ret fun _ =>
    .newWaker (.ret 0) fun w => .relay r fun e => .poll e w fun _ =>
      .decide r .cancel fun _ => .ret 0

def readerWaits : State Nat Empty Unit :=
  ((State.start () cancelledReader).run (List.replicate 6 (.step 0))).getD (.start () cancelledReader)

theorem docile_readerWaits : readerWaits.Docile where
  bodies c task member := by
    rcases c with _ | _ | _ | _ | c
    · obtain rfl : task = .chain 1 (.get 0 fun _ => .ret 1) := List.mem_singleton.mp member
      exact ⟨.get fun _ => .ret 1, rfl⟩
    · rcases List.mem_cons.mp member with rfl | member
      · exact ⟨fun v => .ret v, fun _ => rfl⟩
      · obtain rfl : task = .relay 3 0 := List.mem_singleton.mp member
        trivial
    · cases member
    · cases member
    · have missing : readerWaits.cells[c + 4]? = none :=
        Array.getElem?_eq_none (Nat.le_add_left 4 c)
      rw [State.queueOf, missing] at member
      cases member
  wakers e x found w member p stored := by
    cases e with
    | zero =>
      cases found
      obtain rfl := List.mem_singleton.mp member
      cases stored
      exact .ret 0
    | succ e =>
      have missing : readerWaits.externals[e + 1]? = none :=
        Array.getElem?_eq_none (Nat.le_add_left 1 e)
      cases missing.symm.trans found

theorem effects_flow_down_cancelled : Reachable readerWaits ∧ readerWaits.Quiet ∧ readerWaits.Docile ∧
    readerWaits.Child 0 1 ∧ readerWaits.Below 1 3 ∧ readerWaits.outcome? 0 = none ∧
      readerWaits.FlowsDown := by
  have reachable : Reachable readerWaits := ⟨(), cancelledReader, List.replicate 6 (.step 0), rfl⟩
  have quiet : readerWaits.Quiet := by
    intro t
    cases t with
    | zero => rfl
    | succ t =>
      have missing : readerWaits.threads[t + 1]? = none :=
        Array.getElem?_eq_none (Nat.le_add_left 1 t)
      rw [State.duties, missing]
  have child : readerWaits.Child 0 1 := List.mem_singleton.mpr rfl
  have bridge : readerWaits.Child 1 3 := List.mem_cons_of_mem _ (List.mem_singleton.mpr rfl)
  exact ⟨reachable, quiet, docile_readerWaits, child, .single bridge, rfl,
    effects_flow_down reachable quiet docile_readerWaits⟩

end Inhabited
end Oneshot
