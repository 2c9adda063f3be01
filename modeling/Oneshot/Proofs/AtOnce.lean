import Oneshot.Proofs.Endings
import Oneshot.Proofs.DrainLoop

/-! # Registrations at a decided cell

Decided and done with dispatching are two things.  A registration at a decided cell whose dispatch is over
runs its continuation inside the call: when the call comes back, what it made can be read at once.  While
the dispatch still goes on, the continuation queues behind all that wait, and the call comes back before
anything of it has run (`registration_at_once`). -/
set_option autoImplicit false
namespace Oneshot
variable {V N S : Type}

section Inhabited
variable [Inhabited V] {s s' : State V N S} {t : ThreadId} {name : Option String} {c : CellId}
  {x : Object} {task : Task V N S} {p q : Prog V N S} {fs : List (Frame V N S)}

/-- From here on nobody waits for `x`: every look at it and every poll finds a reading. -/
structure Readable (s : State V N S) (x : Object) : Prop where
  held : s.holds? x ≠ none
  looks : ∀ s', Reaches s s' → ∀ {u name w fs}, s'.threads[u]? = some ⟨name, .checking w, fs⟩ →
    .cell w.cell = x → ∃ s'', s'.move (.step u) = some s'' ∧ s''.Told u name w.cell w.resume fs
  polls : ∀ s', Reaches s s' → ∀ {u name e w k fs},
    s'.threads[u]? = some ⟨name, .run (.poll e w k), fs⟩ → .external e = x →
    ∃ s'' r, s'.move (.step u) = some s'' ∧ s.settled? e = some r ∧ s''.Back u name (k (some r)) fs

/-- The continuation runs inside the call that begins in the step to `s₁`. -/
structure RunsInside (t : ThreadId) (name : Option String) (c r : CellId) (x : Object)
    (q : Prog V N S) (fs : List (Frame V N S)) (s₁ : State V N S) : Prop where
  started : (t, .started c r) ∈ s₁.marks
  returns : ∀ ms, Until (State.In t name q fs) (State.Back t name q fs) s₁ ms
  after : ∀ s', Reaches s₁ s' → s'.Back t name q fs → (t, .finished c r) ∈ s'.marks ∧ Readable s' x

/-- The call is over with the step from `s` to `s₁`, and its continuation waits behind the others. -/
structure PutOff (t : ThreadId) (name : Option String) (c : CellId) (task : Task V N S) (x : Object)
    (q : Prog V N S) (fs : List (Frame V N S)) (s s₁ : State V N S) : Prop where
  back : s₁.Back t name q fs
  queued : s₁.queueOf c = s.queueOf c ++ [task]
  undecided : s₁.holds? x = none

theorem readable_of_held (held : s.holds? x ≠ none) : Readable s x := by
  refine ⟨held, ?_, ?_⟩
  · rintro s' reached u name w fs found rfl
    have decided : s.outcome? w.cell ≠ none := by
      intro undecided
      rw [State.holds?, undecided] at held
      exact held rfl
    exact checks_outcome found (Or.inl rfl) ((extends_of_reaches reached).decided decided)
  · rintro s' reached u name e w k fs found rfl
    obtain ⟨r, settled⟩ := Option.ne_none_iff_exists'.mp held
    have later : s'.settled? e = some r :=
      (extends_of_reaches reached).holds (x := .external e) settled
    obtain ⟨y, inside, value⟩ := Option.bind_eq_some_iff.mp later
    have moved : s'.step u = some (s'.setThread u ⟨name, .run (k (some r)), fs⟩) := by
      simp [step_of_found found, State.next, State.perform, State.pollExternal, inside, value]
    exact ⟨_, r, moved, settled, thread_setThread found rfl⟩

omit [Inhabited V] in
theorem inside_of_frameDuties {r : CellId} (stacked : Stacked s fs)
    (member : .inline c r ∈ frameDuties fs) : r < s.cells.size := by
  induction fs with
  | nil => cases member
  | cons frame fs ih =>
    cases frame with
    | finishing b r' =>
      rcases List.mem_cons.mp member with first | below
      · rcases ofRun_cases b r' fs with queued | inline
        · rw [queued] at first
          cases first
        · rw [inline] at first
          cases first
          exact stacked.1.2.1
      · exact ih stacked.2 below
    | draining b =>
      rcases List.mem_cons.mp member with first | below
      · cases first
      · exact ih stacked.2 below
    | _ => exact ih stacked.2 member

theorem mark_of_reaches (reachable : Reachable s) (reached : Reaches s s') {entry : ThreadId × Mark}
    (member : entry ∈ s.marks) : entry ∈ s'.marks := by
  refine keeps_of_reaches (P := fun s => entry ∈ s.marks) reachable reached member ?_
  intro s s' reachable member advance
  obtain ⟨new, grown⟩ := suffix_of_posts (posts_of_advance advance (sound_of_reachable reachable))
  have grown : s'.marks = new ++ s.marks := grown
  rw [grown]
  exact List.mem_append_right _ member

omit [Inhabited V] in
theorem not_deciding_of_free {w : View} (phase : Phase c w) (free : w.dispatches = false)
    (u : ThreadId) : ¬ w.Deciding c u := by
  cases phase with
  | pending _ _ duties => simp [View.Deciding, duties]
  | announcing _ _ busy => cases busy.symm.trans free
  | dispatching _ _ _ busy => cases busy.symm.trans free
  | running _ _ _ _ busy => cases busy.symm.trans free
  | closed _ _ _ _ _ _ nested =>
    rintro (announces | dispatches)
    · obtain ⟨r, same⟩ := nested.inline announces
      cases same
    · obtain ⟨r, same⟩ := nested.inline dispatches
      cases same

/-- All that a registration does first is to enter the critical section of its cell. -/
theorem registration_next (t : ThreadId) (fs : List (Frame V N S))
    (registers : p.task? s = some (c, task)) (goes : p.goesOn? s = some q) :
    ∃ s₀, Opens s t s₀ ∧ s.next t (.run p) fs = some (s₀.register t c task q fs) := by
  cases p with
  | chain b body k =>
    cases registers
    cases goes
    exact ⟨s, .atOnce, rfl⟩
  | transform b f k =>
    cases registers
    cases goes
    exact ⟨s, .atOnce, rfl⟩
  | relay b k =>
    cases registers
    cases goes
    exact ⟨_, .bridge c, rfl⟩
  | _ => cases registers

omit [Inhabited V] in
theorem derives_of_task? (call : p.derives? s = some (c, x)) (registers : p.task? s = some (c, task)) :
    x = .cell task.result ∨ ∃ k, p = .relay c k ∧ x = .external s.externals.size := by
  cases p with
  | chain b body k => cases call; cases registers; exact Or.inl rfl
  | transform b f k => cases call; cases registers; exact Or.inl rfl
  | relay b k => cases call; exact Or.inr ⟨k, rfl, rfl⟩
  | _ => cases call

omit [Inhabited V] in
theorem goesOn_of_relay {k : ExternalId → Prog V N S} (goes : (Prog.relay c k).goesOn? s = some q) :
    k s.externals.size = q :=
  Option.some.inj goes

omit [Inhabited V] in
theorem inlines_of_free {s₀ : State V N S} {cell : Cell V N S} (opens : Opens s t s₀)
    (found : s.cells[c]? = some cell) (free : cell.queues = false) :
    (s₀.register t c task q fs).state.marks =
      (t, .started c task.result) :: (t, .inlined c task.result) :: s.marks := by
  have same : (s₀.addCell .derived).marks = s.marks := by cases opens <;> rfl
  have held : s₀.cells[c]? = some cell := opens.cells ▸ found
  simp only [State.register, held, free]
  rw [← same]
  rfl

omit [Inhabited V] in
theorem queues_of_busy (task : Task V N S) (q : Prog V N S) (fs : List (Frame V N S))
    {s₀ : State V N S} {cell : Cell V N S} (opens : Opens s t s₀)
    (found : s.cells[c]? = some cell) (waits : cell.queues = true) :
    (s₀.register t c task q fs).doing = .run q ∧ (s₀.register t c task q fs).frames = fs ∧
      (s₀.register t c task q fs).state.queueOf c = s.queueOf c ++ [task] := by
  have held : s₀.cells[c]? = some cell := opens.cells ▸ found
  have queued := State.queueOf_replaceCell (opens.found_addCell .derived found) (·.enqueue task) c
  rw [if_pos rfl] at queued
  simp only [State.register, held, waits, if_true]
  refine ⟨trivial, trivial, ?_⟩
  rw [State.queueOf_of_found found]
  exact queued

/-- A continuation whose registration runs it has finished when the call is back. -/
theorem finished_of_back (reachable : Reachable s) (stacked : Stacked s fs)
    {s₁ : State V N S} (reached : Reaches s s₁) (inlined : (t, .inlined c s.cells.size) ∈ s₁.marks)
    (later : Reaches s₁ s') (back : s'.Back t name q fs) :
    (t, .finished c s.cells.size) ∈ s'.marks := by
  have reachable₁ := reachable_of_reaches reachable reached
  have orderly := orderly_of_reachable (reachable_of_reaches reachable₁ later)
  have recorded : (t, Mark.inlined c s.cells.size) ∈ (s'.ledger.view c).trace :=
    mem_traceOf.mpr ⟨mark_of_reaches reachable₁ later inlined, rfl⟩
  rcases life_of_inlined (orderly.course c) recorded with ⟨-, inside⟩ | ended
  · -- Back in its caller the thread is only in continuations that there were before.
    have duties : s'.duties t = frameDuties fs := State.duties_of_found back
    have member : .inline c s.cells.size ∈ about c (s'.duties t) := inside
    rw [duties] at member
    have old := inside_of_frameDuties stacked (List.mem_filter.mp member).1
    exact absurd old (Nat.lt_irrefl _)
  · have finished : (t, Mark.finished c s.cells.size) ∈
        (s'.ledger.view c).trace.life s.cells.size := by
      rw [ended]
      simp
    exact (mem_traceOf.mp (List.mem_filter.mp finished).1).1

theorem settled_of_back (reachable : Reachable s) {e : ExternalId} (inside : e < s.externals.size)
    (coming : s.Coming t name c e q fs) (decided : s.outcome? c ≠ none)
    (idle : s.dispatches c = false) (later : Reaches s s') (back : s'.Back t name q fs) :
    s'.settled? e ≠ none := by
  have reachable' := reachable_of_reaches reachable later
  have underway := underway_of_back (coming_of_reaches reachable later inside coming) back
  have cleared := (closed_of_reaches reachable decided idle later).2
  refine settled_of_underway (orderly_of_reachable reachable') underway
    ((extends_of_reaches later).decided decided) ?_
  rintro ⟨u, deciding⟩
  exact not_deciding_of_free (phase_of_reachable reachable' c) cleared u deciding

theorem runsInside_of_idle (reachable : Reachable s)
    (found : s.threads[t]? = some ⟨name, .run p, fs⟩) (call : p.derives? s = some (c, x))
    (registers : p.task? s = some (c, task)) (goes : p.goesOn? s = some q)
    (decided : s.outcome? c ≠ none) (idle : s.dispatches c = false)
    (moved : s.move (.step t) = some s') :
    RunsInside t name c task.result x q fs s' := by
  have result : task.result = s.cells.size := task_result registers
  have reached : Reaches s s' := .of_move moved
  have reachable' := reachable_of_reaches reachable reached
  obtain ⟨cell, held⟩ := State.found_of_outcome? decided
  have free : cell.queues = false := by
    refine Cell.queues_eq_false_iff.mpr ⟨?_, (State.dispatches_of_found held).symm.trans idle⟩
    rw [State.outcome?_of_found held] at decided
    exact Option.ne_none_iff_exists'.mp decided
  obtain ⟨s₀, opens, next⟩ := registration_next t fs registers goes
  have stepped : s' = _ := Option.some.inj (moved.symm.trans (step_of_next found next))
  have marks : s'.marks = (t, .started c task.result) :: (t, .inlined c task.result) :: s.marks := by
    rw [stepped]
    exact inlines_of_free opens held free
  obtain ⟨s₁, moved', returns⟩ := registration_back reachable found goes
  cases moved.symm.trans moved'
  refine ⟨by rw [marks]; exact List.mem_cons_self .., returns, ?_⟩
  intro s'' later back
  have stacked := ((sound_of_reachable reachable).threads t _ found).stacked
  have inlined : (t, .inlined c s.cells.size) ∈ s'.marks := by
    rw [marks, result]
    exact List.mem_cons_of_mem _ (List.mem_cons_self ..)
  have finished := finished_of_back reachable stacked reached inlined later back
  rw [← result] at finished
  refine ⟨finished, readable_of_held ?_⟩
  rcases derives_of_task? call registers with rfl | ⟨k, rfl, rfl⟩
  · have orderly := orderly_of_reachable (reachable_of_reaches reachable' later)
    have landed := orderly.landed t c task.result finished
    rw [State.holds?, Ne, Option.map_eq_none_iff]
    exact Option.isSome_iff_ne_none.mp landed
  · obtain ⟨has, -, -, coming⟩ :=
      coming_of_relay found (State.inside_of_outcome? decided) moved
    rw [goesOn_of_relay goes] at coming
    have closed := closed_of_reaches reachable decided idle reached
    exact settled_of_back reachable' has coming ((extends_of_reaches reached).decided decided)
      closed.2 later back

theorem putOff_of_busy (found : s.threads[t]? = some ⟨name, .run p, fs⟩)
    (call : p.derives? s = some (c, x)) (registers : p.task? s = some (c, task))
    (goes : p.goesOn? s = some q) (busy : s.dispatches c = true)
    (moved : s.move (.step t) = some s') : PutOff t name c task x q fs s s' := by
  obtain ⟨cell, held⟩ : ∃ cell, s.cells[c]? = some cell := by
    cases held : s.cells[c]? with
    | none => simp [State.dispatches, held] at busy
    | some cell => exact ⟨cell, rfl⟩
  have waits : cell.queues = true := by
    have flag : cell.dispatching = true := (State.dispatches_of_found held).symm.trans busy
    rw [Cell.queues, flag, Bool.or_true]
  obtain ⟨s₀, opens, next⟩ := registration_next t fs registers goes
  have stepped : s' = _ := Option.some.inj (moved.symm.trans (step_of_next found next))
  obtain ⟨run, rest, queued⟩ := queues_of_busy task q fs opens held waits
  have transition := transition_of_next next
  refine ⟨?_, ?_, ?_⟩
  · rw [stepped, run, rest]
    exact thread_after transition found
  · rw [stepped]
    exact queued
  · rcases derives_of_task? call registers with rfl | ⟨k, rfl, rfl⟩
    · have held₀ : s₀.cells[c]? = some cell := opens.cells ▸ held
      have derived := derived_of_register task fs held₀ q (t := t)
      rw [opens.cells, ← task_result registers] at derived
      rw [State.holds?, Option.map_eq_none_iff, stepped]
      exact State.outcome?_of_found derived
    · exact (coming_of_relay found (Array.getElem?_eq_some_iff.mp held).1 moved).2.1

/-- A registration at a decided cell runs its continuation before it comes back when the dispatch of
the cell is over, and puts it off when it is not. -/
theorem registration_at_once (reachable : Reachable s)
    (found : s.threads[t]? = some ⟨name, .run p, fs⟩) (call : p.derives? s = some (c, x))
    (registers : p.task? s = some (c, task)) (goes : p.goesOn? s = some q)
    (decided : s.outcome? c ≠ none) :
    ∃ s₁, s.move (.step t) = some s₁ ∧
      (s.dispatches c = false → RunsInside t name c task.result x q fs s₁) ∧
        (s.dispatches c = true → PutOff t name c task x q fs s s₁) := by
  obtain ⟨s₁, moved, -⟩ := registration_back reachable found goes
  refine ⟨s₁, moved, fun idle => ?_, fun busy => ?_⟩
  · exact runsInside_of_idle reachable found call registers goes decided idle moved
  · exact putOff_of_busy found call registers goes busy moved

/-- A continuation registers another at its own cell, which is being dispatched, and reads what it has
made. -/
def readsItsOwn : Prog Nat Empty Unit :=
  .newCell none fun c =>
    .chain c (.chain c (.ret 1) fun r => .get r fun _ => .ret 2) fun _ =>
      .decide c (.complete 5) fun _ => .ret 0

/-- A continuation makes a bridge from another cell, which is decided and not being dispatched. -/
def bridgesAnother : Prog Nat Empty Unit :=
  .newCell (some (.complete 5)) fun c =>
    .newCell none fun d =>
      .chain d (.relay c fun _ => .ret 1) fun _ => .decide d (.complete 6) fun _ => .ret 0

theorem registration_at_once_nested :
    (∃ (s s₁ : State Nat Empty Unit) (name : Option String) (task : Task Nat Empty Unit)
      (q : Prog Nat Empty Unit) (fs : List (Frame Nat Empty Unit)), Reachable s ∧
        s.outcome? 0 ≠ none ∧ PutOff 0 name 0 task (.cell 2) q fs s s₁) ∧
    ∃ (s s₁ : State Nat Empty Unit) (name : Option String) (q : Prog Nat Empty Unit)
      (fs : List (Frame Nat Empty Unit)), Reachable s ∧ s.outcome? 0 ≠ none ∧
        s.dispatches 1 = true ∧ RunsInside 0 name 0 3 (.external 0) q fs s₁ := by
  constructor
  · have reachable : Reachable _ := ⟨(), readsItsOwn, List.replicate 7 (.step 0), rfl⟩
    obtain ⟨s₁, -, -, putOff⟩ := registration_at_once (t := 0) reachable rfl rfl rfl rfl
      (show State.outcome? _ 0 ≠ none from fun none => by cases none)
    exact ⟨_, s₁, _, _, _, _, reachable, (fun none => by cases none), putOff rfl⟩
  · have reachable : Reachable _ := ⟨(), bridgesAnother, List.replicate 8 (.step 0), rfl⟩
    obtain ⟨s₁, -, inside, -⟩ := registration_at_once (t := 0) reachable rfl rfl rfl rfl
      (show State.outcome? _ 0 ≠ none from fun none => by cases none)
    exact ⟨_, s₁, _, _, _, reachable, (fun none => by cases none), rfl, inside rfl⟩

/-- The only thread there is reads an undecided cell, without a limit. -/
structure Stuck (w : Wait V N S) (s : State V N S) : Prop where
  only : s.threads.size = 1
  reads : ∃ name d fs, s.threads[0]? = some ⟨name, d, fs⟩ ∧
    (d = .run (.get w.cell w.resume) ∨ d = .checking w ∨ d = .asleep w)
  unlimited : w.limit = none
  has : w.cell < s.cells.size
  undecided : s.outcome? w.cell = none

omit [Inhabited V] in
/-- Only who waits has changed, and how far the read is. -/
theorem Stuck.goesOn {w : Wait V N S} {s₁ : State V N S} (stuck : Stuck w s)
    (threads : s₁.threads = s.threads) (size : s₁.cells.size = s.cells.size)
    (same : s₁.outcome? w.cell = s.outcome? w.cell) (name : Option String) {d : Doing V N S}
    (fs : List (Frame V N S))
    (reads : d = .run (.get w.cell w.resume) ∨ d = .checking w ∨ d = .asleep w) :
    Stuck w (s₁.setThread 0 ⟨name, d, fs⟩) := by
  have inside : 0 < s.threads.size := by rw [stuck.only]; omega
  refine ⟨?_, ⟨name, d, fs, ?_, reads⟩, stuck.unlimited, ?_, same.trans stuck.undecided⟩
  · rw [State.setThread, Array.size_setIfInBounds, threads, stuck.only]
  · exact thread_setThread (Array.getElem?_eq_getElem inside) threads
  · have has : w.cell < s₁.cells.size := size.symm ▸ stuck.has
    exact has

omit [Inhabited V] in
theorem Stuck.thread_eq {w : Wait V N S} (stuck : Stuck w s) {thread : Thread V N S}
    (found : s.threads[t]? = some thread) : t = 0 := by
  have inside := (Array.getElem?_eq_some_iff.mp found).1
  rw [stuck.only] at inside
  exact Nat.lt_one_iff.mp inside

theorem stuck_of_step {w : Wait V N S} (stuck : Stuck w s) (moved : s.step t = some s') :
    Stuck w s' := by
  obtain ⟨thread, n, found, next, rfl⟩ := next_of_step moved
  obtain rfl := stuck.thread_eq found
  obtain ⟨name, d, fs, found', reads⟩ := stuck.reads
  cases found.symm.trans found'
  have unlimited : (⟨w.cell, none, w.resume⟩ : Wait V N S) = w := by rw [← stuck.unlimited]
  rcases reads with rfl | rfl | rfl
  · cases next
    rw [unlimited]
    exact stuck.goesOn rfl rfl rfl name fs (Or.inr (Or.inl rfl))
  · obtain ⟨cell, held, ⟨-, rfl⟩ | ⟨o, decided, rfl⟩⟩ := check_cases next
    · let slept : State V N S := s.modifyCell w.cell (·.sleep 0)
      have threads : slept.threads = s.threads := rfl
      have size : slept.cells.size = s.cells.size := State.size_modifyCell s _ _
      have same : slept.outcome? w.cell = s.outcome? w.cell :=
        State.outcome?_modifyCell s _ _ _ fun _ => rfl
      exact stuck.goesOn threads size same name fs (Or.inr (Or.inr rfl))
    · cases decided.symm.trans ((State.outcome?_of_found held).symm.trans stuck.undecided)
  · obtain ⟨-, rfl⟩ := notified_of_next next
    exact stuck.goesOn rfl rfl rfl name fs (Or.inr (Or.inl rfl))

theorem stuck_of_move {w : Wait V N S} {m : Move} (stuck : Stuck w s) (moved : s.move m = some s') :
    Stuck w s' := by
  cases m with
  | step t => exact stuck_of_step stuck moved
  | pass nanos =>
    cases moved
    exact ⟨stuck.only, stuck.reads, stuck.unlimited, stuck.has, stuck.undecided⟩
  | expire t =>
    -- The read has no deadline.
    obtain ⟨_, _, _, _, _, _, found, -⟩ := asleep_of_expire moved
    obtain rfl := stuck.thread_eq found
    obtain ⟨name, d, fs, found', reads⟩ := stuck.reads
    cases found.symm.trans found'
    rcases reads with none | none | same
    · cases none
    · cases none
    · cases same
      cases stuck.unlimited
  | stir t =>
    obtain ⟨_, w', _, -, rfl⟩ := asleep_of_stir moved
    refine ⟨stuck.only, stuck.reads, stuck.unlimited, ?_, ?_⟩
    · exact (State.size_modifyCell s w'.cell (·.rouse t)).symm ▸ stuck.has
    · exact (State.outcome?_modifyCell s w'.cell w.cell (·.rouse t) fun _ => rfl).trans
        stuck.undecided

theorem stuck_of_reaches {w : Wait V N S} (stuck : Stuck w s) (reached : Reaches s s') :
    Stuck w s' :=
  reached.induct stuck fun _ _ _ now moved => stuck_of_move now moved

/-- The cell is decided, and what the call has made is undecided when it comes back, and ever after. -/
theorem undecided_when_back : ∃ (s s₁ : State Nat Empty Unit) (name : Option String)
    (p q : Prog Nat Empty Unit) (fs : List (Frame Nat Empty Unit)) (w : Wait Nat Empty Unit),
    Reachable s ∧ s.threads[0]? = some ⟨name, .run p, fs⟩ ∧ p.derives? s = some (0, .cell 2) ∧
      p.goesOn? s = some q ∧ s.outcome? 0 ≠ none ∧ s.move (.step 0) = some s₁ ∧
      s₁.Back 0 name q fs ∧ q = .get 2 w.resume ∧
      ∀ s', Reaches s₁ s' → s'.outcome? 2 = none ∧ Stuck w s' := by
  let w : Wait Nat Empty Unit := ⟨2, none, fun _ => .ret 2⟩
  have reachable : Reachable _ := ⟨(), readsItsOwn, List.replicate 7 (.step 0), rfl⟩
  refine ⟨_, _, _, _, _, _, w, reachable, rfl, rfl, rfl, ?_, rfl, rfl, rfl, ?_⟩
  · exact fun none => by cases none
  · intro s' reached
    have now : Stuck w s' := by
      refine stuck_of_reaches ?_ reached
      exact ⟨rfl, ⟨_, _, _, rfl, Or.inl rfl⟩, rfl, Nat.lt_succ_self 2, rfl⟩
    exact ⟨now.undecided, now⟩

end Inhabited
end Oneshot
