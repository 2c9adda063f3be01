import Oneshot.Proofs.Quiescence

/-! # Calls come back

A call that decides a cell, or registers a continuation, leaves a frame for its caller on the stack.  The
thread goes on above this frame until the frame gets its answer (`decision_back`): whatever panics in
between, the panic stops before it. -/
set_option autoImplicit false
namespace Oneshot
open Function (update)
variable {V N S : Type}

/-- Code of a call has the floor: no program, and no panic. -/
def Doing.Library : Doing V N S → Prop
  | .announcing _ _ _ | .draining _ | .starting _ _ => True
  | .ended e => e.Calm
  | _ => False

def Frame.Shields : Frame V N S → Prop
  | .draining _ | .finishing _ _ => True
  | _ => False

/-- The thread is inside a call that goes on with `q` above the frames `fs`: it runs code of the call, or
something above a frame that lets no panic through. -/
inductive InCall (q : Prog V N S) (fs : List (Frame V N S)) :
    Doing V N S → List (Frame V N S) → Prop
  | shallow {d} (library : d.Library) : InCall q fs d (.resume q :: fs)
  | deep {d} (inner : List (Frame V N S)) (bottom : Frame V N S) (shields : bottom.Shields) :
      InCall q fs d (inner ++ bottom :: .resume q :: fs)

section Inhabited
variable [Inhabited V] {s s' : State V N S} {t : ThreadId}

/-- A step leaves the frames where they are but for the first, which it takes when something has ended,
and puts others on top. -/
theorem frames_of_transition {d : Doing V N S} {fs : List (Frame V N S)} {n : Next V N S}
    (transition : Transition s t d fs n) : (∃ new, n.frames = new ++ fs) ∨
      ∃ e frame rest new, d = .ended e ∧ fs = frame :: rest ∧ n.frames = new ++ rest := by
  cases transition with
  | guards => exact Or.inl ⟨[_], rfl⟩
  | inlines => exact Or.inl ⟨[_], rfl⟩
  | @wins _ _ k _ _ _ _ => exact Or.inl ⟨won k, rfl⟩
  | takes => exact Or.inl ⟨[_], rfl⟩
  | begins => exact Or.inl ⟨[_, _], rfl⟩
  | beginsRelay => exact Or.inl ⟨[_, _], rfl⟩
  | handsOn => exact Or.inl ⟨[_], rfl⟩
  | gapes => exact Or.inl ⟨[_], rfl⟩
  | @settles e _ k _ x _ _ => exact Or.inl ⟨.waking e x.wakers :: won k, rfl⟩
  | captures => exact Or.inr ⟨_, _, _, [], rfl, rfl, rfl⟩
  | catches => exact Or.inr ⟨_, _, _, [], rfl, rfl, rfl⟩
  | resumes => exact Or.inr ⟨_, _, _, [], rfl, rfl, rfl⟩
  | finishes => exact Or.inr ⟨_, _, _, [], rfl, rfl, rfl⟩
  | loops => exact Or.inr ⟨_, _, _, [], rfl, rfl, rfl⟩
  | rests => exact Or.inr ⟨_, _, _, [], rfl, rfl, rfl⟩
  | wakes => exact Or.inr ⟨_, _, _, [_], rfl, rfl, rfl⟩
  | unwinds => exact Or.inr ⟨_, _, _, [], rfl, rfl, rfl⟩
  | _ => exact Or.inl ⟨[], rfl⟩

/-- A step inside a call stays inside it, or it is the return. -/
theorem inCall_of_transition {d : Doing V N S} {frames fs : List (Frame V N S)} {q : Prog V N S}
    {n : Next V N S} (transition : Transition s t d frames n) (sound : Thread.Sound s d frames)
    (inside : InCall q fs d frames) :
    InCall q fs n.doing n.frames ∨ (n.doing = .run q ∧ n.frames = fs) := by
  cases inside with
  | deep inner bottom shields =>
    rcases frames_of_transition transition with
      ⟨new, grown⟩ | ⟨e, frame, rest, new, ended, popped, grown⟩
    · refine Or.inl ?_
      rw [grown, ← List.append_assoc]
      exact .deep (new ++ inner) bottom shields
    · cases inner with
      | cons first inner =>
        have same : rest = inner ++ bottom :: .resume q :: fs := (List.cons.inj popped).2.symm
        refine Or.inl ?_
        rw [grown, same, ← List.append_assoc]
        exact .deep (new ++ inner) bottom shields
      | nil =>
        -- The frame that goes is the one that shields, and no panic gets as far as that.
        subst ended
        refine Or.inl ?_
        rw [List.nil_append] at transition sound
        cases bottom with
        | draining c =>
          have calm := calm_of_rests sound.top (Or.inr ⟨c, rfl⟩)
          cases transition with
          | plain was => exact was.elim
          | loops _ => exact .shallow trivial
          | unwinds _ => exact calm.elim
        | finishing c r =>
          have calm := calm_of_rests sound.top (Or.inl ⟨c, r, rfl⟩)
          cases transition with
          | plain was => exact was.elim
          | finishes _ => exact .shallow trivial
          | unwinds _ => exact calm.elim
        | _ => exact shields.elim
  | shallow library =>
    cases transition with
    | plain was => cases d <;> first | exact was.elim | exact library.elim
    | announces => exact Or.inl (.shallow trivial)
    | takes _ _ => exact Or.inl (.deep [] _ trivial)
    | empties _ _ => exact Or.inl (.shallow trivial)
    | idles _ => exact Or.inl (.shallow trivial)
    | begins _ => exact Or.inl (.deep [_] _ trivial)
    | beginsRelay => exact Or.inl (.deep [_] _ trivial)
    | handsOn => exact Or.inl (.deep [] _ trivial)
    | gapes _ => exact Or.inl (.deep [] _ trivial)
    | resumes _ => exact Or.inr ⟨rfl, rfl⟩
    | unwinds _ => exact library.elim
    | _ => exact library.elim

/-- Along the run `ms` from `s`, `P` holds until `Q` does. -/
def Until (P Q : State V N S → Prop) (s : State V N S) : List Move → Prop
  | [] => P s ∨ Q s
  | m :: ms => Q s ∨ (P s ∧ ∀ s', s.move m = some s' → Until P Q s' ms)

theorem until_of_done {P Q : State V N S → Prop} {s : State V N S} (done : Q s) (ms : List Move) :
    Until P Q s ms := by
  cases ms with
  | nil => exact Or.inr done
  | cons m ms => exact Or.inl done

theorem until_of_moves {P Q : State V N S → Prop}
    (keeps : ∀ s m s', P s → s.move m = some s' → P s' ∨ Q s') {s : State V N S} (now : P s)
    (ms : List Move) : Until P Q s ms := by
  induction ms generalizing s with
  | nil => exact Or.inl now
  | cons m ms ih =>
    refine Or.inr ⟨now, fun s' moved => ?_⟩
    rcases keeps s m s' now moved with on | done
    · exact ih on
    · exact until_of_done done ms

theorem until_of_keeps {P Q : State V N S → Prop}
    (keeps : ∀ s s', P s → Advance s s' → P s' ∨ Q s') {s : State V N S} (now : P s)
    (ms : List Move) : Until P Q s ms :=
  until_of_moves (fun s _ s' now moved => keeps s s' now (advance_of_move moved)) now ms

def State.In (t : ThreadId) (name : Option String) (q : Prog V N S) (fs : List (Frame V N S))
    (s : State V N S) : Prop :=
  ∃ d frames, s.threads[t]? = some ⟨name, d, frames⟩ ∧ InCall q fs d frames

/-- Thread `t` has the answer of its call and goes on with `q` above the frames `fs`. -/
def State.Back (t : ThreadId) (name : Option String) (q : Prog V N S) (fs : List (Frame V N S))
    (s : State V N S) : Prop :=
  s.threads[t]? = some ⟨name, .run q, fs⟩

theorem in_of_advance {name : Option String} {q : Prog V N S} {fs : List (Frame V N S)}
    (advance : Advance s s') (sound : s.Sound) (inside : s.In t name q fs) :
    s'.In t name q fs ∨ s'.Back t name q fs := by
  obtain ⟨d, frames, found, inside⟩ := inside
  cases advance with
  | aside _ threads => exact Or.inl ⟨d, frames, by rwa [threads], inside⟩
  | @thread u thread n found' transition =>
    by_cases own : t = u
    · subst own
      cases Option.some.inj (found.symm.trans found')
      rcases inCall_of_transition transition (sound.threads t _ found) inside with on | ⟨run, rest⟩
      · exact Or.inl ⟨_, _, thread_after transition found, on⟩
      · refine Or.inr ?_
        rw [State.Back, thread_after transition found, run, rest]
    · exact Or.inl ⟨d, frames, thread_other transition own found, inside⟩

omit [Inhabited V] in
theorem deciding_of_turns {c : CellId} {w w' : View} (turns : Turns c w w')
    (decided : w.decided = true) {u : ThreadId} (deciding : w'.Deciding c u) : w.Deciding c u := by
  have before {t : ThreadId} {ds : List Duty} {duty : Duty} (member : duty ∈ update w.duties t ds u) :
      (u = t ∧ duty ∈ ds) ∨ duty ∈ w.duties u := by
    rw [Function.update_apply] at member
    split at member
    next same => exact Or.inl ⟨same, member⟩
    next => exact Or.inr member
  have below {t : ThreadId} {first : Duty} {ds : List Duty} (top : w.duties t = first :: ds)
      (deciding : .announce c ∈ update w.duties t ds u ∨ .dispatch c ∈ update w.duties t ds u) :
      w.Deciding c u := by
    have kept {duty : Duty} (member : duty ∈ update w.duties t ds u) : duty ∈ w.duties u := by
      rcases before member with ⟨rfl, rest⟩ | same
      · rw [top]
        exact List.mem_cons_of_mem _ rest
      · exact same
    exact deciding.imp kept kept
  cases turns with
  | decides undecided => cases undecided.symm.trans decided
  | @announces t ds top =>
    rcases deciding with announces | dispatches
    · rcases before announces with ⟨rfl, member⟩ | same
      · rcases List.mem_cons.mp member with none | rest
        · cases none
        · refine Or.inl ?_
          rw [top]
          exact List.mem_cons_of_mem _ rest
      · exact Or.inl same
    · rcases before dispatches with ⟨rfl, -⟩ | same
      · refine Or.inl ?_
        rw [top]
        exact List.mem_cons_self ..
      · exact Or.inr same
  | @inlines t r _ _ _ =>
    have kept {duty : Duty} (other : duty ≠ .inline c r)
        (member : duty ∈ update w.duties t (.inline c r :: w.duties t) u) : duty ∈ w.duties u := by
      rcases before member with ⟨rfl, rest⟩ | same
      · exact (List.mem_cons.mp rest).resolve_left other
      · exact same
    exact deciding.imp (kept (fun same => by cases same)) (kept (fun same => by cases same))
  | @takes t r rest ds _ top =>
    have kept {duty : Duty} (other : duty ≠ .queued c r)
        (member : duty ∈ update w.duties t (.queued c r :: .dispatch c :: ds) u) :
        duty ∈ w.duties u := by
      rcases before member with ⟨rfl, rest⟩ | same
      · rw [top]
        exact (List.mem_cons.mp rest).resolve_left other
      · exact same
    exact deciding.imp (kept (fun same => by cases same)) (kept (fun same => by cases same))
  | empties _ top => exact below top deciding
  | finishes _ top => exact below top deciding
  | _ => exact deciding

/-- The dispatch of a cell is over, and it has run everything that was queued, in turn. -/
def View.Served (c : CellId) (w : View) : Prop :=
  w.waiting = [] ∧ w.dispatches = false ∧
    ∃ u, w.trace.ran w.queued = w.queued.flatMap (turn u c)

omit [Inhabited V] in
theorem free_of_idle {c : CellId} {w : View} (phase : Phase c w) (idle : ∀ u, ¬ w.Deciding c u) :
    w.dispatches = false := by
  have absurd {t : ThreadId} {ds : List Duty} (duties : w.duties = only t ds)
      (deciding : .announce c ∈ ds ∨ .dispatch c ∈ ds) : False := by
    apply idle t
    rw [View.Deciding, duties, only_self]
    exact deciding
  cases phase with
  | pending _ free => exact free
  | announcing t _ _ duties => exact (absurd duties (Or.inl (by simp))).elim
  | dispatching t _ _ _ duties => exact (absurd duties (Or.inr (by simp))).elim
  | running t _ r _ _ duties => exact (absurd duties (Or.inr (by simp))).elim
  | closed _ _ _ free => exact free

omit [Inhabited V] in
theorem served_of_idle {c : CellId} {w : View} (course : Course c w) (decided : w.decided = true)
    (idle : ∀ u, ¬ w.Deciding c u) : w.Served c := by
  obtain ⟨t, done, running, dispatched⟩ := dispatched_of_course course
  have all : done = w.queued := (dispatched.returns decided).resolve_right (idle t)
  have rest : running.toList ++ w.waiting = [] := by
    have split := dispatched.queued
    rw [← all, List.append_assoc] at split
    exact List.self_eq_append_right.mp split
  obtain ⟨none, waiting⟩ := List.append_eq_nil_iff.mp rest
  refine ⟨waiting, free_of_idle course.phase idle, t, ?_⟩
  rw [dispatched.ran, none, all]
  exact List.append_nil _

def State.pending (s : State V N S) (c : CellId) : Bool :=
  s.cells[c]?.any fun cell => cell.outcome.isNone

structure Winning (t : ThreadId) (name : Option String) (c : CellId) (q : Prog V N S)
    (fs : List (Frame V N S)) (s : State V N S) : Prop where
  sound : s.Sound
  orderly : s.ledger.Orderly
  inside : s.In t name q fs
  decided : (s.ledger.view c).decided = true
  alone : ∀ u, (s.ledger.view c).Deciding c u → u = t

theorem winning_of_advance {name : Option String} {c : CellId} {q : Prog V N S}
    {fs : List (Frame V N S)} (advance : Advance s s') (winning : Winning t name c q fs s)
    (below : about c (frameDuties fs) = []) :
    Winning t name c q fs s' ∨ (s'.Back t name q fs ∧ (s'.ledger.view c).Served c) := by
  have posts := posts_of_advance advance winning.sound
  have orderly := Ledger.orderly_of_posts posts winning.orderly
  have decided : (s'.ledger.view c).decided = true := Ledger.decided_of_posts posts winning.decided
  have alone : ∀ u, (s'.ledger.view c).Deciding c u → u = t := by
    intro u deciding
    apply winning.alone
    rcases Ledger.view_of_posts posts winning.orderly.tidy c with same | ⟨-, turns⟩
    · rwa [same] at deciding
    · exact deciding_of_turns turns winning.decided deciding
  rcases in_of_advance advance winning.sound winning.inside with inside | back
  · exact Or.inl ⟨sound_of_advance advance winning.sound, orderly, inside, decided, alone⟩
  · refine Or.inr ⟨back, served_of_idle (orderly.course c) decided ?_⟩
    intro u deciding
    -- Back in its caller, the thread has only the duties that it had before the call.
    have own := alone u deciding
    subst own
    have none : (s'.ledger.view c).duties u = [] := by
      have duties : s'.duties u = frameDuties fs := State.duties_of_found back
      simp only [Ledger.view, State.ledger, duties, below]
    rw [View.Deciding, none] at deciding
    simp at deciding

theorem until_mono {P P' Q Q' : State V N S → Prop} (left : ∀ s, P s → P' s)
    (right : ∀ s, Q s → Q' s) {s : State V N S} {ms : List Move} (holds : Until P Q s ms) :
    Until P' Q' s ms := by
  induction ms generalizing s with
  | nil => exact holds.imp (left s) (right s)
  | cons m ms ih =>
    rcases holds with done | ⟨now, on⟩
    · exact Or.inl (right s done)
    · exact Or.inr ⟨left s now, fun s' moved => ih (on s' moved)⟩

omit [Inhabited V] in
theorem idle_of_pending {c : CellId} (orderly : s.ledger.Orderly) (undecided : s.outcome? c = none)
    (u : ThreadId) : about c (s.duties u) = [] := by
  have open' : (s.ledger.view c).decided = false := by
    simp [Ledger.view, State.ledger, undecided]
  cases (orderly.course c).phase with
  | pending _ _ duties => exact congrFun duties u
  | announcing _ decided => cases open'.symm.trans decided
  | dispatching _ _ decided => cases open'.symm.trans decided
  | running _ _ _ decided => cases open'.symm.trans decided
  | closed _ _ decided => cases open'.symm.trans decided

theorem winning_of_pending {name : Option String} {c : CellId} {o : Outcome V}
    {k : Bool → Prog V N S} {fs : List (Frame V N S)} {cell : Cell V N S} (sound : s.Sound)
    (orderly : s.ledger.Orderly) (found : s.threads[t]? = some ⟨name, .deciding c o (some k), fs⟩)
    (held : s.cells[c]? = some cell) (undecided : cell.outcome = none) :
    ∃ s₁, s.move (.step t) = some s₁ ∧ Winning t name c (k true) fs s₁ := by
  let thread : Thread V N S := ⟨name, .announcing c o.kind cell.queue.length, .resume (k true) :: fs⟩
  let s₁ := (s.modifyCell c (·.decide o)).setThread t thread
  have moved : s.move (.step t) = some s₁ := by
    simp [State.move, step_of_found found, State.next, State.decideCell, held, undecided, won, s₁,
      thread]
  have advance := advance_of_move moved
  have member := (Array.getElem?_eq_some_iff.mp found).1
  have outcome : s.outcome? c = none := by rw [State.outcome?_of_found held, undecided]
  have decided : s₁.outcome? c = some o := by
    have replaced := State.outcome?_replaceCell held (·.decide o) c
    rw [if_pos rfl] at replaced
    exact replaced
  refine ⟨s₁, moved, sound_of_advance advance sound,
    Ledger.orderly_of_posts (posts_of_advance advance sound) orderly,
    ⟨_, _, thread_setThread found rfl, .shallow trivial⟩, ?_, ?_⟩
  · simp [Ledger.view, State.ledger, decided]
  · intro u deciding
    have duties : s₁.duties = update s.duties t (dutiesOf thread.doing thread.frames) :=
      State.duties_setThread (s := s.modifyCell c (·.decide o)) member thread
    refine Decidable.byContradiction fun other => ?_
    have none : (s₁.ledger.view c).duties u = [] := by
      simp only [Ledger.view, State.ledger, duties, Function.update_of_ne other]
      exact idle_of_pending orderly outcome u
    rw [View.Deciding, none] at deciding
    simp at deciding

/-- A call that decides a cell comes back with true exactly when the cell is undecided in its critical
section, and then the dispatch is over. -/
theorem decision_back (reachable : Reachable s) {name : Option String} {c : CellId} {o : Outcome V}
    {k : Bool → Prog V N S} {fs : List (Frame V N S)}
    (found : s.threads[t]? = some ⟨name, .deciding c o (some k), fs⟩) :
    ∃ s₁, s.move (.step t) = some s₁ ∧ ∀ ms, Until (State.In t name (k (s.pending c)) fs)
      (fun s' => s'.Back t name (k (s.pending c)) fs ∧
        (s.pending c = true → (s'.ledger.view c).Served c)) s₁ ms := by
  have sound := sound_of_reachable reachable
  have orderly := orderly_of_reachable reachable
  have below : s.duties t = frameDuties fs := State.duties_of_found found
  cases held : s.cells[c]? with
  | none =>
    have pending : s.pending c = false := by simp [State.pending, held]
    have moved : s.step t = some (s.setThread t ⟨name, .run (k false), fs⟩) := by
      simp [step_of_found found, State.next, State.decideCell, held, lost]
    refine ⟨_, moved, fun ms => until_of_done ⟨?_, fun yes => ?_⟩ ms⟩
    · rw [pending]
      exact thread_setThread found rfl
    · cases pending.symm.trans yes
  | some cell =>
    cases undecided : cell.outcome with
    | none =>
      have pending : s.pending c = true := by simp [State.pending, held, undecided]
      have outcome : s.outcome? c = none := by rw [State.outcome?_of_found held, undecided]
      obtain ⟨s₁, moved, winning⟩ := winning_of_pending sound orderly found held undecided
      refine ⟨s₁, moved, fun ms => ?_⟩
      have under : about c (frameDuties fs) = [] := by
        rw [← below]
        exact idle_of_pending orderly outcome t
      rw [pending]
      refine until_mono (fun s winning => winning.inside) (fun s done => ⟨done.1, fun _ => done.2⟩)
        (until_of_keeps (fun s s' winning advance => winning_of_advance advance winning under)
          winning ms)
    | some held' =>
      have pending : s.pending c = false := by simp [State.pending, held, undecided]
      have moved : s.step t = some ((s.log t (.ignored c o.kind held'.kind)).setThread t
          ⟨name, .run (k false), fs⟩) := by
        simp [step_of_found found, State.next, State.decideCell, held, undecided, lost]
      refine ⟨_, moved, fun ms => until_of_done ⟨?_, fun yes => ?_⟩ ms⟩
      · rw [pending]
        exact thread_setThread found rfl
      · cases pending.symm.trans yes

/-- What a call that registers a continuation goes on with. -/
def Prog.goesOn? (s : State V N S) : Prog V N S → Option (Prog V N S)
  | .chain _ _ k | .transform _ _ k => some (k s.cells.size)
  | .relay _ k => some (k s.externals.size)
  | _ => none

omit [Inhabited V] in
/-- After its critical section a registration has come back, or it is about to start its continuation. -/
theorem register_cases (s : State V N S) (t : ThreadId) (c : CellId) (task : Task V N S)
    (q : Prog V N S) (fs : List (Frame V N S)) :
    ((s.register t c task q fs).doing = .run q ∧ (s.register t c task q fs).frames = fs) ∨
      InCall q fs (s.register t c task q fs).doing (s.register t c task q fs).frames := by
  unfold State.register
  split
  next => exact Or.inl ⟨rfl, rfl⟩
  next =>
    split
    next => exact Or.inl ⟨rfl, rfl⟩
    next => exact Or.inr (.shallow trivial)

theorem registration_back (reachable : Reachable s) {name : Option String} {p q : Prog V N S}
    {fs : List (Frame V N S)} (found : s.threads[t]? = some ⟨name, .run p, fs⟩)
    (call : p.goesOn? s = some q) :
    ∃ s₁, s.move (.step t) = some s₁ ∧
      ∀ ms, Until (State.In t name q fs) (State.Back t name q fs) s₁ ms := by
  obtain ⟨s₀, c, task, threads, stepped⟩ : ∃ (s₀ : State V N S) (c : CellId) (task : Task V N S),
      s₀.threads = s.threads ∧ s.next t (.run p) fs = some (s₀.register t c task q fs) := by
    cases p with
    | chain c body k =>
      cases call
      exact ⟨s, c, _, rfl, rfl⟩
    | transform c f k =>
      cases call
      exact ⟨s, c, _, rfl, rfl⟩
    | relay c k =>
      cases call
      exact ⟨s.addExternal.log t (.bridged c s.externals.size), c, _, rfl, rfl⟩
    | _ => cases call
  let n := s₀.register t c task q fs
  have moved : s.move (.step t) = some (n.state.setThread t ⟨name, n.doing, n.frames⟩) :=
    step_of_next found stepped
  have same : n.state.threads = s.threads := (register_same s₀ t c task q fs).2.trans threads
  have here : (n.state.setThread t ⟨name, n.doing, n.frames⟩).threads[t]? =
    some ⟨name, n.doing, n.frames⟩ := thread_setThread found same
  refine ⟨_, moved, fun ms => ?_⟩
  rcases register_cases s₀ t c task q fs with ⟨run, rest⟩ | inside
  · apply until_of_done
    have run : n.doing = .run q := run
    have rest : n.frames = fs := rest
    rw [State.Back, here, run, rest]
  · have sound := sound_of_advance (advance_of_move moved) (sound_of_reachable reachable)
    refine until_mono (P := fun s => s.Sound ∧ s.In t name q fs) (fun s now => now.2)
      (fun s back => back) (until_of_keeps ?_ ⟨sound, _, _, here, inside⟩ ms)
    intro s s' now advance
    rcases in_of_advance advance now.1 now.2 with on | back
    · exact Or.inl ⟨sound_of_advance advance now.1, on⟩
    · exact Or.inr back

end Inhabited
end Oneshot
