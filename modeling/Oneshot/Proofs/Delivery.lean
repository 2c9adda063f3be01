import Oneshot.Proofs.Calls
import Oneshot.Proofs.Bridges
import Oneshot.Proofs.Observers

/-! # Bridges deliver

The continuation of a bridge waits in the queue of its cell, or a drain loop has taken it, or it runs
inside the call that registered it, until the external future is settled.  So once the dispatch of the
cell and that call are over, the external future holds what the first direct attempt on it asked for, or
else the outcome of the cell (`bridge_delivers`). -/
set_option autoImplicit false
namespace Oneshot
variable {V N S : Type}

def State.Dispatching (s : State V N S) (c : CellId) : Prop :=
  ∃ u, (s.ledger.view c).Deciding c u

/-- The call that registered the continuation of a bridge from `c` to `e` runs it, and then goes on with
`q` above the frames `fs`. -/
inductive RunsBridge (c : CellId) (e : ExternalId) (q : Prog V N S) (fs : List (Frame V N S)) :
    Doing V N S → List (Frame V N S) → Prop
  | starting (r : CellId) : RunsBridge c e q fs (.starting c (.relay r e)) (.resume q :: fs)
  | relaying (r : CellId) :
      RunsBridge c e q fs (.relaying c e) (.capturing r :: .finishing c r :: .resume q :: fs)
  | settling (r : CellId) (o : Reading V) :
      RunsBridge c e q fs (.settling e o none) (.capturing r :: .finishing c r :: .resume q :: fs)

/-- The outcome of `c` is on its way to `e` as long as `c` is undecided or being dispatched. -/
inductive Underway (s : State V N S) (c : CellId) (e : ExternalId) : Prop
  | waiting (r : CellId) (member : Task.relay r e ∈ s.queueOf c)
  | taken (u : ThreadId) (thread : Thread V N S) (found : s.threads[u]? = some thread)
      (carries : thread.doing.Carries c e) (dispatches : .dispatch c ∈ s.duties u)
  | settled (settled : s.settled? e ≠ none)

section Inhabited
variable [Inhabited V] {s s' : State V N S} {t : ThreadId} {c : CellId} {e : ExternalId}

theorem duties_of_carries {d : Doing V N S} {fs : List (Frame V N S)} {n : Next V N S}
    (transition : Transition s t d fs n) (carries : d.Carries c e) (on : n.doing.Carries c e) :
    dutiesOf n.doing n.frames = dutiesOf d fs := by
  cases transition with
  | plain was => cases d <;> first | exact carries.elim | exact was.elim
  | @begins b task _ _ code =>
    cases task with
    | relay r e' => exact absurd rfl (code r e')
    | _ => exact carries.elim
  | beginsRelay => rfl
  | relays _ => rfl
  | @refuses _ _ k _ _ _ _ => cases k <;> exact on.elim
  | _ => first | exact carries.elim | exact on.elim

omit [Inhabited V] in
theorem settled_of_extends (later : Extends s s') (settled : s.settled? e ≠ none) :
    s'.settled? e ≠ none := by
  rw [later.readings e settled]
  exact settled

/-- A continuation that leaves its queue is taken by a drain loop. -/
theorem dispatch_of_starting {d : Doing V N S} {fs : List (Frame V N S)} {n : Next V N S}
    (moved : s.next t d fs = some n) {task : Task V N S} (starting : n.doing = .starting c task)
    (old : ∀ p, d = .run p → p.task? s ≠ some (c, task)) :
    .dispatch c ∈ dutiesOf n.doing n.frames := by
  rcases starting_of_next moved starting with ⟨rfl, -⟩ | ⟨p, rfl, registers⟩
  · cases transition_of_next moved with
    | plain was => exact was.elim
    | takes _ _ => simp [dutiesOf, frameDuties]
    | empties _ _ => cases starting
    | idles _ => cases starting
  · exact absurd registers (old p rfl)

theorem underway_of_move {m : Move} (moved : s.move m = some s') (sound : s.Sound)
    (inside : e < s.externals.size) (underway : Underway s c e) : Underway s' c e := by
  have later := extends_of_advance (advance_of_move moved)
  cases underway with
  | settled settled => exact .settled (settled_of_extends later settled)
  | waiting r member =>
    rcases step_or_lull moved with ⟨t, rfl⟩ | lull
    · obtain ⟨thread, n, found, next, rfl⟩ := next_of_step moved
      have transition := transition_of_next next
      rcases queue_of_transition transition member with waiting | starting
      · exact .waiting r waiting
      · refine .taken t _ (thread_after transition found) ?_ ?_
        · simp only [starting]
          exact ⟨rfl, rfl⟩
        · rw [State.duties_of_found (thread_after transition found)]
          refine dispatch_of_starting next starting ?_
          -- The registration of a bridge is about an external future that is only now made.
          intro p _ registers
          cases p with
          | relay b k =>
            cases registers
            exact Nat.lt_irrefl _ inside
          | _ => cases registers
    · exact .waiting r (by rwa [lull.queueOf])
  | taken u thread' found' carries dispatches =>
    rcases step_or_lull moved with ⟨t, rfl⟩ | lull
    · obtain ⟨thread, n, found, next, rfl⟩ := next_of_step moved
      have transition := transition_of_next next
      by_cases own : u = t
      · subst own
        cases Option.some.inj (found.symm.trans found')
        rcases carries_of_transition transition (sound.threads u _ found) inside carries with
          on | settled
        · refine .taken u _ (thread_after transition found) on ?_
          rw [State.duties_of_found (thread_after transition found)]
          rw [State.duties_of_found found, ← duties_of_carries transition carries on] at dispatches
          exact dispatches
        · exact .settled settled
      · refine .taken u thread' (thread_other transition own found') carries ?_
        rw [State.duties_of_found (thread_other transition own found')]
        rwa [State.duties_of_found found'] at dispatches
    · rcases lull.kept u thread' found' with kept | ⟨w, asleep⟩
      · refine .taken u thread' kept carries ?_
        rw [State.duties_of_found kept]
        rwa [State.duties_of_found found'] at dispatches
      · rw [asleep] at carries
        exact carries.elim

theorem runsBridge_of_next {q : Prog V N S} {d : Doing V N S} {fs frames : List (Frame V N S)}
    {n : Next V N S} (moved : s.next t d frames = some n) (sound : Thread.Sound s d frames)
    (inside : e < s.externals.size) (runs : RunsBridge c e q fs d frames) :
    RunsBridge c e q fs n.doing n.frames ∨ n.state.settled? e ≠ none := by
  have transition := transition_of_next moved
  cases runs with
  | starting r =>
    cases moved
    exact Or.inl (.relaying r)
  | relaying r =>
    cases transition with
    | plain was => exact was.elim
    | relays _ => exact Or.inl (.settling r _)
    | skips undecided => exact absurd undecided sound.stacked.2.1.1
  | settling r o =>
    refine Or.inr ((carries_of_transition transition sound (c := c) inside rfl).resolve_left ?_)
    cases transition with
    | plain was => exact was.elim
    | refuses _ _ => exact fun on => on.elim
    | settles _ _ => exact fun on => on.elim

/-- The outcome is underway, or thread `t` runs the continuation inside the call that registered it. -/
def State.Coming (t : ThreadId) (name : Option String) (c : CellId) (e : ExternalId)
    (q : Prog V N S) (fs : List (Frame V N S)) (s : State V N S) : Prop :=
  Underway s c e ∨
    ∃ d frames, s.threads[t]? = some ⟨name, d, frames⟩ ∧ RunsBridge c e q fs d frames

theorem coming_of_move {name : Option String} {q : Prog V N S} {fs : List (Frame V N S)} {m : Move}
    (moved : s.move m = some s') (sound : s.Sound) (inside : e < s.externals.size)
    (coming : s.Coming t name c e q fs) : s'.Coming t name c e q fs := by
  rcases coming with underway | ⟨d, frames, found, runs⟩
  · exact Or.inl (underway_of_move moved sound inside underway)
  · rcases step_or_lull moved with ⟨u, rfl⟩ | lull
    · obtain ⟨thread, n, found', next, rfl⟩ := next_of_step moved
      have transition := transition_of_next next
      by_cases own : t = u
      · subst own
        cases Option.some.inj (found.symm.trans found')
        rcases runsBridge_of_next next (sound.threads t _ found) inside runs with on | settled
        · exact Or.inr ⟨_, _, thread_after transition found, on⟩
        · exact Or.inl (.settled settled)
      · exact Or.inr ⟨d, frames, thread_other transition own found, runs⟩
    · rcases lull.kept t _ found with kept | ⟨w, rfl⟩
      · exact Or.inr ⟨d, frames, kept, runs⟩
      · cases runs

theorem keeps_of_bridge {P : State V N S → Prop} (reachable : Reachable s) (reached : Reaches s s')
    (inside : e < s.externals.size) (now : P s) (keeps : ∀ s m s', s.move m = some s' → s.Sound →
      e < s.externals.size → P s → P s') : P s' := by
  have all : Reachable s' ∧ e < s'.externals.size ∧ P s' := by
    refine reached.induct (P := fun s => Reachable s ∧ e < s.externals.size ∧ P s)
      ⟨reachable, inside, now⟩ ?_
    rintro s m s' ⟨reachable, inside, now⟩ moved
    exact ⟨reachable_of_reaches reachable (.of_move moved),
      Nat.lt_of_lt_of_le inside (extends_of_advance (advance_of_move moved)).externals,
      keeps s m s' moved (sound_of_reachable reachable) inside now⟩
  exact all.2.2

theorem underway_of_reaches (reachable : Reachable s) (reached : Reaches s s')
    (inside : e < s.externals.size) (underway : Underway s c e) : Underway s' c e :=
  keeps_of_bridge (P := fun s => Underway s c e) reachable reached inside underway
    fun _ _ _ moved sound inside now => underway_of_move moved sound inside now

theorem coming_of_reaches {name : Option String} {q : Prog V N S} {fs : List (Frame V N S)}
    (reachable : Reachable s) (reached : Reaches s s') (inside : e < s.externals.size)
    (coming : s.Coming t name c e q fs) : s'.Coming t name c e q fs :=
  keeps_of_bridge (P := State.Coming t name c e q fs) reachable reached inside coming
    fun _ _ _ moved sound inside now => coming_of_move moved sound inside now

omit [Inhabited V] in
theorem underway_of_back {name : Option String} {q q' : Prog V N S} {fs fs' : List (Frame V N S)}
    (coming : s.Coming t name c e q fs) (back : s.Back t name q' fs') : Underway s c e := by
  rcases coming with underway | ⟨d, frames, found, runs⟩
  · exact underway
  · cases Option.some.inj (back.symm.trans found)
    cases runs

theorem coming_of_relay {name : Option String} {k : ExternalId → Prog V N S}
    {fs : List (Frame V N S)} (found : s.threads[t]? = some ⟨name, .run (.relay c k), fs⟩)
    (inside : c < s.cells.size) (moved : s.move (.step t) = some s') :
    s.externals.size < s'.externals.size ∧ s'.settled? s.externals.size = none ∧
      s'.Bridges c s.externals.size ∧
      s'.Coming t name c s.externals.size (k s.externals.size) fs := by
  obtain ⟨thread, n, found', next, rfl⟩ := next_of_step moved
  cases Option.some.inj (found.symm.trans found')
  let relaying : Thread V N S := ⟨name, n.doing, n.frames⟩
  have after : (n.state.setThread t relaying).threads[t]? = some relaying :=
    thread_after (transition_of_next next) found
  refine ⟨?_, unsettled_of_new next (Nat.lt_irrefl _),
    (bridged_of_next next).mpr (Or.inr ⟨⟨k, rfl⟩, rfl⟩), ?_⟩
  · have grown := congrArg Array.size (externals_of_relay next)
    rw [Array.size_push] at grown
    exact Nat.lt_of_lt_of_eq (Nat.lt_succ_self _) grown.symm
  · let s₀ := s.addExternal.log t (.bridged c s.externals.size)
    let task : Task V N S := .relay s.cells.size s.externals.size
    have held : s₀.cells[c]? = some s.cells[c] := Array.getElem?_eq_getElem inside
    have registered : n = s₀.register t c task (k s.externals.size) fs :=
      (Option.some.inj next).symm
    rcases waits_or_starts held t task (k s.externals.size) fs with waits | starts
    · rw [← registered] at waits
      exact Or.inl (.waiting s.cells.size waits)
    · refine Or.inr ⟨_, _, after, ?_⟩
      have frames : n.frames = .resume (k s.externals.size) :: fs := by
        rw [registered]
        exact (State.starting_of_register starts).2.2
      rw [frames, registered, starts]
      exact .starting s.cells.size

omit [Inhabited V] in
/-- What has been dispatched has been delivered. -/
theorem settled_of_underway (orderly : s.ledger.Orderly) (underway : Underway s c e)
    (decided : s.outcome? c ≠ none) (dispatched : ¬ s.Dispatching c) : s.settled? e ≠ none := by
  cases underway with
  | settled settled => exact settled
  | waiting r member =>
    have closed : (s.ledger.view c).decided = true := Option.isSome_iff_ne_none.mpr decided
    have served := served_of_idle (orderly.course c) closed fun u deciding => dispatched ⟨u, deciding⟩
    have empty : s.queueOf c = [] := List.map_eq_nil_iff.mp served.1
    rw [empty] at member
    cases member
  | taken u thread found carries dispatches =>
    refine absurd ⟨u, Or.inr ?_⟩ dispatched
    exact List.mem_filter.mpr ⟨dispatches, by simp [Duty.cell]⟩

theorem reaches_of_try {x : Object} {a : Try V N S} {ms : List Move} (ran : s.run ms = some s')
    (member : a ∈ s.tries x ms) : Reaches s a.state ∧
      a.state.tryOn? x (.step a.thread) = some a ∧
      ∃ after, a.state.move (.step a.thread) = some after ∧ Reaches after s' := by
  induction ms generalizing s with
  | nil => cases member
  | cons m ms ih =>
    obtain ⟨middle, moved, onwards⟩ := Option.bind_eq_some_iff.mp ran
    simp only [State.tries, moved, List.mem_append, Option.mem_toList] at member
    rcases member with now | later
    · obtain ⟨thread, rfl, same, -, -⟩ := try_cases now
      rw [same]
      exact ⟨.refl s, now, middle, moved, ms, onwards⟩
    · obtain ⟨reached, rest⟩ := ih onwards later
      exact ⟨(Reaches.of_move moved).trans reached, rest⟩

theorem reading_of_try (reachable : Reachable s) (bridged : s.Bridges c e) {ms : List Move}
    (ran : s.run ms = some s') {a : Try V N S} (member : a ∈ s.tries (.external e) ms)
    (unasked : a.answer = none) : s'.holds? (.cell c) = some a.reading := by
  obtain ⟨reached, tried, after, moved, rest⟩ := reaches_of_try ran member
  obtain ⟨thread, -, -, found, attempt⟩ := try_cases tried
  have settling : thread.doing = .settling e a.reading none := by
    rcases attempt_cases attempt with ⟨_, _, same, -, -⟩ | ⟨e', same, doing⟩
    · cases same
    · cases same
      rw [doing, unasked]
  have held := reading_of_bridge (reachable_of_reaches reachable reached)
    (bridged_of_reaches reached bridged) found settling
  exact (extends_of_reaches ((Reaches.of_move moved).trans rest)).holds held

omit [Inhabited V] in
theorem duties_of_same {u : ThreadId} (same : s'.threads[u]? = s.threads[u]?) :
    s'.duties u = s.duties u := by
  rw [State.duties, same, State.duties]

/-- The thread that decides a cell is the only one inside that decision. -/
theorem alone_of_wins (reachable : Reachable s) {o : Outcome V} {k : Option (Bool → Prog V N S)}
    {thread : Thread V N S} (found : s.threads[t]? = some thread)
    (doing : thread.doing = .deciding c o k) (undecided : s.holds? (.cell c) = none)
    (moved : s.move (.step t) = some s') {u : ThreadId}
    (deciding : (s'.ledger.view c).Deciding c u) : u = t := by
  have orderly := orderly_of_reachable reachable
  have outcome : s.outcome? c = none := Option.map_eq_none_iff.mp undecided
  obtain ⟨thread', n, found', next, rfl⟩ := next_of_step moved
  cases Option.some.inj (found.symm.trans found')
  refine Decidable.byContradiction fun other => ?_
  have threads : n.state.threads = s.threads := by
    rw [doing] at next
    have given := Option.some.inj next
    unfold State.decideCell at given
    split at given
    next => exact given ▸ rfl
    next => split at given <;> exact given ▸ rfl
  have same : (n.state.setThread t ⟨thread.name, n.doing, n.frames⟩).threads[u]? = s.threads[u]? := by
    rw [State.getElem?_setThread, if_neg (Ne.symm other), threads]
  have none : about c ((n.state.setThread t ⟨thread.name, n.doing, n.frames⟩).duties u) = [] := by
    rw [duties_of_same same]
    exact idle_of_pending orderly outcome u
  have empty : ((n.state.setThread t ⟨thread.name, n.doing, n.frames⟩).ledger.view c).duties u = [] :=
    none
  rw [View.Deciding, empty] at deciding
  simp at deciding

/-- Nobody but `t` comes into the decision of a decided cell. -/
theorem alone_of_reaches (reachable : Reachable s) (reached : Reaches s s')
    (decided : s.outcome? c ≠ none) (alone : ∀ u, (s.ledger.view c).Deciding c u → u = t) :
    ∀ u, (s'.ledger.view c).Deciding c u → u = t := by
  have both := keeps_of_reaches
    (P := fun s => s.outcome? c ≠ none ∧ ∀ u, (s.ledger.view c).Deciding c u → u = t)
    reachable reached ⟨decided, alone⟩ ?_
  · exact both.2
  · rintro s s' reachable ⟨decided, alone⟩ advance
    refine ⟨(extends_of_advance advance).decided decided, fun u deciding => alone u ?_⟩
    have posts := posts_of_advance advance (sound_of_reachable reachable)
    rcases Ledger.view_of_posts posts (orderly_of_reachable reachable).tidy c with same | ⟨-, turns⟩
    · rwa [same] at deciding
    · exact deciding_of_turns turns (Option.isSome_iff_ne_none.mpr decided) deciding

omit [Inhabited V] in
theorem mem_dutiesOf {d : Doing V N S} {fs : List (Frame V N S)} {duty : Duty}
    (member : duty ∈ frameDuties fs) : duty ∈ dutiesOf d fs := by
  cases d <;> first | exact member | exact List.mem_cons_of_mem _ member

theorem first_of_run {x : Object} {ms : List Move} (ran : s.run ms = some s') (has : s.Has x)
    (undecided : s.holds? x = none) {a : Try V N S} {rest : List (Try V N S)}
    (tries : s.tries x ms = a :: rest) : Reaches s a.state ∧ a.state.holds? x = none ∧
      a.state.tryOn? x (.step a.thread) = some a ∧ ∃ after,
        a.state.move (.step a.thread) = some after ∧ after.holds? x = some a.reading ∧
          Reaches after s' := by
  obtain ⟨reached, tried, after, moved, onwards⟩ :=
    reaches_of_try (a := a) ran (by rw [tries]; exact List.mem_cons_self ..)
  have before : a.state.holds? x = none := by
    rcases winner_of_run ran undecided has with ⟨nil, -⟩ | ⟨b, rest', _, same, wins, -⟩
    · cases nil.symm.trans tries
    · cases same.symm.trans tries
      exact wins.before
  obtain ⟨after', moved', wins⟩ := wins_of_try tried ((extends_of_reaches reached).has has) before
  cases moved.symm.trans moved'
  exact ⟨reached, before, tried, after, moved, wins.holds, onwards⟩

/-- Once the thread that has decided a cell is back on the frames that it had before, the dispatch is
over, at however many removes its call has led to the decision. -/
theorem returned_of_back (reachable : Reachable s) {name name' : Option String} {d : Doing V N S}
    {q : Prog V N S} {fs : List (Frame V N S)} (found : s.threads[t]? = some ⟨name, d, fs⟩)
    {ms : List Move} (ran : s.run ms = some s') (has : c < s.cells.size)
    (undecided : s.outcome? c = none) {a : Try V N S} {rest : List (Try V N S)}
    (tries : s.tries (.cell c) ms = a :: rest) (own : a.thread = t) (back : s'.Back t name' q fs) :
    ¬ s'.Dispatching c := by
  have unheld : s.holds? (.cell c) = none := by
    rw [State.holds?, undecided]
    rfl
  obtain ⟨reached, before, tried, after, moved, held, onwards⟩ :=
    first_of_run (x := .cell c) ran has unheld tries
  have reachable' := reachable_of_reaches reachable reached
  have decided : after.outcome? c ≠ none := by
    intro undecided
    rw [State.holds?, undecided] at held
    cases held
  obtain ⟨thread, -, -, found', attempt⟩ := try_cases tried
  have alone : ∀ u, (after.ledger.view c).Deciding c u → u = t := by
    intro u deciding
    rcases attempt_cases attempt with ⟨c', o, same, doing, -⟩ | ⟨e, same, -⟩
    · cases same
      rw [alone_of_wins reachable' found' doing before moved deciding, own]
    · cases same
  rintro ⟨u, deciding⟩
  obtain rfl := alone_of_reaches (reachable_of_reaches reachable' (.of_move moved)) onwards decided
    alone u deciding
  -- The duties that it has now it had when the cell was undecided.
  have idle : about c (dutiesOf d fs) = [] := by
    have here : s.duties u = dutiesOf d fs := State.duties_of_found found
    rw [← here]
    exact idle_of_pending (orderly_of_reachable reachable) undecided u
  have now : (s'.ledger.view c).duties u = about c (frameDuties fs) :=
    congrArg (about c) (State.duties_of_found back)
  have empty (duty : Duty) : duty ∉ (s'.ledger.view c).duties u := by
    rw [now]
    intro member
    obtain ⟨known, here⟩ := List.mem_filter.mp member
    have still : duty ∈ about c (dutiesOf d fs) := List.mem_filter.mpr ⟨mem_dutiesOf known, here⟩
    rw [idle] at still
    cases still
  exact deciding.elim (empty _) (empty _)

/-- The decision of `c` has returned by `s`: it had earlier, or the thread that has decided `c` is back
on frames that it had while `c` was undecided. -/
inductive DecisionReturned (c : CellId) (s : State V N S) : Prop
  | earlier {s₀ : State V N S} (reachable : Reachable s₀) (decided : s₀.outcome? c ≠ none)
      (dispatched : ¬ s₀.Dispatching c) (reached : Reaches s₀ s)
  | back {s₀ : State V N S} (reachable : Reachable s₀) {u : ThreadId} {name name' : Option String}
      {d : Doing V N S} {q : Prog V N S} {fs : List (Frame V N S)} {ms : List Move} {a : Try V N S}
      {rest : List (Try V N S)} (found : s₀.threads[u]? = some ⟨name, d, fs⟩)
      (has : c < s₀.cells.size) (undecided : s₀.outcome? c = none) (ran : s₀.run ms = some s)
      (tries : s₀.tries (.cell c) ms = a :: rest) (own : a.thread = u) (back : s.Back u name' q fs)

theorem over_of_decisionReturned (returned : DecisionReturned c s) : ¬ s.Dispatching c := by
  cases returned with
  | earlier reachable decided dispatched reached =>
    rintro ⟨u, deciding⟩
    -- Nobody is inside the decision, so every thread would be the only one.
    have alone (t : ThreadId) := alone_of_reaches (t := t) reachable reached decided
      fun v inside => absurd ⟨v, inside⟩ dispatched
    have same := alone (u + 1) u deciding
    exact absurd same (Nat.ne_of_lt (Nat.lt_succ_self u))
  | back reachable found has undecided ran tries own back =>
    exact returned_of_back reachable found ran has undecided tries own back

/-- Both ends of a bridge show the outcome `o`, to everybody who polls, tries, asks or prints. -/
structure Mirrors (f : Future) (x : ExternalFuture) (o : Outcome V) (s : State V N S) : Prop where
  outcome : s.outcome? f.cell = some o
  settled : s.settled? x.id = some o.reading
  looks : ∀ {h : Handle} {look act}, h.object = .cell f.cell ∨ h.object = .external x.id →
    h.Glanced look act → ∀ {t name k fs}, s.threads[t]? = some ⟨name, .run (act k), fs⟩ →
      ∃ s' finding, s.move (.step t) = some s' ∧ finding.look = look ∧
        finding.Describes (some o.reading) ∧ s'.Back t name (k finding) fs

theorem mirrors_of_held {f : Future} {x : ExternalFuture} {o : Outcome V}
    (outcome : s.outcome? f.cell = some o) (settled : s.settled? x.id = some o.reading) :
    Mirrors f x o s := by
  refine ⟨outcome, settled, ?_⟩
  intro h look act either glanced t name k fs found
  have held : s.holds? h.object = some o.reading := by
    rcases either with same | same
    · rw [same, State.holds?, outcome]
      rfl
    · rw [same]
      exact settled
  obtain ⟨s', moved, finding, asked, describes, back⟩ := glance_finds glanced found
  rw [(extends_of_advance (advance_of_move moved)).holds held] at describes
  exact ⟨s', finding, moved, asked, describes, back⟩

/-- What a bridge from `f` to `x`, made in the step to `s₁`, has done after the run `ms` to `s`. -/
structure Delivers (f : Future) (x : ExternalFuture) (s₁ : State V N S) (ms : List Move)
    (s : State V N S) : Prop where
  /-- Who resolves the external future directly, and first, decides it for ever. -/
  direct : ∀ a rest, s₁.tries (.external x.id) ms = a :: rest → a.answer ≠ none →
    (∃ after, a.Wins (.external x.id) after) ∧ (∀ b ∈ rest, ∃ after, b.Loses after) ∧
      ∀ s', Reaches s s' → s'.holds? (.external x.id) = some a.reading
  /-- Whoever resolves it, no cell changes. -/
  apart : ∀ a ∈ s₁.tries (.external x.id) ms, ∃ after,
    a.state.move (.step a.thread) = some after ∧ after.cells = a.state.cells
  /-- If nobody does so first, it has the outcome of `f` once the decision of `f` has returned. -/
  bridged : ∀ o, s.outcome? f.cell = some o → DecisionReturned f.cell s →
    (∀ a rest, s₁.tries (.external x.id) ms = a :: rest → a.answer = none) →
      ∀ s', Reaches s s' → Mirrors f x o s'

theorem cells_of_try {a : Try V N S} (tried : s.tryOn? (.external e) (.step a.thread) = some a)
    (moved : s.move (.step a.thread) = some s') : s'.cells = s.cells := by
  obtain ⟨thread, -, -, found, attempt⟩ := try_cases tried
  obtain ⟨thread', n, found', next, rfl⟩ := next_of_step moved
  cases Option.some.inj (found.symm.trans found')
  have aside : ¬ thread.doing.Touches := by
    rcases attempt_cases attempt with ⟨_, _, same, -, -⟩ | ⟨e', -, doing⟩
    · cases same
    · rw [doing]
      exact fun touches => touches
  exact (untouched_of_next next).cells aside

theorem delivers_of_underway (reachable : Reachable s) {f : Future} {x : ExternalFuture}
    (inside : x.id < s.externals.size) (unsettled : s.settled? x.id = none)
    (bridged : s.Bridges f.cell x.id) {ms : List Move} (ran : s.run ms = some s')
    (underway : Underway s' f.cell x.id) : Delivers f x s ms s' := by
  have reached : Reaches s s' := ⟨ms, ran⟩
  have reachable' := reachable_of_reaches reachable reached
  have won := winner_of_run (x := .external x.id) ran unsettled inside
  refine ⟨?_, ?_, ?_⟩
  · intro a rest tries _
    rcases won with ⟨nil, -⟩ | ⟨b, rest', after, same, wins, held, losers⟩
    · cases nil.symm.trans tries
    · cases same.symm.trans tries
      exact ⟨⟨after, wins⟩, losers, fun s'' later => (extends_of_reaches later).holds held⟩
  · intro a member
    obtain ⟨-, tried, after, moved, -⟩ := reaches_of_try ran member
    exact ⟨after, moved, cells_of_try tried moved⟩
  · intro o decided returned unasked s'' later
    have settled := settled_of_underway (orderly_of_reachable reachable') underway
      (by rw [decided]; simp) (over_of_decisionReturned returned)
    have reading : s'.settled? x.id = some o.reading := by
      rcases won with ⟨-, none⟩ | ⟨a, rest, after, tries, wins, held, -⟩
      · exact absurd none settled
      · have read := reading_of_try reachable bridged ran (a := a)
          (by rw [tries]; exact List.mem_cons_self ..) (unasked a rest tries)
        rw [State.holds?, decided] at read
        rw [Option.some.inj read]
        exact held
    have on := extends_of_reaches later
    refine mirrors_of_held ?_ ?_
    · rw [on.outcomes f.cell (by rw [decided]; simp), decided]
    · exact on.holds (x := .external x.id) reading

/-- A bridge is made by one call, which comes back.  From then on it delivers. -/
theorem bridge_delivers (reachable : Reachable s) {name : Option String} {f : Future}
    {k : ExternalFuture → Prog V N S} {fs : List (Frame V N S)}
    (found : s.threads[t]? = some ⟨name, .run (f.toExternal k), fs⟩) (inside : f.cell < s.cells.size) :
    ∃ s₁, s.move (.step t) = some s₁ ∧
      (∀ ms, Until (State.In t name (k ⟨s.externals.size⟩) fs)
        (State.Back t name (k ⟨s.externals.size⟩) fs) s₁ ms) ∧
      ∀ before back after s', s₁.run before = some back → back.run after = some s' →
        back.Back t name (k ⟨s.externals.size⟩) fs →
          Delivers f ⟨s.externals.size⟩ s₁ (before ++ after) s' := by
  obtain ⟨s₁, moved, comes⟩ := registration_back reachable found rfl
  refine ⟨s₁, moved, comes, ?_⟩
  intro before back after s' first rest home
  obtain ⟨has, unsettled, bridged, coming⟩ := coming_of_relay found inside moved
  have reachable₁ := reachable_of_reaches reachable (.of_move moved)
  have ran : s₁.run (before ++ after) = some s' := by
    rw [State.run_append, first]
    exact rest
  have reached : Reaches s₁ back := ⟨before, first⟩
  have under := underway_of_back (coming_of_reaches reachable₁ reached has coming) home
  have has' := Nat.lt_of_lt_of_le has (extends_of_reaches reached).externals
  exact delivers_of_underway reachable₁ has unsettled bridged ran
    (underway_of_reaches (reachable_of_reaches reachable₁ reached) ⟨after, rest⟩ has' under)

/-- A failure that passes through a map on its way to an external future. -/
def bridgedFailure : Prog Nat Empty Unit :=
  .newCell none fun c =>
    .transform c (fun v => .ret v) fun r =>
      Future.toExternal ⟨r⟩ fun _ => .decide c (.fail (.message "lost")) fun _ => .ret 0

theorem bridge_delivers_mapped : ∃ (s₀ s₁ s : State Nat Empty Unit) (ms : List Move) (o : Outcome Nat),
    Reachable s₀ ∧ s₀.outcome? 1 = none ∧ s₀.move (.step 0) = some s₁ ∧
      Delivers ⟨1⟩ ⟨0⟩ s₁ ms s ∧ DecisionReturned 1 s ∧ Mirrors ⟨1⟩ ⟨0⟩ o s ∧ o.kind = .error := by
  let rest := List.replicate 23 (Move.step 0)
  let begun := (State.start () bridgedFailure).run [.step 0, .step 0]
  have ended : (begun.bind fun s₀ => (s₀.run [.step 0]).bind fun s₁ => (s₁.run rest).map fun s =>
      (s.threads.size, s.duties 0, (s.outcome? 1).map Outcome.kind,
        (s₁.tries (.external 0) rest).all fun a => a.answer.isNone)) =
      some (1, [], some .error, true) := by decide +kernel
  obtain ⟨s₀, first, ended⟩ := Option.bind_eq_some_iff.mp ended
  obtain ⟨s₁, second, ended⟩ := Option.bind_eq_some_iff.mp ended
  obtain ⟨s, ran, facts⟩ := Option.map_eq_some_iff.mp ended
  obtain ⟨one, idle, kind, unasked⟩ : s.threads.size = 1 ∧ s.duties 0 = [] ∧
    (s.outcome? 1).map Outcome.kind = some .error ∧
      (s₁.tries (.external 0) rest).all (fun a => a.answer.isNone) = true := by simpa using facts
  obtain ⟨o, decided, error⟩ := Option.map_eq_some_iff.mp kind
  have reachable : Reachable s₀ := ⟨(), bridgedFailure, _, first⟩
  have reachable' : Reachable s :=
    reachable_of_reaches reachable (Reaches.trans ⟨_, second⟩ ⟨rest, ran⟩)
  have dispatched : ¬ s.Dispatching 1 := by
    rintro ⟨u, deciding⟩
    have idle (u : ThreadId) : s.duties u = [] := by
      cases u with
      | zero => exact idle
      | succ u => simp [State.duties, Array.getElem?_eq_none (show s.threads.size ≤ u + 1 by omega)]
    have none : (s.ledger.view 1).duties u = [] := congrArg (about 1) (idle u)
    rw [View.Deciding, none] at deciding
    simp at deciding
  let k : ExternalFuture → Prog Nat Empty Unit :=
    fun _ => .decide 0 (.fail (.message "lost")) fun _ => .ret 0
  obtain ⟨converting, inside, external, undecided, back⟩ :
      s₀.threads[0]? = some ⟨some "main", .run (Future.toExternal ⟨1⟩ k), []⟩ ∧
        1 < s₀.cells.size ∧ s₀.externals.size = 0 ∧ s₀.outcome? 1 = none ∧
          s₁.Back 0 (some "main") (k ⟨0⟩) [] := by
    have first : (State.start () bridgedFailure).run [.step 0, .step 0] = some s₀ := first
    cases first
    cases second
    exact ⟨rfl, by decide, rfl, rfl, rfl⟩
  obtain ⟨s₁', moved, -, delivers⟩ := bridge_delivers reachable converting inside
  obtain ⟨_, moved', same⟩ := Option.bind_eq_some_iff.mp second
  cases same
  cases moved.symm.trans moved'
  rw [external] at delivers
  have delivered : Delivers ⟨1⟩ ⟨0⟩ s₁ rest s := delivers [] s₁ rest s rfl ran back
  have returned : DecisionReturned 1 s :=
    .earlier reachable' (by rw [decided]; simp) dispatched (.refl s)
  refine ⟨_, s₁, s, rest, o, reachable, undecided, moved, delivered, returned, ?_, error⟩
  refine delivered.bridged o decided returned ?_ s (.refl s)
  intro a after tries
  rw [tries] at unasked
  simpa using (List.all_eq_true.mp unasked) a (List.mem_cons_self ..)

end Inhabited
end Oneshot
