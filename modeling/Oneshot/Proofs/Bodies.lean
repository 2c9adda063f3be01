import Mathlib.Logic.Relation
import Oneshot.Proofs.Endings

/-! # What a body computes

Code comes to an ending only where it is at its end, or by a panic out of what it has called
(`concluding_of_throughout`).  A continuation runs its body above the frame that captures its ending, and
what is captured there is what this body has ended in (`brings_of_run`).  So when it is finished, its
cell holds what its body came to, unless it was cancelled before (`continuation_ends`); and of a body
that computes something, wherever it runs, it hands on just that (`comes_of_decided`). -/
set_option autoImplicit false
namespace Oneshot
open Relation (ReflTransGen)
variable {V N S : Type}

/-- Thread `t` has not come back to the frames `fs`: what it does above them goes on, or has just
ended. -/
def State.Above (t : ThreadId) (fs : List (Frame V N S)) (s : State V N S) : Prop :=
  ∃ name d upper, s.threads[t]? = some ⟨name, d, upper ++ fs⟩

/-- The ending of code that is at its end. -/
def Prog.ending? : Prog V N S → Option (Ending V)
  | .ret v => some (.value v)
  | .err failure => some (.failed failure)
  | .panic payload => some (.panicked payload)
  | _ => none

/-- A thread is about to come back to `fs` with `e`: the code on `fs` is at its end, or a panic comes out
of an operation that this code has called. -/
inductive Concludes (fs : List (Frame V N S)) :
    Doing V N S → List (Frame V N S) → Ending V → Prop
  | leaf {p : Prog V N S} {e} (last : p.ending? = some e) : Concludes fs (.run p) fs e
  | unwinds {payload p} :
      Concludes fs (.ended (.panicked payload)) (.resume p :: fs) (.panicked payload)

/-- A frame for code that waits for what it has called. -/
def Frame.Waits : Frame V N S → Prop
  | .resume _ | .guarding _ => True
  | _ => False

/-- What a thread does above `fs` is code of a program, or is called by such code. -/
inductive OnBody (fs : List (Frame V N S)) : Doing V N S → List (Frame V N S) → Prop
  | floor {d : Doing V N S} (own : d.Plain ∨ (∃ c o k, d = .deciding c o (some k)) ∨
      ∃ x r k, d = .settling x r (some k)) : OnBody fs d fs
  | deep {d} (inner : List (Frame V N S)) (bottom : Frame V N S) (waits : bottom.Waits) :
      OnBody fs d (inner ++ bottom :: fs)

section Inhabited
variable [Inhabited V] {s s' s'' : State V N S} {t u : ThreadId} {c r : CellId} {task : Task V N S}
  {name : Option String} {d : Doing V N S} {fs : List (Frame V N S)} {n : Next V N S} {p : Prog V N S}
  {e e' : Ending V} {x : Deeds V N S}

/-- A run from `s` to `s'` all along which `t` is above `fs`. -/
def Throughout (t : ThreadId) (fs : List (Frame V N S)) : State V N S → State V N S → Prop :=
  ReflTransGen fun s s' => (∃ m, s.move m = some s') ∧ s'.Above t fs

/-- A thread that does `d` in `s` is brought to `e` by some run. -/
def Doing.EndsIn (d : Doing V N S) (s : State V N S) (e : Ending V) : Prop :=
  ∃ s' t name name' fs, s.threads[t]? = some ⟨name, d, fs⟩ ∧ Throughout t fs s s' ∧
    s'.threads[t]? = some ⟨name', .ended e, fs⟩

/-- On the way from `s` to `s'` the thread is about to come back to `fs` with `e`. -/
def Concluding (t : ThreadId) (fs : List (Frame V N S)) (s s' : State V N S) (e : Ending V) : Prop :=
  ∃ s₁ name d gs, Throughout t fs s s₁ ∧ Throughout t fs s₁ s' ∧
    s₁.threads[t]? = some ⟨name, d, gs⟩ ∧ Concludes fs d gs e

/-- Wherever and with whatever around it the code runs, it ends in `e` if it ends. -/
def Prog.Computes (p : Prog V N S) (e : Ending V) : Prop :=
  ∀ s e', Reachable s → (Doing.run p).EndsIn s e' → e' = e

/-! ## One step of a body -/

theorem reaches_of_throughout (path : Throughout t fs s s') : Reaches s s' := by
  induction path with
  | refl => exact .refl s
  | tail _ step ih =>
    obtain ⟨⟨m, moved⟩, -⟩ := step
    exact ih.trans (.of_move moved)

theorem endsIn_next (ends : d.EndsIn s e) (up : ∀ w, d ≠ .asleep w) (on : ∀ e, d ≠ .ended e) :
    ∃ s₁ t fs n s₂, Reaches s s₁ ∧ Reaches s₁ s₂ ∧ s₁.next t d fs = some n ∧
      (n.frames = fs → n.doing.EndsIn s₂ e) := by
  obtain ⟨s', t, name, name', fs, found, path, ended⟩ := ends
  induction path using ReflTransGen.head_induction_on with
  | refl =>
    cases found.symm.trans ended
    exact absurd rfl (on e)
  | @head s s₁ step rest ih =>
    obtain ⟨⟨m, moved⟩, -⟩ := step
    by_cases own : m = .step t
    · subst own
      obtain ⟨thread, n, found', next, rfl⟩ := next_of_step moved
      cases found.symm.trans found'
      refine ⟨s, t, fs, n, _, .refl s, .of_move moved, next, fun same => ?_⟩
      refine ⟨s', t, name, name', fs, ?_, rest, ended⟩
      rw [thread_after (transition_of_next next) found, same]
    · obtain ⟨s₂, t', fs', n, s₃, reached, since, next, goesOn⟩ := ih (thread_kept moved own found up)
      exact ⟨s₂, t', fs', n, s₃, (Reaches.of_move moved).trans reached, since, next, goesOn⟩

theorem not_above_of_ended (found : s.threads[t]? = some ⟨name, .ended e, fs⟩)
    (moved : s.move (.step t) = some s') : ¬ s'.Above t fs := by
  rintro ⟨name', d, upper, above⟩
  obtain ⟨thread, n, found', next, rfl⟩ := next_of_step moved
  cases found.symm.trans found'
  have transition := transition_of_next next
  rw [thread_after transition found] at above
  have frames : n.frames = upper ++ fs := (Thread.mk.inj (Option.some.inj above)).2.2
  have shorter {upper rest : List (Frame V N S)} {frame : Frame V N S}
      (popped : rest = upper ++ frame :: rest) : False := by
    have lengths := congrArg List.length popped
    simp only [List.length_append, List.length_cons] at lengths
    omega
  cases transition with
  | plain was => exact was.elim
  | @wakes e y w ws q rest _ =>
    cases upper with
    | nil =>
      have ahead := congrArg List.length (Frame.waking.inj (List.cons.inj frames).1).2
      simp at ahead
    | cons frame upper => exact shorter (List.cons.inj frames).2
  | _ => exact shorter frames

theorem endsIn_ended (ends : (Doing.ended e : Doing V N S).EndsIn s e') : e' = e := by
  obtain ⟨s', t, name, name', fs, found, path, ended⟩ := ends
  induction path using ReflTransGen.head_induction_on with
  | refl =>
    cases found.symm.trans ended
    rfl
  | head step _ ih =>
    obtain ⟨⟨m, moved⟩, above⟩ := step
    by_cases own : m = .step t
    · subst own
      exact absurd above (not_above_of_ended found moved)
    · exact ih (thread_kept moved own found fun w asleep => by cases asleep)

/-- An operation that calls nothing leaves what follows to be computed. -/
theorem computes_of_perform (simple : ∀ (s : State V N S) t fs n, s.perform t p fs = some n →
    n.frames = fs ∧ (n.doing = .ended e ∨ ∃ q, n.doing = .run q ∧ q.Computes e)) : p.Computes e := by
  intro s e' reachable ends
  obtain ⟨s₁, t, fs, n, s₂, reached, since, next, goesOn⟩ :=
    endsIn_next ends (fun w asleep => by cases asleep) (fun e ended => by cases ended)
  obtain ⟨frames, ended | ⟨q, runs, computes⟩⟩ := simple s₁ t fs n next
  · have last := goesOn frames
    rw [ended] at last
    exact endsIn_ended last
  · have further := goesOn frames
    rw [runs] at further
    exact computes s₂ e' (reachable_of_reaches reachable (reached.trans since)) further

theorem computes_ret (v : V) : (Prog.ret v : Prog V N S).Computes (.value v) :=
  computes_of_perform fun _ _ _ _ moved => by
    cases moved
    exact ⟨rfl, Or.inl rfl⟩

theorem computes_err (failure : Failure) : (Prog.err failure : Prog V N S).Computes (.failed failure) :=
  computes_of_perform fun _ _ _ _ moved => by
    cases moved
    exact ⟨rfl, Or.inl rfl⟩

theorem computes_panic (payload : Payload) :
    (Prog.panic payload : Prog V N S).Computes (.panicked payload) :=
  computes_of_perform fun _ _ _ _ moved => by
    cases moved
    exact ⟨rfl, Or.inl rfl⟩

theorem computes_note (note : N) (computes : p.Computes e) : (Prog.note note p).Computes e :=
  computes_of_perform fun _ _ _ _ moved => by
    cases moved
    exact ⟨rfl, Or.inr ⟨p, rfl, computes⟩⟩

theorem endsIn_get {source : Outcome V} {k : Reading V → Prog V N S} (reachable : Reachable s)
    (decided : s.outcome? c = some source) (ends : (Doing.run (.get c k)).EndsIn s e) :
    ∃ s', Reachable s' ∧ (Doing.run (k source.reading)).EndsIn s' e := by
  obtain ⟨s₁, t, fs, n, s₂, reached, since, next, goesOn⟩ :=
    endsIn_next ends (fun w asleep => by cases asleep) (fun e ended => by cases ended)
  cases next
  obtain ⟨s₃, u, gs, n, s₄, reached', since', next, goesOn⟩ :=
    endsIn_next (goesOn rfl) (fun w asleep => by cases asleep) (fun e ended => by cases ended)
  have before : Reaches s s₃ := (reached.trans since).trans reached'
  have held : s₃.outcome? c = some source := (extends_of_reaches before).keeps decided
  obtain ⟨cell, found, outcome⟩ := Option.bind_eq_some_iff.mp held
  simp only [State.next, State.check, found, outcome, Option.some.injEq] at next
  subst next
  exact ⟨s₄, reachable_of_reaches reachable (before.trans since'), goesOn rfl⟩

/-! ## The last step of a body -/

omit [Inhabited V] in
theorem ending_of_perform (moved : s.perform t p fs = some n) (ended : n.doing = .ended e) :
    p.ending? = some e := by
  have registers {s : State V N S} {c : CellId} {task : Task V N S} {q : Prog V N S} :
      (s.register t c task q fs).doing ≠ .ended e := by
    unfold State.register
    split
    · nofun
    · split <;> nofun
  cases p with
  | ret v => cases moved; cases ended; rfl
  | err failure => cases moved; cases ended; rfl
  | panic payload => cases moved; cases ended; rfl
  | newCell a k => cases a <;> cases moved <;> cases ended
  | decide c a k =>
    simp only [State.perform] at moved
    split at moved <;> cases moved <;> cases ended
  | chain c body k => cases moved; exact absurd ended registers
  | transform c f k => cases moved; exact absurd ended registers
  | relay c k => cases moved; exact absurd ended registers
  | poll x w k =>
    cases moved
    unfold State.pollExternal at ended
    split at ended
    · cases ended
    · split at ended <;> cases ended
  | join u k =>
    obtain ⟨_, -, rfl⟩ := Option.map_eq_some_iff.mp moved
    cases ended
  | _ => cases moved; cases ended

theorem ending_of_plain (next : s.next t d fs = some n) (plain : d.Plain) (ended : n.doing = .ended e) :
    ∃ p, d = .run p ∧ p.ending? = some e := by
  cases d with
  | run p => exact ⟨p, rfl, ending_of_perform next ended⟩
  | checking w =>
    obtain ⟨cell, -, ⟨-, rfl⟩ | ⟨o, -, rfl⟩⟩ := check_cases next
    · cases ended
    · cases ended
  | asleep w =>
    obtain ⟨-, rfl⟩ := notified_of_next next
    cases ended
  | expired c limit k =>
    cases next
    unfold State.giveUp at ended
    split at ended <;> cases ended
  | _ => exact plain.elim

theorem onBody_of_next {gs : List (Frame V N S)} (next : s.next t d gs = some n) (on : OnBody fs d gs) :
    OnBody fs n.doing n.frames ∨
      ∃ e, n.doing = .ended e ∧ n.frames = fs ∧ Concludes fs d gs e := by
  have transition := transition_of_next next
  cases on with
  | floor own =>
    rcases own with plain | ⟨c, o, k, rfl⟩ | ⟨x, r, k, rfl⟩
    · cases transition with
      | plain was is still =>
        rcases is with plain' | ⟨e, rfl⟩
        · exact Or.inl (.floor (Or.inl plain'))
        · obtain ⟨p, rfl, last⟩ := ending_of_plain next was rfl
          exact Or.inr ⟨e, rfl, rfl, .leaf last⟩
      | guards => exact Or.inl (.deep [] _ trivial)
      | inlines => exact Or.inl (.deep [] _ trivial)
      | asks => exact Or.inl (.floor (Or.inr (Or.inl ⟨_, _, _, rfl⟩)))
      | asksExternal => exact Or.inl (.floor (Or.inr (Or.inr ⟨_, _, _, rfl⟩)))
      | creates | strays | queues => exact Or.inl (.floor (Or.inl trivial))
      | _ => exact plain.elim
    · cases transition with
      | plain was => exact was.elim
      | loses => exact Or.inl (.floor (Or.inl trivial))
      | wins => exact Or.inl (.deep [] _ trivial)
    · cases transition with
      | plain was => exact was.elim
      | refuses => exact Or.inl (.floor (Or.inl trivial))
      | settles => exact Or.inl (.deep [_] _ trivial)
  | deep inner bottom waits =>
    rcases frames_of_transition transition with
      ⟨new, grown⟩ | ⟨e, frame, rest, new, ended, popped, grown⟩
    · rw [grown, ← List.append_assoc]
      exact Or.inl (.deep (new ++ inner) bottom waits)
    · cases inner with
      | cons first inner =>
        have same : rest = inner ++ bottom :: fs := (List.cons.inj popped).2.symm
        rw [grown, same, ← List.append_assoc]
        exact Or.inl (.deep (new ++ inner) bottom waits)
      | nil =>
        subst ended
        rw [List.nil_append] at transition
        cases bottom with
        | resume q =>
          cases transition with
          | plain was => exact was.elim
          | resumes => exact Or.inl (.floor (Or.inl trivial))
          | unwinds => exact Or.inr ⟨_, rfl, rfl, .unwinds⟩
        | guarding k =>
          cases transition with
          | plain was => exact was.elim
          | catches => exact Or.inl (.floor (Or.inl trivial))
          | unwinds passes => exact passes.elim
        | _ => exact waits.elim

/-- What others do and the time leave a thread what it does, but a wait may expire. -/
theorem thread_of_other {m : Move} (moved : s.move m = some s') (other : m ≠ .step t)
    (found : s.threads[t]? = some ⟨name, d, fs⟩) :
    ∃ d', s'.threads[t]? = some ⟨name, d', fs⟩ ∧ (d' = d ∨ d.Plain ∧ d'.Plain) := by
  by_cases stepped : ∃ u, m = .step u
  · obtain ⟨u, rfl⟩ := stepped
    obtain ⟨thread, n, -, next, rfl⟩ := next_of_step moved
    exact ⟨d, thread_other (transition_of_next next) (fun same => other (same ▸ rfl)) found, Or.inl rfl⟩
  · rcases thread_of_lull moved (fun u same => stepped ⟨u, same⟩) t with
      same | ⟨name', w, c, limit, k, fs', before, after⟩
    · exact ⟨d, same.trans found, Or.inl rfl⟩
    · cases found.symm.trans before
      exact ⟨_, after, Or.inr ⟨trivial, trivial⟩⟩

theorem above_of_other {m : Move} (moved : s.move m = some s') (other : m ≠ .step u)
    (above : s.Above u fs) : s'.Above u fs := by
  obtain ⟨name, d, upper, found⟩ := above
  obtain ⟨d', found', -⟩ := thread_of_other moved other found
  exact ⟨name, d', upper, found'⟩

omit [Inhabited V] in
theorem OnBody.same {d d' : Doing V N S} {gs : List (Frame V N S)} (on : OnBody fs d gs)
    (same : d' = d ∨ d.Plain ∧ d'.Plain) : OnBody fs d' gs := by
  rcases same with rfl | ⟨-, plain⟩
  · exact on
  · cases on with
    | floor => exact .floor (Or.inl plain)
    | deep inner bottom waits => exact .deep inner bottom waits

omit [Inhabited V] in
theorem OnBody.not_back {gs : List (Frame V N S)} (on : OnBody fs (.ended e) gs) : gs ≠ fs := by
  cases on with
  | floor own =>
    rcases own with plain | ⟨_, _, _, other⟩ | ⟨_, _, _, other⟩
    · exact plain.elim
    · cases other
    · cases other
  | deep inner bottom waits =>
    intro same
    have lengths := congrArg List.length same
    simp only [List.length_append, List.length_cons] at lengths
    omega

theorem onBody_of_move {gs : List (Frame V N S)} (found : s.threads[t]? = some ⟨name, d, gs⟩)
    (on : OnBody fs d gs) {m : Move} (moved : s.move m = some s') :
    (∃ d' gs', s'.threads[t]? = some ⟨name, d', gs'⟩ ∧ OnBody fs d' gs') ∨
      ∃ e, s'.threads[t]? = some ⟨name, .ended e, fs⟩ ∧ Concludes fs d gs e := by
  by_cases own : m = .step t
  · subst own
    obtain ⟨thread, n, found', next, rfl⟩ := next_of_step moved
    cases found.symm.trans found'
    have after : (n.state.setThread t ⟨name, n.doing, n.frames⟩).threads[t]? =
        some ⟨name, n.doing, n.frames⟩ := thread_after (transition_of_next next) found
    rcases onBody_of_next next on with on' | ⟨e, ended, back, concludes⟩
    · exact Or.inl ⟨_, _, after, on'⟩
    · exact Or.inr ⟨e, ended ▸ back ▸ after, concludes⟩
  · obtain ⟨d', found', same⟩ := thread_of_other moved own found
    exact Or.inl ⟨d', gs, found', on.same same⟩

theorem concluding_of_throughout (found : s.threads[t]? = some ⟨name, .run p, fs⟩)
    (path : Throughout t fs s s') {name' : Option String}
    (ended : s'.threads[t]? = some ⟨name', .ended e, fs⟩) : Concluding t fs s s' e := by
  have along : (∃ d gs, s'.threads[t]? = some ⟨name, d, gs⟩ ∧ OnBody fs d gs) ∨
      ∃ e, s'.threads[t]? = some ⟨name, .ended e, fs⟩ ∧ Concluding t fs s s' e := by
    clear ended
    induction path with
    | refl => exact Or.inl ⟨_, _, found, .floor (Or.inl trivial)⟩
    | @tail s₁ s₂ path step ih =>
      have last : Throughout t fs s₁ s₂ := .single step
      obtain ⟨⟨m, moved⟩, above⟩ := step
      rcases ih with ⟨d, gs, found₁, on⟩ | ⟨e, found₁, s₀, name₀, d, gs, before, after, found₀, concludes⟩
      · rcases onBody_of_move found₁ on moved with further | ⟨e, ended, concludes⟩
        · exact Or.inl further
        · exact Or.inr ⟨e, ended, s₁, name, d, gs, path, last, found₁, concludes⟩
      · -- The next step of the thread is the one that takes it below.
        have other : m ≠ .step t := fun own => not_above_of_ended found₁ (own ▸ moved) above
        have found₂ := thread_kept moved other found₁ fun w asleep => by cases asleep
        exact Or.inr ⟨e, found₂, s₀, name₀, d, gs, before, after.trans last, found₀, concludes⟩
  rcases along with ⟨d, gs, found', on⟩ | ⟨e', found', concluding⟩
  · cases found'.symm.trans ended
    exact absurd rfl on.not_back
  · cases found'.symm.trans ended
    exact concluding

/-! ## The ending that is captured -/

/-- Thread `u` has begun `p` when `c` was decided, and it is still above the frame that captures the
ending for `r`. -/
inductive RunsFor (c r : CellId) (p : Prog V N S) (u : ThreadId) (s : State V N S) : Prop
  | since {s₀ name below} (past : Reachable s₀) (decided : s₀.outcome? c ≠ none)
      (found : s₀.threads[u]? = some ⟨name, .run p, .capturing r :: below⟩)
      (path : Throughout u (.capturing r :: below) s₀ s)

/-- Some thread has begun `p` when `c` was decided, above the frame that captures the ending for `r`, and
by `s` it has come back to this frame with `e`. -/
inductive HasRun (c r : CellId) (p : Prog V N S) (s : State V N S) (e : Ending V) : Prop
  | since {s₀ s₁ u name name' below} (past : Reachable s₀) (decided : s₀.outcome? c ≠ none)
      (found : s₀.threads[u]? = some ⟨name, .run p, .capturing r :: below⟩)
      (path : Throughout u (.capturing r :: below) s₀ s₁)
      (ended : s₁.threads[u]? = some ⟨name', .ended e, .capturing r :: below⟩)
      (concluding : Concluding u (.capturing r :: below) s₀ s₁ e) (reached : Reaches s₁ s)

/-- What has been done for the continuation at `c` that decides `r`: the code that was set going still
runs, or it has ended in what was captured. -/
structure Brings (c r : CellId) (s : State V N S) (x : Deeds V N S) : Prop where
  running : ∀ p ∈ x.begun, ∀ u, .capture ∈ s.parts r u → RunsFor c r p u s
  ended : ∀ p ∈ x.begun, ∀ e ∈ x.ended, HasRun c r p s e

theorem above_of_throughout (path : Throughout t fs s s') (start : s.Above t fs) : s'.Above t fs := by
  cases path with
  | refl => exact start
  | tail _ step => exact step.2

theorem HasRun.mono (run : HasRun c r p s e) (reached : Reaches s s') : HasRun c r p s' e := by
  obtain ⟨past, decided, found, path, ended, concluding, before⟩ := run
  exact ⟨past, decided, found, path, ended, concluding, before.trans reached⟩

theorem HasRun.endsIn (run : HasRun c r p s e) : ∃ s₀, Reachable s₀ ∧ s₀.outcome? c ≠ none ∧
    Reaches s₀ s ∧ (Doing.run p).EndsIn s₀ e := by
  obtain ⟨past, decided, found, path, ended, -, reached⟩ := run
  exact ⟨_, past, decided, (reaches_of_throughout path).trans reached, _, _, _, _, _, found, path, ended⟩

/-- A thread that takes a step stays above the frame that captures, unless the step is the capture. -/
theorem above_of_own {below : List (Frame V N S)} (found : s.threads[u]? = some ⟨name, d, fs⟩)
    (next : s.next u d fs = some n) (above : s.Above u (.capturing r :: below))
    (kept : ∀ e frame rest, d = .ended e → fs = frame :: rest → frame.part? r = none) :
    (n.state.setThread u ⟨name, n.doing, n.frames⟩).Above u (.capturing r :: below) := by
  obtain ⟨name', d', upper, found'⟩ := above
  cases found.symm.trans found'
  have transition := transition_of_next next
  refine ⟨name, n.doing, ?_⟩
  rw [thread_after transition found]
  rcases frames_of_transition transition with
    ⟨new, grown⟩ | ⟨e, frame, rest, new, ended, popped, grown⟩
  · exact ⟨new ++ upper, by rw [grown, List.append_assoc]⟩
  · have other := kept e frame rest ended popped
    cases upper with
    | nil =>
      cases popped
      simp [Frame.part?] at other
    | cons first upper =>
      have here : rest = upper ++ _ := (List.cons.inj popped).2.symm
      exact ⟨new ++ upper, by rw [grown, here, List.append_assoc]⟩

theorem RunsFor.goesOn (runs : RunsFor c r p u s) {m : Move} (moved : s.move m = some s')
    (stays : ∀ below, s.Above u (.capturing r :: below) → s'.Above u (.capturing r :: below)) :
    RunsFor c r p u s' := by
  obtain ⟨past, decided, found, path⟩ := runs
  have above := above_of_throughout path ⟨_, _, [], found⟩
  exact ⟨past, decided, found, path.tail ⟨⟨m, moved⟩, stays _ above⟩⟩

omit [Inhabited V] in
theorem parts_of_standing (standing : Standing c task s x) (u : ThreadId) :
    s.parts task.result u = [] ∨ s.parts task.result u = [.start] ∨
      s.parts task.result u = [.capture, .finish c] ∨ s.parts task.result u = [.decide, .finish c] ∨
      s.parts task.result u = [.finish c] := by
  have owned {t : ThreadId} {ps : List Part}
      (alone : s.parts task.result = Function.update (fun _ => []) t ps) :
      s.parts task.result u = [] ∨ s.parts task.result u = ps :=
    or_iff_not_imp_left.mpr fun busy => (owner_of_parts busy alone).2
  cases standing with
  | waiting _ idle => exact Or.inl (congrFun idle u)
  | finished _ _ idle => exact Or.inl (congrFun idle u)
  | held _ _ held =>
    cases held with
    | taken _ alone => exact (owned alone).imp_right Or.inl
    | running _ _ alone => exact (owned alone).imp_right fun here => Or.inr (Or.inl here)
    | deciding _ _ _ alone =>
      exact (owned alone).imp_right fun here => Or.inr (Or.inr (Or.inl here))
    | finishing _ _ _ alone =>
      exact (owned alone).imp_right fun here => Or.inr (Or.inr (Or.inr here))

omit [Inhabited V] in
theorem capture_first (standing : Standing c task s x) {part : Part} {ps : List Part}
    (here : s.parts task.result t = part :: ps) : .capture ∉ ps := by
  have parts := parts_of_standing standing t
  rw [here] at parts
  rcases parts with same | same | same | same | same <;> cases same <;> simp

omit [Inhabited V] in
theorem fresh_of_start (standing : Standing c task s x) (start : .start ∈ s.parts task.result t) :
    x = .none ∧ (∃ name fs, s.threads[t]? = some ⟨name, .starting c task, fs⟩) ∧
      ∀ u, u ≠ t → s.parts task.result u = [] := by
  have owner {v : ThreadId} {ps : List Part}
      (alone : s.parts task.result = Function.update (fun _ => []) v ps) : t = v ∧ .start ∈ ps := by
    obtain ⟨own, here⟩ := owner_of_parts (List.ne_nil_of_mem start) alone
    exact ⟨own, here ▸ start⟩
  cases standing with
  | waiting _ idle => exact absurd start (by simp [idle])
  | finished _ _ idle => exact absurd start (by simp [idle])
  | held _ _ held =>
    cases held with
    | taken found alone =>
      obtain ⟨rfl, -⟩ := owner alone
      refine ⟨rfl, ⟨_, _, found⟩, fun u other => ?_⟩
      rw [alone, Function.update_of_ne other]
    | running _ _ alone => exact absurd (owner alone).2 (by simp)
    | deciding _ _ _ alone => exact absurd (owner alone).2 (by simp)
    | finishing _ _ _ alone => exact absurd (owner alone).2 (by simp)

omit [Inhabited V] in
theorem begun_cases (begun : p ∈ n.begun r) :
    n.doing = .run p ∧ ∃ below, n.frames = .capturing r :: below := by
  unfold Next.begun at begun
  split at begun
  next q b below doing frames =>
    split at begun
    next same =>
      cases List.mem_singleton.mp begun
      exact ⟨doing, below, by rw [frames, same]⟩
    next => cases begun
  next => cases begun

/-- What is captured when the code for `r` is all that its thread still has to do for it. -/
theorem hasRun_of_captured {rest : List (Frame V N S)} (runs : RunsFor c r p t s)
    (found : s.threads[t]? = some ⟨name, .ended e, .capturing r :: rest⟩)
    (last : .capture ∉ rest.filterMap (Frame.part? r)) : HasRun c r p s e := by
  obtain ⟨past, decided, found₀, path⟩ := runs
  obtain ⟨name', d, upper, above⟩ := above_of_throughout path ⟨_, _, [], found₀⟩
  cases upper with
  | nil =>
    cases found.symm.trans above
    exact ⟨past, decided, found₀, path, found, concluding_of_throughout found₀ path found, .refl s⟩
  | cons frame upper =>
    cases found.symm.trans above
    exact absurd (by simp [Frame.part?]) last

section Turn
variable {ps ps' : List Part} {z : Deeds V N S}

theorem runsFor_of_turn (found : s.threads[t]? = some ⟨name, d, fs⟩) (next : s.next t d fs = some n)
    (was : partsOf task.result d fs = ps) (now : partsOf task.result n.doing n.frames = ps')
    (turn : Turn s t task.result d fs n ps ps' z) (standing : Standing c task s x) (begun : p ∈ x.begun)
    (runs : .capture ∈ s.parts task.result u → RunsFor c task.result p u s)
    (busy : .capture ∈ (n.state.setThread t ⟨name, n.doing, n.frames⟩).parts task.result u) :
    RunsFor c task.result p u (n.state.setThread t ⟨name, n.doing, n.frames⟩) := by
  have moved : s.move (.step t) = some (n.state.setThread t ⟨name, n.doing, n.frames⟩) :=
    step_of_next found next
  have here : s.parts task.result t = ps := (parts_of_found found).trans was
  rw [parts_of_step found (transition_of_next next), now] at busy
  by_cases own : u = t
  · subst own
    rw [Function.update_self] at busy
    have goesOn (still : .capture ∈ ps)
        (kept : ∀ e frame rest, d = .ended e → fs = frame :: rest → frame.part? task.result = none) :
        RunsFor c task.result p u (n.state.setThread u ⟨name, n.doing, n.frames⟩) :=
      (runs (here ▸ still)).goesOn moved fun _ above => above_of_own found next above kept
    cases turn with
    | aside _ other => exact goesOn busy other
    | takes loop => exact goesOn (by simpa using busy) fun e _ _ ended => by cases loop.symm.trans ended
    | begins =>
      obtain ⟨rfl, -⟩ := fresh_of_start (t := u) standing (here ▸ List.mem_cons_self ..)
      cases begun
    | handsOn => exact absurd (by simpa using busy) (capture_first standing here)
    | captures => exact absurd (by simpa using busy) (capture_first standing here)
    | decides => exact absurd busy (capture_first standing here)
    | finishes => exact absurd busy (capture_first standing here)
  · rw [Function.update_of_ne own] at busy
    exact (runs busy).goesOn moved fun _ above =>
      above_of_other moved (fun same => own (Move.step.inj same).symm) above

/-- The code that a step sets going runs above the frame that captures its ending. -/
theorem runsFor_of_begins (reachable : Reachable s) (found : s.threads[t]? = some ⟨name, d, fs⟩)
    (next : s.next t d fs = some n) (was : partsOf task.result d fs = ps)
    (now : partsOf task.result n.doing n.frames = ps') (turn : Turn s t task.result d fs n ps ps' z)
    (standing : Standing c task s x) (begun : p ∈ z.begun)
    (busy : .capture ∈ (n.state.setThread t ⟨name, n.doing, n.frames⟩).parts task.result u) :
    RunsFor c task.result p u (n.state.setThread t ⟨name, n.doing, n.frames⟩) := by
  have transition := transition_of_next next
  let after := n.state.setThread t ⟨name, n.doing, n.frames⟩
  have moved : s.move (.step t) = some after := step_of_next found next
  have here : s.parts task.result t = ps := (parts_of_found found).trans was
  rw [parts_of_step found transition, now] at busy
  cases turn with
  | @begins ps b task' source starting decided _ code =>
    obtain ⟨-, ⟨_, _, found'⟩, alone⟩ :=
      fresh_of_start (t := t) standing (here ▸ List.mem_cons_self ..)
    cases found.symm.trans found'
    cases starting
    by_cases own : u = t
    · subst own
      obtain ⟨doing, below, frames⟩ := begun_cases (code.symm ▸ begun)
      have later : Extends s after := (extends_of_transition transition).of_same rfl rfl
      have stepped : after.threads[u]? = some ⟨name, .run p, .capturing task.result :: below⟩ := by
        rw [thread_after transition found, doing, frames]
      exact .since (reachable_of_reaches reachable (.of_move moved))
        (later.decided (by rw [decided]; simp)) stepped .refl
    · rw [Function.update_of_ne own, alone u own] at busy
      cases busy
  | _ => cases begun

theorem hasRun_of_turn (found : s.threads[t]? = some ⟨name, d, fs⟩)
    (was : partsOf task.result d fs = ps) (turn : Turn s t task.result d fs n ps ps' z)
    (standing : Standing c task s x) (brings : Brings c task.result s x)
    (begun : p ∈ (x.also z).begun) (ended : e ∈ (x.also z).ended) : HasRun c task.result p s e := by
  have here : s.parts task.result t = ps := (parts_of_found found).trans was
  cases turn with
  | begins =>
    obtain ⟨rfl, -⟩ := fresh_of_start (t := t) standing (here ▸ List.mem_cons_self ..)
    cases ended
  | @captures ps e' rest stops captured _ =>
    subst stops captured
    have old : p ∈ x.begun := by simpa [Deeds.also] using begun
    have below : rest.filterMap (Frame.part? task.result) = ps := by
      simpa [partsOf, Doing.part?, Frame.part?] using was
    have last : .capture ∉ ps := capture_first standing here
    rcases List.mem_append.mp ended with before | now
    · exact brings.ended p old e before
    · cases List.mem_singleton.mp now
      have runs := brings.running p old t (here ▸ List.mem_cons_self ..)
      exact hasRun_of_captured runs found (below ▸ last)
  | _ =>
    simp only [Deeds.also, Deeds.none, List.append_nil] at begun ended
    exact brings.ended p begun e ended

end Turn

theorem brings_of_move {m : Move} (moved : s.move m = some s') (reachable : Reachable s)
    (known : task.result < s.cells.size) (standing : Standing c task s x)
    (brings : Brings c task.result s x) :
    Brings c task.result s' (x.also (s.deeds task.result m)) := by
  by_cases stepped : ∃ t, m = .step t
  · obtain ⟨t, rfl⟩ := stepped
    obtain ⟨⟨name, d, fs⟩, n, found, next, rfl⟩ := next_of_step moved
    obtain ⟨z, turn⟩ := turning_of_next next ((sound_of_reachable reachable).threads t _ found) known
    rw [deeds_of_turn found next turn]
    refine ⟨fun p begun u busy => ?_, fun p begun e ended => ?_⟩
    · rcases List.mem_append.mp begun with old | new
      · exact runsFor_of_turn found next rfl rfl turn standing old (brings.running p old u) busy
      · exact runsFor_of_begins reachable found next rfl rfl turn standing new busy
    · exact (hasRun_of_turn found rfl turn standing brings begun ended).mono (.of_move moved)
  · have idle (t : ThreadId) : m ≠ .step t := fun same => stepped ⟨t, same⟩
    rw [deeds_of_idle idle, Deeds.also_none]
    refine ⟨fun p begun u busy => ?_, fun p begun e ended => ?_⟩
    · rw [parts_of_lull moved idle] at busy
      exact (brings.running p begun u busy).goesOn moved fun _ above =>
        above_of_other moved (idle u) above
    · exact (brings.ended p begun e ended).mono (.of_move moved)

/-- Along every run from its registration on, a continuation captures what its code ends in. -/
theorem brings_of_run (reachable : Reachable s) (registered : Registered c task s) {ms : List Move}
    (ran : s.run ms = some s') : Brings c task.result s' (s.record task.result ms) := by
  have known : task.result < s.cells.size := registered.has
  refine run_induct (P := fun ms s' => Brings c task.result s' (s.record task.result ms)) ?_ ?_ ran
  · have nothing (p : Prog V N S) : p ∉ (s.record task.result []).begun := List.not_mem_nil
    exact ⟨fun p begun => absurd begun (nothing p), fun p begun => absurd begun (nothing p)⟩
  · intro ms s₁ m s₂ before brings moved
    have since := extends_of_reaches ⟨ms, before⟩
    rw [record_snoc before]
    exact brings_of_move moved (reachable_of_reaches reachable ⟨ms, before⟩)
      (Nat.lt_of_lt_of_le known since.cells) (standing_of_run reachable registered before) brings

omit [Inhabited V] in
theorem came_of_tried (standing : Standing c task s x) {a : Try V N S} (tried : a ∈ x.tried) :
    ∃ source o, s.outcome? c = some source ∧ task.ComesTo source x.begun x.ended o ∧
      a.reading = o.reading := by
  cases standing with
  | waiting => cases tried
  | held _ _ held =>
    cases held with
    | finishing decided comes reading =>
      cases List.mem_singleton.mp tried
      exact ⟨_, _, decided, comes, reading⟩
    | _ => cases tried
  | finished _ _ _ done =>
    obtain ⟨source, o, own, decided, comes, only, reading⟩ := done
    rw [only] at tried
    cases List.mem_singleton.mp tried
    exact ⟨source, o, decided, comes, reading⟩

/-- A continuation whose own attempt was the first has decided its cell with what it came to. -/
theorem comes_of_decided (reachable : Reachable s) (registered : Registered c task s) {ms : List Move}
    (ran : s.run ms = some s') (first : ∀ a ∈ (s.tries (.cell task.result) ms).head?, a.answer = none)
    {o : Outcome V} (decided : s'.outcome? task.result = some o) :
    ∃ source begun ended, s'.outcome? c = some source ∧ task.ComesTo source begun ended o ∧
      ∀ p ∈ begun, ∀ e ∈ ended, HasRun c task.result p s' e := by
  have holds : s'.holds? (.cell task.result) = some o.reading := by rw [State.holds?, decided]; rfl
  obtain ⟨a, rest, tries, won⟩ : ∃ a rest, s.tries (.cell task.result) ms = a :: rest ∧
      a.reading = o.reading := by
    rcases winner_of_run ran registered.undecided registered.has with
      ⟨-, nobody⟩ | ⟨a, rest, -, tries, -, landed, -⟩
    · cases holds.symm.trans nobody
    · exact ⟨a, rest, tries, Option.some.inj (landed.symm.trans holds)⟩
  have own : a.answer = none := first a (by rw [tries]; rfl)
  have tried : a ∈ (s.record task.result ms).tried := by
    refine List.mem_filter.mpr ⟨by rw [tries]; exact List.mem_cons_self .., ?_⟩
    rw [Try.unasked, own]
    rfl
  obtain ⟨source, asked, held, comes, reading⟩ :=
    came_of_tried (standing_of_run reachable registered ran) tried
  rw [Outcome.reading_injective (reading.symm.trans won)] at comes
  exact ⟨source, _, _, held, comes, (brings_of_run reachable registered ran).ended⟩

/-! ## What becomes of a continuation -/

/-- How the continuation `task` of `c` has ended by `s`, in the run `ms` from `s₀`: `source` is what it
found, `asked` the outcome that it asked for, and `own` its attempt. -/
structure Ends (s₀ : State V N S) (ms : List Move) (s : State V N S) (c : CellId) (task : Task V N S)
    (source asked : Outcome V) (earlier : List (Try V N S)) (own : Try V N S)
    (later : List (Try V N S)) : Prop where
  held : s.outcome? c = some source
  ran : task.ComesTo source (s₀.gather (State.begins task.result) ms)
    (s₀.gather (State.endings task.result) ms) asked
  /-- The ending that was captured is that of the body. -/
  captured : ∀ p ∈ s₀.gather (State.begins task.result) ms,
    ∀ e ∈ s₀.gather (State.endings task.result) ms, HasRun c task.result p s e
  attempts : s₀.tries (.cell task.result) ms = earlier ++ own :: later
  own : own.answer = none ∧ own.reading = asked.reading
  /-- All others cancel. -/
  others : ∀ a ∈ earlier ++ later, a.answer ≠ none ∧ a.reading = .error .cancelled
  lands : earlier = [] → ∀ s', Reaches s s' → s'.outcome? task.result = some asked
  overruled : earlier ≠ [] → ∀ s', Reaches s s' → s'.outcome? task.result = some .cancelled

structure Continues (s₀ : State V N S) (ms : List Move) (s : State V N S) (c : CellId)
    (task : Task V N S) : Prop where
  once : (s₀.gather (State.begins task.result) ms).length ≤ 1
  finishes : s.Quiet → s.outcome? c ≠ none → ∃ t, ⟨t, .finished c task.result⟩ ∈ s.history
  ends : ∀ {t}, ⟨t, .finished c task.result⟩ ∈ s.history →
    ∃ source asked earlier own later, Ends s₀ ms s c task source asked earlier own later

/-- A continuation that is finished has ended, and its cell holds for ever what this has come to. -/
theorem ends_of_done (reachable : Reachable s) (registered : Registered c task s) {ms : List Move}
    (ran : s.run ms = some s') (done : Done c task s' (s.record task.result ms)) :
    ∃ source asked earlier own later, Ends s ms s' c task source asked earlier own later := by
  obtain ⟨source, asked, own, held, comes, tried, reading⟩ := done
  have derives : s.Derives task.result := ⟨_, registered.derived, rfl⟩
  obtain ⟨earlier, later, attempts, before, unasked, after⟩ := List.filter_eq_cons_iff.mp tried
  have answer : own.answer = none := Option.isNone_iff_eq_none.mp unasked
  have others : ∀ a ∈ earlier ++ later, a.answer ≠ none ∧ a.reading = .error .cancelled := by
    intro a member
    have asked : a.answer ≠ none := by
      rcases List.mem_append.mp member with first | last
      · simpa [Try.unasked] using before a first
      · simpa [Try.unasked] using List.filter_eq_nil_iff.mp after a last
    refine ⟨asked, cancels_of_try reachable derives ran ?_ asked⟩
    rw [attempts]
    rcases List.mem_append.mp member with first | last
    · exact List.mem_append_left _ first
    · exact List.mem_append_right _ (List.mem_cons_of_mem _ last)
  have lands {o : Outcome V} (holds : s'.holds? (.cell task.result) = some o.reading) :
      ∀ s'', Reaches s' s'' → s''.outcome? task.result = some o := by
    intro s'' reached
    obtain ⟨o', outcome, same⟩ := Option.map_eq_some_iff.mp ((extends_of_reaches reached).holds holds)
    rw [outcome, Outcome.reading_injective same]
  rcases winner_of_run ran registered.undecided registered.has with
    ⟨nobody, -⟩ | ⟨first, rest, _, tries, -, holds, -⟩
  · simp [attempts] at nobody
  refine ⟨source, asked, earlier, own, later, held, comes,
    (brings_of_run reachable registered ran).ended, attempts, ⟨answer, reading⟩, others, ?_, ?_⟩
  · rintro rfl
    obtain ⟨rfl, -⟩ := List.cons.inj (attempts.symm.trans tries)
    exact lands (holds.trans (congrArg some reading))
  · intro some
    obtain ⟨a, earlier, rfl⟩ := List.exists_cons_of_ne_nil some
    obtain ⟨rfl, -⟩ := List.cons.inj (attempts.symm.trans tries)
    exact lands (o := .cancelled) (holds.trans (congrArg _ (others a (by simp)).2))

theorem continuation_ends (reachable : Reachable s) {p : Prog V N S}
    (found : s.threads[t]? = some ⟨name, .run p, fs⟩) (registers : p.task? s = some (c, task))
    (inside : c < s.cells.size) {ms : List Move} (ran : s.run (.step t :: ms) = some s') :
    Continues s (.step t :: ms) s' c task := by
  obtain ⟨s₁, moved, onwards⟩ := Option.bind_eq_some_iff.mp ran
  have reachable₁ := reachable_of_reaches reachable (.of_move moved)
  have registered := registered_of_task? reachable found registers inside moved
  have standing := standing_of_run reachable₁ registered onwards
  have begins : s.gather (State.begins task.result) (.step t :: ms) =
      s₁.gather (State.begins task.result) ms := by
    simp [State.gather, moved, State.begins, found]
  have endings : s.gather (State.endings task.result) (.step t :: ms) =
      s₁.gather (State.endings task.result) ms := by
    simp [State.gather, moved, State.endings, found]
  refine ⟨?_, ?_, ?_⟩
  · rw [begins]
    exact begun_of_standing standing
  · intro quiet decided
    exact finished_iff.mp
      (finished_of_quiet (reachable_of_reaches reachable ⟨_, ran⟩) standing quiet decided)
  · intro u past
    have done := done_of_standing standing (finished_iff.mpr ⟨u, past⟩)
    obtain ⟨source, asked, earlier, own, later, ends⟩ := ends_of_done reachable₁ registered onwards done
    refine ⟨source, asked, earlier, own, later, ends.held, ?_, ?_, ?_, ends.own, ends.others, ends.lands,
      ends.overruled⟩
    · rw [begins, endings]
      exact ends.ran
    · rw [begins, endings]
      exact ends.captured
    · rw [tries_of_call found moved]
      exact ends.attempts

/-- A body that cancels its own future before it fails. -/
def lateBody : Prog Nat Empty Unit := .decide 2 .cancel fun _ => .err (.message "late")

/-- It is registered while the dispatch of the first cell is still running. -/
def lateRegistration : Prog Nat Empty Unit :=
  .newCell none fun c => .chain c (.chain c lateBody fun _ => .ret 1) fun _ =>
    .decide c .cancel fun _ => .ret 0

theorem continuation_ends_late : ∃ s₀ s : State Nat Empty Unit, Reachable s₀ ∧
    s₀.dispatches 0 = true ∧ s₀.run (List.replicate 23 (.step 0)) = some s ∧
    Continues s₀ (List.replicate 23 (.step 0)) s 0 (.chain 2 lateBody) ∧
    ⟨0, .finished 0 2⟩ ∈ s.history ∧
    s₀.gather (State.begins 2) (List.replicate 23 (.step 0)) = [lateBody] ∧
    s₀.gather (State.endings 2) (List.replicate 23 (.step 0)) = [.failed (.message "late")] ∧
    s.outcome? 2 = some .cancelled := by
  obtain ⟨s₀, s, before, found, two, dispatching, after, last, begun, ended, cancelled⟩ :
      ∃ s₀ s, (State.start () lateRegistration).run (List.replicate 7 (.step 0)) = some s₀ ∧
        (∃ name fs, s₀.threads[0]? = some ⟨name, .run (.chain 0 lateBody fun _ => .ret 1), fs⟩) ∧
        s₀.cells.size = 2 ∧ s₀.dispatches 0 = true ∧ s₀.run (List.replicate 23 (.step 0)) = some s ∧
        s.history.head? = some ⟨0, .finished 0 2⟩ ∧
        s₀.gather (State.begins 2) (List.replicate 23 (.step 0)) = [lateBody] ∧
        s₀.gather (State.endings 2) (List.replicate 23 (.step 0)) = [.failed (.message "late")] ∧
        s.outcome? 2 = some .cancelled := ⟨_, _, rfl, ⟨_, _, rfl⟩, rfl, rfl, rfl, rfl, rfl, rfl, rfl⟩
  obtain ⟨name, fs, found⟩ := found
  have reachable : Reachable s₀ := ⟨(), _, _, before⟩
  have registers : (Prog.chain 0 lateBody fun _ => .ret 1).task? s₀ = some (0, .chain 2 lateBody) := by
    rw [Prog.task?, two]
  exact ⟨s₀, s, reachable, dispatching, after,
    continuation_ends reachable found registers (two ▸ Nat.zero_lt_two) after, List.mem_of_head? last,
    begun, ended, cancelled⟩

end Inhabited
end Oneshot
