import Oneshot.Proofs.Lineage
import Oneshot.Proofs.Observers

/-! # Where a cause was introduced

Whatever raises a failure introduces a cause with an identity of its own.  Two objects hold causes of
one identity just if both got it from the one object where it was introduced, and a read error that a
body passes on is the inside of a new cause (`provenance_of_run`). -/
set_option autoImplicit false
namespace Oneshot
variable {V N S : Type}

namespace Finding

def error? : Finding V → Option ReadError
  | .tried (some (.error e)) | .read (.error e) => some e
  | _ => none

/-- Fails with the error that was read, and goes on if none was. -/
def orFail (k : Finding V → Prog V N S) (finding : Finding V) : Prog V N S :=
  match finding.error? with
  | some e => .err (.unread e)
  | none => k finding

theorem held_of_error {finding : Finding V} {a : Cause} {held : Option (Reading V)}
    (error : finding.error? = some (.failed a)) (describes : finding.Describes held) :
    held = some (.error (.failed a)) := by
  match finding with
  | .done _ | .cancelled _ | .shown _ | .tried none | .tried (some (.ok _)) | .read (.ok _) =>
    cases error
  | .tried (some (.error e)) =>
    cases error
    exact describes.symm
  | .read (.error e) =>
    cases error
    exact describes

end Finding

namespace State

/-- `x` holds the cause `a`, and nothing else holds a cause of that identity. -/
structure Introduced (s : State V N S) (x : Object) (a : Cause) : Prop where
  holds : s.holds? x = some (.error (.failed a))
  alone : ∀ y b, y ≠ x → s.causeOf? y = some b → b.id ≠ a.id

/-- Thread `t` is about to introduce the cause `a` in `x`: it will, whatever the others do before,
unless `x` is decided by then. -/
def Introduces [Inhabited V] (s : State V N S) (t : ThreadId) (x : Object) (a : Cause) : Prop :=
  ∀ ms s₁, (∀ m ∈ ms, m ≠ .step t) → s.run ms = some s₁ → s₁.isOpen x = true →
    ∃ s₂, s₁.move (.step t) = some s₂ ∧ s₂.Introduced x a

/-- The step of `t` that gives the failure an identity: it is raised for an object, or a cell is made
with it. -/
inductive Originates (s : State V N S) (t : ThreadId) (failure : Failure) : Object → Prop
  | raises {x : Object} (raises : s.Raises t failure x) : Originates s t failure x
  | ready {name : Option String} {k : CellId → Prog V N S} {fs : List (Frame V N S)}
      (found : s.threads[t]? = some ⟨name, .run (.newCell (some (.fail failure)) k), fs⟩) :
      Originates s t failure (.cell s.cells.size)

/-- On the way to `s` the cause `a` was given its identity, for `x`. -/
def Originated [Inhabited V] (s : State V N S) (x : Object) (a : Cause) : Prop :=
  ∃ s₀ t failure, Reachable s₀ ∧ s₀.Originates t failure x ∧ a = .mk s₀.nextCause failure ∧
    Reaches s₀ s

def Bears (s : State V N S) (f : Future) (e : ReadError) : Prop :=
  ∀ a, e = .failed a → s.holds? (.cell f.cell) = some (.error (.failed a))

/-- A body of thread `t`, with the future `r`, reads `f` or passes on the error that it has read. -/
inductive Rethrowing (t : ThreadId) (name : Option String) (f : Future) (r : CellId)
    (fs : List (Frame V N S)) (s : State V N S) : Prop
  | reading (looking : s.Looking t name (.future f) (.capturing r :: fs))
  | failing {e : ReadError} (bears : s.Bears f e)
      (found : s.threads[t]? = some ⟨name, .run (.err (.unread e)), .capturing r :: fs⟩)
  | failed {e : ReadError} (bears : s.Bears f e)
      (found : s.threads[t]? = some ⟨name, .ended (.failed (.unread e)), .capturing r :: fs⟩)

/-- The body has read no error and goes on, or the error that it has read is about to become a new
failure of `r`, with what was read inside. -/
inductive Rethrown [Inhabited V] (t : ThreadId) (name : Option String) (f : Future) (r : CellId)
    (k : Finding V → Prog V N S) (fs : List (Frame V N S)) (s : State V N S) : Prop
  | goesOn {finding : Finding V} (none : finding.error? = none)
      (describes : finding.Describes (s.holds? (.cell f.cell)))
      (back : s.Back t name (k finding) (.capturing r :: fs))
  | error {e : ReadError} {i : CauseId} (bears : s.Bears f e) (has : s.Has (.cell r))
      (found : s.threads[t]? = some ⟨name, .deciding r (.failed (.mk i (.unread e))) none, fs⟩)
      (new : ∀ x a, s.causeOf? x = some a → a.id ≠ i)
      (introduces : s.Introduces t (.cell r) (.mk i (.unread e)))

end State

structure Provenance [Inhabited V] (s : State V N S) (g : Lineage) : Prop where
  /-- Two objects hold causes of one identity just if both got it from one object that did not get it. -/
  shared : ∀ {x y a b}, s.causeOf? x = some a → s.causeOf? y = some b →
    (a.id = b.id ↔ ∃ z, g.source z = none ∧ s.causeOf? z = some a ∧ g.Got x z ∧ g.Got y z)
  identical : ∀ {x y a b}, s.causeOf? x = some a → s.causeOf? y = some b → a.id = b.id → a = b
  origin : ∀ {x a}, s.causeOf? x = some a → ∃ z, g.source z = none ∧ g.Got x z ∧
    ∀ z', g.source z' = none → g.Got x z' → z' = z
  /-- What was handed on is on record, and it is what its source holds. -/
  passed : ∀ {x c}, g.source x = some c →
    s.Passed c x ∧ ∃ r, s.holds? x = some r ∧ s.holds? (.cell c) = some r
  /-- What was not handed on has its identity from a step that was about this object. -/
  originated : ∀ {x a}, s.causeOf? x = some a → g.source x = none → s.Originated x a
  /-- A cause that was introduced was not handed on. -/
  introduced : ∀ {x a}, s.Introduced x a → g.source x = none
  raises : ∀ {t failure x}, s.Raises t failure x → ∃ s₁, s.move (.step t) = some s₁ ∧
    s₁.Introduces t x (.mk s.nextCause failure)
  ready : ∀ {t name failure k fs},
    s.threads[t]? = some ⟨name, .run (.newCell (some (.fail failure)) k), fs⟩ →
      ∃ s', s.move (.step t) = some s' ∧
        s'.Introduced (.cell s.cells.size) (.mk s.nextCause failure)
  /-- A body that passes on the error that it has read fails with a new cause around it. -/
  rethrows : ∀ {f : Future} {look act}, (Handle.future f).Observed look act → ∀ {t name k r fs},
    s.threads[t]? = some ⟨name, .run (act (Finding.orFail k)), .capturing r :: fs⟩ →
      ∃ s₁, s.move (.step t) = some s₁ ∧
        ∀ ms, Until (State.Rethrowing t name f r fs) (State.Rethrown t name f r k fs) s₁ ms

section Inhabited
variable [Inhabited V] {s s' : State V N S} {t : ThreadId} {g : Lineage} {x : Object}

theorem until_trans {I P P' Q Q' : State V N S → Prop}
    (keeps : ∀ s m s', I s → s.move m = some s' → I s') (left : ∀ s, P s → P' s)
    (right : ∀ s ms, I s → Q s → Until P' Q' s ms) {ms : List Move} (now : I s)
    (first : Until P Q s ms) : Until P' Q' s ms := by
  induction ms generalizing s with
  | nil => exact first.elim (fun on => Or.inl (left s on)) (right s [] now)
  | cons m ms ih =>
    rcases first with done | ⟨on, later⟩
    · exact right s (m :: ms) now done
    · exact Or.inr ⟨left s on, fun s' moved => ih (keeps s m s' now moved) (later s' moved)⟩

theorem sourced_of_reachable (reachable : Reachable s) : ∃ g, Sourced s g := by
  obtain ⟨client, p, ms, ran⟩ := reachable
  exact ⟨_, sourced_of_run ran⟩

omit [Inhabited V] in
/-- An object that handed on its reading does not hold it alone. -/
theorem source_of_introduced (sourced : Sourced s g) {a : Cause} (introduced : s.Introduced x a) :
    g.source x = none := by
  cases source : g.source x with
  | none => rfl
  | some c =>
    obtain ⟨-, r, held, held'⟩ := sourced.source x c source
    cases held.symm.trans introduced.holds
    have self : .cell c = x := by
      refine Classical.byContradiction fun other => ?_
      exact introduced.alone _ a other (State.cause_of_holds held') rfl
    have stays {z : Object} (got : g.Got x z) : z = x := by
      induction got with
      | refl => rfl
      | tail _ last ih =>
        obtain ⟨b, next, rfl⟩ := last
        rw [ih] at next
        cases source.symm.trans next
        exact self
    obtain ⟨z, got, root⟩ := sourced.rooted x _ held
    rw [stays got] at root
    exact source.symm.trans root

/-- An attempt of its own that wins introduces its cause. -/
theorem introduces_of_owns (bridging : WellBridged s) (sourced : Sourced s g) {thread : Thread V N S}
    {a : Cause} {k : Option (Bool → Prog V N S)} (found : s.threads[t]? = some thread)
    (attempt : thread.doing.attempt? = some (x, .error (.failed a), k)) (own : g.passes t = none) :
    s.Introduces t x a := by
  intro ms
  induction ms generalizing s g with
  | nil =>
    intro s₁ _ ran opened
    cases ran
    obtain ⟨has, undecided⟩ := State.isOpen_iff.mp opened
    have tried : s.tryOn? x (.step t) = some ⟨s, t, .error (.failed a), k⟩ := by
      simp [State.tryOn?, found, attempt]
    obtain ⟨s₂, moved, wins⟩ := wins_of_try tried has undecided
    refine ⟨s₂, moved, wins.holds, fun y b other caused => ?_⟩
    have before : s.causeOf? y = some b := by
      rwa [State.causeOf?, holds_of_find (wins.others y other)] at caused
    exact sourced.ownUnheld t a.id ⟨thread, x, _, k, a, found, attempt, own, rfl, rfl⟩ y b before
  | cons m ms ih =>
    intro s₁ others ran opened
    obtain ⟨middle, moved, ran⟩ := Option.bind_eq_some_iff.mp ran
    have other : m ≠ .step t := others m (List.mem_cons_self ..)
    have kept := thread_kept moved other found fun w asleep => by
      rw [asleep] at attempt
      cases attempt
    exact ih (wellBridged_of_move moved bridging) (sourced_of_move moved bridging sourced) kept
      ((passes_other other).trans own) s₁ (fun m' member => others m' (List.mem_cons_of_mem _ member))
      ran opened

omit [Inhabited V] in
theorem passes_of_raises {failure : Failure} (raises : s.Raises t failure x) :
    (s.lineageAfter g (.step t)).passes t = none := by
  obtain ⟨thread, found, asks⟩ := raises
  exact (passes_own found).trans asks.handsOn?

theorem introduces_of_raises (reachable : Reachable s) {failure : Failure}
    (raises : s.Raises t failure x) : ∃ s₁, s.move (.step t) = some s₁ ∧
      s₁.Introduces t x (.mk s.nextCause failure) := by
  obtain ⟨g, sourced⟩ := sourced_of_reachable reachable
  obtain ⟨s₁, thread, q, moved, found, attempt, -⟩ := attempt_of_raises raises
  have bridging := wellBridged_of_reachable reachable
  exact ⟨s₁, moved, introduces_of_owns (wellBridged_of_move moved bridging)
    (sourced_of_move moved bridging sourced) found attempt (passes_of_raises raises)⟩

theorem introduced_of_ready (reachable : Reachable s) {name : Option String} {failure : Failure}
    {k : CellId → Prog V N S} {fs : List (Frame V N S)}
    (found : s.threads[t]? = some ⟨name, .run (.newCell (some (.fail failure)) k), fs⟩) :
    ∃ s', s.move (.step t) = some s' ∧
      s'.Introduced (.cell s.cells.size) (.mk s.nextCause failure) := by
  obtain ⟨g, sourced⟩ := sourced_of_reachable reachable
  obtain ⟨s', moved, held⟩ := makesDecided s t _ _ _ _ found
  refine ⟨s', moved, held, fun y b other caused => ?_⟩
  cases arises_of_move moved sourced caused with
  | before known => exact Nat.ne_of_lt (sourced.older y b known)
  | handedOn _ known => exact Nat.ne_of_lt (sourced.older _ b known)
  | introduced _ owns => exact Nat.ne_of_lt (sourced.ownOlder _ _ owns)
  | made _ last => exact absurd last other

theorem State.Originated.mono {a : Cause} (originated : s.Originated x a)
    (reached : Reaches s s') : s'.Originated x a := by
  obtain ⟨s₀, t, failure, reachable, originates, same, reached₀⟩ := originated
  exact ⟨s₀, t, failure, reachable, originates, same, reached₀.trans reached⟩

/-- What no cell has handed on goes back to a step that gave it its identity. -/
structure Traced (s : State V N S) (g : Lineage) : Prop where
  owns : ∀ t thread x a k, s.threads[t]? = some thread →
    thread.doing.attempt? = some (x, .error (.failed a), k) → g.passes t = none → s.Originated x a
  held : ∀ x a, s.causeOf? x = some a → g.source x = none → s.Originated x a

/-- An attempt that a step of `t` itself has led up to was raised in this step. -/
theorem originated_of_step (reachable : Reachable s) (moved : s.move (.step t) = some s')
    {thread' : Thread V N S} {a : Cause} {k : Option (Bool → Prog V N S)}
    (found' : s'.threads[t]? = some thread')
    (attempt : thread'.doing.attempt? = some (x, .error (.failed a), k))
    (own : (s.lineageAfter g (.step t)).passes t = none) : s'.Originated x a := by
  obtain ⟨thread, n, found, next, rfl⟩ := next_of_step moved
  cases (thread_after (transition_of_next next) found).symm.trans found'
  rw [passes_own found] at own
  cases undertakes_of_next next with
  | nothing none => cases none.symm.trans attempt
  | handsOn source => cases source.symm.trans own
  | @introduces y b k' asks _ attempt' =>
    cases b with
    | fail failure =>
      cases attempt'.symm.trans attempt
      exact ⟨s, t, failure, reachable, .raises ⟨thread, found, asks⟩, rfl, .of_move moved⟩
    | _ => cases attempt'.symm.trans attempt

theorem traced_of_move (reachable : Reachable s) {m : Move} (moved : s.move m = some s')
    (traced : Traced s g) : Traced s' (s.lineageAfter g m) := by
  have onwards : Reaches s s' := .of_move moved
  constructor
  · intro u thread' x a k found' attempt passes
    by_cases own : m = .step u
    · subst own
      exact originated_of_step reachable moved found' attempt passes
    · rw [passes_other own] at passes
      have before := attempt_before moved own found' (by rw [attempt]; simp)
      exact (traced.owns u thread' x a k before attempt passes).mono onwards
  · intro x a caused root
    have held := State.holds_of_cause caused
    rcases holds_of_move moved held with
      before | ⟨undecided, has, b, tried, reading⟩ | ⟨t, name, b, k, fs, rfl, found, rfl, reading, -⟩
    · rw [source_of_held (by rw [before]; simp)] at root
      exact (traced.held x a (State.cause_of_holds before) root).mono onwards
    · rw [source_of_try tried (State.isOpen_iff.mpr ⟨has, undecided⟩)] at root
      obtain ⟨thread, -, -, found, attempt⟩ := try_cases tried
      rw [reading] at attempt
      exact (traced.owns b.thread thread x a _ found attempt root).mono onwards
    · cases b <;> cases reading
      exact ⟨s, t, _, reachable, .ready found, rfl, onwards⟩

theorem traced_of_run {client : S} {p : Prog V N S} {ms : List Move}
    (ran : (State.start client p).run ms = some s) :
    Traced s ((State.start client p).lineage .start ms) := by
  refine lineage_of_run ⟨?_, ?_⟩ (fun _ _ _ _ reachable => traced_of_move reachable) ran
  · intro t thread x a k found attempt
    rw [thread_of_start found] at attempt
    cases attempt
  · intro x a caused
    have held := State.holds_of_cause caused
    rw [holds_of_start] at held
    cases held

theorem rethrown_of_move (reachable : Reachable s) {m : Move} (moved : s.move m = some s')
    {name : Option String} {f : Future} {r : CellId} {k : Finding V → Prog V N S}
    {fs : List (Frame V N S)} {e : ReadError} (bears : s.Bears f e)
    (found : s.threads[t]? = some ⟨name, .run (.err (.unread e)), .capturing r :: fs⟩ ∨
      s.threads[t]? = some ⟨name, .ended (.failed (.unread e)), .capturing r :: fs⟩) :
    (s'.Bears f e ∧
      (s'.threads[t]? = some ⟨name, .run (.err (.unread e)), .capturing r :: fs⟩ ∨
        s'.threads[t]? = some ⟨name, .ended (.failed (.unread e)), .capturing r :: fs⟩)) ∨
      s'.Rethrown t name f r k fs := by
  have later := extends_of_advance (advance_of_move moved)
  have bears : s'.Bears f e := fun a cause => later.holds (bears a cause)
  by_cases own : m = .step t
  · subst own
    rcases found with failing | failed
    · have stepped : s.step t = some (s.setThread t
          ⟨name, .ended (.failed (.unread e)), .capturing r :: fs⟩) := by
        simp [step_of_found failing, State.next, State.perform]
      cases moved.symm.trans stepped
      exact Or.inl ⟨bears, Or.inr (thread_setThread failing rfl)⟩
    · obtain ⟨g, sourced⟩ := sourced_of_reachable reachable
      have bridging := wellBridged_of_reachable reachable
      have raises : s.Raises t (.unread e) (.cell r) := ⟨_, failed, .body⟩
      obtain ⟨s₁, moved', introduces⟩ := introduces_of_raises reachable raises
      cases moved.symm.trans moved'
      have stepped : s.step t = some ((s.log t (.bodyFailed r (.unread e))).useCause.setThread t
          ⟨name, .deciding r (.failed (.mk s.nextCause (.unread e))) none, fs⟩) := by
        simp [step_of_found failed, State.next, State.receive, State.logEnding, Ending.attempt,
          Attempt.outcome]
      cases moved.symm.trans stepped
      let announced := (s.log t (.bodyFailed r (.unread e))).useCause
      let raised : Thread V N S :=
        ⟨name, .deciding r (.failed (.mk s.nextCause (.unread e))) none, fs⟩
      have found : (announced.setThread t raised).threads[t]? = some raised :=
        thread_setThread failed rfl
      have sound := (sound_of_reachable reachable).threads t _ failed
      obtain ⟨c, rest, rfl⟩ := sound.stacked.1
      have has : s.Has (.cell r) := sound.stacked.2.1.2.1
      refine Or.inr (.error bears (later.has has) found ?_ introduces)
      exact (sourced_of_move moved bridging sourced).ownUnheld t s.nextCause
        ⟨_, _, _, _, _, found, rfl, passes_own failed, rfl, rfl⟩
  · refine Or.inl ⟨bears, ?_⟩
    exact found.imp (fun found => thread_kept moved own found fun _ asleep => by cases asleep)
      fun found => thread_kept moved own found fun _ asleep => by cases asleep

theorem rethrows_of_read (reachable : Reachable s) {f : Future} {look : Look}
    {act : Act V N S (Finding V)} (observed : (Handle.future f).Observed look act)
    {name : Option String} {k : Finding V → Prog V N S} {r : CellId} {fs : List (Frame V N S)}
    (found : s.threads[t]? = some ⟨name, .run (act (Finding.orFail k)), .capturing r :: fs⟩) :
    ∃ s₁, s.move (.step t) = some s₁ ∧
      ∀ ms, Until (State.Rethrowing t name f r fs) (State.Rethrown t name f r k fs) s₁ ms := by
  obtain ⟨s₁, moved, reads⟩ := observer_back observed found
  have keeps (s : State V N S) (m : Move) (s' : State V N S) (reachable : Reachable s)
      (moved : s.move m = some s') : Reachable s' := reachable_of_reaches reachable (.of_move moved)
  refine ⟨s₁, moved, fun ms => until_trans keeps (fun _ looking => .reading looking) ?_
    (keeps s _ s₁ reachable moved) (reads ms)⟩
  rintro s ms reachable ⟨finding, -, describes, back⟩
  cases error : finding.error? with
  | none =>
    have goes : finding.orFail k = k finding := by simp [Finding.orFail, error]
    rw [goes] at back
    exact until_of_done (.goesOn error describes back) ms
  | some e =>
    have fails : finding.orFail k = .err (.unread e) := by simp [Finding.orFail, error]
    rw [fails] at back
    have bears : s.Bears f e := by
      rintro a rfl
      exact Finding.held_of_error error describes
    refine until_mono (P := fun s => Reachable s ∧ s.Bears f e ∧
      (s.threads[t]? = some ⟨name, .run (.err (.unread e)), .capturing r :: fs⟩ ∨
        s.threads[t]? = some ⟨name, .ended (.failed (.unread e)), .capturing r :: fs⟩))
      ?_ (fun _ rethrown => rethrown) (until_of_moves ?_ ⟨reachable, bears, Or.inl back⟩ ms)
    · rintro s ⟨-, bears, failing | failed⟩
      · exact .failing bears failing
      · exact .failed bears failed
    · rintro s m s' ⟨reachable, bears, found⟩ moved
      exact (rethrown_of_move reachable moved bears found).imp_left fun on =>
        ⟨keeps s m s' reachable moved, on⟩

theorem provenance_of_run {client : S} {p : Prog V N S} {ms : List Move}
    (ran : (State.start client p).run ms = some s) :
    Provenance s ((State.start client p).lineage .start ms) := by
  have sourced := sourced_of_run ran
  have traced := traced_of_run ran
  have reachable : Reachable s := ⟨client, p, ms, ran⟩
  refine ⟨sourced.shared, sourced.eq_of_id, ?_, sourced.source _ _, traced.held _ _,
    source_of_introduced sourced, introduces_of_raises reachable, introduced_of_ready reachable,
    fun observed _ _ _ _ _ found => rethrows_of_read reachable observed found⟩
  intro x a caused
  obtain ⟨z, got, root⟩ := sourced.rooted x _ (State.holds_of_cause caused)
  refine ⟨z, root, got, fun z' root' got' => ?_⟩
  have causes := (sourced.cause_of_got got).trans caused
  have causes' := (sourced.cause_of_got got').trans caused
  exact sourced.unique z' z a a causes' causes root' root rfl

/-- A failure goes through a transformation into an external future, and a body passes it on. -/
def failurePassedOn : Prog Nat Empty Unit :=
  .newCell none fun c => .transform c .ret fun r => .relay r fun _ =>
    .chain r (.get r fun x => Finding.orFail (fun _ => .ret 0) (.read x)) fun _ =>
      .decide c (.fail (.message "lost")) fun _ => .ret 0

theorem provenance_of_failurePassedOn : ∃ s : State Nat Empty Unit,
    (State.start () failurePassedOn).run (List.replicate 29 (.step 0)) = some s ∧
      Provenance s ((State.start () failurePassedOn).lineage .start (List.replicate 29 (.step 0))) ∧
      s.causeOf? (.external 0) = some (.mk 0 (.message "lost")) ∧
      s.causeOf? (.cell 3) = some (.mk 3 (.unread (.failed (.mk 0 (.message "lost"))))) :=
  ⟨_, rfl, provenance_of_run rfl, rfl, rfl⟩

end Inhabited
end Oneshot
