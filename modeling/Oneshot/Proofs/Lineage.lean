import Oneshot.Proofs.Bridges
import Mathlib.Logic.Relation

/-! # The lineage of causes

A reading is handed on from a cell, or an attempt brings one of its own.  The lineage of a run keeps
which it was for every object.  Failures that are not handed on have identities of their own, so an
identity leads back to the one object where it was introduced (`sourced_of_run`). -/
set_option autoImplicit false
namespace Oneshot
variable {V N S : Type}

structure Grows (s s' : State V N S) : Prop where
  history : ∀ entry ∈ s.history, entry ∈ s'.history
  nextCause : s.nextCause ≤ s'.nextCause

namespace Grows
variable {s s' s'' : State V N S}

theorem of_same (history : s'.history = s.history) (nextCause : s'.nextCause = s.nextCause) :
    Grows s s' :=
  ⟨fun _ known => history ▸ known, Nat.le_of_eq nextCause.symm⟩

theorem trans (first : Grows s s') (rest : Grows s' s'') : Grows s s'' :=
  ⟨fun entry known => rest.history entry (first.history entry known),
    Nat.le_trans first.nextCause rest.nextCause⟩

theorem log (s : State V N S) (t : ThreadId) (event : Event N) : Grows s (s.log t event) :=
  ⟨fun _ known => List.mem_cons_of_mem _ known, Nat.le_refl _⟩

theorem useCause (s : State V N S) : Grows s s.useCause := ⟨fun _ known => known, Nat.le_succ _⟩

theorem logEnding (s : State V N S) (t : ThreadId) (r : CellId) (e : Ending V) :
    Grows s (s.logEnding t r e) := by
  cases e with
  | value v => exact .of_same rfl rfl
  | failed failure => exact .log s t _
  | panicked payload => exact .log s t _

theorem register (s : State V N S) (t : ThreadId) (c : CellId) (task : Task V N S) (p : Prog V N S)
    (fs : List (Frame V N S)) : Grows s (s.register t c task p fs).state := by
  have added : Grows s (s.addCell .derived) := .of_same rfl rfl
  unfold State.register
  split
  next => exact added
  next =>
    split
    next =>
      have queued : Grows s ((s.addCell .derived).modifyCell c (·.enqueue task)) := .of_same rfl rfl
      exact queued.trans (.log _ t _)
    next => exact (added.trans (.log _ t _)).trans (.log _ t _)

end Grows

/-- From which cell an object got what it holds, and a thread what it is about to attempt with, if it
was handed on. -/
structure Lineage where
  source : Object → Option CellId
  passes : ThreadId → Option CellId

namespace Lineage

def start : Lineage := ⟨fun _ => none, fun _ => none⟩

/-- `x` got its reading through zero or more objects that handed it on from `z`. -/
def Got (g : Lineage) : Object → Object → Prop :=
  Relation.ReflTransGen fun x y => ∃ c, g.source x = some c ∧ y = .cell c

end Lineage

namespace State

def causeOf? (s : State V N S) (x : Object) : Option Cause := (s.holds? x).bind Reading.cause?

def isOpen (s : State V N S) (x : Object) : Bool := (s.find? x).isSome && (s.holds? x).isNone

def lineageAfter (s : State V N S) (g : Lineage) (m : Move) : Lineage where
  source x :=
    match s.tryOn? x m with
    | none => g.source x
    | some a => if s.isOpen x then g.passes a.thread else g.source x
  passes u :=
    match m with
    | .step t => if u = t then s.threads[t]?.bind (·.doing.handsOn?) else g.passes u
    | _ => g.passes u

def lineage [Inhabited V] (s : State V N S) (g : Lineage) : List Move → Lineage
  | [] => g
  | m :: ms =>
    match s.move m with
    | none => g
    | some s' => s'.lineage (s.lineageAfter g m) ms

/-- There is a record of the call that hands on the outcome of `c` to `x`. -/
def Passed (s : State V N S) (c : CellId) : Object → Prop
  | .cell r => ∃ t, ⟨t, .handedOn c r⟩ ∈ s.history
  | .external e => s.Bridges c e

/-- Thread `t` is about to attempt something with a failure of its own, with the identity `i`. -/
def Owns (s : State V N S) (g : Lineage) (t : ThreadId) (i : CauseId) : Prop :=
  ∃ thread x r k a, s.threads[t]? = some thread ∧ thread.doing.attempt? = some (x, r, k) ∧
    g.passes t = none ∧ r.cause? = some a ∧ a.id = i

variable {s s' : State V N S} {g : Lineage} {x : Object}

theorem isOpen_iff : s.isOpen x = true ↔ s.Has x ∧ s.holds? x = none := by
  cases x with
  | cell c => simp [isOpen, find?, Has]
  | external e => simp [isOpen, find?, Has]

theorem Passed.mono {c : CellId} (passed : s.Passed c x)
    (later : ∀ entry ∈ s.history, entry ∈ s'.history) : s'.Passed c x := by
  cases x with
  | cell r =>
    obtain ⟨t, known⟩ := passed
    exact ⟨t, later _ known⟩
  | external e =>
    obtain ⟨t, known⟩ := passed
    exact ⟨t, later _ known⟩

theorem holds_of_cause {a : Cause} (caused : s.causeOf? x = some a) :
    s.holds? x = some (.error (.failed a)) := by
  obtain ⟨r, held, cause⟩ := Option.bind_eq_some_iff.mp caused
  rw [held]
  cases r with
  | ok v => cases cause
  | error e =>
    obtain rfl := ReadError.cause?_eq_some_iff.mp cause
    rfl

theorem cause_of_holds {r : Reading V} (held : s.holds? x = some r) : s.causeOf? x = r.cause? := by
  rw [causeOf?, held]
  rfl

end State

structure Sourced (s : State V N S) (g : Lineage) : Prop where
  /-- Identities are used once. -/
  older : ∀ x a, s.causeOf? x = some a → a.id < s.nextCause
  ownOlder : ∀ t i, s.Owns g t i → i < s.nextCause
  ownUnheld : ∀ t i, s.Owns g t i → ∀ x a, s.causeOf? x = some a → a.id ≠ i
  ownOnce : ∀ t u i, s.Owns g t i → s.Owns g u i → t = u
  /-- What is handed on is what is held at its source. -/
  passing : ∀ t thread x r k c, s.threads[t]? = some thread →
    thread.doing.attempt? = some (x, r, k) → g.passes t = some c →
      s.holds? (.cell c) = some r ∧ s.Passed c x
  source : ∀ x c, g.source x = some c →
    s.Passed c x ∧ ∃ r, s.holds? x = some r ∧ s.holds? (.cell c) = some r
  /-- All that is held comes from somewhere, and from one place only. -/
  rooted : ∀ x r, s.holds? x = some r → ∃ z, g.Got x z ∧ g.source z = none
  unique : ∀ x y a b, s.causeOf? x = some a → s.causeOf? y = some b → g.source x = none →
    g.source y = none → a.id = b.id → x = y

namespace Sourced
variable {s : State V N S} {g : Lineage} {x y z : Object}

theorem holds_of_got (sourced : Sourced s g) (got : g.Got x z) : s.holds? z = s.holds? x := by
  induction got with
  | refl => rfl
  | tail _ last ih =>
    obtain ⟨c, source, rfl⟩ := last
    obtain ⟨-, r, held, held'⟩ := sourced.source _ c source
    rw [← ih, held, held']

theorem cause_of_got (sourced : Sourced s g) (got : g.Got x z) : s.causeOf? z = s.causeOf? x := by
  rw [State.causeOf?, State.causeOf?, sourced.holds_of_got got]

/-- Two objects hold causes of one identity just if they got them from one object. -/
theorem shared (sourced : Sourced s g) {a b : Cause} (caused : s.causeOf? x = some a)
    (caused' : s.causeOf? y = some b) :
    a.id = b.id ↔ ∃ z, g.source z = none ∧ s.causeOf? z = some a ∧ g.Got x z ∧ g.Got y z := by
  obtain ⟨z, got, root⟩ := sourced.rooted x _ (State.holds_of_cause caused)
  obtain ⟨w, got', root'⟩ := sourced.rooted y _ (State.holds_of_cause caused')
  have causes : s.causeOf? z = some a := (sourced.cause_of_got got).trans caused
  have causes' : s.causeOf? w = some b := (sourced.cause_of_got got').trans caused'
  constructor
  · intro same
    obtain rfl := sourced.unique z w a b causes causes' root root' same
    exact ⟨z, root, causes, got, got'⟩
  · rintro ⟨v, -, known, got, got'⟩
    have one := (sourced.cause_of_got got').symm.trans known
    cases caused'.symm.trans one
    rfl

theorem eq_of_id (sourced : Sourced s g) {a b : Cause} (caused : s.causeOf? x = some a)
    (caused' : s.causeOf? y = some b) (same : a.id = b.id) : a = b := by
  obtain ⟨z, -, known, -, got⟩ := (sourced.shared caused caused').mp same
  exact Option.some.inj (known.symm.trans ((sourced.cause_of_got got).trans caused'))

end Sourced

section Inhabited
variable [Inhabited V] {s s' : State V N S} {t : ThreadId} {d : Doing V N S} {fs : List (Frame V N S)}
  {n : Next V N S} {g : Lineage}

omit [Inhabited V] in
theorem grows_of_perform {p : Prog V N S} (moved : s.perform t p fs = some n) : Grows s n.state := by
  cases p with
  | newCell start k =>
    cases start with
    | none =>
      cases moved
      exact .of_same rfl rfl
    | some a =>
      cases moved
      have added : Grows s (s.addCell (.ready (a.outcome s.nextCause))) := .of_same rfl rfl
      exact added.trans (.useCause _)
  | decide c a k =>
    simp only [State.perform] at moved
    split at moved <;> cases moved
    next => exact .useCause s
    next => exact .of_same rfl rfl
  | chain c body k =>
    cases moved
    exact .register s t c _ _ fs
  | transform c f k =>
    cases moved
    exact .register s t c _ _ fs
  | relay c k =>
    cases moved
    have added : Grows s s.addExternal := .of_same rfl rfl
    exact (added.trans (.log _ t _)).trans (.register _ t c _ _ fs)
  | settle e a k =>
    cases moved
    exact .useCause s
  | poll e w k =>
    cases moved
    unfold State.pollExternal
    split
    next => exact .of_same rfl rfl
    next =>
      split
      next => exact .of_same rfl rfl
      next =>
        have parked : Grows s (s.modifyExternal e (·.park w)) := .of_same rfl rfl
        exact parked.trans (.log _ t _)
  | share failure k =>
    cases moved
    exact .useCause s
  | join u k =>
    obtain ⟨e, -, rfl⟩ := Option.map_eq_some_iff.mp moved
    exact .of_same rfl rfl
  | note x k =>
    cases moved
    exact .log s t _
  | _ =>
    cases moved
    exact .of_same rfl rfl

theorem grows_of_next (moved : s.next t d fs = some n) : Grows s n.state := by
  cases d with
  | run p => exact grows_of_perform moved
  | deciding c o k =>
    cases moved
    unfold State.decideCell
    split
    next => exact .of_same rfl rfl
    next =>
      split
      next => exact .log s t _
      next => exact .of_same rfl rfl
  | announcing c kind queued =>
    cases moved
    have notified : Grows s (s.modifyCell c Cell.notifyAll) := .of_same rfl rfl
    exact notified.trans (.log _ t _)
  | draining c =>
    cases moved
    unfold State.drain
    split
    next => exact .of_same rfl rfl
    next =>
      split
      next => exact .of_same rfl rfl
      next left _ =>
        have taken : Grows s (s.modifyCell c fun _ => left) := .of_same rfl rfl
        exact taken.trans (.log _ t _)
  | starting c task =>
    cases moved
    cases task with
    | transform r f =>
      simp only [State.startTask]
      split
      next => exact .of_same rfl rfl
      next => exact .of_same rfl rfl
      next => exact (Grows.log s t _).trans (.useCause _)
    | _ => exact .of_same rfl rfl
  | relaying c e =>
    simp only [State.next] at moved
    split at moved <;> cases moved <;> exact .of_same rfl rfl
  | settling e r k =>
    cases moved
    unfold State.settleExternal
    split
    next => exact .of_same rfl rfl
    next =>
      split
      next => exact .log s t _
      next =>
        have settled : Grows s (s.modifyExternal e (·.settle r)) := .of_same rfl rfl
        exact settled.trans (.log _ t _)
  | checking w =>
    obtain ⟨cell, -, ⟨-, rfl⟩ | ⟨o, -, rfl⟩⟩ := check_cases moved <;> exact .of_same rfl rfl
  | asleep w =>
    obtain ⟨-, rfl⟩ := notified_of_next moved
    exact .of_same rfl rfl
  | expired c limit k =>
    cases moved
    unfold State.giveUp
    split
    next => exact .of_same rfl rfl
    next => exact .log s t _
  | ended e =>
    cases transition_of_next moved with
    | plain was => exact was.elim
    | captures => exact (Grows.logEnding s t _ e).trans (.useCause _)
    | finishes _ => exact .log s t _
    | wakes _ => exact .log s t _
    | _ => exact .of_same rfl rfl

theorem grows_of_move {m : Move} (moved : s.move m = some s') : Grows s s' := by
  rcases step_or_lull moved with ⟨t, rfl⟩ | lull
  · obtain ⟨thread, n, found, next, rfl⟩ := next_of_step moved
    exact (grows_of_next next).trans (.of_same rfl rfl)
  · exact .of_same lull.history lull.nextCause

omit [Inhabited V] in
theorem source_of_held {m : Move} {x : Object} (held : s.holds? x ≠ none) :
    (s.lineageAfter g m).source x = g.source x := by
  have closed : s.isOpen x = false :=
    Bool.eq_false_iff.mpr fun opened => held (State.isOpen_iff.mp opened).2
  simp only [State.lineageAfter, closed]
  split <;> rfl

omit [Inhabited V] in
theorem source_of_try {m : Move} {x : Object} {a : Try V N S} (tried : s.tryOn? x m = some a)
    (opened : s.isOpen x = true) : (s.lineageAfter g m).source x = g.passes a.thread := by
  simp [State.lineageAfter, tried, opened]

omit [Inhabited V] in
theorem source_cases {m : Move} {x : Object} {c : CellId}
    (source : (s.lineageAfter g m).source x = some c) : g.source x = some c ∨
      ∃ a, s.tryOn? x m = some a ∧ s.isOpen x = true ∧ g.passes a.thread = some c := by
  simp only [State.lineageAfter] at source
  split at source
  next => exact Or.inl source
  next a tried =>
    split at source
    next opened => exact Or.inr ⟨a, tried, opened, source⟩
    next => exact Or.inl source

omit [Inhabited V] in
theorem passes_own {thread : Thread V N S} (found : s.threads[t]? = some thread) :
    (s.lineageAfter g (.step t)).passes t = thread.doing.handsOn? := by
  simp [State.lineageAfter, found]

omit [Inhabited V] in
theorem passes_other {m : Move} {u : ThreadId} (other : m ≠ .step u) :
    (s.lineageAfter g m).passes u = g.passes u := by
  cases m with
  | step t => exact if_neg fun same : u = t => other (congrArg Move.step same.symm)
  | _ => rfl

/-- How `x` comes to hold the cause `a` after a move. -/
inductive Arises (s : State V N S) (g : Lineage) (m : Move) (s' : State V N S) (x : Object)
    (a : Cause) : Prop
  | before (known : s.causeOf? x = some a)
  | handedOn {c : CellId} (source : (s.lineageAfter g m).source x = some c)
      (known : s.causeOf? (.cell c) = some a)
  | introduced {b : Try V N S} (tried : s.tryOn? x m = some b) (owns : s.Owns g b.thread a.id)
  /-- As a ready cell. -/
  | made {t : ThreadId} (step : m = .step t) (last : x = .cell s.cells.size)
      (new : a.id = s.nextCause) (used : s'.nextCause = s.nextCause + 1)
      (idle : ∀ thread, s'.threads[t]? = some thread → thread.doing.attempt? = none)

theorem arises_of_move {m : Move} (moved : s.move m = some s') (sourced : Sourced s g) {x : Object}
    {a : Cause} (caused : s'.causeOf? x = some a) : Arises s g m s' x a := by
  have held := State.holds_of_cause caused
  rcases holds_of_move moved held with
    before | ⟨undecided, has, b, tried, reading⟩ | ⟨t, name, b, k, fs, rfl, found, rfl, reading, used⟩
  · exact .before (State.cause_of_holds before)
  · obtain ⟨thread, rfl, -, found, attempt⟩ := try_cases tried
    rw [reading] at attempt
    cases passes : g.passes b.thread with
    | none => exact .introduced tried ⟨thread, x, _, _, a, found, attempt, passes, rfl, rfl⟩
    | some c =>
      obtain ⟨known, -⟩ := sourced.passing _ _ _ _ _ c found attempt passes
      have source := source_of_try (g := g) tried (State.isOpen_iff.mpr ⟨has, undecided⟩)
      exact .handedOn (source.trans passes) (State.cause_of_holds known)
  · refine .made rfl rfl ?_ used ?_
    · cases b <;> cases reading
      rfl
    · intro thread found'
      have stepped := step_of_found found
      rw [← State.move.eq_1, moved] at stepped
      cases stepped
      cases (thread_setThread found rfl).symm.trans found'
      rfl

theorem owns_of_move {m : Move} (moved : s.move m = some s') {u : ThreadId} {i : CauseId}
    (owns : s'.Owns (s.lineageAfter g m) u i) : (m ≠ .step u ∧ s.Owns g u i) ∨
      (m = .step u ∧ i = s.nextCause ∧ s'.nextCause = s.nextCause + 1 ∧
        ∃ thread, s'.threads[u]? = some thread ∧ thread.doing.attempt? ≠ none) := by
  obtain ⟨thread', x, r, k, a, found', attempt, passes, cause, rfl⟩ := owns
  by_cases own : m = .step u
  · subst own
    refine Or.inr ⟨rfl, ?_⟩
    obtain ⟨thread, n, found, next, rfl⟩ := next_of_step moved
    cases (thread_after (transition_of_next next) found).symm.trans found'
    rw [passes_own found] at passes
    cases undertakes_of_next next with
    | nothing none => cases none.symm.trans attempt
    | @introduces y b k' _ used attempt' =>
      cases attempt'.symm.trans attempt
      refine ⟨?_, used, _, found', by rw [attempt]; simp⟩
      cases b <;> cases cause
      rfl
    | handsOn source _ _ => cases source.symm.trans passes
  · rw [passes_other own] at passes
    have before := attempt_before moved own found' (by rw [attempt]; simp)
    exact Or.inl ⟨own, thread', x, r, k, a, before, attempt, passes, cause, rfl⟩

omit [Inhabited V] in
theorem unique_of_arises {m : Move} (sourced : Sourced s g) {x y : Object} {a b : Cause}
    (first : Arises s g m s' x a) (second : Arises s g m s' y b)
    (root : (s.lineageAfter g m).source x = none) (root' : (s.lineageAfter g m).source y = none)
    (same : a.id = b.id) : x = y := by
  have known {z : Object} {e : Cause} (caused : s.causeOf? z = some e)
      (rooted : (s.lineageAfter g m).source z = none) : g.source z = none := by
    rw [← source_of_held (m := m) (by rw [State.holds_of_cause caused]; simp), rooted]
  cases first with
  | handedOn source _ => cases source.symm.trans root
  | before caused =>
    cases second with
    | handedOn source _ => cases source.symm.trans root'
    | before caused' =>
      exact sourced.unique x y a b caused caused' (known caused root) (known caused' root') same
    | introduced _ owns => exact absurd same (sourced.ownUnheld _ _ owns x a caused)
    | made _ _ new => exact absurd (same.trans new) (Nat.ne_of_lt (sourced.older x a caused))
  | introduced tried owns =>
    cases second with
    | handedOn source _ => cases source.symm.trans root'
    | before caused' => exact absurd same.symm (sourced.ownUnheld _ _ owns y b caused')
    | introduced tried' owns' =>
      obtain ⟨thread, rfl, -, found, attempt⟩ := try_cases tried
      obtain ⟨thread', step, -, found', attempt'⟩ := try_cases tried'
      rw [← Move.step.inj step] at found'
      cases found.symm.trans found'
      exact (Prod.mk.inj (Option.some.inj (attempt.symm.trans attempt'))).1
    | made _ _ new => exact absurd (same.trans new) (Nat.ne_of_lt (sourced.ownOlder _ _ owns))
  | made _ last new =>
    cases second with
    | handedOn source _ => cases source.symm.trans root'
    | before caused' =>
      exact absurd (same.symm.trans new) (Nat.ne_of_lt (sourced.older y b caused'))
    | introduced _ owns' =>
      exact absurd (same.symm.trans new) (Nat.ne_of_lt (sourced.ownOlder _ _ owns'))
    | made _ last' _ => exact last.trans last'.symm

omit [Inhabited V] in
/-- What comes from somewhere still comes from there. -/
theorem got_of_move {m : Move} (sourced : Sourced s g) {x z : Object} (held : s.holds? x ≠ none)
    (got : g.Got x z) : (s.lineageAfter g m).Got x z := by
  induction got using Relation.ReflTransGen.head_induction_on with
  | refl => exact .refl
  | head first _ ih =>
    obtain ⟨c, source, rfl⟩ := first
    obtain ⟨-, r, -, known⟩ := sourced.source _ c source
    exact .head ⟨c, (source_of_held held).trans source, rfl⟩ (ih (by rw [known]; simp))

/-- What a thread is about to hand on, it got from the cell that the step before was about. -/
theorem passing_of_next (moved : s.next t d fs = some n) (ferries : d.Ferries s) {x : Object}
    {r : Reading V} {k : Option (Bool → Prog V N S)} {c : CellId}
    (attempt : n.doing.attempt? = some (x, r, k)) (source : d.handsOn? = some c) :
    s.holds? (.cell c) = some r ∧ n.state.Passed c x := by
  constructor
  · cases undertakes_of_next moved with
    | nothing none => cases none.symm.trans attempt
    | introduces asks => cases asks.handsOn?.symm.trans source
    | handsOn source' held attempt' =>
      cases source'.symm.trans source
      cases attempt'.symm.trans attempt
      exact held
  · cases d with
    | starting b task =>
      cases task with
      | transform r' f =>
        cases source
        cases moved
        simp only [State.startTask] at attempt ⊢
        split at attempt
        next => cases attempt
        next => cases attempt
        next =>
          cases attempt
          exact ⟨t, List.mem_cons_self ..⟩
      | _ => cases source
    | relaying b e =>
      cases source
      simp only [State.next] at moved
      split at moved <;> cases moved
      next => cases attempt
      next =>
        cases attempt
        exact ferries
    | _ => cases source

theorem unheld_of_move {m : Move} (moved : s.move m = some s') (sourced : Sourced s g) {u : ThreadId}
    {i : CauseId} (owns : s'.Owns (s.lineageAfter g m) u i) {x : Object} {a : Cause}
    (caused : s'.causeOf? x = some a) : a.id ≠ i := by
  intro same
  have arises := arises_of_move moved sourced caused
  rcases owns_of_move moved owns with ⟨other, before⟩ | ⟨own, rfl, used, thread, found, attempt⟩
  · have older := sourced.ownOlder u i before
    cases arises with
    | before known => exact sourced.ownUnheld u i before x a known same
    | handedOn _ known => exact sourced.ownUnheld u i before _ a known same
    | introduced tried owns' =>
      obtain ⟨-, step, -⟩ := try_cases tried
      exact other (step.trans (congrArg Move.step (sourced.ownOnce _ u i (same ▸ owns') before)))
    | made _ _ new => exact absurd (same.symm.trans new) (Nat.ne_of_lt older)
  · cases arises with
    | before known => exact absurd same (Nat.ne_of_lt (sourced.older x a known))
    | handedOn _ known => exact absurd same (Nat.ne_of_lt (sourced.older _ a known))
    | introduced _ owns' => exact absurd same (Nat.ne_of_lt (sourced.ownOlder _ _ owns'))
    | made step _ _ _ idle =>
      cases step.symm.trans own
      exact attempt (idle thread found)

theorem once_of_move {m : Move} (moved : s.move m = some s') (sourced : Sourced s g)
    {t u : ThreadId} {i : CauseId} (owns : s'.Owns (s.lineageAfter g m) t i)
    (owns' : s'.Owns (s.lineageAfter g m) u i) : t = u := by
  rcases owns_of_move moved owns with ⟨-, before⟩ | ⟨own, new, -⟩
  · rcases owns_of_move moved owns' with ⟨-, before'⟩ | ⟨-, new', -⟩
    · exact sourced.ownOnce t u i before before'
    · exact absurd new' (Nat.ne_of_lt (sourced.ownOlder t i before))
  · rcases owns_of_move moved owns' with ⟨-, before'⟩ | ⟨own', -⟩
    · exact absurd new (Nat.ne_of_lt (sourced.ownOlder u i before'))
    · exact Move.step.inj (own.symm.trans own')

theorem passing_of_move {m : Move} (moved : s.move m = some s') (bridging : WellBridged s)
    (sourced : Sourced s g) {u : ThreadId} {thread' : Thread V N S} {x : Object} {r : Reading V}
    {k : Option (Bool → Prog V N S)} {c : CellId} (found' : s'.threads[u]? = some thread')
    (attempt : thread'.doing.attempt? = some (x, r, k))
    (passes : (s.lineageAfter g m).passes u = some c) :
    s'.holds? (.cell c) = some r ∧ s'.Passed c x := by
  have later := extends_of_advance (advance_of_move moved)
  by_cases own : m = .step u
  · subst own
    obtain ⟨thread, n, found, next, rfl⟩ := next_of_step moved
    cases (thread_after (transition_of_next next) found).symm.trans found'
    rw [passes_own found] at passes
    obtain ⟨held, passed⟩ := passing_of_next next (bridging.threads u thread found) attempt passes
    exact ⟨later.holds held, passed.mono fun _ known => known⟩
  · rw [passes_other own] at passes
    have before := attempt_before moved own found' (by rw [attempt]; simp)
    obtain ⟨held, passed⟩ := sourced.passing u thread' x r k c before attempt passes
    exact ⟨later.holds held, passed.mono (grows_of_move moved).history⟩

theorem handed_of_move {m : Move} (moved : s.move m = some s') (sourced : Sourced s g) {x : Object}
    {c : CellId} (source : (s.lineageAfter g m).source x = some c) :
    s'.Passed c x ∧ ∃ r, s'.holds? x = some r ∧ s'.holds? (.cell c) = some r := by
  have grows := grows_of_move moved
  have later := extends_of_advance (advance_of_move moved)
  rcases source_cases source with known | ⟨a, tried, opened, passes⟩
  · obtain ⟨passed, r, held, held'⟩ := sourced.source x c known
    exact ⟨passed.mono grows.history, r, later.holds held, later.holds held'⟩
  · obtain ⟨has, undecided⟩ := State.isOpen_iff.mp opened
    obtain ⟨thread, rfl, -, found, attempt⟩ := try_cases tried
    obtain ⟨held, passed⟩ := sourced.passing _ thread x _ _ c found attempt passes
    obtain ⟨after, moved', wins⟩ := wins_of_try tried has undecided
    cases moved.symm.trans moved'
    exact ⟨passed.mono grows.history, _, wins.holds, later.holds held⟩

omit [Inhabited V] in
/-- The way back from an object goes through those that were decided before. -/
theorem rooted_of_move {m : Move} (sourced : Sourced s g) (x : Object) :
    ∃ z, (s.lineageAfter g m).Got x z ∧ (s.lineageAfter g m).source z = none := by
  have old {y : Object} {r : Reading V} (held : s.holds? y = some r) :
      ∃ z, (s.lineageAfter g m).Got y z ∧ (s.lineageAfter g m).source z = none := by
    obtain ⟨z, got, root⟩ := sourced.rooted y r held
    have held' := (sourced.holds_of_got got).trans held
    exact ⟨z, got_of_move sourced (by rw [held]; simp) got,
      (source_of_held (by rw [held']; simp)).trans root⟩
  cases source : (s.lineageAfter g m).source x with
  | none => exact ⟨x, .refl, source⟩
  | some c =>
    have known : ∃ r, s.holds? (.cell c) = some r := by
      rcases source_cases source with old | ⟨a, tried, opened, passes⟩
      · obtain ⟨-, r, -, known⟩ := sourced.source x c old
        exact ⟨r, known⟩
      · obtain ⟨thread, rfl, -, found, attempt⟩ := try_cases tried
        exact ⟨_, (sourced.passing _ thread x _ _ c found attempt passes).1⟩
    obtain ⟨r, known⟩ := known
    obtain ⟨z, got, root⟩ := old known
    exact ⟨z, .head ⟨c, source, rfl⟩ got, root⟩

theorem sourced_of_move {m : Move} (moved : s.move m = some s') (bridging : WellBridged s)
    (sourced : Sourced s g) : Sourced s' (s.lineageAfter g m) := by
  have grows := grows_of_move moved
  have arises {x : Object} {a : Cause} (caused : s'.causeOf? x = some a) :=
    arises_of_move moved sourced caused
  refine ⟨?_, ?_, fun _ _ owns _ _ caused => unheld_of_move moved sourced owns caused,
    fun _ _ _ owns owns' => once_of_move moved sourced owns owns',
    fun _ _ _ _ _ _ found attempt passes =>
      passing_of_move moved bridging sourced found attempt passes,
    fun _ _ source => handed_of_move moved sourced source,
    fun x _ _ => rooted_of_move sourced x,
    fun _ _ _ _ caused caused' root root' same =>
      unique_of_arises sourced (arises caused) (arises caused') root root' same⟩
  · intro x a caused
    cases arises caused with
    | before known => exact Nat.lt_of_lt_of_le (sourced.older x a known) grows.nextCause
    | handedOn _ known => exact Nat.lt_of_lt_of_le (sourced.older _ a known) grows.nextCause
    | introduced _ owns => exact Nat.lt_of_lt_of_le (sourced.ownOlder _ _ owns) grows.nextCause
    | made _ _ new used =>
      rw [new, used]
      exact Nat.lt_succ_self _
  · intro u i owns
    rcases owns_of_move moved owns with ⟨-, before⟩ | ⟨-, rfl, used, -⟩
    · exact Nat.lt_of_lt_of_le (sourced.ownOlder u i before) grows.nextCause
    · rw [used]
      exact Nat.lt_succ_self _

omit [Inhabited V] in
theorem sourced_of_start (client : S) (p : Prog V N S) : Sourced (State.start client p) .start := by
  have none {x : Object} {a : Cause} (caused : (State.start client p).causeOf? x = some a) :
      False := by
    have held := State.holds_of_cause caused
    rw [holds_of_start] at held
    cases held
  have ownless {t : ThreadId} {i : CauseId} (owns : (State.start client p).Owns .start t i) :
      False := by
    obtain ⟨thread, x, r, k, a, found, attempt, -⟩ := owns
    rw [thread_of_start found] at attempt
    cases attempt
  refine ⟨fun _ _ caused => (none caused).elim, fun _ _ owns => (ownless owns).elim,
    fun _ _ owns => (ownless owns).elim, fun _ _ _ owns => (ownless owns).elim, ?_, ?_, ?_,
    fun _ _ _ _ caused => (none caused).elim⟩
  · intro t thread x r k c found attempt passes
    cases passes
  · intro x c source
    cases source
  · intro x r held
    rw [holds_of_start] at held
    cases held

theorem lineage_of_run {P : State V N S → Lineage → Prop} {client : S} {p : Prog V N S}
    (start : P (State.start client p) .start)
    (keeps : ∀ s g m s', Reachable s → s.move m = some s' → P s g → P s' (s.lineageAfter g m))
    {ms : List Move} (ran : (State.start client p).run ms = some s) :
    P s ((State.start client p).lineage .start ms) := by
  suffices later : ∀ (ms : List Move) (s₁ s : State V N S) (g : Lineage),
      Reaches (State.start client p) s₁ → s₁.run ms = some s → P s₁ g → P s (s₁.lineage g ms) from
    later ms _ s .start (.refl _) ran start
  intro ms
  induction ms with
  | nil =>
    intro s₁ s g _ ran now
    cases ran
    exact now
  | cons m ms ih =>
    intro s₁ s g reached ran now
    obtain ⟨middle, moved, ran⟩ := Option.bind_eq_some_iff.mp ran
    simp only [State.lineage, moved]
    exact ih middle s _ (reached.trans (.of_move moved)) ran
      (keeps s₁ g m middle ⟨client, p, reached⟩ moved now)

theorem sourced_of_run {client : S} {p : Prog V N S} {ms : List Move}
    (ran : (State.start client p).run ms = some s) :
    Sourced s ((State.start client p).lineage .start ms) :=
  lineage_of_run (sourced_of_start client p)
    (fun _ _ _ _ reachable moved sourced =>
      sourced_of_move moved (wellBridged_of_reachable reachable) sourced) ran

end Inhabited
end Oneshot
