import Oneshot.Proofs.Permanence

/-! # The first attempt decides

Cells and external futures are objects that attempts are made on.  Of the attempts of a run on an
undecided object the first one wins, its reading stays, and every other one is told so and changes
nothing (`firstAttempt_decides`). -/
set_option autoImplicit false
namespace Oneshot
variable {V N S : Type}

inductive Object
  | cell (c : CellId)
  | external (e : ExternalId)
  deriving DecidableEq

/-- What `doing` is about to attempt: on which object, with which reading, and who is told. -/
def Doing.attempt? : Doing V N S → Option (Object × Reading V × Option (Bool → Prog V N S))
  | .deciding c o k => some (.cell c, o.reading, k)
  | .settling e r k => some (.external e, r, k)
  | _ => none

/-- An attempt that enters the critical section of its object. -/
structure Try (V N S : Type) where
  state : State V N S
  thread : ThreadId
  reading : Reading V
  answer : Option (Bool → Prog V N S)

namespace State

def find? (s : State V N S) : Object → Option (Cell V N S ⊕ External V)
  | .cell c => s.cells[c]?.map .inl
  | .external e => s.externals[e]?.map .inr

def holds? (s : State V N S) : Object → Option (Reading V)
  | .cell c => (s.outcome? c).map Outcome.reading
  | .external e => s.settled? e

def Has (s : State V N S) : Object → Prop
  | .cell c => c < s.cells.size
  | .external e => e < s.externals.size

def tryOn? (s : State V N S) (x : Object) : Move → Option (Try V N S)
  | .step t =>
    match s.threads[t]? with
    | none => none
    | some thread =>
      match thread.doing.attempt? with
      | none => none
      | some (y, r, k) => if y = x then some ⟨s, t, r, k⟩ else none
  | _ => none

/-- The attempts on `x` of a run, in the order in which they enter its critical section. -/
def tries [Inhabited V] (s : State V N S) (x : Object) : List Move → List (Try V N S)
  | [] => []
  | m :: ms =>
    (s.tryOn? x m).toList ++
      match s.move m with
      | none => []
      | some s' => s'.tries x ms

end State

/-- The attempt is told true when what it brings about is over, and nothing but `x` has changed. -/
structure Try.Wins [Inhabited V] (a : Try V N S) (x : Object) (s' : State V N S) : Prop where
  moved : a.state.move (.step a.thread) = some s'
  before : a.state.holds? x = none
  holds : s'.holds? x = some a.reading
  others : ∀ y, y ≠ x → s'.find? y = a.state.find? y
  told : ∃ name d fs d' above, a.state.threads[a.thread]? = some ⟨name, d, fs⟩ ∧
    s'.threads[a.thread]? = some ⟨name, d', above ++ won a.answer ++ fs⟩

/-- The attempt is told false at once, and nothing at all has changed but that an event may be
recorded. -/
structure Try.Loses [Inhabited V] (a : Try V N S) (s' : State V N S) : Prop where
  moved : a.state.move (.step a.thread) = some s'
  told : ∃ name d fs events, a.state.threads[a.thread]? = some ⟨name, d, fs⟩ ∧
    s' = { a.state with
      history := events ++ a.state.history
      threads := a.state.threads.setIfInBounds a.thread ⟨name, lost a.answer, fs⟩ }

namespace Extends
variable {s s' : State V N S}

theorem holds (later : Extends s s') {x : Object} {r : Reading V} (held : s.holds? x = some r) :
    s'.holds? x = some r := by
  cases x with
  | cell c =>
    obtain ⟨o, decided, rfl⟩ := Option.map_eq_some_iff.mp held
    have kept := later.outcomes c (by rw [decided]; simp)
    rw [State.holds?, kept, decided]
    rfl
  | external e =>
    have settled : s.settled? e = some r := held
    rw [State.holds?, later.readings e (by rw [settled]; simp), settled]

theorem has (later : Extends s s') {x : Object} (has : s.Has x) : s'.Has x := by
  cases x with
  | cell c => exact Nat.lt_of_lt_of_le has later.cells
  | external e => exact Nat.lt_of_lt_of_le has later.externals

end Extends

section Inhabited
variable [Inhabited V] {s s' : State V N S} {t : ThreadId} {x : Object}

omit [Inhabited V] in
theorem thread_setThread {thread thread' : Thread V N S} {s₁ : State V N S}
    (found : s.threads[t]? = some thread) (threads : s₁.threads = s.threads) :
    (s₁.setThread t thread').threads[t]? = some thread' := by
  have inside := (Array.getElem?_eq_some_iff.mp found).1
  rw [State.getElem?_setThread, if_pos rfl, threads, if_pos inside]

omit [Inhabited V] in
theorem try_cases {m : Move} {a : Try V N S} (tried : s.tryOn? x m = some a) :
    ∃ thread, m = .step a.thread ∧ a.state = s ∧ s.threads[a.thread]? = some thread ∧
      thread.doing.attempt? = some (x, a.reading, a.answer) := by
  cases m with
  | step t =>
    simp only [State.tryOn?] at tried
    split at tried
    next => cases tried
    next thread found =>
      split at tried
      next => cases tried
      next y r k attempt =>
        split at tried
        next same =>
          subst same
          cases tried
          exact ⟨thread, rfl, rfl, found, attempt⟩
        next => cases tried
  | _ => cases tried

omit [Inhabited V] in
theorem attempt_cases {d : Doing V N S} {r : Reading V} {k : Option (Bool → Prog V N S)}
    (attempt : d.attempt? = some (x, r, k)) :
    (∃ c o, x = .cell c ∧ d = .deciding c o k ∧ o.reading = r) ∨
      ∃ e, x = .external e ∧ d = .settling e r k := by
  cases d with
  | deciding c o k => cases attempt; exact Or.inl ⟨c, o, rfl, rfl, rfl⟩
  | settling e r k => cases attempt; exact Or.inr ⟨e, rfl, rfl⟩
  | _ => cases attempt

theorem wins_of_try {m : Move} {a : Try V N S} (tried : s.tryOn? x m = some a) (has : s.Has x)
    (undecided : s.holds? x = none) : ∃ s', s.move m = some s' ∧ a.Wins x s' := by
  obtain ⟨⟨name, d, fs⟩, rfl, here, found, attempt⟩ := try_cases tried
  obtain ⟨state, t, r, k⟩ := a
  subst here
  rcases attempt_cases attempt with ⟨c, o, rfl, rfl, rfl⟩ | ⟨e, rfl, rfl⟩
  · obtain ⟨cell, held⟩ : ∃ cell, state.cells[c]? = some cell := ⟨_, Array.getElem?_eq_getElem has⟩
    have outcome : cell.outcome = none := by
      simpa [State.holds?, State.outcome?_of_found held] using undecided
    have moved : state.step t = some ((state.modifyCell c (·.decide o)).setThread t
        ⟨name, .announcing c o.kind cell.queue.length, won k ++ fs⟩) := by
      simp [step_of_found found, State.next, State.decideCell, held, outcome]
    refine ⟨_, moved, moved, undecided, ?_, ?_, ?_⟩
    · simp [State.holds?, State.outcome?_replaceCell held]
    · intro y other
      cases y with
      | cell d =>
        have apart : c ≠ d := fun same => other (same ▸ rfl)
        simp [State.find?, State.setThread, State.getElem?_modifyCell, apart]
      | external e => rfl
    · exact ⟨name, _, fs, _, [], found, thread_setThread found rfl⟩
  · obtain ⟨y, held⟩ : ∃ y, state.externals[e]? = some y := ⟨_, Array.getElem?_eq_getElem has⟩
    have value : y.value = none := by
      simpa [State.holds?, State.settled?, held] using undecided
    have moved : state.step t = some (((state.modifyExternal e (·.settle r)).log t
        (.resolved e y.wakers.length)).setThread t
        ⟨name, .ended default, .waking e y.wakers :: (won k ++ fs)⟩) := by
      simp [step_of_found found, State.next, State.settleExternal, held, value]
    refine ⟨_, moved, moved, undecided, ?_, ?_, ?_⟩
    · simp [State.holds?, State.settled?, State.setThread, State.log, State.modifyExternal,
        Array.getElem?_modify, held, External.settle]
    · intro z other
      cases z with
      | cell d => rfl
      | external e' =>
        have apart : e ≠ e' := fun same => other (same ▸ rfl)
        simp [State.find?, State.setThread, State.log, State.modifyExternal,
          Array.getElem?_modify, apart]
    · exact ⟨name, _, fs, _, [.waking e y.wakers], found, thread_setThread found rfl⟩

theorem loses_of_try {m : Move} {a : Try V N S} (tried : s.tryOn? x m = some a) {r : Reading V}
    (held : s.holds? x = some r) : ∃ s', s.move m = some s' ∧ a.Loses s' := by
  obtain ⟨⟨name, d, fs⟩, rfl, here, found, attempt⟩ := try_cases tried
  obtain ⟨state, t, r', k⟩ := a
  subst here
  rcases attempt_cases attempt with ⟨c, o, rfl, rfl, rfl⟩ | ⟨e, rfl, rfl⟩
  · obtain ⟨held', decided, -⟩ := Option.map_eq_some_iff.mp held
    obtain ⟨cell, inside⟩ := State.found_of_outcome? (s := state) (c := c) (by rw [decided]; simp)
    have outcome : cell.outcome = some held' := by rw [← State.outcome?_of_found inside, decided]
    have moved : state.step t = some ((state.log t (.ignored c o.kind held'.kind)).setThread t
        ⟨name, lost k, fs⟩) := by
      simp [step_of_found found, State.next, State.decideCell, inside, outcome]
    exact ⟨_, moved, moved, name, _, fs, [⟨t, .ignored c o.kind held'.kind⟩], found, rfl⟩
  · have settled : state.settled? e = some r := held
    obtain ⟨y, inside, value⟩ := Option.bind_eq_some_iff.mp settled
    have moved : state.step t = some ((state.log t (.refused e)).setThread t
        ⟨name, lost k, fs⟩) := by
      simp [step_of_found found, State.next, State.settleExternal, inside, value]
    exact ⟨_, moved, moved, name, _, fs, [⟨t, .refused e⟩], found, rfl⟩

omit [Inhabited V] in
theorem settled_of_still (still : Still s s') {e : ExternalId} (has : e < s.externals.size) :
    s'.settled? e = s.settled? e := by
  obtain ⟨y, found, same⟩ := still.values e _ (Array.getElem?_eq_getElem has)
  simp [State.settled?, found, same, Array.getElem?_eq_getElem has]

omit [Inhabited V] in
theorem outcome_of_opens {s₀ : State V N S} (opens : Opens s t s₀) {c : CellId}
    (has : c < s.cells.size) : (s₀.addCell .derived).outcome? c = s.outcome? c := by
  have other : c ≠ s.cells.size := Nat.ne_of_lt has
  rw [State.outcome?_addCell, opens.cells, if_neg other, State.outcome?, opens.cells, State.outcome?]

theorem outcome_of_transition {d : Doing V N S} {fs : List (Frame V N S)} {n : Next V N S}
    (transition : Transition s t d fs n) {c : CellId} (has : c < s.cells.size) :
    n.state.outcome? c = s.outcome? c ∨ ∃ o k, d = .deciding c o k := by
  cases transition with
  | plain _ _ still => exact Or.inl (still.outcome? c)
  | @creates _ _ _ cell n _ =>
    refine Or.inl ?_
    have added := State.outcome?_addCell s cell c
    rw [if_neg (Nat.ne_of_lt has)] at added
    exact added
  | strays opens => exact Or.inl (outcome_of_opens opens has)
  | @queues _ _ _ s₀ b _ task opens _ _ _ =>
    refine Or.inl ?_
    have queued := State.outcome?_modifyCell (s₀.addCell .derived) b c (·.enqueue task) fun _ => rfl
    exact queued.trans (outcome_of_opens opens has)
  | inlines opens _ _ _ => exact Or.inl (outcome_of_opens opens has)
  | loses still _ => exact Or.inl (still.outcome? c)
  | @wins b o k _ _ found _ =>
    by_cases same : c = b
    · subst same
      exact Or.inr ⟨o, k, rfl⟩
    · refine Or.inl ?_
      rw [State.outcome?_replaceCell found, if_neg same]
  | @announces b _ _ _ => exact Or.inl (State.outcome?_modifyCell s b c _ fun _ => rfl)
  | @takes b _ cell _ rest found _ =>
    refine Or.inl ?_
    have taken := State.outcome?_replaceCell found (fun _ => { cell with queue := rest }) c
    refine taken.trans ?_
    split
    next same => rw [same, State.outcome?_of_found found]
    next => rfl
  | @empties b _ cell found _ =>
    refine Or.inl ?_
    rw [State.outcome?_replaceCell found]
    split
    next same => rw [same, State.outcome?_of_found found]
    next => rfl
  | refuses still _ => exact Or.inl (still.outcome? c)
  | @captures e r _ =>
    have same := State.cells_logEnding s t r e
    exact Or.inl (congrArg (fun cells => cells[c]?.bind Cell.outcome) same)
  | _ => exact Or.inl rfl

theorem settled_of_transition {d : Doing V N S} {fs : List (Frame V N S)} {n : Next V N S}
    (transition : Transition s t d fs n) {e : ExternalId} (has : e < s.externals.size) :
    n.state.settled? e = s.settled? e ∨ ∃ r k, d = .settling e r k := by
  cases transition with
  | plain _ _ still => exact Or.inl (settled_of_still still has)
  | strays opens => exact Or.inl (settled_of_still opens.still has)
  | queues opens _ _ _ => exact Or.inl (settled_of_still opens.still has)
  | inlines opens _ _ _ => exact Or.inl (settled_of_still opens.still has)
  | loses still _ => exact Or.inl (settled_of_still still has)
  | refuses still _ => exact Or.inl (settled_of_still still has)
  | @settles b r k _ _ _ _ =>
    by_cases same : e = b
    · subst same
      exact Or.inr ⟨r, k, rfl⟩
    · refine Or.inl ?_
      simp [State.settled?, State.log, State.modifyExternal, Array.getElem?_modify, Ne.symm same]
  | @captures ending r _ =>
    have same := State.externals_logEnding s t r ending
    exact Or.inl (congrArg (fun externals => externals[e]?.bind External.value) same)
  | _ => exact Or.inl rfl

/-- Nothing but an attempt on it decides an object. -/
theorem attempt_of_transition {d : Doing V N S} {fs : List (Frame V N S)} {n : Next V N S}
    (transition : Transition s t d fs n) (has : s.Has x) (undecided : s.holds? x = none) :
    n.state.holds? x = none ∨ ∃ r k, d.attempt? = some (x, r, k) := by
  cases x with
  | cell c =>
    rcases outcome_of_transition transition has with same | ⟨o, k, rfl⟩
    · refine Or.inl ?_
      rw [State.holds?, same]
      exact undecided
    · exact Or.inr ⟨_, k, rfl⟩
  | external e =>
    rcases settled_of_transition transition has with same | ⟨r, k, rfl⟩
    · exact Or.inl (same.trans undecided)
    · exact Or.inr ⟨r, k, rfl⟩

omit [Inhabited V] in
theorem holds_rouse (s : State V N S) (c : CellId) (t : ThreadId) (x : Object) :
    (s.modifyCell c (·.rouse t)).holds? x = s.holds? x := by
  cases x with
  | cell d => exact congrArg (Option.map _) (State.outcome?_modifyCell s c d _ fun _ => rfl)
  | external e => rfl

theorem undecided_of_move {m : Move} (moved : s.move m = some s') (apart : s.tryOn? x m = none)
    (has : s.Has x) (undecided : s.holds? x = none) : s'.holds? x = none := by
  cases m with
  | step t =>
    obtain ⟨thread, n, found, transition, rfl⟩ := transition_of_step moved
    rcases attempt_of_transition transition has undecided with none | ⟨r, k, attempt⟩
    · exact none
    · simp [State.tryOn?, found, attempt] at apart
  | pass nanos =>
    cases moved
    exact undecided
  | expire t =>
    obtain ⟨_, c, _, _, _, _, -, -, -, rfl⟩ := asleep_of_expire moved
    exact (holds_rouse s c t x).trans undecided
  | stir t =>
    obtain ⟨_, w, _, -, rfl⟩ := asleep_of_stir moved
    exact (holds_rouse s w.cell t x).trans undecided

def Prog.call? : Prog V N S → Option (Object × Attempt V × (Bool → Prog V N S))
  | .decide c a k => some (.cell c, a, k)
  | .settle e a k => some (.external e, a, k)
  | _ => none

theorem losers_of_run {ms : List Move} {r : Reading V} (ran : s.run ms = some s')
    (held : s.holds? x = some r) :
    s'.holds? x = some r ∧ ∀ a ∈ s.tries x ms, ∃ after, a.Loses after := by
  refine ⟨(extends_of_reaches ⟨ms, ran⟩).holds held, ?_⟩
  induction ms generalizing s with
  | nil => exact fun _ none => by cases none
  | cons m ms ih =>
    obtain ⟨middle, moved, ran⟩ := Option.bind_eq_some_iff.mp ran
    intro a member
    simp only [State.tries, moved, List.mem_append, Option.mem_toList] at member
    rcases member with now | later
    · obtain ⟨after, -, loses⟩ := loses_of_try now held
      exact ⟨after, loses⟩
    · exact ih ran ((extends_of_advance (advance_of_move moved)).holds held) a later

theorem winner_of_run {ms : List Move} (ran : s.run ms = some s') (undecided : s.holds? x = none)
    (has : s.Has x) :
    (s.tries x ms = [] ∧ s'.holds? x = none) ∨
      ∃ a rest after, s.tries x ms = a :: rest ∧ a.Wins x after ∧ s'.holds? x = some a.reading ∧
        ∀ b ∈ rest, ∃ after, b.Loses after := by
  induction ms generalizing s with
  | nil =>
    cases ran
    exact Or.inl ⟨rfl, undecided⟩
  | cons m ms ih =>
    obtain ⟨middle, moved, ran⟩ := Option.bind_eq_some_iff.mp ran
    cases tried : s.tryOn? x m with
    | none =>
      have same : s.tries x (m :: ms) = middle.tries x ms := by
        simp only [State.tries, tried, moved]
        rfl
      rw [same]
      exact ih ran (undecided_of_move moved tried has undecided)
        ((extends_of_advance (advance_of_move moved)).has has)
    | some a =>
      obtain ⟨after, moved', wins⟩ := wins_of_try tried has undecided
      cases moved.symm.trans moved'
      have tries : s.tries x (m :: ms) = a :: middle.tries x ms := by
        simp only [State.tries, tried, moved]
        rfl
      obtain ⟨holds, losers⟩ := losers_of_run ran wins.holds
      exact Or.inr ⟨a, _, middle, tries, wins, holds, losers⟩

/-- Whether a call may make its attempt: cells that were derived are not completed from outside. -/
def State.allows (s : State V N S) : Object → Attempt V → Bool
  | .cell c, a => s.admits c a
  | .external _, _ => true

/-- A call makes its attempt, with its own answer, or it may not and is told false; no object has
changed so far. -/
def State.CallsAttempt (s : State V N S) : Prop :=
  ∀ t name p fs x a k, s.threads[t]? = some ⟨name, .run p, fs⟩ → p.call? = some (x, a, k) →
    ∃ s' d, s.move (.step t) = some s' ∧ (∀ y, s'.find? y = s.find? y) ∧
      s'.threads[t]? = some ⟨name, d, fs⟩ ∧
      if s.allows x a then d.attempt? = some (x, (a.outcome s.nextCause).reading, some k)
      else d = .run (k false)

def State.MakesDecided (s : State V N S) : Prop :=
  ∀ t name a k fs, s.threads[t]? = some ⟨name, .run (.newCell (some a) k), fs⟩ →
    ∃ s', s.move (.step t) = some s' ∧
      s'.holds? (.cell s.cells.size) = some (a.outcome s.nextCause).reading

theorem callsAttempt (s : State V N S) : s.CallsAttempt := by
  intro t name p fs x a k found call
  cases p with
  | decide c a' k' =>
    cases call
    by_cases admitted : s.admits c a = true
    · have moved : s.step t = some (s.useCause.setThread t
          ⟨name, .deciding c (a.outcome s.nextCause) (some k), fs⟩) := by
        simp [step_of_found found, State.next, State.perform, admitted]
      refine ⟨_, _, moved, fun y => by cases y <;> rfl, thread_setThread found rfl, ?_⟩
      rw [State.allows, if_pos admitted]
      rfl
    · have moved : s.step t = some (s.setThread t ⟨name, .run (k false), fs⟩) := by
        simp [step_of_found found, State.next, State.perform, admitted]
      refine ⟨_, _, moved, fun y => by cases y <;> rfl, thread_setThread found rfl, ?_⟩
      rw [State.allows, if_neg admitted]
  | settle e a' k' =>
    cases call
    have moved : s.step t = some (s.useCause.setThread t
        ⟨name, .settling e (a.outcome s.nextCause).reading (some k), fs⟩) := by
      simp [step_of_found found, State.next, State.perform]
    refine ⟨_, _, moved, fun y => by cases y <;> rfl, thread_setThread found rfl, ?_⟩
    rw [State.allows, if_pos rfl]
    rfl
  | _ => cases call

theorem makesDecided (s : State V N S) : s.MakesDecided := by
  intro t name a k fs found
  have moved : s.step t = some (((s.addCell (.ready (a.outcome s.nextCause))).useCause).setThread t
      ⟨name, .run (k s.cells.size), fs⟩) := by
    simp [step_of_found found, State.next, State.perform]
  refine ⟨_, moved, ?_⟩
  have added := State.outcome?_addCell s (.ready (a.outcome s.nextCause)) s.cells.size
  rw [if_pos rfl] at added
  exact congrArg (Option.map Outcome.reading) added

end Inhabited
end Oneshot
