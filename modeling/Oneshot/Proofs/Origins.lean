import Oneshot.Proofs.FirstDecision
import Oneshot.Proofs.Untouched

/-! # Where things come from

A continuation comes into a queue by its registration (`queued_of_next`) and leaves it to be started
(`starting_of_next`).  An attempt is made by a call, at the end of a captured body, or to hand on an
outcome (`undertakes_of_next`), and what an object holds it was decided with (`holds_of_move`). -/
set_option autoImplicit false
namespace Oneshot
variable {V N S : Type}

/-- What a move does that is no step of a thread: no more than some waiting has changed. -/
structure Lull (s s' : State V N S) : Prop where
  cores : s'.cells.map Cell.core = s.cells.map Cell.core
  externals : s'.externals = s.externals
  wakers : s'.wakers = s.wakers
  history : s'.history = s.history
  nextCause : s'.nextCause = s.nextCause
  threads : ∀ (t : ThreadId) (thread : Thread V N S), s'.threads[t]? = some thread →
    s.threads[t]? = some thread ∨ ∃ c limit k, thread.doing = .expired c limit k
  kept : ∀ (t : ThreadId) (thread : Thread V N S), s.threads[t]? = some thread →
    s'.threads[t]? = some thread ∨ ∃ w, thread.doing = .asleep w

namespace Lull
variable {s s' : State V N S}

theorem still (lull : Lull s s') : Still s { s' with threads := s.threads } :=
  ⟨lull.cores, fun _ x found => ⟨x, lull.externals ▸ found, rfl⟩, ⟨[], lull.history, by simp⟩,
    Or.inl rfl⟩

theorem queueOf (lull : Lull s s') (c : CellId) : s'.queueOf c = s.queueOf c := lull.still.queueOf c

theorem holds (lull : Lull s s') (x : Object) : s'.holds? x = s.holds? x := by
  cases x with
  | cell c => exact congrArg (Option.map Outcome.reading) (lull.still.outcome? c)
  | external e => rw [State.holds?, State.settled?, lull.externals, State.holds?, State.settled?]

end Lull

theorem thread_of_start {client : S} {p : Prog V N S} {t : ThreadId} {thread : Thread V N S}
    (found : (State.start client p).threads[t]? = some thread) :
    thread = ⟨some "main", .run p, []⟩ := by
  have one : t = 0 := by
    have inside := (Array.getElem?_eq_some_iff.mp found).1
    simpa [State.start] using inside
  subst one
  cases found
  rfl

theorem holds_of_start (client : S) (p : Prog V N S) (x : Object) :
    (State.start client p).holds? x = none := by
  cases x with
  | cell c => simp [State.start, State.holds?, State.outcome?]
  | external e => simp [State.start, State.holds?, State.settled?]

def Prog.task? (s : State V N S) : Prog V N S → Option (CellId × Task V N S)
  | .chain c body _ => some (c, .chain s.cells.size body)
  | .transform c f _ => some (c, .transform s.cells.size f)
  | .relay c _ => some (c, .relay s.cells.size s.externals.size)
  | _ => none

/-- The cell whose outcome the next step passes on as it is. -/
def Doing.handsOn? : Doing V N S → Option CellId
  | .starting c (.transform _ _) | .relaying c _ => some c
  | _ => none

namespace State
variable {s s' : State V N S}

theorem queueOf_of_cells (same : s'.cells = s.cells) (c : CellId) : s'.queueOf c = s.queueOf c := by
  rw [queueOf, same, queueOf]

/-- The critical section of a registration adds the new continuation to a queue or to none. -/
theorem queued_of_register {t : ThreadId} {b c : CellId} {task task' : Task V N S} {p : Prog V N S}
    {fs : List (Frame V N S)} (member : task' ∈ (s.register t b task p fs).state.queueOf c) :
    task' ∈ s.queueOf c ∨ (b = c ∧ task' = task) := by
  unfold register at member
  split at member
  next =>
    have member : task' ∈ (s.addCell .derived).queueOf c := member
    rw [queueOf_addCell s rfl] at member
    exact Or.inl member
  next cell found =>
    split at member
    next =>
      have known := Opens.found_addCell (.atOnce (t := t)) .derived found
      have member : task' ∈ ((s.addCell .derived).modifyCell b (·.enqueue task)).queueOf c := member
      rw [queueOf_replaceCell known, queueOf_addCell s rfl] at member
      split at member
      next same =>
        rcases List.mem_append.mp member with before | new
        · refine Or.inl ?_
          rwa [same, queueOf_of_found found]
        · exact Or.inr ⟨same.symm, List.mem_singleton.mp new⟩
      next => exact Or.inl member
    next =>
      have member : task' ∈ (s.addCell .derived).queueOf c := member
      rw [queueOf_addCell s rfl] at member
      exact Or.inl member

theorem starting_of_register {t : ThreadId} {b c : CellId} {task task' : Task V N S} {p : Prog V N S}
    {fs : List (Frame V N S)} (starting : (s.register t b task p fs).doing = .starting c task') :
    b = c ∧ task' = task ∧ (s.register t b task p fs).frames = .resume p :: fs := by
  unfold register at starting ⊢
  split at starting
  next => cases starting
  next =>
    split at starting
    next => cases starting
    next waits =>
      cases starting
      rw [if_neg waits]
      exact ⟨rfl, rfl, rfl⟩

end State

section Inhabited
variable [Inhabited V] {s s' : State V N S} {t : ThreadId} {d : Doing V N S} {fs : List (Frame V N S)}
  {n : Next V N S}

theorem step_or_lull {m : Move} (moved : s.move m = some s') : (∃ t, m = .step t) ∨ Lull s s' := by
  have roused (c : CellId) (t : ThreadId) :
      (s.modifyCell c (·.rouse t)).cells.map Cell.core = s.cells.map Cell.core :=
    core_modifyCell s c (·.rouse t) fun _ => rfl
  cases m with
  | step t => exact Or.inl ⟨t, rfl⟩
  | pass nanos =>
    cases moved
    exact Or.inr ⟨rfl, rfl, rfl, rfl, rfl, fun _ _ found => Or.inl found,
      fun _ _ found => Or.inl found⟩
  | expire t =>
    obtain ⟨name, c, limit, deadline, k, fs, found, -, -, rfl⟩ := asleep_of_expire moved
    refine Or.inr ⟨roused c t, rfl, rfl, rfl, rfl, ?_, ?_⟩
    · intro u thread found'
      rw [State.getElem?_setThread] at found'
      split at found'
      next =>
        split at found' <;> cases found'
        exact Or.inr ⟨c, limit, k, rfl⟩
      next => exact Or.inl found'
    · intro u thread found'
      rw [State.getElem?_setThread]
      split
      next same =>
        subst same
        cases Option.some.inj (found.symm.trans found')
        exact Or.inr ⟨_, rfl⟩
      next => exact Or.inl found'
  | stir t =>
    obtain ⟨_, w, _, -, rfl⟩ := asleep_of_stir moved
    exact Or.inr ⟨roused w.cell t, rfl, rfl, rfl, rfl, fun _ _ found => Or.inl found,
      fun _ _ found => Or.inl found⟩

/-- Where a thread is after a step: it took the step, it was there before, or it has just begun. -/
theorem thread_before {thread : Thread V N S} (found : s.threads[t]? = some thread)
    (transition : Transition s t thread.doing thread.frames n) {u : ThreadId} {thread' : Thread V N S}
    (found' : (n.state.setThread t ⟨thread.name, n.doing, n.frames⟩).threads[u]? = some thread') :
    (u = t ∧ thread' = ⟨thread.name, n.doing, n.frames⟩) ∨
      (u ≠ t ∧ (s.threads[u]? = some thread' ∨ ∃ name body, thread' = ⟨name, .run body, []⟩)) := by
  by_cases own : u = t
  · subst own
    rw [thread_after transition found] at found'
    exact Or.inl ⟨rfl, (Option.some.inj found').symm⟩
  · refine Or.inr ⟨own, ?_⟩
    rw [State.getElem?_setThread, if_neg (Ne.symm own)] at found'
    rcases threads_of_transition transition with same | ⟨name, body, pushed⟩
    · exact Or.inl (same ▸ found')
    · rw [pushed, Array.getElem?_push] at found'
      split at found'
      next =>
        cases found'
        exact Or.inr ⟨name, body, rfl⟩
      next => exact Or.inl found'

theorem thread_stood {m : Move} (moved : s.move m = some s') (other : m ≠ .step t)
    {thread : Thread V N S} (found : s'.threads[t]? = some thread)
    (called : ∀ p, thread.doing ≠ .run p) (up : ∀ c limit k, thread.doing ≠ .expired c limit k) :
    s.threads[t]? = some thread := by
  rcases step_or_lull moved with ⟨u, rfl⟩ | lull
  · obtain ⟨thread', n, found', next, rfl⟩ := next_of_step moved
    rcases thread_before found' (transition_of_next next) found with
      ⟨rfl, -⟩ | ⟨-, before | ⟨name, body, rfl⟩⟩
    · exact absurd rfl other
    · exact before
    · exact absurd rfl (called body)
  · rcases lull.threads t thread found with before | ⟨c, limit, k, expired⟩
    · exact before
    · exact absurd expired (up c limit k)

theorem attempt_before {m : Move} (moved : s.move m = some s') (other : m ≠ .step t)
    {thread : Thread V N S} (found : s'.threads[t]? = some thread)
    (attempt : thread.doing.attempt? ≠ none) : s.threads[t]? = some thread := by
  refine thread_stood moved other found ?_ ?_
  · intro p run
    rw [run] at attempt
    exact attempt rfl
  · intro c limit k expired
    rw [expired] at attempt
    exact attempt rfl

/-- A thread that does not sleep stays where it is until it takes a step. -/
theorem thread_kept {m : Move} (moved : s.move m = some s') (other : m ≠ .step t)
    {thread : Thread V N S} (found : s.threads[t]? = some thread)
    (up : ∀ w, thread.doing ≠ .asleep w) : s'.threads[t]? = some thread := by
  rcases step_or_lull moved with ⟨u, rfl⟩ | lull
  · obtain ⟨thread', n, found', next, rfl⟩ := next_of_step moved
    exact thread_other (transition_of_next next) (fun same => other (same ▸ rfl)) found
  · exact (lull.kept t thread found).resolve_right fun ⟨w, asleep⟩ => up w asleep

theorem queued_of_next (moved : s.next t d fs = some n) {c : CellId} {task : Task V N S}
    (member : task ∈ n.state.queueOf c) :
    task ∈ s.queueOf c ∨ ∃ p, d = .run p ∧ p.task? s = some (c, task) := by
  have same (aside : ¬ d.Touches) : task ∈ s.queueOf c := by
    rwa [← State.queueOf_of_cells ((untouched_of_next moved).cells aside)]
  have fewer {b : CellId} {cell : Cell V N S} (found : s.cells[b]? = some cell)
      (f : Cell V N S → Cell V N S) (kept : ∀ task ∈ (f cell).queue, task ∈ cell.queue)
      (member : task ∈ (s.modifyCell b f).queueOf c) : task ∈ s.queueOf c := by
    rw [State.queueOf_replaceCell found] at member
    split at member
    next here =>
      rw [here, State.queueOf_of_found found]
      exact kept task member
    next => exact member
  cases d with
  | run p =>
    cases p with
    | newCell start k =>
      refine Or.inl ?_
      cases start with
      | none =>
        cases moved
        have member : task ∈ (s.addCell .pending).queueOf c := member
        rwa [State.queueOf_addCell s rfl] at member
      | some a =>
        cases moved
        have member : task ∈ (s.addCell (.ready (a.outcome s.nextCause))).queueOf c := member
        rwa [State.queueOf_addCell s rfl] at member
    | chain b body k =>
      cases moved
      refine (State.queued_of_register member).imp id ?_
      rintro ⟨rfl, rfl⟩
      exact ⟨_, rfl, rfl⟩
    | transform b f k =>
      cases moved
      refine (State.queued_of_register member).imp id ?_
      rintro ⟨rfl, rfl⟩
      exact ⟨_, rfl, rfl⟩
    | relay b k =>
      cases moved
      refine (State.queued_of_register member).imp id ?_
      rintro ⟨rfl, rfl⟩
      exact ⟨_, rfl, rfl⟩
    | _ => exact Or.inl (same fun touches => touches)
  | deciding b o k =>
    refine Or.inl ?_
    cases moved
    unfold State.decideCell at member
    split at member
    next => exact member
    next cell found =>
      split at member
      next => exact member
      next => exact fewer found (·.decide o) (fun _ known => known) member
  | announcing b kind queued =>
    cases moved
    exact Or.inl ((still_of_waiting s b Cell.notifyAll fun _ => rfl).queueOf c ▸ member)
  | draining b =>
    refine Or.inl ?_
    cases moved
    unfold State.drain at member
    split at member
    next => exact member
    next cell found =>
      have kept : ∀ task ∈ cell.takeFirst.2.queue, task ∈ cell.queue := by
        unfold Cell.takeFirst
        split
        next => exact fun _ known => known
        next queue => exact fun _ known => queue ▸ List.mem_cons_of_mem _ known
      split at member
      next left took =>
        rw [took] at kept
        exact fewer found (fun _ => left) kept member
      next first left took =>
        rw [took] at kept
        exact fewer found (fun _ => left) kept member
  | checking w =>
    refine Or.inl ?_
    obtain ⟨cell, -, ⟨-, rfl⟩ | ⟨o, -, rfl⟩⟩ := check_cases moved
    · exact (still_of_waiting s w.cell (·.sleep t) fun _ => rfl).queueOf c ▸ member
    · exact member
  | _ => exact Or.inl (same fun touches => touches)

omit [Inhabited V] in
/-- Of all operations only a registration starts a continuation. -/
theorem starting_of_perform {p : Prog V N S} (moved : s.perform t p fs = some n) {c : CellId}
    {task : Task V N S} (starting : n.doing = .starting c task) : p.task? s = some (c, task) := by
  cases p with
  | newCell start k => cases start <;> cases moved <;> cases starting
  | decide b a k =>
    simp only [State.perform] at moved
    split at moved <;> cases moved <;> cases starting
  | chain b body k =>
    cases moved
    obtain ⟨rfl, rfl, -⟩ := State.starting_of_register starting
    rfl
  | transform b f k =>
    cases moved
    obtain ⟨rfl, rfl, -⟩ := State.starting_of_register starting
    rfl
  | relay b k =>
    cases moved
    obtain ⟨rfl, rfl, -⟩ := State.starting_of_register starting
    rfl
  | poll e w k =>
    cases moved
    unfold State.pollExternal at starting
    split at starting
    next => cases starting
    next => split at starting <;> cases starting
  | join u k =>
    obtain ⟨e, -, rfl⟩ := Option.map_eq_some_iff.mp moved
    cases starting
  | _ =>
    cases moved
    cases starting

theorem starting_of_next (moved : s.next t d fs = some n) {c : CellId} {task : Task V N S}
    (starting : n.doing = .starting c task) :
    (d = .draining c ∧ task ∈ s.queueOf c) ∨ ∃ p, d = .run p ∧ p.task? s = some (c, task) := by
  cases transition_of_next moved with
  | @plain _ d' _ _ _ is _ =>
    obtain rfl : d' = .starting c task := starting
    rcases is with plain | ⟨e, same⟩
    · exact plain.elim
    · cases same
  | takes found queue =>
    cases starting
    refine Or.inl ⟨rfl, ?_⟩
    rw [State.queueOf_of_found found, queue]
    exact List.mem_cons_self ..
  | @inlines p => exact Or.inr ⟨p, rfl, starting_of_perform moved starting⟩
  | @loses _ _ k => cases k <;> cases starting
  | @refuses _ _ k => cases k <;> cases starting
  | _ => cases starting

inductive Asks (s : State V N S) :
    Doing V N S → List (Frame V N S) → Object → Attempt V → Prop
  | call {p : Prog V N S} {fs : List (Frame V N S)} {x : Object} {a : Attempt V}
      {k : Bool → Prog V N S} (call : p.call? = some (x, a, k)) (allowed : s.allows x a = true) :
      Asks s (.run p) fs x a
  | body {ending : Ending V} {r : CellId} {fs : List (Frame V N S)} :
      Asks s (.ended ending) (.capturing r :: fs) (.cell r) ending.attempt

omit [Inhabited V] in
theorem Asks.handsOn? {x : Object} {a : Attempt V} (asks : Asks s d fs x a) : d.handsOn? = none := by
  cases asks <;> rfl

/-- How a step leads up to an attempt, if it does. -/
inductive Undertakes (s : State V N S) (d : Doing V N S) (fs : List (Frame V N S))
    (n : Next V N S) : Prop
  | nothing (none : n.doing.attempt? = none)
  /-- What is asked for is new, and so is the identity that its failure has. -/
  | introduces {x : Object} {a : Attempt V} {k : Option (Bool → Prog V N S)} (asks : Asks s d fs x a)
      (used : n.state.nextCause = s.nextCause + 1)
      (attempt : n.doing.attempt? = some (x, (a.outcome s.nextCause).reading, k))
  | handsOn {c : CellId} {x : Object} {r : Reading V} (source : d.handsOn? = some c)
      (held : s.holds? (.cell c) = some r) (attempt : n.doing.attempt? = some (x, r, none))

omit [Inhabited V] in
theorem Doing.Plain.attempt? (plain : d.Plain) : d.attempt? = none := by
  cases d <;> first | rfl | exact plain.elim

omit [Inhabited V] in
theorem undertakes_of_startTask (c : CellId) (task : Task V N S) :
    Undertakes s (.starting c task) fs (s.startTask t c task fs) := by
  cases task with
  | transform r f =>
    simp only [State.startTask]
    split
    next => exact .nothing rfl
    next => exact .nothing rfl
    next e read =>
      obtain ⟨o, decided, same⟩ := Option.map_eq_some_iff.mp read
      rw [ReadError.outcome_of_reading same]
      refine .handsOn rfl ?_ rfl
      rw [State.holds?, decided]
      rfl
  | _ => exact .nothing rfl

omit [Inhabited V] in
theorem attempt_of_register (c : CellId) (task : Task V N S) (p : Prog V N S) :
    (s.register t c task p fs).doing.attempt? = none := by
  unfold State.register
  split
  next => rfl
  next => split <;> rfl

omit [Inhabited V] in
theorem attempt_of_perform {p : Prog V N S} (moved : s.perform t p fs = some n) :
    n.doing.attempt? = none ∨ ∃ x a k, p.call? = some (x, a, k) ∧ s.allows x a = true ∧
      n.state = s.useCause ∧
      n.doing.attempt? = some (x, (a.outcome s.nextCause).reading, some k) := by
  cases p with
  | newCell start k => cases start <;> cases moved <;> exact Or.inl rfl
  | decide c a k =>
    simp only [State.perform] at moved
    split at moved <;> cases moved
    next admitted => exact Or.inr ⟨.cell c, a, k, rfl, admitted, rfl, rfl⟩
    next => exact Or.inl rfl
  | settle e a k =>
    cases moved
    exact Or.inr ⟨.external e, a, k, rfl, rfl, rfl, rfl⟩
  | chain c body k =>
    cases moved
    exact Or.inl (attempt_of_register c _ _)
  | transform c f k =>
    cases moved
    exact Or.inl (attempt_of_register c _ _)
  | relay c k =>
    cases moved
    exact Or.inl (attempt_of_register c _ _)
  | poll e w k =>
    cases moved
    refine Or.inl ?_
    unfold State.pollExternal
    split
    next => rfl
    next => split <;> rfl
  | join u k =>
    obtain ⟨e, -, rfl⟩ := Option.map_eq_some_iff.mp moved
    exact Or.inl rfl
  | _ =>
    cases moved
    exact Or.inl rfl

omit [Inhabited V] in
theorem undertakes_of_perform {p : Prog V N S} (moved : s.perform t p fs = some n) :
    Undertakes s (.run p) fs n := by
  rcases attempt_of_perform moved with none | ⟨x, a, k, call, allowed, used, attempt⟩
  · exact .nothing none
  · exact .introduces (.call call allowed) (congrArg State.nextCause used) attempt

theorem undertakes_of_next (moved : s.next t d fs = some n) : Undertakes s d fs n := by
  cases transition_of_next moved with
  | plain _ is _ =>
    rcases is with plain | ⟨e, rfl⟩
    · exact .nothing plain.attempt?
    · exact .nothing rfl
  | asks _ => exact undertakes_of_perform moved
  | asksExternal => exact undertakes_of_perform moved
  | handsOn => exact Option.some.inj moved ▸ undertakes_of_startTask _ _
  | relays decided =>
    refine .handsOn rfl ?_ rfl
    rw [State.holds?, decided]
    rfl
  | @captures e r => exact .introduces .body (by cases e <;> rfl) rfl
  | @loses _ _ k => cases k <;> exact .nothing rfl
  | @refuses _ _ k => cases k <;> exact .nothing rfl
  | _ => exact .nothing rfl

omit [Inhabited V] in
theorem outcome_of_register {b c : CellId} {task : Task V N S} {p : Prog V N S} :
    (s.register t b task p fs).state.outcome? c = s.outcome? c := by
  have derived : (s.addCell .derived).outcome? c = s.outcome? c := by
    rw [State.outcome?_addCell]
    split
    next last => rw [last, State.outcome?_outside]; rfl
    next => rfl
  unfold State.register
  split
  next => exact derived
  next =>
    split
    next => exact (State.outcome?_modifyCell _ b c (·.enqueue task) fun _ => rfl).trans derived
    next => exact derived

theorem size_of_next (moved : s.next t d fs = some n) :
    n.state.cells.size = s.cells.size ∨ ∃ p, d = .run p := by
  cases transition_of_next moved with
  | plain _ _ still => exact Or.inl still.size
  | guards => exact Or.inr ⟨_, rfl⟩
  | creates _ => exact Or.inr ⟨_, rfl⟩
  | strays _ => exact Or.inr ⟨_, rfl⟩
  | queues _ _ _ _ => exact Or.inr ⟨_, rfl⟩
  | inlines _ _ _ _ => exact Or.inr ⟨_, rfl⟩
  | loses still _ => exact Or.inl still.size
  | wins _ _ => exact Or.inl (State.size_modifyCell ..)
  | announces => exact Or.inl (State.size_modifyCell ..)
  | takes _ _ => exact Or.inl (State.size_modifyCell ..)
  | empties _ _ => exact Or.inl (State.size_modifyCell ..)
  | refuses still _ => exact Or.inl still.size
  | captures => exact Or.inl (congrArg Array.size (State.cells_logEnding ..))
  | _ => exact Or.inl rfl

/-- Of the cells that a step makes only a ready one is decided. -/
theorem outcome_of_new (moved : s.next t d fs = some n) {c : CellId} (outside : ¬ c < s.cells.size)
    {o : Outcome V} (decided : n.state.outcome? c = some o) :
    ∃ a k, d = .run (.newCell (some a) k) ∧ c = s.cells.size ∧ o = a.outcome s.nextCause ∧
      n.state.nextCause = s.nextCause + 1 := by
  have known (same : n.state.cells.size = s.cells.size) : False := by
    apply outside
    rw [← same]
    exact State.inside_of_outcome? (by rw [decided]; simp)
  have blank (same : n.state.outcome? c = s.outcome? c) : False :=
    outside (State.inside_of_outcome? (by rw [← same, decided]; simp))
  rcases size_of_next moved with same | ⟨p, rfl⟩
  · exact (known same).elim
  cases p with
  | newCell start k =>
    cases start with
    | none =>
      cases moved
      have added := State.outcome?_addCell s .pending c
      split at added
      next => exact absurd (added.symm.trans decided) (by simp [Cell.pending])
      next => exact (blank added).elim
    | some a =>
      cases moved
      have added := State.outcome?_addCell s (.ready (a.outcome s.nextCause)) c
      split at added
      next last => exact ⟨a, k, rfl, last, Option.some.inj (decided.symm.trans added), rfl⟩
      next => exact (blank added).elim
  | chain b body k =>
    cases moved
    exact (blank outcome_of_register).elim
  | transform b f k =>
    cases moved
    exact (blank outcome_of_register).elim
  | relay b k =>
    cases moved
    exact (blank outcome_of_register).elim
  | _ =>
    exact (known (congrArg Array.size ((untouched_of_next moved).cells fun touches => touches))).elim

theorem unsettled_of_new (moved : s.next t d fs = some n) {e : ExternalId}
    (outside : ¬ e < s.externals.size) : n.state.settled? e = none := by
  have missing : s.externals[e]? = none := Array.getElem?_eq_none (Nat.le_of_not_lt outside)
  have same (externals : n.state.externals = s.externals) : n.state.settled? e = none := by
    simp [State.settled?, externals, missing]
  have pushed (externals : n.state.externals = s.externals.push .new) :
      n.state.settled? e = none := by
    simp only [State.settled?, externals, Array.getElem?_push, missing]
    split <;> rfl
  have aside (quiet : ¬ d.Rings fs) : n.state.settled? e = none :=
    same ((untouched_of_next moved).externals quiet)
  cases d with
  | run p =>
    cases p with
    | newExternal k =>
      cases moved
      exact pushed rfl
    | relay c k =>
      cases moved
      exact pushed (register_same (s.addExternal.log t (.bridged c s.externals.size)) t c _ _ fs).1
    | poll x w k =>
      cases moved
      unfold State.pollExternal
      split
      next => simp [State.settled?, missing]
      next =>
        split
        next => simp [State.settled?, missing]
        next => simp [State.settled?, State.log, State.modifyExternal, Array.getElem?_modify, missing]
    | _ => exact aside fun rings => rings
  | settling x r k =>
    cases moved
    unfold State.settleExternal
    split
    next => simp [State.settled?, missing]
    next =>
      split
      next => simp [State.settled?, State.log, missing]
      next => simp [State.settled?, State.log, State.modifyExternal, Array.getElem?_modify, missing]
  | ended ending =>
    cases transition_of_next moved with
    | plain was => exact was.elim
    | captures => exact same (State.externals_logEnding ..)
    | _ => exact same rfl
  | _ => exact aside fun rings => rings

/-- Why an object holds what it holds after a move: it held it before, or an attempt has won, or it is
a ready cell. -/
theorem holds_of_move {m : Move} (moved : s.move m = some s') {x : Object} {r : Reading V}
    (held : s'.holds? x = some r) :
    s.holds? x = some r ∨
      (s.holds? x = none ∧ s.Has x ∧ ∃ a, s.tryOn? x m = some a ∧ a.reading = r) ∨
      ∃ t name a k fs, m = .step t ∧ s.threads[t]? = some ⟨name, .run (.newCell (some a) k), fs⟩ ∧
        x = .cell s.cells.size ∧ r = (a.outcome s.nextCause).reading ∧
        s'.nextCause = s.nextCause + 1 := by
  cases before : s.holds? x with
  | some r' =>
    have kept := (extends_of_advance (advance_of_move moved)).holds before
    exact Or.inl (kept.symm.trans held)
  | none =>
    refine Or.inr ?_
    by_cases has : s.Has x
    · cases tried : s.tryOn? x m with
      | none => exact absurd (undecided_of_move moved tried has before) (by rw [held]; simp)
      | some a =>
        obtain ⟨after, moved', wins⟩ := wins_of_try tried has before
        cases moved.symm.trans moved'
        exact Or.inl ⟨rfl, has, a, rfl, Option.some.inj (wins.holds.symm.trans held)⟩
    · refine Or.inr ?_
      rcases step_or_lull moved with ⟨t, rfl⟩ | lull
      · obtain ⟨⟨name, d, fs⟩, n, found, next, rfl⟩ := next_of_step moved
        cases x with
        | cell c =>
          obtain ⟨o, decided, rfl⟩ := Option.map_eq_some_iff.mp held
          obtain ⟨a, k, rfl, rfl, rfl, used⟩ := outcome_of_new next has decided
          exact ⟨t, name, a, k, fs, rfl, found, rfl, rfl, used⟩
        | external e => exact absurd ((unsettled_of_new next has).symm.trans held) (by simp)
      · rw [lull.holds, before] at held
        cases held

end Inhabited
end Oneshot
