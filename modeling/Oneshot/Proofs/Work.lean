import Oneshot.Proofs.Termination

/-! # The work that is left

All that the threads of a state have before them, with all that is queued and parked, is its work.  No
move adds to it, and each step of a thread that does not wait takes something away (`lighter_of_own`,
`work_of_move`): the queue of a cell may grow while it is drained, but what goes into it was there before,
as a part of the code that has put it there. -/
set_option autoImplicit false
namespace Oneshot
variable {V N S : Type}

/-- What a reader would go on with if it woke up now. -/
def Doing.roused : Doing V N S → Doing V N S
  | .asleep w => .checking w
  | d => d

def Thread.load (s : State V N S) (thread : Thread V N S) : Multiset (Token V N S) :=
  thread.doing.roused.load s 0 + loadOf thread.frames

/-- The read of an undecided cell, or the end of a thread that goes on, holds the thread up. -/
def Doing.Blocked (s : State V N S) : Doing V N S → Prop
  | .checking w => s.outcome? w.cell = none
  | .asleep _ => True
  | .run (.join u _) => s.ending? u = none
  | _ => False

def Prog.Recruits : Prog V N S → Prop
  | .spawn _ _ _ | .newWaker _ _ => True
  | _ => False

def Doing.Recruits : Doing V N S → Prop
  | .run p => p.Recruits
  | _ => False

namespace State

def work (s : State V N S) : Multiset (Token V N S) :=
  s.load + (s.threads.toList.map (Thread.load s)).sum

end State

theorem load_of_awake {d : Doing V N S} (awake : ∀ w, d ≠ .asleep w) (s s' : State V N S)
    (t t' : ThreadId) : d.load s t = d.load s' t' := by
  cases d with
  | asleep w => exact absurd rfl (awake w)
  | _ => rfl

theorem roused_of_awake {d : Doing V N S} (awake : ∀ w, d ≠ .asleep w) : d.roused = d := by
  cases d with
  | asleep w => exact absurd rfl (awake w)
  | _ => rfl

theorem roused_awake (d : Doing V N S) (w : Wait V N S) : d.roused ≠ .asleep w := by
  cases d <;> simp [Doing.roused]

theorem Thread.load_eq (s s' : State V N S) (thread : Thread V N S) : thread.load s = thread.load s' :=
  congrArg (· + loadOf thread.frames) (load_of_awake (roused_awake thread.doing) s s' 0 0)

/-- What `s` holds but for thread `t`, and what the others have before them. -/
theorem sum_of_set (g : Thread V N S → Multiset (Token V N S)) (threads : List (Thread V N S))
    {t : ThreadId} {thread : Thread V N S} (found : threads[t]? = some thread) :
    ∃ rest, (threads.map g).sum = rest + g thread ∧
      ∀ thread', ((threads.set t thread').map g).sum = rest + g thread' := by
  induction threads generalizing t with
  | nil => simp at found
  | cons first threads ih =>
    cases t with
    | zero =>
      cases Option.some.inj found
      refine ⟨(threads.map g).sum, ?_, fun thread' => ?_⟩
      · simp only [List.map_cons, List.sum_cons, add_comm]
      · simp only [List.set_cons_zero, List.map_cons, List.sum_cons, add_comm]
    | succ t =>
      obtain ⟨rest, before, after⟩ := ih (t := t) (by simpa using found)
      refine ⟨g first + rest, ?_, fun thread' => ?_⟩
      · simp only [List.map_cons, List.sum_cons, before, add_assoc]
      · simp only [List.set_cons_succ, List.map_cons, List.sum_cons, after, add_assoc]

section Inhabited
variable [Inhabited V] {s s' : State V N S} {t : ThreadId} {name : Option String} {d : Doing V N S}
  {fs : List (Frame V N S)} {n : Next V N S}

omit [Inhabited V] in
/-- The work of a state is that of one of its threads and the rest, and so it is after a step of that
thread, but for the work of a thread that the step begins. -/
theorem work_of_thread {thread : Thread V N S} (found : s.threads[t]? = some thread) :
    ∃ rest, s.work = s.load + (rest + thread.load s) ∧
      (∀ (s₁ : State V N S) thread', s₁.threads = s.threads →
        (s₁.setThread t thread').work = s₁.load + (rest + thread'.load s)) ∧
      ∀ (s₁ : State V N S) thread' new, s₁.threads = s.threads.push new →
        (s₁.setThread t thread').work = s₁.load + (rest + thread'.load s + new.load s) := by
  have inside := (Array.getElem?_eq_some_iff.mp found).1
  have listed : s.threads.toList[t]? = some thread := by simpa using found
  obtain ⟨rest, before, after⟩ := sum_of_set (Thread.load s) s.threads.toList listed
  have same (s₁ : State V N S) : Thread.load s₁ = Thread.load s := funext (Thread.load_eq s₁ s)
  refine ⟨rest, by rw [State.work, before], ?_, ?_⟩
  · intro s₁ thread' threads
    rw [State.work, same, State.setThread, threads, Array.toList_setIfInBounds, after]
    rfl
  · intro s₁ thread' new threads
    have set : (s.threads.toList ++ [new]).set t thread' = s.threads.toList.set t thread' ++ [new] :=
      List.set_append_left _ _ (by simpa using inside)
    rw [State.work, same, State.setThread, threads, Array.toList_setIfInBounds, Array.toList_push, set,
      List.map_append, List.sum_append, after]
    simp [State.load]

omit [Inhabited V] in
theorem awake_of_register (s : State V N S) (t : ThreadId) (c : CellId) (task : Task V N S)
    (q : Prog V N S) (fs : List (Frame V N S)) (w : Wait V N S) :
    (s.register t c task q fs).doing ≠ .asleep w := by
  unfold State.register
  split
  next => simp
  next => split <;> simp

omit [Inhabited V] in
theorem awake_of_perform {p : Prog V N S} (moved : s.perform t p fs = some n) (w : Wait V N S) :
    n.doing ≠ .asleep w := by
  cases p with
  | newCell start k => cases start <;> cases moved <;> simp
  | decide c a k =>
    simp only [State.perform] at moved
    split at moved <;> cases moved <;> simp
  | chain c body k => cases moved; exact awake_of_register _ _ _ _ _ _ w
  | transform c f k => cases moved; exact awake_of_register _ _ _ _ _ _ w
  | relay c k => cases moved; exact awake_of_register _ _ _ _ _ _ w
  | poll e x k =>
    cases moved
    unfold State.pollExternal
    split
    next => simp
    next => split <;> simp
  | join u k =>
    obtain ⟨e, -, rfl⟩ := Option.map_eq_some_iff.mp moved
    simp
  | _ => cases moved; simp

theorem awake_lost (k : Option (Bool → Prog V N S)) (w : Wait V N S) : lost k ≠ .asleep w := by
  cases k <;> simp [lost]

/-- Nobody falls asleep but in the read of an undecided cell. -/
theorem awake_of_next (moved : s.next t d fs = some n) (unblocked : ¬ d.Blocked s)
    (w : Wait V N S) : n.doing ≠ .asleep w := by
  cases d with
  | run p => exact awake_of_perform moved w
  | checking w' =>
    obtain ⟨cell, found, ⟨undecided, rfl⟩ | ⟨o, -, rfl⟩⟩ := check_cases moved
    · exact absurd ((State.outcome?_of_found found).trans undecided) unblocked
    · simp
  | asleep w' => exact absurd trivial unblocked
  | expired c limit k =>
    cases moved
    unfold State.giveUp
    split <;> simp
  | deciding c o k =>
    cases transition_of_next moved with
    | plain was => exact was.elim
    | loses _ _ => exact awake_lost k w
    | wins _ _ => simp
  | settling e r k =>
    cases transition_of_next moved with
    | plain was => exact was.elim
    | refuses _ _ => exact awake_lost k w
    | settles _ _ => simp
  | _ =>
    cases transition_of_next moved with
    | plain was => exact was.elim
    | _ => simp

omit [Inhabited V] in
theorem crew_of_register (s : State V N S) (t : ThreadId) (c : CellId) (task : Task V N S)
    (q : Prog V N S) (fs : List (Frame V N S)) :
    (s.register t c task q fs).state.threads = s.threads ∧
      (s.register t c task q fs).state.wakers = s.wakers := by
  refine ⟨(register_same s t c task q fs).2, ?_⟩
  unfold State.register
  split
  next => rfl
  next => split <;> rfl

omit [Inhabited V] in
theorem crew_of_perform {p : Prog V N S} (moved : s.perform t p fs = some n) (same : ¬ p.Recruits) :
    n.state.threads = s.threads ∧ n.state.wakers = s.wakers := by
  cases p with
  | newCell start k => cases start <;> cases moved <;> exact ⟨rfl, rfl⟩
  | decide c a k =>
    simp only [State.perform] at moved
    split at moved <;> cases moved <;> exact ⟨rfl, rfl⟩
  | chain c body k => cases moved; exact crew_of_register ..
  | transform c f k => cases moved; exact crew_of_register ..
  | relay c k => cases moved; exact crew_of_register ..
  | poll e w k =>
    cases moved
    unfold State.pollExternal
    split
    next => exact ⟨rfl, rfl⟩
    next => split <;> exact ⟨rfl, rfl⟩
  | newWaker onWake k => exact absurd trivial same
  | spawn name body k => exact absurd trivial same
  | join u k =>
    obtain ⟨e, -, rfl⟩ := Option.map_eq_some_iff.mp moved
    exact ⟨rfl, rfl⟩
  | _ => cases moved; exact ⟨rfl, rfl⟩

theorem crew_of_next (moved : s.next t d fs = some n) (same : ¬ d.Recruits) :
    n.state.threads = s.threads ∧ n.state.wakers = s.wakers := by
  cases d with
  | run p => exact crew_of_perform moved same
  | checking w =>
    obtain ⟨cell, -, ⟨-, rfl⟩ | ⟨o, -, rfl⟩⟩ := check_cases moved <;> exact ⟨rfl, rfl⟩
  | asleep w =>
    obtain ⟨-, rfl⟩ := notified_of_next moved
    exact ⟨rfl, rfl⟩
  | expired c limit k =>
    cases moved
    unfold State.giveUp
    split <;> exact ⟨rfl, rfl⟩
  | deciding c o k =>
    cases moved
    unfold State.decideCell
    split
    next => exact ⟨rfl, rfl⟩
    next => split <;> exact ⟨rfl, rfl⟩
  | settling e r k =>
    cases moved
    unfold State.settleExternal
    split
    next => exact ⟨rfl, rfl⟩
    next => split <;> exact ⟨rfl, rfl⟩
  | ended e =>
    cases transition_of_next moved with
    | plain was => exact was.elim
    | captures => cases e <;> exact ⟨rfl, rfl⟩
    | _ => exact ⟨rfl, rfl⟩
  | _ =>
    cases transition_of_next moved with
    | plain was => exact was.elim
    | _ => exact ⟨rfl, rfl⟩

theorem threads_of_next (moved : s.next t d fs = some n) :
    n.state.threads = s.threads ∨ ∃ name body k, d = .run (.spawn name body k) := by
  by_cases recruits : d.Recruits
  · cases d with
    | run p =>
      cases p with
      | spawn name body k => exact Or.inr ⟨name, body, k, rfl⟩
      | newWaker onWake k => cases moved; exact Or.inl rfl
      | _ => exact recruits.elim
    | _ => exact recruits.elim
  · exact Or.inl (crew_of_next moved recruits).1

theorem blocked_of_next (stuck : s.next t d fs = none) :
    d.Blocked s ∨ ∃ e, d = .ended e ∧ fs = [] := by
  rcases waits_of_next stuck with waits | ended
  · refine Or.inl ?_
    cases d with
    | checking w =>
      cases outcome : s.outcome? w.cell with
      | none => exact outcome
      | some o =>
        obtain ⟨cell, found⟩ := State.found_of_outcome? (s := s) (c := w.cell) (by simp [outcome])
        rw [State.outcome?_of_found found] at outcome
        simp [State.next, State.check, found, outcome] at stuck
    | asleep w => trivial
    | run p =>
      cases p with
      | join u k => exact Option.map_eq_none_iff.mp stuck
      | _ => exact waits.elim
    | _ => exact waits.elim
  · exact Or.inr ended

omit [Inhabited V] in
theorem work_of_same (load : s'.load = s.load) (threads : s'.threads = s.threads) :
    s'.work = s.work := by
  have same : Thread.load s' = Thread.load s := funext (Thread.load_eq s' s)
  rw [State.work, State.work, load, threads, same]

/-- A step of a thread that nothing holds up takes some of the work away. -/
theorem lighter_of_own {thread : Thread V N S} (tame : s.Tame) (found : s.threads[t]? = some thread)
    (unblocked : ¬ thread.doing.Blocked s) (moved : s.step t = some s') : Lighter s'.work s.work := by
  obtain ⟨thread', n, found', next, rfl⟩ := next_of_step moved
  cases Option.some.inj (found.symm.trans found')
  obtain ⟨rest, before, after, begun⟩ := work_of_thread found
  have awake (w : Wait V N S) : thread.doing ≠ .asleep w := by
    intro asleep
    rw [asleep] at unblocked
    exact unblocked trivial
  have was : thread.load s = thread.doing.load s t + loadOf thread.frames := by
    rw [Thread.load, roused_of_awake awake, load_of_awake awake s s 0 t]
  have awake' := awake_of_next next unblocked
  have is : Thread.load s ⟨thread.name, n.doing, n.frames⟩ = n.doing.load n.state t + loadOf n.frames := by
    rw [Thread.load, roused_of_awake awake', load_of_awake awake' s n.state 0 t]
  rcases threads_of_next next with same | ⟨name, body, k, spawns⟩
  · have lighter := lighter_add rest (lighter_of_next tame next)
    rw [after _ _ same, before, is, was, add_left_comm, add_left_comm s.load]
    exact lighter
  · -- The body of the new thread is a part of the program too.
    rw [spawns] at next was
    cases next
    have below : (Token.run (.spawn name body k)).Over
        ({.run (k s.threads.size)} + {.run body} : Multiset (Token V N S)) := by
      simp only [Token.over_add, Token.over_singleton]
      exact ⟨Token.run_below_run (Or.inr ⟨_, rfl⟩), Token.run_below_run (Or.inl rfl)⟩
    refine lighter_of_split (s.load + (rest + loadOf thread.frames)) 0 ?_ ?_ below
    · rw [begun _ _ _ rfl, is]
      simp only [Thread.load, Doing.roused, Doing.load, loadOf_nil, add_zero]
      rw [show (s.addThread name body).load = s.load from rfl]
      abel
    · rw [before, was, Doing.load, add_zero]
      abel

omit [Inhabited V] in
/-- Going to sleep and waking up again, a thread keeps its work. -/
theorem work_of_roused {thread thread' : Thread V N S} {s₁ : State V N S}
    (found : s.threads[t]? = some thread) (load : s₁.load = s.load) (threads : s₁.threads = s.threads)
    (roused : thread'.doing.roused = thread.doing.roused) (frames : thread'.frames = thread.frames) :
    (s₁.setThread t thread').work = s.work := by
  obtain ⟨rest, before, after, -⟩ := work_of_thread found
  have same : thread'.load s = thread.load s := by rw [Thread.load, Thread.load, roused, frames]
  rw [after s₁ thread' threads, before, load, same]

theorem work_of_move {m : Move} (tame : s.Tame) (moved : s.move m = some s') :
    s'.work = s.work ∨ Lighter s'.work s.work := by
  cases m with
  | step t =>
    have moved : s.step t = some s' := moved
    obtain ⟨⟨name, d, fs⟩, n, found, next, same⟩ := next_of_step moved
    by_cases blocked : d.Blocked s
    · subst same
      refine Or.inl ?_
      cases d with
      | checking w =>
        obtain ⟨cell, held, ⟨-, rfl⟩ | ⟨o, decided, rfl⟩⟩ := check_cases next
        · exact work_of_roused found (State.load_keepQueue s w.cell (f := (·.sleep t)) fun _ => rfl) rfl
            rfl rfl
        · rw [Doing.Blocked, State.outcome?_of_found held, decided] at blocked
          cases blocked
      | asleep w =>
        obtain ⟨-, rfl⟩ := notified_of_next next
        exact work_of_roused found rfl rfl rfl rfl
      | run p =>
        cases p with
        | join u k =>
          have none : s.ending? u = none := blocked
          simp [State.next, State.perform, none] at next
        | _ => exact blocked.elim
      | _ => exact blocked.elim
    · exact Or.inr (lighter_of_own tame found blocked moved)
  | pass nanos =>
    cases moved
    exact Or.inl (work_of_same rfl rfl)
  | expire t =>
    obtain ⟨name, c, limit, deadline, k, fs, found, -, -, rfl⟩ := asleep_of_expire moved
    obtain ⟨rest, before, after, -⟩ := work_of_thread found
    have load := State.load_keepQueue s c (f := (·.rouse t)) fun _ => rfl
    have below : (Token.answer k 12).Over ({.answer k 11} : Multiset (Token V N S)) :=
      Token.over_singleton.mpr (Or.inl ⟨fun _ code => code, (by decide : 11 < 12)⟩)
    refine Or.inr (lighter_of_split (s.load + (rest + loadOf fs)) 0 ?_ ?_ below)
    · rw [after (s.modifyCell c (·.rouse t)) _ rfl, load]
      simp only [Thread.load, Doing.roused, Doing.load]
      abel
    · rw [before]
      simp only [Thread.load, Doing.roused, Doing.load, add_zero]
      abel
  | stir t =>
    obtain ⟨_, w, _, -, rfl⟩ := asleep_of_stir moved
    exact Or.inl (work_of_same (State.load_keepQueue s w.cell (f := (·.rouse t)) fun _ => rfl) rfl)

end Inhabited
end Oneshot
