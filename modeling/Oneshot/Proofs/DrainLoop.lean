import Oneshot.Proofs.Reports
import Oneshot.Proofs.Calls

/-! # One drain loop for each cell

A drain loop of a cell is open from the critical section of a winning decision to the one that finds the
queue empty.  A step opens or closes a loop exactly when it sets or clears the flag of the cell
(`loops_of_transition`).  So in every run the flag says that one loop is open, the one that the winning
decision opened, and once it is closed nothing waits at the cell any more (`drainLoop_of_run`). -/
set_option autoImplicit false
namespace Oneshot
variable {V N S : Type}

/-- The drain loops of `c` among these frames.  A loop is named by the frames that it comes back to. -/
def loopsIn (c : CellId) : List (Frame V N S) → List (List (Frame V N S))
  | [] => []
  | .draining d :: fs => if d = c then fs :: loopsIn c fs else loopsIn c fs
  | .resume _ :: fs | .finishing _ _ :: fs | .capturing _ :: fs | .waking _ _ :: fs
  | .guarding _ :: fs => loopsIn c fs

def Doing.loops (c : CellId) (fs : List (Frame V N S)) : Doing V N S → List (List (Frame V N S))
  | .announcing d _ _ | .draining d => loopsIn c (.draining d :: fs)
  | _ => loopsIn c fs

/-- The loop that the next step opens, as a decision of `c` that wins. -/
def Doing.opens (s : State V N S) (c : CellId) (fs : List (Frame V N S)) :
    Doing V N S → List (List (Frame V N S))
  | .deciding d _ k => if d = c ∧ s.pending c = true then [won k ++ fs] else []
  | _ => []

/-- The loop that the next step closes, as a pop that finds the queue of `c` empty. -/
def Doing.closes (s : State V N S) (c : CellId) (fs : List (Frame V N S)) :
    Doing V N S → List (List (Frame V N S))
  | .draining d => if d = c ∧ (s.queueOf c).isEmpty = true then [fs] else []
  | _ => []

namespace State

def loops (s : State V N S) (c : CellId) (t : ThreadId) : List (List (Frame V N S)) :=
  match s.threads[t]? with
  | none => []
  | some thread => thread.doing.loops c thread.frames

/-- Exactly one drain loop of `c` is open: one of `t` that comes back to `base`. -/
def OneLoop (s : State V N S) (c : CellId) (t : ThreadId) (base : List (Frame V N S)) : Prop :=
  s.loops c t = [base] ∧ ∀ u, u ≠ t → s.loops c u = []

/-- The loops that a move opens or closes, by `which`, with their thread. -/
def loopsBy (which : State V N S → List (Frame V N S) → Doing V N S → List (List (Frame V N S)))
    (s : State V N S) : Move → List (ThreadId × List (Frame V N S))
  | .step t =>
    match s.threads[t]? with
    | none => []
    | some thread => (which s thread.frames thread.doing).map fun base => (t, base)
  | _ => []

/-- The winning decisions of `c` in a run, each with what it comes back to. -/
def opened [Inhabited V] (s : State V N S) (c : CellId) (ms : List Move) :
    List (ThreadId × List (Frame V N S)) :=
  s.gather (loopsBy fun s fs d => d.opens s c fs) ms

/-- The drain loops of `c` that have found its queue empty in a run. -/
def closed [Inhabited V] (s : State V N S) (c : CellId) (ms : List Move) :
    List (ThreadId × List (Frame V N S)) :=
  s.gather (loopsBy fun s fs d => d.closes s c fs) ms

variable {s : State V N S}

theorem loops_of_found {c : CellId} {t : ThreadId} {thread : Thread V N S}
    (found : s.threads[t]? = some thread) :
    s.loops c t = thread.doing.loops c thread.frames := by
  simp only [loops, found]

theorem pending_of_found {c : CellId} {cell : Cell V N S} (found : s.cells[c]? = some cell) :
    s.pending c = cell.outcome.isNone := by
  simp [pending, found]

theorem undecided_of_pending {c : CellId} (pending : s.pending c = true) : s.outcome? c = none := by
  obtain ⟨cell, found, undecided⟩ := (Option.any_eq_true ..).mp pending
  rw [outcome?_of_found found]
  exact Option.isNone_iff_eq_none.mp undecided

end State

theorem loopsIn_won (c : CellId) (k : Option (Bool → Prog V N S)) (fs : List (Frame V N S)) :
    loopsIn c (won k ++ fs) = loopsIn c fs := by
  cases k <;> rfl

section Inhabited
variable [Inhabited V] {s s' : State V N S} {t : ThreadId} {c : CellId}

omit [Inhabited V] in
theorem loops_of_plain {d : Doing V N S} {fs : List (Frame V N S)}
    (plain : d.Plain ∨ ∃ e, d = .ended e) : d.loops c fs = loopsIn c fs := by
  rcases plain with plain | ⟨e, rfl⟩
  · cases d <;> first | rfl | exact plain.elim
  · rfl

theorem loops_lost (k : Option (Bool → Prog V N S)) (fs : List (Frame V N S)) :
    (lost k).loops c fs = loopsIn c fs := by
  cases k <;> rfl

/-- What a step does to the loops of `c` and to its flag: both open, both close, or both stay. -/
structure Doing.Turns (s : State V N S) (c : CellId) (d : Doing V N S) (fs : List (Frame V N S))
    (n : Next V N S) : Prop where
  loops : d.closes s c fs ++ n.doing.loops c n.frames = d.opens s c fs ++ d.loops c fs
  flag : n.state.dispatches c =
    if d.opens s c fs ≠ [] then true
    else if d.closes s c fs ≠ [] then false else s.dispatches c
  decided : d.opens s c fs ≠ [] → n.state.outcome? c ≠ none

omit [Inhabited V] in
theorem Doing.Turns.of_same {d : Doing V N S} {fs : List (Frame V N S)} {n : Next V N S}
    (opens : d.opens s c fs = []) (closes : d.closes s c fs = [])
    (loops : n.doing.loops c n.frames = d.loops c fs) (flag : n.state.dispatches c = s.dispatches c) :
    d.Turns s c fs n := by
  refine ⟨by rw [opens, closes, loops], ?_, fun some => absurd opens some⟩
  rw [opens, closes, if_neg (fun none => none rfl), if_neg (fun none => none rfl), flag]

omit [Inhabited V] in
theorem turns_of_wins {b : CellId} {o : Outcome V} {k : Option (Bool → Prog V N S)}
    {fs : List (Frame V N S)} {cell : Cell V N S} (found : s.cells[b]? = some cell)
    (undecided : cell.outcome = none) (kind : Kind) (queued : Nat) :
    (Doing.deciding b o k).Turns s c fs
      ⟨s.modifyCell b (·.decide o), .announcing b kind queued, won k ++ fs⟩ := by
  have below := loopsIn_won c k fs
  have flag := State.dispatches_replaceCell found (·.decide o) c
  have pending : s.pending b = true := by simp [State.pending_of_found found, undecided]
  by_cases own : b = c
  · subst own
    have opens : (Doing.deciding b o k).opens s b fs = [won k ++ fs] :=
      if_pos ⟨rfl, pending⟩
    refine ⟨?_, ?_, fun _ => ?_⟩
    · rw [opens]
      simp only [Doing.closes, Doing.loops, loopsIn, if_true, below]
      rfl
    · rw [opens, if_pos (by simp), flag, if_pos rfl]
      rfl
    · simp [State.outcome?_replaceCell found]
  · have opens : (Doing.deciding b o k).opens s c fs = [] := if_neg fun both => own both.1
    apply Doing.Turns.of_same opens rfl
    · simp only [Doing.loops, loopsIn, own, if_false, below]
    · rw [flag, if_neg (Ne.symm own)]

omit [Inhabited V] in
theorem turns_of_takes {b : CellId} {fs : List (Frame V N S)} {cell : Cell V N S}
    {task : Task V N S} {rest : List (Task V N S)} (found : s.cells[b]? = some cell)
    (queue : cell.queue = task :: rest) (event : Event N) :
    (Doing.draining b).Turns s c fs
      ⟨(s.modifyCell b fun _ => { cell with queue := rest }).log t event, .starting b task,
        .draining b :: fs⟩ := by
  have closes : (Doing.draining b).closes s c fs = [] := by
    apply if_neg
    rintro ⟨rfl, empty⟩
    rw [State.queueOf_of_found found, queue] at empty
    cases empty
  refine .of_same rfl closes rfl ?_
  refine (State.dispatches_replaceCell found (fun _ => { cell with queue := rest }) c).trans ?_
  split
  next own => rw [own, State.dispatches_of_found found]
  next => rfl

omit [Inhabited V] in
theorem turns_of_empties {b : CellId} {fs : List (Frame V N S)} {cell : Cell V N S} {e : Ending V}
    (found : s.cells[b]? = some cell) (queue : cell.queue = []) :
    (Doing.draining b).Turns s c fs
      ⟨s.modifyCell b fun _ => { cell with queue := [], dispatching := false }, .ended e, fs⟩ := by
  have flag := State.dispatches_replaceCell found
    (fun _ => { cell with queue := [], dispatching := false }) c
  by_cases own : b = c
  · subst own
    have closes : (Doing.draining b).closes s b fs = [fs] :=
      if_pos ⟨rfl, by rw [State.queueOf_of_found found, queue]; rfl⟩
    refine ⟨?_, ?_, fun some => absurd rfl some⟩
    · rw [closes]
      simp only [Doing.opens, Doing.loops, loopsIn, if_true]
      rfl
    · rw [closes, if_neg (fun none => none rfl), if_pos (by simp), flag, if_pos rfl]
  · have closes : (Doing.draining b).closes s c fs = [] := if_neg fun both => own both.1
    apply Doing.Turns.of_same rfl closes
    · simp only [Doing.loops, loopsIn, own, if_false]
    · rw [flag, if_neg (Ne.symm own)]

omit [Inhabited V] in
theorem dispatches_addDerived {s₀ : State V N S} (opens : Opens s t s₀) :
    (s₀.addCell .derived).dispatches c = s.dispatches c := by
  rw [State.dispatches_addCell s₀ rfl, State.dispatches, State.dispatches, opens.cells]

omit [Inhabited V] in
theorem dispatches_enqueue {s₀ : State V N S} {b : CellId} {cell : Cell V N S} (task : Task V N S)
    (opens : Opens s t s₀) (found : s.cells[b]? = some cell) :
    ((s₀.addCell .derived).modifyCell b (·.enqueue task)).dispatches c = s.dispatches c := by
  have queued := State.dispatches_replaceCell (opens.found_addCell .derived found) (·.enqueue task) c
  rw [queued, dispatches_addDerived opens]
  split
  next own => rw [own, State.dispatches_of_found found]; rfl
  next => rfl

theorem loops_of_transition {d : Doing V N S} {fs : List (Frame V N S)} {n : Next V N S}
    (transition : Transition s t d fs n) (sound : Thread.Sound s d fs) (c : CellId) :
    d.Turns s c fs n := by
  cases transition with
  | plain was is still =>
    refine .of_same ?_ ?_ ?_ (still.dispatches c)
    · cases d <;> first | rfl | exact was.elim
    · cases d <;> first | rfl | exact was.elim
    · exact (loops_of_plain is).trans (loops_of_plain (Or.inl was)).symm
  | creates fresh =>
    refine .of_same rfl rfl rfl (State.dispatches_addCell s ?_ c)
    rcases fresh with rfl | ⟨o, rfl⟩ <;> rfl
  | strays opens => exact .of_same rfl rfl rfl (dispatches_addDerived opens)
  | queues opens found _ _ => exact .of_same rfl rfl rfl (dispatches_enqueue _ opens found)
  | inlines opens _ _ _ => exact .of_same rfl rfl rfl (dispatches_addDerived opens)
  | @loses b o k _ _ still closed =>
    refine .of_same ?_ rfl (loops_lost k fs) (still.dispatches c)
    apply if_neg
    rintro ⟨rfl, pending⟩
    obtain ⟨cell, found, -⟩ := (Option.any_eq_true ..).mp pending
    exact closed (Array.getElem?_eq_some_iff.mp found).1 (State.undecided_of_pending pending)
  | wins found undecided => exact turns_of_wins found undecided _ _
  | @announces b kind queued _ =>
    have notified := still_of_waiting s b Cell.notifyAll fun _ => rfl
    exact .of_same rfl rfl rfl (notified.dispatches c)
  | takes found queue => exact turns_of_takes found queue _
  | empties found queue => exact turns_of_empties found queue
  | idles missing => exact absurd (by simp [State.outcome?, missing]) sound.top.1
  | @refuses _ _ k _ _ still _ => exact .of_same rfl rfl (loops_lost k fs) (still.dispatches c)
  | @settles _ _ k _ _ _ _ => exact .of_same rfl rfl (loopsIn_won c k fs) rfl
  | @captures e r _ =>
    have same := State.cells_logEnding s t r e
    refine .of_same rfl rfl rfl ?_
    exact congrArg (fun cells => (cells[c]?.map Cell.dispatching).getD false) same
  | @unwinds payload frame _ passes =>
    cases frame with
    | draining b => exact (calm_of_rests sound.top (Or.inr ⟨b, rfl⟩)).elim
    | _ => exact .of_same rfl rfl rfl rfl
  | _ => exact .of_same rfl rfl rfl rfl

/-- Where a run has got to with the drain loop of `c`, by the winning decisions of `c` in the run and the
loops that have found the queue empty. -/
inductive Drain (s : State V N S) (c : CellId) :
    List (ThreadId × List (Frame V N S)) → List (ThreadId × List (Frame V N S)) → Prop
  | before (idle : s.dispatches c = false) (none : ∀ u, s.loops c u = []) : Drain s c [] []
  | during {t base} (decided : s.outcome? c ≠ none) (busy : s.dispatches c = true)
      (one : s.OneLoop c t base) : Drain s c [(t, base)] []
  | after {t base} (decided : s.outcome? c ≠ none) (idle : s.dispatches c = false)
      (none : ∀ u, s.loops c u = []) : Drain s c [(t, base)] [(t, base)]

omit [Inhabited V] in
theorem Drain.of_same {opened closed : List (ThreadId × List (Frame V N S))}
    (drain : Drain s c opened closed) (loops : ∀ u, s'.loops c u = s.loops c u)
    (flag : s'.dispatches c = s.dispatches c) (later : Extends s s') : Drain s' c opened closed := by
  cases drain with
  | before idle none => exact .before (flag.trans idle) fun u => (loops u).trans (none u)
  | during decided busy one =>
    refine .during (later.decided decided) (flag.trans busy) ⟨(loops _).trans one.1, ?_⟩
    intro u other
    rw [loops u]
    exact one.2 u other
  | after decided idle none =>
    exact .after (later.decided decided) (flag.trans idle) fun u => (loops u).trans (none u)

omit [Inhabited V] in
theorem loops_of_threads {u : ThreadId} (threads : s'.threads = s.threads ∨
    ∃ name body, s'.threads = s.threads.push ⟨name, .run body, []⟩) :
    s'.loops c u = s.loops c u := by
  rcases threads with same | ⟨name, body, pushed⟩
  · rw [State.loops, State.loops, same]
  · simp only [State.loops, pushed, Array.getElem?_push]
    by_cases last : u = s.threads.size
    · subst last
      simp [Doing.loops, loopsIn]
    · simp [last]

theorem loops_of_lull {m : Move} (moved : s.move m = some s') (still : ∀ t, m ≠ .step t) :
    (∀ u, s'.loops c u = s.loops c u) ∧ s'.dispatches c = s.dispatches c := by
  have roused (b : CellId) (t : ThreadId) :
      (s.modifyCell b (·.rouse t)).dispatches c = s.dispatches c :=
    (still_of_waiting s b (·.rouse t) fun _ => rfl).dispatches c
  cases m with
  | step t => exact absurd rfl (still t)
  | pass nanos =>
    cases moved
    exact ⟨fun _ => rfl, rfl⟩
  | expire t =>
    obtain ⟨name, b, limit, deadline, k, fs, found, -, -, rfl⟩ := asleep_of_expire moved
    refine ⟨fun u => ?_, roused b t⟩
    by_cases own : u = t
    · subst own
      let thread : Thread V N S := ⟨name, .expired b limit k, fs⟩
      have now : ((s.modifyCell b (·.rouse u)).setThread u thread).threads[u]? = some thread :=
        thread_setThread found rfl
      rw [State.loops_of_found now, State.loops_of_found found]
      rfl
    · rw [State.loops, State.getElem?_setThread, if_neg (Ne.symm own)]
      rfl
  | stir t =>
    obtain ⟨_, w, _, -, rfl⟩ := asleep_of_stir moved
    exact ⟨fun _ => rfl, roused w.cell t⟩

omit [Inhabited V] in
/-- A step of `t` opens the loop of `c`, closes it, or leaves all loops of `c` as they are. -/
theorem drain_of_turns {d : Doing V N S} {fs : List (Frame V N S)} {n : Next V N S}
    {opened closed : List (ThreadId × List (Frame V N S))} (drain : Drain s c opened closed)
    (turns : d.Turns s c fs n) (flag : s'.dispatches c = n.state.dispatches c)
    (before : s.loops c t = d.loops c fs) (now : s'.loops c t = n.doing.loops c n.frames)
    (others : ∀ u, u ≠ t → s'.loops c u = s.loops c u) (later : Extends s s')
    (outcome : s'.outcome? c = n.state.outcome? c) :
    Drain s' c (opened ++ (d.opens s c fs).map fun base => (t, base))
      (closed ++ (d.closes s c fs).map fun base => (t, base)) := by
  rw [turns.flag] at flag
  have loops := turns.loops
  rw [← before, ← now] at loops
  cases opens : d.opens s c fs with
  | cons base bases =>
    -- The decision has won, so the cell was undecided and no loop was open.
    obtain ⟨b, o, k, rfl⟩ : ∃ b o k, d = .deciding b o k := by
      cases d <;> first | exact ⟨_, _, _, rfl⟩ | cases opens
    have decided : s'.outcome? c ≠ none := by
      rw [outcome]
      exact turns.decided (by rw [opens]; simp)
    rw [if_pos (by rw [opens]; simp)] at flag
    simp only [Doing.opens] at opens
    split at opens
    next both =>
      cases opens
      have undecided := State.undecided_of_pending both.2
      cases drain with
      | before idle none =>
        refine .during decided flag ⟨?_, fun u other => (others u other).trans (none u)⟩
        rw [none t] at loops
        simpa [Doing.opens, Doing.closes, both] using loops
      | during earlier => exact absurd undecided earlier
      | after earlier => exact absurd undecided earlier
    next => cases opens
  | nil =>
    rw [opens, if_neg (fun none => none rfl)] at flag
    rw [opens, List.nil_append] at loops
    rw [List.map_nil, List.append_nil]
    cases closes : d.closes s c fs with
    | cons base bases =>
      rw [closes, if_pos (by simp)] at flag
      rw [closes] at loops
      cases drain with
      | before _ none => cases loops.trans (none t)
      | @during u open' decided busy one =>
        obtain rfl : t = u := Decidable.byContradiction fun other => by
          cases loops.trans (one.2 t other)
        obtain ⟨rfl, rest⟩ := List.cons.inj (loops.trans one.1)
        obtain ⟨rfl, none⟩ := List.append_eq_nil_iff.mp rest
        refine .after (later.decided decided) flag fun u => ?_
        by_cases own : u = t
        · rw [own, none]
        · exact (others u own).trans (one.2 u own)
      | after _ _ none => cases loops.trans (none t)
    | nil =>
      rw [closes, if_neg (fun none => none rfl)] at flag
      rw [closes, List.nil_append] at loops
      rw [List.map_nil, List.append_nil]
      refine drain.of_same (fun u => ?_) flag later
      by_cases own : u = t
      · rw [own, loops]
      · exact others u own

theorem drain_of_move {m : Move} {opened closed : List (ThreadId × List (Frame V N S))}
    (drain : Drain s c opened closed) (sound : s.Sound) (moved : s.move m = some s') :
    Drain s' c (opened ++ State.loopsBy (fun s fs d => d.opens s c fs) s m)
      (closed ++ State.loopsBy (fun s fs d => d.closes s c fs) s m) := by
  have later := extends_of_advance (advance_of_move moved)
  cases m with
  | step t =>
    obtain ⟨thread, n, found, transition, rfl⟩ := transition_of_step moved
    have turns := loops_of_transition transition (sound.threads t thread found) c
    have now : (n.state.setThread t ⟨thread.name, n.doing, n.frames⟩).loops c t =
      n.doing.loops c n.frames := State.loops_of_found (thread_after transition found)
    simp only [State.loopsBy, found]
    refine drain_of_turns drain turns rfl (State.loops_of_found found) now ?_ later rfl
    intro u other
    have elsewhere : (n.state.setThread t ⟨thread.name, n.doing, n.frames⟩).loops c u =
        n.state.loops c u := by
      rw [State.loops, State.getElem?_setThread, if_neg (Ne.symm other), State.loops]
    exact elsewhere.trans (loops_of_threads (threads_of_transition transition))
  | _ =>
    obtain ⟨loops, flag⟩ := loops_of_lull (c := c) moved (fun t same => by cases same)
    simp only [State.loopsBy, List.append_nil]
    exact drain.of_same loops flag later

theorem drain_of_run {client : S} {p : Prog V N S} {ms : List Move}
    (ran : (State.start client p).run ms = some s) (c : CellId) :
    Drain s c ((State.start client p).opened c ms) ((State.start client p).closed c ms) := by
  let s₀ : State V N S := State.start client p
  refine (run_induct (s := s₀)
    (P := fun ms s => s.Sound ∧ Drain s c (s₀.opened c ms) (s₀.closed c ms)) ?_ ?_ ran).2
  · refine ⟨sound_start client p, .before ?_ fun t => ?_⟩
    · simp [s₀, State.dispatches, State.start]
    · cases t <;> simp [s₀, State.loops, State.start, Doing.loops, loopsIn]
  · intro ms s m s' before now moved
    refine ⟨sound_of_advance (advance_of_move moved) now.1, ?_⟩
    have drain := drain_of_move now.2 now.1 moved
    rwa [State.opened, State.closed, gather_snoc before, gather_snoc before]

/-- A decided cell whose dispatch is over has nothing waiting, and so it stays. -/
theorem empty_of_decided (reachable : Reachable s) (decided : s.outcome? c ≠ none)
    (idle : s.dispatches c = false) : s.queueOf c = [] := by
  have done : (s.ledger.view c).decided = true := Option.isSome_iff_ne_none.mpr decided
  have waiting := waiting_of_free (phase_of_reachable reachable c) done idle
  exact List.map_eq_nil_iff.mp waiting

theorem idle_of_decided {m : Move} (sound : s.Sound) (moved : s.move m = some s')
    (decided : s.outcome? c ≠ none) (idle : s.dispatches c = false) : s'.dispatches c = false := by
  cases m with
  | step t =>
    obtain ⟨thread, n, found, transition, rfl⟩ := transition_of_step moved
    have turns := loops_of_transition transition (sound.threads t thread found) c
    have opens : thread.doing.opens s c thread.frames = [] := by
      cases doing : thread.doing with
      | deciding b o k =>
        apply if_neg
        intro both
        exact decided (State.undecided_of_pending both.2)
      | _ => rfl
    refine turns.flag.trans ?_
    rw [opens, if_neg (fun none => none rfl), idle, ite_self]
  | _ => exact ((loops_of_lull moved fun t same => by cases same).2).trans idle

theorem closed_of_reaches (reachable : Reachable s) (decided : s.outcome? c ≠ none)
    (idle : s.dispatches c = false) (reached : Reaches s s') :
    s'.queueOf c = [] ∧ s'.dispatches c = false := by
  have later : s'.Sound ∧ s'.outcome? c ≠ none ∧ s'.dispatches c = false := by
    refine reached.induct (P := fun s => s.Sound ∧ s.outcome? c ≠ none ∧ s.dispatches c = false)
      ⟨sound_of_reachable reachable, decided, idle⟩ ?_
    intro s m s' now moved
    have advance := advance_of_move moved
    exact ⟨sound_of_advance advance now.1, (extends_of_advance advance).decided now.2.1,
      idle_of_decided now.1 moved now.2.1 now.2.2⟩
  exact ⟨empty_of_decided (reachable_of_reaches reachable reached) later.2.1 later.2.2, later.2.2⟩

/-- What holds of the cell `c`, its flag and its drain loop after the run `ms` from `s₀` to `s`. -/
structure State.DrainedOnce (s₀ : State V N S) (ms : List Move) (s : State V N S) (c : CellId) :
    Prop where
  undecided : s.outcome? c = none → s.dispatches c = false
  /-- The flag is set if and only if exactly one drain loop is open. -/
  flag : s.dispatches c = true ↔ ∃ t base, s.OneLoop c t base
  cleared : s.dispatches c = false → ∀ t, s.loops c t = []
  /-- That is so from the critical section of the winning decision to the pop of an empty queue. -/
  span : s.dispatches c = true ↔ s₀.opened c ms ≠ [] ∧ s₀.closed c ms = []
  /-- Every open loop is that of the only decision that has won. -/
  owner : ∀ t, ∀ base ∈ s.loops c t, s₀.opened c ms = [(t, base)]
  /-- Nothing waits at a decided cell whose flag is cleared, now or ever. -/
  after : s.outcome? c ≠ none → s.dispatches c = false →
    ∀ s', Reaches s s' → s'.queueOf c = [] ∧ s'.dispatches c = false
  /-- A continuation of `c` that starts finds it decided. -/
  readsBack : ∀ t name task fs, s.threads[t]? = some ⟨name, .starting c task, fs⟩ →
    s.outcome? c ≠ none ∧
      (s.startTask t c task fs).doing ≠ .ended (.panicked (.text undecidedText))

omit [Inhabited V] in
theorem Drain.flag {opened closed : List (ThreadId × List (Frame V N S))}
    (drain : Drain s c opened closed) :
    s.dispatches c = true ↔ ∃ t base, s.OneLoop c t base := by
  have closed' (idle : s.dispatches c = false) (none : ∀ u, s.loops c u = []) :
      s.dispatches c = true ↔ ∃ t base, s.OneLoop c t base := by
    refine ⟨fun busy => (Bool.false_ne_true (idle.symm.trans busy)).elim, ?_⟩
    rintro ⟨t, base, one, -⟩
    cases (none t).symm.trans one
  cases drain with
  | before idle none => exact closed' idle none
  | during _ busy one => exact ⟨fun _ => ⟨_, _, one⟩, fun _ => busy⟩
  | after _ idle none => exact closed' idle none

omit [Inhabited V] in
theorem Drain.cleared {opened closed : List (ThreadId × List (Frame V N S))}
    (drain : Drain s c opened closed) (idle : s.dispatches c = false) (t : ThreadId) :
    s.loops c t = [] := by
  cases drain with
  | before _ none => exact none t
  | during _ busy _ => cases idle.symm.trans busy
  | after _ _ none => exact none t

omit [Inhabited V] in
theorem Drain.span {opened closed : List (ThreadId × List (Frame V N S))}
    (drain : Drain s c opened closed) : s.dispatches c = true ↔ opened ≠ [] ∧ closed = [] := by
  cases drain with
  | before idle _ => simp [idle]
  | during _ busy _ => simp [busy]
  | after _ idle _ => simp [idle]

omit [Inhabited V] in
theorem Drain.owner {opened closed : List (ThreadId × List (Frame V N S))}
    (drain : Drain s c opened closed) {t : ThreadId} {base : List (Frame V N S)}
    (open' : base ∈ s.loops c t) : opened = [(t, base)] := by
  cases drain with
  | before _ none => rw [none t] at open'; cases open'
  | @during u top _ _ one =>
    by_cases own : t = u
    · subst own
      rw [one.1, List.mem_singleton] at open'
      rw [open']
    · rw [one.2 t own] at open'
      cases open'
  | after _ _ none => rw [none t] at open'; cases open'

omit [Inhabited V] in
theorem idle_of_undecided (orderly : s.ledger.Orderly) (undecided : s.outcome? c = none) :
    s.dispatches c = false := by
  apply free_of_idle (orderly.course c).phase
  intro u deciding
  have none : (s.ledger.view c).duties u = [] := idle_of_pending orderly undecided u
  rw [View.Deciding, none] at deciding
  simp at deciding

omit [Inhabited V] in
theorem startTask_of_decided (task : Task V N S) (fs : List (Frame V N S))
    (decided : s.outcome? c ≠ none) :
    (s.startTask t c task fs).doing ≠ .ended (.panicked (.text undecidedText)) := by
  obtain ⟨o, held⟩ := Option.ne_none_iff_exists'.mp decided
  cases task with
  | chain result body => simp [State.startTask]
  | relay result e => simp [State.startTask]
  | transform result f => cases o <;> simp [State.startTask, held, Outcome.reading]

/-- In every run, for every cell: the flag says that one drain loop is open, the one of the decision
that has won, and once it is closed nothing is queued at the cell any more. -/
theorem drainLoop_of_run {client : S} {p : Prog V N S} {ms : List Move}
    (ran : (State.start client p).run ms = some s) (c : CellId) :
    (State.start client p).DrainedOnce ms s c := by
  have reachable : Reachable s := ⟨client, p, ms, ran⟩
  have drain := drain_of_run ran c
  refine ⟨idle_of_undecided (orderly_of_reachable reachable), drain.flag, drain.cleared,
    drain.span, fun _ _ => drain.owner, fun decided idle _ => closed_of_reaches reachable decided idle, ?_⟩
  intro t name task fs found
  have decided : s.outcome? c ≠ none := ((sound_of_reachable reachable).threads t _ found).top.1
  exact ⟨decided, startTask_of_decided task fs decided⟩

/-- Two threads decide one cell, and the body that the winner runs registers another there. -/
def racingDecisions : Prog Nat Empty Unit :=
  .newCell none fun c =>
    .chain c (.chain c (.ret 7) fun _ => .ret 1) fun _ =>
      .spawn none (.decide c (.complete 6) fun _ => .ret 0) fun _ =>
        .decide c (.complete 5) fun _ => .ret 0

theorem drainLoop_of_race : ∃ (s : State Nat Empty Unit) (ms : List Move),
    (State.start () racingDecisions).run ms = some s ∧ s.dispatches 0 = true ∧
      ((State.start () racingDecisions).opened 0 ms).map Prod.fst = [1] ∧
      (s.queueOf 0).length = 1 ∧ (State.start () racingDecisions).DrainedOnce ms s 0 := by
  let ms : List Move := [.step 0, .step 0, .step 0, .step 1, .step 0, .step 1, .step 0, .step 1,
    .step 1, .step 1, .step 1]
  let s₀ : State Nat Empty Unit := State.start () racingDecisions
  have facts : (s₀.run ms).map (fun s => (s.dispatches 0, (s₀.opened 0 ms).map Prod.fst,
      (s.queueOf 0).length)) = some (true, [1], 1) := by decide +kernel
  obtain ⟨s, ran, same⟩ := Option.map_eq_some_iff.mp facts
  obtain ⟨busy, won, one⟩ : s.dispatches 0 = true ∧ (s₀.opened 0 ms).map Prod.fst = [1] ∧
    (s.queueOf 0).length = 1 := by simpa using same
  exact ⟨s, ms, ran, busy, won, one, drainLoop_of_run ran 0⟩

end Inhabited
end Oneshot
