import Mathlib.Data.List.Nodup
import Oneshot.Proofs.Records

/-! # Which continuation runs when

The history of a cell is read off its phase: what was queued ran in turn on the thread that decided the
cell, inside that decision, and what was not queued runs inside its own registration
(`runsInOrder_of_reachable`). -/
set_option autoImplicit false
namespace Oneshot
open Function (update)

def Mark.run? : Mark → Option CellId
  | .started _ r | .finished _ r => some r
  | _ => none

def Trace.ran (rs : List CellId) (trace : Trace) : Trace :=
  trace.filter fun entry => entry.2.run?.any (rs.contains ·)

namespace Trace

theorem ran_append (rs : List CellId) (trace trace' : Trace) :
    ran rs (trace ++ trace') = ran rs trace ++ ran rs trace' :=
  List.filter_append ..

theorem ran_runs (rs : List CellId) (trace : Trace) : ran rs (runs trace) = ran rs trace := by
  unfold ran runs
  rw [List.filter_filter]
  congr 1
  funext entry
  cases entry.2 <;> simp [Mark.run?, Mark.queued?]

theorem started_runs (trace : Trace) :
    results Mark.started? (runs trace) = results Mark.started? trace := by
  unfold results runs
  rw [List.filterMap_filter]
  congr 1
  funext entry
  cases entry.2 <;> simp [Mark.started?, Mark.queued?]

theorem ran_turns (rs : List CellId) (t : ThreadId) (c : CellId) (done : List CellId) :
    ran rs (done.flatMap (turn t c)) = (done.filter (rs.contains ·)).flatMap (turn t c) := by
  induction done with
  | nil => rfl
  | cons r done ih =>
    rw [List.flatMap_cons, ran_append, ih]
    by_cases own : r ∈ rs <;> simp [turn, ran, Mark.run?, own]

theorem started_turns (t : ThreadId) (c : CellId) (done : List CellId) :
    results Mark.started? (done.flatMap (turn t c)) = done := by
  induction done with
  | nil => rfl
  | cons r done ih =>
    rw [List.flatMap_cons, results_append, ih]
    rfl

theorem ran_eq_nil {rs : List CellId} {trace : Trace}
    (apart : ∀ entry ∈ trace, ∀ r, entry.2.run? = some r → r ∉ rs) : ran rs trace = [] := by
  rw [ran, List.filter_eq_nil_iff]
  intro entry member
  cases ran : entry.2.run? with
  | none => simp
  | some r => simpa using apart entry member r ran

end Trace

section Nested
variable {c : CellId} {D : ThreadId → List Duty} {trace : Trace}

/-- How far a continuation is that its registration runs itself: how often each thread is in the middle
of it, and what has been recorded of it. -/
inductive Lived (c r : CellId) : (ThreadId → Nat) → Trace → Prop
  | unborn : Lived c r (fun _ => 0) []
  | inside (t : ThreadId) :
      Lived c r (update (fun _ => 0) t 1) [(t, .inlined c r), (t, .started c r)]
  | past (t : ThreadId) :
      Lived c r (fun _ => 0) [(t, .inlined c r), (t, .started c r), (t, .finished c r)]

theorem count_update (D : ThreadId → List Duty) (t : ThreadId) (ds : List Duty) (duty : Duty) :
    (fun u => (update D t ds u).count duty) =
      update (fun u => (D u).count duty) t (ds.count duty) := by
  funext u
  rw [Function.update_apply, Function.update_apply]
  split <;> rfl

theorem count_other {r r' : CellId} (other : r' ≠ r) (ds : List Duty) :
    (Duty.inline c r' :: ds).count (.inline c r) = ds.count (.inline c r) := by
  rw [List.count_cons]
  simp [other]

theorem lived_of_nested (nested : Nested c D trace) (r : CellId) :
    Lived c r (fun u => (D u).count (.inline c r)) (trace.life r) := by
  induction nested with
  | nil => exact .unborn
  | @enters D trace t r' _ new ih =>
    rw [count_update, Trace.life_append]
    by_cases own : r' = r
    · subst own
      have unborn : trace.life r' = [] := by
        rw [Trace.life, List.filter_eq_nil_iff]
        intro entry member
        simpa using new entry member
      rw [unborn] at ih ⊢
      generalize counted : (fun u => (D u).count (.inline c r')) = counts at ih ⊢
      have here : (D t).count (.inline c r') = counts t := congrFun counted t
      cases ih
      rw [List.count_cons_self, here]
      simpa [Trace.life, Mark.result?] using Lived.inside (c := c) (r := r') t
    · have life : Trace.life r [(t, .inlined c r'), (t, .started c r')] = [] := by
        simp [Trace.life, Mark.result?, own]
      have same := Function.update_eq_self t fun u => (D u).count (.inline c r)
      rw [count_other own, same, life, List.append_nil]
      exact ih
  | @leaves D trace t r' ds _ top ih =>
    rw [count_update, Trace.life_append]
    by_cases own : r' = r
    · subst own
      generalize counted : (fun u => (D u).count (.inline c r')) = counts at ih ⊢
      have here : counts t = ds.count (.inline c r') + 1 := by
        rw [← counted]
        simp only [top, List.count_cons_self]
      generalize trace.life r' = life at ih ⊢
      cases ih with
      | unborn => exact absurd here.symm (Nat.succ_ne_zero _)
      | past => exact absurd here.symm (Nat.succ_ne_zero _)
      | inside u =>
        rw [Function.update_apply] at here
        split at here
        next same =>
          subst same
          have none : ds.count (.inline c r') = 0 := by omega
          rw [none, Function.update_idem, Function.update_eq_self]
          simpa [Trace.life, Mark.result?] using Lived.past (c := c) (r := r') t
        next => omega
    · have life : Trace.life r [(t, .finished c r')] = [] := by
        simp [Trace.life, Mark.result?, own]
      have below : ds.count (.inline c r) = (D t).count (.inline c r) := by
        rw [top, count_other own]
      have same := Function.update_eq_self t fun u => (D u).count (.inline c r)
      rw [below, same, life, List.append_nil]
      exact ih

theorem result_of_nested (nested : Nested c D trace) :
    ∀ entry ∈ trace, ∃ r, entry.2.result? = some r := by
  induction nested with
  | nil => exact fun _ member => by cases member
  | @enters D trace t r _ _ ih =>
    intro entry member
    rcases List.mem_append.mp member with before | new
    · exact ih entry before
    · refine ⟨r, ?_⟩
      simp only [List.mem_cons, List.not_mem_nil, or_false] at new
      rcases new with rfl | rfl <;> rfl
  | @leaves D trace t r _ _ _ ih =>
    intro entry member
    rcases List.mem_append.mp member with before | new
    · exact ih entry before
    · rw [List.mem_singleton.mp new]
      exact ⟨r, rfl⟩

/-- Of a continuation that its registration runs, the start has been recorded with the rest. -/
theorem started_of_nested (nested : Nested c D trace) {entry : ThreadId × Mark} {r : CellId}
    (member : entry ∈ trace) (same : entry.2.result? = some r) :
    r ∈ Trace.results Mark.started? trace := by
  have recorded : entry ∈ trace.life r := List.mem_filter.mpr ⟨member, by simpa using same⟩
  have started : ∃ t, (t, Mark.started c r) ∈ trace.life r := by
    have lived := lived_of_nested nested r
    generalize trace.life r = life at recorded lived ⊢
    generalize (fun u => (D u).count (.inline c r)) = counts at lived
    cases lived with
    | unborn => cases recorded
    | inside t => exact ⟨t, by simp⟩
    | past t => exact ⟨t, by simp⟩
  obtain ⟨t, started⟩ := started
  exact List.mem_filterMap.mpr ⟨_, (List.mem_filter.mp started).1, rfl⟩

end Nested

section Opening
variable {c : CellId} {queued : List CellId} {opening : Trace}

theorem started_of_opening (opens : Opening c queued opening) :
    Trace.results Mark.started? opening = queued := by
  rcases opens with ⟨rfl, rfl⟩ | ⟨t, rfl⟩
  · rfl
  · exact Trace.started_turns t c queued

theorem ran_of_opening (opens : Opening c queued opening) (rs : List CellId) :
    ∃ t, Trace.ran rs opening = (queued.filter (rs.contains ·)).flatMap (turn t c) := by
  rcases opens with ⟨rfl, rfl⟩ | ⟨t, rfl⟩
  · exact ⟨0, rfl⟩
  · exact ⟨t, Trace.ran_turns rs t c queued⟩

theorem finished_of_opening (opens : Opening c queued opening) :
    ∀ q ∈ queued, ∃ t, (t, Mark.finished c q) ∈ opening := by
  intro q member
  rcases opens with ⟨rfl, rfl⟩ | ⟨t, rfl⟩
  · cases member
  · refine ⟨t, List.mem_cons_of_mem _ (List.mem_flatMap.mpr ⟨q, member, ?_⟩)⟩
    simp [turn]

theorem mark_of_opening (opens : Opening c queued opening) :
    ∀ entry ∈ opening, entry.2 = .decided c ∨ ∃ q ∈ queued, entry.2.run? = some q := by
  intro entry member
  rcases opens with ⟨rfl, rfl⟩ | ⟨t, rfl⟩
  · cases member
  · rcases List.mem_cons.mp member with rfl | turned
    · exact Or.inl rfl
    · obtain ⟨q, known, here⟩ := List.mem_flatMap.mp turned
      refine Or.inr ⟨q, known, ?_⟩
      simp only [turn, List.mem_cons, List.not_mem_nil, or_false] at here
      rcases here with rfl | rfl <;> rfl

end Opening

theorem Trace.ran_life (r : CellId) (trace : Trace) : ran [r] (life r trace) = ran [r] trace := by
  unfold ran life
  rw [List.filter_filter]
  congr 1
  funext entry
  cases entry.2 <;> simp [Mark.run?, Mark.result?]

theorem Trace.life_runs {r : CellId} {trace : Trace} (fresh : r ∉ results Mark.queued? trace) :
    life r (runs trace) = life r trace := by
  unfold life runs
  rw [List.filter_filter]
  apply List.filter_congr
  intro entry member
  cases mark : entry.2 with
  | queued c r' =>
    have other : r' ≠ r := by
      rintro rfl
      exact fresh (List.mem_filterMap.mpr ⟨entry, member, by rw [mark]; rfl⟩)
    simp [Mark.result?, Mark.queued?, other]
  | _ => simp [Mark.result?, Mark.queued?]

def View.Deciding (c : CellId) (w : View) (t : ThreadId) : Prop :=
  .announce c ∈ w.duties t ∨ .dispatch c ∈ w.duties t

/-- The decision that decided the cell has returned, and so have the registrations that run their
continuations themselves. -/
def View.Returned (c : CellId) (w : View) : Prop :=
  ∀ t, ¬ w.Deciding c t ∧ ∀ r, .inline c r ∉ w.duties t

section Course
variable {c : CellId} {w : View}

/-- After the dispatch: the history begins with what was queued, and goes on with other
continuations. -/
structure Over (c : CellId) (w : View) (opening later : Trace) : Prop where
  waiting : w.waiting = []
  opens : Opening c w.queued opening
  nested : Nested c w.duties later
  runs : w.runs = opening ++ later
  apart : ∀ entry ∈ later, ∀ r, entry.2.result? = some r → r ∉ w.queued

theorem over_of_phase (course : Course c w) {opening later : Trace} (waiting : w.waiting = [])
    (opens : Opening c w.queued opening) (nested : Nested c w.duties later)
    (runs : w.runs = opening ++ later) : Over c w opening later := by
  refine ⟨waiting, opens, nested, runs, ?_⟩
  intro entry member r same queued
  have started : w.started = w.queued ++ Trace.results Mark.started? later := by
    have split : Trace.results Mark.started? w.runs = w.started := Trace.started_runs w.trace
    rw [← split, runs, Trace.results_append, started_of_opening opens]
  have distinct : w.started.Nodup := by
    have all := course.distinct
    rw [← course.inTurn] at all
    exact (List.nodup_append.mp all).1
  rw [started] at distinct
  exact (List.nodup_append.mp distinct).2.2 r queued r (started_of_nested nested member same) rfl

theorem mem_runs {entry : ThreadId × Mark} (member : entry ∈ w.trace)
    (other : entry.2.queued? = none) : entry ∈ w.runs :=
  List.mem_filter.mpr ⟨member, by simp [other]⟩

theorem Over.ran_later {opening later : Trace} (closed : Over c w opening later) (rs : List CellId)
    (known : ∀ r ∈ rs, r ∈ w.queued) : Trace.ran rs later = [] := by
  apply Trace.ran_eq_nil
  intro entry member r run listed
  have same : entry.2.result? = some r := by
    revert run
    cases entry.2 <;> simp [Mark.run?, Mark.result?]
  exact closed.apart entry member r same (known r listed)

theorem Over.ran_queued {opening later : Trace} (closed : Over c w opening later) (rs : List CellId)
    (known : ∀ r ∈ rs, r ∈ w.queued) : w.trace.ran rs = opening.ran rs := by
  have runs : w.trace.runs = opening ++ later := closed.runs
  rw [← Trace.ran_runs, runs, Trace.ran_append, closed.ran_later rs known, List.append_nil]

theorem Over.decided_opening {opening later : Trace} (closed : Over c w opening later) {u : ThreadId}
    (recorded : (u, .decided c) ∈ w.trace) : (u, Mark.decided c) ∈ opening := by
  have run := mem_runs recorded rfl
  rw [closed.runs] at run
  rcases List.mem_append.mp run with first | last
  · exact first
  · obtain ⟨r, none⟩ := result_of_nested closed.nested _ last
    cases none

theorem Over.not_deciding {opening later : Trace} (closed : Over c w opening later) (u : ThreadId) :
    ¬ w.Deciding c u := by
  rintro (announces | dispatches)
  · obtain ⟨r, same⟩ := closed.nested.inline announces
    cases same
  · obtain ⟨r, same⟩ := closed.nested.inline dispatches
    cases same

/-- How far the continuations are that were queued: `t` has run those of `done` in turn, and is running
`running`. -/
structure Dispatched (c : CellId) (w : View) (t : ThreadId) (done : List CellId)
    (running : Option CellId) : Prop where
  queued : w.queued = done ++ running.toList ++ w.waiting
  ran : w.trace.ran w.queued =
    done.flatMap (turn t c) ++ running.toList.map fun r => (t, .started c r)
  decided : done ++ running.toList ≠ [] → (t, .decided c) ∈ w.trace
  alone : ∀ u, (u, .decided c) ∈ w.trace ∨ w.Deciding c u → u = t
  inside : ∀ r ∈ running, .queued c r ∈ w.duties t ∧ .dispatch c ∈ w.duties t
  returns : w.decided = true → done = w.queued ∨ w.Deciding c t

theorem filter_known {rs all : List CellId} (known : ∀ r ∈ rs, r ∈ all) :
    rs.filter (all.contains ·) = rs := by
  rw [List.filter_eq_self]
  intro r member
  simpa using known r member

theorem mem_only {t u : ThreadId} {ds : List Duty} {duty : Duty} (member : duty ∈ only t ds u) :
    u = t ∧ duty ∈ ds := by
  unfold only at member
  rw [Function.update_apply] at member
  split at member
  next same => exact ⟨same, member⟩
  next => cases member

/-- How the runs of a dispatch that is not over yet are recorded. -/
def Begun (c : CellId) (t : ThreadId) (done : List CellId) (running : Option CellId)
    (runs : Trace) : Prop :=
  (runs = [] ∧ done ++ running.toList = []) ∨
    runs = (t, .decided c) :: (done.flatMap (turn t c) ++ running.toList.map fun r => (t, .started c r))

theorem decider_of_begun {t u : ThreadId} {done : List CellId} {running : Option CellId}
    {runs : Trace} (begun : Begun c t done running runs) (member : (u, .decided c) ∈ runs) : u = t := by
  rcases begun with ⟨rfl, -⟩ | rfl
  · cases member
  · rcases List.mem_cons.mp member with same | ran
    · cases same
      rfl
    · rcases List.mem_append.mp ran with turned | started
      · obtain ⟨r, -, here⟩ := List.mem_flatMap.mp turned
        simp [turn] at here
      · simp at started

/-- While one thread has something to do with the cell, the dispatch is its own. -/
theorem dispatched_of_only {t : ThreadId} {ds : List Duty} {done : List CellId}
    {running : Option CellId} (duties : w.duties = only t ds)
    (queued : w.queued = done ++ running.toList ++ w.waiting) (begun : Begun c t done running w.runs)
    (inside : ∀ r ∈ running, .queued c r ∈ ds ∧ .dispatch c ∈ ds)
    (deciding : .announce c ∈ ds ∨ .dispatch c ∈ ds) : Dispatched c w t done running := by
  have here : w.duties t = ds := by rw [duties, only_self]
  refine ⟨queued, ?_, ?_, ?_, ?_, ?_⟩
  · have all : ∀ r ∈ done ++ running.toList, r ∈ w.queued := by
      rw [queued]
      exact fun r member => List.mem_append_left _ member
    have first : done.filter (w.queued.contains ·) = done :=
      filter_known fun r member => all r (List.mem_append_left _ member)
    rw [← Trace.ran_runs]
    rcases begun with ⟨none, nothing⟩ | begun
    · have runs : w.trace.runs = [] := none
      obtain ⟨rfl, last⟩ := List.append_eq_nil_iff.mp nothing
      rw [runs, last]
      rfl
    · have runs : w.trace.runs = _ := begun
      have opened (rest : Trace) : Trace.ran w.queued ((t, .decided c) :: rest) =
        Trace.ran w.queued rest := rfl
      rw [runs, opened, Trace.ran_append, Trace.ran_turns, first]
      congr 1
      rw [Trace.ran, List.filter_eq_self]
      intro entry member
      obtain ⟨r, listed, rfl⟩ := List.mem_map.mp member
      simpa [Mark.run?] using all r (List.mem_append_right _ listed)
  · intro some
    rcases begun with ⟨-, nothing⟩ | begun
    · exact absurd nothing some
    · have recorded : (t, Mark.decided c) ∈ w.runs := by
        rw [begun]
        exact List.mem_cons_self ..
      exact (List.mem_filter.mp recorded).1
  · rintro u (recorded | announces | dispatches)
    · exact decider_of_begun begun (mem_runs recorded rfl)
    · rw [duties] at announces
      exact (mem_only announces).1
    · rw [duties] at dispatches
      exact (mem_only dispatches).1
  · rw [here]
    exact inside
  · intro _
    rw [View.Deciding, here]
    exact Or.inr deciding

theorem dispatched_of_pending (undecided : w.decided = false) (duties : w.duties = fun _ => [])
    (queued : w.queued = w.waiting) (runs : w.runs = []) : Dispatched c w 0 [] none := by
  refine ⟨queued, ?_, fun some => absurd rfl some, ?_, (fun _ none => by cases none), ?_⟩
  · have runs : w.trace.runs = [] := runs
    rw [← Trace.ran_runs, runs]
    rfl
  · rintro u (recorded | announces | dispatches)
    · have recorded := mem_runs recorded rfl
      rw [runs] at recorded
      cases recorded
    · rw [duties] at announces
      cases announces
    · rw [duties] at dispatches
      cases dispatches
  · intro decided
    cases undecided.symm.trans decided

theorem dispatched_of_over {opening later : Trace} (closed : Over c w opening later) :
    ∃ t, Dispatched c w t w.queued none := by
  have ran := closed.ran_queued w.queued fun _ member => member
  have queued : w.queued = w.queued ++ [] ++ w.waiting := by simp [closed.waiting]
  rcases closed.opens with ⟨none, rfl⟩ | ⟨t, rfl⟩
  · refine ⟨0, queued, ?_, ?_, ?_, (fun _ none => by cases none), fun _ => Or.inl rfl⟩
    · rw [ran, none]
      rfl
    · exact fun some => absurd (by simp [none]) some
    · rintro u (recorded | deciding)
      · cases closed.decided_opening recorded
      · exact absurd deciding (closed.not_deciding u)
  · have begun : Begun c t w.queued none ((t, .decided c) :: w.queued.flatMap (turn t c)) :=
      Or.inr (by simp)
    refine ⟨t, queued, ?_, ?_, ?_, (fun _ none => by cases none), fun _ => Or.inl rfl⟩
    · have opened : Trace.ran w.queued ((t, .decided c) :: w.queued.flatMap (turn t c)) =
        Trace.ran w.queued (w.queued.flatMap (turn t c)) := rfl
      rw [ran, opened, Trace.ran_turns, filter_known fun _ member => member]
      exact (List.append_nil _).symm
    · intro _
      have recorded : (t, Mark.decided c) ∈ w.runs := by
        rw [closed.runs]
        exact List.mem_append_left _ (List.mem_cons_self ..)
      exact (List.mem_filter.mp recorded).1
    · rintro u (recorded | deciding)
      · exact decider_of_begun begun (closed.decided_opening recorded)
      · exact absurd deciding (closed.not_deciding u)

theorem dispatched_of_course (course : Course c w) :
    ∃ t done running, Dispatched c w t done running := by
  have phase := course.phase
  cases phase with
  | pending undecided _ duties queued runs =>
    exact ⟨0, [], none, dispatched_of_pending undecided duties queued runs⟩
  | announcing t decided busy duties queued runs =>
    exact ⟨t, [], none, dispatched_of_only duties queued (Or.inl ⟨runs, rfl⟩)
      (fun _ none => by cases none) (Or.inl (List.mem_singleton.mpr rfl))⟩
  | dispatching t done decided busy duties queued runs =>
    refine ⟨t, done, none, dispatched_of_only duties ?_ (Or.inr ?_) (fun _ none => by cases none)
      (Or.inr (List.mem_singleton.mpr rfl))⟩
    · simpa using queued
    · simpa using runs
  | running t done r decided busy duties queued runs =>
    refine ⟨t, done, some r, dispatched_of_only duties ?_ (Or.inr ?_) ?_ ?_⟩
    · simpa using queued
    · simpa using runs
    · intro r' same
      cases same
      exact ⟨List.mem_cons_self .., List.mem_cons_of_mem _ (List.mem_cons_self ..)⟩
    · exact Or.inr (List.mem_cons_of_mem _ (List.mem_cons_self ..))
  | closed opening later _ _ waiting opens nested runs =>
    obtain ⟨t, dispatched⟩ := dispatched_of_over (over_of_phase course waiting opens nested runs)
    exact ⟨t, w.queued, none, dispatched⟩

theorem over_of_returned (course : Course c w) (decided : w.decided = true)
    (returned : w.Returned c) : ∃ opening later, Over c w opening later := by
  have deciding {t : ThreadId} {duty : Duty} {ds : List Duty} (duties : w.duties = only t ds)
      (member : duty ∈ ds) : duty ∈ w.duties t := by
    rw [duties, only_self]
    exact member
  cases course.phase with
  | pending undecided => cases undecided.symm.trans decided
  | announcing t _ _ duties =>
    exact absurd (Or.inl (deciding duties (List.mem_singleton.mpr rfl))) (returned t).1
  | dispatching t _ _ _ duties =>
    exact absurd (Or.inr (deciding duties (List.mem_singleton.mpr rfl))) (returned t).1
  | running t _ r _ _ duties =>
    have below : Duty.dispatch c ∈ [.queued c r, .dispatch c] :=
      List.mem_cons_of_mem _ (List.mem_singleton.mpr rfl)
    exact absurd (Or.inr (deciding duties below)) (returned t).1
  | closed opening later _ _ waiting opens nested runs =>
    exact ⟨opening, later, over_of_phase course waiting opens nested runs⟩

theorem Over.started {opening later : Trace} (closed : Over c w opening later) :
    w.started = w.queued ++ Trace.results Mark.started? later := by
  have runs : Trace.results Mark.started? w.runs = w.started := Trace.started_runs w.trace
  rw [← runs, closed.runs, Trace.results_append, started_of_opening closed.opens]

/-- A continuation that was not queued and whose run is over has run once. -/
theorem Over.ran_inlined {opening later : Trace} (closed : Over c w opening later) {r : CellId}
    (started : r ∈ Trace.results Mark.started? later) (idle : ∀ t, .inline c r ∉ w.duties t) :
    ∃ t, w.trace.ran [r] = turn t c r := by
  obtain ⟨entry, member, mark⟩ := List.mem_filterMap.mp started
  have same : entry.2.result? = some r := by
    revert mark
    cases entry.2 <;> simp [Mark.started?, Mark.result?]
  have fresh : r ∉ w.queued := closed.apart entry member r same
  have first : Trace.ran [r] opening = [] := by
    apply Trace.ran_eq_nil
    intro entry member r' run listed
    rw [List.mem_singleton] at listed
    subst listed
    rcases mark_of_opening closed.opens entry member with decided | ⟨q, known, ran⟩
    · rw [decided] at run
      cases run
    · cases run.symm.trans ran
      exact fresh known
  have runs : w.trace.runs = opening ++ later := closed.runs
  have split : w.trace.ran [r] = Trace.ran [r] (later.life r) := by
    rw [← Trace.ran_runs, runs, Trace.ran_append, first, List.nil_append, Trace.ran_life]
  have recorded : entry ∈ later.life r := List.mem_filter.mpr ⟨member, by simpa using same⟩
  have lived := lived_of_nested closed.nested r
  have none (t : ThreadId) : (w.duties t).count (.inline c r) = 0 := List.count_eq_zero.mpr (idle t)
  rw [split]
  simp only [none] at lived
  generalize later.life r = life at recorded lived ⊢
  generalize zero : (fun _ : ThreadId => 0) = counts at lived
  cases lived with
  | unborn => cases recorded
  | inside t =>
    have one := congrFun zero t
    rw [Function.update_self] at one
    cases one
  | past t => exact ⟨t, by simp [Trace.ran, Mark.run?, turn]⟩

theorem ran_of_returned (course : Course c w) (decided : w.decided = true)
    (returned : w.Returned c) : ∀ r ∈ w.registered, ∃ t, w.trace.ran [r] = turn t c r := by
  intro r registered
  obtain ⟨opening, later, closed⟩ := over_of_returned course decided returned
  have all : w.registered = w.queued ++ Trace.results Mark.started? later := by
    rw [← course.inTurn, closed.waiting, List.append_nil, closed.started]
  have distinct := course.distinct
  rw [all] at registered distinct
  rcases List.mem_append.mp registered with queued | started
  · obtain ⟨t, ran⟩ := ran_of_opening closed.opens [r]
    have own : w.queued.filter ([r].contains ·) = [r] := by
      have once := List.count_eq_one_of_mem (List.nodup_append.mp distinct).1 queued
      have same : w.queued.filter ([r].contains ·) = w.queued.filter (· = r) :=
        List.filter_congr fun q _ => by simp
      rw [same, List.filter_eq, once]
      rfl
    refine ⟨t, ?_⟩
    rw [closed.ran_queued [r] (by simpa using queued), ran, own]
    rfl
  · exact closed.ran_inlined started fun t => (returned t).2 r

theorem over_of_inlined (course : Course c w) {t : ThreadId} {b r : CellId}
    (inlined : (t, .inlined b r) ∈ w.trace) :
    ∃ opening later, Over c w opening later ∧ (t, .inlined b r) ∈ later := by
  have run : (t, Mark.inlined b r) ∈ w.runs := mem_runs inlined rfl
  have begun (u : ThreadId) (done : List CellId) (running : Option CellId) :
      ¬ Begun c u done running w.runs := by
    rintro (⟨none, -⟩ | runs)
    · rw [none] at run
      cases run
    · rw [runs] at run
      simp [turn] at run
  cases course.phase with
  | pending _ _ _ _ runs => exact absurd (Or.inl ⟨runs, rfl⟩) (begun t [] none)
  | announcing u _ _ _ _ runs => exact absurd (Or.inl ⟨runs, rfl⟩) (begun u [] none)
  | dispatching u done _ _ _ _ runs =>
    exact absurd (Or.inr (by simpa using runs)) (begun u done none)
  | running u done q _ _ _ _ runs =>
    exact absurd (Or.inr (by simpa using runs)) (begun u done (some q))
  | closed opening later _ _ waiting opens nested runs =>
    have closed := over_of_phase course waiting opens nested runs
    refine ⟨opening, later, closed, ?_⟩
    rw [runs] at run
    rcases List.mem_append.mp run with first | last
    · rcases mark_of_opening opens _ first with decided | ⟨q, -, ran⟩
      · cases decided
      · cases ran
    · exact last

theorem Over.life {opening later : Trace} (closed : Over c w opening later) {r : CellId}
    (fresh : r ∉ w.queued) : w.trace.life r = later.life r := by
  have first : opening.life r = [] := by
    rw [Trace.life, List.filter_eq_nil_iff]
    intro entry member
    rcases mark_of_opening closed.opens entry member with decided | ⟨q, known, ran⟩
    · simp [decided, Mark.result?]
    · have other : q ≠ r := fun same => fresh (same ▸ known)
      revert ran
      cases entry.2 <;> simp_all [Mark.run?, Mark.result?]
  have runs : w.trace.runs = opening ++ later := closed.runs
  rw [← Trace.life_runs fresh, runs, Trace.life_append, first, List.nil_append]

theorem life_of_inlined (course : Course c w) {t : ThreadId} {r : CellId}
    (inlined : (t, .inlined c r) ∈ w.trace) :
    (w.trace.life r = [(t, .inlined c r), (t, .started c r)] ∧ .inline c r ∈ w.duties t) ∨
      w.trace.life r = [(t, .inlined c r), (t, .started c r), (t, .finished c r)] := by
  obtain ⟨opening, later, closed, last⟩ := over_of_inlined course inlined
  rw [closed.life (closed.apart _ last r rfl)]
  have recorded : (t, Mark.inlined c r) ∈ later.life r :=
    List.mem_filter.mpr ⟨last, by simp [Mark.result?]⟩
  have lived := lived_of_nested closed.nested r
  generalize later.life r = life at recorded lived ⊢
  generalize counted : (fun u => (w.duties u).count (.inline c r)) = counts at lived
  cases lived with
  | unborn => cases recorded
  | inside u =>
    have same : t = u := by simpa using recorded
    subst same
    have one := congrFun counted t
    rw [Function.update_self] at one
    refine Or.inl ⟨rfl, List.count_pos_iff.mp ?_⟩
    omega
  | past u =>
    have same : t = u := by simpa using recorded
    subst same
    exact Or.inr rfl

/-- All that was queued has finished before a registration runs its continuation itself. -/
theorem finished_of_inlined (course : Course c w) {t : ThreadId} {r : CellId} {earlier rest : Trace}
    (inlined : w.trace = earlier ++ (t, .inlined c r) :: rest) :
    ∀ q ∈ w.queued, ∃ u, (u, .finished c q) ∈ earlier := by
  intro q queued
  have member : (t, Mark.inlined c r) ∈ w.trace := by
    rw [inlined]
    exact List.mem_append_right _ (List.mem_cons_self ..)
  obtain ⟨opening, later, closed, -⟩ := over_of_inlined course member
  have runs : earlier.runs ++ (t, .inlined c r) :: Trace.runs rest = opening ++ later := by
    rw [← closed.runs, View.runs, inlined, Trace.runs_append]
    rfl
  obtain ⟨u, finished⟩ := finished_of_opening closed.opens q queued
  refine ⟨u, (List.mem_filter.mp (?_ : (u, Mark.finished c q) ∈ earlier.runs)).1⟩
  rcases List.append_eq_append_iff.mp runs with ⟨more, longer, shorter⟩ | ⟨more, longer, shorter⟩
  · cases more with
    | nil =>
      rw [List.append_nil] at longer
      rw [← longer]
      exact finished
    | cons entry more =>
      have first : (t, Mark.inlined c r) ∈ opening := by
        rw [longer, (List.cons.inj shorter).1]
        exact List.mem_append_right _ (List.mem_cons_self ..)
      rcases mark_of_opening closed.opens _ first with decided | ⟨q', -, ran⟩
      · cases decided
      · cases ran
  · rw [longer]
    exact List.mem_append_left _ finished

theorem started_of_runs (runs : w.runs = []) : w.started = [] := by
  have same : Trace.results Mark.started? w.runs = w.started := Trace.started_runs w.trace
  rw [← same, runs]
  rfl

/-- What becomes of the continuations of a cell. -/
structure RunsInOrder (c : CellId) (w : View) : Prop where
  /-- None starts while the cell is undecided. -/
  noneEarly : w.decided = false → w.started = []
  noneTwice : w.started.Nodup
  /-- They start in the order of their registrations. -/
  inOrder : w.started ++ w.waiting = w.registered
  /-- Once all calls have returned, each has run once. -/
  everyOne : w.decided = true → w.Returned c →
    ∀ r ∈ w.registered, ∃ t, w.trace.ran [r] = turn t c r
  /-- Those that are queued run one at a time, inside the decision. -/
  inTurn : ∃ t done running, Dispatched c w t done running
  /-- Any other runs inside its own registration. -/
  ownCall : ∀ t r, (t, .inlined c r) ∈ w.trace →
    (w.trace.life r = [(t, .inlined c r), (t, .started c r)] ∧ .inline c r ∈ w.duties t) ∨
      w.trace.life r = [(t, .inlined c r), (t, .started c r), (t, .finished c r)]
  afterQueued : ∀ t r earlier later, w.trace = earlier ++ (t, .inlined c r) :: later →
    ∀ q ∈ w.queued, ∃ u, (u, .finished c q) ∈ earlier

end Course

section Reachable
variable {V N S : Type} [Inhabited V] {s : State V N S}

theorem runsInOrder_of_reachable (reachable : Reachable s) (c : CellId) :
    RunsInOrder c (s.ledger.view c) ∧ Recorded c s := by
  have course := (orderly_of_reachable reachable).course c
  refine ⟨⟨?_, ?_, course.inTurn, ran_of_returned course, dispatched_of_course course,
    fun t r => life_of_inlined course, fun t r earlier later => finished_of_inlined course⟩,
    recorded_of_reachable reachable c⟩
  · intro undecided
    cases course.phase with
    | pending _ _ _ _ runs => exact (started_of_runs runs)
    | announcing _ decided => cases undecided.symm.trans decided
    | dispatching _ _ decided => cases undecided.symm.trans decided
    | running _ _ _ decided => cases undecided.symm.trans decided
    | closed _ _ decided => cases undecided.symm.trans decided
  · have distinct := course.distinct
    rw [← course.inTurn] at distinct
    exact (List.nodup_append.mp distinct).1

/-- A cell with a continuation that registers another, and a registration after the decision. -/
def nestedRegistrations : Prog Nat Empty Unit :=
  .newCell none fun c =>
    .chain c (.chain c (.ret 7) fun _ => .ret 1) fun _ =>
      .decide c (.complete 5) fun _ => .chain c (.ret 3) fun _ => .ret 0

theorem runsInOrder_nested : ∃ s : State Nat Empty Unit, Reachable s ∧
    (s.ledger.view 0).started = [1, 2, 3] ∧ RunsInOrder 0 (s.ledger.view 0) ∧ Recorded 0 s := by
  let ran := (State.start () nestedRegistrations).run (List.replicate 36 (.step 0))
  have started : ran.map (fun s => (s.ledger.view 0).started) = some [1, 2, 3] := by decide +kernel
  obtain ⟨s, reached, order⟩ := Option.map_eq_some_iff.mp started
  have reachable : Reachable s := ⟨(), nestedRegistrations, _, reached⟩
  exact ⟨s, reachable, order, runsInOrder_of_reachable reachable 0⟩

end Reachable
end Oneshot
