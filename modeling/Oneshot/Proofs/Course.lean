import Oneshot.Proofs.Phase

/-! # The course of every cell

A posting turns the view of at most one cell (`view_of_posts`), so in every reachable state every cell
is in one of its phases, its continuations start in the order of their registrations, and none finishes
before its own cell is decided (`orderly_of_reachable`). -/
set_option autoImplicit false
namespace Oneshot
open Function (update)

/-- What a thread is in the middle of that concerns `c`. -/
def about (c : CellId) (ds : List Duty) : List Duty := ds.filter fun duty => duty.cell = c

theorem about_cons (c : CellId) (duty : Duty) (ds : List Duty) :
    about c (duty :: ds) = if duty.cell = c then duty :: about c ds else about c ds := by
  simp [about, List.filter_cons]

theorem about_update (c : CellId) (D : ThreadId → List Duty) (t : ThreadId) (ds : List Duty) :
    (fun u => about c (update D t ds u)) = update (fun u => about c (D u)) t (about c ds) := by
  funext u
  rw [Function.update_apply, Function.update_apply]
  split <;> rfl

/-- The marks of `c`, oldest first, when the latest comes first in `marks`. -/
def traceOf (c : CellId) (marks : List (ThreadId × Mark)) : Trace :=
  (marks.filter fun entry => entry.2.cell = c).reverse

theorem traceOf_cons (c : CellId) (entry : ThreadId × Mark) (marks : List (ThreadId × Mark)) :
    traceOf c (entry :: marks) =
      if entry.2.cell = c then traceOf c marks ++ [entry] else traceOf c marks := by
  by_cases own : entry.2.cell = c <;> simp [traceOf, own]

theorem mem_traceOf {c : CellId} {marks : List (ThreadId × Mark)} {entry : ThreadId × Mark} :
    entry ∈ traceOf c marks ↔ entry ∈ marks ∧ entry.2.cell = c := by
  simp [traceOf]

namespace Ledger

def view (v : Ledger) (c : CellId) : View where
  decided := v.decided c
  waiting := v.queue c
  dispatches := v.dispatches c
  duties t := about c (v.duties t)
  trace := traceOf c v.marks

/-- Nothing is said of cells that are not there. -/
structure Tidy (v : Ledger) : Prop where
  outside : ∀ c, v.size ≤ c → v.view c = .blank
  marks : ∀ entry ∈ v.marks, ∀ r, entry.2.result? = some r → r < v.size
  queues : ∀ c, ∀ r ∈ v.queue c, r < v.size

namespace Tidy
variable {v : Ledger}

theorem new (tidy : v.Tidy) (c : CellId) : (v.view c).New v.size := by
  intro entry member same
  exact Nat.lt_irrefl _ (tidy.marks entry (mem_traceOf.mp member).1 _ same)

theorem inside_of_decided (tidy : v.Tidy) {c : CellId} (decided : v.decided c = true) : c < v.size := by
  refine Nat.lt_of_not_le fun outside => ?_
  have blank := congrArg View.decided (tidy.outside c outside)
  cases decided.symm.trans blank

theorem inside_of_duty (tidy : v.Tidy) {t : ThreadId} {duty : Duty} {ds : List Duty}
    (top : v.duties t = duty :: ds) : duty.cell < v.size := by
  refine Nat.lt_of_not_le fun outside => ?_
  have blank := congrFun (congrArg View.duties (tidy.outside duty.cell outside)) t
  simp only [view, top, about_cons, if_true] at blank
  cases blank

end Tidy

theorem duties_view_of_top {v : Ledger} {t : ThreadId} {duty : Duty} {ds : List Duty}
    (top : v.duties t = duty :: ds) :
    (v.view duty.cell).duties t = duty :: about duty.cell ds := by
  simp only [view, top, about_cons, if_true]

theorem about_of_top {v : Ledger} {t : ThreadId} {duty : Duty} {ds : List Duty} {c : CellId}
    (top : v.duties t = duty :: ds) (other : duty.cell ≠ c) :
    about c (v.duties t) = about c ds := by
  simp only [top, about_cons, other, if_false]

/-- What one posting does to the view of one cell: nothing, or one turn. -/
theorem view_of_posts {v v' : Ledger} (posts : Posts v v') (tidy : v.Tidy) (c : CellId) :
    v'.view c = v.view c ∨ (c < v'.size ∧ Turns c (v.view c) (v'.view c)) := by
  cases posts with
  | grows => exact Or.inl rfl
  | readies =>
    by_cases own : c = v.size
    · subst own
      refine Or.inr ⟨Nat.lt_succ_self _, ?_⟩
      have turned : Turns v.size (v.view v.size) { v.view v.size with decided := true } :=
        .readies (tidy.outside _ (Nat.le_refl _))
      simpa only [view, Function.update_self] using turned
    · exact Or.inl (by simp only [view, Function.update_of_ne own])
  | @decides t b member inside undecided =>
    by_cases own : b = c
    · subst own
      refine Or.inr ⟨inside, ?_⟩
      have turned := Turns.decides (c := b) (w := v.view b) (t := t) undecided
      simpa only [view, Function.update_self, about_update, about_cons, Duty.cell, if_true]
        using turned
    · refine Or.inl ?_
      simp only [view, Function.update_of_ne (Ne.symm own), about_update, about_cons, Duty.cell,
        own, if_false, Function.update_eq_self]
  | @announces t b ds member top =>
    by_cases own : b = c
    · subst own
      refine Or.inr ⟨tidy.inside_of_duty top, ?_⟩
      have first : (v.view b).duties t = .announce b :: about b ds := duties_view_of_top top
      simpa only [view, about_update, about_cons, traceOf_cons, Duty.cell, Mark.cell, if_true]
        using Turns.announces first
    · refine Or.inl ?_
      have kept : about c (v.duties t) = about c ds := about_of_top top own
      simp only [view, about_update, about_cons, traceOf_cons, Duty.cell, Mark.cell, own, if_false,
        ← kept, Function.update_eq_self]
  | @queues t b inside waits =>
    by_cases own : b = c
    · subst own
      refine Or.inr ⟨Nat.lt_succ_of_lt inside, ?_⟩
      have turned := Turns.queues (c := b) (w := v.view b) (t := t) waits (tidy.new b)
      simpa only [view, Function.update_self, traceOf_cons, Mark.cell, if_true] using turned
    · refine Or.inl ?_
      simp only [view, Function.update_of_ne (Ne.symm own), traceOf_cons, Mark.cell, own, if_false]
  | @inlines t b member decided free =>
    by_cases own : b = c
    · subst own
      refine Or.inr ⟨Nat.lt_succ_of_lt (tidy.inside_of_decided decided), ?_⟩
      have turned := Turns.inlines (c := b) (w := v.view b) (t := t) decided free (tidy.new b)
      simpa only [view, about_update, about_cons, traceOf_cons, Duty.cell, Mark.cell, if_true,
        List.append_assoc, List.cons_append, List.nil_append] using turned
    · refine Or.inl ?_
      simp only [view, about_update, about_cons, traceOf_cons, Duty.cell, Mark.cell, own, if_false,
        Function.update_eq_self]
  | @takes t b r rest ds member queue top =>
    by_cases own : b = c
    · subst own
      refine Or.inr ⟨tidy.inside_of_duty top, ?_⟩
      have first : (v.view b).duties t = .dispatch b :: about b ds := duties_view_of_top top
      have turned := Turns.takes (w := v.view b) queue first
      simpa only [view, Function.update_self, about_update, about_cons, traceOf_cons, Duty.cell,
        Mark.cell, if_true] using turned
    · refine Or.inl ?_
      have kept : about c (v.duties t) = about c ds := about_of_top top own
      simp only [view, Function.update_of_ne (Ne.symm own), about_update, about_cons, traceOf_cons,
        Duty.cell, Mark.cell, own, if_false, ← kept, Function.update_eq_self]
  | @empties t b ds member queue top =>
    by_cases own : b = c
    · subst own
      refine Or.inr ⟨tidy.inside_of_duty top, ?_⟩
      have first : (v.view b).duties t = .dispatch b :: about b ds := duties_view_of_top top
      have turned := Turns.empties (w := v.view b) queue first
      simpa only [view, Function.update_self, about_update] using turned
    · refine Or.inl ?_
      have kept : about c (v.duties t) = about c ds := about_of_top top own
      simp only [view, Function.update_of_ne (Ne.symm own), about_update, ← kept,
        Function.update_eq_self]
  | @finishes t b r duty ds member which top landed =>
    have cell : duty.cell = b := by rcases which with rfl | rfl <;> rfl
    subst cell
    by_cases own : duty.cell = c
    · subst own
      refine Or.inr ⟨tidy.inside_of_duty top, ?_⟩
      simpa only [view, about_update, traceOf_cons, Mark.cell, if_true]
        using Turns.finishes which (duties_view_of_top top)
    · refine Or.inl ?_
      have kept : about c (v.duties t) = about c ds := about_of_top top own
      simp only [view, about_update, traceOf_cons, Mark.cell, own, if_false, ← kept,
        Function.update_eq_self]

theorem size_of_posts {v v' : Ledger} (posts : Posts v v') : v.size ≤ v'.size := by
  cases posts with
  | grows cells _ => exact cells
  | readies => exact Nat.le_succ _
  | queues _ _ => exact Nat.le_succ _
  | inlines _ _ _ => exact Nat.le_succ _
  | _ => exact Nat.le_refl _

theorem decided_of_posts {v v' : Ledger} (posts : Posts v v') {c : CellId}
    (decided : v.decided c = true) : v'.decided c = true := by
  cases posts with
  | readies =>
    simp only [Function.update_apply, decided]
    split <;> rfl
  | decides =>
    simp only [Function.update_apply, decided]
    split <;> rfl
  | _ => exact decided

theorem marks_of_posts {v v' : Ledger} (posts : Posts v v') {entry : ThreadId × Mark}
    (member : entry ∈ v'.marks) : entry ∈ v.marks ∨ entry.2.result? = none ∨
      (entry.2.result? = some v.size ∧ v.size < v'.size ∧ entry.2.finished? = none) ∨
      (∃ c r, entry.2 = .started c r ∧ r ∈ v.queue c) ∨
      ∃ c r, entry.2 = .finished c r ∧ v.decided r = true := by
  cases posts with
  | announces _ _ =>
    rcases List.mem_cons.mp member with rfl | before
    · exact Or.inr (Or.inl rfl)
    · exact Or.inl before
  | queues _ _ =>
    rcases List.mem_cons.mp member with rfl | before
    · exact Or.inr (Or.inr (Or.inl ⟨rfl, Nat.lt_succ_self _, rfl⟩))
    · exact Or.inl before
  | inlines _ _ _ =>
    rcases List.mem_cons.mp member with rfl | before
    · exact Or.inr (Or.inr (Or.inl ⟨rfl, Nat.lt_succ_self _, rfl⟩))
    · rcases List.mem_cons.mp before with rfl | before
      · exact Or.inr (Or.inr (Or.inl ⟨rfl, Nat.lt_succ_self _, rfl⟩))
      · exact Or.inl before
  | @takes t c r rest ds _ queue _ =>
    rcases List.mem_cons.mp member with rfl | before
    · refine Or.inr (Or.inr (Or.inr (Or.inl ⟨c, r, rfl, ?_⟩)))
      rw [queue]
      exact List.mem_cons_self ..
    · exact Or.inl before
  | @finishes t c r _ _ _ _ _ landed =>
    rcases List.mem_cons.mp member with rfl | before
    · exact Or.inr (Or.inr (Or.inr (Or.inr ⟨c, r, rfl, landed⟩)))
    · exact Or.inl before
  | _ => exact Or.inl member

theorem tidy_of_posts {v v' : Ledger} (posts : Posts v v') (tidy : v.Tidy) : v'.Tidy where
  outside c outside := by
    rcases view_of_posts posts tidy c with same | ⟨inside, _⟩
    · rw [same]
      exact tidy.outside c (Nat.le_trans (size_of_posts posts) outside)
    · exact absurd inside (Nat.not_lt_of_le outside)
  marks entry member r same := by
    have grown := size_of_posts posts
    rcases marks_of_posts posts member with before | none | ⟨new, inside, -⟩ |
      ⟨c, r', started, queued⟩ | ⟨c, r', finished, decided⟩
    · exact Nat.lt_of_lt_of_le (tidy.marks entry before r same) grown
    · cases none.symm.trans same
    · cases new.symm.trans same
      exact inside
    · rw [started] at same
      cases same
      exact Nat.lt_of_lt_of_le (tidy.queues c r queued) grown
    · rw [finished] at same
      cases same
      exact Nat.lt_of_lt_of_le (tidy.inside_of_decided decided) grown
  queues := queue_of_posts posts tidy.queues

/-- Every cell runs its course, and a continuation is finished only when its cell is decided. -/
structure Orderly (v : Ledger) : Prop where
  tidy : v.Tidy
  course : ∀ c, Course c (v.view c)
  landed : ∀ t c r, (t, Mark.finished c r) ∈ v.marks → v.decided r = true

theorem orderly_of_posts {v v' : Ledger} (posts : Posts v v') (orderly : v.Orderly) :
    v'.Orderly where
  tidy := tidy_of_posts posts orderly.tidy
  course c := by
    rcases view_of_posts posts orderly.tidy c with same | ⟨_, turns⟩
    · rw [same]
      exact orderly.course c
    · exact course_of_turns turns (orderly.course c)
  landed t c r member := by
    apply decided_of_posts posts
    rcases marks_of_posts posts member with before | none | ⟨-, -, none⟩ | ⟨c', r', started, -⟩ |
      ⟨c', r', finished, decided⟩
    · exact orderly.landed t c r before
    · cases none
    · cases none
    · cases started
    · cases finished
      exact decided

end Ledger

section Inhabited
variable {V N S : Type} [Inhabited V] {s : State V N S}

omit [Inhabited V] in
theorem orderly_start (client : S) (p : Prog V N S) :
    (State.start (N := N) client p).ledger.Orderly := by
  have idle : (State.start (N := N) client p).duties = fun _ => [] := by
    funext t
    cases t <;> simp [State.duties, State.start, dutiesOf, frameDuties]
  have blank (c : CellId) : (State.start (N := N) client p).ledger.view c = .blank := by
    refine View.ext ?_ ?_ ?_ ?_ rfl
    · simp [Ledger.view, State.ledger, State.outcome?, State.start, View.blank]
    · simp [Ledger.view, State.ledger, State.queueOf, State.start, View.blank]
    · simp [Ledger.view, State.ledger, State.dispatches, State.start, View.blank]
    · simp [Ledger.view, State.ledger, idle, about, View.blank]
  refine ⟨⟨fun c _ => blank c, (fun _ member => by cases member), ?_⟩, ?_,
    (fun _ _ _ member => by cases member)⟩
  · intro c r member
    simp [State.ledger, State.queueOf, State.start] at member
  · intro c
    rw [blank c]
    exact course_blank c

theorem orderly_of_reachable (reachable : Reachable s) : s.ledger.Orderly :=
  ledger_of_reachable reachable orderly_start fun _ _ orderly posts =>
    Ledger.orderly_of_posts posts orderly

theorem phase_of_reachable (reachable : Reachable s) (c : CellId) : Phase c (s.ledger.view c) :=
  ((orderly_of_reachable reachable).course c).phase

end Inhabited
end Oneshot
