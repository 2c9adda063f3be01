import Mathlib.Logic.Relation
import Oneshot.Proofs.Bridges
import Oneshot.Proofs.Calls

/-! # Descent of cells

The history says from which cell a cell was derived: by a registration, of a continuation or of a
bridge (`child_iff_made`).  A derived cell is younger than its source, and a cell that descends from a
decided one is decided when nothing is going on (`decided_of_below`). -/
set_option autoImplicit false
namespace Oneshot
variable {V N S : Type}

namespace State

/-- The history says that `r` is the cell of a continuation that was registered on `c`. -/
def Child (s : State V N S) (c r : CellId) : Prop := r ∈ (s.ledger.view c).registered

def Below (s : State V N S) : CellId → CellId → Prop := Relation.ReflTransGen s.Child

end State

def Records (marks : List (ThreadId × Mark)) (c r : CellId) : Prop :=
  ∃ entry ∈ marks, entry.2 = .queued c r ∨ entry.2 = .inlined c r

theorem records_cons {entry : ThreadId × Mark} {marks : List (ThreadId × Mark)} {c r : CellId}
    (recorded : Records (entry :: marks) c r) :
    (entry.2 = .queued c r ∨ entry.2 = .inlined c r) ∨ Records marks c r := by
  obtain ⟨entry', member, same⟩ := recorded
  rcases List.mem_cons.mp member with rfl | known
  · exact Or.inl same
  · exact Or.inr ⟨entry', known, same⟩

theorem mem_registered {v : Ledger} {c r : CellId} :
    r ∈ (v.view c).registered ↔ Records v.marks c r := by
  constructor
  · intro member
    obtain ⟨entry, recorded, same⟩ := List.mem_filterMap.mp member
    obtain ⟨known, here⟩ := mem_traceOf.mp recorded
    refine ⟨entry, known, ?_⟩
    cases mark : entry.2 <;> simp_all [Mark.registered?, Mark.cell]
  · rintro ⟨entry, known, same⟩
    refine List.mem_filterMap.mpr ⟨entry, mem_traceOf.mpr ⟨known, ?_⟩, ?_⟩
    · rcases same with queued | inlined
      · rw [queued, Mark.cell]
      · rw [inlined, Mark.cell]
    · rcases same with queued | inlined
      · rw [queued, Mark.registered?]
      · rw [inlined, Mark.registered?]

/-- A posting that says of a new derived cell makes it, as the last one. -/
theorem registered_after {v v' : Ledger} (posts : Posts v v') (orderly : v.Orderly) {c r : CellId}
    (member : r ∈ (v'.view c).registered) :
    r ∈ (v.view c).registered ∨ (c < v.size ∧ r = v.size ∧ v'.size = v.size + 1) := by
  rw [mem_registered] at member ⊢
  cases posts with
  | queues inside _ =>
    rcases records_cons member with (new | new) | known
    · cases new
      exact Or.inr ⟨inside, rfl, rfl⟩
    · cases new
    · exact Or.inl known
  | inlines _ decided _ =>
    rcases records_cons member with (new | new) | before
    · cases new
    · cases new
    rcases records_cons before with (new | new) | known
    · cases new
    · cases new
      exact Or.inr ⟨orderly.tidy.inside_of_decided decided, rfl, rfl⟩
    · exact Or.inl known
  | announces _ _ => exact Or.inl ((records_cons member).resolve_left (by simp))
  | takes _ _ _ => exact Or.inl ((records_cons member).resolve_left (by simp))
  | finishes _ _ _ _ => exact Or.inl ((records_cons member).resolve_left (by simp))
  | _ => exact Or.inl member

theorem child_of_marks {s s' : State V N S} (same : s'.ledger.marks = s.ledger.marks) {c r : CellId}
    (child : s'.Child c r) : s.Child c r := by
  rw [State.Child, mem_registered] at child ⊢
  rwa [← same]

theorem child_of_register {s : State V N S} {t : ThreadId} {b : CellId} {task : Task V N S}
    {p : Prog V N S} {fs : List (Frame V N S)} {n : Next V N S} {c r : CellId}
    (registers : s.register t b task p fs = n) (child : n.state.Child c r) : s.Child c r ∨ b = c := by
  subst registers
  rw [State.Child, mem_registered] at child ⊢
  unfold State.register at child
  split at child
  next => exact Or.inl child
  next =>
    split at child
    next =>
      rcases records_cons child with (new | new) | known
      · cases new
        exact Or.inr rfl
      · cases new
      · exact Or.inl known
    next =>
      have before := (records_cons child).resolve_left (by simp)
      rcases records_cons before with (new | new) | known
      · cases new
      · cases new
        exact Or.inr rfl
      · exact Or.inl known

section Inhabited
variable [Inhabited V] {s s' : State V N S} {t : ThreadId}

/-- On the way to `s` a call at the cell `c` has made the cell `r` for its continuation. -/
def Made (s : State V N S) (c r : CellId) : Prop :=
  ∃ s₀ t name p fs s₁, Reachable s₀ ∧ s₀.threads[t]? = some ⟨name, .run p, fs⟩ ∧
    p.source? = some c ∧ c < s₀.cells.size ∧ r = s₀.cells.size ∧ s₀.move (.step t) = some s₁ ∧
      Reaches s₁ s

theorem child_of_step (reachable : Reachable s) {m : Move} (moved : s.move m = some s') {c r : CellId}
    (child : s'.Child c r) : s.Child c r ∨ ∃ t name p fs, m = .step t ∧
      s.threads[t]? = some ⟨name, .run p, fs⟩ ∧ p.source? = some c ∧ c < s.cells.size ∧
        r = s.cells.size := by
  have posts := posts_of_advance (advance_of_move moved) (sound_of_reachable reachable)
  rcases registered_after posts (orderly_of_reachable reachable) child with
    before | ⟨inside, last, more⟩
  · exact Or.inl before
  have grown : s'.cells.size ≠ s.cells.size := fun same =>
    Nat.succ_ne_self _ (more.symm.trans same)
  rcases step_or_lull moved with ⟨t, rfl⟩ | lull
  · obtain ⟨⟨name, d, fs⟩, n, found, next, rfl⟩ := next_of_step moved
    have size : n.state.cells.size ≠ s.cells.size := grown
    have child : n.state.Child c r := child_of_marks rfl child
    obtain ⟨p, rfl⟩ := (size_of_next next).resolve_left size
    have called {b : CellId} (source : p.source? = some b) (here : s.Child c r ∨ b = c) :
        s.Child c r ∨ ∃ t' name' p' fs', Move.step t = .step t' ∧
          s.threads[t']? = some ⟨name', .run p', fs'⟩ ∧ p'.source? = some c ∧ c < s.cells.size ∧
            r = s.cells.size :=
      here.imp_right fun same : b = c => ⟨t, name, p, fs, rfl, found, same ▸ source, inside, last⟩
    cases p with
    | chain b body k => exact called rfl (child_of_register (Option.some.inj next) child)
    | transform b f k => exact called rfl (child_of_register (Option.some.inj next) child)
    | relay b k =>
      have before (child : (s.addExternal.log t (.bridged b s.externals.size)).Child c r) :
          s.Child c r := child_of_marks rfl child
      exact called rfl ((child_of_register (Option.some.inj next) child).imp_left before)
    | newCell start k =>
      refine Or.inl ?_
      cases start <;> cases next <;> exact child_of_marks rfl child
    | _ =>
      have same := (untouched_of_next next).cells fun touches => touches
      exact absurd (congrArg Array.size same) size
  · have same := congrArg Array.size lull.cores
    simp only [Array.size_map] at same
    exact absurd same grown

theorem child_iff_made (reachable : Reachable s) {c r : CellId} : s.Child c r ↔ Made s c r := by
  constructor
  · obtain ⟨client, p, reached⟩ := reachable
    have all : Reachable s ∧ ∀ c r, s.Child c r → Made s c r := by
      refine reached.induct (P := fun s => Reachable s ∧ ∀ c r, s.Child c r → Made s c r)
        ⟨⟨client, p, .refl _⟩, fun c r child => by cases child⟩ ?_
      rintro s m s' ⟨reachable, made⟩ moved
      refine ⟨reachable_of_reaches reachable (.of_move moved), fun c r child => ?_⟩
      rcases child_of_step reachable moved child with
        before | ⟨t, name, p, fs, rfl, found, source, inside, last⟩
      · obtain ⟨s₀, t, name, p, fs, s₁, past, found, source, inside, last, called, reached⟩ :=
          made c r before
        exact ⟨s₀, t, name, p, fs, s₁, past, found, source, inside, last, called,
          reached.trans (.of_move moved)⟩
      · exact ⟨s, t, name, p, fs, s', reachable, found, source, inside, last, moved, .refl _⟩
    exact all.2 c r
  · rintro ⟨s₀, t, name, p, fs, s₁, past, found, source, inside, rfl, moved, reached⟩
    have since : Reachable s₁ := reachable_of_reaches past (.of_move moved)
    refine registered_of_reaches since reached ?_
    rw [registered_of_step found source inside moved]
    exact List.mem_append_right _ (List.mem_singleton.mpr rfl)

theorem child_younger (reachable : Reachable s) {c r : CellId} (child : s.Child c r) :
    c < r ∧ r < s.cells.size := by
  obtain ⟨s₀, t, name, p, fs, s₁, past, found, source, inside, rfl, moved, reached⟩ :=
    (child_iff_made reachable).mp child
  obtain ⟨entry, known, recorded⟩ := mem_registered.mp child
  refine ⟨inside, (orderly_of_reachable reachable).tidy.marks entry known _ ?_⟩
  rcases recorded with queued | inlined
  · rw [queued, Mark.result?]
  · rw [inlined, Mark.result?]

theorem below_le (reachable : Reachable s) {c d : CellId} (below : s.Below c d) : c ≤ d := by
  induction below with
  | refl => exact Nat.le_refl _
  | tail _ last ih => exact Nat.le_trans ih (Nat.le_of_lt (child_younger reachable last).1)

theorem child_of_queue (reachable : Reachable s) {c : CellId} {task : Task V N S}
    (member : task ∈ s.queueOf c) : s.Child c task.result := by
  have inTurn := ((orderly_of_reachable reachable).course c).inTurn
  have waiting : task.result ∈ (s.ledger.view c).waiting := List.mem_map_of_mem member
  rw [State.Child, ← inTurn]
  exact List.mem_append_right _ waiting

/-- What descends from a decided cell is decided when nothing is going on. -/
theorem decided_of_below (reachable : Reachable s) (quiet : s.Quiet) {c d : CellId}
    (below : s.Below c d) (decided : s.outcome? c ≠ none) : s.outcome? d ≠ none := by
  induction below with
  | refl => exact decided
  | tail _ child ih => exact decided_of_quiet reachable quiet child ih

/-- All continuations of an undecided cell wait in its queue. -/
theorem queue_of_child (reachable : Reachable s) {c r : CellId} (child : s.Child c r)
    (undecided : s.outcome? c = none) : r ∈ (s.queueOf c).map Task.result := by
  have runs := (runsInOrder_of_reachable reachable c).1
  have none := runs.noneEarly (by simp [Ledger.view, State.ledger, undecided])
  have order := runs.inOrder
  rw [none, List.nil_append] at order
  rw [State.Child, ← order] at child
  exact child

end Inhabited
end Oneshot
