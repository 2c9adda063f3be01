import Mathlib.Logic.Function.Basic
import Oneshot.Proofs.Relays

/-! # Relays and decisions in any order

A plan registers the relays of a line of promises and decides some of the promises by hand.  In whatever
order it does so, the line comes to hold what was given to its promises and what flows on from there
(`plan_runs`). -/
set_option autoImplicit false
namespace Oneshot
open Function (update)
variable {V N S : Type}

inductive RelayStep (V : Type)
  | link (i : Nat)
  | attempt (j : Nat) (a : Attempt V)

namespace RelayStep

def link? : RelayStep V → Option Nat
  | .link i => some i
  | .attempt _ _ => none

def attempt? : RelayStep V → Option (Nat × Attempt V)
  | .link _ => none
  | .attempt j a => some (j, a)

/-- Code that does as planned and goes on with the futures of the relays and what the attempts came to. -/
def code (cell : Nat → CellId) (answer : Bool → V) (k : (Nat → CellId) → List Bool → Prog V N S)
    (relay : Nat → CellId) (answers : List Bool) : List (RelayStep V) → Prog V N S
  | [] => k relay answers
  | .link i :: rest =>
    (Future.mk (cell i)).andThen (relayBody answer ⟨cell (i + 1)⟩) fun r =>
      code cell answer k (update relay i r.cell) answers rest
  | .attempt j a :: rest =>
    (Promise.mk (cell j)).attempt a fun won => code cell answer k relay (answers ++ [won]) rest

def links (plan : List (RelayStep V)) : List Nat := plan.filterMap link?

def attempts (plan : List (RelayStep V)) : List (Nat × Attempt V) := plan.filterMap attempt?

end RelayStep

open RelayStep (links attempts)

namespace Line

def link (x : Line V) (i : Nat) (r : CellId) : Line V := { x with made := update x.made i (some r) }

def give (x : Line V) (j : Nat) (o : Outcome V) : Line V :=
  { x with given := update x.given j (some o) }

/-- Each relay of the plan is a new one, and each promise that it decides is before all that have been
decided by hand. -/
structure Fits (x : Line V) (plan : List (RelayStep V)) : Prop where
  new : (links plan).Nodup
  links : ∀ i ∈ links plan, i < x.last ∧ x.made i = none
  back : (attempts plan).Pairwise fun a b => b.1 < a.1
  attempts : ∀ a ∈ attempts plan, a.1 ≤ x.last ∧ ∀ i, i ≤ a.1 → x.given i = none

structure Becomes (x : Line V) (relay : Nat → CellId) (plan : List (RelayStep V)) (x' : Line V)
    (relay' : Nat → CellId) : Prop where
  same : x'.last = x.last ∧ x'.cell = x.cell ∧ x'.answer = x.answer
  linked : ∀ i ∈ links plan, x'.made i = some (relay' i)
  unlinked : ∀ i, i ∉ links plan → x'.made i = x.made i ∧ relay' i = relay i
  given : ∀ a ∈ attempts plan, ∃ id, x'.given a.1 = some (a.2.outcome id)
  ungiven : ∀ j, (∀ a ∈ attempts plan, a.1 ≠ j) → x'.given j = x.given j

variable {x x' : Line V} {s s' : State V N S} {i j : Nat} {r : CellId} {o : Outcome V}
  {H : Nat → Option (Outcome V)} {relay relay' : Nat → CellId} {rest : List (RelayStep V)}

theorem made_link (x : Line V) (i k : Nat) (r : CellId) :
    (x.link i r).made k = if k = i then some r else x.made k := by
  simp only [link, Function.update_apply]

theorem given_give (x : Line V) (j k : Nat) (o : Outcome V) :
    (x.give j o).given k = if k = j then some o else x.given k := by
  simp only [give, Function.update_apply]

theorem queue_link {k : Nat} (other : k ≠ i) :
    ((x.link i r).queue k : List (Task V N S)) = x.queue k := by
  simp only [queue, made_link, if_neg other]
  rfl

theorem brings_link {k : Nat} (other : k ≠ i) (o : Option (Outcome V)) :
    (x.link i r).brings k o = x.brings k o := by
  simp only [brings, made_link, if_neg other]

/-- What is behind `j` is not concerned with a relay before `j`. -/
theorem Lies.link (lies : x.Lies s j H) (before : i < j) : (x.link i r).Lies s j H where
  cells k after inside := by
    rw [queue_link (by omega)]
    exact lies.cells k after inside
  relays k r' after inside made := by
    rw [made_link, if_neg (by omega)] at made
    exact lies.relays k r' after inside made

/-- Nor with what was given to `j`. -/
theorem Lies.give (lies : x.Lies s j H) : (x.give j o).Lies s j H where
  cells := lies.cells
  relays k r after inside made := by
    have told := lies.relays k r after inside made
    cases holds : H k with
    | none =>
      rw [holds] at told
      exact told
    | some o =>
      rw [holds] at told
      obtain ⟨o', closed, tells⟩ := told
      refine ⟨o', closed, ?_⟩
      rw [given_give, if_neg (by omega)]
      exact tells

theorem Lies.of_front
    (front : ∀ i, i < j → i ≤ x.last → Stands s (x.cell i) (x.queue i) (H i))
    (told : ∀ i r, i < j → i < x.last → x.made i = some r → x.Told s i r (H i))
    (behind : x.Lies s j H) : x.Lies s 0 H where
  cells i _ inside := by
    rcases Nat.lt_or_ge i j with before | after
    · exact front i before inside
    · exact behind.cells i after inside
  relays i r _ inside made := by
    rcases Nat.lt_or_ge i j with before | after
    · exact told i r before inside made
    · exact behind.relays i r after inside made

theorem Proper.link (proper : x.Proper) (inside : i < x.last) (fresh : ∀ c, x.Foot 0 c → c ≠ r) :
    (x.link i r).Proper where
  ends k after := by
    have after : x.last ≤ k := after
    rw [made_link, if_neg (by omega)]
    exact proper.ends k after
  cells := proper.cells
  made k j r' inside' place made := by
    rw [made_link] at made
    split at made
    next =>
      cases made
      exact (fresh _ (Or.inl ⟨j, Nat.zero_le j, place, rfl⟩)).symm
    next => exact proper.made k j r' inside' place made
  relays k l r' inside' inside'' made made' := by
    rw [made_link] at made made'
    split at made <;> split at made'
    · omega
    · cases made
      exact absurd rfl (fresh r (Or.inr ⟨l, Nat.zero_le l, inside'', made'⟩))
    · cases made'
      exact absurd rfl (fresh r (Or.inr ⟨k, Nat.zero_le k, inside', made⟩))
    · exact proper.relays k l r' inside' inside'' made made'

theorem Proper.give (proper : x.Proper) : (x.give j o).Proper :=
  ⟨proper.ends, proper.cells, proper.made, proper.relays⟩

theorem held_link {k : Nat} (before : k ≤ i) : (x.link i r).held k = x.held k := by
  induction k with
  | zero => rfl
  | succ k ih =>
    rw [held, held, brings_link (by omega), ih (by omega)]
    rfl

theorem Lies.link_of_behind {s₁ : State V N S} (proper : (x.link i r).Proper)
    (lies : x.Lies s 0 x.held) (holds : x.held i = some o) (told : (x.link i r).Told s₁ i r (some o))
    (behind : (x.link i r).Lies s₁ (i + 1) (x.link i r).held)
    (kept : ∀ c, x.Foot 0 c → ¬ (x.link i r).Foot (i + 1) c → s₁.cells[c]? = s.cells[c]?) :
    (x.link i r).Lies s₁ 0 (x.link i r).held := by
  refine .of_front (j := i + 1) (fun k before inside => ?_) (fun k r' before inside made => ?_) behind
  · have inside : k ≤ x.last := inside
    rw [held_link (by omega)]
    have stands := (lies.cells k (Nat.zero_le k) inside).of_cell
      (kept _ (Or.inl ⟨k, Nat.zero_le k, inside, rfl⟩) (proper.cell_aside inside before))
    by_cases here : k = i
    · subst here
      rw [holds] at stands ⊢
      exact stands
    · rw [queue_link here]
      exact stands
  · have inside : k < x.last := inside
    have aside := proper.relay_aside inside made before
    rw [held_link (by omega)]
    rw [made_link] at made
    split at made
    next here =>
      cases made
      rw [here, holds]
      exact told
    next =>
      have foot : x.Foot 0 r' := Or.inr ⟨k, Nat.zero_le k, inside, made⟩
      exact (lies.relays k r' (Nat.zero_le k) inside made).of_cell (kept r' foot aside)

theorem flows_link (x : Line V) (i : Nat) (r : CellId) : (x.link i r).Flows (i + 1) x.held := by
  intro k after
  rw [brings_link (by omega)]
  rfl

theorem held_link_none (none : x.held i = none) : (x.link i r).held = x.held := by
  funext k
  induction k with
  | zero => rfl
  | succ k ih =>
    rw [held, held, ih]
    by_cases same : k = i
    · subst same
      rw [none]
      simp only [brings, Option.bind_none]
      cases (x.link k r).made k <;> cases x.made k <;> rfl
    · rw [brings_link same]
      rfl

/-- With nothing given up to `i`, nothing comes to `i`. -/
theorem held_none (clear : ∀ k, k ≤ i → x.given k = none) : x.held i = none := by
  induction i with
  | zero => exact clear 0 (Nat.le_refl 0)
  | succ i ih =>
    rw [held, clear (i + 1) (Nat.le_refl _), ih fun k before => clear k (by omega), brings]
    cases x.made i <;> rfl

theorem held_give {k : Nat} (before : k < j) : (x.give j o).held k = x.held k := by
  induction k with
  | zero =>
    rw [held, held, given_give, if_neg (by omega)]
  | succ k ih =>
    rw [held, held, given_give, if_neg (by omega), ih (by omega)]
    rfl

theorem held_give_self (x : Line V) (j : Nat) (o : Outcome V) : (x.give j o).held j = some o := by
  cases j with
  | zero => rw [held, given_give, if_pos rfl]
  | succ j => rw [held, given_give, if_pos rfl, Option.some_or]

theorem flows_give (x : Line V) (j : Nat) (o : Outcome V) : (x.give j o).Flows j x.held := by
  intro k after
  rw [given_give, if_neg (by omega)]
  rfl

theorem held_of_given (given : x.given i = some o) : x.held i = some o := by
  cases i with
  | zero => exact given
  | succ i => rw [held, given, Option.some_or]

theorem held_carries {v : V} (all : ∀ k, k < x.last → ∃ r, x.made k = some r)
    (holds : x.held i = some (.value v)) (clear : ∀ k, i < k → k ≤ j → x.given k = none)
    (after : i ≤ j) (inside : j ≤ x.last) : x.held j = some (.value v) := by
  induction j, after using Nat.le_induction with
  | base => exact holds
  | succ j after ih =>
    have here := ih (fun k later before => clear k later (by omega)) (by omega)
    obtain ⟨r, made⟩ := all j (by omega)
    rw [held, clear (j + 1) (by omega) (Nat.le_refl _), here, brings, made]
    rfl

theorem held_stops (holds : x.held i = some o) (stays : o.onward = none)
    (clear : ∀ k, i < k → k ≤ j → x.given k = none) (after : i < j) : x.held j = none := by
  induction j, after using Nat.le_induction with
  | base =>
    rw [held, clear (i + 1) (by omega) (Nat.le_refl _), holds, brings]
    cases x.made i with
    | none => rfl
    | some r => exact stays
  | succ j after ih =>
    have none := ih fun k later before => clear k later (by omega)
    rw [held, clear (j + 1) (by omega) (Nat.le_refl _), none, brings]
    cases x.made j <;> rfl

theorem Fits.of_link (fits : x.Fits (.link i :: rest)) (r : CellId) : (x.link i r).Fits rest where
  new := (List.nodup_cons.mp fits.new).2
  links k member := by
    have other : k ≠ i := fun same => (List.nodup_cons.mp fits.new).1 (same ▸ member)
    rw [made_link, if_neg other]
    exact fits.links k (List.mem_cons_of_mem i member)
  back := fits.back
  attempts := fits.attempts

theorem Fits.of_attempt {a : Attempt V} (fits : x.Fits (.attempt j a :: rest)) (o : Outcome V) :
    (x.give j o).Fits rest where
  new := fits.new
  links := fits.links
  back := (List.pairwise_cons.mp fits.back).2
  attempts b member := by
    obtain ⟨inside, clear⟩ := fits.attempts b (List.mem_cons_of_mem _ member)
    have before : b.1 < j := (List.pairwise_cons.mp fits.back).1 b member
    refine ⟨inside, fun k first => ?_⟩
    rw [given_give, if_neg (by omega)]
    exact clear k first

theorem Becomes.of_link (fits : x.Fits (.link i :: rest))
    (becomes : (x.link i r).Becomes (update relay i r) rest x' relay') :
    x.Becomes relay (.link i :: rest) x' relay' where
  same := becomes.same
  linked k member := by
    rcases List.mem_cons.mp member with rfl | later
    · obtain ⟨made, name⟩ := becomes.unlinked k (List.nodup_cons.mp fits.new).1
      rw [made, name, made_link, if_pos rfl, Function.update_self]
    · exact becomes.linked k later
  unlinked k absent := by
    have other : k ≠ i := fun same => absent (same ▸ List.mem_cons_self)
    have later : k ∉ links rest := fun member => absent (List.mem_cons_of_mem i member)
    obtain ⟨made, name⟩ := becomes.unlinked k later
    rw [made, name, made_link, if_neg other, Function.update_of_ne other]
    exact ⟨rfl, rfl⟩
  given := becomes.given
  ungiven := becomes.ungiven

theorem Becomes.of_attempt {a : Attempt V} {id : CauseId} (fits : x.Fits (.attempt j a :: rest))
    (becomes : (x.give j (a.outcome id)).Becomes relay rest x' relay') :
    x.Becomes relay (.attempt j a :: rest) x' relay' where
  same := becomes.same
  linked := becomes.linked
  unlinked := becomes.unlinked
  given b member := by
    rcases List.mem_cons.mp member with rfl | later
    · refine ⟨id, ?_⟩
      rw [becomes.ungiven j, given_give, if_pos rfl]
      intro b later
      exact Nat.ne_of_lt ((List.pairwise_cons.mp fits.back).1 b later)
    · exact becomes.given b later
  ungiven k absent := by
    obtain ⟨first, later⟩ := List.forall_mem_cons.mp absent
    rw [becomes.ungiven k later, given_give, if_neg (Ne.symm first)]

end Line

section Inhabited
variable [Inhabited V] {x : Line V} {s s' : State V N S} {t : ThreadId} {name : Option String}
  {fs : List (Frame V N S)} {i j : Nat}

/-- A relay that is registered before its source is decided waits. -/
theorem link_queues {q : Prog V N S} (proper : x.Proper) (inside : i < x.last) (free : x.made i = none)
    (lies : x.Lies s 0 x.held) (open' : x.held i = none) {p : Prog V N S}
    (found : s.threads[t]? = some ⟨name, .run p, fs⟩)
    (registers : s.next t (.run p) fs =
      some (s.register t (x.cell i) (x.task i s.cells.size) q fs)) :
    ∃ s', Works t (fun _ => True) s s' ∧ s'.threads[t]? = some ⟨name, .run q, fs⟩ ∧
      (x.link i s.cells.size).Lies s' 0 (x.link i s.cells.size).held := by
  have pends := lies.undecided (Nat.zero_le i) (Nat.le_of_lt inside) open'
  rw [Line.queue, free] at pends
  obtain ⟨event, s', alone, found', pends', new, same⟩ := queues_runs found registers pends
  refine ⟨s', .of_alone alone fun d aside => absurd trivial aside, found', ?_⟩
  have place (k : Nat) (place : k ≤ x.last) : x.cell k ≠ s.cells.size :=
    Nat.ne_of_lt (lies.inside (Or.inl ⟨k, Nat.zero_le k, place, rfl⟩))
  rw [Line.held_link_none open']
  refine ⟨fun k _ place' => ?_, fun k r _ inside' made => ?_⟩
  · by_cases here : k = i
    · subst here
      rw [open', Line.queue, Line.made_link, if_pos rfl]
      exact pends'
    · rw [Line.queue_link here]
      have other : x.cell k ≠ x.cell i := fun alike =>
        here (proper.cells k i place' (Nat.le_of_lt inside) alike)
      exact (lies.cells k (Nat.zero_le k) place').of_cell (same _ other (place k place'))
  · rw [Line.made_link] at made
    split at made
    next here =>
      cases made
      rw [here, open']
      exact new
    next =>
      have known := lies.inside (Or.inr ⟨k, Nat.zero_le k, inside', made⟩)
      have other := proper.made k i r inside' (Nat.le_of_lt inside) made
      exact (lies.relays k r (Nat.zero_le k) inside' made).of_cell
        (same r other (Nat.ne_of_lt known))

/-- A relay that is registered after its source was decided runs at once. -/
theorem link_inlines {q : Prog V N S} {o : Outcome V} (proper : x.Proper) (inside : i < x.last)
    (free : x.made i = none) (promised : x.Promised s) (lies : x.Lies s 0 x.held)
    (holds : x.held i = some o) {p : Prog V N S}
    (found : s.threads[t]? = some ⟨name, .run p, fs⟩)
    (registers : s.next t (.run p) fs =
      some (s.register t (x.cell i) (x.task i s.cells.size) q fs)) :
    ∃ s', Works t (fun _ => True) s s' ∧ s'.threads[t]? = some ⟨name, .run q, fs⟩ ∧
      (x.link i s.cells.size).Lies s' 0 (x.link i s.cells.size).held := by
  let x' := x.link i s.cells.size
  have fresh (c : CellId) (foot : x.Foot 0 c) : c ≠ s.cells.size := Nat.ne_of_lt (lies.inside foot)
  have proper' : x'.Proper := proper.link inside fresh
  have closed := lies.decided (Nat.zero_le i) (Nat.le_of_lt inside) holds
  obtain ⟨events, s₁, alone, found₁, new, same₁⟩ := inlines_runs found registers closed
  have first : Works t (fun _ => True) s s₁ := .of_alone alone fun d aside => absurd trivial aside
  have holds₁ : s₁.outcome? (x.cell i) = some o := by
    obtain ⟨cell, held, decided, -⟩ := closed
    have known := same₁ (x.cell i) (fresh _ (Or.inl ⟨i, Nat.zero_le i, Nat.le_of_lt inside, rfl⟩))
    rw [State.outcome?, known, held]
    exact decided
  have lies₁ : x'.Lies s₁ (i + 1) x.held := by
    refine Line.Lies.link ?_ (Nat.lt_succ_self i)
    exact (lies.mono (Nat.zero_le _)).of_cells fun c foot => same₁ c (fresh c (foot.mono (Nat.zero_le _)))
  have holds' : x'.held i = some o := (Line.held_link (Nat.le_refl i)).trans holds
  have before : x.held (i + 1) = x'.given (i + 1) := by
    rw [Line.held, Line.brings, free, Option.or_none]
    rfl
  have made' : x'.made i = some s.cells.size := by rw [Line.made_link, if_pos rfl]
  have after : x'.held (i + 1) = (x'.given (i + 1)).or o.onward := by
    rw [Line.held, holds', Line.brings, made', Option.bind_some]
  have decides : x'.Decides N S (i + 1) := decision_runs proper' (x.last - (i + 1)) (by
    have : x'.last = x.last := rfl
    omega)
  obtain ⟨s₂, relays, found₂, told, behind⟩ := relay_runs proper' decides inside made' found₁ holds₁ new
    (promised.later first.reaches) lies₁ (Line.flows_link x i s.cells.size)
    (Line.flows_held x' (i + 1)) before after
  obtain ⟨s', resumed, found', cells'⟩ := alone_of_idle found₂ rfl
  have whole := first.trans ((relays.mono fun _ _ => trivial).trans (.of_idle resumed cells'))
  have cell' (c : CellId) : s'.cells[c]? = s₂.cells[c]? := congrArg (·[c]?) cells'
  refine ⟨s', whole, found', lies.link_of_behind proper' holds (told.of_cell (cell' _))
    (behind.of_cells fun c _ => cell' c) fun c foot aside => ?_⟩
  have other := fresh c foot
  rw [cell', relays.cells c fun inner => inner.elim other aside, same₁ c other]

theorem link_runs {k : CellId → Prog V N S} (proper : x.Proper) (inside : i < x.last)
    (free : x.made i = none) (promised : x.Promised s) (lies : x.Lies s 0 x.held)
    (found : s.threads[t]? = some ⟨name, .run (.chain (x.cell i)
      (relayBody x.answer ⟨x.cell (i + 1)⟩ ⟨x.cell i⟩) k), fs⟩) :
    ∃ s', Works t (fun _ => True) s s' ∧
      s'.threads[t]? = some ⟨name, .run (k s.cells.size), fs⟩ ∧
      (x.link i s.cells.size).Lies s' 0 (x.link i s.cells.size).held := by
  cases holds : x.held i with
  | none => exact link_queues proper inside free lies holds found rfl
  | some o => exact link_inlines proper inside free promised lies holds found rfl

theorem attempt_runs {a : Attempt V} {k : Bool → Prog V N S} (proper : x.Proper) (inside : j ≤ x.last)
    (clear : ∀ i, i ≤ j → x.given i = none) (promised : x.Promised s) (lies : x.Lies s 0 x.held)
    (found : s.threads[t]? = some ⟨name, .run (.decide (x.cell j) a k), fs⟩) :
    ∃ s', Works t (fun _ => True) s s' ∧ s'.threads[t]? = some ⟨name, .run (k true), fs⟩ ∧
      (x.give j (a.outcome s.nextCause)).Lies s' 0 (x.give j (a.outcome s.nextCause)).held := by
  let o := a.outcome s.nextCause
  let x' := x.give j o
  have open' (i : Nat) (before : i ≤ j) : x.held i = none :=
    Line.held_none fun k first => clear k (by omega)
  obtain ⟨s₁, asked, found₁, cells₁⟩ := asks_runs found (promised.admits inside a)
  have same₁ (c : CellId) : s₁.cells[c]? = s.cells[c]? := congrArg (·[c]?) cells₁
  have lies₁ : x'.Lies s₁ j x.held :=
    ((lies.mono (Nat.zero_le j)).of_cells fun c _ => same₁ c).give
  have first : Works t (fun _ => True) s s₁ := .of_idle asked cells₁
  have decides : x'.Decides N S j := decision_runs proper.give (x.last - j) (by
    have : x'.last = x.last := rfl
    omega)
  obtain ⟨s', works, found', lies'⟩ := decides s₁ t name fs k o x.held x'.held found₁
    (promised.later first.reaches) lies₁ (Line.flows_give x j o) (Line.flows_held x' j)
    (open' j (Nat.le_refl j)) (Line.held_give_self x j o)
  refine ⟨s', first.trans (works.mono fun _ _ => trivial), found', .of_front (j := j) ?_ ?_ lies'⟩
  · intro i before inside'
    have inside' : i ≤ x.last := inside'
    rw [Line.held_give before]
    have aside : ¬ x'.Foot j (x.cell i) := proper.give.cell_aside inside' before
    exact (lies.cells i (Nat.zero_le i) inside').of_cell ((works.cells _ aside).trans (same₁ _))
  · intro i r before inside' made
    have inside' : i < x.last := inside'
    have told := lies.relays i r (Nat.zero_le i) inside' made
    rw [Line.held_give before, open' i (Nat.le_of_lt before)]
    rw [open' i (Nat.le_of_lt before)] at told
    have aside : ¬ x'.Foot j r := proper.give.relay_aside inside' made before
    exact Line.Told.of_cell told ((works.cells r aside).trans (same₁ r))

/-- A plan takes the line from one state in which nothing is on its way to another. -/
theorem plan_runs {plan : List (RelayStep V)} {k : (Nat → CellId) → List Bool → Prog V N S}
    {relay : Nat → CellId} {answers : List Bool} (fits : x.Fits plan) (proper : x.Proper)
    (promised : x.Promised s) (lies : x.Lies s 0 x.held)
    (found : s.threads[t]? =
      some ⟨name, .run (RelayStep.code x.cell x.answer k relay answers plan), fs⟩) :
    ∃ s' x' relay', Works t (fun _ => True) s s' ∧
      s'.threads[t]? = some ⟨name, .run (k relay' (answers ++ (attempts plan).map fun _ => true)), fs⟩ ∧
      x'.Lies s' 0 x'.held ∧ x.Becomes relay plan x' relay' := by
  induction plan generalizing x s relay answers with
  | nil =>
    refine ⟨s, x, relay, .refl t _ s, ?_, lies, ⟨rfl, rfl, rfl⟩, ?_, ?_, ?_, ?_⟩
    · have none : answers ++ (attempts ([] : List (RelayStep V))).map (fun _ => true) = answers :=
        List.append_nil answers
      rw [none]
      exact found
    · exact fun i member => by cases member
    · exact fun i _ => ⟨rfl, rfl⟩
    · exact fun a member => by cases member
    · exact fun j _ => rfl
  | cons step rest ih =>
    cases step with
    | link i =>
      obtain ⟨inside, free⟩ := fits.links i List.mem_cons_self
      obtain ⟨s₁, linked, found₁, lies₁⟩ := link_runs proper inside free promised lies found
      have fresh (c : CellId) (foot : x.Foot 0 c) : c ≠ s.cells.size := Nat.ne_of_lt (lies.inside foot)
      obtain ⟨s', x', relay', works, found', lies', becomes⟩ := ih (fits.of_link _)
        (proper.link inside fresh) (promised.later linked.reaches) lies₁ found₁
      exact ⟨s', x', relay', linked.trans works, found', lies', .of_link fits becomes⟩
    | attempt j a =>
      obtain ⟨inside, clear⟩ := fits.attempts (j, a) List.mem_cons_self
      obtain ⟨s₁, decided, found₁, lies₁⟩ := attempt_runs proper inside clear promised lies found
      obtain ⟨s', x', relay', works, found', lies', becomes⟩ := ih (fits.of_attempt _) proper.give
        (promised.later decided.reaches) lies₁ found₁
      refine ⟨s', x', relay', decided.trans works, ?_, lies', .of_attempt fits becomes⟩
      simpa [attempts, RelayStep.attempt?] using found'

end Inhabited
end Oneshot
