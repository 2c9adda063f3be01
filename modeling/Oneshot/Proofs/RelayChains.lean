import Oneshot.Proofs.Calls
import Oneshot.Proofs.RelayPlans

/-! # Chains of relays

A value given to one promise of a line is handed on by the relays behind it, up to a promise that has
been completed before; a failure and a cancellation go no further than the first relay.  When each relay
is registered, before its source is decided or after, makes no difference in the end
(`relays_hand_on`). -/
set_option autoImplicit false
namespace Oneshot
open RelayStep (links attempts)
variable {V N S : Type}

section Inhabited
variable [Inhabited V] {x x' : Line V} {s s' : State V N S} {t : ThreadId} {name : Option String}
  {fs : List (Frame V N S)} {i j : Nat}

def State.Keeps (s : State V N S) (c : CellId) (o : Outcome V) : Prop :=
  ∀ s', Reaches s s' → s'.outcome? c = some o

theorem State.Closed.keeps {c : CellId} {o : Outcome V} (closed : s.Closed c o) : s.Keeps c o := by
  obtain ⟨cell, found, decided, -⟩ := closed
  intro s' reached
  refine (extends_of_reaches reached).keeps ?_
  rw [State.outcome?_of_found found, decided]

omit [Inhabited V] in
theorem State.Pends.pending {c : CellId} {queue : List (Task V N S)} (pends : s.Pends c queue) :
    s.pending c = true := by
  obtain ⟨cell, found, undecided, -⟩ := pends
  simp [State.pending, found, undecided]

namespace Line.Lies

variable {H : Nat → Option (Outcome V)} {r : CellId}

theorem keeps {o : Outcome V} (lies : x.Lies s 0 H) (inside : i ≤ x.last) (holds : H i = some o) :
    s.Keeps (x.cell i) o :=
  (lies.decided (Nat.zero_le i) inside holds).keeps

omit [Inhabited V] in
theorem pending (lies : x.Lies s 0 H) (inside : i ≤ x.last) (none : H i = none) :
    s.pending (x.cell i) = true :=
  (lies.undecided (Nat.zero_le i) inside none).pending

omit [Inhabited V] in
theorem waits (lies : x.Lies s 0 H) (inside : i < x.last) (made : x.made i = some r)
    (none : H i = none) : s.pending r = true :=
  (lies.relay_undecided (Nat.zero_le i) inside made none).pending

theorem answers {v : V} (lies : x.Lies s 0 H) (inside : i < x.last) (made : x.made i = some r)
    (holds : H i = some (.value v)) :
    s.Keeps r (.value (x.answer (x.given (i + 1)).isNone)) := by
  obtain ⟨o', closed, tells⟩ := lies.relay_decided (Nat.zero_le i) inside made holds
  cases tells with
  | value => exact closed.keeps
  | unread read id => cases read

theorem fails {o : Outcome V} {e : ReadError} (lies : x.Lies s 0 H) (inside : i < x.last)
    (made : x.made i = some r) (holds : H i = some o) (read : o.reading = .error e) :
    ∃ id, s.Keeps r (.failed (.mk id (.unread e))) := by
  obtain ⟨o', closed, tells⟩ := lies.relay_decided (Nat.zero_le i) inside made holds
  cases tells with
  | value => cases read
  | unread read' id =>
    cases read.symm.trans read'
    exact ⟨id, closed.keeps⟩

end Line.Lies

/-- What has become of a line of pending promises with all its relays after these attempts, in their
order. -/
structure Relayed (last : Nat) (cell : Nat → CellId) (answer : Bool → V)
    (attempts : List (Nat × Attempt V)) (relay : Nat → CellId) (s : State V N S) : Prop where
  /-- One promise was completed: all behind it have its value, and the relays between them have won. -/
  completed : ∀ j u, attempts = [(j, .complete u)] →
    (∀ i, i < j → s.pending (cell i) = true ∧ s.pending (relay i) = true) ∧
    (∀ i, j ≤ i → i ≤ last → s.Keeps (cell i) (.value u)) ∧
    ∀ i, j ≤ i → i < last → s.Keeps (relay i) (.value (answer true))
  /-- The first promise was completed after a later one: its value comes as far as the relay before that
  one, which has lost. -/
  overtaken : ∀ j u v, 0 < j → attempts = [(j, .complete u), (0, .complete v)] →
    (∀ i, i < j → s.Keeps (cell i) (.value v)) ∧
    (∀ i, j ≤ i → i ≤ last → s.Keeps (cell i) (.value u)) ∧
    s.Keeps (relay (j - 1)) (.value (answer false)) ∧
    ∀ i, i < last → i + 1 ≠ j → s.Keeps (relay i) (.value (answer true))
  /-- One promise was failed or cancelled: its relay fails with the error that reading it gives, and
  nothing else is decided. -/
  broken : ∀ j a, attempts = [(j, a)] → (∀ v, a ≠ .complete v) →
    ∃ id e, (a.outcome id).reading = .error e ∧ s.Keeps (cell j) (a.outcome id) ∧
      (j < last → ∃ id', s.Keeps (relay j) (.failed (.mk id' (.unread e)))) ∧
      (∀ i, i ≤ last → i ≠ j → s.pending (cell i) = true) ∧
      ∀ i, i < last → i ≠ j → s.pending (relay i) = true

variable {last : Nat} {cell relay relay' : Nat → CellId} {answer : Bool → V}
  {plan : List (RelayStep V)}

namespace Line

def pending (last : Nat) (cell : Nat → CellId) (answer : Bool → V) : Line V :=
  ⟨last, cell, answer, fun _ => none, fun _ => none⟩

variable {u v : V}

theorem Lies.completed (lies : x.Lies s 0 x.held) (inside : j ≤ x.last)
    (all : ∀ k, k < x.last → x.made k = some (relay k)) (given : x.given j = some (.value u))
    (clear : ∀ k, k ≠ j → x.given k = none) :
    (∀ i, i < j → s.pending (x.cell i) = true ∧ s.pending (relay i) = true) ∧
      (∀ i, j ≤ i → i ≤ x.last → s.Keeps (x.cell i) (.value u)) ∧
      ∀ i, j ≤ i → i < x.last → s.Keeps (relay i) (.value (x.answer true)) := by
  have none (i : Nat) (before : i < j) : x.held i = none :=
    held_none fun k first => clear k (by omega)
  have some (i : Nat) (after : j ≤ i) (within : i ≤ x.last) : x.held i = some (.value u) :=
    held_carries (fun k before => ⟨_, all k before⟩) (held_of_given given)
      (fun k later _ => clear k (by omega)) after within
  refine ⟨fun i before => ⟨?_, ?_⟩, fun i after within => ?_, fun i after within => ?_⟩
  · exact lies.pending (by omega) (none i before)
  · exact lies.waits (by omega) (all i (by omega)) (none i before)
  · exact lies.keeps within (some i after within)
  · have answers := lies.answers within (all i within) (some i after (by omega))
    rw [clear (i + 1) (by omega)] at answers
    exact answers

theorem Lies.overtaken (lies : x.Lies s 0 x.held) (inside : j ≤ x.last) (later : 0 < j)
    (all : ∀ k, k < x.last → x.made k = some (relay k)) (given : x.given j = some (.value u))
    (first : x.given 0 = some (.value v)) (clear : ∀ k, k ≠ 0 → k ≠ j → x.given k = none) :
    (∀ i, i < j → s.Keeps (x.cell i) (.value v)) ∧
      (∀ i, j ≤ i → i ≤ x.last → s.Keeps (x.cell i) (.value u)) ∧
      s.Keeps (relay (j - 1)) (.value (x.answer false)) ∧
      ∀ i, i < x.last → i + 1 ≠ j → s.Keeps (relay i) (.value (x.answer true)) := by
  have linked (k : Nat) (before : k < x.last) : ∃ r, x.made k = some r := ⟨_, all k before⟩
  have front (i : Nat) (before : i < j) : x.held i = some (.value v) :=
    held_carries linked (held_of_given first) (fun k _ _ => clear k (by omega) (by omega))
      (Nat.zero_le i) (by omega)
  have back (i : Nat) (after : j ≤ i) (within : i ≤ x.last) : x.held i = some (.value u) :=
    held_carries linked (held_of_given given) (fun k _ _ => clear k (by omega) (by omega)) after
      within
  refine ⟨fun i before => lies.keeps (by omega) (front i before),
    fun i after within => lies.keeps within (back i after within), ?_, fun i within other => ?_⟩
  · have answers := lies.answers (by omega) (all (j - 1) (by omega)) (front (j - 1) (by omega))
    rw [Nat.sub_add_cancel later, given] at answers
    exact answers
  · have answers (w : V) (holds : x.held i = some (.value w)) :
        s.Keeps (relay i) (.value (x.answer true)) := by
      have answers := lies.answers within (all i within) holds
      rw [clear (i + 1) (Nat.succ_ne_zero i) other] at answers
      exact answers
    rcases Nat.lt_or_ge i j with before | after
    · exact answers v (front i before)
    · exact answers u (back i after (Nat.le_of_lt within))

theorem Lies.broken {o : Outcome V} {e : ReadError} (lies : x.Lies s 0 x.held) (inside : j ≤ x.last)
    (all : ∀ k, k < x.last → x.made k = some (relay k)) (given : x.given j = some o)
    (read : o.reading = .error e) (clear : ∀ k, k ≠ j → x.given k = none) :
    s.Keeps (x.cell j) o ∧ (j < x.last → ∃ id, s.Keeps (relay j) (.failed (.mk id (.unread e)))) ∧
      (∀ i, i ≤ x.last → i ≠ j → s.pending (x.cell i) = true) ∧
      ∀ i, i < x.last → i ≠ j → s.pending (relay i) = true := by
  have stays : o.onward = none := by
    cases o with
    | value v => cases read
    | _ => rfl
  have none (i : Nat) (other : i ≠ j) : x.held i = none := by
    rcases Nat.lt_or_ge i j with before | after
    · exact held_none fun k first => clear k (by omega)
    · exact held_stops (held_of_given given) stays (fun k later _ => clear k (by omega)) (by omega)
  refine ⟨lies.keeps inside (held_of_given given), fun within => ?_, fun i within other => ?_,
    fun i within other => ?_⟩
  · exact lies.fails within (all j within) (held_of_given given) read
  · exact lies.pending within (none i other)
  · exact lies.waits within (all i within) (none i other)

end Line

omit [Inhabited V] in
theorem Attempt.unread_of_outcome {a : Attempt V} (failing : ∀ v, a ≠ .complete v) (id : CauseId) :
    ∃ e, (a.outcome id).reading = .error e := by
  cases a with
  | complete v => exact absurd rfl (failing v)
  | _ => exact ⟨_, rfl⟩

theorem relayed_of_line (lies : x.Lies s 0 x.held)
    (becomes : (Line.pending last cell answer).Becomes relay plan x relay')
    (linked : ∀ i, i < last → i ∈ links plan) (inside : ∀ a ∈ attempts plan, a.1 ≤ last) :
    Relayed last cell answer (attempts plan) relay' s := by
  obtain ⟨rfl, rfl, rfl⟩ : x.last = last ∧ x.cell = cell ∧ x.answer = answer := becomes.same
  have all (i : Nat) (within : i < x.last) : x.made i = some (relay' i) :=
    becomes.linked i (linked i within)
  have clear {k : Nat} (absent : ∀ a ∈ attempts plan, a.1 ≠ k) : x.given k = none :=
    becomes.ungiven k absent
  refine ⟨fun j u made => ?_, fun j u v later made => ?_, fun j a made failing => ?_⟩
  · have member : (j, .complete u) ∈ attempts plan := by simp [made]
    obtain ⟨id, given⟩ := becomes.given _ member
    exact lies.completed (inside _ member) all given fun k other => clear (by simp [made, Ne.symm other])
  · have member : (j, .complete u) ∈ attempts plan := by simp [made]
    have member' : (0, .complete v) ∈ attempts plan := by simp [made]
    obtain ⟨id, given⟩ := becomes.given _ member
    obtain ⟨id', given'⟩ := becomes.given _ member'
    exact lies.overtaken (inside _ member) later all given given' fun k first other =>
      clear (by simp [made, Ne.symm first, Ne.symm other])
  · have member : (j, a) ∈ attempts plan := by simp [made]
    obtain ⟨id, given⟩ := becomes.given _ member
    obtain ⟨e, read⟩ := Attempt.unread_of_outcome failing id
    exact ⟨id, e, read, lies.broken (inside _ member) all given read fun k other =>
      clear (by simp [made, Ne.symm other])⟩

/-- Promises that are pending, with nothing registered, are linked by relays and completed, failed or
cancelled from the back to the front, in whatever order the relays come in between. -/
theorem relays_hand_on {k : (Nat → CellId) → List Bool → Prog V N S}
    (linked : (links plan).Perm (List.range last))
    (back : (attempts plan).Pairwise fun a b => b.1 < a.1) (inside : ∀ a ∈ attempts plan, a.1 ≤ last)
    (distinct : ∀ i j, i ≤ last → j ≤ last → cell i = cell j → i = j)
    (pends : ∀ i, i ≤ last → s.Pends (cell i) [])
    (promised : ∀ i, i ≤ last → ∃ c, s.cells[cell i]? = some c ∧ c.promised = true)
    (found : s.threads[t]? =
      some ⟨name, .run (RelayStep.code cell answer k relay [] plan), fs⟩) :
    ∃ s' relay', (∃ n, s.run (List.replicate n (.step t)) = some s') ∧
      s'.threads[t]? = some ⟨name, .run (k relay' ((attempts plan).map fun _ => true)), fs⟩ ∧
      Relayed last cell answer (attempts plan) relay' s' := by
  let x := Line.pending last cell answer
  have fits : x.Fits plan :=
    ⟨linked.nodup_iff.mpr List.nodup_range,
      fun i member => ⟨List.mem_range.mp (linked.mem_iff.mp member), rfl⟩, back,
      fun a member => ⟨inside a member, fun _ _ => rfl⟩⟩
  have proper : x.Proper :=
    ⟨fun _ _ => rfl, distinct, (fun _ _ _ _ _ made => by cases made),
      (fun _ _ _ _ _ made => by cases made)⟩
  have lies : x.Lies s 0 x.held := by
    refine ⟨fun i _ within => ?_, fun i r _ _ made => by cases made⟩
    rw [Line.held_none fun _ _ => rfl]
    exact pends i within
  obtain ⟨s', x', relay', works, found', lies', becomes⟩ := plan_runs fits proper promised lies found
  refine ⟨s', relay', works.run, found', relayed_of_line lies' becomes (fun i within => ?_) inside⟩
  exact linked.mem_iff.mpr (List.mem_range.mpr within)

/-- The second of three promises is completed before the first, whose relay comes last. -/
def lateRelay : List (RelayStep Nat) :=
  [.link 1, .attempt 1 (.complete 7), .attempt 0 (.complete 5), .link 0]

def threePromises (plan : List (RelayStep Nat)) : Prog Nat Empty Unit :=
  .newCell none fun _ => .newCell none fun _ => .newCell none fun _ =>
    RelayStep.code (fun i => i) (fun won => if won then 1 else 0) (fun _ _ => .ret 0) (fun _ => 0) [] plan

theorem relays_hand_on_late : ∃ (s s' : State Nat Empty Unit) (relay : Nat → CellId),
    (links lateRelay).Perm (List.range 2) ∧ (attempts lateRelay).Pairwise (fun a b => b.1 < a.1) ∧
    (State.start () (threePromises lateRelay)).run (List.replicate 3 (.step 0)) = some s ∧
    (∃ n, s.run (List.replicate n (.step 0)) = some s') ∧
    (s'.outcome? 0 = some (.value 5) ∧ s'.outcome? 1 = some (.value 7) ∧
      s'.outcome? 2 = some (.value 7)) ∧
    s'.outcome? (relay 0) = some (.value 0) ∧ s'.outcome? (relay 1) = some (.value 1) := by
  have linked : (links lateRelay).Perm (List.range 2) := List.Perm.swap ..
  have tried : attempts lateRelay = [(1, .complete 7), (0, .complete 5)] := rfl
  have back : (attempts lateRelay).Pairwise fun a b => b.1 < a.1 := by simp [tried]
  have inside : ∀ a ∈ attempts lateRelay, a.1 ≤ 2 := by
    rw [tried]
    exact List.forall_mem_cons.mpr ⟨by decide, List.forall_mem_singleton.mpr (by decide)⟩
  obtain ⟨s, ran, pends, promised, found⟩ : ∃ s : State Nat Empty Unit,
      (State.start () (threePromises lateRelay)).run (List.replicate 3 (.step 0)) = some s ∧
      (∀ i, i ≤ 2 → s.Pends i []) ∧ (∀ i, i ≤ 2 → ∃ c, s.cells[i]? = some c ∧ c.promised = true) ∧
      s.threads[0]? = some ⟨some "main", .run (RelayStep.code (fun i => i)
        (fun won => if won then 1 else 0) (fun _ _ => .ret 0) (fun _ => 0) [] lateRelay), []⟩ := by
    refine ⟨_, rfl, fun i within => ?_, fun i within => ?_, rfl⟩
    · match i, within with
      | 0, _ | 1, _ | 2, _ => exact ⟨_, rfl, rfl, rfl, rfl⟩
    · match i, within with
      | 0, _ | 1, _ | 2, _ => exact ⟨_, rfl, rfl⟩
  obtain ⟨s', relay, ends, -, relayed⟩ := relays_hand_on linked back inside
    (fun i j _ _ same => same) pends promised found
  obtain ⟨front, behind, lost, won⟩ := relayed.overtaken 1 7 5 (by decide) rfl
  have now := Reaches.refl s'
  refine ⟨s, s', relay, linked, back, ran, ends, ⟨front 0 (by decide) s' now, ?_, ?_⟩, lost s' now, ?_⟩
  · exact behind 1 (by decide) (by decide) s' now
  · exact behind 2 (by decide) (by decide) s' now
  · exact won 1 (by decide) (by decide) s' now

end Inhabited
end Oneshot
