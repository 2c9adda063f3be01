import Mathlib.Data.Nat.Init
import Oneshot.Promise
import Oneshot.Proofs.Parts
import Oneshot.Proofs.Traversal

/-! # Lines of promises

A relay is a continuation of one promise that completes the next.  In a line of promises with relays
between them, the decision of one promise decides those behind it, each from inside the dispatch of the
one before, up to a promise that is decided already or whose predecessor has no relay (`decision_runs`). -/
set_option autoImplicit false
namespace Oneshot
variable {V N S : Type}

/-- The body of a relay: it completes the next promise with what its source has, and comes to whether it
was the one that did. -/
def relayBody (answer : Bool → V) (next : Promise) (source : Future) : Prog V N S :=
  source.get fun
    | .ok v => next.complete v fun won => .ret (answer won)
    | .error e => .err (.unread e)

/-- Only a value is handed on. -/
def Outcome.onward : Outcome V → Option (Outcome V)
  | .value v => some (.value v)
  | _ => none

/-- What the future of a relay has if its source has the first of these outcomes, and the relay has won or
not. -/
inductive Tells (answer : Bool → V) (won : Bool) : Outcome V → Outcome V → Prop
  | value {v : V} : Tells answer won (.value v) (.value (answer won))
  | unread {o : Outcome V} {e : ReadError} (read : o.reading = .error e) (id : CauseId) :
      Tells answer won o (.failed (.mk id (.unread e)))

/-- Promises in a line, from the first, with the number 0, to the last. -/
structure Line (V : Type) where
  last : Nat
  cell : Nat → CellId
  answer : Bool → V
  /-- The future of each relay that is registered. -/
  made : Nat → Option CellId
  /-- What a promise has been decided with other than by a relay. -/
  given : Nat → Option (Outcome V)

namespace Line
variable (x : Line V)

def task (i : Nat) (r : CellId) : Task V N S :=
  .chain r (relayBody x.answer ⟨x.cell (i + 1)⟩ ⟨x.cell i⟩)

def queue (i : Nat) : List (Task V N S) :=
  match x.made i with
  | none => []
  | some r => [x.task i r]

/-- What comes to the promise behind `i` if `i` has this outcome. -/
def brings (i : Nat) (o : Option (Outcome V)) : Option (Outcome V) :=
  match x.made i with
  | none => none
  | some _ => o.bind Outcome.onward

/-- From `j` on, what is held is what was given, or else what comes from the promise before. -/
def Flows (j : Nat) (H : Nat → Option (Outcome V)) : Prop :=
  ∀ i, j ≤ i → H (i + 1) = (x.given (i + 1)).or (x.brings i (H i))

/-- What the promises hold when nothing is on its way. -/
def held : Nat → Option (Outcome V)
  | 0 => x.given 0
  | i + 1 => (x.given (i + 1)).or (x.brings i (held i))

/-- The future `r` of relay `i`, whose source holds this. -/
def Told (s : State V N S) (i : Nat) (r : CellId) : Option (Outcome V) → Prop
  | none => s.Pends r []
  | some o => ∃ o', s.Closed r o' ∧ Tells x.answer (x.given (i + 1)).isNone o o'

def Stands (s : State V N S) (c : CellId) (queue : List (Task V N S)) : Option (Outcome V) → Prop
  | none => s.Pends c queue
  | some o => s.Closed c o

/-- From `j` on, nothing is on its way, and the promises hold what `H` says. -/
structure Lies (s : State V N S) (j : Nat) (H : Nat → Option (Outcome V)) : Prop where
  cells : ∀ i, j ≤ i → i ≤ x.last → Stands s (x.cell i) (x.queue i) (H i)
  relays : ∀ i r, j ≤ i → i < x.last → x.made i = some r → x.Told s i r (H i)

def Foot (j : Nat) (c : CellId) : Prop :=
  (∃ i, j ≤ i ∧ i ≤ x.last ∧ c = x.cell i) ∨ ∃ i, j ≤ i ∧ i < x.last ∧ x.made i = some c

/-- No cell has two places in the line, and the last promise has no relay. -/
structure Proper : Prop where
  ends : ∀ i, x.last ≤ i → x.made i = none
  cells : ∀ i j, i ≤ x.last → j ≤ x.last → x.cell i = x.cell j → i = j
  made : ∀ i j r, i < x.last → j ≤ x.last → x.made i = some r → r ≠ x.cell j
  relays : ∀ i j r, i < x.last → j < x.last → x.made i = some r → x.made j = some r → i = j

def Promised (s : State V N S) : Prop :=
  ∀ i, i ≤ x.last → ∃ cell, s.cells[x.cell i]? = some cell ∧ cell.promised = true

variable {x} {s s' : State V N S} {i j : Nat} {H H' : Nat → Option (Outcome V)}

theorem flows_held (x : Line V) (j : Nat) : x.Flows j x.held := fun _ _ => rfl

theorem Flows.mono (flows : x.Flows i H) (later : i ≤ j) : x.Flows j H :=
  fun k after => flows k (Nat.le_trans later after)

/-- What is held at `j` says what is held from there on. -/
theorem Flows.unique (flows : x.Flows j H) (flows' : x.Flows j H') (same : H j = H' j) (after : j ≤ i) :
    H i = H' i := by
  induction i, after using Nat.le_induction with
  | base => exact same
  | succ i after ih => rw [flows i after, flows' i after, ih]

theorem Stands.of_cell {c : CellId} {queue : List (Task V N S)} {o : Option (Outcome V)}
    (stands : Stands s c queue o) (same : s'.cells[c]? = s.cells[c]?) : Stands s' c queue o := by
  cases o with
  | none => exact State.Pends.of_cell stands same
  | some o => exact State.Closed.of_cell stands same

theorem Told.of_cell {r : CellId} {o : Option (Outcome V)} (told : x.Told s i r o)
    (same : s'.cells[r]? = s.cells[r]?) : x.Told s' i r o := by
  cases o with
  | none => exact State.Pends.of_cell told same
  | some o =>
    obtain ⟨o', closed, tells⟩ := told
    exact ⟨o', closed.of_cell same, tells⟩

theorem Stands.found {c : CellId} {queue : List (Task V N S)} {o : Option (Outcome V)}
    (stands : Stands s c queue o) : ∃ cell, s.cells[c]? = some cell := by
  cases o with
  | none => exact stands.imp fun _ pends => pends.1
  | some o => exact stands.imp fun _ closed => closed.1

theorem Told.found {r : CellId} {o : Option (Outcome V)} (told : x.Told s i r o) :
    ∃ cell, s.cells[r]? = some cell := by
  cases o with
  | none => exact told.imp fun _ pends => pends.1
  | some o =>
    obtain ⟨_, ⟨cell, found, -⟩, -⟩ := told
    exact ⟨cell, found⟩

namespace Lies

variable {o : Outcome V} {r : CellId}

theorem undecided (lies : x.Lies s j H) (after : j ≤ i) (inside : i ≤ x.last) (none : H i = none) :
    s.Pends (x.cell i) (x.queue i) := by
  have stands := lies.cells i after inside
  rw [none] at stands
  exact stands

theorem decided (lies : x.Lies s j H) (after : j ≤ i) (inside : i ≤ x.last) (holds : H i = some o) :
    s.Closed (x.cell i) o := by
  have stands := lies.cells i after inside
  rw [holds] at stands
  exact stands

theorem relay_undecided (lies : x.Lies s j H) (after : j ≤ i) (inside : i < x.last)
    (made : x.made i = some r) (none : H i = none) : s.Pends r [] := by
  have told := lies.relays i r after inside made
  rw [none] at told
  exact told

theorem relay_decided (lies : x.Lies s j H) (after : j ≤ i) (inside : i < x.last)
    (made : x.made i = some r) (holds : H i = some o) :
    ∃ o', s.Closed r o' ∧ Tells x.answer (x.given (i + 1)).isNone o o' := by
  have told := lies.relays i r after inside made
  rw [holds] at told
  exact told

theorem inside (lies : x.Lies s j H) {c : CellId} (foot : x.Foot j c) : c < s.cells.size := by
  have found : ∃ cell, s.cells[c]? = some cell := by
    rcases foot with ⟨i, after, inside, rfl⟩ | ⟨i, after, inside, made⟩
    · exact (lies.cells i after inside).found
    · exact (lies.relays i c after inside made).found
  obtain ⟨cell, found⟩ := found
  exact (Array.getElem?_eq_some_iff.mp found).1

end Lies

theorem Lies.mono (lies : x.Lies s i H) (later : i ≤ j) : x.Lies s j H where
  cells k after := lies.cells k (Nat.le_trans later after)
  relays k r after := lies.relays k r (Nat.le_trans later after)

theorem Lies.congr (lies : x.Lies s j H) (same : ∀ i, j ≤ i → H i = H' i) : x.Lies s j H' where
  cells i after inside := same i after ▸ lies.cells i after inside
  relays i r after inside made := same i after ▸ lies.relays i r after inside made

theorem Lies.of_cells (lies : x.Lies s j H) (same : ∀ c, x.Foot j c → s'.cells[c]? = s.cells[c]?) :
    x.Lies s' j H where
  cells i after inside := (lies.cells i after inside).of_cell (same _ (Or.inl ⟨i, after, inside, rfl⟩))
  relays i r after inside made :=
    (lies.relays i r after inside made).of_cell (same r (Or.inr ⟨i, after, inside, made⟩))

/-- The line from `j` on is the promise `j` with its relay, and the line behind. -/
theorem Lies.cons (here : Stands s (x.cell j) (x.queue j) (H j))
    (relay : ∀ r, j < x.last → x.made j = some r → x.Told s j r (H j)) (behind : x.Lies s (j + 1) H) :
    x.Lies s j H where
  cells i after inside := by
    rcases Nat.eq_or_lt_of_le after with rfl | later
    · exact here
    · exact behind.cells i later inside
  relays i r after inside made := by
    rcases Nat.eq_or_lt_of_le after with rfl | later
    · exact relay r inside made
    · exact behind.relays i r later inside made

theorem Foot.mono {c : CellId} (foot : x.Foot j c) (earlier : i ≤ j) : x.Foot i c := by
  rcases foot with ⟨k, after, inside, same⟩ | ⟨k, after, inside, made⟩
  · exact Or.inl ⟨k, Nat.le_trans earlier after, inside, same⟩
  · exact Or.inr ⟨k, Nat.le_trans earlier after, inside, made⟩

theorem Proper.cell_aside (proper : x.Proper) (inside : i ≤ x.last) (before : i < j) :
    ¬ x.Foot j (x.cell i) := by
  rintro (⟨k, after, inside', same⟩ | ⟨k, after, inside', made⟩)
  · have := proper.cells i k inside inside' same
    omega
  · exact proper.made k i _ inside' inside made rfl

theorem Proper.relay_aside (proper : x.Proper) {r : CellId} (inside : i < x.last)
    (made : x.made i = some r) (before : i < j) : ¬ x.Foot j r := by
  rintro (⟨k, -, inside', same⟩ | ⟨k, after, inside', made'⟩)
  · exact proper.made i k r inside inside' made same
  · have := proper.relays i k r inside inside' made made'
    omega

end Line

section Inhabited
variable [Inhabited V] {x : Line V} {s s' s'' : State V N S} {t : ThreadId} {name : Option String}
  {fs : List (Frame V N S)} {j : Nat} {H H' : Nat → Option (Outcome V)} {W W' : CellId → Prop}

/-- `t`, taking some steps on its own, leads from `s` to `s'` and changes no cells but those of `W`. -/
structure Works (t : ThreadId) (W : CellId → Prop) (s s' : State V N S) : Prop where
  run : ∃ n, s.run (List.replicate n (.step t)) = some s'
  others : ∀ u, u ≠ t → s'.threads[u]? = s.threads[u]?
  cells : ∀ d, ¬ W d → s'.cells[d]? = s.cells[d]?

namespace Works

theorem refl (t : ThreadId) (W : CellId → Prop) (s : State V N S) : Works t W s s :=
  ⟨⟨0, rfl⟩, fun _ _ => rfl, fun _ _ => rfl⟩

theorem trans (first : Works t W s s') (second : Works t W s' s'') : Works t W s s'' where
  run := by
    obtain ⟨n, run⟩ := first.run
    obtain ⟨n', run'⟩ := second.run
    exact ⟨n + n', by rw [← List.replicate_append_replicate, State.run_append, run]; exact run'⟩
  others u other := (second.others u other).trans (first.others u other)
  cells d aside := (second.cells d aside).trans (first.cells d aside)

theorem mono (works : Works t W s s') (more : ∀ d, W d → W' d) : Works t W' s s' :=
  { works with cells := fun d aside => works.cells d fun inside => aside (more d inside) }

theorem of_alone {events : List (Event N)} {causes : Nat} (alone : Alone t events causes s s')
    (same : ∀ d, ¬ W d → s'.cells[d]? = s.cells[d]?) : Works t W s s' :=
  ⟨alone.run, alone.others, same⟩

theorem of_idle {events : List (Event N)} {causes : Nat} (alone : Alone t events causes s s')
    (same : s'.cells = s.cells) : Works t W s s' :=
  of_alone alone fun d _ => by rw [same]

theorem reaches (works : Works t W s s') : Reaches s s' := by
  obtain ⟨n, run⟩ := works.run
  exact ⟨_, run⟩

end Works

theorem Line.Promised.later (promised : x.Promised s) (reached : Reaches s s') : x.Promised s' := by
  intro i inside
  refine reached.induct (P := fun s => ∃ cell, s.cells[x.cell i]? = some cell ∧ cell.promised = true)
    (promised i inside) ?_
  rintro s m s' ⟨cell, found, kept⟩ moved
  obtain ⟨cell', found', same⟩ := promised_of_advance (advance_of_move moved) found
  exact ⟨cell', found', same.trans kept⟩

omit [Inhabited V] in
theorem Line.Promised.admits {i : Nat} (promised : x.Promised s) (inside : i ≤ x.last) (a : Attempt V) :
    s.admits (x.cell i) a = true := by
  obtain ⟨cell, held, owned⟩ := promised i inside
  simp [State.admits, held, owned]

theorem get_runs {c : CellId} {o : Outcome V} {k : Reading V → Prog V N S}
    (found : s.threads[t]? = some ⟨name, .run (.get c k), fs⟩) (decided : s.outcome? c = some o) :
    ∃ s', Works t W s s' ∧ s'.threads[t]? = some ⟨name, .run (k o.reading), fs⟩ ∧
      s'.cells = s.cells := by
  obtain ⟨s₁, asked, found₁, cells₁⟩ := alone_of_idle found rfl
  have read : s₁.next t (.checking ⟨c, none, k⟩) fs = some ⟨s₁, .run (k o.reading), fs⟩ := by
    obtain ⟨cell, held⟩ := State.found_of_outcome? (s := s) (c := c) (by simp [decided])
    rw [State.outcome?_of_found held] at decided
    simp [State.next, State.check, cells₁, held, decided]
  obtain ⟨s', checked, found', cells'⟩ := alone_of_idle found₁ read
  have cells := cells'.trans cells₁
  exact ⟨s', .of_idle (asked.trans checked) cells, found', cells⟩

theorem body_lands {c r : CellId} (e : Ending V) (own : W r)
    (found : s.threads[t]? = some ⟨name, .ended e, .capturing r :: .finishing c r :: fs⟩)
    (pends : s.Pends r []) :
    ∃ s', Works t W s s' ∧ s'.threads[t]? = some ⟨name, .ended default, fs⟩ ∧
      s'.Closed r (e.attempt.outcome s.nextCause) ∧ ∀ d, d ≠ r → s'.cells[d]? = s.cells[d]? := by
  obtain ⟨s₁, captured, found₁, cells₁⟩ := captures_runs e found
  obtain ⟨s₂, decided, found₂, serves, same₂⟩ := decides_runs found₁
    (pends.of_cell (congrArg (·[r]?) cells₁))
  obtain ⟨s₃, emptied, found₃, closed, same₃⟩ := empties_runs found₂ serves
  obtain ⟨s', finished, found', cells'⟩ := alone_of_next [.finished c r] 0 found₃ rfl rfl rfl rfl rfl
  have same (d : CellId) (other : d ≠ r) : s'.cells[d]? = s.cells[d]? := by
    rw [cells', ← cells₁, ← same₂ d other, ← same₃ d other]
    rfl
  have whole := ((captured.trans decided).trans emptied).trans finished
  refine ⟨s', .of_alone whole fun d aside => same d fun here => aside (here ▸ own), found', ?_, same⟩
  exact closed.of_cell (congrArg (·[r]?) cells')

/-- Wherever promise `j` is about to be decided, the decision takes the line from there on from what `H`
says to what `H'` says. -/
def Line.Decides (N S : Type) (x : Line V) (j : Nat) : Prop :=
  ∀ (s : State V N S) (t : ThreadId) (name : Option String) (fs : List (Frame V N S))
    (k : Bool → Prog V N S) (o : Outcome V) (H H' : Nat → Option (Outcome V)),
    s.threads[t]? = some ⟨name, .deciding (x.cell j) o (some k), fs⟩ → x.Promised s →
      x.Lies s j H → x.Flows j H → x.Flows j H' → H j = none → H' j = some o →
        ∃ s', Works t (x.Foot j) s s' ∧ s'.threads[t]? = some ⟨name, .run (k true), fs⟩ ∧
          x.Lies s' j H'

theorem completion_runs {v : V} {k : Bool → Prog V N S} (decides : x.Decides N S (j + 1))
    (inside : j < x.last)
    (found : s.threads[t]? = some ⟨name, .run (.decide (x.cell (j + 1)) (.complete v) k), fs⟩)
    (promised : x.Promised s) (lies : x.Lies s (j + 1) H) (flows : x.Flows (j + 1) H)
    (flows' : x.Flows (j + 1) H') (before : H (j + 1) = x.given (j + 1))
    (after : H' (j + 1) = (x.given (j + 1)).or (some (.value v))) :
    ∃ s', Works t (x.Foot (j + 1)) s s' ∧
      s'.threads[t]? = some ⟨name, .run (k (x.given (j + 1)).isNone), fs⟩ ∧ x.Lies s' (j + 1) H' := by
  obtain ⟨s₁, asked, found₁, cells₁⟩ := asks_runs found (promised.admits inside _)
  have lies₁ : x.Lies s₁ (j + 1) H := lies.of_cells fun c _ => congrArg (·[c]?) cells₁
  have first : Works t (x.Foot (j + 1)) s s₁ := .of_idle asked cells₁
  cases given : x.given (j + 1) with
  | none =>
    rw [given] at before after
    obtain ⟨s', works, found', lies'⟩ := decides s₁ t name fs k (.value v) H H' found₁
      (promised.later first.reaches) lies₁ flows flows' before after
    exact ⟨s', first.trans works, found', lies'⟩
  | some o =>
    rw [given] at before after
    obtain ⟨cell₁, held₁, decided, -⟩ := lies₁.decided (Nat.le_refl _) inside before
    have late : s₁.next t (.deciding (x.cell (j + 1)) (.value v) (some k)) fs =
        some ⟨s₁.log t (.ignored (x.cell (j + 1)) .value o.kind), .run (k false), fs⟩ := by
      simp [State.next, State.decideCell, held₁, decided, lost, Outcome.kind]
    obtain ⟨s', ignored, found', cells'⟩ := alone_of_next [_] 0 found₁ late rfl rfl rfl rfl
    refine ⟨s', first.trans (.of_idle ignored cells'), found', ?_⟩
    have kept : x.Lies s' (j + 1) H := lies₁.of_cells fun c _ => congrArg (·[c]?) cells'
    exact kept.congr fun i later => flows.unique flows' (before.trans after.symm) later

/-- The body of a relay has ended, and its future is decided; the line behind stays as the body left it. -/
theorem relay_lands {r : CellId} {o : Outcome V} {e : Ending V} (proper : x.Proper)
    (inside : j < x.last) (made : x.made j = some r)
    (found : s.threads[t]? = some ⟨name, .ended e, .capturing r :: .finishing (x.cell j) r :: fs⟩)
    (pends : s.Pends r []) (lies : x.Lies s (j + 1) H)
    (tells : ∀ id, Tells x.answer (x.given (j + 1)).isNone o (e.attempt.outcome id)) :
    ∃ s', Works t (fun c => c = r ∨ x.Foot (j + 1) c) s s' ∧
      s'.threads[t]? = some ⟨name, .ended default, fs⟩ ∧ x.Told s' j r (some o) ∧
      x.Lies s' (j + 1) H := by
  have aside : ¬ x.Foot (j + 1) r := proper.relay_aside inside made (Nat.lt_succ_self j)
  obtain ⟨s', landed, found', closed, kept⟩ :=
    body_lands (W := fun c => c = r ∨ x.Foot (j + 1) c) e (Or.inl rfl) found pends
  refine ⟨s', landed, found', ⟨_, closed, tells _⟩, lies.of_cells fun c foot => ?_⟩
  exact kept c fun here => aside (here ▸ foot)

theorem relay_runs {r : CellId} {o : Outcome V} (proper : x.Proper)
    (decides : x.Decides N S (j + 1)) (inside : j < x.last) (made : x.made j = some r)
    (found : s.threads[t]? = some ⟨name, .starting (x.cell j) (x.task j r), fs⟩)
    (decided : s.outcome? (x.cell j) = some o) (pends : s.Pends r []) (promised : x.Promised s)
    (lies : x.Lies s (j + 1) H) (flows : x.Flows (j + 1) H) (flows' : x.Flows (j + 1) H')
    (before : H (j + 1) = x.given (j + 1)) (after : H' (j + 1) = (x.given (j + 1)).or o.onward) :
    ∃ s', Works t (fun c => c = r ∨ x.Foot (j + 1) c) s s' ∧
      s'.threads[t]? = some ⟨name, .ended default, fs⟩ ∧ x.Told s' j r (some o) ∧
      x.Lies s' (j + 1) H' := by
  let W : CellId → Prop := fun c => c = r ∨ x.Foot (j + 1) c
  have aside : ¬ x.Foot (j + 1) r := proper.relay_aside inside made (Nat.lt_succ_self j)
  obtain ⟨s₁, begun, found₁, cells₁⟩ := alone_of_idle found rfl
  have decided₁ : s₁.outcome? (x.cell j) = some o := by rw [State.outcome?, cells₁]; exact decided
  obtain ⟨s₂, read, found₂, cells₂⟩ := get_runs (W := W) found₁ decided₁
  have cells := cells₂.trans cells₁
  have works : Works t W s s₂ := (Works.of_idle begun cells₁).trans read
  have lies₂ : x.Lies s₂ (j + 1) H := lies.of_cells fun c _ => congrArg (·[c]?) cells
  have fails {e : ReadError} (reading : o.reading = .error e) (none : o.onward = none) :
      ∃ s', Works t W s s' ∧ s'.threads[t]? = some ⟨name, .ended default, fs⟩ ∧
        x.Told s' j r (some o) ∧ x.Lies s' (j + 1) H' := by
    rw [reading] at found₂
    obtain ⟨s₃, failed, found₃, cells₃⟩ := alone_of_idle found₂ rfl
    have kept : x.Lies s₃ (j + 1) H := lies₂.of_cells fun c _ => congrArg (·[c]?) cells₃
    have lies₃ : x.Lies s₃ (j + 1) H' := by
      refine kept.congr fun i later => flows.unique flows' ?_ later
      rw [before, after, none, Option.or_none]
    obtain ⟨s', landed, rest⟩ := relay_lands proper inside made found₃
      (pends.of_cell (by rw [cells₃, cells])) lies₃ fun id => .unread reading id
    exact ⟨s', (works.trans (.of_idle failed cells₃)).trans landed, rest⟩
  cases o with
  | failed cause => exact fails rfl rfl
  | cancelled => exact fails rfl rfl
  | value v =>
    obtain ⟨s₃, completed, found₃, lies₃⟩ := completion_runs decides inside found₂
      (promised.later works.reaches) lies₂ flows flows' before after
    obtain ⟨s₄, returned, found₄, cells₄⟩ := alone_of_idle found₃ rfl
    have whole := (works.trans (completed.mono fun c foot => Or.inr foot)).trans
      (Works.of_idle returned cells₄)
    have lies₄ : x.Lies s₄ (j + 1) H' := lies₃.of_cells fun c _ => congrArg (·[c]?) cells₄
    obtain ⟨s', landed, rest⟩ := relay_lands proper inside made found₄
      (pends.of_cell (by rw [cells₄, completed.cells r aside, cells])) lies₄ fun id => .value
    exact ⟨s', whole.trans landed, rest⟩

theorem dispatch_ends {c : CellId} {o : Outcome V} {q : Prog V N S} (own : W c)
    (found : s.threads[t]? = some ⟨name, .draining c, .resume q :: fs⟩) (serves : s.Serves c o []) :
    ∃ s', Works t W s s' ∧ s'.threads[t]? = some ⟨name, .run q, fs⟩ ∧ s'.Closed c o ∧
      ∀ d, d ≠ c → s'.cells[d]? = s.cells[d]? := by
  obtain ⟨s₁, emptied, found₁, closed, same₁⟩ := empties_runs found serves
  obtain ⟨s', resumed, found', cells'⟩ := alone_of_idle found₁ rfl
  have same (d : CellId) (other : d ≠ c) : s'.cells[d]? = s.cells[d]? := by
    rw [cells', same₁ d other]
  refine ⟨s', .of_alone (emptied.trans resumed) fun d aside => same d fun here => aside (here ▸ own),
    found', closed.of_cell (congrArg (·[c]?) cells'), same⟩

theorem decides_of_bare (proper : x.Proper) (inside : j ≤ x.last) (bare : x.made j = none) :
    x.Decides N S j := by
  intro s t name fs k o H H' found promised lies flows flows' undecided decided
  have own : x.Foot j (x.cell j) := Or.inl ⟨j, Nat.le_refl j, inside, rfl⟩
  have pends := lies.undecided (Nat.le_refl j) inside undecided
  rw [Line.queue, bare] at pends
  obtain ⟨s₁, wins, found₁, serves, same₁⟩ := decides_runs found pends
  obtain ⟨s', ends, found', closed, same'⟩ := dispatch_ends (W := x.Foot j) own found₁ serves
  have first : Works t (x.Foot j) s s₁ :=
    .of_alone wins fun d aside => same₁ d fun here => aside (here ▸ own)
  have behind : x.Lies s' (j + 1) H := by
    refine (lies.mono (Nat.le_succ j)).of_cells fun c foot => ?_
    have other : c ≠ x.cell j := fun here =>
      proper.cell_aside inside (Nat.lt_succ_self j) (here ▸ foot)
    rw [same' c other, same₁ c other]
  refine ⟨s', first.trans ends, found', .cons ?_ ?_ (behind.congr fun i later => ?_)⟩
  · rw [decided]
    exact closed
  · intro r _ made
    cases bare.symm.trans made
  · refine (flows.mono (Nat.le_succ j)).unique (flows'.mono (Nat.le_succ j)) ?_ later
    rw [flows j (Nat.le_refl j), flows' j (Nat.le_refl j), Line.brings, Line.brings, bare]

/-- A promise with a relay is decided, and then its relay runs. -/
theorem decides_of_relay (proper : x.Proper) (inside : j < x.last) {r : CellId}
    (made : x.made j = some r) (decides : x.Decides N S (j + 1)) : x.Decides N S j := by
  intro s t name fs k o H H' found promised lies flows flows' undecided decided
  let W : CellId → Prop := fun c => c = r ∨ x.Foot (j + 1) c
  have own : x.Foot j (x.cell j) := Or.inl ⟨j, Nat.le_refl j, Nat.le_of_lt inside, rfl⟩
  have source : ¬ W (x.cell j) := by
    rintro (same | foot)
    · exact proper.made j j r inside (Nat.le_of_lt inside) made same.symm
    · exact proper.cell_aside (Nat.le_of_lt inside) (Nat.lt_succ_self j) foot
  have within (c : CellId) (inner : W c) : x.Foot j c := by
    rcases inner with rfl | foot
    · exact Or.inr ⟨j, Nat.le_refl j, inside, made⟩
    · exact foot.mono (Nat.le_succ j)
  have pends := lies.undecided (Nat.le_refl j) (Nat.le_of_lt inside) undecided
  rw [Line.queue, made] at pends
  have told := lies.relay_undecided (Nat.le_refl j) inside made undecided
  obtain ⟨s₁, wins, found₁, serves₁, same₁⟩ := decides_runs found pends
  obtain ⟨s₂, took, found₂, serves₂, same₂⟩ := takes_runs found₁ serves₁
  have same (c : CellId) (inner : W c) : s₂.cells[c]? = s.cells[c]? := by
    have other : c ≠ x.cell j := fun here => source (here ▸ inner)
    rw [same₂ c other, same₁ c other]
  have first : Works t (x.Foot j) s s₂ := by
    refine .of_alone (wins.trans took) fun d aside => ?_
    have other : d ≠ x.cell j := fun here => aside (here ▸ own)
    rw [same₂ d other, same₁ d other]
  have holds : s₂.outcome? (x.cell j) = some o := by
    obtain ⟨cell, held, outcome, -⟩ := serves₂
    rw [State.outcome?_of_found held, outcome]
  have lies₂ : x.Lies s₂ (j + 1) H :=
    (lies.mono (Nat.le_succ j)).of_cells fun c foot => same c (Or.inr foot)
  have before : H (j + 1) = x.given (j + 1) := by
    rw [flows j (Nat.le_refl j), undecided, Line.brings, made, Option.bind_none, Option.or_none]
  have after : H' (j + 1) = (x.given (j + 1)).or o.onward := by
    rw [flows' j (Nat.le_refl j), decided, Line.brings, made, Option.bind_some]
  obtain ⟨s₃, relays, found₃, told₃, lies₃⟩ := relay_runs proper decides inside made found₂ holds
    (told.of_cell (same r (Or.inl rfl))) (promised.later first.reaches) lies₂
    (flows.mono (Nat.le_succ j)) (flows'.mono (Nat.le_succ j)) before after
  obtain ⟨s₄, looped, found₄, cells₄⟩ := alone_of_idle found₃ rfl
  have serves₄ : s₄.Serves (x.cell j) o [] := by
    refine serves₂.of_cell ?_
    rw [cells₄, relays.cells _ source]
  obtain ⟨s', ends, found', closed, same'⟩ := dispatch_ends (W := x.Foot j) own found₄ serves₄
  have kept (c : CellId) (inner : W c) : s'.cells[c]? = s₃.cells[c]? := by
    rw [same' c fun here => source (here ▸ inner), cells₄]
  have whole := first.trans ((relays.mono within).trans ((Works.of_idle looped cells₄).trans ends))
  refine ⟨s', whole, found', .cons ?_ ?_ (lies₃.of_cells fun c foot => kept c (Or.inr foot))⟩
  · rw [decided]
    exact closed
  · intro r' _ made'
    cases made.symm.trans made'
    rw [decided]
    exact told₃.of_cell (kept r (Or.inl rfl))

/-- The decision of a promise takes the line from there on to its new state.  The induction is on the
number of promises behind it: a relay decides the next one while the dispatch of its source goes on. -/
theorem decision_runs (proper : x.Proper) (m : Nat) (count : j + m = x.last) : x.Decides N S j := by
  induction m generalizing j with
  | zero => exact decides_of_bare proper (by omega) (proper.ends j (by omega))
  | succ m ih =>
    cases made : x.made j with
    | none => exact decides_of_bare proper (by omega) made
    | some r => exact decides_of_relay proper (by omega) made (ih (by omega))

end Inhabited
end Oneshot
