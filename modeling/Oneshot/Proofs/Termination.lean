import Mathlib.Tactic.Abel
import Oneshot.Proofs.Permanence
import Oneshot.Proofs.Weight

/-! # A thread alone comes to a stop

What a thread has before it are tokens: of what it does, of its frames, of all continuations that are
queued and of all wakers that are parked.  Each of its steps takes one away and brings lighter ones
(`lighter_of_next`), unless the code of a waker polls, which may park the same waker again. -/
set_option autoImplicit false
namespace Oneshot
variable {V N S : Type}

namespace Token

/-- A part of a call, with no code of a program. -/
def part (n : Nat) : Token V N S := ⟨fun _ => False, n⟩

def run (p : Prog V N S) : Token V N S := ⟨fun q => q.Follows p, 20⟩

def later (p : Prog V N S) : Token V N S := ⟨fun q => q = p, 10⟩

def answer {α : Type} (k : α → Prog V N S) (n : Nat) : Token V N S := ⟨fun q => ∃ a, q = k a, n⟩

/-- A decision or a settling is to come, and then its caller may wait for an answer. -/
def call : Option (Bool → Prog V N S) → Token V N S
  | some k => answer k 16
  | none => part 5

def wake : Token V N S := ⟨Prog.PollFree, 10⟩

theorem part_below {n : Nat} {a : Token V N S} (earlier : n < a.stage) : (part n).Below a :=
  Or.inl ⟨fun _ none => none.elim, earlier⟩

theorem run_below {p : Prog V N S} {a : Token V N S} (member : a.code p) : (run p).Below a :=
  Or.inr ⟨p, member, fun _ follows => follows⟩

theorem run_below_run {p q : Prog V N S} (child : q.Child p) : (run q).Below (run p) :=
  run_below (Or.inl child)

theorem below_run {p : Prog V N S} {a : Token V N S} (parts : ∀ q, a.code q → q.Child p)
    (earlier : a.stage < 20) : a.Below (run p) :=
  Or.inl ⟨fun q member => Or.inl (parts q member), earlier⟩

end Token

def Task.Code : Task V N S → Prog V N S → Prop
  | .chain _ body, q => q = body
  | .transform _ f, q => ∃ v, q = f v
  | .relay _ _, _ => False

def Task.token (task : Task V N S) (n : Nat) : Token V N S := ⟨task.Code, n⟩

def Cell.load (cell : Cell V N S) : Multiset (Token V N S) :=
  (cell.queue.map fun task => task.token 18 : List (Token V N S))

def External.load (x : External V) : Multiset (Token V N S) :=
  Multiset.replicate x.wakers.length .wake

def Frame.load : Frame V N S → Multiset (Token V N S)
  | .resume p => {.later p}
  | .finishing _ _ => {.part 1}
  | .draining _ => {.part 2}
  | .capturing _ => {.part 6}
  | .waking _ ws => {.part 1} + Multiset.replicate ws.length .wake
  | .guarding k => {.answer k 10}

def loadOf (fs : List (Frame V N S)) : Multiset (Token V N S) := (fs.map Frame.load).sum

@[simp] theorem loadOf_nil : loadOf ([] : List (Frame V N S)) = 0 := rfl

@[simp] theorem loadOf_cons (frame : Frame V N S) (fs : List (Frame V N S)) :
    loadOf (frame :: fs) = frame.load + loadOf fs := by
  simp [loadOf]

@[simp] theorem loadOf_append (fs fs' : List (Frame V N S)) :
    loadOf (fs ++ fs') = loadOf fs + loadOf fs' := by
  simp [loadOf]

/-- What `t` does weighs more asleep when it may come out of its wait. -/
def Doing.load (s : State V N S) (t : ThreadId) : Doing V N S → Multiset (Token V N S)
  | .run p => {.run p}
  | .deciding _ _ k => {.call k}
  | .announcing _ _ _ => {.part 3}
  | .draining _ => {.part 1}
  | .starting _ task => {task.token 17}
  | .relaying _ _ => {.part 6}
  | .settling _ _ k => {.call k}
  | .checking w => {.answer w.resume 12}
  | .asleep w => {.answer w.resume (if s.awake t w.cell then 13 else 11)}
  | .expired _ _ k => {.answer k 11}
  | .ended _ => 0

namespace State

def load (s : State V N S) : Multiset (Token V N S) :=
  (s.cells.toList.map Cell.load).sum + (s.externals.toList.map External.load).sum

def weight (s : State V N S) (t : ThreadId) (d : Doing V N S) (fs : List (Frame V N S)) :
    Multiset (Token V N S) :=
  s.load + (d.load s t + loadOf fs)

end State

theorem sum_modify {α : Type} (g : α → Multiset (Token V N S)) (f : α → α) (xs : List α) {i : Nat}
    {x : α} (found : xs[i]? = some x) :
    ((xs.modify i f).map g).sum + g x = (xs.map g).sum + g (f x) := by
  induction xs generalizing i with
  | nil => simp at found
  | cons y xs ih =>
    cases i with
    | zero =>
      cases Option.some.inj found
      simp only [List.modify_zero_cons, List.map_cons, List.sum_cons]
      abel
    | succ i =>
      have rest := ih (i := i) (by simpa using found)
      simp only [List.modify_succ_cons, List.map_cons, List.sum_cons, add_assoc, rest]

namespace State
variable {s : State V N S}

theorem load_modifyCell {c : CellId} {cell : Cell V N S} (found : s.cells[c]? = some cell)
    (f : Cell V N S → Cell V N S) :
    (s.modifyCell c f).load + cell.load = s.load + (f cell).load := by
  have cells := sum_modify Cell.load f s.cells.toList (i := c) (by simpa using found)
  simp only [load, modifyCell, Array.toList_modify]
  rw [add_right_comm, cells, add_right_comm]

theorem load_modifyExternal {e : ExternalId} {x : External V} (found : s.externals[e]? = some x)
    (f : External V → External V) :
    (s.modifyExternal e f).load + x.load = s.load + (f x).load := by
  have externals := sum_modify (External.load (N := N) (S := S)) f s.externals.toList (i := e)
    (by simpa using found)
  simp only [load, modifyExternal, Array.toList_modify]
  rw [add_assoc, externals, add_assoc]

theorem load_keepQueue (s : State V N S) (c : CellId) {f : Cell V N S → Cell V N S}
    (same : ∀ cell, (f cell).queue = cell.queue) : (s.modifyCell c f).load = s.load := by
  have each : ∀ cell, Cell.load (f cell) = cell.load := fun cell => by simp [Cell.load, same]
  cases found : s.cells[c]? with
  | none =>
    have outside : s.cells.toList.length ≤ c := by simpa using found
    simp [load, modifyCell, List.modify_eq_self outside]
  | some cell =>
    have total := load_modifyCell found f
    rw [each] at total
    exact add_right_cancel total

theorem load_enqueue {c : CellId} {cell : Cell V N S} (found : s.cells[c]? = some cell)
    (task : Task V N S) :
    (s.modifyCell c (·.enqueue task)).load = s.load + {task.token 18} := by
  have total := load_modifyCell found (·.enqueue task)
  have more : (cell.enqueue task).load = cell.load + {task.token 18} := by
    simp [Cell.load, Cell.enqueue, ← Multiset.coe_add]
  rw [more, ← add_assoc, add_right_comm] at total
  exact add_right_cancel total

theorem load_take {c : CellId} {cell : Cell V N S} (found : s.cells[c]? = some cell)
    {task : Task V N S} {rest : List (Task V N S)} (queue : cell.queue = task :: rest) :
    s.load = (s.modifyCell c fun _ => { cell with queue := rest }).load + {task.token 18} := by
  have total := load_modifyCell found fun _ => { cell with queue := rest }
  have less : cell.load = { cell with queue := rest }.load + {task.token 18} := by
    simp [Cell.load, queue, ← Multiset.cons_coe, ← Multiset.singleton_add, add_comm]
  rw [less, ← add_assoc, add_right_comm] at total
  exact (add_right_cancel total).symm

theorem load_addCell (s : State V N S) {cell : Cell V N S} (empty : cell.queue = []) :
    (s.addCell cell).load = s.load := by
  simp [load, addCell, Cell.load, empty]

theorem load_addExternal (s : State V N S) : s.addExternal.load = s.load := by
  simp [load, addExternal, External.load, External.new]

theorem load_settle {e : ExternalId} {x : External V} (found : s.externals[e]? = some x)
    (r : Reading V) :
    s.load = (s.modifyExternal e (·.settle r)).load + x.load := by
  rw [load_modifyExternal found]
  simp [External.load, External.settle]

/-- Polling parks the waker, or it is parked already. -/
theorem load_park {e : ExternalId} {x : External V} (found : s.externals[e]? = some x)
    (w : WakerId) :
    (s.modifyExternal e (·.park w)).load = s.load + 0 ∨
      (s.modifyExternal e (·.park w)).load = s.load + {.wake} := by
  have total := load_modifyExternal found (·.park w)
  by_cases stored : w ∈ x.wakers
  · left
    rw [External.park, if_pos stored] at total
    rw [add_zero]
    exact add_right_cancel total
  · right
    have more : (x.park w).load = (x.load + {.wake} : Multiset (Token V N S)) := by
      simp only [External.load, External.park, stored, if_false, List.length_append,
        List.length_singleton, Multiset.replicate_succ]
      rw [add_comm, Multiset.singleton_add]
    rw [more, ← add_assoc, add_right_comm] at total
    exact add_right_cancel total

end State

def State.Tame (s : State V N S) : Prop :=
  ∀ (w : WakerId) (p : Prog V N S), s.wakers[w]? = some p → p.PollFree

def Next.weight (n : Next V N S) (t : ThreadId) : Multiset (Token V N S) :=
  n.state.weight t n.doing n.frames

section Inhabited
variable [Inhabited V] {s s' : State V N S} {t : ThreadId}

omit [Inhabited V] in
/-- One token goes and tokens below it come, some of them to the queues and the parked wakers. -/
theorem lighter_of_doing {d : Doing V N S} {fs : List (Frame V N S)} {n : Next V N S}
    {a : Token V N S} (was : d.load s t = {a}) (stored : Multiset (Token V N S))
    (load : n.state.load = s.load + stored) (new : List (Frame V N S)) (frames : n.frames = new ++ fs)
    (below : a.Over (stored + (n.doing.load n.state t + loadOf new))) :
    Lighter (n.weight t) (s.weight t d fs) := by
  refine lighter_of_split (s.load + loadOf fs) 0 ?_ ?_ below
  · rw [Next.weight, State.weight, load, frames, loadOf_append]
    abel
  · rw [State.weight, was]
    abel

omit [Inhabited V] in
theorem lighter_of_same {d : Doing V N S} {n : Next V N S} {a : Token V N S} (was : d.load s t = {a})
    (load : n.state.load = s.load) (below : a.Over (n.doing.load n.state t)) :
    Lighter (n.weight t) (s.weight t d n.frames) := by
  refine lighter_of_doing was 0 ?_ [] rfl ?_
  · rw [load, add_zero]
  · simpa using below

omit [Inhabited V] in
theorem lighter_of_child {p q : Prog V N S} {n : Next V N S} (child : q.Child p)
    (load : n.state.load = s.load) (doing : n.doing = .run q) :
    Lighter (n.weight t) (s.weight t (.run p) n.frames) := by
  refine lighter_of_same rfl load ?_
  simpa [Doing.load, doing] using Token.run_below_run child

theorem lost_below (s : State V N S) (t : ThreadId) (k : Option (Bool → Prog V N S)) :
    (Token.call k).Over ((lost k).load s t) := by
  cases k with
  | none => simp [lost, Doing.load]
  | some k =>
    have below : (Token.run (k false)).Below (.call (some k)) := Token.run_below ⟨false, rfl⟩
    simpa [lost, Doing.load] using below

omit [Inhabited V] in
theorem won_below (k : Option (Bool → Prog V N S)) : (Token.call k).Over (loadOf (won k)) := by
  cases k with
  | none => simp [won]
  | some k =>
    have below : (Token.later (k true)).Below (.call (some k)) :=
      Or.inl ⟨fun q same => ⟨true, same⟩, (by decide : 10 < 16)⟩
    simpa [won, Frame.load] using below

omit [Inhabited V] in
theorem part_below_call {n : Nat} (early : n < 5) (k : Option (Bool → Prog V N S)) :
    (Token.part n).Below (.call k) := by
  refine Token.part_below ?_
  cases k with
  | none => exact early
  | some k => exact Nat.lt_trans early (by decide : 5 < 16)

theorem lighter_of_decideCell (c : CellId) (o : Outcome V) (k : Option (Bool → Prog V N S))
    (fs : List (Frame V N S)) :
    Lighter ((s.decideCell t c o k fs).weight t) (s.weight t (.deciding c o k) fs) := by
  unfold State.decideCell
  split
  next => exact lighter_of_same rfl rfl (lost_below s t k)
  next cell _ =>
    split
    next => exact lighter_of_same rfl rfl (lost_below _ t k)
    next =>
      refine lighter_of_doing rfl 0 ?_ (won k) rfl ?_
      · exact (State.load_keepQueue s c (f := (·.decide o)) fun _ => rfl).trans (add_zero _).symm
      · simpa [Doing.load] using ⟨part_below_call (by decide) k, won_below k⟩

/-- The parked wakers only change their place. -/
theorem lighter_of_settleExternal (e : ExternalId) (r : Reading V)
    (k : Option (Bool → Prog V N S)) (fs : List (Frame V N S)) :
    Lighter ((s.settleExternal t e r k fs).weight t) (s.weight t (.settling e r k) fs) := by
  unfold State.settleExternal
  split
  next => exact lighter_of_same rfl rfl (lost_below s t k)
  next x found =>
    split
    next => exact lighter_of_same rfl rfl (lost_below _ t k)
    next =>
      let s₁ := s.modifyExternal e (·.settle r)
      have moved : s.load = s₁.load + x.load := State.load_settle found r
      have below : (Token.call k).Over ({.part 1} + loadOf (won k)) := by
        simpa using ⟨part_below_call (by decide) k, won_below k⟩
      have after : s₁.weight t (.ended default) (.waking e x.wakers :: (won k ++ fs)) =
          s₁.load + (x.load + loadOf fs) + ({.part 1} + loadOf (won k)) := by
        simp only [State.weight, Doing.load, loadOf_cons, loadOf_append, Frame.load, External.load]
        abel
      refine lighter_of_split (s₁.load + (x.load + loadOf fs)) 0 after ?_ below
      rw [State.weight, moved, Doing.load]
      abel

/-- The token of a continuation waits in the queue until it is taken out, and stands for the drain loop
too from then on. -/
theorem lighter_of_drain (c : CellId) (fs : List (Frame V N S)) :
    Lighter ((s.drain t c fs).weight t) (s.weight t (.draining c) fs) := by
  unfold State.drain
  split
  next => exact lighter_of_same rfl rfl (Token.over_zero _)
  next cell found =>
    cases queue : cell.queue with
    | nil =>
      simp only [Cell.takeFirst, queue]
      have kept : Cell.load { cell with queue := [], dispatching := false } = cell.load := by
        simp [Cell.load, queue]
      have total := State.load_modifyCell found fun _ => { cell with queue := [], dispatching := false }
      rw [kept] at total
      exact lighter_of_same rfl (add_right_cancel total) (Token.over_zero _)
    | cons task rest =>
      simp only [Cell.takeFirst, queue]
      let s₁ := s.modifyCell c fun _ => { cell with queue := rest }
      have taken : s.load = s₁.load + {task.token 18} := State.load_take found queue
      have below : (task.token 18).Over ({task.token 17} + {.part 2}) := by
        simp only [Token.over_add, Token.over_singleton]
        exact ⟨Or.inl ⟨fun _ code => code, (by decide : 17 < 18)⟩,
          Token.part_below (by decide : 2 < 18)⟩
      have after : s₁.weight t (.starting c task) (.draining c :: fs) =
          s₁.load + loadOf fs + ({task.token 17} + {.part 2}) := by
        simp only [State.weight, Doing.load, loadOf_cons, Frame.load]
        abel
      refine lighter_of_split (s₁.load + loadOf fs) {.part 1} after ?_ below
      rw [State.weight, taken, Doing.load]
      abel

omit [Inhabited V] in
theorem lighter_of_startTask (c : CellId) (task : Task V N S) (fs : List (Frame V N S)) :
    Lighter ((s.startTask t c task fs).weight t) (s.weight t (.starting c task) fs) := by
  have early {n : Nat} (early : n < 17) : (Token.part n).Below (task.token 17) :=
    Token.part_below early
  have bottom : (task.token 17).Over (loadOf [.finishing c task.result]) := by
    simpa [Frame.load] using early (by decide)
  have captured (result : CellId) :
      (task.token 17).Over (loadOf [.capturing result, .finishing c task.result]) := by
    rw [loadOf_cons]
    exact Token.over_add.mpr ⟨Token.over_singleton.mpr (early (by decide)), bottom⟩
  have on {n : Next V N S} (new : List (Frame V N S)) (load : n.state.load = s.load)
      (frames : n.frames = new ++ fs) (first : (task.token 17).Over (n.doing.load n.state t))
      (rest : (task.token 17).Over (loadOf new)) :
      Lighter (n.weight t) (s.weight t (.starting c task) fs) := by
    refine lighter_of_doing rfl 0 (by rw [load, add_zero]) new frames ?_
    rw [zero_add]
    exact Token.over_add.mpr ⟨first, rest⟩
  cases task with
  | chain result body =>
    exact on [_, _] rfl rfl (Token.over_singleton.mpr (Token.run_below rfl)) (captured result)
  | relay result e =>
    exact on [_, _] rfl rfl (Token.over_singleton.mpr (early (by decide : 6 < 17))) (captured result)
  | transform result f =>
    simp only [State.startTask]
    split
    next => exact on [_] rfl rfl (Token.over_zero _) bottom
    next v _ =>
      exact on [_, _] rfl rfl (Token.over_singleton.mpr (Token.run_below ⟨v, rfl⟩)) (captured result)
    next =>
      exact on [_] rfl rfl (Token.over_singleton.mpr (early (by decide : 5 < 17))) bottom

omit [Inhabited V] in
/-- What a program registers is a part of it. -/
theorem lighter_of_register {s₀ : State V N S} (load : s₀.load = s.load) (c : CellId)
    {task : Task V N S} {p q : Prog V N S} (code : ∀ q, task.Code q → q.Child p)
    (child : q.Child p) (fs : List (Frame V N S)) :
    Lighter ((s₀.register t c task q fs).weight t) (s.weight t (.run p) fs) := by
  have added : (s₀.addCell .derived).load = s.load := (State.load_addCell s₀ rfl).trans load
  have below {n : Nat} (early : n < 20) : (task.token n).Below (.run p) := Token.below_run code early
  unfold State.register
  split
  next => exact lighter_of_child child added rfl
  next cell found =>
    split
    next =>
      have kept : (s₀.addCell .derived).cells[c]? = some cell := by
        have inside := (Array.getElem?_eq_some_iff.mp found).1
        rw [State.getElem?_addCell, if_neg (Nat.ne_of_lt inside), found]
      have queued := State.load_enqueue kept task
      rw [added] at queued
      refine lighter_of_doing rfl {task.token 18} queued [] rfl ?_
      simpa [Doing.load] using ⟨below (by decide), Token.run_below_run child⟩
    next =>
      refine lighter_of_doing rfl 0 (by rw [add_zero]; exact added) [.resume q] rfl ?_
      have later : (Token.later q).Below (.run p) :=
        Token.below_run (fun _ same => same ▸ child) (by decide : 10 < 20)
      simpa [Doing.load, Frame.load] using ⟨below (by decide), later⟩

omit [Inhabited V] in
theorem lighter_of_pollExternal (e : ExternalId) (w : WakerId)
    (k : Option (Reading V) → Prog V N S) (fs : List (Frame V N S)) :
    Lighter ((s.pollExternal t e w k fs).weight t) (s.weight t (.run (.poll e w k)) fs) := by
  have child (r : Option (Reading V)) : (k r).Child (.poll e w k) := ⟨r, rfl⟩
  unfold State.pollExternal
  split
  next => exact lighter_of_child (child none) rfl rfl
  next x found =>
    split
    next r _ => exact lighter_of_child (child (some r)) rfl rfl
    next =>
      rcases State.load_park found w with same | more
      · exact lighter_of_child (child none) (same.trans (add_zero _)) rfl
      · have wake : Token.wake.Below (.run (.poll e w k)) :=
          Or.inl ⟨fun q free => Or.inr ⟨trivial, free⟩, (by decide : 10 < 20)⟩
        refine lighter_of_doing rfl {Token.wake} more [] rfl ?_
        simpa [Doing.load] using ⟨wake, Token.run_below_run (child none)⟩

omit [Inhabited V] in
theorem lighter_of_check {w : Wait V N S} {fs : List (Frame V N S)} {n : Next V N S}
    (moved : s.check t w fs = some n) : Lighter (n.weight t) (s.weight t (.checking w) fs) := by
  obtain ⟨cell, found, ⟨-, rfl⟩ | ⟨o, -, rfl⟩⟩ := check_cases moved
  · -- In the waiting set, the thread can only be woken by others.
    have asleep : (s.modifyCell w.cell (·.sleep t)).awake t w.cell = false := by
      simp [State.awake, State.getElem?_modifyCell, found, Cell.sleep]
    refine lighter_of_same rfl (State.load_keepQueue s w.cell (f := (·.sleep t)) fun _ => rfl) ?_
    have below : (Token.answer w.resume 11).Below (.answer w.resume 12) :=
      Or.inl ⟨fun _ code => code, (by decide : 11 < 12)⟩
    simpa [Doing.load, asleep] using below
  · have below : (Token.run (w.resume o.reading)).Below (.answer w.resume 12) :=
      Token.run_below ⟨_, rfl⟩
    exact lighter_of_same rfl rfl (Token.over_singleton.mpr below)

omit [Inhabited V] in
theorem lighter_of_giveUp (c : CellId) (limit : Duration) (k : Reading V → Prog V N S)
    (fs : List (Frame V N S)) :
    Lighter ((s.giveUp t c limit k fs).weight t) (s.weight t (.expired c limit k) fs) := by
  have below (r : Reading V) : (Token.answer k 11).Over {.run (k r)} :=
    Token.over_singleton.mpr (Token.run_below ⟨r, rfl⟩)
  unfold State.giveUp
  split
  next => exact lighter_of_same rfl rfl (below _)
  next => exact lighter_of_same rfl rfl (below _)

omit [Inhabited V] in
/-- The first frame goes, and what was done above it has ended. -/
theorem lighter_of_frame {e : Ending V} {frame : Frame V N S} {n : Next V N S}
    (new : List (Frame V N S)) {fs : List (Frame V N S)} (a : Token V N S)
    (dropped : Multiset (Token V N S)) (was : frame.load = {a} + dropped + loadOf new)
    (load : n.state.load = s.load) (frames : n.frames = new ++ fs)
    (below : a.Over (n.doing.load n.state t)) :
    Lighter (n.weight t) (s.weight t (.ended e) (frame :: fs)) := by
  refine lighter_of_split (s.load + loadOf new + loadOf fs) dropped ?_ ?_ below
  · rw [Next.weight, State.weight, load, frames, loadOf_append]
    abel
  · rw [State.weight, loadOf_cons, was, Doing.load]
    abel

omit [Inhabited V] in
theorem Frame.load_eq (frame : Frame V N S) : ∃ a dropped, frame.load = {a} + dropped := by
  cases frame with
  | waking x ws => exact ⟨_, _, rfl⟩
  | _ => exact ⟨_, 0, (add_zero _).symm⟩

omit [Inhabited V] in
theorem lighter_of_ending {e e' : Ending V} (frame : Frame V N S) {n : Next V N S}
    (load : n.state.load = s.load) (doing : n.doing = .ended e') :
    Lighter (n.weight t) (s.weight t (.ended e) (frame :: n.frames)) := by
  obtain ⟨a, dropped, was⟩ := frame.load_eq
  refine lighter_of_frame [] a dropped ?_ load rfl ?_
  · rw [was, loadOf_nil, add_zero]
  · simp [doing, Doing.load]

theorem lighter_of_receive (tame : s.Tame) (frame : Frame V N S) (e : Ending V)
    (fs : List (Frame V N S)) :
    Lighter ((s.receive t frame e fs).weight t) (s.weight t (.ended e) (frame :: fs)) := by
  have on {n : Next V N S} {a : Token V N S} (was : frame.load = {a})
      (load : n.state.load = s.load) (below : a.Over (n.doing.load n.state t)) :
      Lighter (n.weight t) (s.weight t (.ended e) (frame :: n.frames)) :=
    lighter_of_frame [] a 0 (by rw [was, loadOf_nil, add_zero, add_zero]) load rfl below
  cases frame with
  | resume p =>
    have run : (Token.later p).Over {.run p} := Token.over_singleton.mpr (Token.run_below rfl)
    cases e with
    | panicked payload => exact lighter_of_ending _ rfl rfl
    | _ => exact on rfl rfl run
  | finishing c result =>
    cases e with
    | _ => exact lighter_of_ending _ rfl rfl
  | draining c =>
    have loop : (Token.part 2).Over ({.part 1} : Multiset (Token V N S)) :=
      Token.over_singleton.mpr (Token.part_below (by decide : 1 < 2))
    cases e with
    | panicked payload => exact lighter_of_ending _ rfl rfl
    | _ => exact on rfl rfl loop
  | capturing result =>
    have decides : (Token.part 6).Over ({.part 5} : Multiset (Token V N S)) :=
      Token.over_singleton.mpr (Token.part_below (by decide : 5 < 6))
    cases e with
    | _ => exact on rfl rfl decides
  | guarding k =>
    have run : (Token.answer k 10).Over {.run (k e)} :=
      Token.over_singleton.mpr (Token.run_below ⟨e, rfl⟩)
    exact on rfl rfl run
  | waking x ws =>
    cases ws with
    | nil =>
      cases e with
      | _ => exact lighter_of_ending _ rfl rfl
    | cons w ws =>
      have code : (s.wakers.getD w (.ret default)).PollFree := by
        rw [Array.getD_eq_getD_getElem?]
        cases found : s.wakers[w]? with
        | none => exact .of (fun no => no) fun _ no => no.elim
        | some p => exact tame w p found
      have run : Token.wake.Over {.run (s.wakers.getD w (.ret default))} :=
        Token.over_singleton.mpr (Token.run_below code)
      have was : (Frame.waking (V := V) (N := N) (S := S) x (w :: ws)).load =
          {.wake} + 0 + loadOf [.waking x ws] := by
        simp only [Frame.load, List.length_cons, Multiset.replicate_succ, loadOf_cons, loadOf_nil,
          ← Multiset.singleton_add]
        abel
      cases e with
      | panicked payload => exact lighter_of_ending _ rfl rfl
      | _ => exact lighter_of_frame [.waking x ws] .wake 0 was rfl rfl run

omit [Inhabited V] in
theorem lighter_of_perform {p : Prog V N S} {fs : List (Frame V N S)} {n : Next V N S}
    (moved : s.perform t p fs = some n) : Lighter (n.weight t) (s.weight t (.run p) fs) := by
  have waits {α : Type} {k : α → Prog V N S} {n : Next V N S} {m : Nat}
      (load : n.state.load = s.load) (answers : n.doing.load n.state t = {.answer k m})
      (early : m < 20) (children : ∀ a, (k a).Child p) :
      Lighter (n.weight t) (s.weight t (.run p) n.frames) := by
    have below : (Token.answer k m).Below (.run p) :=
      Token.below_run (fun q ⟨a, same⟩ => same ▸ children a) early
    refine lighter_of_same rfl load ?_
    rw [answers]
    exact Token.over_singleton.mpr below
  have on {q : Prog V N S} {n : Next V N S} (child : q.Child p) (load : n.state.load = s.load)
      (doing : n.doing = .run q) : Lighter (n.weight t) (s.weight t (.run p) n.frames) :=
    lighter_of_child child load doing
  cases p with
  | ret v => cases moved; exact lighter_of_same rfl rfl (Token.over_zero _)
  | err failure => cases moved; exact lighter_of_same rfl rfl (Token.over_zero _)
  | panic payload => cases moved; exact lighter_of_same rfl rfl (Token.over_zero _)
  | newCell start k =>
    cases start with
    | none => cases moved; exact on ⟨_, rfl⟩ (State.load_addCell s rfl) rfl
    | some a => cases moved; exact on ⟨_, rfl⟩ (State.load_addCell s rfl) rfl
  | decide c a k =>
    simp only [State.perform] at moved
    split at moved
    next => cases moved; exact waits (k := k) rfl rfl (by decide) fun b => ⟨b, rfl⟩
    next => cases moved; exact on ⟨_, rfl⟩ rfl rfl
  | settle e a k => cases moved; exact waits (k := k) rfl rfl (by decide) fun b => ⟨b, rfl⟩
  | get c k => cases moved; exact waits (k := k) rfl rfl (by decide) fun r => ⟨r, rfl⟩
  | getTimeout c limit k => cases moved; exact waits (k := k) rfl rfl (by decide) fun r => ⟨r, rfl⟩
  | chain c body k =>
    have part (q) (code : (Task.chain s.cells.size body).Code q) : q.Child (.chain c body k) :=
      Or.inl code
    cases moved
    exact lighter_of_register rfl c part (Or.inr ⟨_, rfl⟩) fs
  | transform c f k =>
    have part (q) (code : (Task.transform s.cells.size f).Code q) : q.Child (.transform c f k) :=
      Or.inl code
    cases moved
    exact lighter_of_register rfl c part (Or.inr ⟨_, rfl⟩) fs
  | relay c k =>
    have part (q : Prog V N S) (code : (Task.relay s.cells.size s.externals.size).Code q) :
        q.Child (.relay c k) := False.elim code
    have load : (s.addExternal.log t (.bridged c s.externals.size)).load = s.load :=
      State.load_addExternal s
    cases moved
    exact lighter_of_register load c part ⟨_, rfl⟩ fs
  | newExternal k => cases moved; exact on ⟨_, rfl⟩ (State.load_addExternal s) rfl
  | poll e w k => cases moved; exact lighter_of_pollExternal e w k fs
  | newWaker onWake k => cases moved; exact on (Or.inr ⟨_, rfl⟩) rfl rfl
  | guarded body k =>
    have run : (Token.run body).Below (.run (.guarded body k)) := Token.run_below_run (Or.inl rfl)
    have later : (Token.answer k 10).Below (.run (.guarded body k)) :=
      Token.below_run (fun q code => Or.inr code) (by decide : 10 < 20)
    cases moved
    refine lighter_of_doing rfl 0 (add_zero _).symm [.guarding k] rfl ?_
    simpa [Doing.load, Frame.load] using ⟨run, later⟩
  | spawn name body k => cases moved; exact on (Or.inr ⟨_, rfl⟩) rfl rfl
  | join u k =>
    obtain ⟨e, -, same⟩ := Option.map_eq_some_iff.mp moved
    cases same
    exact on ⟨e, rfl⟩ rfl rfl
  | note m k => cases moved; exact on rfl rfl rfl
  | update f k => cases moved; exact on rfl rfl rfl
  | _ => cases moved; exact on ⟨_, rfl⟩ rfl rfl

/-- Each step takes a token away and brings lighter ones. -/
theorem lighter_of_next (tame : s.Tame) {d : Doing V N S} {fs : List (Frame V N S)} {n : Next V N S}
    (moved : s.next t d fs = some n) : Lighter (n.weight t) (s.weight t d fs) := by
  cases d with
  | run p => exact lighter_of_perform moved
  | deciding c o k => cases moved; exact lighter_of_decideCell c o k fs
  | announcing c kind queued =>
    cases moved
    have below : (Token.part 3).Over ({.part 1} : Multiset (Token V N S)) :=
      Token.over_singleton.mpr (Token.part_below (by decide : 1 < 3))
    exact lighter_of_same rfl (State.load_keepQueue s c (f := Cell.notifyAll) fun _ => rfl) below
  | draining c => cases moved; exact lighter_of_drain c fs
  | starting c task => cases moved; exact lighter_of_startTask c task fs
  | relaying c e =>
    simp only [State.next] at moved
    split at moved
    next => cases moved; exact lighter_of_same rfl rfl (Token.over_zero _)
    next =>
      cases moved
      exact lighter_of_same rfl rfl
        (Token.over_singleton.mpr (Token.part_below (by decide : 5 < 6)))
  | settling e r k => cases moved; exact lighter_of_settleExternal e r k fs
  | checking w => exact lighter_of_check moved
  | asleep w =>
    simp only [State.next] at moved
    split at moved
    next awake =>
      cases moved
      have below : (Token.answer w.resume 12).Below (.answer w.resume 13) :=
        Or.inl ⟨fun _ code => code, (by decide : 12 < 13)⟩
      exact lighter_of_same (by simp [Doing.load, awake]) rfl (Token.over_singleton.mpr below)
    next => cases moved
  | expired c limit k => cases moved; exact lighter_of_giveUp c limit k fs
  | ended e =>
    cases fs with
    | nil => cases moved
    | cons frame rest => cases moved; exact lighter_of_receive tame frame e rest

def State.weightOf (s : State V N S) (t : ThreadId) : Multiset (Token V N S) :=
  match s.threads[t]? with
  | none => 0
  | some thread => s.weight t thread.doing thread.frames

theorem lighter_of_step (tame : s.Tame) (moved : s.step t = some s') :
    Lighter (s'.weightOf t) (s.weightOf t) := by
  unfold State.step at moved
  split at moved
  next => cases moved
  next thread found =>
    obtain ⟨n, next, same⟩ := Option.map_eq_some_iff.mp moved
    let thread' : Thread V N S := ⟨thread.name, n.doing, n.frames⟩
    have after : (n.state.setThread t thread').threads[t]? = some thread' :=
      thread_after (transition_of_next next) found
    have lighter := lighter_of_next tame next
    rw [← same, State.weightOf, State.weightOf, after, found]
    exact lighter

/-- Code of a program waits for a cell to be decided, or for a thread to end. -/
def Doing.Waits : Doing V N S → Prop
  | .checking _ | .asleep _ | .run (.join _ _) => True
  | _ => False

theorem waits_of_next {d : Doing V N S} {fs : List (Frame V N S)} (stuck : s.next t d fs = none) :
    d.Waits ∨ ∃ e, d = .ended e ∧ fs = [] := by
  cases d with
  | checking w => exact Or.inl trivial
  | asleep w => exact Or.inl trivial
  | run p =>
    cases p with
    | join u k => exact Or.inl trivial
    | newCell start k => cases start <;> cases stuck
    | decide c a k =>
      simp only [State.next, State.perform] at stuck
      split at stuck <;> cases stuck
    | _ => cases stuck
  | relaying c e =>
    simp only [State.next] at stuck
    split at stuck <;> cases stuck
  | ended e =>
    cases fs with
    | nil => exact Or.inr ⟨e, rfl, rfl⟩
    | cons frame rest => cases stuck
  | _ => cases stuck

end Inhabited
end Oneshot
