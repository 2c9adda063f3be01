import Oneshot.Proofs.Permanence

/-! # What a step leaves alone

Only some steps enter a cell, and only some have to do with external futures and their wakers.  Every
other step leaves the cells, or the external futures, as they are (`untouched_of_next`), and time passes
only on its own. -/
set_option autoImplicit false
namespace Oneshot
variable {V N S : Type}

def Prog.MakesCell : Prog V N S → Prop
  | .newCell _ _ | .chain _ _ _ | .transform _ _ _ | .relay _ _ => True
  | _ => False

/-- The next step may enter the critical section of a cell, or make one. -/
def Doing.Touches : Doing V N S → Prop
  | .run p => p.MakesCell
  | .deciding _ _ _ | .announcing _ _ _ | .draining _ | .checking _ => True
  | _ => False

def Prog.Rings : Prog V N S → Prop
  | .newExternal _ | .relay _ _ | .poll _ _ _ => True
  | _ => False

/-- The next step has to do with an external future, or with the loop that wakes its wakers. -/
def Doing.Rings (fs : List (Frame V N S)) : Doing V N S → Prop
  | .run p => p.Rings
  | .settling _ _ _ => True
  | .ended _ =>
    match fs with
    | .waking _ _ :: _ => True
    | _ => False
  | _ => False

/-- What the history says of an external future. -/
inductive Ring
  | parked (w : WakerId)
  | resolved
  | woke (w : WakerId)
  deriving DecidableEq

def Event.ring? {N : Type} : Event N → Option (ExternalId × Ring)
  | .parked e w => some (e, .parked w)
  | .resolved e _ => some (e, .resolved)
  | .woke e w => some (e, .woke w)
  | _ => none

/-- The wakers that loops on these frames have yet to wake for `e`, innermost first. -/
def wakingsOf (e : ExternalId) : List (Frame V N S) → List (List WakerId)
  | [] => []
  | .waking x ws :: fs => if x = e then ws :: wakingsOf e fs else wakingsOf e fs
  | _ :: fs => wakingsOf e fs

/-- `s'` records more than `s`, and nothing of that is about external futures. -/
def Unrung (s s' : State V N S) : Prop :=
  ∃ entries, s'.history = entries ++ s.history ∧ ∀ entry ∈ entries, entry.event.ring? = none

theorem Unrung.refl (s : State V N S) : Unrung s s := ⟨[], rfl, by simp⟩

theorem Unrung.log {s s' : State V N S} (unrung : Unrung s s') (t : ThreadId) {event : Event N}
    (other : event.ring? = none) : Unrung s (s'.log t event) := by
  obtain ⟨entries, history, others⟩ := unrung
  refine ⟨⟨t, event⟩ :: entries, congrArg (_ :: ·) history, ?_⟩
  intro entry member
  rcases List.mem_cons.mp member with rfl | before
  · exact other
  · exact others entry before

/-- What the step from `s` to `n` of a thread that does `d` above `fs` leaves alone. -/
structure Untouched (s : State V N S) (d : Doing V N S) (fs : List (Frame V N S)) (n : Next V N S) :
    Prop where
  now : n.state.now = s.now
  cells : ¬ d.Touches → n.state.cells = s.cells
  externals : ¬ d.Rings fs → n.state.externals = s.externals
  unrung : ¬ d.Rings fs → Unrung s n.state
  wakings : ¬ d.Rings fs → ∀ e, wakingsOf e n.frames = wakingsOf e fs

section Inhabited
variable [Inhabited V] {s : State V N S} {t : ThreadId} {d : Doing V N S} {fs : List (Frame V N S)}
  {n : Next V N S}

omit [Inhabited V] in
theorem untouched_of_unrung (now : n.state.now = s.now) (cells : ¬ d.Touches → n.state.cells = s.cells)
    (externals : n.state.externals = s.externals) (unrung : Unrung s n.state)
    (wakings : ∀ e, wakingsOf e n.frames = wakingsOf e fs) : Untouched s d fs n :=
  ⟨now, cells, fun _ => externals, fun _ => unrung, fun _ => wakings⟩

omit [Inhabited V] in
theorem untouched_of_same (same : n.state = s) (wakings : ∀ e, wakingsOf e n.frames = wakingsOf e fs) :
    Untouched s d fs n := by
  refine untouched_of_unrung ?_ (fun _ => ?_) ?_ ?_ wakings
  · rw [same]
  · rw [same]
  · rw [same]
  · rw [same]
    exact Unrung.refl s

omit [Inhabited V] in
theorem unrung_register (s : State V N S) (t : ThreadId) (c : CellId) (task : Task V N S)
    (p : Prog V N S) (fs : List (Frame V N S)) : Unrung s (s.register t c task p fs).state := by
  unfold State.register
  split
  next => exact Unrung.refl s
  next =>
    split
    next => exact (Unrung.refl s).log t rfl
    next => exact ((Unrung.refl s).log t rfl).log t rfl

omit [Inhabited V] in
theorem register_aside (s : State V N S) (t : ThreadId) (c : CellId) (task : Task V N S)
    (p : Prog V N S) (fs : List (Frame V N S)) :
    (s.register t c task p fs).state.now = s.now ∧
      ∀ e, wakingsOf e (s.register t c task p fs).frames = wakingsOf e fs := by
  unfold State.register
  split
  next => exact ⟨rfl, fun _ => rfl⟩
  next =>
    split
    next => exact ⟨rfl, fun _ => rfl⟩
    next => exact ⟨rfl, fun _ => rfl⟩

omit [Inhabited V] in
theorem untouched_of_perform {p : Prog V N S} (moved : s.perform t p fs = some n) :
    Untouched s (.run p) fs n := by
  have registers {p : Prog V N S} (c : CellId) (task : Task V N S) (q : Prog V N S)
      (makes : p.MakesCell) : Untouched s (.run p) fs (s.register t c task q fs) :=
    untouched_of_unrung (register_aside s t c task q fs).1 (fun aside => absurd makes aside)
      (register_same s t c task q fs).1 (unrung_register s t c task q fs)
      (register_aside s t c task q fs).2
  cases p with
  | newCell start k =>
    cases start <;> cases moved <;>
      exact untouched_of_unrung rfl (fun aside => absurd trivial aside) rfl (Unrung.refl s) fun _ => rfl
  | decide c a k =>
    simp only [State.perform] at moved
    split at moved <;> cases moved <;>
      exact untouched_of_unrung rfl (fun _ => rfl) rfl (Unrung.refl s) fun _ => rfl
  | chain c body k =>
    cases moved
    exact registers c _ _ trivial
  | transform c f k =>
    cases moved
    exact registers c _ _ trivial
  | relay c k =>
    cases moved
    exact ⟨(register_aside (s.addExternal.log t (.bridged c s.externals.size)) t c _ _ fs).1,
      fun aside => absurd trivial aside, fun aside => absurd trivial aside,
      fun aside => absurd trivial aside, fun aside => absurd trivial aside⟩
  | newExternal k =>
    cases moved
    exact ⟨rfl, fun _ => rfl, fun aside => absurd trivial aside, fun aside => absurd trivial aside,
      fun aside => absurd trivial aside⟩
  | poll e w k =>
    cases moved
    have same : (s.pollExternal t e w k fs).state.now = s.now ∧
        (s.pollExternal t e w k fs).state.cells = s.cells := by
      unfold State.pollExternal
      split
      next => exact ⟨rfl, rfl⟩
      next => split <;> exact ⟨rfl, rfl⟩
    exact ⟨same.1, fun _ => same.2, fun aside => absurd trivial aside,
      fun aside => absurd trivial aside, fun aside => absurd trivial aside⟩
  | join u k =>
    obtain ⟨e, _, rfl⟩ := Option.map_eq_some_iff.mp moved
    exact untouched_of_same rfl fun _ => rfl
  | note n k =>
    cases moved
    exact untouched_of_unrung rfl (fun _ => rfl) rfl ((Unrung.refl s).log t rfl) fun _ => rfl
  | _ =>
    cases moved
    exact untouched_of_unrung rfl (fun _ => rfl) rfl (Unrung.refl s) fun _ => rfl

theorem untouched_of_decideCell (c : CellId) (o : Outcome V) (k : Option (Bool → Prog V N S)) :
    Untouched s (.deciding c o k) fs (s.decideCell t c o k fs) := by
  unfold State.decideCell
  split
  next => exact untouched_of_same rfl fun _ => rfl
  next =>
    split
    next => exact untouched_of_unrung rfl (fun _ => rfl) rfl ((Unrung.refl s).log t rfl) fun _ => rfl
    next =>
      refine untouched_of_unrung rfl (fun aside => absurd trivial aside) rfl (Unrung.refl s) fun e => ?_
      cases k <;> rfl

theorem untouched_of_drain (c : CellId) : Untouched s (.draining c) fs (s.drain t c fs) := by
  unfold State.drain
  split
  next => exact untouched_of_same rfl fun _ => rfl
  next =>
    split
    next =>
      exact untouched_of_unrung rfl (fun aside => absurd trivial aside) rfl (Unrung.refl s) fun _ => rfl
    next =>
      exact untouched_of_unrung rfl (fun aside => absurd trivial aside) rfl
        ((Unrung.refl s).log t rfl) fun _ => rfl

omit [Inhabited V] in
theorem untouched_of_startTask (c : CellId) (task : Task V N S) :
    Untouched s (.starting c task) fs (s.startTask t c task fs) := by
  cases task with
  | chain result body => exact untouched_of_same rfl fun _ => rfl
  | relay result e => exact untouched_of_same rfl fun _ => rfl
  | transform result f =>
    simp only [State.startTask]
    split
    next => exact untouched_of_same rfl fun _ => rfl
    next => exact untouched_of_same rfl fun _ => rfl
    next => exact untouched_of_unrung rfl (fun _ => rfl) rfl ((Unrung.refl s).log t rfl) fun _ => rfl

theorem untouched_of_settleExternal (e : ExternalId) (r : Reading V)
    (k : Option (Bool → Prog V N S)) :
    Untouched s (.settling e r k) fs (s.settleExternal t e r k fs) := by
  have same : (s.settleExternal t e r k fs).state.now = s.now ∧
      (s.settleExternal t e r k fs).state.cells = s.cells := by
    unfold State.settleExternal
    split
    next => exact ⟨rfl, rfl⟩
    next => split <;> exact ⟨rfl, rfl⟩
  exact ⟨same.1, fun _ => same.2, fun aside => absurd trivial aside, fun aside => absurd trivial aside,
    fun aside => absurd trivial aside⟩

omit [Inhabited V] in
theorem untouched_of_check {w : Wait V N S} (moved : s.check t w fs = some n) :
    Untouched s (.checking w) fs n := by
  obtain ⟨cell, -, ⟨-, rfl⟩ | ⟨o, -, rfl⟩⟩ := check_cases moved
  · exact untouched_of_unrung rfl (fun aside => absurd trivial aside) rfl (Unrung.refl s) fun _ => rfl
  · exact untouched_of_same rfl fun _ => rfl

theorem untouched_of_receive (frame : Frame V N S) (e : Ending V) (rest : List (Frame V N S)) :
    Untouched s (.ended e) (frame :: rest) (s.receive t frame e rest) := by
  cases frame with
  | capturing result =>
    cases e with
    | value v => exact untouched_of_unrung rfl (fun _ => rfl) rfl (Unrung.refl s) fun _ => rfl
    | failed failure =>
      exact untouched_of_unrung rfl (fun _ => rfl) rfl ((Unrung.refl s).log t rfl) fun _ => rfl
    | panicked payload =>
      exact untouched_of_unrung rfl (fun _ => rfl) rfl ((Unrung.refl s).log t rfl) fun _ => rfl
  | waking x ws =>
    have same : (s.receive t (.waking x ws) e rest).state.now = s.now ∧
        (s.receive t (.waking x ws) e rest).state.cells = s.cells := by
      cases ws <;> cases e <;> exact ⟨rfl, rfl⟩
    exact ⟨same.1, fun _ => same.2, fun aside => absurd trivial aside,
      fun aside => absurd trivial aside, fun aside => absurd trivial aside⟩
  | finishing c result =>
    cases e with
    | panicked payload => exact untouched_of_same rfl fun _ => rfl
    | _ => exact untouched_of_unrung rfl (fun _ => rfl) rfl ((Unrung.refl s).log t rfl) fun _ => rfl
  | _ => cases e <;> exact untouched_of_same rfl fun _ => rfl

theorem untouched_of_next (moved : s.next t d fs = some n) : Untouched s d fs n := by
  cases d with
  | run p => exact untouched_of_perform moved
  | deciding c o k => cases moved; exact untouched_of_decideCell c o k
  | announcing c kind queued =>
    cases moved
    exact untouched_of_unrung rfl (fun aside => absurd trivial aside) rfl ((Unrung.refl s).log t rfl)
      fun _ => rfl
  | draining c => cases moved; exact untouched_of_drain c
  | starting c task => cases moved; exact untouched_of_startTask c task
  | relaying c e =>
    simp only [State.next] at moved
    split at moved <;> cases moved <;> exact untouched_of_same rfl fun _ => rfl
  | settling e r k => cases moved; exact untouched_of_settleExternal e r k
  | checking w => exact untouched_of_check moved
  | asleep w =>
    obtain ⟨-, rfl⟩ := notified_of_next moved
    exact untouched_of_same rfl fun _ => rfl
  | expired c limit k =>
    cases moved
    unfold State.giveUp
    split
    next => exact untouched_of_same rfl fun _ => rfl
    next => exact untouched_of_unrung rfl (fun _ => rfl) rfl ((Unrung.refl s).log t rfl) fun _ => rfl
  | ended e =>
    cases fs with
    | nil => cases moved
    | cons frame rest => cases moved; exact untouched_of_receive frame e rest

end Inhabited
end Oneshot
