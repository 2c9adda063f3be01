import Oneshot.Proofs.Origins

/-! # Bridges

The history records which cell an external future was bridged from.  Whatever settles an external
future without being asked to carries the outcome of that one cell (`wellBridged_of_reachable`). -/
set_option autoImplicit false
namespace Oneshot
variable {V N S : Type}

namespace State
variable {s s' : State V N S}

/-- The history says that `e` was bridged from the cell `c`. -/
def Bridges (s : State V N S) (c : CellId) (e : ExternalId) : Prop :=
  ∃ t, ⟨t, .bridged c e⟩ ∈ s.history

theorem bridged_log {t : ThreadId} {event : Event N} {c : CellId} {e : ExternalId} :
    (s.log t event).Bridges c e ↔ event = .bridged c e ∨ s.Bridges c e := by
  constructor
  · rintro ⟨u, member⟩
    rcases List.mem_cons.mp member with same | before
    · exact Or.inl (congrArg Entry.event same).symm
    · exact Or.inr ⟨u, before⟩
  · rintro (rfl | ⟨u, before⟩)
    · exact ⟨t, List.mem_cons_self ..⟩
    · exact ⟨u, List.mem_cons_of_mem _ before⟩

end State

section Inhabited
variable [Inhabited V] {s s' : State V N S} {t : ThreadId} {d : Doing V N S} {fs : List (Frame V N S)}
  {n : Next V N S}

omit [Inhabited V] in
theorem bridged_of_register {b c : CellId} {e : ExternalId} {task : Task V N S} {p : Prog V N S} :
    (s.register t b task p fs).state.Bridges c e ↔ s.Bridges c e := by
  unfold State.register
  split
  next => exact Iff.rfl
  next =>
    split
    next => exact State.bridged_log.trans (by simp; rfl)
    next => exact State.bridged_log.trans (by simp [State.bridged_log]; rfl)

omit [Inhabited V] in
theorem bridged_of_perform {p : Prog V N S} (moved : s.perform t p fs = some n)
    (other : ∀ b k, p ≠ .relay b k) {c : CellId} {e : ExternalId} :
    n.state.Bridges c e ↔ s.Bridges c e := by
  cases p with
  | newCell start k => cases start <;> cases moved <;> exact Iff.rfl
  | decide b a k =>
    simp only [State.perform] at moved
    split at moved <;> cases moved <;> exact Iff.rfl
  | chain b body k =>
    cases moved
    exact bridged_of_register
  | transform b f k =>
    cases moved
    exact bridged_of_register
  | relay b k => exact absurd rfl (other b k)
  | poll x w k =>
    cases moved
    unfold State.pollExternal
    split
    next => exact Iff.rfl
    next =>
      split
      next => exact Iff.rfl
      next => exact State.bridged_log.trans (by simp; rfl)
  | join u k =>
    obtain ⟨ending, -, rfl⟩ := Option.map_eq_some_iff.mp moved
    exact Iff.rfl
  | note x k =>
    cases moved
    exact State.bridged_log.trans (by simp)
  | _ =>
    cases moved
    exact Iff.rfl

/-- Only the call that makes a bridge records one. -/
theorem bridged_of_other (moved : s.next t d fs = some n) (other : ∀ b k, d ≠ .run (.relay b k))
    {c : CellId} {e : ExternalId} : n.state.Bridges c e ↔ s.Bridges c e := by
  have log {s₀ : State V N S} {event : Event N} (same : s₀.history = s.history)
      (other : event ≠ .bridged c e) : (s₀.log t event).Bridges c e ↔ s.Bridges c e := by
    rw [State.bridged_log, or_iff_right other, State.Bridges, same, State.Bridges]
  have runs {p : Prog V N S} (own : d = .run p) : n.state.Bridges c e ↔ s.Bridges c e := by
    subst own
    exact bridged_of_perform moved fun b k same => other b k (congrArg Doing.run same)
  cases transition_of_next moved with
  | plain was _ _ =>
    cases d with
    | run p => exact runs rfl
    | checking w =>
      obtain ⟨cell, -, ⟨-, same⟩ | ⟨o, -, same⟩⟩ := check_cases moved <;> cases same <;> exact Iff.rfl
    | asleep w =>
      obtain ⟨-, same⟩ := notified_of_next moved
      cases same
      exact Iff.rfl
    | expired b limit k =>
      have given := Option.some.inj moved
      unfold State.giveUp at given
      split at given
      next => exact given ▸ Iff.rfl
      next => exact given ▸ log rfl fun same => by cases same
    | _ => exact was.elim
  | strays _ => exact runs rfl
  | queues _ _ _ _ => exact runs rfl
  | inlines _ _ _ _ => exact runs rfl
  | @loses b o k _ _ _ _ =>
    have given := Option.some.inj moved
    unfold State.decideCell at given
    split at given
    next => exact given ▸ Iff.rfl
    next =>
      split at given
      next => exact given ▸ log rfl fun same => by cases same
      next => exact given ▸ Iff.rfl
  | @refuses x r k _ _ _ _ =>
    have given := Option.some.inj moved
    unfold State.settleExternal at given
    split at given
    next => exact given ▸ Iff.rfl
    next =>
      split at given
      next => exact given ▸ log rfl fun same => by cases same
      next => exact given ▸ log rfl fun same => by cases same
  | @captures ending =>
    cases ending with
    | value v => exact Iff.rfl
    | failed failure => exact log rfl fun same => by cases same
    | panicked payload => exact log rfl fun same => by cases same
  | announces => exact log rfl fun same => by cases same
  | takes _ _ => exact log rfl fun same => by cases same
  | handsOn => exact log rfl fun same => by cases same
  | settles _ _ => exact log rfl fun same => by cases same
  | finishes _ => exact log rfl fun same => by cases same
  | wakes _ => exact log rfl fun same => by cases same
  | _ => exact Iff.rfl

theorem bridged_of_next (moved : s.next t d fs = some n) {c : CellId} {e : ExternalId} :
    n.state.Bridges c e ↔ s.Bridges c e ∨ (∃ k, d = .run (.relay c k)) ∧ e = s.externals.size := by
  by_cases bridges : ∃ b k, d = .run (.relay b k)
  · obtain ⟨b, k, rfl⟩ := bridges
    cases moved
    refine bridged_of_register.trans (State.bridged_log.trans ⟨?_, ?_⟩)
    · rintro (same | before)
      · cases same
        exact Or.inr ⟨⟨k, rfl⟩, rfl⟩
      · exact Or.inl before
    · rintro (before | ⟨⟨k', same⟩, rfl⟩)
      · exact Or.inr before
      · cases same
        exact Or.inl rfl
  · rw [bridged_of_other moved fun b k same => bridges ⟨b, k, same⟩]
    exact ⟨Or.inl, fun either => either.resolve_right fun new => bridges ⟨c, new.1⟩⟩

theorem externals_of_relay {c : CellId} {k : ExternalId → Prog V N S}
    (moved : s.next t (.run (.relay c k)) fs = some n) :
    n.state.externals = s.externals.push .new := by
  cases moved
  exact (register_same (s.addExternal.log t (.bridged c s.externals.size)) t c _ _ fs).1

/-- What `doing` is about to pass on to an external future is the outcome that it was bridged from. -/
def Doing.Ferries (s : State V N S) : Doing V N S → Prop
  | .starting c (.relay _ e) | .relaying c e => s.Bridges c e
  | .settling e r none => ∃ c, s.Bridges c e ∧ s.holds? (.cell c) = some r
  | _ => True

omit [Inhabited V] in
theorem Doing.Ferries.mono (ferries : d.Ferries s) (later : Extends s s')
    (bridged : ∀ c e, s.Bridges c e → s'.Bridges c e) : d.Ferries s' := by
  cases d with
  | starting c task =>
    cases task with
    | relay r e => exact bridged c e ferries
    | _ => trivial
  | relaying c e => exact bridged c e ferries
  | settling e r k =>
    cases k with
    | none =>
      obtain ⟨c, known, held⟩ := ferries
      exact ⟨c, bridged c e known, later.holds held⟩
    | some k => trivial
  | _ => trivial

/-- Every external future is bridged from one cell at most, and what is on its way to it comes from
there. -/
structure WellBridged (s : State V N S) : Prop where
  inside : ∀ c e, s.Bridges c e → e < s.externals.size
  unique : ∀ c c' e, s.Bridges c e → s.Bridges c' e → c = c'
  queued : ∀ c r e, Task.relay r e ∈ s.queueOf c → s.Bridges c e
  threads : ∀ (t : ThreadId) (thread : Thread V N S), s.threads[t]? = some thread →
    thread.doing.Ferries s

theorem ferries_of_starting (moved : s.next t d fs = some n) (bridging : WellBridged s) {c : CellId}
    {task : Task V N S} (starting : n.doing = .starting c task) :
    (Doing.starting c task).Ferries n.state := by
  cases task with
  | relay r e =>
    rcases starting_of_next moved starting with ⟨-, member⟩ | ⟨p, rfl, registers⟩
    · exact (bridged_of_next moved).mpr (Or.inl (bridging.queued c r e member))
    · cases p with
      | relay b k =>
        cases registers
        exact (bridged_of_next moved).mpr (Or.inr ⟨⟨k, rfl⟩, rfl⟩)
      | _ => cases registers
  | _ => trivial

theorem ferries_of_next (moved : s.next t d fs = some n) (bridging : WellBridged s)
    (ferries : d.Ferries s) : n.doing.Ferries n.state := by
  cases transition_of_next moved with
  | @plain _ d' _ _ _ is _ =>
    rcases is with plain | ⟨e, rfl⟩
    · cases d' <;> trivial
    · trivial
  | inlines _ _ _ _ => exact ferries_of_starting moved bridging rfl
  | takes _ _ => exact ferries_of_starting moved bridging rfl
  | beginsRelay => exact ferries
  | @relays c e _ o decided =>
    refine ⟨c, ferries, ?_⟩
    rw [State.holds?, decided]
    rfl
  | @loses _ _ k => cases k <;> trivial
  | @refuses _ _ k => cases k <;> trivial
  | _ => trivial

theorem wellBridged_of_step (moved : s.step t = some s') (bridging : WellBridged s) :
    WellBridged s' := by
  obtain ⟨thread, n, found, next, rfl⟩ := next_of_step moved
  have transition := transition_of_next next
  have later := extends_of_transition transition
  have bridged {c : CellId} {e : ExternalId} := bridged_of_next (c := c) (e := e) next
  refine ⟨?_, ?_, ?_, ?_⟩
  · intro c e known
    rcases bridged.mp known with before | ⟨⟨k, relays⟩, rfl⟩
    · exact Nat.lt_of_lt_of_le (bridging.inside c e before) later.externals
    · rw [relays] at next
      have more : s.externals.size < n.state.externals.size := by
        rw [externals_of_relay next, Array.size_push]
        exact Nat.lt_succ_self _
      exact more
  · intro c c' e known known'
    rcases bridged.mp known with before | ⟨⟨k, relays⟩, rfl⟩
    · rcases bridged.mp known' with before' | ⟨-, rfl⟩
      · exact bridging.unique c c' e before before'
      · exact absurd (bridging.inside c _ before) (Nat.lt_irrefl _)
    · rcases bridged.mp known' with before' | ⟨⟨k', relays'⟩, -⟩
      · exact absurd (bridging.inside c' _ before') (Nat.lt_irrefl _)
      · cases relays.symm.trans relays'
        rfl
  · intro c r e member
    refine bridged.mpr ?_
    rcases queued_of_next next member with before | ⟨p, same, registers⟩
    · exact Or.inl (bridging.queued c r e before)
    · cases p with
      | relay b k =>
        cases registers
        exact Or.inr ⟨⟨k, same⟩, rfl⟩
      | _ => cases registers
  · intro u thread' found'
    rcases thread_before found transition found' with ⟨rfl, rfl⟩ | ⟨-, before | ⟨name, body, rfl⟩⟩
    · exact ferries_of_next next bridging (bridging.threads u thread found)
    · exact (bridging.threads u thread' before).mono (later.of_same rfl rfl)
        fun c e known => bridged.mpr (Or.inl known)
    · trivial

theorem wellBridged_of_move {m : Move} (moved : s.move m = some s') (bridging : WellBridged s) :
    WellBridged s' := by
  rcases step_or_lull moved with ⟨t, rfl⟩ | lull
  · exact wellBridged_of_step moved bridging
  · have same {c : CellId} {e : ExternalId} : s'.Bridges c e ↔ s.Bridges c e := by
      rw [State.Bridges, lull.history, State.Bridges]
    have later : Extends s s' := extends_of_advance (advance_of_move moved)
    refine ⟨?_, ?_, ?_, ?_⟩
    · intro c e known
      rw [lull.externals]
      exact bridging.inside c e (same.mp known)
    · exact fun c c' e known known' => bridging.unique c c' e (same.mp known) (same.mp known')
    · intro c r e member
      rw [lull.queueOf] at member
      exact same.mpr (bridging.queued c r e member)
    · intro t thread found
      rcases lull.threads t thread found with before | ⟨c, limit, k, expired⟩
      · exact (bridging.threads t thread before).mono later fun c e => same.mpr
      · rw [expired]
        trivial

theorem wellBridged_of_reachable (reachable : Reachable s) : WellBridged s := by
  obtain ⟨client, p, reached⟩ := reachable
  refine reached.induct (P := WellBridged) ?_ fun _ _ _ bridging moved =>
    wellBridged_of_move moved bridging
  have none {c : CellId} {e : ExternalId} : ¬ (State.start (N := N) client p).Bridges c e := by
    rintro ⟨t, member⟩
    cases member
  refine ⟨fun c e known => (none known).elim, fun c c' e known => (none known).elim, ?_, ?_⟩
  · intro c r e member
    simp [State.start, State.queueOf] at member
  · intro t thread found
    rw [thread_of_start found]
    trivial

theorem bridged_of_reaches {c : CellId} {e : ExternalId} (reached : Reaches s s')
    (bridged : s.Bridges c e) : s'.Bridges c e := by
  refine reached.induct (P := fun s => s.Bridges c e) bridged fun s m s' known moved => ?_
  rcases step_or_lull moved with ⟨t, rfl⟩ | lull
  · obtain ⟨thread, n, found, next, rfl⟩ := next_of_step moved
    exact (bridged_of_next next).mpr (Or.inl known)
  · rw [State.Bridges, lull.history]
    exact known

/-- An external future that settles without being asked to gets the outcome of its cell. -/
theorem reading_of_bridge (reachable : Reachable s) {c : CellId} {e : ExternalId}
    (bridged : s.Bridges c e) {t : ThreadId} {thread : Thread V N S}
    (found : s.threads[t]? = some thread) {r : Reading V}
    (settling : thread.doing = .settling e r none) : s.holds? (.cell c) = some r := by
  have bridging := wellBridged_of_reachable reachable
  have ferries := bridging.threads t thread found
  rw [settling] at ferries
  obtain ⟨b, known, held⟩ := ferries
  rwa [bridging.unique c b e bridged known]

end Inhabited
end Oneshot
