import Oneshot.Proofs.Calls
import Oneshot.Proofs.Vigil

/-! # Who is woken

A poll of an unsettled external future stores its waker, unless it is stored already.  The call that
settles it takes all stored wakers out and wakes them one after the other, and each of them may poll and
settle in its turn.  As long as no wake panics, no waker is forgotten and none is woken twice
(`wakers_woken`).

A waker goes by the task that it wakes: of all that wake one task, only the first is stored
(`map_storeWaker`). -/
set_option autoImplicit false
namespace Oneshot
open Function (update)
variable {V N S : Type}

/-- The list of wakers of tasks, each of which `willWake` knows again. -/
def storeWaker {W : Type} (willWake : W → W → Bool) (stored : List W) (w : W) : List W :=
  if stored.any (willWake · w) then stored else stored ++ [w]

theorem map_storeWaker {W : Type} {willWake : W → W → Bool} {task : W → WakerId}
    (same : ∀ a b, willWake a b = true ↔ task a = task b) (stored : List W) (w : W) :
    (storeWaker willWake stored w).map task =
      ((⟨none, stored.map task⟩ : External V).park (task w)).wakers := by
  have known : stored.any (willWake · w) = true ↔ task w ∈ stored.map task := by
    simp only [List.any_eq_true, List.mem_map, same]
  unfold storeWaker External.park
  by_cases stored' : stored.any (willWake · w) = true
  · rw [if_pos stored', if_pos (known.mp stored')]
  · rw [if_neg stored', if_neg (fun member => stored' (known.mpr member)), List.map_append]
    rfl

theorem wakers_park (x : External V) (w : WakerId) :
    (x.park w).wakers = if w ∈ x.wakers then x.wakers else x.wakers ++ [w] := by
  unfold External.park
  split <;> rfl

def Entry.ring? (e : ExternalId) (entry : Entry N) : Option (ThreadId × Ring) :=
  match entry.event.ring? with
  | none => none
  | some (x, ring) => if x = e then some (entry.thread, ring) else none

namespace State

def stored (s : State V N S) (e : ExternalId) : List WakerId :=
  (s.externals[e]?.map External.wakers).getD []

def wakings (s : State V N S) (e : ExternalId) (t : ThreadId) : List (List WakerId) :=
  match s.threads[t]? with
  | none => []
  | some thread => wakingsOf e thread.frames

def rings (s : State V N S) (e : ExternalId) : List (ThreadId × Ring) :=
  s.history.reverse.filterMap (Entry.ring? e)

def watch (s : State V N S) (e : ExternalId) : Watch where
  settled := (s.settled? e).isSome
  stored := s.stored e
  wakings := s.wakings e
  trace := s.rings e

/-- A wake has panicked, and the panic is about to take the rest of the wakers with it. -/
def WakePanics (s : State V N S) : Prop :=
  ∃ (t : ThreadId) (name : Option String) (payload : Payload) (e : ExternalId) (ws : List WakerId)
    (fs : List (Frame V N S)),
    s.threads[t]? = some ⟨name, .ended (.panicked payload), .waking e ws :: fs⟩

theorem mem_rings {s : State V N S} {e : ExternalId} {t : ThreadId} {ring : Ring} :
    (t, ring) ∈ s.rings e ↔
      ∃ entry ∈ s.history, entry.thread = t ∧ entry.event.ring? = some (e, ring) := by
  simp only [rings, List.mem_filterMap, List.mem_reverse, Entry.ring?]
  constructor
  · rintro ⟨entry, member, found⟩
    split at found
    next => cases found
    next x r said =>
      split at found
      next same =>
        cases found
        exact ⟨entry, member, rfl, same ▸ said⟩
      next => cases found
  · rintro ⟨entry, member, rfl, said⟩
    exact ⟨entry, member, by simp [said]⟩

theorem rings_log (s : State V N S) (t : ThreadId) (event : Event N) {x : ExternalId} {ring : Ring}
    (said : event.ring? = some (x, ring)) (e : ExternalId) :
    (s.log t event).rings e = if e = x then s.rings e ++ [(t, ring)] else s.rings e := by
  by_cases same : e = x
  · subst same
    simp [rings, log, Entry.ring?, said]
  · simp [rings, log, Entry.ring?, said, same, Ne.symm same]

theorem rings_of_unrung {s s' : State V N S} (unrung : Unrung s s') (e : ExternalId) :
    s'.rings e = s.rings e := by
  obtain ⟨entries, history, others⟩ := unrung
  have none : entries.reverse.filterMap (Entry.ring? e) = [] := by
    rw [List.filterMap_eq_nil_iff]
    intro entry member
    simp [Entry.ring?, others entry (List.mem_reverse.mp member)]
  simp only [rings, history, List.reverse_append, List.filterMap_append, none, List.append_nil]

theorem wakings_push {s s' : State V N S} {name : Option String} {body : Prog V N S}
    (threads : s'.threads = s.threads.push ⟨name, .run body, []⟩) (e : ExternalId) :
    s'.wakings e = s.wakings e := by
  funext u
  simp only [wakings, threads, Array.getElem?_push]
  by_cases last : u = s.threads.size
  · subst last
    simp [wakingsOf]
  · simp [last]

theorem wakings_setThread {s : State V N S} {t : ThreadId} (member : t < s.threads.size)
    (thread : Thread V N S) (e : ExternalId) :
    (s.setThread t thread).wakings e = update (s.wakings e) t (wakingsOf e thread.frames) := by
  funext u
  simp only [wakings, getElem?_setThread]
  by_cases same : t = u
  · subst same
    simp [member]
  · simp [same, Function.update_of_ne (Ne.symm same), wakings]

theorem externals_addExternal (s : State V N S) (e : ExternalId) :
    s.addExternal.settled? e = s.settled? e ∧ s.addExternal.stored e = s.stored e := by
  simp only [settled?, stored, addExternal, Array.getElem?_push]
  split
  next last => simp [last, External.new]
  next => exact ⟨rfl, rfl⟩

theorem externals_modify {s : State V N S} {e : ExternalId} {x : External V}
    (found : s.externals[e]? = some x) (f : External V → External V) (b : ExternalId) :
    (s.modifyExternal e f).settled? b = (if b = e then (f x).value else s.settled? b) ∧
      (s.modifyExternal e f).stored b = (if b = e then (f x).wakers else s.stored b) := by
  simp only [settled?, stored, modifyExternal, Array.getElem?_modify]
  by_cases same : e = b
  · subst same
    simp [found]
  · simp [same, Ne.symm same]

end State

section Inhabited
variable [Inhabited V] {s s' : State V N S} {t : ThreadId} {e : ExternalId}

omit [Inhabited V] in
theorem wakingsOf_won (e : ExternalId) (k : Option (Bool → Prog V N S)) (fs : List (Frame V N S)) :
    wakingsOf e (won k ++ fs) = wakingsOf e fs := by
  cases k <;> rfl

def Next.watch (n : Next V N S) (s : State V N S) (t : ThreadId) (e : ExternalId) : Watch where
  settled := (n.state.settled? e).isSome
  stored := n.state.stored e
  wakings := update (s.wakings e) t (wakingsOf e n.frames)
  trace := n.state.rings e

theorem watch_after {thread : Thread V N S} (found : s.threads[t]? = some thread) {n : Next V N S}
    (transition : Transition s t thread.doing thread.frames n) (e : ExternalId) :
    (n.state.setThread t ⟨thread.name, n.doing, n.frames⟩).watch e = n.watch s t e := by
  have member := (Array.getElem?_eq_some_iff.mp (thread_of_transition transition found)).1
  have same : n.state.wakings e = s.wakings e := by
    rcases threads_of_transition transition with same | ⟨name, body, pushed⟩
    · funext u
      simp only [State.wakings, same]
    · exact State.wakings_push pushed e
  simp only [State.watch, State.wakings_setThread member, same]
  rfl

omit [Inhabited V] in
theorem turns_of_same {n : Next V N S} (settled : n.state.settled? e = s.settled? e)
    (stored : n.state.stored e = s.stored e) (wakings : wakingsOf e n.frames = s.wakings e t)
    (trace : n.state.rings e = s.rings e) : (s.watch e).Turns (n.watch s t e) := by
  have same : n.watch s t e = s.watch e := by
    simp only [Next.watch, State.watch, settled, stored, wakings, trace, Function.update_eq_self]
  rw [same]
  exact .still

omit [Inhabited V] in
theorem turns_of_unrung {n : Next V N S} (externals : n.state.externals = s.externals)
    (unrung : Unrung s n.state) (wakings : wakingsOf e n.frames = s.wakings e t) :
    (s.watch e).Turns (n.watch s t e) :=
  turns_of_same (by rw [State.settled?, State.settled?, externals])
    (by rw [State.stored, State.stored, externals]) wakings (State.rings_of_unrung unrung e)

omit [Inhabited V] in
theorem turns_of_pollExternal {fs : List (Frame V N S)} (own : s.wakings e t = wakingsOf e fs)
    (x : ExternalId) (w : WakerId) (k : Option (Reading V) → Prog V N S) :
    (s.watch e).Turns ((s.pollExternal t x w k fs).watch s t e) := by
  unfold State.pollExternal
  split
  next => exact turns_of_same rfl rfl own.symm rfl
  next y held =>
    split
    next => exact turns_of_same rfl rfl own.symm rfl
    next unsettled =>
      obtain ⟨settled, stored⟩ := State.externals_modify held (·.park w) e
      have rings := State.rings_log (s.modifyExternal x (·.park w)) t (.parked x w) rfl e
      by_cases same : e = x
      · subst same
        rw [if_pos rfl] at settled stored rings
        have before : s.settled? e = none := by simp [State.settled?, held, unsettled]
        have wakers : s.stored e = y.wakers := by simp [State.stored, held]
        have after : Next.watch
            ⟨(s.modifyExternal e (·.park w)).log t (.parked e w), .run (k none), fs⟩ s t e =
            { s.watch e with
              stored := if w ∈ s.stored e then s.stored e else s.stored e ++ [w]
              trace := s.rings e ++ [(t, .parked w)] } := by
          rw [External.value_park, unsettled] at settled
          rw [wakers_park, ← wakers] at stored
          simp only [Next.watch, State.watch, ← own, Function.update_eq_self, rings, before]
          exact congrArg₂ (fun a b => Watch.mk a b _ _) (congrArg Option.isSome settled) stored
        rw [after]
        exact .parks (by simp [State.watch, before])
      · rw [if_neg same] at settled stored rings
        exact turns_of_same settled stored own.symm rings

theorem turns_of_settleExternal {fs : List (Frame V N S)} (own : s.wakings e t = wakingsOf e fs)
    (x : ExternalId) (r : Reading V) (k : Option (Bool → Prog V N S)) :
    (s.watch e).Turns ((s.settleExternal t x r k fs).watch s t e) := by
  unfold State.settleExternal
  split
  next => exact turns_of_same rfl rfl own.symm rfl
  next y held =>
    split
    next => exact turns_of_unrung rfl ((Unrung.refl s).log t rfl) own.symm
    next unsettled =>
      obtain ⟨settled, stored⟩ := State.externals_modify held (·.settle r) e
      have rings := State.rings_log (s.modifyExternal x (·.settle r)) t
        (.resolved x y.wakers.length) rfl e
      by_cases same : e = x
      · subst same
        rw [if_pos rfl] at settled stored rings
        have before : s.settled? e = none := by simp [State.settled?, held, unsettled]
        have wakers : s.stored e = y.wakers := by simp [State.stored, held]
        have after : Next.watch
            ⟨(s.modifyExternal e (·.settle r)).log t (.resolved e y.wakers.length), .ended default,
              .waking e y.wakers :: (won k ++ fs)⟩ s t e =
            { settled := true
              stored := []
              wakings := update (s.wakings e) t (s.stored e :: s.wakings e t)
              trace := s.rings e ++ [(t, .resolved)] } := by
          simp only [Next.watch, wakingsOf, if_true, wakingsOf_won, own, wakers, rings]
          exact congrArg₂ (fun a b => Watch.mk a b _ _) (congrArg Option.isSome settled) stored
        rw [after]
        exact .settles (by simp [State.watch, before])
      · rw [if_neg same] at settled stored rings
        refine turns_of_same settled stored ?_ rings
        rw [wakingsOf, if_neg (Ne.symm same), wakingsOf_won, own]

theorem turns_of_waking {x : ExternalId} {ws : List WakerId} {fs : List (Frame V N S)}
    (own : s.wakings e t = wakingsOf e (.waking x ws :: fs)) {ending : Ending V} (calm : ending.Calm) :
    (s.watch e).Turns ((s.receive t (.waking x ws) ending fs).watch s t e) := by
  rw [wakingsOf] at own
  cases ws with
  | nil =>
    have left : s.receive t (.waking x []) ending fs = ⟨s, .ended default, fs⟩ := by
      cases ending <;> first | rfl | exact calm.elim
    rw [left]
    split at own
    next => exact .leaves own
    next => exact turns_of_same rfl rfl own.symm rfl
  | cons w ws =>
    have woke : s.receive t (.waking x (w :: ws)) ending fs =
        ⟨s.log t (.woke x w), .run (s.wakers.getD w (.ret default)), .waking x ws :: fs⟩ := by
      cases ending <;> first | rfl | exact calm.elim
    rw [woke]
    have rings := State.rings_log s t (.woke x w) rfl e
    split at own
    next same =>
      subst same
      rw [if_pos rfl] at rings
      have after : Next.watch ⟨s.log t (.woke x w), .run (s.wakers.getD w (.ret default)),
          .waking x ws :: fs⟩ s t x =
          { s.watch x with
            wakings := update (s.wakings x) t (ws :: wakingsOf x fs)
            trace := s.rings x ++ [(t, .woke w)] } := by
        simp only [Next.watch, wakingsOf, if_true, rings]
        rfl
      rw [after]
      exact .wakes own
    next other =>
      rw [if_neg (Ne.symm other)] at rings
      refine turns_of_same rfl rfl ?_ rings
      rw [wakingsOf, if_neg other, own]

theorem turns_of_next {d : Doing V N S} {fs : List (Frame V N S)} {n : Next V N S}
    (next : s.next t d fs = some n) (own : s.wakings e t = wakingsOf e fs)
    (calm : ∀ payload x ws rest, d = .ended (.panicked payload) → fs ≠ .waking x ws :: rest) :
    (s.watch e).Turns (n.watch s t e) := by
  have untouched := untouched_of_next next
  have aside (silent : ¬ d.Rings fs) : (s.watch e).Turns (n.watch s t e) :=
    turns_of_unrung (untouched.externals silent) (untouched.unrung silent)
      ((untouched.wakings silent e).trans own.symm)
  cases d with
  | run p =>
    cases p with
    | newExternal k =>
      cases next
      obtain ⟨settled, stored⟩ := State.externals_addExternal s e
      exact turns_of_same settled stored own.symm rfl
    | relay c k =>
      cases next
      let s₀ := s.addExternal.log t (.bridged c s.externals.size)
      obtain ⟨settled, stored⟩ := State.externals_addExternal s e
      have same := (register_same s₀ t c (.relay s.cells.size s.externals.size) (k s.externals.size) fs).1
      have bridged : s₀.rings e = s.rings e :=
        State.rings_of_unrung ((Unrung.refl s).log t rfl : Unrung s (s.log t (.bridged c _))) e
      refine turns_of_same ?_ ?_ ?_
        ((State.rings_of_unrung (unrung_register s₀ t c _ _ fs) e).trans bridged)
      · rw [State.settled?, same]
        exact settled
      · rw [State.stored, same]
        exact stored
      · rw [(register_aside s₀ t c _ _ fs).2, own]
    | poll x w k =>
      cases next
      exact turns_of_pollExternal own x w k
    | _ => exact aside fun rings => rings
  | settling x r k =>
    cases next
    exact turns_of_settleExternal own x r k
  | ended ending =>
    cases fs with
    | nil => cases next
    | cons frame rest =>
      cases frame with
      | waking x ws =>
        cases next
        refine turns_of_waking own ?_
        rcases ending.calm_or_panicked with calm' | ⟨payload, rfl⟩
        · exact calm'
        · exact absurd rfl (calm payload x ws rest rfl)
      | _ => exact aside fun rings => rings
  | _ => exact aside fun rings => rings

theorem watch_of_other {m : Move} (moved : s.move m = some s') (other : ∀ t, m ≠ .step t) :
    s'.watch e = s.watch e := by
  cases m with
  | step t => exact absurd rfl (other t)
  | pass nanos =>
    cases moved
    rfl
  | expire t =>
    obtain ⟨name, c, limit, deadline, k, fs, found, -, -, rfl⟩ := asleep_of_expire moved
    have member : t < (s.modifyCell c (·.rouse t)).threads.size :=
      (Array.getElem?_eq_some_iff.mp found).1
    have same : (s.modifyCell c (·.rouse t)).wakings e = s.wakings e := rfl
    have own : wakingsOf e fs = s.wakings e t := by simp [State.wakings, found]
    simp only [State.watch, State.wakings_setThread member, same, own, Function.update_eq_self]
    rfl
  | stir t =>
    obtain ⟨_, w, _, -, rfl⟩ := asleep_of_stir moved
    rfl

theorem turns_of_move {m : Move} (moved : s.move m = some s') (calm : ¬ s.WakePanics) :
    (s.watch e).Turns (s'.watch e) := by
  have other (none : ∀ t, m ≠ .step t) : (s.watch e).Turns (s'.watch e) := by
    rw [watch_of_other moved none]
    exact .still
  cases m with
  | step t =>
    obtain ⟨thread, n, found, next, rfl⟩ := next_of_step moved
    rw [watch_after found (transition_of_next next)]
    refine turns_of_next next (by simp [State.wakings, found]) ?_
    rintro payload x ws rest ended waking
    obtain ⟨name, d, fs⟩ := thread
    cases ended
    cases waking
    exact calm ⟨t, name, payload, x, ws, rest, found⟩
  | _ => exact other fun t same => by cases same

/-- Some run leads here in which no wake panics. -/
inductive CalmlyReachable : State V N S → Prop
  | start (client : S) (p : Prog V N S) : CalmlyReachable (State.start client p)
  | move {s s' : State V N S} {m : Move} (before : CalmlyReachable s) (moved : s.move m = some s')
      (calm : ¬ s'.WakePanics) : CalmlyReachable s'

namespace CalmlyReachable

theorem reachable (calmly : CalmlyReachable s) : Reachable s := by
  induction calmly with
  | start client p => exact ⟨client, p, .refl _⟩
  | move _ moved _ before =>
    obtain ⟨client, p, reached⟩ := before
    exact ⟨client, p, reached.trans (.of_move moved)⟩

theorem calm (calmly : CalmlyReachable s) : ¬ s.WakePanics := by
  cases calmly with
  | start client p =>
    rintro ⟨t, name, payload, e, ws, fs, found⟩
    cases t <;> simp [State.start] at found
  | move _ _ calm => exact calm

theorem vigil (calmly : CalmlyReachable s) (e : ExternalId) : Vigil (s.watch e) := by
  induction calmly with
  | start client p =>
    refine .waiting [] rfl rfl ?_ rfl
    funext u
    cases u <;> rfl
  | move before moved _ ih => exact vigil_of_turns (turns_of_move moved before.calm) ih

end CalmlyReachable

/-- Thread `t` has settled `e` above the frames `below`, and has woken the first of the wakers `ws`. -/
def State.Wakes (t : ThreadId) (name : Option String) (e : ExternalId) (ws : List WakerId)
    (below : List (Frame V N S)) (s : State V N S) : Prop :=
  ∃ d above done rest, s.threads[t]? = some ⟨name, d, above ++ .waking e rest :: below⟩ ∧
    ws = done ++ rest ∧ (s.watch e).woken = done.map (t, ·)

def State.Woken (t : ThreadId) (name : Option String) (e : ExternalId) (ws : List WakerId)
    (below : List (Frame V N S)) (s : State V N S) : Prop :=
  s.threads[t]? = some ⟨name, .ended default, below⟩ ∧ (s.watch e).woken = ws.map (t, ·)

structure WakersWoken (s : State V N S) : Prop where
  vigil : ∀ e, Vigil (s.watch e)
  /-- No task is stored twice. -/
  distinct : ∀ e, (s.stored e).Nodup
  emptied : ∀ e, s.settled? e ≠ none → s.stored e = []
  /-- The tasks that were told to wait are stored in the order in which they asked first. -/
  ordered : ∀ e, s.settled? e = none → s.stored e = (s.watch e).asked
  /-- A task that was told to wait is not forgotten. -/
  remembered : ∀ t e w, ⟨t, .parked e w⟩ ∈ s.history →
    (s.settled? e = none ∧ w ∈ s.stored e) ∨
    (s.settled? e ≠ none ∧ ∃ u ws, s.wakings e u = [ws] ∧ w ∈ ws) ∨
    ∃ u before after, s.rings e = before ++ (u, .resolved) :: after ∧ (u, .woke w) ∈ after
  /-- A task that is told to wait is recorded and stored. -/
  asks : ∀ {t name e w k fs}, s.threads[t]? = some ⟨name, .run (.poll e w k), fs⟩ →
    e < s.externals.size → s.settled? e = none →
    ∃ s', s.move (.step t) = some s' ∧ s'.Back t name (k none) fs ∧
      ⟨t, .parked e w⟩ ∈ s'.history ∧ w ∈ s'.stored e
  /-- A wake, and the loop that is about to wake, come after the resolution. -/
  late : ∀ e, (∃ t w, ⟨t, .woke e w⟩ ∈ s.history) ∨ (∃ t, s.wakings e t ≠ []) → s.settled? e ≠ none
  /-- From the resolution on, every poll is answered with it and stores nothing. -/
  answers : ∀ {e r s'}, s.settled? e = some r → Reaches s s' →
    ∀ {t name w k fs}, s'.threads[t]? = some ⟨name, .run (.poll e w k), fs⟩ →
    s'.move (.step t) = some (s'.setThread t ⟨name, .run (k (some r)), fs⟩)
  /-- The winning resolution wakes every stored waker once, in turn, before its call is over. -/
  settles : ∀ {t name e r k fs}, s.threads[t]? = some ⟨name, .settling e r k, fs⟩ →
    e < s.externals.size → s.settled? e = none →
    ∃ s₁, s.move (.step t) = some s₁ ∧ s₁.settled? e = some r ∧ ∀ ms,
      Until (State.Wakes t name e (s.stored e) (won k ++ fs))
        (fun s' => s'.Woken t name e (s.stored e) (won k ++ fs) ∨ s'.WakePanics) s₁ ms
  /-- A resolution that comes too late wakes nobody. -/
  loses : ∀ {t name e r k fs}, s.threads[t]? = some ⟨name, .settling e r k, fs⟩ →
    s.settled? e ≠ none →
    s.move (.step t) = some ((s.log t (.refused e)).setThread t ⟨name, lost k, fs⟩)

omit [Inhabited V] in
theorem wakingsOf_append (e : ExternalId) (above below : List (Frame V N S)) :
    wakingsOf e (above ++ below) = wakingsOf e above ++ wakingsOf e below := by
  induction above with
  | nil => rfl
  | cons frame above ih =>
    cases frame with
    | waking x ws =>
      simp only [List.cons_append, wakingsOf, ih]
      split <;> rfl
    | _ => exact ih

/-- A step above a loop that wakes, or of the loop, leaves the loop there, or it is the end of it. -/
theorem above_of_transition {d : Doing V N S} {above below : List (Frame V N S)} {ws : List WakerId}
    {n : Next V N S} (transition : Transition s t d (above ++ .waking e ws :: below) n)
    (calm : ∀ payload, d = .ended (.panicked payload) → above ≠ []) :
    (∃ above' ws', n.frames = above' ++ .waking e ws' :: below) ∨
      (above = [] ∧ ws = [] ∧ n = ⟨s, .ended default, below⟩) := by
  rcases frames_of_transition transition with
    ⟨new, grown⟩ | ⟨ending, frame, rest, new, ended, popped, grown⟩
  · exact Or.inl ⟨new ++ above, ws, by rw [grown, List.append_assoc]⟩
  · cases above with
    | cons first above =>
      have same : rest = above ++ .waking e ws :: below := (List.cons.inj popped).2.symm
      exact Or.inl ⟨new ++ above, ws, by rw [grown, same, List.append_assoc]⟩
    | nil =>
      subst ended
      rw [List.nil_append] at transition
      cases transition with
      | plain was => exact was.elim
      | rests _ => exact Or.inr ⟨rfl, rfl, rfl⟩
      | @wakes _ _ _ ws' _ _ _ => exact Or.inl ⟨[], ws', rfl⟩
      | unwinds _ => exact absurd rfl (calm _ rfl)

structure WakeLoop (t : ThreadId) (name : Option String) (e : ExternalId) (ws : List WakerId)
    (below : List (Frame V N S)) (s : State V N S) : Prop where
  calmly : CalmlyReachable s
  settled : (s.watch e).settled = true
  asked : (s.watch e).asked = ws
  loop : ∃ d above rest, s.threads[t]? = some ⟨name, d, above ++ .waking e rest :: below⟩

theorem WakeLoop.woken {name : Option String} {ws : List WakerId} {below : List (Frame V N S)}
    (waking : WakeLoop t name e ws below s) {d : Doing V N S} {above : List (Frame V N S)}
    {rest : List WakerId} (found : s.threads[t]? = some ⟨name, d, above ++ .waking e rest :: below⟩) :
    ∃ done, ws = done ++ rest ∧ (s.watch e).woken = done.map (t, ·) := by
  have loop : rest ∈ (s.watch e).wakings t := by
    simp [State.watch, State.wakings, found, wakingsOf_append, wakingsOf]
  obtain ⟨-, done, asked, woken⟩ := woken_of_waking (waking.calmly.vigil e) loop
  exact ⟨done, waking.asked ▸ asked, woken⟩

theorem waking_of_move {name : Option String} {ws : List WakerId} {below : List (Frame V N S)}
    {m : Move} (waking : WakeLoop t name e ws below s) (moved : s.move m = some s') :
    WakeLoop t name e ws below s' ∨ s'.Woken t name e ws below ∨ s'.WakePanics := by
  by_cases calm : s'.WakePanics
  · exact Or.inr (Or.inr calm)
  have turns := turns_of_move (e := e) moved waking.calmly.calm
  have asked : (s'.watch e).asked = ws := by
    rw [← waking.asked, Watch.asked, Watch.asked, polled_of_turns turns waking.settled]
  have before : s.settled? e ≠ none := Option.isSome_iff_ne_none.mp waking.settled
  have settled : (s'.watch e).settled = true := by
    simp only [State.watch, (extends_of_advance (advance_of_move moved)).readings e before]
    exact waking.settled
  have stays (loop : ∃ d above rest,
      s'.threads[t]? = some ⟨name, d, above ++ .waking e rest :: below⟩) :
      WakeLoop t name e ws below s' := ⟨.move waking.calmly moved calm, settled, asked, loop⟩
  obtain ⟨d, above, rest, found⟩ := waking.loop
  cases advance_of_move moved with
  | aside _ threads => exact Or.inl (stays ⟨d, above, rest, by rwa [threads]⟩)
  | @thread u thread n found' transition =>
    by_cases own : t = u
    · subst own
      cases Option.some.inj (found.symm.trans found')
      have quiet : ∀ payload, d = .ended (.panicked payload) → above ≠ [] := by
        rintro payload rfl rfl
        exact waking.calmly.calm ⟨t, name, payload, e, rest, below, found⟩
      rcases above_of_transition transition quiet with ⟨above', rest', grown⟩ | ⟨rfl, rfl, rfl⟩
      · refine Or.inl (stays ⟨n.doing, above', rest', ?_⟩)
        rw [thread_after transition found, grown]
      · refine Or.inr (Or.inl ⟨thread_setThread found rfl, ?_⟩)
        obtain ⟨done, all, woken⟩ := waking.woken found
        rw [List.append_nil] at all
        rw [all]
        exact woken
    · exact Or.inl (stays ⟨d, above, rest, thread_other transition own found⟩)

omit [Inhabited V] in
theorem settled_watch (s : State V N S) (e : ExternalId) :
    ((s.watch e).settled = true ↔ s.settled? e ≠ none) ∧
      ((s.watch e).settled = false ↔ s.settled? e = none) := by
  cases found : s.settled? e <;> simp [State.watch, found]

omit [Inhabited V] in
theorem found_of_unsettled (inside : e < s.externals.size) (unsettled : s.settled? e = none) :
    ∃ x, s.externals[e]? = some x ∧ x.value = none ∧ s.stored e = x.wakers := by
  have found := Array.getElem?_eq_getElem inside
  refine ⟨_, found, ?_, ?_⟩
  · simpa [State.settled?, found] using unsettled
  · simp [State.stored, found]

theorem asks_stored {name : Option String} {w : WakerId} {k : Option (Reading V) → Prog V N S}
    {fs : List (Frame V N S)} (found : s.threads[t]? = some ⟨name, .run (.poll e w k), fs⟩)
    (inside : e < s.externals.size) (unsettled : s.settled? e = none) :
    ∃ s', s.move (.step t) = some s' ∧ s'.Back t name (k none) fs ∧
      ⟨t, .parked e w⟩ ∈ s'.history ∧ w ∈ s'.stored e := by
  obtain ⟨x, held, open', -⟩ := found_of_unsettled inside unsettled
  let s₁ := (s.modifyExternal e (·.park w)).log t (.parked e w)
  have moved : s.step t = some (s₁.setThread t ⟨name, .run (k none), fs⟩) := by
    simp [step_of_found found, State.next, State.perform, State.pollExternal, held, open', s₁]
  have stored := (State.externals_modify held (·.park w) e).2
  rw [if_pos rfl] at stored
  refine ⟨_, moved, thread_setThread found rfl, List.mem_cons_self, ?_⟩
  have parked : w ∈ (x.park w).wakers := External.mem_wakers_park.mpr (Or.inr rfl)
  rw [← stored] at parked
  exact parked

theorem answers_settled {name : Option String} {w : WakerId} {r : Reading V}
    {k : Option (Reading V) → Prog V N S} {fs : List (Frame V N S)} (settled : s.settled? e = some r)
    (reached : Reaches s s') (found : s'.threads[t]? = some ⟨name, .run (.poll e w k), fs⟩) :
    s'.move (.step t) = some (s'.setThread t ⟨name, .run (k (some r)), fs⟩) := by
  have kept : s'.settled? e = some r := by
    rw [← settled]
    exact (extends_of_reaches reached).readings e (by rw [settled]; simp)
  obtain ⟨x, held, value⟩ := Option.bind_eq_some_iff.mp kept
  simp [State.move, step_of_found found, State.next, State.perform, State.pollExternal, held, value]

/-- The winning resolution takes the list and is about to wake it. -/
theorem settle_opens {name : Option String} {r : Reading V} {k : Option (Bool → Prog V N S)}
    {fs : List (Frame V N S)} (found : s.threads[t]? = some ⟨name, .settling e r k, fs⟩)
    (inside : e < s.externals.size) (unsettled : s.settled? e = none) :
    ∃ s₁, s.move (.step t) = some s₁ ∧ s₁.settled? e = some r ∧
      s₁.threads[t]? = some ⟨name, .ended default, .waking e (s.stored e) :: (won k ++ fs)⟩ ∧
      s₁.wakings e = update (s.wakings e) t (s.stored e :: wakingsOf e fs) ∧
      (s₁.watch e).trace = (s.watch e).trace ++ [(t, .resolved)] := by
  obtain ⟨x, held, open', stored⟩ := found_of_unsettled inside unsettled
  let s₀ := (s.modifyExternal e (·.settle r)).log t (.resolved e x.wakers.length)
  have moved : s.move (.step t) =
      some (s₀.setThread t ⟨name, .ended default, .waking e x.wakers :: (won k ++ fs)⟩) := by
    simp [State.move, step_of_found found, State.next, State.settleExternal, held, open', s₀]
  have settled := (State.externals_modify held (·.settle r) e).1
  rw [if_pos rfl] at settled
  have member : t < s₀.threads.size := (Array.getElem?_eq_some_iff.mp found).1
  have trace : s₀.rings e = s.rings e ++ [(t, .resolved)] :=
    (State.rings_log _ t (.resolved e x.wakers.length) rfl e).trans (if_pos rfl)
  rw [stored]
  refine ⟨_, moved, settled, thread_setThread found rfl, ?_, trace⟩
  rw [State.wakings_setThread member, wakingsOf, if_pos rfl, wakingsOf_won]
  rfl

theorem settles_woken (calmly : CalmlyReachable s) {name : Option String} {r : Reading V}
    {k : Option (Bool → Prog V N S)} {fs : List (Frame V N S)}
    (found : s.threads[t]? = some ⟨name, .settling e r k, fs⟩) (inside : e < s.externals.size)
    (unsettled : s.settled? e = none) :
    ∃ s₁, s.move (.step t) = some s₁ ∧ s₁.settled? e = some r ∧ ∀ ms,
      Until (State.Wakes t name e (s.stored e) (won k ++ fs))
        (fun s' => s'.Woken t name e (s.stored e) (won k ++ fs) ∨ s'.WakePanics) s₁ ms := by
  obtain ⟨s₁, moved, settled, loop, -, trace⟩ := settle_opens found inside unsettled
  refine ⟨s₁, moved, settled, fun ms => ?_⟩
  by_cases calm : s₁.WakePanics
  · exact until_of_done (Or.inr calm) ms
  have asked : (s₁.watch e).asked = s.stored e := by
    have before : s.stored e = (s.watch e).asked :=
      stored_of_vigil (calmly.vigil e) ((settled_watch s e).2.mpr unsettled)
    rw [before, Watch.asked, Watch.asked, Watch.polled, Watch.polled, trace, pick_append]
    exact congrArg (fun polls : List (ThreadId × WakerId) => (polls.map Prod.snd).eraseDups)
      (List.append_nil _)
  have waking : WakeLoop t name e (s.stored e) (won k ++ fs) s₁ :=
    ⟨.move calmly moved calm, (settled_watch s₁ e).1.mpr (by rw [settled]; simp), asked,
      _, [], s.stored e, loop⟩
  refine until_mono ?_ (fun _ done => done)
    (until_of_moves (fun _ _ _ waking moved => waking_of_move waking moved) waking ms)
  intro s' waking
  obtain ⟨d, above, rest, found⟩ := waking.loop
  obtain ⟨done, all, woken⟩ := waking.woken found
  exact ⟨d, above, done, rest, found, all, woken⟩

theorem loses_silently {name : Option String} {r : Reading V} {k : Option (Bool → Prog V N S)}
    {fs : List (Frame V N S)} (found : s.threads[t]? = some ⟨name, .settling e r k, fs⟩)
    (settled : s.settled? e ≠ none) :
    s.move (.step t) = some ((s.log t (.refused e)).setThread t ⟨name, lost k, fs⟩) := by
  obtain ⟨held', settled⟩ := Option.ne_none_iff_exists'.mp settled
  obtain ⟨x, held, value⟩ := Option.bind_eq_some_iff.mp settled
  simp [State.move, step_of_found found, State.next, State.settleExternal, held, value]

theorem wakers_woken (calmly : CalmlyReachable s) : WakersWoken s := by
  have vigil := calmly.vigil
  refine ⟨vigil, fun e => nodup_of_vigil (vigil e), ?_, ?_, ?_, asks_stored, ?_, ?_,
    settles_woken calmly, loses_silently⟩
  · exact fun e settled => emptied_of_vigil (vigil e) ((settled_watch s e).1.mpr settled)
  · exact fun e unsettled => stored_of_vigil (vigil e) ((settled_watch s e).2.mpr unsettled)
  · intro t e w recorded
    have asked : (t, .parked w) ∈ (s.watch e).trace := State.mem_rings.mpr ⟨_, recorded, rfl, rfl⟩
    rcases remembered_of_vigil (vigil e) asked with ⟨unsettled, stored⟩ | ⟨settled, waking⟩ | woken
    · exact Or.inl ⟨(settled_watch s e).2.mp unsettled, stored⟩
    · exact Or.inr (Or.inl ⟨(settled_watch s e).1.mp settled, waking⟩)
    · exact Or.inr (Or.inr woken)
  · rintro e (⟨t, w, recorded⟩ | ⟨t, loop⟩)
    · have woke : (t, .woke w) ∈ (s.watch e).trace := State.mem_rings.mpr ⟨_, recorded, rfl, rfl⟩
      exact (settled_watch s e).1.mp (settled_of_woke (vigil e) woke).1
    · exact (settled_watch s e).1.mp (settled_of_waking (vigil e) loop)
  · exact fun settled reached => answers_settled settled reached

omit [Inhabited V] in
theorem not_wakePanics_of_alone {thread : Thread V N S} (alone : s.threads = #[thread])
    (calm : ∀ payload, thread.doing ≠ .ended (.panicked payload)) : ¬ s.WakePanics := by
  rintro ⟨t, name, payload, e, ws, fs, found⟩
  rw [alone] at found
  cases t with
  | zero =>
    cases found
    exact calm payload rfl
  | succ t => simp at found

/-- Two tasks poll an external future, one of them twice.  The first, when it is woken, polls again and
tries to cancel. -/
def wokenTasks : Prog Nat Empty Unit :=
  .newExternal fun e =>
    .newWaker (.poll e 0 fun _ => .settle e .cancel fun _ => .ret 0) fun first =>
      .newWaker (.ret 0) fun second =>
        .poll e first fun _ => .poll e second fun _ => .poll e first fun _ =>
          .settle e (.complete 5) fun _ => .ret 0

theorem wakers_woken_two : ∃ s : State Nat Empty Unit, CalmlyReachable s ∧ WakersWoken s ∧
    (s.watch 0).asked = [0, 1] ∧ (s.watch 0).woken = [(0, 0)] ∧ s.wakings 0 0 = [[1]] ∧
    ∃ name k fs, s.threads[0]? = some ⟨name, .settling 0 (.error .cancelled) k, fs⟩ := by
  have next {s s' : State Nat Empty Unit} {m : Move} {thread : Thread Nat Empty Unit}
      (before : CalmlyReachable s) (moved : s.move m = some s') (alone : s'.threads = #[thread])
      (calm : ∀ payload, thread.doing ≠ .ended (.panicked payload)) : CalmlyReachable s' :=
    before.move moved (not_wakePanics_of_alone alone calm)
  have made := next (m := .step 0) (.start () wokenTasks) rfl rfl (fun _ same => by cases same)
  have waker := next (m := .step 0) made rfl rfl (fun _ same => by cases same)
  have wakers := next (m := .step 0) waker rfl rfl (fun _ same => by cases same)
  have poll := next (m := .step 0) wakers rfl rfl (fun _ same => by cases same)
  have polls := next (m := .step 0) poll rfl rfl (fun _ same => by cases same)
  have again := next (m := .step 0) polls rfl rfl (fun _ same => by cases same)
  have asks := next (m := .step 0) again rfl rfl (fun _ same => by cases same)
  have settled := next (m := .step 0) asks rfl rfl (fun _ same => by cases same)
  have woken := next (m := .step 0) settled rfl rfl (fun _ same => by cases same)
  have answered := next (m := .step 0) woken rfl rfl (fun _ same => by cases same)
  have late := next (m := .step 0) answered rfl rfl (fun _ same => by cases same)
  exact ⟨_, late, wakers_woken late, by decide, by decide, by decide, _, _, _, rfl⟩

end Inhabited
end Oneshot
