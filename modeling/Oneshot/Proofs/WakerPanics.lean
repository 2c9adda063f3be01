import Oneshot.Proofs.Origins
import Oneshot.Proofs.Wakers

/-! # Wakes that panic

The call that settles an external future wakes the stored wakers in turn, and no wake is guarded.  So a
wake that panics is the last one: the panic leaves the loop and takes the rest of the list along
(`wakes_until_panic`), and those tasks are never woken (`waker_forgotten`). -/
set_option autoImplicit false
namespace Oneshot
open Function (update)
variable {V N S : Type}

/-- Who takes nothing from a list of wakers to be woken, changes nothing once all is settled. -/
theorem Watch.Turns.eq_of_suffix {w w' : Watch} (turns : w.Turns w') (settled : w.settled = true)
    (kept : ∀ u, w.wakings u <:+ w'.wakings u) : w' = w := by
  cases turns with
  | still => rfl
  | parks unsettled => cases unsettled.symm.trans settled
  | settles unsettled => cases unsettled.symm.trans settled
  | @wakes t u us rest top =>
    have shorter : (u :: us) :: rest <:+ us :: rest := by simpa [top] using kept t
    have same := (List.cons.inj (shorter.eq_of_length rfl)).1
    exact absurd (congrArg List.length same) (Nat.succ_ne_self _)
  | @leaves t rest top =>
    have shorter : [] :: rest <:+ rest := by simpa [top] using kept t
    exact absurd shorter.length_le (Nat.not_succ_le_self _)

namespace State

/-- What the loop of `e` hears of in this move: its own beginning, or how a wake has ended. -/
def heard? (s : State V N S) (e : ExternalId) : Move → Option (Ending V)
  | .step t =>
    match s.threads[t]? with
    | some ⟨_, .ended ending, .waking x _ :: _⟩ => if x = e then some ending else none
    | _ => none
  | _ => none

/-- The wake of `e` that is over as of this move, by its waker, and how it has ended. -/
def wakeEnd? (s : State V N S) (e : ExternalId) (m : Move) : Option (WakerId × Ending V) :=
  match (s.watch e).woken.getLast?, s.heard? e m with
  | some (_, w), some ending => some (w, ending)
  | _, _ => none

variable [Inhabited V]

def wakeEnds (s : State V N S) (e : ExternalId) : List Move → List (WakerId × Ending V)
  | [] => []
  | m :: ms =>
    match s.move m with
    | none => []
    | some s' => (s.wakeEnd? e m).toList ++ s'.wakeEnds e ms

end State

section Inhabited
variable [Inhabited V] {s s' : State V N S} {t : ThreadId} {e : ExternalId}

omit [Inhabited V] in
theorem heard_of_ended {name : Option String} {ending : Ending V} {ws : List WakerId}
    {fs : List (Frame V N S)} (found : s.threads[t]? = some ⟨name, .ended ending, .waking e ws :: fs⟩) :
    s.heard? e (.step t) = some ending := by
  simp [State.heard?, found]

omit [Inhabited V] in
theorem ended_of_heard {m : Move} {ending : Ending V} (heard : s.heard? e m = some ending) :
    ∃ t name ws fs, m = .step t ∧ s.threads[t]? = some ⟨name, .ended ending, .waking e ws :: fs⟩ := by
  unfold State.heard? at heard
  split at heard
  next t =>
    split at heard
    next name ending' x ws fs found =>
      split at heard
      next same =>
        cases heard
        exact ⟨t, name, ws, fs, rfl, same ▸ found⟩
      next => cases heard
    next => cases heard
  next => cases heard

omit [Inhabited V] in
theorem unheard_of_idle (idle : ∀ u, s.wakings e u = []) (m : Move) : s.heard? e m = none := by
  cases heard : s.heard? e m with
  | none => rfl
  | some ending =>
    obtain ⟨u, name, ws, fs, -, found⟩ := ended_of_heard heard
    have none := idle u
    simp [State.wakings, found, wakingsOf] at none

/-- A move that the loop of `e` hears nothing of does to `e` what a move without panics may do. -/
theorem turns_of_unheard {m : Move} (moved : s.move m = some s') (unheard : s.heard? e m = none) :
    (s.watch e).Turns (s'.watch e) := by
  have other (none : ∀ t, m ≠ .step t) : (s.watch e).Turns (s'.watch e) := by
    rw [watch_of_other moved none]
    exact .still
  cases m with
  | step t =>
    obtain ⟨⟨name, d, fs⟩, n, found, next, rfl⟩ := next_of_step moved
    rw [watch_after found (transition_of_next next)]
    have own : s.wakings e t = wakingsOf e fs := by simp [State.wakings, found]
    by_cases breaks : ∃ payload x ws rest, d = .ended (.panicked payload) ∧ fs = .waking x ws :: rest
    · -- The loop that breaks is one of another external future.
      obtain ⟨payload, x, ws, rest, rfl, rfl⟩ := breaks
      have apart : x ≠ e := by
        rintro rfl
        cases unheard.symm.trans (heard_of_ended found)
      cases next
      refine turns_of_same rfl rfl ?_ rfl
      rw [own, wakingsOf, if_neg apart]
      rfl
    · refine turns_of_next next own ?_
      intro payload x ws rest ended waking
      exact breaks ⟨payload, x, ws, rest, ended, waking⟩
  | _ => exact other fun t same => by cases same

theorem watch_of_unheard {m : Move} (moved : s.move m = some s') (unheard : s.heard? e m = none)
    (settled : (s.watch e).settled = true) : s'.watch e = s.watch e := by
  have turns := turns_of_unheard moved unheard
  cases m with
  | step t =>
    obtain ⟨⟨name, d, fs⟩, n, found, next, rfl⟩ := next_of_step moved
    have transition := transition_of_next next
    rw [watch_after found transition] at turns ⊢
    have own : s.wakings e t = wakingsOf e fs := by simp [State.wakings, found]
    have own_kept : s.wakings e t <:+ wakingsOf e n.frames := by
      rcases frames_of_transition transition with
        ⟨new, grown⟩ | ⟨ending, frame, rest, new, ended, popped, grown⟩
      · rw [grown, wakingsOf_append, own]
        exact List.suffix_append ..
      · have kept : wakingsOf e (frame :: rest) = wakingsOf e rest := by
          cases frame with
          | waking x ws =>
            refine if_neg ?_
            rintro rfl
            simp only at ended popped
            subst ended popped
            cases unheard.symm.trans (heard_of_ended found)
          | _ => rfl
        rw [grown, wakingsOf_append, own, show fs = frame :: rest from popped, kept]
        exact List.suffix_append ..
    refine turns.eq_of_suffix settled fun u => ?_
    by_cases same : u = t
    · subst same
      simpa [Next.watch, State.watch] using own_kept
    · simp [Next.watch, State.watch, same]
  | _ => exact watch_of_other moved fun t same => by cases same

theorem loop_kept {m : Move} (moved : s.move m = some s') (unheard : s.heard? e m = none)
    {name : Option String} {d : Doing V N S} {above below : List (Frame V N S)} {ws : List WakerId}
    (found : s.threads[t]? = some ⟨name, d, above ++ .waking e ws :: below⟩) :
    ∃ d' above', s'.threads[t]? = some ⟨name, d', above' ++ .waking e ws :: below⟩ := by
  have after {n : Next V N S} (transition : Transition s t d (above ++ .waking e ws :: below) n)
      (silent : ∀ ending, d = .ended ending → above ≠ []) :
      ∃ above', n.frames = above' ++ .waking e ws :: below := by
    rcases frames_of_transition transition with
      ⟨new, grown⟩ | ⟨ending, frame, rest, new, ended, popped, grown⟩
    · exact ⟨new ++ above, by rw [grown, List.append_assoc]⟩
    · cases above with
      | nil => exact absurd rfl (silent ending ended)
      | cons first above =>
        have same : rest = above ++ .waking e ws :: below := (List.cons.inj popped).2.symm
        exact ⟨new ++ above, by rw [grown, same, List.append_assoc]⟩
  by_cases own : m = .step t
  · subst own
    obtain ⟨thread, n, found', next, rfl⟩ := next_of_step moved
    cases Option.some.inj (found.symm.trans found')
    have transition := transition_of_next next
    obtain ⟨above', grown⟩ := after transition (by
      rintro ending rfl rfl
      cases unheard.symm.trans (heard_of_ended found))
    exact ⟨n.doing, above', by rw [thread_after transition found, grown]⟩
  · by_cases up : ∀ w, d ≠ .asleep w
    · exact ⟨d, above, thread_kept moved own found up⟩
    · cases advance_of_move moved with
      | aside _ threads => exact ⟨d, above, by rwa [threads]⟩
      | @thread u thread n found' transition =>
        by_cases same : t = u
        · subst same
          cases Option.some.inj (found.symm.trans found')
          obtain ⟨above', grown⟩ := after transition fun ending ended _ => up (by simp [ended])
          exact ⟨n.doing, above', by rw [thread_after transition found, grown]⟩
        · exact ⟨d, above, thread_other transition same found⟩

theorem woke_of_heard {name : Option String} {ending : Ending V} {w : WakerId} {ws : List WakerId}
    {below : List (Frame V N S)}
    (found : s.threads[t]? = some ⟨name, .ended ending, .waking e (w :: ws) :: below⟩)
    (calm : ending.Calm) (moved : s.move (.step t) = some s') :
    s'.threads[t]? = some ⟨name, .run (s.wakers.getD w (.ret default)), .waking e ws :: below⟩ ∧
      (s'.watch e).woken = (s.watch e).woken ++ [(t, w)] ∧
      s'.wakings e = update (s.wakings e) t (ws :: wakingsOf e below) := by
  obtain ⟨thread, n, found', next, rfl⟩ := next_of_step moved
  cases Option.some.inj (found.symm.trans found')
  have transition := transition_of_next next
  have goes : n = ⟨s.log t (.woke e w), .run (s.wakers.getD w (.ret default)), .waking e ws :: below⟩ := by
    cases next
    cases ending <;> first | rfl | exact calm.elim
  have watch := watch_after found transition e
  subst goes
  refine ⟨thread_after transition found, ?_, ?_⟩
  · have rings := State.rings_log s t (.woke e w) rfl e
    rw [if_pos rfl] at rings
    rw [watch, Watch.woken, Next.watch, rings, pick_append]
    rfl
  · have wakings := congrArg Watch.wakings watch
    simpa [State.watch, Next.watch, wakingsOf] using wakings

theorem left_of_heard {name : Option String} {ending : Ending V} {ws : List WakerId}
    {below : List (Frame V N S)}
    (found : s.threads[t]? = some ⟨name, .ended ending, .waking e ws :: below⟩)
    (last : ¬ ending.Calm ∨ ws = []) (moved : s.move (.step t) = some s') :
    (s'.watch e).woken = (s.watch e).woken ∧
      s'.wakings e = update (s.wakings e) t (wakingsOf e below) := by
  obtain ⟨thread, n, found', next, rfl⟩ := next_of_step moved
  cases Option.some.inj (found.symm.trans found')
  have transition := transition_of_next next
  have goes : n.state = s ∧ n.frames = below := by
    cases next
    cases ending with
    | panicked payload => exact ⟨rfl, rfl⟩
    | _ =>
      rcases last with rough | rfl
      · exact absurd trivial rough
      · exact ⟨rfl, rfl⟩
  obtain ⟨same, rest⟩ := goes
  have watch := watch_after found transition e
  refine ⟨?_, ?_⟩
  · rw [watch, Watch.woken, Next.watch, same]
    rfl
  · have wakings := congrArg Watch.wakings watch
    simpa [State.watch, Next.watch, rest] using wakings

theorem vigil_of_unsettled (reachable : Reachable s) (unsettled : s.settled? e = none) :
    Vigil (s.watch e) := by
  obtain ⟨client, p, reached⟩ := reachable
  revert unsettled
  refine reached.induct (P := fun s => s.settled? e = none → Vigil (s.watch e)) ?_ ?_
  · intro _
    refine .waiting [] rfl rfl ?_ rfl
    funext u
    cases u <;> rfl
  · intro s m s' before moved unsettled
    have extends' := extends_of_advance (advance_of_move moved)
    have unsettled' : s.settled? e = none := by
      by_contra settled
      exact settled (by rw [← extends'.readings e settled, unsettled])
    have vigil := before unsettled'
    refine vigil_of_turns (turns_of_unheard moved (unheard_of_idle ?_ m)) vigil
    intro u
    by_contra loop
    have settled := settled_of_waking vigil loop
    rw [(settled_watch s e).2.mpr unsettled'] at settled
    cases settled

omit [Inhabited V] in
theorem woken_of_unsettled {w : Watch} (vigil : Vigil w) (unsettled : w.settled = false) :
    w.woken = [] := by
  cases vigil with
  | waiting polls _ _ _ trace =>
    rw [Watch.woken, trace]
    exact (pick_parkings polls).2
  | waking _ _ _ _ settled => cases unsettled.symm.trans settled
  | woken _ _ settled => cases unsettled.symm.trans settled

/-- How far thread `t`, which has settled `e` above the frames `below`, has come with the wakers `ws` that
it took out, when the wakes `ends` of `e` are over. -/
inductive WakesInTurn (t : ThreadId) (name : Option String) (e : ExternalId) (ws : List WakerId)
    (below : List (Frame V N S)) (s : State V N S) (ends : List (WakerId × Ending V)) : Prop
  | begins (loop : s.threads[t]? = some ⟨name, .ended default, .waking e ws :: below⟩)
      (only : s.wakings e = update (fun _ => []) t [ws]) (woken : (s.watch e).woken = [])
      (ended : ends = [])
  /-- The wake of `w` goes on. -/
  | wakes (d : Doing V N S) (above : List (Frame V N S)) (w : WakerId) (rest : List WakerId)
      (loop : s.threads[t]? = some ⟨name, d, above ++ .waking e rest :: below⟩)
      (only : s.wakings e = update (fun _ => []) t [rest])
      (woken : (s.watch e).woken = (ends.map Prod.fst ++ [w]).map (t, ·))
      (all : ws = ends.map Prod.fst ++ w :: rest) (calm : ∀ wake ∈ ends, wake.2.Calm)
  | woken (idle : s.wakings e = fun _ => []) (woken : (s.watch e).woken = ws.map (t, ·))
      (all : ws = ends.map Prod.fst) (calm : ∀ wake ∈ ends, wake.2.Calm)
  /-- The wake of `w` has panicked, and nobody is woken any more. -/
  | broken (before : List (WakerId × Ending V)) (w : WakerId) (payload : Payload)
      (rest : List WakerId) (idle : s.wakings e = fun _ => [])
      (woken : (s.watch e).woken = (before.map Prod.fst ++ [w]).map (t, ·))
      (all : ws = before.map Prod.fst ++ w :: rest) (calm : ∀ wake ∈ before, wake.2.Calm)
      (ended : ends = before ++ [(w, .panicked payload)])

section Turn
variable {name : Option String} {ws : List WakerId} {below : List (Frame V N S)}
  {ends : List (WakerId × Ending V)} {m : Move}

omit [Inhabited V] in
theorem wakeEnd_of_unheard (unheard : s.heard? e m = none) : s.wakeEnd? e m = none := by
  unfold State.wakeEnd?
  rw [unheard]
  split
  next some => cases some
  next => rfl

omit [Inhabited V] in
theorem wakeEnd_of_heard {done : List WakerId} {w : WakerId} {ending : Ending V}
    (woken : (s.watch e).woken = (done ++ [w]).map (t, ·)) (heard : s.heard? e m = some ending) :
    s.wakeEnd? e m = some (w, ending) := by
  unfold State.wakeEnd?
  rw [woken, heard]
  simp

theorem wakesInTurn_of_unheard (turn : WakesInTurn t name e ws below s ends)
    (settled : (s.watch e).settled = true) (moved : s.move m = some s')
    (unheard : s.heard? e m = none) : WakesInTurn t name e ws below s' ends := by
  have same := watch_of_unheard moved unheard settled
  have wakings : s'.wakings e = s.wakings e := congrArg Watch.wakings same
  cases turn with
  | begins loop only woken ended =>
    have other : m ≠ .step t := by
      rintro rfl
      cases unheard.symm.trans (heard_of_ended loop)
    have kept := thread_kept moved other loop fun w asleep => by cases asleep
    exact .begins kept (wakings.trans only) (same ▸ woken) ended
  | wakes d above w rest loop only woken all calm =>
    obtain ⟨d', above', loop⟩ := loop_kept moved unheard loop
    exact .wakes d' above' w rest loop (wakings.trans only) (same ▸ woken) all calm
  | woken idle woken all calm => exact .woken (wakings.trans idle) (same ▸ woken) all calm
  | broken before w payload rest idle woken all calm ended =>
    exact .broken before w payload rest (wakings.trans idle) (same ▸ woken) all calm ended

omit [Inhabited V] in
/-- What is heard of `e` is heard by the only loop there is. -/
theorem only_loop {ending : Ending V} {d : Doing V N S} (above : List (Frame V N S))
    (loop : s.threads[t]? = some ⟨name, d, above ++ .waking e ws :: below⟩)
    (only : s.wakings e = update (fun _ => []) t [ws]) (heard : s.heard? e m = some ending) :
    m = .step t ∧ d = .ended ending ∧ above = [] ∧ wakingsOf e below = [] := by
  obtain ⟨u, name', us, below', rfl, found⟩ := ended_of_heard heard
  have own : u = t := by
    by_contra apart
    have none : s.wakings e u = [] := by rw [only, Function.update_of_ne apart]
    simp [State.wakings, found, wakingsOf] at none
  subst own
  obtain ⟨rfl, rfl, frames⟩ : name = name' ∧ d = .ended ending ∧
      above ++ .waking e ws :: below = .waking e us :: below' := by
    simpa using loop.symm.trans found
  have single : wakingsOf e above ++ ws :: wakingsOf e below = [ws] := by
    have single : s.wakings e u = [ws] := by rw [only, Function.update_self]
    simpa [State.wakings, loop, wakingsOf_append, wakingsOf] using single
  have lengths := congrArg List.length single
  simp only [List.length_append, List.length_cons, List.length_nil] at lengths
  refine ⟨rfl, rfl, ?_, List.eq_nil_of_length_eq_zero (by omega)⟩
  cases above with
  | nil => rfl
  | cons first above =>
    obtain rfl : first = .waking e us := (List.cons.inj frames).1
    simp only [wakingsOf, if_true, List.length_cons] at lengths
    omega

theorem wakesInTurn_of_move (turn : WakesInTurn t name e ws below s ends)
    (settled : (s.watch e).settled = true) (moved : s.move m = some s') :
    WakesInTurn t name e ws below s' (ends ++ (s.wakeEnd? e m).toList) := by
  cases heard : s.heard? e m with
  | none =>
    rw [wakeEnd_of_unheard heard, Option.toList_none, List.append_nil]
    exact wakesInTurn_of_unheard turn settled moved heard
  | some ending =>
    cases turn with
    | begins loop only woken ended =>
      obtain ⟨rfl, same, -, outer⟩ := only_loop [] loop only heard
      cases same
      have first : s.wakeEnd? e (.step t) = none := by simp [State.wakeEnd?, woken]
      rw [first, ended]
      cases ws with
      | nil =>
        obtain ⟨kept, left⟩ := left_of_heard loop (Or.inr rfl) moved
        refine .woken ?_ (kept.trans woken) rfl (by simp)
        rw [left, only, outer, Function.update_idem, Function.update_eq_self]
      | cons w rest =>
        obtain ⟨next, woke, wakings⟩ := woke_of_heard loop trivial moved
        refine .wakes _ [] w rest next ?_ (by rw [woke, woken]; rfl) rfl (by simp)
        rw [wakings, only, outer, Function.update_idem]
    | wakes d above w rest loop only woken all calm =>
      obtain ⟨rfl, rfl, rfl, outer⟩ := only_loop above loop only heard
      rw [wakeEnd_of_heard woken heard]
      by_cases rough : ending.Calm
      · have calm' : ∀ wake ∈ ends ++ [(w, ending)], wake.2.Calm := by
          intro wake member
          rcases List.mem_append.mp member with before | last
          · exact calm wake before
          · rw [List.mem_singleton.mp last]
            exact rough
        cases rest with
        | nil =>
          obtain ⟨kept, left⟩ := left_of_heard loop (Or.inr rfl) moved
          refine .woken ?_ ?_ ?_ calm'
          · rw [left, only, outer, Function.update_idem, Function.update_eq_self]
          · rw [kept, woken, all]
          · simpa using all
        | cons next rest =>
          obtain ⟨goes, woke, wakings⟩ := woke_of_heard loop rough moved
          refine .wakes _ [] next rest goes ?_ ?_ (by simpa using all) calm'
          · rw [wakings, only, outer, Function.update_idem]
          · rw [woke, woken]
            simp
      · obtain ⟨kept, left⟩ := left_of_heard loop (Or.inl rough) moved
        obtain ⟨payload, rfl⟩ := ending.calm_or_panicked.resolve_left rough
        refine .broken ends w payload rest ?_ (kept.trans woken) all calm rfl
        rw [left, only, outer, Function.update_idem, Function.update_eq_self]
    | woken idle => cases heard.symm.trans (unheard_of_idle (fun u => congrFun idle u) m)
    | broken _ _ _ _ idle => cases heard.symm.trans (unheard_of_idle (fun u => congrFun idle u) m)

theorem wakesInTurn_of_run {ms : List Move} (turn : WakesInTurn t name e ws below s ends)
    (settled : (s.watch e).settled = true) (run : s.run ms = some s') :
    WakesInTurn t name e ws below s' (ends ++ s.wakeEnds e ms) := by
  induction ms generalizing s ends with
  | nil =>
    cases run
    rw [State.wakeEnds, List.append_nil]
    exact turn
  | cons m ms ih =>
    obtain ⟨middle, moved, run⟩ := Option.bind_eq_some_iff.mp run
    have unsettled : s.settled? e ≠ none := (settled_watch s e).1.mp settled
    have kept := (extends_of_advance (advance_of_move moved)).readings e unsettled
    have settled' : (middle.watch e).settled = true :=
      (settled_watch middle e).1.mpr (kept ▸ unsettled)
    have later := ih (wakesInTurn_of_move turn settled moved) settled' run
    rw [List.append_assoc] at later
    rw [State.wakeEnds, moved]
    exact later

end Turn

/-- What becomes of the wakers stored in `e`, which `t` is about to settle, in every run. -/
structure WakesUntilPanic (s : State V N S) (t : ThreadId) (name : Option String) (e : ExternalId)
    (below : List (Frame V N S)) : Prop where
  distinct : (s.stored e).Nodup
  inTurn : ∀ {ms s'}, s.run (.step t :: ms) = some s' →
    WakesInTurn t name e (s.stored e) below s' (s.wakeEnds e (.step t :: ms))
  /-- As long as no wake has panicked, those that are over are the first of the list, and when they are
  all, everybody has been woken. -/
  ahead : ∀ {ms s'}, s.run (.step t :: ms) = some s' →
    (∀ wake ∈ s.wakeEnds e (.step t :: ms), wake.2.Calm) →
    (s.wakeEnds e (.step t :: ms)).map Prod.fst <+: s.stored e ∧
      ((s.wakeEnds e (.step t :: ms)).length = (s.stored e).length →
        (s'.watch e).woken = (s.stored e).map (t, ·))
  /-- Who is stored behind a waker whose wake has panicked is not woken, however the run goes on. -/
  behind : ∀ {ms s' before w payload rest}, s.run (.step t :: ms) = some s' →
    (w, .panicked payload) ∈ s.wakeEnds e (.step t :: ms) → s.stored e = before ++ w :: rest →
    (s'.watch e).woken = (before ++ [w]).map (t, ·) ∧ ∀ u ∈ rest, ∀ v, (v, u) ∉ (s'.watch e).woken
  /-- The panic goes on where the call came from. -/
  escapes : ∀ {ms s' payload rest}, s.run (.step t :: ms) = some s' →
    s'.threads[t]? = some ⟨name, .ended (.panicked payload), .waking e rest :: below⟩ →
    s'.move (.step t) = some (s'.setThread t ⟨name, .ended (.panicked payload), below⟩)

section Read
variable {name : Option String} {ws : List WakerId} {below : List (Frame V N S)}
  {ends : List (WakerId × Ending V)}

theorem WakesInTurn.ahead (turn : WakesInTurn t name e ws below s ends)
    (calm : ∀ wake ∈ ends, wake.2.Calm) : ends.map Prod.fst <+: ws ∧
      (ends.length = ws.length → (s.watch e).woken = ws.map (t, ·)) := by
  cases turn with
  | begins _ _ woken ended =>
    subst ended
    refine ⟨List.nil_prefix, fun length => ?_⟩
    rw [List.eq_nil_of_length_eq_zero length.symm, woken]
    rfl
  | wakes _ _ w rest _ _ _ all _ =>
    refine ⟨⟨w :: rest, all.symm⟩, fun length => ?_⟩
    rw [all] at length
    simp at length
  | woken _ woken all _ => exact ⟨⟨[], by rw [all, List.append_nil]⟩, fun _ => woken⟩
  | broken before w payload rest _ _ _ _ ended =>
    subst ended
    exact (calm (w, .panicked payload) (by simp)).elim

theorem WakesInTurn.behind (turn : WakesInTurn t name e ws below s ends) (distinct : ws.Nodup)
    {before rest : List WakerId} {w : WakerId} {payload : Payload}
    (panicked : (w, .panicked payload) ∈ ends) (split : ws = before ++ w :: rest) :
    (s.watch e).woken = (before ++ [w]).map (t, ·) ∧ ∀ u ∈ rest, ∀ v, (v, u) ∉ (s.watch e).woken := by
  have rough (those : List (WakerId × Ending V)) (calm : ∀ end' ∈ those, end'.2.Calm) :
      (w, .panicked payload) ∉ those := fun member => calm _ member
  cases turn with
  | begins _ _ _ ended =>
    rw [ended] at panicked
    cases panicked
  | wakes _ _ _ _ _ _ _ _ calm => exact absurd panicked (rough ends calm)
  | woken _ _ _ calm => exact absurd panicked (rough ends calm)
  | broken early w' payload' rest' _ woken all calm ended =>
    rw [ended] at panicked
    obtain rfl : w = w' := by
      rcases List.mem_append.mp panicked with member | last
      · exact absurd member (rough early calm)
      · exact congrArg Prod.fst (List.mem_singleton.mp last)
    -- No waker is stored twice, so this is the same place in the list.
    rw [split, List.nodup_append, List.nodup_cons] at distinct
    obtain ⟨-, ⟨after, -⟩, apart⟩ := distinct
    have fresh : w ∉ before := fun member => apart w member w (List.mem_cons_self ..) rfl
    obtain ⟨same, -, -⟩ := (List.append_cons_inj_of_notMem fresh after).mp (split.symm.trans all)
    rw [woken, ← same]
    refine ⟨rfl, fun u member v woke => ?_⟩
    have known : u ∈ before ++ [w] := by
      obtain ⟨u', known, same⟩ := List.mem_map.mp woke
      exact (Prod.mk.inj same).2 ▸ known
    rcases List.mem_append.mp known with early | last
    · exact apart u early u (List.mem_cons_of_mem _ member) rfl
    · exact after (List.mem_singleton.mp last ▸ member)

end Read

theorem wakes_until_panic (reachable : Reachable s) {name : Option String} {r : Reading V}
    {k : Option (Bool → Prog V N S)} {fs : List (Frame V N S)}
    (found : s.threads[t]? = some ⟨name, .settling e r k, fs⟩) (inside : e < s.externals.size)
    (unsettled : s.settled? e = none) : WakesUntilPanic s t name e (won k ++ fs) := by
  have vigil := vigil_of_unsettled reachable unsettled
  have idle : s.wakings e = fun _ => [] := by
    funext u
    by_contra loop
    have settled := settled_of_waking vigil loop
    rw [(settled_watch s e).2.mpr unsettled] at settled
    cases settled
  have inTurn {ms : List Move} {s' : State V N S} (run : s.run (.step t :: ms) = some s') :
      WakesInTurn t name e (s.stored e) (won k ++ fs) s' (s.wakeEnds e (.step t :: ms)) := by
    obtain ⟨s₁, moved, settled, loop, wakings, trace⟩ := settle_opens found inside unsettled
    obtain ⟨s₁', moved', run⟩ := Option.bind_eq_some_iff.mp run
    cases Option.some.inj (moved.symm.trans moved')
    have outer : wakingsOf e fs = [] := by
      have none := congrFun idle t
      simpa [State.wakings, found] using none
    have woken : (s₁.watch e).woken = [] := by
      rw [Watch.woken, trace, pick_append]
      exact (List.append_nil _).trans (woken_of_unsettled vigil ((settled_watch s e).2.mpr unsettled))
    have begins : WakesInTurn t name e (s.stored e) (won k ++ fs) s₁ [] :=
      .begins loop (by rw [wakings, idle, outer]) woken rfl
    have settled : (s₁.watch e).settled = true :=
      (settled_watch s₁ e).1.mpr (by rw [settled]; simp)
    have unheard : s.heard? e (.step t) = none := unheard_of_idle (fun u => congrFun idle u) _
    have later := wakesInTurn_of_run begins settled run
    rw [State.wakeEnds, moved, wakeEnd_of_unheard unheard]
    exact later
  refine ⟨nodup_of_vigil vigil, inTurn, fun run => (inTurn run).ahead,
    fun run => (inTurn run).behind (nodup_of_vigil vigil), ?_⟩
  intro ms s' payload rest run waking
  rw [State.move, step_of_found waking]
  rfl

/-- A bridge settles an external future that two tasks wait for, and the wake of the first panics. -/
def forgetfulBridge : Prog Nat Empty Unit :=
  .newCell none fun c => .relay c fun e =>
    .newWaker (.panic (.text "boom")) fun first => .newWaker (.ret 0) fun second =>
      .poll e first fun _ => .poll e second fun _ => .decide c (.complete 1) fun _ => .ret 0

theorem wakes_until_panic_bridged : ∃ (s s' : State Nat Empty Unit) (below : List (Frame Nat Empty Unit)),
    Reachable s ∧ WakesUntilPanic s 0 (some "main") 0 below ∧ s.stored 0 = [0, 1] ∧
    s.run (List.replicate 5 (.step 0)) = some s' ∧
    s.wakeEnds 0 (List.replicate 5 (.step 0)) = [(0, .panicked (.text "boom"))] ∧
    (s'.watch 0).woken = [(0, 0)] := by
  have reachable : Reachable _ := ⟨(), forgetfulBridge, List.replicate 12 (.step 0), rfl⟩
  exact ⟨_, _, _, reachable, wakes_until_panic reachable rfl (by decide) rfl, rfl, rfl, rfl, rfl⟩

theorem watch_of_idle (settled : (s.watch e).settled = true) (idle : s.wakings e = fun _ => [])
    (reached : Reaches s s') : s'.watch e = s.watch e := by
  refine reached.induct (P := fun s' => s'.watch e = s.watch e) rfl ?_
  intro s₁ m s₂ same moved
  have idle' : ∀ u, s₁.wakings e u = [] := by
    intro u
    have wakings : s₁.wakings e = s.wakings e := congrArg Watch.wakings same
    rw [wakings, idle]
  exact (watch_of_unheard moved (unheard_of_idle idle' m) (same ▸ settled)).trans same

/-- The second task was stored when the external future was settled, and it is never woken. -/
theorem waker_forgotten : ∃ s s' : State Nat Empty Unit, Reachable s ∧ s.stored 0 = [0, 1] ∧
    (∃ name fs, s.threads[0]? = some ⟨name, .settling 0 (.ok 1) none, fs⟩) ∧ Reaches s s' ∧
    s'.threads = #[⟨some "main", .ended (.value 0), []⟩] ∧
    ∀ s'', Reaches s' s'' → ∀ v, (v, 1) ∉ (s''.watch 0).woken := by
  obtain ⟨s, s', before, stored, settling, after, threads, settled, woken⟩ :
      ∃ s s', (State.start () forgetfulBridge).run (List.replicate 12 (.step 0)) = some s ∧
        s.stored 0 = [0, 1] ∧
        (∃ name fs, s.threads[0]? = some ⟨name, .settling 0 (.ok 1) none, fs⟩) ∧
        s.run (List.replicate 13 (.step 0)) = some s' ∧
        s'.threads = #[⟨some "main", .ended (.value 0), []⟩] ∧ (s'.watch 0).settled = true ∧
        (s'.watch 0).woken = [(0, 0)] := ⟨_, _, rfl, rfl, ⟨_, _, rfl⟩, rfl, rfl, rfl, rfl⟩
  refine ⟨s, s', ⟨(), _, _, before⟩, stored, settling, ⟨_, after⟩, threads, ?_⟩
  have idle : s'.wakings 0 = fun _ => [] := by
    funext u
    cases u <;> simp [State.wakings, threads, wakingsOf]
  intro s'' later v woke
  rw [watch_of_idle settled idle later, woken] at woke
  simp at woke

end Inhabited
end Oneshot
