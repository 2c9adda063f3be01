import Mathlib.Data.List.Induction
import Oneshot.Proofs.Phase
import Oneshot.Proofs.Untouched

/-! # The watch over an external future

Tasks ask an external future while it is not settled and are stored, once each.  One call settles it: it
takes the stored wakers out and wakes them in turn.  `Vigil` says how far this has come, and each of the
changes that a move can make keeps it (`vigil_of_turns`). -/
set_option autoImplicit false
namespace Oneshot
open Function (update)

/-- What a state says of one external future: whether it is settled, who is stored, who is still to be
woken, and what has happened to it. -/
structure Watch where
  settled : Bool
  stored : List WakerId
  /-- For each thread, the loops that it is in, innermost first. -/
  wakings : ThreadId → List (List WakerId)
  /-- Oldest first. -/
  trace : List (ThreadId × Ring)

def Ring.parked? : Ring → Option WakerId
  | .parked w => some w
  | _ => none

def Ring.woke? : Ring → Option WakerId
  | .woke w => some w
  | _ => none

def pick (kind : Ring → Option WakerId) (trace : List (ThreadId × Ring)) :
    List (ThreadId × WakerId) :=
  trace.filterMap fun entry => (kind entry.2).map (entry.1, ·)

theorem pick_append (kind : Ring → Option WakerId) (trace trace' : List (ThreadId × Ring)) :
    pick kind (trace ++ trace') = pick kind trace ++ pick kind trace' :=
  List.filterMap_append

namespace Watch

def polled (w : Watch) : List (ThreadId × WakerId) := pick Ring.parked? w.trace

def woken (w : Watch) : List (ThreadId × WakerId) := pick Ring.woke? w.trace

/-- The wakers that asked, in the order in which they asked first. -/
def asked (w : Watch) : List WakerId := (w.polled.map Prod.snd).eraseDups

/-- What one move may change. -/
inductive Turns (w : Watch) : Watch → Prop
  | still : Turns w w
  | parks {t u} (unsettled : w.settled = false) :
      Turns w
        { w with
          stored := if u ∈ w.stored then w.stored else w.stored ++ [u]
          trace := w.trace ++ [(t, .parked u)] }
  | settles {t} (unsettled : w.settled = false) :
      Turns w
        { settled := true
          stored := []
          wakings := update w.wakings t (w.stored :: w.wakings t)
          trace := w.trace ++ [(t, .resolved)] }
  | wakes {t u us rest} (top : w.wakings t = (u :: us) :: rest) :
      Turns w
        { w with
          wakings := update w.wakings t (us :: rest)
          trace := w.trace ++ [(t, .woke u)] }
  | leaves {t rest} (top : w.wakings t = [] :: rest) :
      Turns w { w with wakings := update w.wakings t rest }

end Watch

def parkings (polls : List (ThreadId × WakerId)) : List (ThreadId × Ring) :=
  polls.map fun poll => (poll.1, .parked poll.2)

/-- The winning resolution of `t`, which has woken `ws` so far. -/
def wakes (t : ThreadId) (ws : List WakerId) : List (ThreadId × Ring) :=
  (t, .resolved) :: ws.map fun w => (t, .woke w)

/-- How far an external future has come. -/
inductive Vigil (w : Watch) : Prop
  | waiting (polls : List (ThreadId × WakerId)) (unsettled : w.settled = false)
      (stored : w.stored = (polls.map Prod.snd).eraseDups) (idle : w.wakings = fun _ => [])
      (trace : w.trace = parkings polls)
  | waking (t : ThreadId) (polls : List (ThreadId × WakerId)) (done rest : List WakerId)
      (settled : w.settled = true) (emptied : w.stored = [])
      (wakings : w.wakings = update (fun _ => []) t [rest])
      (asked : (polls.map Prod.snd).eraseDups = done ++ rest)
      (trace : w.trace = parkings polls ++ wakes t done)
  | woken (t : ThreadId) (polls : List (ThreadId × WakerId)) (settled : w.settled = true)
      (emptied : w.stored = []) (idle : w.wakings = fun _ => [])
      (trace : w.trace = parkings polls ++ wakes t (polls.map Prod.snd).eraseDups)

theorem eraseDups_snoc (us : List WakerId) (u : WakerId) :
    (us ++ [u]).eraseDups = if u ∈ us.eraseDups then us.eraseDups else us.eraseDups ++ [u] := by
  rw [List.eraseDups_append]
  by_cases known : u ∈ us
  · simp [known, List.removeAll]
  · simp [known, List.removeAll, List.eraseDups_cons]

theorem nodup_eraseDups (us : List WakerId) : us.eraseDups.Nodup := by
  induction us using List.reverseRecOn with
  | nil => exact List.nodup_nil
  | append_singleton us u distinct =>
    rw [eraseDups_snoc]
    split
    next => exact distinct
    next new => exact nodup_append_new distinct new

theorem vigil_of_turns {w w' : Watch} (turns : w.Turns w') (vigil : Vigil w) : Vigil w' := by
  cases turns with
  | still => exact vigil
  | @parks t u unsettled =>
    cases vigil with
    | waiting polls _ stored idle trace =>
      refine .waiting (polls ++ [(t, u)]) unsettled ?_ idle ?_
      · simp only [List.map_append, List.map_cons, List.map_nil, eraseDups_snoc, stored]
      · simp [trace, parkings]
    | waking _ _ _ _ settled => cases unsettled.symm.trans settled
    | woken _ _ settled => cases unsettled.symm.trans settled
  | @settles t unsettled =>
    cases vigil with
    | waiting polls _ stored idle trace =>
      refine .waking t polls [] w.stored rfl rfl ?_ stored.symm ?_
      · simp only [idle]
      · simp [trace, wakes]
    | waking _ _ _ _ settled => cases unsettled.symm.trans settled
    | woken _ _ settled => cases unsettled.symm.trans settled
  | @wakes t u us rest top =>
    cases vigil with
    | waiting _ _ _ idle => simp [idle] at top
    | waking v polls done left settled emptied wakings asked trace =>
      rw [wakings, Function.update_apply] at top
      split at top
      next same =>
        subst same
        cases top
        refine .waking t polls (done ++ [u]) us settled emptied ?_ ?_ ?_
        · simp only [wakings, Function.update_idem]
        · simp [asked]
        · simp [trace, Oneshot.wakes]
      next => cases top
    | woken _ _ _ _ idle => simp [idle] at top
  | @leaves t rest top =>
    cases vigil with
    | waiting _ _ _ idle => simp [idle] at top
    | waking v polls done left settled emptied wakings asked trace =>
      rw [wakings, Function.update_apply] at top
      split at top
      next same =>
        subst same
        cases top
        refine .woken t polls settled emptied ?_ ?_
        · simp only [wakings, Function.update_idem]
          exact Function.update_eq_self ..
        · rw [asked, List.append_nil]
          exact trace
      next => cases top
    | woken _ _ _ _ idle => simp [idle] at top

section Read
variable {w : Watch}

theorem pick_parkings (polls : List (ThreadId × WakerId)) :
    pick Ring.parked? (parkings polls) = polls ∧ pick Ring.woke? (parkings polls) = [] := by
  induction polls with
  | nil => exact ⟨rfl, rfl⟩
  | cons poll polls ih => exact ⟨congrArg (poll :: ·) ih.1, ih.2⟩

theorem pick_wakes (t : ThreadId) (ws : List WakerId) :
    pick Ring.parked? (wakes t ws) = [] ∧ pick Ring.woke? (wakes t ws) = ws.map (t, ·) := by
  induction ws with
  | nil => exact ⟨rfl, rfl⟩
  | cons w ws ih => exact ⟨ih.1, congrArg ((t, w) :: ·) ih.2⟩

theorem polled_of_trace {polls : List (ThreadId × WakerId)} {t : ThreadId} {ws : List WakerId}
    (trace : w.trace = parkings polls ++ wakes t ws) :
    w.polled = polls ∧ w.woken = ws.map (t, ·) := by
  unfold Watch.polled Watch.woken
  rw [trace, pick_append, pick_append, (pick_parkings polls).1, (pick_parkings polls).2,
    (pick_wakes t ws).1, (pick_wakes t ws).2]
  exact ⟨List.append_nil _, rfl⟩

theorem stored_of_vigil (vigil : Vigil w) (unsettled : w.settled = false) : w.stored = w.asked := by
  cases vigil with
  | waiting polls _ stored _ trace =>
    rw [stored, Watch.asked, Watch.polled, trace, (pick_parkings polls).1]
  | waking _ _ _ _ settled => cases unsettled.symm.trans settled
  | woken _ _ settled => cases unsettled.symm.trans settled

theorem emptied_of_vigil (vigil : Vigil w) (settled : w.settled = true) : w.stored = [] := by
  cases vigil with
  | waiting _ unsettled => cases unsettled.symm.trans settled
  | waking _ _ _ _ _ emptied => exact emptied
  | woken _ _ _ emptied => exact emptied

theorem nodup_of_vigil (vigil : Vigil w) : w.stored.Nodup := by
  cases vigil with
  | waiting _ _ stored =>
    rw [stored]
    exact nodup_eraseDups _
  | waking _ _ _ _ _ emptied => exact emptied ▸ List.nodup_nil
  | woken _ _ _ emptied => exact emptied ▸ List.nodup_nil

theorem woken_of_waking (vigil : Vigil w) {t : ThreadId} {rest : List WakerId}
    (loop : rest ∈ w.wakings t) : w.wakings t = [rest] ∧
      ∃ done, w.asked = done ++ rest ∧ w.woken = done.map (t, ·) := by
  cases vigil with
  | waiting _ _ _ idle => simp [idle] at loop
  | waking u polls done left _ _ wakings asked trace =>
    rw [wakings, Function.update_apply] at loop ⊢
    split at loop
    next same =>
      subst same
      obtain ⟨polled, woken⟩ := polled_of_trace trace
      cases List.mem_singleton.mp loop
      exact ⟨if_pos rfl, done, by rw [Watch.asked, polled, asked], woken⟩
    next => cases loop
  | woken _ _ _ _ idle => simp [idle] at loop

/-- Who asked is stored, or is still to be woken, or was woken after the resolution. -/
theorem remembered_of_vigil (vigil : Vigil w) {t : ThreadId} {u : WakerId}
    (asked : (t, .parked u) ∈ w.trace) : (w.settled = false ∧ u ∈ w.stored) ∨
      (w.settled = true ∧ ∃ v ws, w.wakings v = [ws] ∧ u ∈ ws) ∨
      ∃ v before after, w.trace = before ++ (v, .resolved) :: after ∧ (v, .woke u) ∈ after := by
  have polled {polls : List (ThreadId × WakerId)} (v : ThreadId) (ws : List WakerId)
      (member : (t, Ring.parked u) ∈ parkings polls ++ wakes v ws) :
      u ∈ (polls.map Prod.snd).eraseDups := by
    rw [List.mem_eraseDups]
    simp only [parkings, wakes, List.mem_append, List.mem_map, List.mem_cons, Prod.mk.injEq,
      Ring.parked.injEq, reduceCtorEq, and_false, exists_false, or_false] at member
    obtain ⟨poll, member, -, same⟩ := member
    exact List.mem_map.mpr ⟨poll, member, same⟩
  cases vigil with
  | waiting polls unsettled stored _ trace =>
    rw [trace] at asked
    refine Or.inl ⟨unsettled, ?_⟩
    rw [stored]
    exact polled t [] (List.mem_append_left _ asked)
  | waking v polls done rest settled _ wakings split trace =>
    rw [trace] at asked
    have member := polled v done asked
    rw [split] at member
    rcases List.mem_append.mp member with woken | left
    · exact Or.inr (Or.inr ⟨v, _, _, trace, List.mem_map.mpr ⟨u, woken, rfl⟩⟩)
    · refine Or.inr (Or.inl ⟨settled, v, rest, ?_, left⟩)
      rw [wakings, Function.update_self]
  | woken v polls _ _ _ trace =>
    rw [trace] at asked
    exact Or.inr (Or.inr ⟨v, _, _, trace, List.mem_map.mpr ⟨u, polled v _ asked, rfl⟩⟩)

theorem settled_of_woke (vigil : Vigil w) {t : ThreadId} {u : WakerId}
    (woke : (t, .woke u) ∈ w.trace) :
    w.settled = true ∧ (t, .resolved) ∈ w.trace := by
  have winner {polls : List (ThreadId × WakerId)} {v : ThreadId} {ws : List WakerId}
      (trace : w.trace = parkings polls ++ wakes v ws) : (t, Ring.resolved) ∈ w.trace := by
    rw [trace] at woke ⊢
    simp only [parkings, wakes, List.mem_append, List.mem_map, List.mem_cons, Prod.mk.injEq,
      reduceCtorEq, and_false, exists_false, false_or] at woke
    obtain ⟨_, _, rfl, _⟩ := woke
    exact List.mem_append_right _ List.mem_cons_self
  cases vigil with
  | waiting polls _ _ _ trace =>
    rw [trace] at woke
    simp [parkings] at woke
  | waking _ _ _ _ settled _ _ _ trace => exact ⟨settled, winner trace⟩
  | woken _ _ settled _ _ trace => exact ⟨settled, winner trace⟩

theorem settled_of_waking (vigil : Vigil w) {t : ThreadId} (loop : w.wakings t ≠ []) :
    w.settled = true := by
  cases vigil with
  | waiting _ _ _ idle => simp [idle] at loop
  | waking _ _ _ _ settled => exact settled
  | woken _ _ settled => exact settled

theorem polled_of_turns {w' : Watch} (turns : w.Turns w') (settled : w.settled = true) :
    w'.polled = w.polled := by
  cases turns with
  | still => rfl
  | parks unsettled => cases unsettled.symm.trans settled
  | settles unsettled => cases unsettled.symm.trans settled
  | wakes _ => simp [Watch.polled, pick, Ring.parked?]
  | leaves _ => rfl

end Read

end Oneshot
