import Mathlib.Data.List.Induction
import Oneshot.Proofs.Records

/-! # What a step reports

What a step records is read off what the thread is about to do (`history_of_next`), so the history of a
run is what its moves report, one after the other (`history_of_run`), and every entry of it has its
moment in the run (`moment_of_entry`). -/
set_option autoImplicit false
namespace Oneshot
variable {V N S : Type}

namespace State

def registerReports (s : State V N S) (c result : CellId) : List (Event N) :=
  match s.cells[c]? with
  | none => []
  | some cell =>
    if cell.queues then [.queued c result (cell.queue.length + 1) cell.dispatching]
    else [.inlined c result, .started c result]

def settleReports (s : State V N S) (e : ExternalId) : List (Event N) :=
  match s.externals[e]? with
  | none => []
  | some x =>
    match x.value with
    | some _ => [.refused e]
    | none => [.resolved e x.wakers.length]

def pollReports (s : State V N S) (e : ExternalId) (w : WakerId) : List (Event N) :=
  match s.externals[e]? with
  | none => []
  | some x =>
    match x.value with
    | some _ => []
    | none => [.parked e w]

end State

def Prog.reports (s : State V N S) : Prog V N S → List (Event N)
  | .chain c _ _ => s.registerReports c s.cells.size
  | .transform c _ _ => s.registerReports c s.cells.size
  | .relay c _ => .bridged c s.externals.size :: s.registerReports c s.cells.size
  | .poll e w _ => s.pollReports e w
  | .note n _ => [.noted n]
  | _ => []

def Ending.report? (result : CellId) : Ending V → Option (Event N)
  | .value _ => none
  | .failed failure => some (.bodyFailed result failure)
  | .panicked payload => some (.bodyPanicked result payload.message)

def Frame.reports (e : Ending V) : Frame V N S → List (Event N)
  | .capturing result => (e.report? result).toList
  | .finishing c result =>
    match e with
    | .panicked _ => []
    | _ => [.finished c result]
  | .waking x (w :: _) =>
    match e with
    | .panicked _ => []
    | _ => [.woke x w]
  | _ => []

/-- What the next step of a thread reports, in turn. -/
def Doing.reports (s : State V N S) (fs : List (Frame V N S)) : Doing V N S → List (Event N)
  | .run p => p.reports s
  | .deciding c o _ => (s.outcome? c).toList.map fun held => .ignored c o.kind held.kind
  | .announcing c kind queued => [.decided c kind queued]
  | .draining c => (s.queueOf c).head?.toList.map fun task => .started c task.result
  | .starting c (.transform result _) =>
    match (s.outcome? c).map Outcome.reading with
    | some (.error _) => [.handedOn c result]
    | _ => []
  | .settling e _ _ => s.settleReports e
  | .expired c limit _ => if (s.outcome? c).isSome then [] else [.timedOut c limit]
  | .ended e => fs.head?.toList.flatMap (Frame.reports e)
  | _ => []

def State.reports (s : State V N S) : Move → List (Entry N)
  | .step t =>
    match s.threads[t]? with
    | none => []
    | some thread => (thread.doing.reports s thread.frames).map (Entry.mk t)
  | _ => []

def Doing.Enters (s : State V N S) (c : CellId) (cell : Cell V N S) (d : Doing V N S) : Prop :=
  ∃ p, d = .run p ∧ p.source? = some c ∧ s.cells[c]? = some cell

/-- What a thread that does `d` above `fs` is up to when it reports this of a cell or of a body. -/
def Event.Told (s : State V N S) (d : Doing V N S) (fs : List (Frame V N S)) : Event N → Prop
  | .queued c r length dispatching => ∃ cell, d.Enters s c cell ∧ cell.queues = true ∧
      r = s.cells.size ∧ length = cell.queue.length + 1 ∧ dispatching = cell.dispatching
  | .inlined c r => ∃ cell, d.Enters s c cell ∧ cell.queues = false ∧ r = s.cells.size
  | .started c r => d = .draining c ∨ ∃ cell, d.Enters s c cell ∧ cell.queues = false ∧ r = s.cells.size
  | .decided c kind count => d = .announcing c kind count
  | .ignored c attempted held => ∃ o k now, d = .deciding c o k ∧ s.outcome? c = some now ∧
      attempted = o.kind ∧ held = now.kind
  | .bodyFailed r _ | .bodyPanicked r _ => ∃ e rest, d = .ended e ∧ fs = .capturing r :: rest
  | _ => True

section Told
variable {s : State V N S} {d : Doing V N S} {fs : List (Frame V N S)} {event : Event N}

theorem told_of_register {p : Prog V N S} {c : CellId} (source : p.source? = some c)
    (member : event ∈ s.registerReports c s.cells.size) : event.Told s (.run p) fs := by
  unfold State.registerReports at member
  split at member
  next => cases member
  next cell found =>
    split at member
    next waits =>
      rw [List.mem_singleton] at member
      subst member
      exact ⟨cell, ⟨p, rfl, source, found⟩, waits, rfl, rfl, rfl⟩
    next free =>
      have entered : (Doing.run p).Enters s c cell := ⟨p, rfl, source, found⟩
      have idle := Bool.eq_false_iff.mpr free
      rw [List.mem_cons, List.mem_singleton] at member
      rcases member with rfl | rfl
      · exact ⟨cell, entered, idle, rfl⟩
      · exact Or.inr ⟨cell, entered, idle, rfl⟩

theorem told_of_perform {p : Prog V N S} (member : event ∈ p.reports s) :
    event.Told s (.run p) fs := by
  cases p with
  | chain c body k => exact told_of_register rfl member
  | transform c f k => exact told_of_register rfl member
  | relay c k =>
    rcases List.mem_cons.mp member with rfl | entered
    · trivial
    · exact told_of_register rfl entered
  | poll e w k =>
    simp only [Prog.reports, State.pollReports] at member
    split at member
    next => cases member
    next =>
      split at member
      next => cases member
      next =>
        rw [List.mem_singleton] at member
        subst member
        trivial
  | note n k =>
    rw [Prog.reports, List.mem_singleton] at member
    subst member
    trivial
  | _ => cases member

theorem told_of_frame {frame : Frame V N S} {e : Ending V} {rest : List (Frame V N S)}
    (member : event ∈ frame.reports e) : event.Told s (.ended e) (frame :: rest) := by
  cases frame with
  | capturing r =>
    cases e with
    | value v => cases member
    | _ =>
      obtain rfl := List.mem_singleton.mp member
      exact ⟨_, rest, rfl, rfl⟩
  | finishing c r => cases e <;> cases member <;> trivial
  | waking x ws => cases ws <;> cases e <;> cases member <;> trivial
  | _ => cases member

theorem told_of_report (member : event ∈ d.reports s fs) : event.Told s d fs := by
  cases d with
  | run p => exact told_of_perform member
  | deciding c o k =>
    obtain ⟨now, held, rfl⟩ := List.mem_map.mp member
    exact ⟨o, k, now, rfl, Option.mem_toList.mp held, rfl, rfl⟩
  | announcing c kind queued =>
    obtain rfl := List.mem_singleton.mp member
    rfl
  | draining c =>
    obtain ⟨task, -, rfl⟩ := List.mem_map.mp member
    exact Or.inl rfl
  | starting c task =>
    cases task with
    | transform r f =>
      simp only [Doing.reports] at member
      split at member
      next =>
        obtain rfl := List.mem_singleton.mp member
        trivial
      next => cases member
    | _ => cases member
  | settling e r k =>
    simp only [Doing.reports, State.settleReports] at member
    split at member
    next => cases member
    next =>
      split at member <;>
        · obtain rfl := List.mem_singleton.mp member
          trivial
  | expired c limit k =>
    simp only [Doing.reports] at member
    split at member
    next => cases member
    next =>
      obtain rfl := List.mem_singleton.mp member
      trivial
  | ended e =>
    cases fs with
    | nil => cases member
    | cons frame rest =>
      have reported : event ∈ frame.reports e := by simpa [Doing.reports] using member
      exact told_of_frame reported
  | _ => cases member

end Told

theorem filterMap_reports_step {β : Type} (g : Event N → Option β) (s : State V N S) (t : ThreadId) :
    (s.reports (.step t)).filterMap (fun entry => g entry.event) =
      match s.threads[t]? with
      | none => []
      | some thread => (thread.doing.reports s thread.frames).filterMap g := by
  simp only [State.reports]
  cases s.threads[t]? with
  | none => rfl
  | some thread => exact List.filterMap_map

section Inhabited
variable [Inhabited V] {s s' : State V N S} {t : ThreadId} {d : Doing V N S} {fs : List (Frame V N S)}
  {n : Next V N S}

omit [Inhabited V] in
theorem history_of_register (s : State V N S) (t : ThreadId) (c : CellId) (task : Task V N S)
    (p : Prog V N S) (fs : List (Frame V N S)) : (s.register t c task p fs).state.history =
      ((s.registerReports c task.result).map (Entry.mk t)).reverse ++ s.history := by
  unfold State.register State.registerReports
  cases s.cells[c]? with
  | none => rfl
  | some cell => by_cases waits : cell.queues = true <;> simp [waits] <;> rfl

omit [Inhabited V] in
theorem history_of_perform {p : Prog V N S} (moved : s.perform t p fs = some n) :
    n.state.history = ((p.reports s).map (Entry.mk t)).reverse ++ s.history := by
  cases p with
  | newCell start k => cases start <;> cases moved <;> rfl
  | decide c a k =>
    simp only [State.perform] at moved
    split at moved <;> cases moved <;> rfl
  | chain c body k =>
    cases moved
    exact history_of_register s t c _ _ fs
  | transform c f k =>
    cases moved
    exact history_of_register s t c _ _ fs
  | relay c k =>
    cases moved
    have entered := history_of_register (s.addExternal.log t (.bridged c s.externals.size)) t c
      (.relay s.cells.size s.externals.size) (k s.externals.size) fs
    rw [entered, Prog.reports, List.map_cons, List.reverse_cons, List.append_assoc]
    rfl
  | poll e w k =>
    cases moved
    simp only [State.pollExternal, Prog.reports, State.pollReports]
    cases s.externals[e]? with
    | none => rfl
    | some x => cases value : x.value <;> simp only [value] <;> rfl
  | join u k =>
    obtain ⟨e, _, rfl⟩ := Option.map_eq_some_iff.mp moved
    rfl
  | _ =>
    cases moved
    rfl

theorem history_of_next (moved : s.next t d fs = some n) :
    n.state.history = ((d.reports s fs).map (Entry.mk t)).reverse ++ s.history := by
  cases d with
  | run p => exact history_of_perform moved
  | deciding c o k =>
    cases moved
    simp only [State.decideCell, Doing.reports, State.outcome?]
    cases s.cells[c]? with
    | none => rfl
    | some cell => cases outcome : cell.outcome <;> simp only [Option.bind, outcome] <;> rfl
  | announcing c kind queued =>
    cases moved
    rfl
  | draining c =>
    cases moved
    simp only [State.drain, Doing.reports, State.queueOf, Cell.takeFirst]
    cases s.cells[c]? with
    | none => rfl
    | some cell => cases queue : cell.queue <;> simp [queue] <;> rfl
  | starting c task =>
    cases moved
    cases task with
    | transform result f =>
      simp only [State.startTask, Doing.reports]
      cases (s.outcome? c).map Outcome.reading with
      | none => rfl
      | some r => cases r <;> rfl
    | _ => rfl
  | relaying c e =>
    simp only [State.next] at moved
    split at moved <;> cases moved <;> rfl
  | settling e r k =>
    cases moved
    simp only [State.settleExternal, Doing.reports, State.settleReports]
    cases s.externals[e]? with
    | none => rfl
    | some x => cases value : x.value <;> simp only [value] <;> rfl
  | checking w =>
    obtain ⟨cell, -, ⟨-, rfl⟩ | ⟨o, -, rfl⟩⟩ := check_cases moved <;> rfl
  | asleep w =>
    obtain ⟨-, rfl⟩ := notified_of_next moved
    rfl
  | expired c limit k =>
    cases moved
    simp only [State.giveUp, Doing.reports]
    cases s.outcome? c <;> rfl
  | ended e =>
    cases fs with
    | nil => cases moved
    | cons frame rest =>
      cases moved
      cases frame with
      | waking x ws => cases ws <;> cases e <;> rfl
      | _ => cases e <;> rfl

theorem history_of_move {m : Move} (moved : s.move m = some s') :
    s'.history = (s.reports m).reverse ++ s.history := by
  cases m with
  | step t =>
    obtain ⟨thread, n, found, next, rfl⟩ := next_of_step moved
    have recorded := history_of_next next
    simp only [State.reports, found]
    exact recorded
  | pass nanos =>
    cases moved
    rfl
  | expire t =>
    obtain ⟨_, c, _, _, _, _, -, -, -, rfl⟩ := asleep_of_expire moved
    rfl
  | stir t =>
    obtain ⟨_, w, _, -, rfl⟩ := asleep_of_stir moved
    rfl

/-- What `f` gives at each move of a run, one after the other. -/
def State.gather {α : Type} (f : State V N S → Move → List α) (s : State V N S) : List Move → List α
  | [] => []
  | m :: ms =>
    f s m ++
      match s.move m with
      | none => []
      | some s' => s'.gather f ms

theorem run_snoc {ms : List Move} {m : Move} :
    s.run (ms ++ [m]) = some s' ↔ ∃ s₁, s.run ms = some s₁ ∧ s₁.move m = some s' := by
  rw [State.run_append, Option.bind_eq_some_iff]
  simp [State.run]

theorem run_induct {P : List Move → State V N S → Prop} (start : P [] s)
    (keeps : ∀ ms s₁ m s₂, s.run ms = some s₁ → P ms s₁ → s₁.move m = some s₂ → P (ms ++ [m]) s₂)
    {ms : List Move} (ran : s.run ms = some s') : P ms s' := by
  induction ms using List.reverseRecOn generalizing s' with
  | nil =>
    cases ran
    exact start
  | append_singleton ms m ih =>
    obtain ⟨s₁, before, moved⟩ := run_snoc.mp ran
    exact keeps ms s₁ m s' before (ih before) moved

section Gather
variable {α β : Type} {f : State V N S → Move → List α}

theorem gather_snoc {ms : List Move} {s₁ : State V N S} (ran : s.run ms = some s₁) (m : Move) :
    s.gather f (ms ++ [m]) = s.gather f ms ++ f s₁ m := by
  induction ms generalizing s with
  | nil =>
    cases ran
    simp only [List.nil_append, State.gather]
    split <;> simp
  | cons m' ms ih =>
    obtain ⟨middle, moved, ran⟩ := Option.bind_eq_some_iff.mp ran
    simp only [List.cons_append, State.gather, moved, ih ran, List.append_assoc]

theorem filterMap_gather (g : α → Option β) (s : State V N S) (ms : List Move) :
    (s.gather f ms).filterMap g = s.gather (fun s m => (f s m).filterMap g) ms := by
  induction ms generalizing s with
  | nil => rfl
  | cons m ms ih =>
    simp only [State.gather, List.filterMap_append]
    split
    next => rfl
    next s' _ => rw [ih s']

end Gather

theorem history_of_run {ms : List Move} (ran : s.run ms = some s') :
    s'.history = (s.gather State.reports ms).reverse ++ s.history := by
  refine run_induct (P := fun ms s' => s'.history = (s.gather State.reports ms).reverse ++ s.history)
    rfl ?_ ran
  intro ms s₁ m s₂ before recorded moved
  rw [history_of_move moved, recorded, gather_snoc before, List.reverse_append, List.append_assoc]

omit [Inhabited V] in
/-- An entry of a history that has grown is an old one or one of the new ones. -/
theorem suffix_of_grown {new : List (Entry N)} {history earlier : List (Entry N)} {entry : Entry N}
    (suffix : entry :: earlier <:+ new.reverse ++ history) : entry :: earlier <:+ history ∨
      ∃ early late, new = early ++ entry :: late ∧ earlier = early.reverse ++ history := by
  induction new using List.reverseRecOn with
  | nil => exact Or.inl suffix
  | append_singleton new last ih =>
    rw [List.reverse_append, List.append_assoc] at suffix
    rcases List.suffix_cons_iff.mp suffix with now | before
    · obtain ⟨rfl, rfl⟩ := List.cons.inj now
      exact Or.inr ⟨new, [], rfl, rfl⟩
    · rcases ih before with old | ⟨early, late, rfl, rfl⟩
      · exact Or.inl old
      · exact Or.inr ⟨early, late ++ [last], by simp, rfl⟩

/-- The moment in the run from `s₀` to `s'` at which `entry` was recorded on top of `earlier`: a step
from `s` of a thread that did `d` above `fs`. -/
structure Moment (s₀ : State V N S) (ms : List Move) (s' : State V N S) (entry : Entry N)
    (earlier : List (Entry N)) (s : State V N S) (name : Option String) (d : Doing V N S)
    (fs : List (Frame V N S)) : Prop where
  before : ∃ before after, ms = before ++ .step entry.thread :: after ∧ s₀.run before = some s
  later : Reaches s s'
  found : s.threads[entry.thread]? = some ⟨name, d, fs⟩
  recorded : ∃ early late, d.reports s fs = early ++ entry.event :: late ∧
    earlier = (early.map (Entry.mk entry.thread)).reverse ++ s.history

theorem moment_of_entry {s₀ : State V N S} {ms : List Move} (blank : s₀.history = [])
    (ran : s₀.run ms = some s') {entry : Entry N} {earlier : List (Entry N)}
    (suffix : entry :: earlier <:+ s'.history) :
    ∃ s name d fs, Moment s₀ ms s' entry earlier s name d fs := by
  revert suffix
  refine run_induct (P := fun ms s' => entry :: earlier <:+ s'.history →
    ∃ s name d fs, Moment s₀ ms s' entry earlier s name d fs) ?_ ?_ ran
  · intro none
    rw [blank] at none
    simp at none
  · intro ms s₁ m s₂ before ih moved suffix
    rw [history_of_move moved] at suffix
    rcases suffix_of_grown suffix with old | ⟨early, late, reports, rfl⟩
    · obtain ⟨s, name, d, fs, ⟨b, a, rfl, reached⟩, later, found, recorded⟩ := ih old
      exact ⟨s, name, d, fs, ⟨b, a ++ [m], by simp, reached⟩, later.trans (.of_move moved), found,
        recorded⟩
    · cases m with
      | step t =>
        simp only [State.reports] at reports
        split at reports
        next => simp at reports
        next thread found =>
          obtain ⟨early', rest, split', rfl, entry'⟩ := List.map_eq_append_iff.mp reports
          obtain ⟨event, late', rfl, rfl, rfl⟩ := List.map_eq_cons_iff.mp entry'
          exact ⟨s₁, thread.name, thread.doing, thread.frames, ⟨ms, [], rfl, before⟩,
            .of_move moved, found, early', late', split', rfl⟩
      | _ => simp [State.reports] at reports

end Inhabited
end Oneshot
