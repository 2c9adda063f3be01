import Oneshot.Proofs.Dispatch
import Oneshot.Proofs.Origins
import Oneshot.Proofs.Readers
import Oneshot.Proofs.Reports

/-! # The history accounts for the queue

Every registration and every decision is recorded once, and the numbers in the records are those of the
queue: what was queued so far, less what the dispatch has taken out (`accounts_of_run`).  The record of a
decision is made after its critical section, so this is so only if no thread steps in between. -/
set_option autoImplicit false
namespace Oneshot
open Function (update)
variable {V N S : Type}

/-- The marks of `c` among these entries, oldest first, where the latest comes first. -/
def marksOf (c : CellId) (entries : List (Entry N)) : Trace := traceOf c (entries.filterMap Entry.mark?)

def queuedIn (c : CellId) (entries : List (Entry N)) : List CellId :=
  (marksOf c entries).results Mark.queued?

def takenIn (c : CellId) (entries : List (Entry N)) : List CellId :=
  ((marksOf c entries).results Mark.started?).filter (· ∈ queuedIn c entries)

def DecidedIn (c : CellId) (entries : List (Entry N)) : Prop :=
  ∃ t kind queued, ⟨t, .decided c kind queued⟩ ∈ entries

theorem decidedIn_iff {c : CellId} {entries : List (Entry N)} :
    DecidedIn c entries ↔ ∃ t, (t, Mark.decided c) ∈ marksOf c entries := by
  constructor
  · rintro ⟨t, kind, queued, member⟩
    exact ⟨t, mem_traceOf.mpr ⟨List.mem_filterMap.mpr ⟨_, member, rfl⟩, rfl⟩⟩
  · rintro ⟨t, member⟩
    obtain ⟨⟨u, event⟩, recorded, marked⟩ := List.mem_filterMap.mp (mem_traceOf.mp member).1
    cases event with
    | decided b kind queued =>
      cases marked
      exact ⟨_, kind, queued, recorded⟩
    | _ => cases marked

/-- The registration of a continuation of `c`, by what it was recorded as. -/
def Event.registered? (c : CellId) (event : Event N) : Option CellId :=
  match event with
  | .queued b r _ _ | .inlined b r => if b = c then some r else none
  | _ => none

/-- What a decision of `c` was recorded as: its kind, and whether it won. -/
def Event.verdict? (c : CellId) (event : Event N) : Option (Kind × Bool) :=
  match event with
  | .decided b kind _ => if b = c then some (kind, true) else none
  | .ignored b attempted _ => if b = c then some (attempted, false) else none
  | _ => none

def Entry.verdict? (c : CellId) (entry : Entry N) : Option (ThreadId × Kind × Bool) :=
  (entry.event.verdict? c).map (entry.thread, ·)

/-- The ending of a body that was recorded, if it was no value. -/
def Event.bodyEnd? (event : Event N) : Option (Event N) :=
  match event with
  | .bodyFailed _ _ | .bodyPanicked _ _ => some event
  | _ => none

namespace State

/-- The cell that a move makes by a registration at `c`. -/
def registers (c : CellId) (s : State V N S) : Move → List CellId
  | .step t =>
    match s.threads[t]? with
    | some ⟨_, .run p, _⟩ => if p.source? = some c ∧ c < s.cells.size then [s.cells.size] else []
    | _ => []
  | _ => []

/-- The decision of `c` whose critical section a move is, and whether it wins. -/
def decides (c : CellId) (s : State V N S) : Move → List (ThreadId × Kind × Bool)
  | .step t =>
    match s.threads[t]?, s.cells[c]? with
    | some ⟨_, .deciding b o _, _⟩, some cell => if b = c then [(t, o.kind, cell.outcome.isNone)] else []
    | _, _ => []
  | _ => []

/-- The body that has ended as of this move, by the cell that it decides. -/
def captures (s : State V N S) : Move → List (CellId × Ending V)
  | .step t =>
    match s.threads[t]? with
    | some ⟨_, .ended e, .capturing r :: _⟩ => [(r, e)]
    | _ => []
  | _ => []

/-- The cell that a move makes decided from the start. -/
def readies (s : State V N S) : Move → List CellId
  | .step t =>
    match s.threads[t]? with
    | some ⟨_, .run (.newCell (some _) _), _⟩ => [s.cells.size]
    | _ => []
  | _ => []

/-- A thread has decided a cell and is about to record it. -/
def Announcing (s : State V N S) (t : ThreadId) : Prop :=
  ∃ name c kind queued fs, s.threads[t]? = some ⟨name, .announcing c kind queued, fs⟩

variable [Inhabited V]

/-- No thread steps between the critical section of another one's decision and its record. -/
def Unraced (s : State V N S) (ms : List Move) : Prop :=
  ∀ before u after s₁, ms = before ++ .step u :: after → s.run before = some s₁ →
    ∀ t, s₁.Announcing t → t = u

/-- Whenever a thread steps, no other could. -/
def Sequential (s : State V N S) (ms : List Move) : Prop :=
  ∀ before u after s₁, ms = before ++ .step u :: after → s.run before = some s₁ →
    ∀ t, t ≠ u → s₁.step t = none

end State

section Inhabited
variable [Inhabited V] {s s' : State V N S} {c : CellId} {ms : List Move}

theorem unraced_of_sequential (sequential : s.Sequential ms) : s.Unraced ms := by
  intro before u after s₁ split ran t announcing
  by_contra other
  have stuck := sequential before u after s₁ split ran t other
  obtain ⟨name, b, kind, queued, fs, found⟩ := announcing
  rw [step_of_found found] at stuck
  cases stuck

/-! ## Each call is recorded once -/

omit [Inhabited V] in
theorem registered_registerReports (s : State V N S) (b r : CellId) :
    (s.registerReports b r : List (Event N)).filterMap (Event.registered? c) =
      if b = c ∧ c < s.cells.size then [r] else [] := by
  unfold State.registerReports
  cases found : s.cells[b]? with
  | none =>
    have outside := Array.getElem?_eq_none_iff.mp found
    refine (if_neg ?_).symm
    rintro ⟨rfl, inside⟩
    exact Nat.not_lt_of_le outside inside
  | some cell =>
    have inside := (Array.getElem?_eq_some_iff.mp found).1
    by_cases same : b = c
    · subst same
      by_cases waits : cell.queues = true <;> simp [waits, inside, Event.registered?]
    · by_cases waits : cell.queues = true <;> simp [waits, same, Event.registered?]

omit [Inhabited V] in
theorem reports_nil {β : Type} {g : Event N → Option β} {d : Doing V N S} {fs : List (Frame V N S)}
    (none : ∀ event, event.Told s d fs → g event = none) : (d.reports s fs).filterMap g = [] := by
  rw [List.filterMap_eq_nil_iff]
  intro event member
  exact none event (told_of_report member)

omit [Inhabited V] in
theorem registered_reports (s : State V N S) (m : Move) :
    (s.reports m).filterMap (fun entry => entry.event.registered? c) = s.registers c m := by
  cases m with
  | step t =>
    rw [filterMap_reports_step (Event.registered? c), State.registers]
    cases s.threads[t]? with
    | none => rfl
    | some thread =>
      obtain ⟨name, d, fs⟩ := thread
      have silent (none : ∀ p, d = .run p → p.source? ≠ some c) :
          (d.reports s fs).filterMap (Event.registered? c) = [] := by
        apply reports_nil
        intro event told
        cases event with
        | queued b r length dispatching =>
          obtain ⟨cell, ⟨p, run, source, -⟩, -⟩ := told
          exact if_neg fun same : b = c => none p run (same ▸ source)
        | inlined b r =>
          obtain ⟨cell, ⟨p, run, source, -⟩, -⟩ := told
          exact if_neg fun same : b = c => none p run (same ▸ source)
        | _ => rfl
      cases d with
      | run p =>
        by_cases source : p.source? = some c
        · simp only [source, true_and]
          have entered := registered_registerReports (N := N) (c := c) s c s.cells.size
          simp only [true_and] at entered
          cases p with
          | chain b body k =>
            cases source
            exact entered
          | transform b f k =>
            cases source
            exact entered
          | relay b k =>
            cases source
            exact entered
          | _ => cases source
        · simp only [source, false_and, if_false]
          exact silent fun p run => by cases run; exact source
      | _ => exact silent fun p run => by cases run
  | _ => rfl

omit [Inhabited V] in
theorem bodyEnd_reports (s : State V N S) (m : Move) :
    (s.reports m).filterMap (fun entry => entry.event.bodyEnd?) =
      (s.captures m).filterMap fun body => body.2.report? body.1 := by
  cases m with
  | step t =>
    rw [filterMap_reports_step Event.bodyEnd?, State.captures]
    cases s.threads[t]? with
    | none => rfl
    | some thread =>
      obtain ⟨name, d, fs⟩ := thread
      have silent (none : ∀ e r rest, d = .ended e → fs ≠ .capturing r :: rest) :
          (d.reports s fs).filterMap Event.bodyEnd? = [] := by
        apply reports_nil
        intro event told
        cases event with
        | bodyFailed r failure =>
          obtain ⟨e, rest, ended, captures⟩ := told
          exact absurd captures (none e r rest ended)
        | bodyPanicked r message =>
          obtain ⟨e, rest, ended, captures⟩ := told
          exact absurd captures (none e r rest ended)
        | _ => rfl
      cases d with
      | ended e =>
        cases fs with
        | nil => rfl
        | cons frame rest =>
          cases frame with
          | capturing r => cases e <;> rfl
          | _ => exact silent fun e r rest _ captures => by cases captures
      | _ => exact silent fun e r rest ended => by cases ended
  | _ => rfl

/-- What the next step of a thread that does `d` tells of the decisions of `c`. -/
def Doing.verdicts (s : State V N S) (c : CellId) : Doing V N S → List (Kind × Bool)
  | .announcing b kind _ => if b = c then [(kind, true)] else []
  | .deciding b o _ => if b = c then (s.outcome? c).toList.map fun _ => (o.kind, false) else []
  | _ => []

omit [Inhabited V] in
theorem verdict_reports (s : State V N S) (t : ThreadId) {name : Option String} {d : Doing V N S}
    {fs : List (Frame V N S)} (found : s.threads[t]? = some ⟨name, d, fs⟩) :
    (s.reports (.step t)).filterMap (Entry.verdict? c) = (d.verdicts s c).map (t, ·) := by
  have told : (s.reports (.step t)).filterMap (Entry.verdict? c) =
      ((d.reports s fs).filterMap (Event.verdict? c)).map (t, ·) := by
    simp only [State.reports, found, List.filterMap_map, List.map_filterMap]
    rfl
  rw [told]
  cases d with
  | announcing b kind count =>
    by_cases same : b = c <;> simp [Doing.reports, Doing.verdicts, Event.verdict?, same]
  | deciding b o k =>
    by_cases same : b = c
    · subst same
      cases outcome : s.outcome? b <;> simp [Doing.reports, Doing.verdicts, Event.verdict?, outcome]
    · cases outcome : s.outcome? b <;>
        simp [Doing.reports, Doing.verdicts, Event.verdict?, outcome, same]
  | _ =>
    refine congrArg (List.map (t, ·)) (reports_nil fun event told => ?_)
    cases event with
    | decided b kind count => cases told
    | ignored b attempted held =>
      obtain ⟨o, k, now, deciding, -⟩ := told
      cases deciding
    | _ => rfl

theorem registered_of_run (blank : s.history = []) (ran : s.run ms = some s') :
    s'.history.reverse.filterMap (fun entry => entry.event.registered? c) =
      s.gather (State.registers c) ms := by
  rw [history_of_run ran, blank, List.append_nil, List.reverse_reverse, filterMap_gather]
  exact congrArg (s.gather · ms) (funext fun s => funext fun m => registered_reports s m)

theorem bodyEnds_of_run (blank : s.history = []) (ran : s.run ms = some s') :
    s'.history.reverse.filterMap (fun entry => entry.event.bodyEnd?) =
      (s.gather State.captures ms).filterMap fun body => body.2.report? body.1 := by
  rw [history_of_run ran, blank, List.append_nil, List.reverse_reverse, filterMap_gather,
    filterMap_gather]
  exact congrArg (s.gather · ms) (funext fun s => funext fun m => bodyEnd_reports s m)

/-! ## The record of a decision -/

theorem wins_of_announcing {t : ThreadId} {d : Doing V N S} {fs : List (Frame V N S)} {n : Next V N S}
    (transition : Transition s t d fs n) {kind : Kind} {count : Nat}
    (announcing : n.doing = .announcing c kind count) :
    ∃ o k cell, d = .deciding c o k ∧ s.cells[c]? = some cell ∧ cell.outcome = none ∧
      kind = o.kind ∧ count = cell.queue.length ∧ n.state = s.modifyCell c (·.decide o) := by
  cases transition with
  | @wins _ o k _ cell found undecided =>
    cases announcing
    exact ⟨o, k, cell, rfl, found, undecided, rfl, rfl, rfl⟩
  | plain _ is _ =>
    rcases is with plain | ⟨e, same⟩
    · simp only at announcing
      subst announcing
      exact plain.elim
    · cases announcing.symm.trans same
  | @loses _ _ k => cases k <;> cases announcing
  | @refuses _ _ k => cases k <;> cases announcing
  | _ => cases announcing

/-- What a thread is about to record of its decision is still so. -/
def State.Tallied (s : State V N S) : Prop :=
  ∀ (t : ThreadId) name c kind count fs, s.threads[t]? = some ⟨name, .announcing c kind count, fs⟩ →
    count = (s.queueOf c).length ∧ (s.outcome? c).map Outcome.kind = some kind

theorem unraced_snoc {m : Move} {s₁ : State V N S} (unraced : s.Unraced (ms ++ [m]))
    (ran : s.run ms = some s₁) : s.Unraced ms ∧ ∀ t u, m = .step u → s₁.Announcing t → t = u := by
  constructor
  · intro before u after s₂ split
    exact unraced before u (after ++ [m]) s₂ (by simp [split])
  · intro t u same announcing
    exact unraced ms u [] s₁ (by simp [same]) ran t announcing

theorem announcing_before {m : Move} (moved : s.move m = some s') {t : ThreadId} {name : Option String}
    {kind : Kind} {count : Nat} {fs : List (Frame V N S)}
    (found : s'.threads[t]? = some ⟨name, .announcing c kind count, fs⟩) :
    (m ≠ .step t ∧ s.threads[t]? = some ⟨name, .announcing c kind count, fs⟩) ∨
      (m = .step t ∧ ∃ o k cell fs', s.threads[t]? = some ⟨name, .deciding c o k, fs'⟩ ∧
        s.cells[c]? = some cell ∧ cell.outcome = none ∧ kind = o.kind ∧ count = cell.queue.length ∧
        ∃ thread, s' = (s.modifyCell c (·.decide o)).setThread t thread) := by
  by_cases own : m = .step t
  · subst own
    obtain ⟨⟨name', d, fs'⟩, n, found', next, rfl⟩ := next_of_step moved
    have transition := transition_of_next next
    rw [thread_after transition found'] at found
    obtain ⟨rfl, doing, -⟩ : name' = name ∧ n.doing = .announcing c kind count ∧ n.frames = fs := by
      simpa using found
    obtain ⟨o, k, cell, deciding, held, undecided, rfl, rfl, state⟩ :=
      wins_of_announcing transition doing
    simp only at deciding
    subst deciding
    exact Or.inr ⟨rfl, o, k, cell, fs', found', held, undecided, rfl, rfl, _, by rw [state]⟩
  · refine Or.inl ⟨own, thread_stood moved own found ?_ ?_⟩
    · intro p run
      cases run
    · intro b limit k expired
      cases expired

theorem unraced_of_alone {t : ThreadId} (alone : ∀ u, .step u ∈ ms → u = t)
    (calm : ∀ u, s.Announcing u → u = t) : s.Unraced ms := by
  intro before u after s₁ split ran v announcing
  have same : u = t := alone u (by simp [split])
  have steps : ∀ u, .step u ∈ before → u = t := fun u member =>
    alone u (split ▸ List.mem_append_left _ member)
  rw [same]
  revert steps v
  refine run_induct (P := fun before s₁ => ∀ v, s₁.Announcing v →
    (∀ u, .step u ∈ before → u = t) → v = t) ?_ ?_ ran
  · exact fun v announcing _ => calm v announcing
  · rintro before s₁ m s₂ - ih moved v ⟨name, b, kind, count, fs, found⟩ steps
    rcases announcing_before moved found with ⟨-, old⟩ | ⟨rfl, -⟩
    · exact ih v ⟨name, b, kind, count, fs, old⟩ fun u member =>
        steps u (List.mem_append_left _ member)
    · exact steps v (by simp)

theorem tallied_of_run (calm : ∀ t, ¬ s.Announcing t) (unraced : s.Unraced ms)
    (ran : s.run ms = some s') : s'.Tallied := by
  revert unraced
  refine run_induct (P := fun ms s' => s.Unraced ms → s'.Tallied) ?_ ?_ ran
  · intro _ t name c kind count fs found
    exact absurd ⟨name, c, kind, count, fs, found⟩ (calm t)
  · intro ms s₁ m s₂ before ih moved unraced t name c kind count fs found
    obtain ⟨unraced, quiet⟩ := unraced_snoc unraced before
    rcases announcing_before moved found with
      ⟨other, old⟩ | ⟨rfl, o, k, cell, fs', -, held, -, rfl, rfl, thread, rfl⟩
    · have now := ih unraced t name c kind count fs old
      rcases step_or_lull moved with ⟨u, rfl⟩ | lull
      · obtain rfl := quiet t u rfl ⟨name, c, kind, count, fs, old⟩
        exact absurd rfl other
      · have outcome : s₂.outcome? c = s₁.outcome? c := lull.still.outcome? c
        rw [lull.queueOf, outcome]
        exact now
    · have queue := State.queueOf_replaceCell held (·.decide o) c
      have outcome := State.outcome?_replaceCell held (·.decide o) c
      rw [if_pos rfl] at queue outcome
      rw [State.outcome?_setThread, outcome]
      exact ⟨(congrArg List.length queue).symm, rfl⟩

/-- The verdicts on `c` that are still to be recorded: one, if a thread has just decided `c`. -/
def State.Owes (c : CellId) (s : State V N S) (pending : List (ThreadId × Kind × Bool)) : Prop :=
  (pending = [] ∧ ∀ (t : ThreadId) name kind count fs,
    s.threads[t]? ≠ some ⟨name, .announcing c kind count, fs⟩) ∨
  ∃ (t : ThreadId) (name : Option String) (kind : Kind) (count : Nat) (fs : List (Frame V N S)),
    pending = [(t, kind, true)] ∧ s.threads[t]? = some ⟨name, .announcing c kind count, fs⟩

theorem owes_of_lull {m : Move} {pending : List (ThreadId × Kind × Bool)} (moved : s.move m = some s')
    (idle : ∀ t, m ≠ .step t) (owes : s.Owes c pending) : s'.Owes c pending := by
  rcases owes with ⟨rfl, nobody⟩ | ⟨t, name, kind, count, fs, rfl, found⟩
  · refine Or.inl ⟨rfl, fun t name kind count fs found => ?_⟩
    rcases announcing_before moved found with ⟨-, old⟩ | ⟨own, -⟩
    · exact nobody t name kind count fs old
    · exact idle t own
  · have kept := thread_kept moved (idle t) found fun w asleep => by cases asleep
    exact Or.inr ⟨t, name, kind, count, fs, rfl, kept⟩

/-- What a step of `t` does to the verdicts, when no other thread is about to record one. -/
theorem owes_of_step {t : ThreadId} {pending : List (ThreadId × Kind × Bool)}
    (moved : s.move (.step t) = some s') (quiet : ∀ u, s.Announcing u → u = t)
    (owes : s.Owes c pending) : ∃ pending', s'.Owes c pending' ∧
      (s.reports (.step t)).filterMap (Entry.verdict? c) ++ pending' =
        pending ++ s.decides c (.step t) := by
  obtain ⟨⟨name, d, fs⟩, n, found, next, -⟩ := next_of_step moved
  rw [verdict_reports s t found]
  have nobody (late : ∀ o k cell, d = .deciding c o k → s.cells[c]? = some cell → cell.outcome ≠ none) :
      s'.Owes c [] := by
    refine Or.inl ⟨rfl, fun u name' kind count fs' announcing => ?_⟩
    rcases announcing_before moved announcing with
      ⟨other, before⟩ | ⟨own, o, k, cell, fs', deciding, held, undecided, -⟩
    · exact other (congrArg Move.step (quiet u ⟨_, _, _, _, _, before⟩).symm)
    · cases own
      cases found.symm.trans deciding
      exact late o k cell rfl held undecided
  have none (other : ∀ kind count, d ≠ .announcing c kind count) : pending = [] := by
    rcases owes with ⟨rfl, -⟩ | ⟨u, name', kind, count, fs', -, announcing⟩
    · rfl
    · obtain rfl := quiet u ⟨_, _, _, _, _, announcing⟩
      cases found.symm.trans announcing
      exact absurd rfl (other kind count)
  cases d with
  | announcing b kind count =>
    by_cases same : b = c
    · subst same
      refine ⟨[], nobody (fun _ _ _ deciding => by cases deciding), ?_⟩
      obtain rfl : pending = [(t, kind, true)] := by
        rcases owes with ⟨-, nobody⟩ | ⟨u, name', kind', count', fs', rfl, announcing⟩
        · exact absurd found (nobody t name kind count fs)
        · obtain rfl := quiet u ⟨_, _, _, _, _, announcing⟩
          cases found.symm.trans announcing
          rfl
      simp [Doing.verdicts, State.decides, found]
    · refine ⟨[], nobody (fun _ _ _ deciding => by cases deciding), ?_⟩
      rw [none fun kind' count' announcing => same (by cases announcing; rfl)]
      simp [Doing.verdicts, State.decides, found, same]
  | deciding b o k =>
    rw [none fun _ _ announcing => by cases announcing]
    by_cases same : b = c
    · subst same
      cases held : s.cells[b]? with
      | none =>
        refine ⟨[], nobody (fun _ _ cell _ here => by cases held.symm.trans here), ?_⟩
        simp [Doing.verdicts, State.decides, found, held, State.outcome?]
      | some cell =>
        cases outcome : cell.outcome with
        | some now =>
          refine ⟨[], nobody (fun _ _ cell' _ here => ?_), ?_⟩
          · cases held.symm.trans here
            simp [outcome]
          · simp [Doing.verdicts, State.decides, found, held, State.outcome?, outcome]
        | none =>
          have won : s.step t = some ((s.modifyCell b (·.decide o)).setThread t
              ⟨name, .announcing b o.kind cell.queue.length, won k ++ fs⟩) := by
            simp [step_of_found found, State.next, State.decideCell, held, outcome]
          cases won.symm.trans moved
          refine ⟨[(t, o.kind, true)], Or.inr ⟨t, _, _, _, _, rfl, thread_setThread found rfl⟩, ?_⟩
          simp [Doing.verdicts, State.decides, found, held, State.outcome?, outcome]
    · refine ⟨[], nobody (fun _ _ _ deciding => absurd (by cases deciding; rfl) same), ?_⟩
      cases held : s.cells[c]? <;> simp [Doing.verdicts, State.decides, found, held, same]
  | _ =>
    rw [none fun _ _ announcing => by cases announcing]
    refine ⟨[], nobody (fun _ _ _ deciding => by cases deciding), ?_⟩
    simp [Doing.verdicts, State.decides, found]

theorem verdicts_of_run (blank : s.history = []) (calm : ∀ t, ¬ s.Announcing t)
    (unraced : s.Unraced ms) (ran : s.run ms = some s') : ∃ pending, s'.Owes c pending ∧
      s'.history.reverse.filterMap (Entry.verdict? c) ++ pending = s.gather (State.decides c) ms := by
  revert unraced
  refine run_induct (P := fun ms s' => s.Unraced ms → ∃ pending, s'.Owes c pending ∧
    s'.history.reverse.filterMap (Entry.verdict? c) ++ pending = s.gather (State.decides c) ms)
    ?_ ?_ ran
  · intro _
    refine ⟨[], Or.inl ⟨rfl, fun t name kind count fs found => ?_⟩, by simp [blank, State.gather]⟩
    exact calm t ⟨name, c, kind, count, fs, found⟩
  · intro ms s₁ m s₂ before ih moved unraced
    obtain ⟨unraced, quiet⟩ := unraced_snoc unraced before
    obtain ⟨pending, owes, told⟩ := ih unraced
    rw [gather_snoc before, ← told, history_of_move moved, List.reverse_append, List.reverse_reverse,
      List.filterMap_append]
    by_cases stepped : ∃ t, m = .step t
    · obtain ⟨t, rfl⟩ := stepped
      obtain ⟨pending', owes', more⟩ := owes_of_step moved (fun u => quiet u t rfl) owes
      exact ⟨pending', owes', by rw [List.append_assoc, more, List.append_assoc]⟩
    · have idle (t : ThreadId) : m ≠ .step t := fun same => stepped ⟨t, same⟩
      refine ⟨pending, owes_of_lull moved idle owes, ?_⟩
      cases m with
      | step t => exact absurd rfl (idle t)
      | _ => simp [State.reports, State.decides]

/-! ## The numbers in the records -/

omit [Inhabited V] in
theorem queued_split {w : View} (course : Course c w) :
    w.queued = w.started.filter (· ∈ w.queued) ++ w.waiting := by
  have started : Trace.results Mark.started? w.runs = w.started := Trace.started_runs w.trace
  have all (rs : List CellId) (known : ∀ r ∈ rs, r ∈ w.queued) : rs.filter (· ∈ w.queued) = rs :=
    List.filter_eq_self.mpr fun r member => by simpa using known r member
  cases course.phase with
  | pending _ _ _ queued runs =>
    rw [started_of_runs runs, List.filter_nil, List.nil_append]
    exact queued
  | announcing _ _ _ _ queued runs =>
    rw [started_of_runs runs, List.filter_nil, List.nil_append]
    exact queued
  | dispatching t done _ _ _ queued runs =>
    have taken : w.started = done := by
      rw [← started, runs]
      exact Trace.started_turns t c done
    rw [taken, all done fun r member => by rw [queued]; exact List.mem_append_left _ member]
    exact queued
  | running t done r _ _ _ queued runs =>
    have taken : w.started = done ++ [r] := by
      rw [← started, runs, Trace.results_append]
      exact congrArg (· ++ [r]) (Trace.started_turns t c done)
    rw [taken, all, queued]
    · simp
    · intro r' member
      rw [queued]
      rcases List.mem_append.mp member with before | now
      · exact List.mem_append_left _ before
      · rw [List.mem_singleton.mp now]
        exact List.mem_append_right _ (List.mem_cons_self ..)
  | closed opening later _ _ waiting opens nested runs =>
    have past := over_of_phase course waiting opens nested runs
    have none : (Trace.results Mark.started? later).filter (· ∈ w.queued) = [] := by
      rw [List.filter_eq_nil_iff]
      intro r member queued
      obtain ⟨entry, recorded, same⟩ := List.mem_filterMap.mp member
      refine past.apart entry recorded r ?_ (by simpa using queued)
      cases mark : entry.2 <;> simp_all [Mark.started?, Mark.result?]
    rw [past.started, List.filter_append, none, all _ fun _ member => member, waiting]
    simp

theorem length_queuedIn (reachable : Reachable s) (c : CellId) :
    (queuedIn c s.history).length = (takenIn c s.history).length + (s.queueOf c).length := by
  have split := queued_split ((orderly_of_reachable reachable).course c)
  have lengths := congrArg List.length split
  rw [List.length_append] at lengths
  have waiting : (s.ledger.view c).waiting.length = (s.queueOf c).length := List.length_map ..
  rw [waiting] at lengths
  exact lengths

omit [Inhabited V] in
theorem announcing_of_duty {t : ThreadId} (duty : .announce c ∈ (s.ledger.view c).duties t) :
    ∃ name kind count fs, s.threads[t]? = some ⟨name, .announcing c kind count, fs⟩ := by
  have member : Duty.announce c ∈ s.duties t := (List.mem_filter.mp duty).1
  unfold State.duties at member
  split at member
  next => cases member
  next thread found =>
    obtain ⟨name, d, fs⟩ := thread
    have none : Duty.announce c ∉ frameDuties fs := by
      clear member found duty
      induction fs with
      | nil => simp [frameDuties]
      | cons frame fs ih =>
        cases frame with
        | finishing b r => rcases ofRun_cases b r fs with same | same <;> simp [frameDuties, same, ih]
        | _ => simp [frameDuties, ih]
    cases d with
    | announcing b kind count =>
      rcases List.mem_cons.mp member with same | below
      · cases same
        exact ⟨name, kind, count, fs, found⟩
      · exact absurd below none
    | draining b => exact absurd member (by simp [dutiesOf, none])
    | starting b task =>
      rcases ofRun_cases b task.result fs with same | same <;>
        exact absurd member (by simp [dutiesOf, same, none])
    | _ => exact absurd member none

/-- A registration that has to queue tells from the flag of the cell whether the decision is recorded,
unless a thread is just about to record it. -/
theorem decided_of_queues (reachable : Reachable s) {cell : Cell V N S}
    (held : s.cells[c]? = some cell) (waits : cell.queues = true)
    (quiet : ∀ (t : ThreadId) name kind count fs,
      s.threads[t]? ≠ some ⟨name, .announcing c kind count, fs⟩) :
    cell.dispatching = false ↔ ¬ DecidedIn c s.history := by
  have flag : (s.ledger.view c).dispatches = cell.dispatching := State.dispatches_of_found held
  have recorded : DecidedIn c s.history ↔ ∃ t, (t, Mark.decided c) ∈ (s.ledger.view c).runs := by
    rw [decidedIn_iff]
    exact exists_congr fun t => ⟨fun member => mem_runs member rfl, fun run => (List.mem_filter.mp run).1⟩
  rw [recorded, ← flag]
  cases phase_of_reachable reachable c with
  | pending _ idle _ _ runs => simp [idle, runs]
  | announcing t _ _ duties =>
    have duty : Duty.announce c ∈ (s.ledger.view c).duties t := by
      rw [duties, only_self]
      exact List.mem_singleton.mpr rfl
    obtain ⟨name, kind, count, fs, found⟩ := announcing_of_duty duty
    exact absurd found (quiet t name kind count fs)
  | dispatching t done _ busy _ _ runs => simp [busy, runs]
  | running t done r _ busy _ _ runs => simp [busy, runs]
  | closed _ _ decided idle =>
    have outcome : (s.ledger.view c).decided = cell.outcome.isSome := State.decided_of_found held
    rw [decided] at outcome
    rw [idle] at flag
    simp only [Cell.queues, ← flag, Bool.or_false] at waits
    rw [Option.isNone_iff_eq_none] at waits
    rw [waits] at outcome
    cases outcome

/-- Before a decision is recorded, no continuation has started, and all that was queued waits. -/
theorem blank_of_announcing (reachable : Reachable s) {t : ThreadId} {name : Option String}
    {kind : Kind} {count : Nat} {fs : List (Frame V N S)}
    (found : s.threads[t]? = some ⟨name, .announcing c kind count, fs⟩) :
    ¬ DecidedIn c s.history ∧ (s.ledger.view c).started = [] ∧
      (queuedIn c s.history).length = (s.queueOf c).length := by
  have top : s.ledger.duties t = .announce c :: frameDuties fs := State.duties_of_found found
  have top := Ledger.duties_view_of_top top
  obtain ⟨-, -, -, -, queued, runs⟩ := announcing_of_top (phase_of_reachable reachable c) top
  refine ⟨?_, started_of_runs runs, ?_⟩
  · rw [decidedIn_iff]
    rintro ⟨u, member⟩
    have run : (u, Mark.decided c) ∈ (s.ledger.view c).runs := mem_runs member rfl
    rw [runs] at run
    cases run
  · exact (congrArg List.length queued).trans (List.length_map ..)

/-- A cell that was made decided: it is not undecided, and no decision of it is recorded or will be. -/
structure State.Given (s : State V N S) (c : CellId) : Prop where
  decided : s.outcome? c ≠ none
  nobody : ∀ (t : ThreadId) name kind count fs,
    s.threads[t]? ≠ some ⟨name, .announcing c kind count, fs⟩
  unrecorded : ¬ DecidedIn c s.history

theorem announcing_of_recorded {m : Move} (moved : s.move m = some s') (recorded : DecidedIn c s'.history) :
    DecidedIn c s.history ∨ ∃ (t : ThreadId) (name : Option String) (kind : Kind) (count : Nat)
      (fs : List (Frame V N S)), s.threads[t]? = some ⟨name, .announcing c kind count, fs⟩ := by
  obtain ⟨u, kind, count, member⟩ := recorded
  rw [history_of_move moved, List.mem_append, List.mem_reverse] at member
  rcases member with now | before
  · cases m with
    | step t =>
      simp only [State.reports] at now
      split at now
      next => cases now
      next thread found =>
        obtain ⟨event, reported, same⟩ := List.mem_map.mp now
        cases same
        have told : thread.doing = .announcing c kind count := told_of_report reported
        exact Or.inr ⟨u, thread.name, kind, count, thread.frames, by rw [found, ← told]⟩
    | _ => cases now
  · exact Or.inl ⟨u, kind, count, before⟩

theorem given_of_move {m : Move} (moved : s.move m = some s') (given : s.Given c) : s'.Given c := by
  refine ⟨(extends_of_advance (advance_of_move moved)).decided given.decided, ?_, fun recorded => ?_⟩
  · intro t name kind count fs found
    rcases announcing_before moved found with ⟨-, old⟩ | ⟨-, o, k, cell, fs', -, held, undecided, -⟩
    · exact given.nobody t name kind count fs old
    · exact given.decided (by rw [State.outcome?_of_found held, undecided])
  · rcases announcing_of_recorded moved recorded with before | ⟨t, name, kind, count, fs, found⟩
    · exact given.unrecorded before
    · exact given.nobody t name kind count fs found

theorem given_of_ready (reachable : Reachable s) {m : Move} (moved : s.move m = some s')
    (ready : c ∈ s.readies m) : s'.Given c := by
  cases m with
  | step t =>
    simp only [State.readies] at ready
    split at ready
    next name a k fs found =>
      obtain rfl := List.mem_singleton.mp ready
      obtain ⟨made, moved', holds⟩ := makesDecided s t name a k fs found
      cases moved.symm.trans moved'
      have sound := sound_of_reachable reachable
      have nobody (u : ThreadId) (name' : Option String) (kind : Kind) (count : Nat)
          (fs' : List (Frame V N S)) :
          s.threads[u]? ≠ some ⟨name', .announcing s.cells.size kind count, fs'⟩ := by
        intro found'
        exact (sound.threads u _ found').top.1 State.outcome?_outside
      refine ⟨?_, fun u name' kind count fs' found' => ?_, fun recorded => ?_⟩
      · intro undecided
        rw [State.holds?, undecided] at holds
        cases holds
      · rcases announcing_before moved found' with ⟨-, old⟩ | ⟨own, o, k', cell, fs'', deciding, -⟩
        · exact nobody u name' kind count fs' old
        · cases own
          cases found.symm.trans deciding
      · rcases announcing_of_recorded moved recorded with
          ⟨u, kind, count, before⟩ | ⟨u, name', kind, count, fs', found'⟩
        · exact (notified_of_recorded reachable before).1 State.outcome?_outside
        · exact nobody u name' kind count fs' found'
    next => cases ready
  | _ => cases ready

theorem given_of_run (reachable : Reachable s) (ran : s.run ms = some s') :
    ∀ c ∈ s.gather State.readies ms, s'.Given c := by
  refine run_induct (P := fun ms s' => ∀ c ∈ s.gather State.readies ms, s'.Given c) ?_ ?_ ran
  · intro c none
    cases none
  · intro ms s₁ m s₂ before ih moved c ready
    rw [gather_snoc before, List.mem_append] at ready
    rcases ready with early | now
    · exact given_of_move moved (ih c early)
    · exact given_of_ready (reachable_of_reaches reachable ⟨ms, before⟩) moved now

/-- How the history of the run `ms` from `s` to `s'` accounts for the continuations of `c`. -/
structure Accounts (s : State V N S) (ms : List Move) (s' : State V N S) (c : CellId) : Prop where
  /-- Each registration is recorded once, as one that queues or as one that is run at once. -/
  registrations : s'.history.reverse.filterMap (fun entry => entry.event.registered? c) =
    s.gather (State.registers c) ms
  /-- Each decision is recorded once, as the one that won or as one that lost. -/
  decisions : ∃ pending, s'.Owes c pending ∧
    s'.history.reverse.filterMap (Entry.verdict? c) ++ pending = s.gather (State.decides c) ms
  /-- Each body that failed or panicked is recorded once, and no other. -/
  bodies : s'.history.reverse.filterMap (fun entry => entry.event.bodyEnd?) =
    (s.gather State.captures ms).filterMap fun body => body.2.report? body.1
  /-- The length in the record of a registration is what was queued, this one included, less what was
  started; its flag tells whether the decision is recorded already. -/
  queued : ∀ {t r length dispatching earlier},
    ⟨t, .queued c r length dispatching⟩ :: earlier <:+ s'.history →
    length + (takenIn c earlier).length = (queuedIn c earlier).length + 1 ∧
      (dispatching = false ↔ ¬ DecidedIn c earlier)
  /-- The decision of a cell is recorded once, with its kind and with how many were queued before. -/
  decided : ∀ {t kind count earlier}, ⟨t, .decided c kind count⟩ :: earlier <:+ s'.history →
    ¬ DecidedIn c earlier ∧ count = (queuedIn c earlier).length ∧
      (s'.outcome? c).map Outcome.kind = some kind
  ready : c ∈ s.gather State.readies ms → ¬ DecidedIn c s'.history
  /-- Who lost was told the kind of the outcome that the cell holds for ever. -/
  ignored : ∀ {t attempted held}, ⟨t, .ignored c attempted held⟩ ∈ s'.history →
    ∃ o, held = o.kind ∧ ∀ s'', Reaches s' s'' → s''.outcome? c = some o
  /-- What an observer is told to wait was queued and is not started yet. -/
  waiting : (s'.snapshot c).queued + (takenIn c s'.history).length = (queuedIn c s'.history).length
  /-- The record of the decision comes before every start. -/
  started : DecidedIn c s'.history → ∀ {t r earlier}, ⟨t, .started c r⟩ :: earlier <:+ s'.history →
    DecidedIn c earlier

omit [Inhabited V] in
theorem calm_start (client : S) (p : Prog V N S) (t : ThreadId) :
    ¬ (State.start (N := N) client p).Announcing t := by
  rintro ⟨name, b, kind, count, fs, found⟩
  cases thread_of_start found

omit [Inhabited V] in
theorem marksOf_silent {early : List (Event N)} (t : ThreadId)
    (silent : ∀ event ∈ early, event.mark? = none) (entries : List (Entry N)) :
    marksOf c ((early.map (Entry.mk t)).reverse ++ entries) = marksOf c entries := by
  have none : ((early.map (Entry.mk t)).reverse).filterMap Entry.mark? = [] := by
    rw [List.filterMap_eq_nil_iff]
    intro entry member
    obtain ⟨event, reported, rfl⟩ := List.mem_map.mp (List.mem_reverse.mp member)
    simp [Entry.mark?, silent event reported]
  rw [marksOf, List.filterMap_append, none]
  rfl

omit [Inhabited V] in
/-- Before a registration is recorded that queues, the call has recorded no more than its bridge. -/
theorem silent_of_queues {q : Prog V N S} {fs : List (Frame V N S)} {cell : Cell V N S}
    {early late : List (Event N)} {r : CellId} {length : Nat} {dispatching : Bool}
    (source : q.source? = some c) (held : s.cells[c]? = some cell) (waits : cell.queues = true)
    (reports : (Doing.run q).reports s fs = early ++ .queued c r length dispatching :: late) :
    ∀ event ∈ early, event.mark? = none := by
  have entered : s.registerReports c s.cells.size =
      [.queued c s.cells.size (cell.queue.length + 1) cell.dispatching] := by
    simp [State.registerReports, held, waits]
  have cases_of (before : List (Event N)) (silent : ∀ event ∈ before, event.mark? = none)
      (same : before ++ [.queued c s.cells.size (cell.queue.length + 1) cell.dispatching] =
        early ++ .queued c r length dispatching :: late) : ∀ event ∈ early, event.mark? = none := by
    have lengths := congrArg List.length same
    simp only [List.length_append, List.length_cons, List.length_nil] at lengths
    have inside : early <+: before :=
      List.prefix_of_prefix_length_le ⟨_, same.symm⟩ (List.prefix_append ..) (by omega)
    exact fun event member => silent event (inside.subset member)
  cases q with
  | chain b body k =>
    cases source
    exact cases_of [] (by simp) (entered.symm.trans reports)
  | transform b f k =>
    cases source
    exact cases_of [] (by simp) (entered.symm.trans reports)
  | relay b k =>
    cases source
    refine cases_of [.bridged c s.externals.size] (by simp [Event.mark?]) ?_
    rw [List.singleton_append, ← entered]
    exact reports
  | _ => cases source

section Run
variable {client : S} {p : Prog V N S}

theorem queued_accounts (ran : (State.start client p).run ms = some s')
    (unraced : (State.start client p).Unraced ms) {t : ThreadId} {r : CellId} {length : Nat}
    {dispatching : Bool} {earlier : List (Entry N)}
    (suffix : ⟨t, .queued c r length dispatching⟩ :: earlier <:+ s'.history) :
    length + (takenIn c earlier).length = (queuedIn c earlier).length + 1 ∧
      (dispatching = false ↔ ¬ DecidedIn c earlier) := by
  obtain ⟨s₁, name, d, fs, ⟨before, after, split, ran₁⟩, -, found, early, late, reports, rfl⟩ :=
    moment_of_entry rfl ran suffix
  have reachable : Reachable s₁ := ⟨client, p, before, ran₁⟩
  have told : (Event.queued c r length dispatching).Told s₁ d fs := told_of_report (reports ▸ by simp)
  obtain ⟨cell, ⟨q, rfl, source, held⟩, waits, rfl, rfl, rfl⟩ := told
  have quiet (u : ThreadId) (name' : Option String) (kind : Kind) (count : Nat)
      (fs' : List (Frame V N S)) : s₁.threads[u]? ≠ some ⟨name', .announcing c kind count, fs'⟩ := by
    intro found'
    obtain rfl := unraced before t after s₁ split ran₁ u ⟨_, _, _, _, _, found'⟩
    cases found.symm.trans found'
  have same := marksOf_silent (c := c) t (silent_of_queues source held waits reports) s₁.history
  have lengths := length_queuedIn reachable c
  rw [State.queueOf_of_found held] at lengths
  have decided : DecidedIn c ((early.map (Entry.mk t)).reverse ++ s₁.history) ↔
      DecidedIn c s₁.history := by
    rw [decidedIn_iff, decidedIn_iff, same]
  rw [decided, takenIn, queuedIn, same]
  exact ⟨by change _ + (takenIn c s₁.history).length = (queuedIn c s₁.history).length + 1; omega,
    decided_of_queues reachable held waits quiet⟩

theorem recording_of_decided (ran : (State.start client p).run ms = some s') {t : ThreadId} {kind : Kind}
    {count : Nat} {earlier : List (Entry N)}
    (suffix : ⟨t, .decided c kind count⟩ :: earlier <:+ s'.history) :
    ∃ s₁ name fs before after, ms = before ++ .step t :: after ∧
      (State.start client p).run before = some s₁ ∧ Reaches s₁ s' ∧
      s₁.threads[t]? = some ⟨name, .announcing c kind count, fs⟩ ∧ earlier = s₁.history := by
  obtain ⟨s₁, name, d, fs, ⟨before, after, split, ran₁⟩, later, found, early, late, reports, rfl⟩ :=
    moment_of_entry rfl ran suffix
  have told : (Event.decided c kind count).Told s₁ d fs := told_of_report (by rw [reports]; simp)
  obtain rfl : d = .announcing c kind count := told
  obtain rfl : early = [] := by
    cases early with
    | nil => rfl
    | cons event early => simp [Doing.reports] at reports
  exact ⟨s₁, name, fs, before, after, split, ran₁, later, found, rfl⟩

theorem decided_accounts (ran : (State.start client p).run ms = some s')
    (unraced : (State.start client p).Unraced ms) {t : ThreadId} {kind : Kind} {count : Nat}
    {earlier : List (Entry N)} (suffix : ⟨t, .decided c kind count⟩ :: earlier <:+ s'.history) :
    ¬ DecidedIn c earlier ∧ count = (queuedIn c earlier).length ∧
      (s'.outcome? c).map Outcome.kind = some kind := by
  obtain ⟨s₁, name, fs, before, after, split, ran₁, later, found, rfl⟩ :=
    recording_of_decided ran suffix
  have unraced₁ : (State.start client p).Unraced before := by
    intro b u a s₂ split'
    exact unraced b u (a ++ .step t :: after) s₂ (by simp [split, split'])
  obtain ⟨length, kind'⟩ :=
    tallied_of_run (calm_start client p) unraced₁ ran₁ t name c kind count fs found
  obtain ⟨unrecorded, -, queued⟩ := blank_of_announcing ⟨client, p, before, ran₁⟩ found
  refine ⟨unrecorded, length.trans queued.symm, ?_⟩
  have decided : s₁.outcome? c ≠ none := by
    intro none
    rw [none] at kind'
    cases kind'
  rw [(extends_of_reaches later).outcomes c decided, kind']

theorem started_accounts (ran : (State.start client p).run ms = some s')
    (recorded : DecidedIn c s'.history) {t : ThreadId} {r : CellId} {earlier : List (Entry N)}
    (suffix : ⟨t, .started c r⟩ :: earlier <:+ s'.history) : DecidedIn c earlier := by
  obtain ⟨u, kind, count, member⟩ := recorded
  obtain ⟨newer, older, split⟩ := List.append_of_mem member
  have record : ⟨u, .decided c kind count⟩ :: older <:+ s'.history := ⟨newer, split.symm⟩
  rcases List.suffix_or_suffix_of_suffix suffix record with inside | inside
  · rcases List.suffix_cons_iff.mp inside with same | before
    · cases same
    · -- The start would be older than the record, and nothing starts before that.
      exfalso
      obtain ⟨s₁, name, fs, b, a, -, ran₁, -, found, rfl⟩ := recording_of_decided ran record
      obtain ⟨-, none, -⟩ := blank_of_announcing ⟨client, p, b, ran₁⟩ found
      have marked : (t, Mark.started c r) ∈ s₁.ledger.marks :=
        List.mem_filterMap.mpr ⟨_, before.subset (List.mem_cons_self ..), rfl⟩
      have started : r ∈ (s₁.ledger.view c).started :=
        List.mem_filterMap.mpr ⟨_, mem_traceOf.mpr ⟨marked, rfl⟩, rfl⟩
      rw [none] at started
      cases started
  · rcases List.suffix_cons_iff.mp inside with same | before
    · cases same
    · exact ⟨u, kind, count, before.subset (List.mem_cons_self ..)⟩

theorem accounts_of_run (ran : (State.start client p).run ms = some s')
    (unraced : (State.start client p).Unraced ms) (c : CellId) :
    Accounts (State.start client p) ms s' c where
  registrations := registered_of_run rfl ran
  decisions := verdicts_of_run rfl (calm_start client p) unraced ran
  bodies := bodyEnds_of_run rfl ran
  queued suffix := queued_accounts ran unraced suffix
  decided suffix := decided_accounts ran unraced suffix
  ready made := (given_of_run ⟨client, p, .refl _⟩ ran c made).unrecorded
  ignored := by
    intro t attempted held member
    obtain ⟨newer, older, split⟩ := List.append_of_mem member
    obtain ⟨s₁, name, d, fs, -, later, found, early, late, reports, -⟩ :=
      moment_of_entry rfl ran ⟨newer, split.symm⟩
    have told : (Event.ignored c attempted held).Told s₁ d fs := told_of_report (reports ▸ by simp)
    obtain ⟨o, k, now, -, decided, -, rfl⟩ := told
    refine ⟨now, rfl, fun s'' reached => ?_⟩
    exact (extends_of_reaches (later.trans reached)).keeps decided
  waiting := by
    have lengths := length_queuedIn ⟨client, p, ms, ran⟩ c
    have shown : (s'.snapshot c).queued = (s'.queueOf c).length := by
      unfold State.snapshot State.queueOf
      cases s'.cells[c]? <;> rfl
    omega
  started recorded := started_accounts ran recorded

end Run

/-- The dispatch of the first cell is joined by a continuation that the first of its bodies registers;
that body fails, the next one panics, and the second attempt at the cell loses. -/
def tangledQueue : Prog Nat Empty Unit :=
  .newCell none fun c => .chain c (.chain c (.ret 5) fun _ => .err (.message "no")) fun _ =>
    .transform c (fun _ => .panic (.text "boom")) fun _ =>
      .decide c (.complete 1) fun _ => .decide c .cancel fun _ => .ret 0

theorem accounts_of_run_tangled : ∃ s',
    (State.start () tangledQueue).run (List.replicate 39 (.step 0)) = some s' ∧
    (State.start () tangledQueue).Unraced (List.replicate 39 (.step 0)) ∧
    Accounts (State.start () tangledQueue) (List.replicate 39 (.step 0)) s' 0 ∧
    s'.history.reverse.map Entry.event =
      [.queued 0 1 1 false, .queued 0 2 2 false, .decided 0 .value 2, .started 0 1,
        .queued 0 3 2 true, .bodyFailed 1 (.message "no"), .decided 1 .error 0, .finished 0 1,
        .started 0 2, .bodyPanicked 2 "boom", .decided 2 .error 0, .finished 0 2,
        .started 0 3, .decided 3 .value 0, .finished 0 3, .ignored 0 .cancelled .value] := by
  have unraced : (State.start (N := Empty) () tangledQueue).Unraced (List.replicate 39 (.step 0)) := by
    apply unraced_of_alone (t := 0)
    · intro u member
      cases List.eq_of_mem_replicate member
      rfl
    · exact fun u announcing => absurd announcing (calm_start () tangledQueue u)
  exact ⟨_, rfl, unraced, accounts_of_run rfl unraced 0, rfl⟩

end Inhabited
end Oneshot
