import Oneshot.Proofs.Calls
import Oneshot.Proofs.Untouched

/-! # Blocked readers

A reader checks its cell under the lock, and has its reading or joins the waiting set.  A reader that
waits for a decided cell is about to be notified (`attended_of_reachable`), and no reader comes back from
an undecided cell but at its deadline (`readers_released`). -/
set_option autoImplicit false
namespace Oneshot
variable {V N S : Type}

/-- Where the read `w` is at the time `now`: it checks, it sleeps, or it has left the waiting set at its
deadline. -/
inductive Doing.Reads (now : Nat) (w : Wait V N S) : Doing V N S → Prop
  | checking : Reads now w (.checking w)
  | asleep : Reads now w (.asleep w)
  | expired {limit : Duration} {deadline : Nat} (limited : w.limit = some (limit, deadline))
      (reached : deadline ≤ now) : Reads now w (.expired w.cell limit w.resume)

/-- What the read `w` may come back with in `s`. -/
inductive Wait.Answer (s : State V N S) (w : Wait V N S) : Reading V → Prop
  | outcome {o : Outcome V} (decided : s.outcome? w.cell = some o) : Answer s w o.reading
  | timeout {limit : Duration} {deadline : Nat} (limited : w.limit = some (limit, deadline))
      (reached : deadline ≤ s.now) (undecided : s.outcome? w.cell = none) :
      Answer s w (.error (.timeout limit))

theorem Outcome.reading_ne_timeout (o : Outcome V) (limit : Duration) :
    o.reading ≠ .error (.timeout limit) := by
  cases o <;> simp [reading]

namespace State
variable {s s' : State V N S} {t u : ThreadId} {c : CellId}

def Reads (t : ThreadId) (name : Option String) (w : Wait V N S) (fs : List (Frame V N S))
    (s : State V N S) : Prop :=
  ∃ d, s.threads[t]? = some ⟨name, d, fs⟩ ∧ d.Reads s.now w

theorem waits_of_cells (same : s'.cells = s.cells) (waits : s'.Waits t c) : s.Waits t c := by
  obtain ⟨cell, found, member⟩ := waits
  exact ⟨cell, same ▸ found, member⟩

theorem waits_of_addCell {cell : Cell V N S} (nobody : cell.waiting = [])
    (waits : (s.addCell cell).Waits t c) : s.Waits t c := by
  obtain ⟨x, found, member⟩ := waits
  rw [getElem?_addCell] at found
  split at found
  next =>
    cases found
    rw [nobody] at member
    cases member
  next => exact ⟨x, found, member⟩

theorem waits_of_modifyCell {b : CellId} (f : Cell V N S → Cell V N S)
    (fewer : ∀ cell, s.cells[b]? = some cell → ∀ u ∈ (f cell).waiting, u ∈ cell.waiting)
    (waits : (s.modifyCell b f).Waits t c) : s.Waits t c := by
  obtain ⟨x, found, member⟩ := waits
  rw [getElem?_modifyCell] at found
  split at found
  next same =>
    subst same
    obtain ⟨cell, held, rfl⟩ := Option.map_eq_some_iff.mp found
    exact ⟨cell, held, fewer cell held t member⟩
  next => exact ⟨x, found, member⟩

theorem waits_of_register {task : Task V N S} {p : Prog V N S} {fs : List (Frame V N S)}
    {b : CellId} (waits : (s.register u b task p fs).state.Waits t c) : s.Waits t c := by
  unfold register at waits
  split at waits
  next => exact waits_of_addCell rfl waits
  next =>
    split at waits
    next =>
      have before : ((s.addCell .derived).modifyCell b (·.enqueue task)).Waits t c := waits
      exact waits_of_addCell rfl
        (waits_of_modifyCell (·.enqueue task) (fun _ _ _ member => member) before)
    next =>
      have before : (s.addCell .derived).Waits t c := waits
      exact waits_of_addCell rfl before

end State

section Inhabited
variable [Inhabited V] {s s' : State V N S} {t : ThreadId}

/-- A thread joins the waiting set of an undecided cell only. -/
theorem waiting_of_next {d : Doing V N S} {fs : List (Frame V N S)} {n : Next V N S}
    (moved : s.next t d fs = some n) {u : ThreadId} {c : CellId} (waits : n.state.Waits u c) :
    s.Waits u c ∨ n.state.outcome? c = none := by
  cases d with
  | run p =>
    refine Or.inl ?_
    cases p with
    | newCell start k =>
      cases start <;> cases moved <;> exact State.waits_of_addCell rfl waits
    | chain b body k =>
      cases moved
      exact State.waits_of_register waits
    | transform b f k =>
      cases moved
      exact State.waits_of_register waits
    | relay b k =>
      cases moved
      let s₀ := s.addExternal.log t (.bridged b s.externals.size)
      have before : s₀.Waits u c := State.waits_of_register waits
      exact before
    | _ => exact State.waits_of_cells ((untouched_of_next moved).cells fun touches => touches) waits
  | deciding b o k =>
    cases moved
    refine Or.inl ?_
    unfold State.decideCell at waits
    split at waits
    next => exact waits
    next =>
      split at waits
      next => exact waits
      next => exact State.waits_of_modifyCell (·.decide o) (fun _ _ _ member => member) waits
  | announcing b kind queued =>
    cases moved
    refine Or.inl ?_
    have before : (s.modifyCell b Cell.notifyAll).Waits u c := waits
    exact State.waits_of_modifyCell Cell.notifyAll (fun _ _ _ member => by cases member) before
  | draining b =>
    cases moved
    refine Or.inl ?_
    unfold State.drain at waits
    split at waits
    next => exact waits
    next cell found =>
      have kept (x : Cell V N S) (here : s.cells[b]? = some x) :
          ∀ v ∈ cell.takeFirst.2.waiting, v ∈ x.waiting := by
        cases found.symm.trans here
        unfold Cell.takeFirst
        split <;> exact fun _ member => member
      split at waits
      next left took =>
        rw [took] at kept
        exact State.waits_of_modifyCell (fun _ => left) kept waits
      next task left took =>
        rw [took] at kept
        have before : (s.modifyCell b fun _ => left).Waits u c := waits
        exact State.waits_of_modifyCell (fun _ => left) kept before
  | checking w =>
    obtain ⟨cell, found, ⟨undecided, rfl⟩ | ⟨o, -, rfl⟩⟩ := check_cases moved
    · by_cases here : c = w.cell
      · refine Or.inr ?_
        rw [here]
        have slept := State.outcome?_replaceCell found (·.sleep t) w.cell
        rw [if_pos rfl] at slept
        exact slept.trans undecided
      · obtain ⟨x, held, member⟩ := waits
        rw [State.getElem?_replaceCell found, if_neg here] at held
        exact Or.inl ⟨x, held, member⟩
    · exact Or.inl waits
  | _ =>
    exact Or.inl (State.waits_of_cells ((untouched_of_next moved).cells fun touches => touches) waits)

def State.Announces (s : State V N S) (c : CellId) : Prop :=
  ∃ (u : ThreadId) (thread : Thread V N S) (kind : Kind) (queued : Nat),
    s.threads[u]? = some thread ∧ thread.doing = .announcing c kind queued

/-- Who waits for a decided cell is about to be notified. -/
def State.Attended (s : State V N S) : Prop :=
  ∀ t c, s.Waits t c → s.outcome? c = none ∨ s.Announces c

theorem announces_other {d : Doing V N S} {fs : List (Frame V N S)} {n : Next V N S}
    (transition : Transition s t d fs n) {thread' : Thread V N S} {c : CellId} {u : ThreadId}
    (other : u ≠ t) {thread : Thread V N S} (found : s.threads[u]? = some thread) {kind : Kind}
    {queued : Nat} (announcing : thread.doing = .announcing c kind queued) :
    (n.state.setThread t thread').Announces c :=
  ⟨u, thread, kind, queued, thread_other transition other found, announcing⟩

theorem announces_of_undecided {d : Doing V N S} {fs : List (Frame V N S)} {n : Next V N S}
    (transition : Transition s t d fs n) {c : CellId} (has : c < s.cells.size)
    (undecided : s.outcome? c = none) :
    n.state.outcome? c = none ∨ ∃ kind queued, n.doing = .announcing c kind queued := by
  rcases outcome_of_transition transition has with same | ⟨o, k, rfl⟩
  · exact Or.inl (same.trans undecided)
  · cases transition with
    | plain was => exact was.elim
    | loses _ closed => exact absurd undecided (closed has)
    | wins _ _ => exact Or.inr ⟨_, _, rfl⟩

theorem attended_of_step {s' : State V N S} (moved : s.step t = some s') (attended : s.Attended) :
    s'.Attended := by
  obtain ⟨thread, n, found, next, rfl⟩ := next_of_step moved
  have transition := transition_of_next next
  have here : (n.state.setThread t ⟨thread.name, n.doing, n.frames⟩).threads[t]? =
    some ⟨thread.name, n.doing, n.frames⟩ := thread_after transition found
  intro u c waits
  rcases waiting_of_next next waits with before | undecided
  · obtain ⟨cell, held, member⟩ := before
    have has := (Array.getElem?_eq_some_iff.mp held).1
    rcases attended u c ⟨cell, held, member⟩ with
      undecided | ⟨v, other, kind, queued, known, announcing⟩
    · rcases announces_of_undecided transition has undecided with still | ⟨kind, queued, announcing⟩
      · exact Or.inl still
      · exact Or.inr ⟨t, _, kind, queued, here, announcing⟩
    · by_cases own : v = t
      · -- The thread notifies in this very step, and nobody waits any more.
        subst own
        cases Option.some.inj (found.symm.trans known)
        rw [announcing] at next
        cases next
        obtain ⟨x, notified, waiting⟩ := waits
        have emptied := State.getElem?_replaceCell held Cell.notifyAll c
        rw [if_pos rfl] at emptied
        cases Option.some.inj (emptied.symm.trans notified)
        cases waiting
      · exact Or.inr (announces_other transition own known announcing)
  · exact Or.inl undecided

theorem attended_of_move {m : Move} (moved : s.move m = some s') (attended : s.Attended) :
    s'.Attended := by
  have roused {b : CellId} {v u : ThreadId} {c : CellId}
      (waits : (s.modifyCell b (·.rouse v)).Waits u c) :
      s.Waits u c :=
    State.waits_of_modifyCell (·.rouse v) (fun _ _ _ member => (Cell.mem_waiting_rouse.mp member).1) waits
  cases m with
  | step t => exact attended_of_step moved attended
  | pass nanos =>
    cases moved
    exact attended
  | expire t =>
    obtain ⟨name, b, limit, deadline, k, fs, found, -, -, rfl⟩ := asleep_of_expire moved
    intro u c waits
    have same := State.outcome?_modifyCell s b c (·.rouse t) fun _ => rfl
    rcases attended u c (roused waits) with undecided | ⟨v, other, kind, queued, known, announcing⟩
    · exact Or.inl (same.trans undecided)
    · have apart : v ≠ t := by
        rintro rfl
        cases Option.some.inj (found.symm.trans known)
        cases announcing
      refine Or.inr ⟨v, other, kind, queued, ?_, announcing⟩
      rw [State.getElem?_setThread, if_neg (Ne.symm apart)]
      exact known
  | stir t =>
    obtain ⟨_, w, _, -, rfl⟩ := asleep_of_stir moved
    intro u c waits
    have same := State.outcome?_modifyCell s w.cell c (·.rouse t) fun _ => rfl
    rcases attended u c (roused waits) with undecided | announces
    · exact Or.inl (same.trans undecided)
    · exact Or.inr announces

theorem attended_of_reachable (reachable : Reachable s) : s.Attended := by
  obtain ⟨client, p, reached⟩ := reachable
  refine reached.induct (P := State.Attended) ?_ fun _ _ _ attended moved =>
    attended_of_move moved attended
  rintro t c ⟨cell, found, -⟩
  simp [State.start] at found

theorem now_of_step (moved : s.step t = some s') : s'.now = s.now := by
  obtain ⟨thread, n, found, next, rfl⟩ := next_of_step moved
  exact (untouched_of_next next).now

def State.Answered (t : ThreadId) (name : Option String) (w : Wait V N S) (fs : List (Frame V N S))
    (s : State V N S) : Prop :=
  ∃ r, w.Answer s r ∧ s.Back t name (w.resume r) fs

omit [Inhabited V] in
theorem Wait.Answer.setThread {w : Wait V N S} {r : Reading V} (answer : w.Answer s r) (t : ThreadId)
    (thread : Thread V N S) : w.Answer (s.setThread t thread) r := by
  cases answer with
  | outcome decided => exact .outcome decided
  | timeout limited reached undecided => exact .timeout limited reached undecided

/-- A step of a reader leaves it inside its read, or is the return. -/
theorem reads_of_next {w : Wait V N S} {d : Doing V N S} {fs : List (Frame V N S)} {n : Next V N S}
    (moved : s.next t d fs = some n) (reads : d.Reads s.now w) :
    n.frames = fs ∧ (n.doing.Reads n.state.now w ∨
      ∃ r, w.Answer n.state r ∧ n.doing = .run (w.resume r)) := by
  cases reads with
  | checking =>
    obtain ⟨cell, found, ⟨-, rfl⟩ | ⟨o, decided, rfl⟩⟩ := check_cases moved
    · exact ⟨rfl, Or.inl .asleep⟩
    · exact ⟨rfl, Or.inr ⟨_, .outcome (by rw [State.outcome?_of_found found, decided]), rfl⟩⟩
  | asleep =>
    obtain ⟨-, rfl⟩ := notified_of_next moved
    exact ⟨rfl, Or.inl .checking⟩
  | @expired limit deadline limited reached =>
    cases moved
    unfold State.giveUp
    split
    next o decided => exact ⟨rfl, Or.inr ⟨_, .outcome decided, rfl⟩⟩
    next undecided => exact ⟨rfl, Or.inr ⟨_, .timeout limited reached undecided, rfl⟩⟩

omit [Inhabited V] in
theorem Doing.Reads.mono {now now' : Nat} {w : Wait V N S} {d : Doing V N S} (reads : d.Reads now w)
    (later : now ≤ now') : d.Reads now' w := by
  cases reads with
  | checking => exact .checking
  | asleep => exact .asleep
  | expired limited reached => exact .expired limited (Nat.le_trans reached later)

theorem reading_of_move {name : Option String} {w : Wait V N S} {fs : List (Frame V N S)} {m : Move}
    (reading : s.Reads t name w fs) (moved : s.move m = some s') :
    s'.Reads t name w fs ∨ s'.Answered t name w fs := by
  obtain ⟨d, found, reads⟩ := reading
  cases m with
  | step u =>
    have later : s'.now = s.now := now_of_step moved
    obtain ⟨thread, n, found', next, rfl⟩ := next_of_step moved
    have transition := transition_of_next next
    by_cases own : t = u
    · subst own
      cases Option.some.inj (found.symm.trans found')
      obtain ⟨after, doing, frames⟩ := n
      obtain ⟨rfl, on | ⟨r, answer, rfl⟩⟩ := reads_of_next next reads
      · exact Or.inl ⟨doing, thread_after transition found, on⟩
      · exact Or.inr ⟨r, answer.setThread t _, thread_after transition found⟩
    · refine Or.inl ⟨d, thread_other transition own found, ?_⟩
      rw [later]
      exact reads
  | pass nanos =>
    cases moved
    exact Or.inl ⟨d, found, reads.mono (Nat.le_add_right _ _)⟩
  | expire u =>
    refine Or.inl ?_
    obtain ⟨name', c, limit, deadline, k, fs', found', -, reached, rfl⟩ := asleep_of_expire moved
    by_cases own : t = u
    · subst own
      cases Option.some.inj (found.symm.trans found')
      cases reads
      exact ⟨.expired c limit k, thread_setThread found rfl, .expired rfl reached⟩
    · refine ⟨d, ?_, reads⟩
      rw [State.getElem?_setThread, if_neg (Ne.symm own)]
      exact found
  | stir u =>
    obtain ⟨_, w, _, -, rfl⟩ := asleep_of_stir moved
    exact Or.inl ⟨d, found, reads⟩

omit [Inhabited V] in
/-- Who has recorded its decision has decided the cell, and notified the readers. -/
theorem announced_of_recorded {c : CellId} {w : View} (phase : Phase c w) {t : ThreadId}
    (recorded : (t, .decided c) ∈ w.trace) : w.decided = true ∧ ∀ u, .announce c ∉ w.duties u := by
  have run : (t, Mark.decided c) ∈ w.runs := mem_runs recorded rfl
  cases phase with
  | pending _ _ _ _ runs =>
    rw [runs] at run
    cases run
  | announcing _ _ _ _ _ runs =>
    rw [runs] at run
    cases run
  | dispatching _ _ decided _ duties =>
    refine ⟨decided, fun u announces => ?_⟩
    rw [duties] at announces
    simpa using (mem_only announces).2
  | running _ _ _ decided _ duties =>
    refine ⟨decided, fun u announces => ?_⟩
    rw [duties] at announces
    simpa using (mem_only announces).2
  | closed _ _ decided _ _ _ nested =>
    refine ⟨decided, fun u announces => ?_⟩
    obtain ⟨r, same⟩ := nested.inline announces
    cases same

theorem notified_of_recorded (reachable : Reachable s) {c : CellId} {kind : Kind} {queued : Nat}
    (recorded : ⟨t, .decided c kind queued⟩ ∈ s.history) : s.outcome? c ≠ none ∧ ¬ s.Announces c := by
  have marked : (t, Mark.decided c) ∈ s.ledger.marks := List.mem_filterMap.mpr ⟨_, recorded, rfl⟩
  obtain ⟨decided, announced⟩ :=
    announced_of_recorded (phase_of_reachable reachable c) (mem_traceOf.mpr ⟨marked, rfl⟩)
  refine ⟨Option.isSome_iff_ne_none.mp decided, ?_⟩
  rintro ⟨u, thread, kind', queued', found, announcing⟩
  have duties : s.duties u = .announce c :: frameDuties thread.frames := by
    rw [State.duties_of_found found, announcing]
    rfl
  apply announced u
  simp [Ledger.view, State.ledger, duties, about, Duty.cell]

/-- Thread `t` goes on with the outcome of `c`, which is no timeout. -/
def State.Told (t : ThreadId) (name : Option String) (c : CellId) (k : Reading V → Prog V N S)
    (fs : List (Frame V N S)) (s : State V N S) : Prop :=
  ∃ o, s.outcome? c = some o ∧ (∀ limit, o.reading ≠ .error (.timeout limit)) ∧
    s.Back t name (k o.reading) fs

omit [Inhabited V] in
theorem told_of_outcome {name : Option String} {c : CellId} {k : Reading V → Prog V N S}
    {fs : List (Frame V N S)} {o : Outcome V} (decided : s.outcome? c = some o)
    (back : s.Back t name (k o.reading) fs) : s.Told t name c k fs :=
  ⟨o, decided, o.reading_ne_timeout, back⟩

structure ReadersReleased (s : State V N S) : Prop where
  /-- When the readers of a decided cell have been notified, none of them waits any more. -/
  released : ∀ c, s.outcome? c ≠ none → ¬ s.Announces c → ∀ t, ¬ s.Waits t c
  notified : ∀ t c kind queued, ⟨t, .decided c kind queued⟩ ∈ s.history →
    s.outcome? c ≠ none ∧ ¬ s.Announces c
  /-- A read without a limit comes back with an outcome only. -/
  gets : ∀ {t name c k fs}, s.threads[t]? = some ⟨name, .run (.get c k), fs⟩ →
    ∃ s₁, s.move (.step t) = some s₁ ∧ ∀ ms,
      Until (State.Reads t name ⟨c, none, k⟩ fs) (State.Told t name c k fs) s₁ ms
  /-- A read with a limit may come back from an undecided cell too, at its deadline, and says which
  limit it had.  A deadline that cannot be told is never reached. -/
  timed : ∀ {t name c limit k fs},
    s.threads[t]? = some ⟨name, .run (.getTimeout c limit k), fs⟩ →
    ∃ s₁, s.move (.step t) = some s₁ ∧ ∀ ms,
      Until (State.Reads t name ⟨c, s.deadline? limit, k⟩ fs)
        (fun s' => s'.Told t name c k fs ∨
          (s.now + limit.toNanos < State.endOfTime ∧ s.now + limit.toNanos ≤ s'.now ∧
            s'.outcome? c = none ∧ s'.Back t name (k (.error (.timeout limit))) fs)) s₁ ms
  /-- A reader that looks at a decided cell has its outcome, though its wait may have timed out. -/
  checks : ∀ {t name d w fs}, s.threads[t]? = some ⟨name, d, fs⟩ →
    (d = .checking w ∨ ∃ limit, d = .expired w.cell limit w.resume) → s.outcome? w.cell ≠ none →
    ∃ s', s.move (.step t) = some s' ∧ s'.Told t name w.cell w.resume fs
  /-- A reader that was notified comes back with the outcome in two steps of its own. -/
  wakes : ∀ {t name w fs}, s.threads[t]? = some ⟨name, .asleep w, fs⟩ → s.outcome? w.cell ≠ none →
    ¬ s.Announces w.cell →
    ∃ s', s.run [.step t, .step t] = some s' ∧ s'.Told t name w.cell w.resume fs
  /-- All that a reader changes is who waits. -/
  untouched : ∀ {t name w fs}, s.Reads t name w fs → ∀ m ∈ [.step t, .expire t, .stir t],
    ∀ s', s.move m = some s' → s'.cells.map Cell.core = s.cells.map Cell.core

theorem read_back {name : Option String} {w : Wait V N S} {fs : List (Frame V N S)}
    (reading : s.Reads t name w fs) (ms : List Move) :
    Until (State.Reads t name w fs) (State.Answered t name w fs) s ms :=
  until_of_moves (fun _ _ _ reading moved => reading_of_move reading moved) reading ms

theorem back_of_set_out {name : Option String} {d : Doing V N S} {w : Wait V N S}
    {fs : List (Frame V N S)} {P : State V N S → Prop} (found : s.threads[t]? = some ⟨name, d, fs⟩)
    (moved : s.step t = some (s.setThread t ⟨name, .checking w, fs⟩))
    (answered : ∀ s', s'.Answered t name w fs → P s') :
    ∃ s₁, s.move (.step t) = some s₁ ∧ ∀ ms, Until (State.Reads t name w fs) P s₁ ms := by
  have reading : (s.setThread t ⟨name, .checking w, fs⟩).Reads t name w fs :=
    ⟨_, thread_setThread found rfl, .checking⟩
  exact ⟨_, moved, fun ms => until_mono (fun _ now => now) answered (read_back reading ms)⟩

theorem gets_back {name : Option String} {c : CellId} {k : Reading V → Prog V N S}
    {fs : List (Frame V N S)} (found : s.threads[t]? = some ⟨name, .run (.get c k), fs⟩) :
    ∃ s₁, s.move (.step t) = some s₁ ∧ ∀ ms,
      Until (State.Reads t name ⟨c, none, k⟩ fs) (State.Told t name c k fs) s₁ ms := by
  refine back_of_set_out found (by simp [step_of_found found, State.next, State.perform]) ?_
  rintro s' ⟨r, answer, back⟩
  cases answer with
  | outcome decided => exact told_of_outcome decided back
  | timeout limited _ _ => cases limited

theorem timed_back {name : Option String} {c : CellId} {limit : Duration}
    {k : Reading V → Prog V N S} {fs : List (Frame V N S)}
    (found : s.threads[t]? = some ⟨name, .run (.getTimeout c limit k), fs⟩) :
    ∃ s₁, s.move (.step t) = some s₁ ∧ ∀ ms,
      Until (State.Reads t name ⟨c, s.deadline? limit, k⟩ fs)
        (fun s' => s'.Told t name c k fs ∨
          (s.now + limit.toNanos < State.endOfTime ∧ s.now + limit.toNanos ≤ s'.now ∧
            s'.outcome? c = none ∧ s'.Back t name (k (.error (.timeout limit))) fs)) s₁ ms := by
  refine back_of_set_out found (by simp [step_of_found found, State.next, State.perform]) ?_
  rintro s' ⟨r, answer, back⟩
  cases answer with
  | outcome decided => exact Or.inl (told_of_outcome decided back)
  | timeout limited reached undecided =>
    -- A deadline past the end of time is none, so this one is the limit away.
    simp only [State.deadline?] at limited
    split at limited
    next inside =>
      cases limited
      exact Or.inr ⟨inside, reached, undecided, back⟩
    next => cases limited

theorem checks_outcome {name : Option String} {d : Doing V N S} {w : Wait V N S}
    {fs : List (Frame V N S)} (found : s.threads[t]? = some ⟨name, d, fs⟩)
    (looks : d = .checking w ∨ ∃ limit, d = .expired w.cell limit w.resume)
    (decided : s.outcome? w.cell ≠ none) :
    ∃ s', s.move (.step t) = some s' ∧ s'.Told t name w.cell w.resume fs := by
  obtain ⟨o, decided⟩ := Option.ne_none_iff_exists'.mp decided
  have moved : s.step t = some (s.setThread t ⟨name, .run (w.resume o.reading), fs⟩) := by
    rcases looks with rfl | ⟨limit, rfl⟩
    · obtain ⟨cell, held⟩ := State.found_of_outcome? (by rw [decided]; simp)
      have outcome : cell.outcome = some o := by rw [← State.outcome?_of_found held, decided]
      simp [step_of_found found, State.next, State.check, held, outcome]
    · simp [step_of_found found, State.next, State.giveUp, decided]
  exact ⟨_, moved, told_of_outcome decided (thread_setThread found rfl)⟩

theorem wakes_outcome {name : Option String} {w : Wait V N S} {fs : List (Frame V N S)}
    (found : s.threads[t]? = some ⟨name, .asleep w, fs⟩) (decided : s.outcome? w.cell ≠ none)
    (notified : ¬ s.Waits t w.cell) :
    ∃ s', s.run [.step t, .step t] = some s' ∧ s'.Told t name w.cell w.resume fs := by
  let s₁ := s.setThread t ⟨name, .checking w, fs⟩
  have awake : s.awake t w.cell = true :=
    State.awake_iff.mpr ⟨State.inside_of_outcome? decided, notified⟩
  have moved : s.step t = some s₁ := by
    simp [step_of_found found, State.next, awake, s₁]
  obtain ⟨s', again, told⟩ := checks_outcome (s := s₁) (w := w) (thread_setThread found rfl)
    (Or.inl rfl) decided
  refine ⟨s', ?_, told⟩
  simp only [State.run, State.move] at again ⊢
  rw [moved]
  simp [again]

omit [Inhabited V] in
theorem core_of_check {w : Wait V N S} {fs : List (Frame V N S)} {n : Next V N S}
    (moved : s.check t w fs = some n) : n.state.cells.map Cell.core = s.cells.map Cell.core := by
  obtain ⟨cell, -, ⟨-, rfl⟩ | ⟨o, -, rfl⟩⟩ := check_cases moved
  · exact core_modifyCell s w.cell (·.sleep t) fun _ => rfl
  · rfl

theorem core_of_reader {name : Option String} {w : Wait V N S} {fs : List (Frame V N S)}
    (reading : s.Reads t name w fs) {m : Move} (own : m ∈ [.step t, .expire t, .stir t])
    (moved : s.move m = some s') : s'.cells.map Cell.core = s.cells.map Cell.core := by
  obtain ⟨d, found, reads⟩ := reading
  have roused (c : CellId) : (s.modifyCell c (·.rouse t)).cells.map Cell.core = s.cells.map Cell.core :=
    core_modifyCell s c (·.rouse t) fun _ => rfl
  simp only [List.mem_cons, List.not_mem_nil, or_false] at own
  rcases own with rfl | rfl | rfl
  · obtain ⟨thread, n, found', next, rfl⟩ := next_of_step moved
    cases Option.some.inj (found.symm.trans found')
    cases reads with
    | checking => exact core_of_check next
    | asleep =>
      exact congrArg (Array.map Cell.core) ((untouched_of_next next).cells fun touches => touches)
    | expired _ _ =>
      exact congrArg (Array.map Cell.core) ((untouched_of_next next).cells fun touches => touches)
  · obtain ⟨_, c, _, _, _, _, -, -, -, rfl⟩ := asleep_of_expire moved
    exact roused c
  · obtain ⟨_, w, _, -, rfl⟩ := asleep_of_stir moved
    exact roused w.cell

theorem readers_released (reachable : Reachable s) : ReadersReleased s := by
  have attended := attended_of_reachable reachable
  have released (c : CellId) (decided : s.outcome? c ≠ none) (announced : ¬ s.Announces c)
      (t : ThreadId) : ¬ s.Waits t c := by
    intro waits
    rcases attended t c waits with undecided | announces
    · exact decided undecided
    · exact announced announces
  refine ⟨released, ?_, gets_back, timed_back, checks_outcome, ?_, ?_⟩
  · exact fun t c kind queued recorded => notified_of_recorded reachable recorded
  · intro t name w fs found decided announced
    exact wakes_outcome found decided (released w.cell decided announced t)
  · exact fun reading m own s' moved => core_of_reader reading own moved

/-- Two readers, one with a limit of a second, of a cell that is decided later. -/
def blockedReaders : Prog Nat Empty Unit :=
  .newCell none fun c =>
    .spawn none (.get c fun _ => .ret 0) fun _ =>
      .spawn none (.getTimeout c ⟨1, 0, by decide⟩ fun _ => .ret 0) fun _ =>
        .decide c (.complete 5) fun _ => .ret 0

theorem readers_released_two : ∃ s : State Nat Empty Unit, Reachable s ∧ ReadersReleased s ∧
    s.outcome? 0 ≠ none ∧ s.Announces 0 ∧ s.Waits 1 0 ∧ s.Waits 2 0 := by
  have reachable : Reachable _ := ⟨(), blockedReaders,
    [.step 0, .step 0, .step 0, .step 1, .step 1, .step 2, .step 2, .step 0, .step 0], rfl⟩
  refine ⟨_, reachable, readers_released reachable, ?_, ⟨0, _, _, _, rfl, rfl⟩, ?_, ?_⟩
  · exact fun none => by cases none
  · exact ⟨_, rfl, by decide⟩
  · exact ⟨_, rfl, by decide⟩

end Inhabited
end Oneshot
