import Oneshot.Proofs.Origins
import Oneshot.Proofs.Readers
import Oneshot.Promise

/-! # All observers agree

A cell holds an outcome and an external future holds a reading.  Whatever looks at one of them comes
back with a finding that describes what it holds by then, in the same words for both, and a reading that
it holds is never a timeout (`observers_agree`). -/
set_option autoImplicit false
namespace Oneshot
open Text (Layout)
variable {V N S : Type}

def Handle.object : Handle → Object
  | .promise p => .cell p.cell
  | .future f => .cell f.cell
  | .external x => .external x.id

/-- What somebody asks who looks. -/
inductive Look
  | done | cancelled | shown | tried | read

/-- What somebody who looks comes back with. -/
inductive Finding (V : Type)
  | done (b : Bool)
  | cancelled (b : Bool)
  | shown (layout : Layout)
  | tried (r : Option (Reading V))
  | read (r : Reading V)

def Finding.look : Finding V → Look
  | .done _ => .done
  | .cancelled _ => .cancelled
  | .shown _ => .shown
  | .tried _ => .tried
  | .read _ => .read

/-- The ways to look at what a handle stands for that do not block. -/
inductive Handle.Glanced : Handle → Look → Act V N S (Finding V) → Prop
  | isDone (h : Handle) : h.Glanced .done fun k => h.isDone fun b => k (.done b)
  | isCancelled (h : Handle) :
      h.Glanced .cancelled fun k => h.isCancelled fun b => k (.cancelled b)
  | layout (h : Handle) : h.Glanced .shown fun k => h.layout fun l => k (.shown l)
  | tryGet (f : Future) : Glanced (.future f) .tried fun k => f.tryGet fun r => k (.tried r)
  | poll (x : ExternalFuture) (w : WakerId) :
      Glanced (.external x) .tried fun k => x.poll w fun r => k (.tried r)

inductive Handle.Observed : Handle → Look → Act V N S (Finding V) → Prop
  | glance {h : Handle} {look : Look} {act : Act V N S (Finding V)} (glanced : h.Glanced look act) :
      h.Observed look act
  | get (f : Future) : Observed (.future f) .read fun k => f.get fun r => k (.read r)
  | getTimeout (f : Future) (limit : Duration) :
      Observed (.future f) .read fun k => f.getTimeout limit fun r => k (.read r)

/-- The text names `kind` as the state of a cell or of an external future. -/
inductive Shows (kind : Kind) : Layout → Prop
  | cell (queued : Nat) :
      Shows kind (.record "Cell" (.field "outcome" (.word (Text.quoted kind.name))
        (.field "continuations" (.word (toString queued)) .done)))
  | view {name : String} {layout : Layout} (inner : Shows kind layout) :
      Shows kind (.record name (.field "cell" layout .done))
  | external (wakers : Nat) :
      Shows kind (.record "ExternalFuture" (.field "state" (.word (Text.quoted kind.name))
        (.field "wakers" (.word (toString wakers)) .done)))

/-- The finding is the right one for an object that holds `held`.  Only a read that has timed out comes
back from an object that holds nothing. -/
def Finding.Describes (held : Option (Reading V)) : Finding V → Prop
  | .done b => b = held.isSome
  | .cancelled b => b = true ↔ held = some (.error .cancelled)
  | .shown layout => Shows (held.elim .pending Reading.kind) layout
  | .tried r => r = held
  | .read (.error (.timeout _)) => held = none
  | .read r => held = some r

/-- The finding reports a failure with this cause, and neither a cancellation nor a timeout. -/
def Finding.Reports (cause : Cause) : Finding V → Prop
  | .done b => b = true
  | .cancelled b => b = false
  | .shown layout => Shows .error layout
  | .tried r => r = some (.error (.failed cause))
  | .read r => r = .error (.failed cause)

theorem Finding.reports_of_describes {cause : Cause} {finding : Finding V}
    (describes : finding.Describes (some (.error (.failed cause)))) : finding.Reports cause := by
  cases finding with
  | done b => exact describes
  | cancelled b =>
    refine Bool.eq_false_iff.mpr fun yes => ?_
    cases describes.mp yes
  | shown layout => exact describes
  | tried r => exact describes
  | read r =>
    match r with
    | .ok v => cases describes
    | .error (.timeout limit) => cases describes
    | .error .cancelled => cases describes
    | .error (.failed cause') => exact (Option.some.inj describes).symm

theorem Finding.describes_read {r : Reading V} (genuine : ∀ limit, r ≠ .error (.timeout limit)) :
    (Finding.read r).Describes (some r) := by
  match r with
  | .ok v => rfl
  | .error (.timeout limit) => exact absurd rfl (genuine limit)
  | .error .cancelled => rfl
  | .error (.failed cause) => rfl

section Snapshots

theorem Snapshot.kind_eq (x : Snapshot V) :
    x.kind = (x.outcome.map Outcome.reading).elim .pending Reading.kind := by
  obtain ⟨outcome, queued⟩ := x
  cases outcome with
  | none => rfl
  | some o => exact (Reading.kind_reading o).symm

theorem Snapshot.isCancelled_iff_held {x : Snapshot V} :
    x.isCancelled = true ↔ x.outcome.map Outcome.reading = some (.error .cancelled) := by
  obtain ⟨outcome, queued⟩ := x
  cases outcome with
  | none => simp [isCancelled]
  | some o => cases o <;> simp [isCancelled, Outcome.reading]

theorem ExternalSnapshot.kind_eq (x : ExternalSnapshot V) :
    x.kind = x.value.elim .pending Reading.kind := by
  obtain ⟨value, wakers⟩ := x
  cases value <;> rfl

theorem ExternalSnapshot.isCancelled_iff_held {x : ExternalSnapshot V} :
    x.isCancelled = true ↔ x.value = some (.error .cancelled) := by
  obtain ⟨value, wakers⟩ := x
  match value with
  | none => simp [isCancelled]
  | some (.ok v) => simp [isCancelled]
  | some (.error .cancelled) => simp [isCancelled]
  | some (.error (.timeout limit)) => simp [isCancelled]
  | some (.error (.failed cause)) => simp [isCancelled]

theorem Snapshot.shows (x : Snapshot V) : Shows x.kind x.layout := .cell x.queued

theorem ExternalSnapshot.shows (x : ExternalSnapshot V) : Shows x.kind x.layout := .external x.wakers

end Snapshots

namespace State
variable {s : State V N S}

def Looking (t : ThreadId) (name : Option String) (h : Handle) (fs : List (Frame V N S))
    (s : State V N S) : Prop :=
  ∃ w, .cell w.cell = h.object ∧ s.Reads t name w fs

/-- Thread `t` goes on with a finding that describes what `h` stands for. -/
def Finds (t : ThreadId) (name : Option String) (h : Handle) (look : Look)
    (k : Finding V → Prog V N S) (fs : List (Frame V N S)) (s : State V N S) : Prop :=
  ∃ finding : Finding V, finding.look = look ∧ finding.Describes (s.holds? h.object) ∧
    s.Back t name (k finding) fs

theorem holds_snapshot (s : State V N S) (c : CellId) :
    s.holds? (.cell c) = (s.snapshot c).outcome.map Outcome.reading := by
  simp only [holds?, outcome?, snapshot]
  cases s.cells[c]? <;> rfl

theorem holds_externalSnapshot (s : State V N S) (e : ExternalId) :
    s.holds? (.external e) = (s.externalSnapshot e).value := by
  simp only [holds?, settled?, externalSnapshot]
  cases s.externals[e]? <;> rfl

end State

section Inhabited
variable [Inhabited V] {s s' : State V N S} {t : ThreadId} {name : Option String}
  {fs : List (Frame V N S)} {h : Handle} {look : Look} {k : Finding V → Prog V N S}

theorem finds_of_look {c : CellId} {q : Snapshot V → Prog V N S} {finding : Snapshot V → Finding V}
    (found : s.threads[t]? = some ⟨name, .run (.look c q), fs⟩) (same : h.object = .cell c)
    (goes : ∀ x, q x = k (finding x)) (asked : ∀ x, (finding x).look = look)
    (describes : ∀ x : Snapshot V, (finding x).Describes (x.outcome.map Outcome.reading)) :
    ∃ s', s.move (.step t) = some s' ∧ s'.Finds t name h look k fs := by
  have moved : s.step t = some (s.setThread t ⟨name, .run (q (s.snapshot c)), fs⟩) := by
    simp [step_of_found found, State.next, State.perform]
  refine ⟨_, moved, finding (s.snapshot c), asked _, ?_, ?_⟩
  · have held : (s.setThread t ⟨name, .run (q (s.snapshot c)), fs⟩).holds? h.object =
        (s.snapshot c).outcome.map Outcome.reading := by
      rw [same]
      exact s.holds_snapshot c
    rw [held]
    exact describes _
  · rw [State.Back, thread_setThread found rfl, goes]

theorem finds_of_lookExternal {e : ExternalId} {q : ExternalSnapshot V → Prog V N S}
    {finding : ExternalSnapshot V → Finding V}
    (found : s.threads[t]? = some ⟨name, .run (.lookExternal e q), fs⟩)
    (same : h.object = .external e) (goes : ∀ x, q x = k (finding x))
    (asked : ∀ x, (finding x).look = look)
    (describes : ∀ x : ExternalSnapshot V, (finding x).Describes x.value) :
    ∃ s', s.move (.step t) = some s' ∧ s'.Finds t name h look k fs := by
  have moved : s.step t = some (s.setThread t ⟨name, .run (q (s.externalSnapshot e)), fs⟩) := by
    simp [step_of_found found, State.next, State.perform]
  refine ⟨_, moved, finding (s.externalSnapshot e), asked _, ?_, ?_⟩
  · have held : (s.setThread t ⟨name, .run (q (s.externalSnapshot e)), fs⟩).holds? h.object =
        (s.externalSnapshot e).value := by
      rw [same]
      exact s.holds_externalSnapshot e
    rw [held]
    exact describes _
  · rw [State.Back, thread_setThread found rfl, goes]

theorem finds_of_poll {x : ExternalFuture} {w : WakerId}
    (found : s.threads[t]? = some ⟨name, .run (x.poll w fun r => k (.tried r)), fs⟩) :
    ∃ s', s.move (.step t) = some s' ∧ s'.Finds t name (.external x) .tried k fs := by
  have stepped : s.move (.step t) =
      let n := s.pollExternal t x.id w (fun r => k (.tried r)) fs
      some (n.state.setThread t ⟨name, n.doing, n.frames⟩) := by
    simp [State.move, step_of_found found, State.next, State.perform, ExternalFuture.poll]
  rw [stepped]
  unfold State.pollExternal
  split
  next missing =>
    refine ⟨_, rfl, .tried none, rfl, ?_, thread_setThread found rfl⟩
    simp [Finding.Describes, Handle.object, State.holds?, State.settled?, State.setThread, missing]
  next y here =>
    split
    next r settled =>
      refine ⟨_, rfl, .tried (some r), rfl, ?_, thread_setThread found rfl⟩
      simp [Finding.Describes, Handle.object, State.holds?, State.settled?, State.setThread, here,
        settled]
    next unsettled =>
      refine ⟨_, rfl, .tried none, rfl, ?_, thread_setThread found rfl⟩
      simp [Finding.Describes, Handle.object, State.holds?, State.settled?, State.setThread, State.log,
        State.modifyExternal, Array.getElem?_modify, here, unsettled]

omit [Inhabited V] in
theorem finds_of_told {f : Future} (told : s.Told t name f.cell (fun r => k (.read r)) fs) :
    s.Finds t name (.future f) .read k fs := by
  obtain ⟨o, decided, genuine, back⟩ := told
  refine ⟨.read o.reading, rfl, ?_, back⟩
  rw [Handle.object, State.holds?, decided]
  exact Finding.describes_read genuine

theorem glance_finds {act : Act V N S (Finding V)} (glanced : h.Glanced look act)
    (found : s.threads[t]? = some ⟨name, .run (act k), fs⟩) :
    ∃ s', s.move (.step t) = some s' ∧ s'.Finds t name h look k fs := by
  have done (x : Snapshot V) :
      (Finding.done x.isDone).Describes (x.outcome.map Outcome.reading) := by
    simp [Finding.Describes, Snapshot.isDone]
  have cancelled (x : Snapshot V) :
      (Finding.cancelled x.isCancelled).Describes (x.outcome.map Outcome.reading) :=
    Snapshot.isCancelled_iff_held
  have shown (x : Snapshot V) (view : String) :
      (Finding.shown (.record view (.field "cell" x.layout .done))).Describes
        (x.outcome.map Outcome.reading) := by
    rw [Finding.Describes, ← x.kind_eq]
    exact .view x.shows
  cases glanced with
  | isDone =>
    cases h with
    | promise p => exact finds_of_look found rfl (fun _ => rfl) (fun _ => rfl) done
    | future f => exact finds_of_look found rfl (fun _ => rfl) (fun _ => rfl) done
    | external x => exact finds_of_lookExternal found rfl (fun _ => rfl) (fun _ => rfl) fun _ => rfl
  | isCancelled =>
    cases h with
    | promise p => exact finds_of_look found rfl (fun _ => rfl) (fun _ => rfl) cancelled
    | future f => exact finds_of_look found rfl (fun _ => rfl) (fun _ => rfl) cancelled
    | external x =>
      exact finds_of_lookExternal found rfl (fun _ => rfl) (fun _ => rfl) fun _ =>
        ExternalSnapshot.isCancelled_iff_held
  | layout =>
    cases h with
    | promise p => exact finds_of_look found rfl (fun _ => rfl) (fun _ => rfl) fun x => shown x "Promise"
    | future f => exact finds_of_look found rfl (fun _ => rfl) (fun _ => rfl) fun x => shown x "Future"
    | external x =>
      refine finds_of_lookExternal found rfl (fun _ => rfl) (fun _ => rfl) fun x => ?_
      rw [Finding.Describes, ← x.kind_eq]
      exact x.shows
  | tryGet f => exact finds_of_look found rfl (fun _ => rfl) (fun _ => rfl) fun _ => rfl
  | poll x w => exact finds_of_poll found

/-- An observer comes back with a right finding. -/
theorem observer_back {act : Act V N S (Finding V)} (observed : h.Observed look act)
    (found : s.threads[t]? = some ⟨name, .run (act k), fs⟩) :
    ∃ s₁, s.move (.step t) = some s₁ ∧
      ∀ ms, Until (State.Looking t name h fs) (State.Finds t name h look k fs) s₁ ms := by
  cases observed with
  | glance glanced =>
    obtain ⟨s', moved, finds⟩ := glance_finds glanced found
    exact ⟨s', moved, until_of_done finds⟩
  | get f =>
    obtain ⟨s₁, moved, on⟩ := gets_back found
    refine ⟨s₁, moved, fun ms => until_mono (fun _ reads => ⟨_, rfl, reads⟩) ?_ (on ms)⟩
    exact fun _ told => finds_of_told told
  | getTimeout f limit =>
    obtain ⟨s₁, moved, on⟩ := timed_back found
    refine ⟨s₁, moved, fun ms => until_mono (fun _ reads => ⟨_, rfl, reads⟩) ?_ (on ms)⟩
    rintro s' (told | ⟨-, -, undecided, back⟩)
    · exact finds_of_told told
    · refine ⟨.read (.error (.timeout limit)), rfl, ?_, back⟩
      rw [Handle.object, State.holds?, undecided]
      rfl

/-- An observer of what is decided does not block. -/
theorem observer_prompt {act : Act V N S (Finding V)} (observed : h.Observed look act)
    (found : s.threads[t]? = some ⟨name, .run (act k), fs⟩) (held : s.holds? h.object ≠ none) :
    ∃ s', (s.run [.step t] = some s' ∨ s.run [.step t, .step t] = some s') ∧
      s'.Finds t name h look k fs := by
  have checks {w : Wait V N S} {f : Future} (set : h = .future f) (read : look = .read)
      (here : w.cell = f.cell)
      (resume : w.resume = fun r => k (.read r))
      (moved : s.move (.step t) = some (s.setThread t ⟨name, .checking w, fs⟩)) :
      ∃ s', s.run [.step t, .step t] = some s' ∧ s'.Finds t name h look k fs := by
    subst set read
    have decided : s.outcome? w.cell ≠ none := by
      rw [here]
      intro undecided
      rw [Handle.object, State.holds?, undecided] at held
      exact held rfl
    obtain ⟨s', again, told⟩ := checks_outcome (s := s.setThread t ⟨name, .checking w, fs⟩)
      (thread_setThread found rfl) (Or.inl rfl) decided
    refine ⟨s', ?_, finds_of_told ?_⟩
    · simp [State.run, moved, again]
    · rwa [here, resume] at told
  cases observed with
  | glance glanced =>
    obtain ⟨s', moved, finds⟩ := glance_finds glanced found
    exact ⟨s', Or.inl (by simp [State.run, moved]), finds⟩
  | get f =>
    obtain ⟨s', ran, finds⟩ := checks (w := ⟨f.cell, none, fun r => k (.read r)⟩) rfl rfl rfl rfl
      (by simp [State.move, step_of_found found, State.next, State.perform, Future.get])
    exact ⟨s', Or.inr ran, finds⟩
  | getTimeout f limit =>
    obtain ⟨s', ran, finds⟩ := checks (w := ⟨f.cell, s.deadline? limit, fun r => k (.read r)⟩)
      rfl rfl rfl rfl
      (by simp [State.move, step_of_found found, State.next, State.perform, Future.getTimeout])
    exact ⟨s', Or.inr ran, finds⟩

/-- What is held, and what is asked for, is the reading of an outcome. -/
structure Genuine (s : State V N S) : Prop where
  held : ∀ x r, s.holds? x = some r → ∃ o : Outcome V, o.reading = r
  attempts : ∀ (t : ThreadId) (thread : Thread V N S) x r k, s.threads[t]? = some thread →
    thread.doing.attempt? = some (x, r, k) → ∃ o : Outcome V, o.reading = r

omit [Inhabited V] in
theorem genuine_of_undertakes {d : Doing V N S} {n : Next V N S} (undertakes : Undertakes s d fs n)
    (held : ∀ x r, s.holds? x = some r → ∃ o : Outcome V, o.reading = r) {x : Object} {r : Reading V}
    {k : Option (Bool → Prog V N S)} (attempt : n.doing.attempt? = some (x, r, k)) :
    ∃ o : Outcome V, o.reading = r := by
  cases undertakes with
  | nothing none => cases none.symm.trans attempt
  | introduces _ _ attempt' =>
    cases attempt'.symm.trans attempt
    exact ⟨_, rfl⟩
  | handsOn _ known attempt' =>
    cases attempt'.symm.trans attempt
    exact held _ _ known

theorem genuine_of_move {m : Move} (moved : s.move m = some s') (genuine : Genuine s) :
    Genuine s' := by
  constructor
  · intro x r held
    rcases holds_of_move moved held with
      before | ⟨-, -, a, tried, rfl⟩ | ⟨_, _, a, _, _, _, _, _, rfl, _⟩
    · exact genuine.held x r before
    · obtain ⟨thread, -, same, found, attempt⟩ := try_cases tried
      exact genuine.attempts _ thread _ _ _ found attempt
    · exact ⟨_, rfl⟩
  · intro u thread' x r k found' attempt
    by_cases own : m = .step u
    · subst own
      obtain ⟨thread, n, found, next, rfl⟩ := next_of_step moved
      cases (thread_after (transition_of_next next) found).symm.trans found'
      exact genuine_of_undertakes (undertakes_of_next next) genuine.held attempt
    · have before := attempt_before moved own found' (by rw [attempt]; simp)
      exact genuine.attempts u thread' x r k before attempt

theorem genuine_of_reachable (reachable : Reachable s) : Genuine s := by
  obtain ⟨client, p, reached⟩ := reachable
  refine reached.induct (P := Genuine) ⟨?_, ?_⟩ fun _ _ _ genuine moved =>
    genuine_of_move moved genuine
  · intro x r held
    rw [holds_of_start] at held
    cases held
  · intro t thread x r k found attempt
    rw [thread_of_start found] at attempt
    cases attempt

/-- What `t` does is about to fail `x`: it calls a promise or an external future to fail, or a captured
body has come to a failure or a panic. -/
def State.Raises (s : State V N S) (t : ThreadId) (failure : Failure) (x : Object) : Prop :=
  ∃ thread, s.threads[t]? = some thread ∧ Asks s thread.doing thread.frames x (.fail failure)

/-- How a failure comes to be held by an undecided object, and in which steps: it is raised, or a future
is made with it. -/
inductive State.Fails (s : State V N S) (t : ThreadId) (failure : Failure) :
    Object → List Move → Prop
  | raises {x : Object} (raises : s.Raises t failure x) (has : s.Has x) :
      Fails s t failure x [.step t, .step t]
  | ready {name : Option String} {k : CellId → Prog V N S} {fs : List (Frame V N S)}
      (found : s.threads[t]? = some ⟨name, .run (.newCell (some (.fail failure)) k), fs⟩) :
      Fails s t failure (.cell s.cells.size) [.step t]

theorem held_of_attempt {thread : Thread V N S} (found : s.threads[t]? = some thread) {x : Object}
    {r : Reading V} {q : Option (Bool → Prog V N S)} (attempt : thread.doing.attempt? = some (x, r, q))
    (has : s.Has x) (undecided : s.holds? x = none) :
    ∃ s', s.move (.step t) = some s' ∧ s'.holds? x = some r := by
  have tried : s.tryOn? x (.step t) = some ⟨s, t, r, q⟩ := by
    simp [State.tryOn?, found, attempt]
  obtain ⟨s', moved, wins⟩ := wins_of_try tried has undecided
  exact ⟨s', moved, wins.holds⟩

omit [Inhabited V] in
theorem holds_of_find {x : Object} (same : s'.find? x = s.find? x) : s'.holds? x = s.holds? x := by
  cases x with
  | cell c =>
    have cells : s'.cells[c]? = s.cells[c]? :=
      Option.map_injective (fun _ _ => Sum.inl.inj) same
    rw [State.holds?, State.outcome?, cells, State.holds?, State.outcome?]
  | external e =>
    have externals : s'.externals[e]? = s.externals[e]? :=
      Option.map_injective (fun _ _ => Sum.inr.inj) same
    rw [State.holds?, State.settled?, externals, State.holds?, State.settled?]

/-- What raises a failure makes an attempt with it, and gives it a new identity. -/
theorem attempt_of_raises {failure : Failure} {x : Object} (raises : s.Raises t failure x) :
    ∃ s₁ thread q, s.move (.step t) = some s₁ ∧ s₁.threads[t]? = some thread ∧
      thread.doing.attempt? = some (x, .error (.failed (.mk s.nextCause failure)), q) ∧
      s₁.holds? x = s.holds? x := by
  obtain ⟨⟨name, d, frames⟩, found, asks⟩ := raises
  generalize asked : Attempt.fail failure = a at asks
  cases asks with
  | call call allowed =>
    obtain ⟨s₁, d, moved, same, found₁, attempt⟩ := callsAttempt s t name _ frames x _ _ found call
    rw [if_pos allowed, ← asked] at attempt
    exact ⟨s₁, _, _, moved, found₁, attempt, holds_of_find (same x)⟩
  | @body ending r fs =>
    have moved : s.step t = some ((s.logEnding t r ending).useCause.setThread t
        ⟨name, .deciding r (.failed (.mk s.nextCause failure)) none, fs⟩) := by
      simp [step_of_found found, State.next, State.receive, ← asked, Attempt.outcome]
    refine ⟨_, _, _, moved, thread_setThread found ?_, rfl, ?_⟩
    · exact State.threads_logEnding s t r ending
    · have same := State.cells_logEnding s t r ending
      exact congrArg (fun cells => (cells[r]?.bind Cell.outcome).map Outcome.reading) same

theorem held_of_fails {failure : Failure} {x : Object} {ms : List Move}
    (fails : s.Fails t failure x ms) (undecided : s.holds? x = none) :
    ∃ s', s.run ms = some s' ∧
      s'.holds? x = some (.error (.failed (.mk s.nextCause failure))) := by
  cases fails with
  | raises raises has =>
    obtain ⟨s₁, thread, q, moved, found, attempt, same⟩ := attempt_of_raises raises
    have has := (extends_of_advance (advance_of_move moved)).has has
    obtain ⟨s', again, held⟩ := held_of_attempt found attempt has (same.trans undecided)
    exact ⟨s', by simp [State.run, moved, again], held⟩
  | ready found =>
    obtain ⟨s', moved, held⟩ := makesDecided s t _ _ _ _ found
    exact ⟨s', by simp [State.run, moved], held⟩

structure ObserversAgree (s : State V N S) : Prop where
  /-- Whoever looks comes back with a finding that describes what the object holds by then. -/
  agree : ∀ {h : Handle} {look act}, h.Observed look act → ∀ {t name k fs},
    s.threads[t]? = some ⟨name, .run (act k), fs⟩ → ∃ s₁, s.move (.step t) = some s₁ ∧
      ∀ ms, Until (State.Looking t name h fs) (State.Finds t name h look k fs) s₁ ms
  /-- What is held stays, and whoever looks at it then is not blocked and finds the same. -/
  again : ∀ {x r}, s.holds? x = some r → ∀ {ms s'}, s.run ms = some s' → s'.holds? x = some r ∧
    ∀ {h : Handle} {look act}, h.object = x → h.Observed look act → ∀ {t name k fs},
      s'.threads[t]? = some ⟨name, .run (act k), fs⟩ → ∃ s'' finding,
        (s'.run [.step t] = some s'' ∨ s'.run [.step t, .step t] = some s'') ∧
          finding.look = look ∧ finding.Describes (some r) ∧ s''.Back t name (k finding) fs
  /-- Nothing holds a timeout, and nothing is asked to. -/
  held : ∀ {x r}, s.holds? x = some r → ∀ limit, r ≠ .error (.timeout limit)
  asked : ∀ {t : ThreadId} {thread x r k}, s.threads[t]? = some thread →
    thread.doing.attempt? = some (x, r, k) → ∀ limit, r ≠ .error (.timeout limit)
  /-- So a read error that is handed on is no timeout, and what is handed on is the outcome itself. -/
  handsOn : ∀ {t name c r f fs o e},
    s.threads[t]? = some ⟨name, .starting c (.transform r f), fs⟩ → s.outcome? c = some o →
    o.reading = .error e → e.isTimeout = false ∧ ∃ s', s.move (.step t) = some s' ∧
      s'.threads[t]? = some ⟨name, .deciding r o none, .finishing c r :: fs⟩
  /-- A failure is held as one, also if it is a cancellation or a timeout that was read elsewhere. -/
  fails : ∀ {t failure x ms}, s.Fails t failure x ms → s.holds? x = none →
    ∃ s', s.run ms = some s' ∧ s'.holds? x = some (.error (.failed (.mk s.nextCause failure)))
  reports : ∀ {x cause}, s.holds? x = some (.error (.failed cause)) →
    ∀ finding : Finding V, finding.Describes (s.holds? x) → finding.Reports cause

theorem handsOn_outcome {c r : CellId} {f : V → Prog V N S} {o : Outcome V} {e : ReadError}
    (found : s.threads[t]? = some ⟨name, .starting c (.transform r f), fs⟩)
    (decided : s.outcome? c = some o) (read : o.reading = .error e) :
    e.isTimeout = false ∧ ∃ s', s.move (.step t) = some s' ∧
      s'.threads[t]? = some ⟨name, .deciding r o none, .finishing c r :: fs⟩ := by
  constructor
  · refine Bool.eq_false_iff.mpr fun timeout => ?_
    obtain ⟨limit, rfl⟩ := ReadError.isTimeout_iff.mp timeout
    exact o.reading_ne_timeout limit read
  · have moved : s.step t = some ((s.log t (.handedOn c r)).useCause.setThread t
        ⟨name, .deciding r o none, .finishing c r :: fs⟩) := by
      simp [step_of_found found, State.next, State.startTask, decided, read, Task.result,
        ReadError.outcome_of_reading read]
    exact ⟨_, moved, thread_setThread found rfl⟩

theorem observers_agree (reachable : Reachable s) : ObserversAgree s := by
  have genuine := genuine_of_reachable reachable
  refine ⟨fun observed _ _ _ _ found => observer_back observed found, ?_, ?_, ?_, ?_,
    fun fails undecided => held_of_fails fails undecided, ?_⟩
  · intro x r held ms s' ran
    have later : s'.holds? x = some r := (extends_of_reaches ⟨ms, ran⟩).holds held
    refine ⟨later, ?_⟩
    intro h look act same observed t name k fs found
    subst same
    obtain ⟨s'', ran', finding, asked, describes, back⟩ :=
      observer_prompt observed found (by rw [later]; simp)
    have still : s''.holds? h.object = some r := by
      rcases ran' with one | two
      · exact (extends_of_reaches ⟨_, one⟩).holds later
      · exact (extends_of_reaches ⟨_, two⟩).holds later
    exact ⟨s'', finding, ran', asked, still ▸ describes, back⟩
  · intro x r held limit
    obtain ⟨o, rfl⟩ := genuine.held x r held
    exact o.reading_ne_timeout limit
  · intro t thread x r k found attempt limit
    obtain ⟨o, rfl⟩ := genuine.attempts t thread x r k found attempt
    exact o.reading_ne_timeout limit
  · exact handsOn_outcome
  · intro x cause held finding describes
    rw [held] at describes
    exact Finding.reports_of_describes describes

/-- A cell that is failed with a cancellation read elsewhere, with a continuation to dispatch. -/
def failedByCancellation : Prog Nat Empty Unit :=
  .newCell none fun c => .chain c (.ret 1) fun _ =>
    .decide c (.fail (.unread .cancelled)) fun _ => .ret 0

/-- In the middle of the dispatch. -/
theorem observers_agree_dispatching : ∃ s : State Nat Empty Unit, Reachable s ∧ ObserversAgree s ∧
    s.holds? (.cell 0) = some (.error (.failed (.mk 0 (.unread .cancelled)))) ∧ s.Announces 0 := by
  have reachable : Reachable _ := ⟨(), failedByCancellation, List.replicate 4 (.step 0), rfl⟩
  exact ⟨_, reachable, observers_agree reachable, rfl, 0, _, _, _, rfl, rfl⟩

end Inhabited
end Oneshot
