import Oneshot.Machine.Step

/-! # What a step can do

`Transition s t doing fs n` lists the ways in which thread `t`, doing `doing` above the frames `fs`,
takes `s` to `n`.  Every step is one of them (`transition_of_next`), so what a step keeps is read off
the list. -/
set_option autoImplicit false
namespace Oneshot
variable {V N S : Type}

/-- Code of a program has the floor: it runs, or it reads and waits. -/
def Doing.Plain : Doing V N S → Prop
  | .run _ | .checking _ | .asleep _ | .expired _ _ _ => True
  | _ => False

def Ending.Calm : Ending V → Prop
  | .panicked _ => False
  | _ => True

theorem Ending.calm_or_panicked (e : Ending V) : e.Calm ∨ ∃ payload, e = .panicked payload := by
  cases e with
  | value v => exact Or.inl trivial
  | failed failure => exact Or.inl trivial
  | panicked payload => exact Or.inr ⟨payload, rfl⟩

/-- The event is none of the life of a cell or of its continuations. -/
def Event.Aside {N : Type} : Event N → Prop
  | .decided _ _ _ | .queued _ _ _ _ | .inlined _ _ | .started _ _ | .finished _ _ => False
  | _ => True

/-- The cell without its blocked readers. -/
def Cell.core (cell : Cell V N S) : Cell V N S := { cell with waiting := [] }

/-- From `s` to `s'` no cell has changed but for its blocked readers, no external future but for its
wakers and those that are new, and what was recorded is aside. -/
structure Still (s s' : State V N S) : Prop where
  cores : s'.cells.map Cell.core = s.cells.map Cell.core
  values : ∀ (e : ExternalId) (x : External V), s.externals[e]? = some x →
    ∃ x', s'.externals[e]? = some x' ∧ x'.value = x.value
  history : ∃ entries, s'.history = entries ++ s.history ∧ ∀ entry ∈ entries, entry.event.Aside
  threads : s'.threads = s.threads ∨
    ∃ name body, s'.threads = s.threads.push ⟨name, .run body, []⟩

theorem Still.refl (s : State V N S) : Still s s :=
  ⟨rfl, fun _ x found => ⟨x, found, rfl⟩, ⟨[], rfl, by simp⟩, Or.inl rfl⟩

theorem Still.of_log {s : State V N S} (t : ThreadId) {event : Event N} (aside : event.Aside) :
    Still s (s.log t event) :=
  ⟨rfl, fun _ x found => ⟨x, found, rfl⟩, ⟨[⟨t, event⟩], rfl, by simp [aside]⟩, Or.inl rfl⟩

theorem core_modifyCell (s : State V N S) (c : CellId) (f : Cell V N S → Cell V N S)
    (same : ∀ cell, (f cell).core = cell.core) :
    (s.modifyCell c f).cells.map Cell.core = s.cells.map Cell.core := by
  apply Array.ext_getElem?
  intro d
  rw [Array.getElem?_map, Array.getElem?_map, State.getElem?_modifyCell]
  split
  next => cases s.cells[d]? <;> simp [same]
  next => rfl

/-- What a registration does before it enters the cell: a bridge makes its external future. -/
inductive Opens (s : State V N S) (t : ThreadId) : State V N S → Prop
  | atOnce : Opens s t s
  | bridge (c : CellId) : Opens s t (s.addExternal.log t (.bridged c s.externals.size))

theorem Opens.still {s s' : State V N S} {t : ThreadId} (opens : Opens s t s') : Still s s' := by
  cases opens with
  | atOnce => exact Still.refl s
  | bridge c =>
    refine ⟨rfl, ?_, ⟨[⟨t, .bridged c s.externals.size⟩], rfl, by simp [Event.Aside]⟩, Or.inl rfl⟩
    intro e x found
    have inside := (Array.getElem?_eq_some_iff.mp found).1
    refine ⟨x, ?_, rfl⟩
    simpa [State.addExternal, State.log, Array.getElem?_push, Nat.ne_of_lt inside] using found

theorem still_of_waiting (s : State V N S) (c : CellId) (f : Cell V N S → Cell V N S)
    (same : ∀ cell, (f cell).core = cell.core) : Still s (s.modifyCell c f) :=
  ⟨core_modifyCell s c f same, fun _ x found => ⟨x, found, rfl⟩, ⟨[], rfl, by simp⟩, Or.inl rfl⟩

theorem still_of_park (s : State V N S) (t : ThreadId) (e : ExternalId) (w : WakerId) :
    Still s ((s.modifyExternal e (·.park w)).log t (.parked e w)) := by
  refine ⟨rfl, ?_, ⟨[⟨t, .parked e w⟩], rfl, by simp [Event.Aside]⟩, Or.inl rfl⟩
  intro e' x found
  simp only [State.log, State.modifyExternal, Array.getElem?_modify]
  split
  next => exact ⟨x.park w, by rw [found]; rfl, External.value_park x w⟩
  next => exact ⟨x, found, rfl⟩

theorem admits_inside {s : State V N S} {c : CellId} {a : Attempt V} (admitted : s.admits c a = true) :
    c < s.cells.size := by
  unfold State.admits at admitted
  split at admitted
  next => cases admitted
  next found => exact (Array.getElem?_eq_some_iff.mp found).1

section Inhabited
variable [Inhabited V]

/-- The ways in which a step of `t` goes. -/
inductive Transition (s : State V N S) (t : ThreadId) :
    Doing V N S → List (Frame V N S) → Next V N S → Prop
  | plain {d d' fs s'} (was : d.Plain) (is : d'.Plain ∨ ∃ e, d' = .ended e) (still : Still s s') :
      Transition s t d fs ⟨s', d', fs⟩
  | guards {p body k fs} : Transition s t (.run p) fs ⟨s, .run body, .guarding k :: fs⟩
  | creates {p p' fs cell n} (fresh : cell = .pending ∨ ∃ o, cell = .ready o) :
      Transition s t (.run p) fs ⟨{ s.addCell cell with nextCause := n }, .run p', fs⟩
  | asks {p c o k fs} (inside : c < s.cells.size) :
      Transition s t (.run p) fs ⟨s.useCause, .deciding c o (some k), fs⟩
  | asksExternal {p e r k fs} :
      Transition s t (.run p) fs ⟨s.useCause, .settling e r (some k), fs⟩
  /-- A registration at a cell that is not there. -/
  | strays {p p' fs s₀} (opens : Opens s t s₀) :
      Transition s t (.run p) fs ⟨s₀.addCell .derived, .run p', fs⟩
  | queues {p p' fs s₀ c cell task} (opens : Opens s t s₀) (found : s.cells[c]? = some cell)
      (waits : cell.queues = true) (new : task.result = s.cells.size) :
      Transition s t (.run p) fs
        ⟨((s₀.addCell .derived).modifyCell c (·.enqueue task)).log t
          (.queued c task.result (cell.queue.length + 1) cell.dispatching), .run p', fs⟩
  | inlines {p p' fs s₀ c cell task} (opens : Opens s t s₀) (found : s.cells[c]? = some cell)
      (free : cell.queues = false) (new : task.result = s.cells.size) :
      Transition s t (.run p) fs
        ⟨((s₀.addCell .derived).log t (.inlined c task.result)).log t (.started c task.result),
          .starting c task, .resume p' :: fs⟩
  | loses {c o k fs s'} (still : Still s s') (closed : c < s.cells.size → s.outcome? c ≠ none) :
      Transition s t (.deciding c o k) fs ⟨s', lost k, fs⟩
  | wins {c o k fs cell} (found : s.cells[c]? = some cell) (undecided : cell.outcome = none) :
      Transition s t (.deciding c o k) fs
        ⟨s.modifyCell c (·.decide o), .announcing c o.kind cell.queue.length, won k ++ fs⟩
  | announces {c kind queued fs} :
      Transition s t (.announcing c kind queued) fs
        ⟨(s.modifyCell c Cell.notifyAll).log t (.decided c kind queued), .draining c, fs⟩
  | takes {c fs cell task rest} (found : s.cells[c]? = some cell)
      (queue : cell.queue = task :: rest) :
      Transition s t (.draining c) fs
        ⟨(s.modifyCell c fun _ => { cell with queue := rest }).log t (.started c task.result),
          .starting c task, .draining c :: fs⟩
  | empties {c fs cell} (found : s.cells[c]? = some cell) (queue : cell.queue = []) :
      Transition s t (.draining c) fs
        ⟨s.modifyCell c fun _ => { cell with queue := [], dispatching := false }, .ended default, fs⟩
  /-- A drain loop of a cell that is not there. -/
  | idles {c fs} (missing : s.cells[c]? = none) :
      Transition s t (.draining c) fs ⟨s, .ended default, fs⟩
  | begins {c task p fs} (code : ∀ result e, task ≠ .relay result e) :
      Transition s t (.starting c task) fs
        ⟨s, .run p, .capturing task.result :: .finishing c task.result :: fs⟩
  | beginsRelay {c result e fs} :
      Transition s t (.starting c (.relay result e)) fs
        ⟨s, .relaying c e, .capturing result :: .finishing c result :: fs⟩
  | handsOn {c result f fs o} :
      Transition s t (.starting c (.transform result f)) fs
        ⟨(s.log t (.handedOn c result)).useCause, .deciding result o none,
          .finishing c result :: fs⟩
  /-- A transformation of an undecided cell. -/
  | gapes {c result f fs payload} (undecided : s.outcome? c = none) :
      Transition s t (.starting c (.transform result f)) fs
        ⟨s, .ended (.panicked payload), .finishing c result :: fs⟩
  | relays {c e fs o} (decided : s.outcome? c = some o) :
      Transition s t (.relaying c e) fs ⟨s, .settling e o.reading none, fs⟩
  | skips {c e fs} (undecided : s.outcome? c = none) :
      Transition s t (.relaying c e) fs ⟨s, .ended default, fs⟩
  | refuses {e r k fs s'} (still : Still s s')
      (closed : ∀ x, s.externals[e]? = some x → x.value ≠ none) :
      Transition s t (.settling e r k) fs ⟨s', lost k, fs⟩
  | settles {e r k fs x} (found : s.externals[e]? = some x) (open' : x.value = none) :
      Transition s t (.settling e r k) fs
        ⟨(s.modifyExternal e (·.settle r)).log t (.resolved e x.wakers.length), .ended default,
          .waking e x.wakers :: (won k ++ fs)⟩
  | captures {e result fs} :
      Transition s t (.ended e) (.capturing result :: fs)
        ⟨(s.logEnding t result e).useCause, .deciding result (e.attempt.outcome s.nextCause) none,
          fs⟩
  | catches {e k fs} : Transition s t (.ended e) (.guarding k :: fs) ⟨s, .run (k e), fs⟩
  | resumes {e p fs} (calm : e.Calm) : Transition s t (.ended e) (.resume p :: fs) ⟨s, .run p, fs⟩
  | finishes {e c result fs} (calm : e.Calm) :
      Transition s t (.ended e) (.finishing c result :: fs)
        ⟨s.log t (.finished c result), .ended default, fs⟩
  | loops {e c fs} (calm : e.Calm) :
      Transition s t (.ended e) (.draining c :: fs) ⟨s, .draining c, fs⟩
  | rests {e x fs} (calm : e.Calm) :
      Transition s t (.ended e) (.waking x [] :: fs) ⟨s, .ended default, fs⟩
  | wakes {e x w ws p fs} (calm : e.Calm) :
      Transition s t (.ended e) (.waking x (w :: ws) :: fs)
        ⟨s.log t (.woke x w), .run p, .waking x ws :: fs⟩
  | unwinds {payload frame fs} (passes : match frame with
        | .capturing _ | .guarding _ => False
        | _ => True) :
      Transition s t (.ended (.panicked payload)) (frame :: fs)
        ⟨s, .ended (.panicked payload), fs⟩

variable {s : State V N S} {t : ThreadId}

theorem transition_of_register {s₀ : State V N S} {c : CellId} {task : Task V N S}
    {p p' : Prog V N S} {fs : List (Frame V N S)} (opens : Opens s t s₀)
    (new : task.result = s.cells.size) :
    Transition s t (.run p) fs (s₀.register t c task p' fs) := by
  have same : s₀.cells = s.cells := by cases opens <;> rfl
  unfold State.register
  rw [same]
  split
  next => exact .strays opens
  next cell found =>
    split
    next waits => exact .queues opens found waits new
    next free => exact .inlines opens found (Bool.eq_false_iff.mpr free) new

theorem transition_of_decideCell (c : CellId) (o : Outcome V) (k : Option (Bool → Prog V N S))
    (fs : List (Frame V N S)) : Transition s t (.deciding c o k) fs (s.decideCell t c o k fs) := by
  unfold State.decideCell
  split
  next missing =>
    refine .loses (Still.refl s) fun inside => ?_
    exact absurd inside (by simpa using missing)
  next cell found =>
    split
    next held decided =>
      refine .loses (Still.of_log t trivial) fun _ => ?_
      simp [State.outcome?, found, decided]
    next undecided => exact .wins found undecided

theorem transition_of_drain (c : CellId) (fs : List (Frame V N S)) :
    Transition s t (.draining c) fs (s.drain t c fs) := by
  unfold State.drain
  split
  next missing => exact .idles missing
  next cell found =>
    cases queue : cell.queue with
    | nil =>
      simp only [Cell.takeFirst, queue]
      exact .empties found queue
    | cons task rest =>
      simp only [Cell.takeFirst, queue]
      exact .takes found queue

theorem transition_of_startTask (c : CellId) (task : Task V N S) (fs : List (Frame V N S)) :
    Transition s t (.starting c task) fs (s.startTask t c task fs) := by
  cases task with
  | chain result body => exact .begins (fun _ _ same => by cases same)
  | relay result e => exact .beginsRelay
  | transform result f =>
    simp only [State.startTask]
    split
    next unread => exact .gapes (by simpa using unread)
    next => exact .begins (fun _ _ same => by cases same)
    next => exact .handsOn

theorem transition_of_settleExternal (e : ExternalId) (r : Reading V)
    (k : Option (Bool → Prog V N S)) (fs : List (Frame V N S)) :
    Transition s t (.settling e r k) fs (s.settleExternal t e r k fs) := by
  unfold State.settleExternal
  split
  next missing => exact .refuses (Still.refl s) fun x found => by simp [missing] at found
  next x found =>
    split
    next held settled =>
      refine .refuses (Still.of_log t trivial) fun y same => ?_
      cases Option.some.inj (found.symm.trans same)
      simp [settled]
    next unsettled => exact .settles found unsettled

theorem transition_of_pollExternal (p : Prog V N S) (e : ExternalId) (w : WakerId)
    (k : Option (Reading V) → Prog V N S) (fs : List (Frame V N S)) :
    Transition s t (.run p) fs (s.pollExternal t e w k fs) := by
  unfold State.pollExternal
  split
  next => exact .plain trivial (Or.inl trivial) (Still.refl s)
  next =>
    split
    next => exact .plain trivial (Or.inl trivial) (Still.refl s)
    next => exact .plain trivial (Or.inl trivial) (still_of_park s t e w)

omit [Inhabited V] in
theorem check_cases {w : Wait V N S} {fs : List (Frame V N S)} {n : Next V N S}
    (moved : s.check t w fs = some n) :
    ∃ cell, s.cells[w.cell]? = some cell ∧
      ((cell.outcome = none ∧ n = ⟨s.modifyCell w.cell (·.sleep t), .asleep w, fs⟩) ∨
        ∃ o, cell.outcome = some o ∧ n = ⟨s, .run (w.resume o.reading), fs⟩) := by
  unfold State.check at moved
  split at moved
  next => cases moved
  next cell found =>
    split at moved
    next o decided => exact ⟨cell, found, Or.inr ⟨o, decided, (Option.some.inj moved).symm⟩⟩
    next undecided => exact ⟨cell, found, Or.inl ⟨undecided, (Option.some.inj moved).symm⟩⟩

theorem transition_of_check {w : Wait V N S} {fs : List (Frame V N S)} {n : Next V N S}
    (moved : s.check t w fs = some n) : Transition s t (.checking w) fs n := by
  obtain ⟨cell, -, ⟨-, rfl⟩ | ⟨o, -, rfl⟩⟩ := check_cases moved
  · exact .plain trivial (Or.inl trivial) (still_of_waiting s w.cell _ fun _ => rfl)
  · exact .plain trivial (Or.inl trivial) (Still.refl s)

theorem notified_of_next {w : Wait V N S} {fs : List (Frame V N S)} {n : Next V N S}
    (moved : s.next t (.asleep w) fs = some n) :
    s.awake t w.cell = true ∧ n = ⟨s, .checking w, fs⟩ := by
  simp only [State.next] at moved
  split at moved
  next awake => exact ⟨awake, (Option.some.inj moved).symm⟩
  next => cases moved

theorem transition_of_giveUp (c : CellId) (limit : Duration) (k : Reading V → Prog V N S)
    (fs : List (Frame V N S)) :
    Transition s t (.expired c limit k) fs (s.giveUp t c limit k fs) := by
  unfold State.giveUp
  split
  next => exact .plain trivial (Or.inl trivial) (Still.refl s)
  next => exact .plain trivial (Or.inl trivial) (Still.of_log t trivial)

theorem transition_of_receive (frame : Frame V N S) (e : Ending V) (fs : List (Frame V N S)) :
    Transition s t (.ended e) (frame :: fs) (s.receive t frame e fs) := by
  rcases e.calm_or_panicked with calm | ⟨payload, rfl⟩
  · cases frame with
    | resume p => cases e <;> first | exact .resumes calm | exact calm.elim
    | finishing c result => cases e <;> first | exact .finishes calm | exact calm.elim
    | draining c => cases e <;> first | exact .loops calm | exact calm.elim
    | capturing result => exact .captures
    | waking x ws =>
      cases ws with
      | nil => cases e <;> first | exact .rests calm | exact calm.elim
      | cons w ws => cases e <;> first | exact .wakes calm | exact calm.elim
    | guarding k => exact .catches
  · cases frame with
    | capturing result => exact .captures
    | guarding k => exact .catches
    | resume p => exact .unwinds trivial
    | finishing c result => exact .unwinds trivial
    | draining c => exact .unwinds trivial
    | waking x ws => exact .unwinds trivial

theorem transition_of_perform {p : Prog V N S} {fs : List (Frame V N S)} {n : Next V N S}
    (moved : s.perform t p fs = some n) : Transition s t (.run p) fs n := by
  have idle {p' : Prog V N S} : Transition s t (.run p) fs ⟨s, .run p', fs⟩ :=
    .plain trivial (Or.inl trivial) (Still.refl s)
  have stop {e : Ending V} : Transition s t (.run p) fs ⟨s, .ended e, fs⟩ :=
    .plain trivial (Or.inr ⟨e, rfl⟩) (Still.refl s)
  have apart {s' : State V N S} {p' : Prog V N S} (cells : s'.cells = s.cells)
      (externals : s'.externals = s.externals) (history : s'.history = s.history)
      (threads : s'.threads = s.threads) : Transition s t (.run p) fs ⟨s', .run p', fs⟩ :=
    .plain trivial (Or.inl trivial)
      ⟨by rw [cells], fun _ x found => ⟨x, by rw [externals, found], rfl⟩,
        ⟨[], by rw [history]; rfl, by simp⟩, Or.inl threads⟩
  cases p with
  | ret v => cases moved; exact stop
  | err failure => cases moved; exact stop
  | panic payload => cases moved; exact stop
  | newCell start k =>
    cases start with
    | none => cases moved; exact .creates (Or.inl rfl)
    | some a => cases moved; exact .creates (Or.inr ⟨_, rfl⟩)
  | look c k => cases moved; exact idle
  | decide c a k =>
    simp only [State.perform] at moved
    split at moved
    next admitted => cases moved; exact .asks (admits_inside admitted)
    next => cases moved; exact idle
  | get c k => cases moved; exact .plain trivial (Or.inl trivial) (Still.refl s)
  | getTimeout c limit k => cases moved; exact .plain trivial (Or.inl trivial) (Still.refl s)
  | chain c body k => cases moved; exact transition_of_register .atOnce rfl
  | transform c f k => cases moved; exact transition_of_register .atOnce rfl
  | relay c k => cases moved; exact transition_of_register (.bridge c) rfl
  | newExternal k =>
    cases moved
    refine .plain trivial (Or.inl trivial) ⟨rfl, ?_, ⟨[], rfl, by simp⟩, Or.inl rfl⟩
    exact (Opens.bridge (t := t) 0).still.values
  | lookExternal e k => cases moved; exact idle
  | settle e a k => cases moved; exact .asksExternal
  | poll e w k => cases moved; exact transition_of_pollExternal _ e w k fs
  | newWaker onWake k => cases moved; exact apart rfl rfl rfl rfl
  | share failure k => cases moved; exact apart rfl rfl rfl rfl
  | guarded body k => cases moved; exact .guards
  | spawn name body k =>
    cases moved
    exact .plain trivial (Or.inl trivial)
      ⟨rfl, fun _ x found => ⟨x, found, rfl⟩, ⟨[], rfl, by simp⟩, Or.inr ⟨name, body, rfl⟩⟩
  | join u k =>
    obtain ⟨e, _, rfl⟩ := Option.map_eq_some_iff.mp moved
    exact idle
  | threadName k => cases moved; exact idle
  | note n k => cases moved; exact .plain trivial (Or.inl trivial) (Still.of_log t trivial)
  | ask k => cases moved; exact idle
  | update f k => cases moved; exact apart rfl rfl rfl rfl

theorem transition_of_next {doing : Doing V N S} {fs : List (Frame V N S)} {n : Next V N S}
    (moved : s.next t doing fs = some n) : Transition s t doing fs n := by
  cases doing with
  | run p => exact transition_of_perform moved
  | deciding c o k => cases moved; exact transition_of_decideCell c o k fs
  | announcing c kind queued => cases moved; exact .announces
  | draining c => cases moved; exact transition_of_drain c fs
  | starting c task => cases moved; exact transition_of_startTask c task fs
  | relaying c e =>
    simp only [State.next] at moved
    split at moved
    next undecided => cases moved; exact .skips undecided
    next decided => cases moved; exact .relays decided
  | settling e r k => cases moved; exact transition_of_settleExternal e r k fs
  | checking w => exact transition_of_check moved
  | asleep w =>
    obtain ⟨-, rfl⟩ := notified_of_next moved
    exact .plain trivial (Or.inl trivial) (Still.refl s)
  | expired c limit k => cases moved; exact transition_of_giveUp c limit k fs
  | ended e =>
    cases fs with
    | nil => cases moved
    | cons frame rest => cases moved; exact transition_of_receive frame e rest

/-- What a move does: it leaves the threads where they are, or one thread takes a step or comes out of
its wait. -/
inductive Advance (s : State V N S) : State V N S → Prop
  | aside {s'} (still : Still s s') (threads : s'.threads = s.threads) : Advance s s'
  | thread {t thread n} (found : s.threads[t]? = some thread)
      (transition : Transition s t thread.doing thread.frames n) :
      Advance s (n.state.setThread t ⟨thread.name, n.doing, n.frames⟩)

theorem step_of_found {thread : Thread V N S} (found : s.threads[t]? = some thread) :
    s.step t = (s.next t thread.doing thread.frames).map fun n =>
      n.state.setThread t ⟨thread.name, n.doing, n.frames⟩ := by
  simp only [State.step, found]

theorem step_of_next {name : Option String} {d : Doing V N S} {fs : List (Frame V N S)}
    {n : Next V N S} (found : s.threads[t]? = some ⟨name, d, fs⟩) (next : s.next t d fs = some n) :
    s.step t = some (n.state.setThread t ⟨name, n.doing, n.frames⟩) := by
  rw [step_of_found found, next, Option.map_some]

theorem next_of_step {s' : State V N S} (moved : s.step t = some s') :
    ∃ thread n, s.threads[t]? = some thread ∧ s.next t thread.doing thread.frames = some n ∧
      s' = n.state.setThread t ⟨thread.name, n.doing, n.frames⟩ := by
  unfold State.step at moved
  split at moved
  next => cases moved
  next thread found =>
    obtain ⟨n, next, rfl⟩ := Option.map_eq_some_iff.mp moved
    exact ⟨thread, n, found, next, rfl⟩

theorem transition_of_step {s' : State V N S} (moved : s.step t = some s') :
    ∃ thread n, s.threads[t]? = some thread ∧ Transition s t thread.doing thread.frames n ∧
      s' = n.state.setThread t ⟨thread.name, n.doing, n.frames⟩ := by
  obtain ⟨thread, n, found, next, rfl⟩ := next_of_step moved
  exact ⟨thread, n, found, transition_of_next next, rfl⟩

theorem advance_of_step {s' : State V N S} (moved : s.step t = some s') : Advance s s' := by
  obtain ⟨thread, n, found, transition, rfl⟩ := transition_of_step moved
  exact .thread found transition

theorem asleep_of_expire {s' : State V N S} (moved : s.move (.expire t) = some s') :
    ∃ name c limit deadline k fs,
      s.threads[t]? = some ⟨name, .asleep ⟨c, some (limit, deadline), k⟩, fs⟩ ∧
        s.awake t c = false ∧ deadline ≤ s.now ∧
          s' = (s.modifyCell c (·.rouse t)).setThread t ⟨name, .expired c limit k, fs⟩ := by
  simp only [State.move, State.expire] at moved
  split at moved
  next name c limit deadline k fs found =>
    split at moved
    next => cases moved
    next late =>
      obtain ⟨unaware, reached⟩ := not_or.mp (fun early => late ((Bool.or_eq_true ..).mpr early))
      rw [decide_eq_true_eq, Nat.not_lt] at reached
      exact ⟨name, c, limit, deadline, k, fs, found, Bool.eq_false_iff.mpr unaware, reached,
        (Option.some.inj moved).symm⟩
  next => cases moved

theorem asleep_of_stir {s' : State V N S} (moved : s.move (.stir t) = some s') :
    ∃ name w fs, s.threads[t]? = some ⟨name, .asleep w, fs⟩ ∧
      s' = s.modifyCell w.cell (·.rouse t) := by
  simp only [State.move, State.stir] at moved
  split at moved
  next name w fs found => exact ⟨name, w, fs, found, (Option.some.inj moved).symm⟩
  next => cases moved

theorem advance_of_move {s' : State V N S} {m : Move} (moved : s.move m = some s') :
    Advance s s' := by
  cases m with
  | step t => exact advance_of_step moved
  | pass nanos =>
    cases moved
    exact .aside ⟨rfl, fun _ x found => ⟨x, found, rfl⟩, ⟨[], rfl, by simp⟩, Or.inl rfl⟩ rfl
  | expire t =>
    obtain ⟨name, c, limit, deadline, k, fs, found, -, -, rfl⟩ := asleep_of_expire moved
    exact .thread (n := ⟨s.modifyCell c (·.rouse t), .expired c limit k, fs⟩) found
      (.plain trivial (Or.inl trivial) (still_of_waiting s c _ fun _ => rfl))
  | stir t =>
    obtain ⟨_, w, _, -, rfl⟩ := asleep_of_stir moved
    exact .aside (still_of_waiting s _ _ fun _ => rfl) rfl

def Reachable (s : State V N S) : Prop := ∃ client p, Reaches (State.start client p) s

/-- What holds at every start and is kept by every advance holds in every reachable state. -/
theorem Reachable.induct {P : State V N S → Prop} {s : State V N S} (reachable : Reachable s)
    (start : ∀ client p, P (State.start client p)) (keeps : ∀ s s', P s → Advance s s' → P s') :
    P s := by
  obtain ⟨client, p, reached⟩ := reachable
  exact reached.induct (start client p) fun s _ s' now moved => keeps s s' now (advance_of_move moved)

end Inhabited
end Oneshot
