import Oneshot.Proofs.Dispatch
import Oneshot.Proofs.FirstDecision

/-! # When nothing is going on

In a state in which no thread is in the middle of a decision, a registration or a continuation, nothing
waits in the queue of a decided cell, and what was derived from a decided cell is decided
(`settled_of_quiet`). -/
set_option autoImplicit false
namespace Oneshot
variable {V N S : Type}

/-- No thread is in the middle of a decision, a registration or a continuation. -/
def State.Quiet (s : State V N S) : Prop := ∀ t, s.duties t = []

/-- What a call makes, and the cell that it derives it from. -/
def Prog.derives? (s : State V N S) : Prog V N S → Option (CellId × Object)
  | .chain c _ _ | .transform c _ _ => some (c, .cell s.cells.size)
  | .relay c _ => some (c, .external s.externals.size)
  | _ => none

section Inhabited
variable [Inhabited V] {s s' : State V N S}

/-- On the way to `s` a call at the cell `c` has made `x`. -/
def Derived (s : State V N S) (c : CellId) (x : Object) : Prop :=
  ∃ s₀ t name p fs s₁, Reachable s₀ ∧ s₀.threads[t]? = some ⟨name, .run p, fs⟩ ∧
    p.derives? s₀ = some (c, x) ∧ c < s₀.cells.size ∧ s₀.move (.step t) = some s₁ ∧ Reaches s₁ s

inductive Descends (s : State V N S) : CellId → Object → Prop
  | derived {c x} (call : Derived s c x) : Descends s c x
  | further {c r x} (call : Derived s c (.cell r)) (rest : Descends s r x) : Descends s c x

theorem reachable_of_reaches (reachable : Reachable s) (reached : Reaches s s') : Reachable s' := by
  obtain ⟨client, p, start⟩ := reachable
  exact ⟨client, p, start.trans reached⟩

/-- What is kept by every move from a reachable state is kept by every run from there. -/
theorem keeps_of_reaches {P : State V N S → Prop} (reachable : Reachable s) (reached : Reaches s s')
    (now : P s) (keeps : ∀ s s', Reachable s → P s → Advance s s' → P s') : P s' := by
  have both : Reachable s' ∧ P s' := by
    refine reached.induct (P := fun s => Reachable s ∧ P s) ⟨reachable, now⟩ ?_
    rintro s m s' ⟨reachable, now⟩ moved
    exact ⟨reachable_of_reaches reachable (.of_move moved),
      keeps s s' reachable now (advance_of_move moved)⟩
  exact both.2

omit [Inhabited V] in
theorem suffix_of_posts {v v' : Ledger} (posts : Posts v v') : ∃ new, v'.marks = new ++ v.marks := by
  cases posts with
  | announces _ _ => exact ⟨[_], rfl⟩
  | queues _ _ => exact ⟨[_], rfl⟩
  | inlines _ _ _ => exact ⟨[_, _], rfl⟩
  | takes _ _ _ => exact ⟨[_], rfl⟩
  | finishes _ _ _ _ => exact ⟨[_], rfl⟩
  | _ => exact ⟨[], rfl⟩

omit [Inhabited V] in
theorem registered_of_posts {v v' : Ledger} (posts : Posts v v') {c r : CellId}
    (member : r ∈ (v.view c).registered) : r ∈ (v'.view c).registered := by
  obtain ⟨new, grown⟩ := suffix_of_posts posts
  obtain ⟨entry, recorded, same⟩ := List.mem_filterMap.mp member
  obtain ⟨here, own⟩ := mem_traceOf.mp recorded
  refine List.mem_filterMap.mpr ⟨entry, mem_traceOf.mpr ⟨?_, own⟩, same⟩
  rw [grown]
  exact List.mem_append_right _ here

theorem registered_of_reaches (reachable : Reachable s) (reached : Reaches s s') {c r : CellId}
    (member : r ∈ (s.ledger.view c).registered) : r ∈ (s'.ledger.view c).registered :=
  keeps_of_reaches (P := fun s => r ∈ (s.ledger.view c).registered) reachable reached member
    fun _ _ reachable member advance =>
      registered_of_posts (posts_of_advance advance (sound_of_reachable reachable)) member

theorem decided_of_quiet (reachable : Reachable s) (quiet : s.Quiet) {c r : CellId}
    (registered : r ∈ (s.ledger.view c).registered) (decided : s.outcome? c ≠ none) :
    s.outcome? r ≠ none := by
  have orderly := orderly_of_reachable reachable
  have idle (t : ThreadId) : (s.ledger.view c).duties t = [] := by
    simp [Ledger.view, State.ledger, quiet t, about]
  have returned : (s.ledger.view c).Returned c := by
    intro t
    simp [View.Deciding, idle t]
  have closed : (s.ledger.view c).decided = true := Option.isSome_iff_ne_none.mpr decided
  obtain ⟨t, ran⟩ := ran_of_returned (orderly.course c) closed returned r registered
  have finished : (t, Mark.finished c r) ∈ (s.ledger.view c).trace.ran [r] := by
    rw [ran]
    simp [turn]
  have recorded := (mem_traceOf.mp (List.mem_filter.mp finished).1).1
  exact Option.isSome_iff_ne_none.mp (orderly.landed t c r recorded)

def Doing.Carries (c : CellId) (e : ExternalId) : Doing V N S → Prop
  | .starting b (.relay _ e') => b = c ∧ e' = e
  | .relaying b e' => b = c ∧ e' = e
  | .settling e' _ none => e' = e
  | _ => False

/-- How far the outcome of `c` is on its way to `e`. -/
inductive Carried (s : State V N S) (c : CellId) (e : ExternalId) : Prop
  | waiting (r : CellId) (member : Task.relay r e ∈ s.queueOf c)
  | running (t : ThreadId) (thread : Thread V N S) (found : s.threads[t]? = some thread)
      (carries : thread.doing.Carries c e)
  | settled (settled : s.settled? e ≠ none)

omit [Inhabited V] in
theorem queueOf_opens {s₀ : State V N S} {t : ThreadId} (opens : Opens s t s₀) (c : CellId) :
    (s₀.addCell .derived).queueOf c = s.queueOf c := by
  rw [State.queueOf_addCell _ rfl, State.queueOf, opens.cells, State.queueOf]

/-- A continuation leaves its queue only to be started. -/
theorem queue_of_transition {t : ThreadId} {d : Doing V N S} {fs : List (Frame V N S)}
    {n : Next V N S} (transition : Transition s t d fs n) {c : CellId} {task : Task V N S}
    (member : task ∈ s.queueOf c) : task ∈ n.state.queueOf c ∨ n.doing = .starting c task := by
  have replaced {b : CellId} {cell : Cell V N S} (found : s.cells[b]? = some cell)
      (f : Cell V N S → Cell V N S) (keeps : ∀ task ∈ cell.queue, task ∈ (f cell).queue) :
      task ∈ (s.modifyCell b f).queueOf c := by
    rw [State.queueOf_replaceCell found]
    split
    next same =>
      rw [same, State.queueOf_of_found found] at member
      exact keeps task member
    next => exact member
  cases transition with
  | plain _ _ still => exact Or.inl (by rwa [still.queueOf])
  | @creates _ _ _ cell n fresh =>
    have empty : cell.queue = [] := by rcases fresh with rfl | ⟨o, rfl⟩ <;> rfl
    have same := State.queueOf_addCell s empty c
    exact Or.inl (same ▸ member)
  | strays opens => exact Or.inl (by rwa [queueOf_opens opens])
  | @queues _ _ _ s₀ b cell added opens found _ _ =>
    refine Or.inl ?_
    have enqueued :=
      State.queueOf_replaceCell (opens.found_addCell .derived found) (·.enqueue added) c
    have now : task ∈ ((s₀.addCell .derived).modifyCell b (·.enqueue added)).queueOf c := by
      rw [enqueued, queueOf_opens opens]
      split
      next same =>
        rw [same, State.queueOf_of_found found] at member
        exact List.mem_append_left _ member
      next => exact member
    exact now
  | inlines opens _ _ _ =>
    have same := queueOf_opens opens c
    exact Or.inl (same ▸ member)
  | loses still _ => exact Or.inl (by rwa [still.queueOf])
  | @wins b o k _ cell found _ => exact Or.inl (replaced found _ fun _ same => same)
  | @announces b _ _ _ =>
    have same := (still_of_waiting s b Cell.notifyAll fun _ => rfl).queueOf c
    exact Or.inl (same ▸ member)
  | @takes b _ cell first rest found queue =>
    by_cases own : c = b
    · subst own
      rw [State.queueOf_of_found found, queue] at member
      rcases List.mem_cons.mp member with rfl | later
      · exact Or.inr rfl
      · refine Or.inl ?_
        have taken := State.queueOf_replaceCell found (fun _ => { cell with queue := rest }) c
        rw [if_pos rfl] at taken
        exact taken ▸ later
    · refine Or.inl ?_
      have taken := State.queueOf_replaceCell found (fun _ => { cell with queue := rest }) c
      rw [if_neg own] at taken
      exact taken ▸ member
  | @empties b _ cell found queue =>
    refine Or.inl (replaced found _ fun task waiting => ?_)
    rw [queue] at waiting
    cases waiting
  | refuses still _ => exact Or.inl (by rwa [still.queueOf])
  | @captures e r _ =>
    have same : (s.logEnding t r e).queueOf c = s.queueOf c := by
      rw [State.queueOf, State.cells_logEnding, State.queueOf]
    exact Or.inl (same ▸ member)
  | _ => exact Or.inl member

theorem carries_of_transition {t : ThreadId} {d : Doing V N S} {fs : List (Frame V N S)}
    {n : Next V N S} (transition : Transition s t d fs n) (sound : Thread.Sound s d fs)
    {c : CellId} {e : ExternalId} (inside : e < s.externals.size) (carries : d.Carries c e) :
    n.doing.Carries c e ∨ n.state.settled? e ≠ none := by
  cases transition with
  | plain was => cases d <;> first | exact carries.elim | exact was.elim
  | @begins b task _ _ code =>
    cases task with
    | relay r e' => exact absurd rfl (code r e')
    | _ => exact carries.elim
  | beginsRelay => exact Or.inl carries
  | handsOn => exact carries.elim
  | gapes => exact carries.elim
  | relays decided => exact Or.inl carries.2
  | skips undecided =>
    obtain ⟨r, rest, rfl⟩ := sound.top
    exact absurd undecided sound.stacked.2.1.1
  | @refuses b r k _ s' still closed =>
    cases k with
    | some k => exact carries.elim
    | none =>
      obtain rfl : b = e := carries
      obtain ⟨x, found⟩ : ∃ x, s.externals[b]? = some x := ⟨_, Array.getElem?_eq_getElem inside⟩
      refine Or.inr ?_
      rw [settled_of_still still inside, State.settled?, found]
      exact closed x found
  | @settles b r k _ x found _ =>
    cases k with
    | some k => exact carries.elim
    | none =>
      obtain rfl : b = e := carries
      refine Or.inr ?_
      simp [State.settled?, State.log, State.modifyExternal, Array.getElem?_modify, found,
        External.settle]
  | _ => exact carries.elim

theorem carried_of_advance (advance : Advance s s') (sound : s.Sound) {c : CellId} {e : ExternalId}
    (inside : e < s.externals.size) (carried : Carried s c e) : Carried s' c e := by
  have later := extends_of_advance advance
  cases carried with
  | settled settled =>
    refine .settled ?_
    rw [later.readings e settled]
    exact settled
  | waiting r member =>
    cases advance with
    | aside still _ => exact .waiting r (by rwa [still.queueOf])
    | @thread t thread n found transition =>
      rcases queue_of_transition transition member with waiting | started
      · exact .waiting r waiting
      · refine .running t ⟨thread.name, n.doing, n.frames⟩ (thread_after transition found) ?_
        rw [started]
        exact ⟨rfl, rfl⟩
  | running u thread' found' carries =>
    cases advance with
    | aside _ threads => exact .running u thread' (by rwa [threads]) carries
    | @thread t thread n found transition =>
      by_cases own : u = t
      · subst own
        cases Option.some.inj (found.symm.trans found')
        rcases carries_of_transition transition (sound.threads u _ found) inside carries with
          on | settled
        · exact .running u _ (thread_after transition found) on
        · exact .settled settled
      · exact .running u thread' (thread_other transition own found') carries

omit [Inhabited V] in
/-- Whatever is in the middle of carrying is in the middle of a continuation. -/
theorem duty_of_carries {thread : Thread V N S} {t : ThreadId} (found : s.threads[t]? = some thread)
    (sound : s.Sound) {c : CellId} {e : ExternalId} (carries : thread.doing.Carries c e) :
    s.duties t ≠ [] := by
  obtain ⟨name, d, fs⟩ := thread
  have sound := sound.threads t _ found
  rw [State.duties_of_found found]
  cases d with
  | starting b task => simp [dutiesOf]
  | relaying b e' =>
    obtain ⟨r, rest, rfl⟩ := sound.top
    simp [dutiesOf, frameDuties]
  | settling e' r k =>
    cases k with
    | some k => exact carries.elim
    | none =>
      obtain ⟨r, rest, rfl⟩ := sound.top
      obtain ⟨b, below, rfl⟩ := sound.stacked.1
      simp [dutiesOf, frameDuties]
  | _ => exact carries.elim

omit [Inhabited V] in
/-- A registration leaves its continuation in the queue, or about to start. -/
theorem waits_or_starts {c : CellId} {cell : Cell V N S} (found : s.cells[c]? = some cell)
    (t : ThreadId) (task : Task V N S) (p : Prog V N S) (fs : List (Frame V N S)) :
    task ∈ (s.register t c task p fs).state.queueOf c ∨
      (s.register t c task p fs).doing = .starting c task := by
  unfold State.register
  rw [found]
  by_cases queues : cell.queues = true
  · refine Or.inl ?_
    have known := Opens.found_addCell (.atOnce (t := t)) .derived found
    have enqueued := State.queueOf_replaceCell known (·.enqueue task) c
    rw [if_pos rfl] at enqueued
    simp only [queues, if_true]
    refine (congrArg (task ∈ ·) enqueued).mpr ?_
    exact List.mem_append_right _ (List.mem_singleton.mpr rfl)
  · refine Or.inr ?_
    simp only [queues]
    rfl

theorem carried_of_relay {t : ThreadId} {name : Option String} {k : ExternalId → Prog V N S}
    {fs : List (Frame V N S)} {c : CellId}
    (found : s.threads[t]? = some ⟨name, .run (.relay c k), fs⟩) (inside : c < s.cells.size)
    (moved : s.move (.step t) = some s') :
    s.externals.size < s'.externals.size ∧ Carried s' c s.externals.size := by
  let s₀ := s.addExternal.log t (.bridged c s.externals.size)
  let task : Task V N S := .relay s.cells.size s.externals.size
  let n := s₀.register t c task (k s.externals.size) fs
  have held : s₀.cells[c]? = some s.cells[c] := Array.getElem?_eq_getElem inside
  have stepped : s.step t = some s' := moved
  rw [step_of_found found] at stepped
  have after : n.state.setThread t ⟨name, n.doing, n.frames⟩ = s' := Option.some.inj stepped
  have transition : Transition s t (.run (.relay c k)) fs n := transition_of_register (.bridge c) rfl
  rw [← after]
  constructor
  · have same : n.state.externals = s.externals.push .new := (register_same s₀ t c task _ fs).1
    have more : s.externals.size < n.state.externals.size := by
      rw [same, Array.size_push]
      omega
    exact more
  · rcases waits_or_starts held t task (k s.externals.size) fs with waits | starts
    · exact .waiting s.cells.size waits
    · have starting : n.doing = .starting c task := starts
      refine .running t _ (thread_after transition found) ?_
      rw [starting]
      exact ⟨rfl, rfl⟩

/-- What a call derives is registered at its source, and its external future is waited for. -/
theorem registered_of_call {t : ThreadId} {name : Option String} {p : Prog V N S}
    {fs : List (Frame V N S)} {c : CellId} {x : Object}
    (found : s.threads[t]? = some ⟨name, .run p, fs⟩) (call : p.derives? s = some (c, x))
    (inside : c < s.cells.size) (moved : s.move (.step t) = some s') :
    s.cells.size ∈ (s'.ledger.view c).registered ∧
      (x = .cell s.cells.size ∨
        ∃ e, x = .external e ∧ e < s'.externals.size ∧ Carried s' c e) := by
  have source : p.source? = some c := by cases p <;> cases call <;> rfl
  have registered : s.cells.size ∈ (s'.ledger.view c).registered := by
    rw [registered_of_step found source inside moved]
    exact List.mem_append_right _ (List.mem_singleton.mpr rfl)
  refine ⟨registered, ?_⟩
  cases p with
  | chain b body k => cases call; exact Or.inl rfl
  | transform b f k => cases call; exact Or.inl rfl
  | relay b k =>
    obtain ⟨rfl, rfl⟩ := Prod.mk.inj (Option.some.inj call)
    exact Or.inr ⟨s.externals.size, rfl, carried_of_relay found inside moved⟩
  | _ => cases call

theorem idle_of_quiet (reachable : Reachable s) (quiet : s.Quiet) {c : CellId}
    (decided : s.outcome? c ≠ none) : s.queueOf c = [] ∧ s.dispatches c = false := by
  have closed : (s.ledger.view c).decided = true := Option.isSome_iff_ne_none.mpr decided
  have idle (t : ThreadId) : (s.ledger.view c).duties t = [] := by
    simp [Ledger.view, State.ledger, quiet t, about]
  have busy {t : ThreadId} {duty : Duty} {ds : List Duty}
      (duties : (s.ledger.view c).duties = only t (duty :: ds)) : False := by
    have top := idle t
    rw [duties, only_self] at top
    cases top
  cases phase_of_reachable reachable c with
  | pending undecided => cases undecided.symm.trans closed
  | announcing t _ _ duties => exact (busy duties).elim
  | dispatching t _ _ _ duties => exact (busy duties).elim
  | running t _ r _ _ duties => exact (busy duties).elim
  | closed _ _ _ free waiting => exact ⟨List.map_eq_nil_iff.mp waiting, free⟩

theorem holds_of_derived (reachable : Reachable s) (quiet : s.Quiet) {c : CellId} {x : Object}
    (derived : Derived s c x) (decided : s.outcome? c ≠ none) : s.holds? x ≠ none := by
  obtain ⟨s₀, t, name, p, fs, s₁, past, found, call, inside, moved, reached⟩ := derived
  have since : Reachable s₁ := reachable_of_reaches past (.of_move moved)
  obtain ⟨registered, rfl | ⟨e, rfl, known, carried⟩⟩ := registered_of_call found call inside moved
  · have landed := decided_of_quiet reachable quiet (registered_of_reaches since reached registered)
      decided
    rw [State.holds?]
    simpa using landed
  · have now : e < s.externals.size ∧ Carried s c e := by
      refine keeps_of_reaches (P := fun s => e < s.externals.size ∧ Carried s c e) since reached
        ⟨known, carried⟩ ?_
      intro s s' reachable now advance
      have later := extends_of_advance advance
      exact ⟨Nat.lt_of_lt_of_le now.1 later.externals,
        carried_of_advance advance (sound_of_reachable reachable) now.1 now.2⟩
    cases now.2 with
    | settled settled => exact settled
    | running t thread found carries =>
      exact absurd (quiet t) (duty_of_carries found (sound_of_reachable reachable) carries)
    | waiting r member =>
      rw [(idle_of_quiet reachable quiet decided).1] at member
      cases member

theorem settled_of_quiet (reachable : Reachable s) (quiet : s.Quiet) :
    (∀ c, s.outcome? c ≠ none → s.queueOf c = [] ∧ s.dispatches c = false) ∧
      ∀ c x, Descends s c x → s.outcome? c ≠ none → s.holds? x ≠ none := by
  refine ⟨fun c => idle_of_quiet reachable quiet, ?_⟩
  intro c x descends decided
  induction descends with
  | derived call => exact holds_of_derived reachable quiet call decided
  | @further c r x call _ ih =>
    apply ih
    have landed := holds_of_derived reachable quiet call decided
    intro undecided
    rw [State.holds?, undecided] at landed
    exact landed rfl

def panickingContinuation : Prog Nat Empty Unit :=
  .chain 0 (.panic .other) fun _ => .decide 0 (.complete 5) fun _ => .ret 0

theorem settled_of_quiet_panicked : ∃ s : State Nat Empty Unit, Reachable s ∧ s.Quiet ∧
    Descends s 0 (.cell 1) ∧ s.outcome? 0 ≠ none ∧ s.holds? (.cell 1) ≠ none := by
  let rest := List.replicate 14 (Move.step 0)
  let begin' := State.start () (.newCell none fun _ => panickingContinuation)
  have ended : (begin'.run (.step 0 :: .step 0 :: rest)).map (fun s =>
      (s.threads.size, s.duties 0, (s.outcome? 0).isSome)) = some (1, [], true) := by decide +kernel
  obtain ⟨s, reached, facts⟩ := Option.map_eq_some_iff.mp ended
  obtain ⟨one, idle, decided⟩ : s.threads.size = 1 ∧ s.duties 0 = [] ∧
    (s.outcome? 0).isSome = true := by simpa using facts
  obtain ⟨s₀, first, reached'⟩ := Option.bind_eq_some_iff.mp reached
  obtain ⟨s₁, second, last⟩ := Option.bind_eq_some_iff.mp reached'
  have reachable : Reachable s := ⟨(), _, _, reached⟩
  have quiet : s.Quiet := by
    intro t
    cases t with
    | zero => exact idle
    | succ t =>
      have none : s.threads[t + 1]? = none := Array.getElem?_eq_none (by omega)
      simp [State.duties, none]
  have decided : s.outcome? 0 ≠ none := Option.isSome_iff_ne_none.mp decided
  have derived : Descends s 0 (.cell 1) := by
    have since : Reachable s₀ := ⟨(), _, [.step 0], Option.bind_eq_some_iff.mpr ⟨s₀, first, rfl⟩⟩
    refine .derived ⟨s₀, 0, some "main", panickingContinuation, [], s₁, since, ?_⟩
    cases first
    exact ⟨rfl, rfl, by decide, second, rest, last⟩
  exact ⟨s, reachable, quiet, derived, decided,
    (settled_of_quiet reachable quiet).2 0 (.cell 1) derived decided⟩

end Inhabited
end Oneshot
