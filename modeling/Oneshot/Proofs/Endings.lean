import Oneshot.Proofs.Delivery
import Oneshot.Proofs.Parts
import Oneshot.Proofs.Reports

/-! # How a continuation ends

A continuation waits, or one thread has it in hand, or it is finished; and what has been done for it so
far goes with that (`standing_of_run`).  So when it is finished it has run its code once, or has handed on
what it found, and it has made its own attempt (`done_of_standing`); all others cancel
(`cancels_of_try`). -/
set_option autoImplicit false
namespace Oneshot
open Function (update)
variable {V N S : Type}

/-- The outcome that a body asks for by its ending: its value, its failure as it is, or the text of its
panic. -/
inductive Ending.Yields : Ending V → Outcome V → Prop
  | value (v : V) : Yields (.value v) (.value v)
  | failed (id : CauseId) (failure : Failure) : Yields (.failed failure) (.failed (.mk id failure))
  | text (id : CauseId) (s : String) : Yields (.panicked (.text s)) (.failed (.mk id (.panicked s)))
  | other (id : CauseId) :
      Yields (.panicked .other) (.failed (.mk id (.panicked "non-string panic payload")))

/-- What a continuation comes to, if its source holds `source`: the code that it runs, how this ends, and
the outcome that it asks for. -/
inductive Task.ComesTo (source : Outcome V) :
    Task V N S → List (Prog V N S) → List (Ending V) → Outcome V → Prop
  | chain {r body e o} (yields : e.Yields o) : ComesTo source (.chain r body) [body] [e] o
  | applied {r f v e o} (value : source = .value v) (yields : e.Yields o) :
      ComesTo source (.transform r f) [f v] [e] o
  | passed {r f} (none : ∀ v, source ≠ .value v) : ComesTo source (.transform r f) [] [] source
  | bridged {r x e o} (yields : e.Yields o) : ComesTo source (.relay r x) [] [e] o

theorem yields_of_ending (e : Ending V) (id : CauseId) : e.Yields (e.attempt.outcome id) := by
  cases e with
  | value v => exact .value v
  | failed failure => exact .failed id failure
  | panicked payload =>
    cases payload with
    | text s => exact .text id s
    | other => exact .other id

theorem comesTo_of_runs {task : Task V N S} {source o : Outcome V} (runs : ¬ task.HandsOn source)
    {e : Ending V} (yields : e.Yields o) :
    task.ComesTo source (task.code? source).toList [e] o := by
  cases task with
  | chain r body => exact .chain yields
  | relay r x => exact .bridged yields
  | transform r f =>
    cases source with
    | value v => exact .applied rfl yields
    | failed cause => exact absurd (fun v => by simp) runs
    | cancelled => exact absurd (fun v => by simp) runs

theorem comesTo_of_handsOn {task : Task V N S} {source : Outcome V} (passes : task.HandsOn source) :
    task.ComesTo source [] [] source := by
  cases task with
  | transform r f => exact .passed passes
  | _ => exact passes.elim

/-- One thread has the continuation `task` of `c` in hand, and nobody else has to do with it. -/
inductive InHand (c : CellId) (task : Task V N S) (s : State V N S) : Deeds V N S → Prop
  | taken {u name fs} (found : s.threads[u]? = some ⟨name, .starting c task, fs⟩)
      (alone : s.parts task.result = update (fun _ => []) u [.start]) : InHand c task s .none
  | running {u source} (decided : s.outcome? c = some source) (runs : ¬ task.HandsOn source)
      (alone : s.parts task.result = update (fun _ => []) u [.capture, .finish c]) :
      InHand c task s ⟨(task.code? source).toList, [], []⟩
  | deciding {u name fs source begun ended o} (decided : s.outcome? c = some source)
      (comes : task.ComesTo source begun ended o)
      (found : s.threads[u]? = some ⟨name, .deciding task.result o none, fs⟩)
      (alone : s.parts task.result = update (fun _ => []) u [.decide, .finish c]) :
      InHand c task s ⟨begun, ended, []⟩
  | finishing {u source begun ended o own} (decided : s.outcome? c = some source)
      (comes : task.ComesTo source begun ended o) (reading : own.reading = o.reading)
      (alone : s.parts task.result = update (fun _ => []) u [.finish c]) :
      InHand c task s ⟨begun, ended, [own]⟩

def Done (c : CellId) (task : Task V N S) (s : State V N S) (x : Deeds V N S) : Prop :=
  ∃ source o own, s.outcome? c = some source ∧ task.ComesTo source x.begun x.ended o ∧
    x.tried = [own] ∧ own.reading = o.reading

/-- No other waiting continuation decides the cell that `task` decides. -/
def Routed (c : CellId) (task : Task V N S) (s : State V N S) : Prop :=
  ∀ b, ∀ other ∈ s.queueOf b, other.result = task.result → b = c ∧ other = task

/-- The continuation `task` of `c` waits, or a thread has it in hand, or it is finished; and this has
been done for it. -/
inductive Standing (c : CellId) (task : Task V N S) (s : State V N S) : Deeds V N S → Prop
  | waiting (member : task ∈ s.queueOf c) (idle : s.parts task.result = fun _ => [])
      (unfinished : task.result ∉ (s.ledger.view c).finished) : Standing c task s .none
  | held {x} (started : task.result ∈ (s.ledger.view c).started)
      (unfinished : task.result ∉ (s.ledger.view c).finished) (held : InHand c task s x) :
      Standing c task s x
  | finished {x} (started : task.result ∈ (s.ledger.view c).started)
      (finished : task.result ∈ (s.ledger.view c).finished)
      (idle : s.parts task.result = fun _ => []) (done : Done c task s x) : Standing c task s x

section Inhabited
variable [Inhabited V] {s s' : State V N S} {t : ThreadId} {c r : CellId} {task : Task V N S}
  {x z : Deeds V N S} {name : Option String} {d : Doing V N S} {fs : List (Frame V N S)}
  {n : Next V N S}

omit [Inhabited V] in
theorem aside_of_nothing {ps : List Part} (turn : Turn s t r d fs n [] ps z)
    (unqueued : ∀ b, ∀ other ∈ s.queueOf b, other.result ≠ r) : z = .none ∧ ps = [] := by
  cases turn with
  | aside idle other => exact ⟨rfl, rfl⟩
  | takes loop result member => exact absurd result (unqueued _ _ member)

omit [Inhabited V] in
/-- Who has nothing to do with a continuation leaves it where it is. -/
theorem InHand.mono (held : InHand c task s x) (later : Extends s s')
    (parts : s'.parts task.result = s.parts task.result)
    (kept : ∀ u thread, s.threads[u]? = some thread → s.parts task.result u ≠ [] →
      (∀ w, thread.doing ≠ .asleep w) → thread.doing.part? task.result ≠ none →
        s'.threads[u]? = some thread) : InHand c task s' x := by
  cases held with
  | taken found alone =>
    refine .taken (kept _ _ found (by simp [alone]) (fun w asleep => by cases asleep) ?_)
      (parts.trans alone)
    simp [Doing.part?]
  | running decided runs alone => exact .running (later.keeps decided) runs (parts.trans alone)
  | deciding decided comes found alone =>
    refine .deciding (later.keeps decided) comes
      (kept _ _ found (by simp [alone]) (fun w asleep => by cases asleep) ?_) (parts.trans alone)
    simp [Doing.part?]
  | finishing decided comes reading alone =>
    exact .finishing (later.keeps decided) comes reading (parts.trans alone)

omit [Inhabited V] in
theorem Done.mono (done : Done c task s x) (later : Extends s s') : Done c task s' x := by
  obtain ⟨source, o, own, decided, rest⟩ := done
  exact ⟨source, o, own, later.keeps decided, rest⟩

omit [Inhabited V] in
theorem unfinished_of_aside
    (other : ∀ e frame rest, d = .ended e → fs = frame :: rest → frame.part? r = none) :
    r ∉ finishes c d fs := by
  intro member
  unfold finishes at member
  split at member
  next e b r' rest =>
    have none := other e _ rest rfl rfl
    split at member
    next => simp [Frame.part?, List.mem_singleton.mp member] at none
    next => cases member
  next => cases member

omit [Inhabited V] in
theorem unfinished_of_nothing (nothing : partsOf r d fs = []) : r ∉ finishes c d fs := by
  refine unfinished_of_aside fun e frame rest ended here => ?_
  have none : fs.filterMap (Frame.part? r) = [] := (List.append_eq_nil_iff.mp nothing).2
  exact List.filterMap_eq_nil_iff.mp none frame (by rw [here]; exact List.mem_cons_self ..)

theorem inHand_of_nothing (found : s.threads[t]? = some ⟨name, d, fs⟩)
    (transition : Transition s t d fs n) (nothing : partsOf task.result d fs = [])
    (still : partsOf task.result n.doing n.frames = []) (held : InHand c task s x) :
    InHand c task (n.state.setThread t ⟨name, n.doing, n.frames⟩) x := by
  have here : s.parts task.result t = [] := (parts_of_found found).trans nothing
  refine held.mono ((extends_of_transition transition).of_same rfl rfl) ?_
    fun u thread found' busy _ _ => ?_
  · rw [parts_of_step found transition, still, ← here, Function.update_eq_self]
  · exact thread_other transition (fun same => busy (same ▸ here)) found'

omit [Inhabited V] in
theorem owner_of_parts {u : ThreadId} {ps : List Part} (busy : s.parts r t ≠ [])
    (alone : s.parts r = update (fun _ => []) u ps) : t = u ∧ s.parts r t = ps := by
  by_cases same : t = u
  · subst same
    exact ⟨rfl, by rw [alone, Function.update_self]⟩
  · exact absurd (by rw [alone, Function.update_of_ne same]) busy

theorem inHand_of_turn (found : s.threads[t]? = some ⟨name, d, fs⟩) (transition : Transition s t d fs n)
    {ps : List Part} (now : partsOf task.result n.doing n.frames = ps)
    (turn : Turn s t task.result d fs n (partsOf task.result d fs) ps z)
    (unqueued : ∀ b, ∀ other ∈ s.queueOf b, other.result ≠ task.result) (held : InHand c task s x) :
    (InHand c task (n.state.setThread t ⟨name, n.doing, n.frames⟩) (x.also z) ∧
        task.result ∉ finishes c d fs) ∨
      (Done c task (n.state.setThread t ⟨name, n.doing, n.frames⟩) (x.also z) ∧
        finishes c d fs = [task.result] ∧
        (n.state.setThread t ⟨name, n.doing, n.frames⟩).parts task.result = fun _ => []) := by
  let after := n.state.setThread t ⟨name, n.doing, n.frames⟩
  have here : s.parts task.result t = partsOf task.result d fs := parts_of_found found
  have parts : after.parts task.result = update (s.parts task.result) t ps :=
    now ▸ parts_of_step found transition
  have later : Extends s after := (extends_of_transition transition).of_same rfl rfl
  have stepped : after.threads[t]? = some ⟨name, n.doing, n.frames⟩ := thread_after transition found
  by_cases nothing : partsOf task.result d fs = []
  · rw [nothing] at turn
    obtain ⟨rfl, rfl⟩ := aside_of_nothing turn unqueued
    rw [Deeds.also_none]
    exact Or.inl ⟨inHand_of_nothing found transition nothing now held, unfinished_of_nothing nothing⟩
  · have own {u : ThreadId} {qs : List Part} (alone : s.parts task.result = update (fun _ => []) u qs) :
        t = u ∧ partsOf task.result d fs = qs ∧
          after.parts task.result = update (fun _ => []) t ps := by
      obtain ⟨rfl, was⟩ := owner_of_parts (here ▸ nothing) alone
      exact ⟨rfl, here.symm.trans was, by rw [parts, alone, Function.update_idem]⟩
    cases held with
    | taken found' alone =>
      obtain ⟨rfl, was, alone'⟩ := own alone
      cases found.symm.trans found'
      rw [was] at turn
      cases turn with
      | aside idle => simp [Doing.part?] at idle
      | takes _ result member => exact absurd result (unqueued _ _ member)
      | begins starting decided runs code =>
        cases starting
        exact Or.inl ⟨.running (later.keeps decided) runs alone', by simp [finishes]⟩
      | handsOn starting decided passes deciding =>
        cases starting
        rw [deciding] at stepped
        exact Or.inl ⟨.deciding (later.keeps decided) (comesTo_of_handsOn passes) stepped alone',
          by simp [finishes]⟩
    | running decided runs alone =>
      obtain ⟨rfl, was, alone'⟩ := own alone
      rw [was] at turn
      cases turn with
      | aside _ other =>
        rw [Deeds.also_none]
        exact Or.inl ⟨.running (later.keeps decided) runs alone', unfinished_of_aside other⟩
      | takes _ result member => exact absurd result (unqueued _ _ member)
      | @captures _ e rest ended captured deciding =>
        have comes := comesTo_of_runs runs (yields_of_ending e s.nextCause)
        rw [deciding] at stepped
        simp only [Deeds.also, List.append_nil, List.nil_append]
        exact Or.inl ⟨.deciding (later.keeps decided) comes stepped alone',
          by simp [finishes, ended, captured]⟩
    | deciding decided comes found' alone =>
      obtain ⟨rfl, was, alone'⟩ := own alone
      cases found.symm.trans found'
      rw [was] at turn
      cases turn with
      | aside idle => simp [Doing.part?] at idle
      | takes _ result member => exact absurd result (unqueued _ _ member)
      | decides deciding =>
        cases deciding
        simp only [Deeds.also, List.append_nil, List.nil_append]
        exact Or.inl ⟨.finishing (later.keeps decided) comes rfl alone', by simp [finishes]⟩
    | finishing decided comes reading alone =>
      obtain ⟨rfl, was, alone'⟩ := own alone
      rw [was] at turn
      cases turn with
      | aside _ other =>
        rw [Deeds.also_none]
        exact Or.inl ⟨.finishing (later.keeps decided) comes reading alone', unfinished_of_aside other⟩
      | takes _ result member => exact absurd result (unqueued _ _ member)
      | finishes ended finishing =>
        rw [Deeds.also_none]
        refine Or.inr ⟨⟨_, _, _, later.keeps decided, comes, rfl, reading⟩, ?_, ?_⟩
        · simp [finishes, ended, finishing]
        · rw [alone', Function.update_eq_self]

/-- A continuation that has been started waits nowhere. -/
theorem unqueued_of_started (reachable : Reachable s) (routed : Routed c task s)
    (started : task.result ∈ (s.ledger.view c).started) :
    ∀ b, ∀ other ∈ s.queueOf b, other.result ≠ task.result := by
  intro b other member same
  obtain ⟨rfl, rfl⟩ := routed b other member same
  have course := (orderly_of_reachable reachable).course b
  have distinct := course.distinct
  rw [← course.inTurn, List.nodup_append] at distinct
  have waits : other.result ∈ (s.ledger.view b).waiting := List.mem_map_of_mem member
  exact distinct.2.2 _ started _ waits rfl

omit [Inhabited V] in
theorem task_result {p : Prog V N S} (registers : p.task? s = some (c, task)) :
    task.result = s.cells.size := by
  cases p <;> cases registers <;> rfl

theorem routed_of_move {m : Move} (moved : s.move m = some s') (known : task.result < s.cells.size)
    (routed : Routed c task s) : Routed c task s' := by
  intro b other member same
  rcases step_or_lull moved with ⟨t, rfl⟩ | lull
  · obtain ⟨thread, n, found, next, rfl⟩ := next_of_step moved
    rcases queued_of_next next member with before | ⟨p, -, registers⟩
    · exact routed b other before same
    · exact absurd (same.symm.trans (task_result registers)) (Nat.ne_of_lt known)
  · rw [lull.queueOf] at member
    exact routed b other member same

theorem standing_of_step (moved : s.step t = some s') (reachable : Reachable s)
    (known : task.result < s.cells.size) (routed : Routed c task s) (standing : Standing c task s x) :
    Standing c task s' (x.also (s.deeds task.result (.step t))) := by
  have recorded := recorded_of_reachable reachable c
  obtain ⟨⟨name, d, fs⟩, n, found, next, rfl⟩ := next_of_step moved
  have transition := transition_of_next next
  obtain ⟨z, turn⟩ := turning_of_next next ((sound_of_reachable reachable).threads t _ found) known
  rw [deeds_of_turn found next turn]
  let after := n.state.setThread t ⟨name, n.doing, n.frames⟩
  have finished' := recorded.finishes moved found
  have stepped : after.threads[t]? = some ⟨name, n.doing, n.frames⟩ := thread_after transition found
  have started' : (after.ledger.view c).started = (s.ledger.view c).started ++ n.doing.starts c :=
    recorded.starts moved stepped
  have unfinished (before : task.result ∉ (s.ledger.view c).finished)
      (now : task.result ∉ finishes c d fs) : task.result ∉ (after.ledger.view c).finished := by
    rw [finished', List.mem_append]
    exact fun either => either.elim before now
  have parts : after.parts task.result = update (s.parts task.result) t _ :=
    parts_of_step found transition
  have later : Extends s after := (extends_of_transition transition).of_same rfl rfl
  have nothing (idle : s.parts task.result = fun _ => []) : partsOf task.result d fs = [] := by
    rw [← parts_of_found found, idle]
  cases standing with
  | waiting member idle before =>
    rw [nothing idle] at turn
    generalize now : partsOf task.result n.doing n.frames = ps at turn parts
    have unfinished' := unfinished before (unfinished_of_nothing (nothing idle))
    cases turn with
    | aside =>
      refine .waiting ?_ (by rw [parts, idle, Function.update_eq_self]) unfinished'
      refine (queue_of_transition transition member).resolve_right fun starting => ?_
      simp [partsOf, starting, Doing.part?] at now
    | @takes _ b other loop result waits starting =>
      obtain ⟨rfl, rfl⟩ := routed b other waits result
      refine .held ?_ unfinished' (.taken (by rw [stepped, starting]) (by rw [parts, idle]))
      rw [started', starting]
      exact List.mem_append_right _ (by simp [Doing.starts])
  | held started before held =>
    have still : task.result ∈ (after.ledger.view c).started :=
      started' ▸ List.mem_append_left _ started
    have unqueued := unqueued_of_started reachable routed started
    rcases inHand_of_turn found transition rfl turn unqueued held with
      ⟨held', now⟩ | ⟨done, now, idle⟩
    · exact .held still (unfinished before now) held'
    · refine .finished still ?_ idle done
      rw [finished', now]
      exact List.mem_append_right _ (List.mem_singleton.mpr rfl)
  | finished started finished idle done =>
    have unqueued := unqueued_of_started reachable routed started
    rw [nothing idle] at turn
    obtain ⟨rfl, now⟩ := aside_of_nothing turn unqueued
    rw [Deeds.also_none]
    refine .finished (started' ▸ List.mem_append_left _ started)
      (finished' ▸ List.mem_append_left _ finished) ?_ (done.mono later)
    rw [parts, now, idle, Function.update_eq_self]

omit [Inhabited V] in
theorem results_of_lull (lull : Lull s s') (kind : Mark → Option CellId) (c : CellId) :
    (s'.ledger.view c).trace.results kind = (s.ledger.view c).trace.results kind := by
  refine results_of_marks ?_ kind c
  rw [State.marks, lull.history, State.marks]

theorem deeds_of_idle {m : Move} (idle : ∀ t, m ≠ .step t) : s.deeds r m = .none := by
  cases m with
  | step t => exact absurd rfl (idle t)
  | _ => rfl

theorem standing_of_move {m : Move} (moved : s.move m = some s') (reachable : Reachable s)
    (known : task.result < s.cells.size) (routed : Routed c task s) (standing : Standing c task s x) :
    Standing c task s' (x.also (s.deeds task.result m)) := by
  by_cases stepped : ∃ t, m = .step t
  · obtain ⟨t, rfl⟩ := stepped
    exact standing_of_step moved reachable known routed standing
  · have idle (t : ThreadId) : m ≠ .step t := fun same => stepped ⟨t, same⟩
    have lull : Lull s s' := (step_or_lull moved).resolve_left stepped
    have parts := parts_of_lull (r := task.result) moved idle
    have started : (s'.ledger.view c).started = (s.ledger.view c).started := results_of_lull lull _ c
    have finished : (s'.ledger.view c).finished = (s.ledger.view c).finished := results_of_lull lull _ c
    have later := extends_of_advance (advance_of_move moved)
    rw [deeds_of_idle idle, Deeds.also_none]
    cases standing with
    | waiting member nobody unfinished =>
      exact .waiting (by rwa [lull.queueOf]) (parts.trans nobody) (finished ▸ unfinished)
    | held begun unfinished held =>
      refine .held (started ▸ begun) (finished ▸ unfinished) (held.mono later parts ?_)
      exact fun u thread found _ up _ => thread_kept moved (idle u) found up
    | finished begun past nobody done =>
      exact .finished (started ▸ begun) (finished ▸ past) (parts.trans nobody) (done.mono later)

/-! ## From the registration on -/

omit [Inhabited V] in
theorem parts_of_stacked (stacked : Stacked s fs) : fs.filterMap (Frame.part? s.cells.size) = [] := by
  induction fs with
  | nil => rfl
  | cons frame fs ih =>
    have none : frame.part? s.cells.size = none := by
      cases frame with
      | finishing c b => exact if_neg (Nat.ne_of_lt stacked.1.2.1)
      | capturing b =>
        obtain ⟨c, rest, rfl⟩ := stacked.1
        exact if_neg (Nat.ne_of_lt stacked.2.1.2.1)
      | _ => rfl
    rw [List.filterMap_cons_none none]
    exact ih stacked.2

omit [Inhabited V] in
theorem parts_of_new (sound : s.Sound) : s.parts s.cells.size = fun _ => [] := by
  funext t
  cases found : s.threads[t]? with
  | none => simp [State.parts, found]
  | some thread =>
    obtain ⟨name, d, fs⟩ := thread
    obtain ⟨top, stacked⟩ := sound.threads t _ found
    have none : d.part? s.cells.size = none := by
      cases d with
      | starting c task => exact if_neg (Nat.ne_of_lt top.2.1)
      | deciding b o k =>
        cases k with
        | none =>
          obtain ⟨c, rest, rfl⟩ := top
          exact if_neg (Nat.ne_of_lt stacked.1.2.1)
        | some k => rfl
      | _ => rfl
    rw [parts_of_found found, partsOf, none, parts_of_stacked stacked]
    rfl

omit [Inhabited V] in
/-- A call that registers a continuation goes on, or it has to run the continuation first. -/
theorem waits_or_runs (task : Task V N S) (fs : List (Frame V N S)) {cell : Cell V N S}
    (held : s.cells[c]? = some cell) (p : Prog V N S) :
    (task ∈ (s.register t c task p fs).state.queueOf c ∧ (s.register t c task p fs).doing = .run p ∧
      (s.register t c task p fs).frames = fs) ∨
    ((s.register t c task p fs).doing = .starting c task ∧
      (s.register t c task p fs).frames = .resume p :: fs) := by
  rcases waits_or_starts held t task p fs with waits | starts
  · unfold State.register at waits ⊢
    rw [held] at waits ⊢
    simp only at waits ⊢
    split
    next queues =>
      rw [if_pos queues] at waits
      exact Or.inl ⟨waits, rfl, rfl⟩
    next => exact Or.inr ⟨rfl, rfl⟩
  · exact Or.inr ⟨starts, (State.starting_of_register starts).2.2⟩

omit [Inhabited V] in
theorem derived_of_register (task : Task V N S) (fs : List (Frame V N S)) {cell : Cell V N S}
    (held : s.cells[c]? = some cell) (p : Prog V N S) :
    (s.register t c task p fs).state.cells[s.cells.size]? = some .derived := by
  have other : s.cells.size ≠ c := (Nat.ne_of_lt (Array.getElem?_eq_some_iff.mp held).1).symm
  have made : (s.addCell .derived).cells[s.cells.size]? = some (.derived : Cell V N S) := by
    rw [State.getElem?_addCell, if_pos rfl]
  unfold State.register
  rw [held]
  split
  next missing => cases missing
  next cell' found =>
    cases found
    split
    next =>
      have known := Opens.found_addCell (.atOnce (t := t)) .derived held
      refine (State.getElem?_replaceCell known (·.enqueue task) s.cells.size).trans ?_
      rw [if_neg other, made]
    next => exact made

omit [Inhabited V] in
theorem register_of_task? {p : Prog V N S} (registers : p.task? s = some (c, task))
    (moved : s.perform t p fs = some n) :
    ∃ s₀ q, Opens s t s₀ ∧ n = s₀.register t c task q fs := by
  cases p with
  | chain b body k =>
    cases registers
    exact ⟨s, _, .atOnce, (Option.some.inj moved).symm⟩
  | transform b f k =>
    cases registers
    exact ⟨s, _, .atOnce, (Option.some.inj moved).symm⟩
  | relay b k =>
    cases registers
    exact ⟨_, _, .bridge c, (Option.some.inj moved).symm⟩
  | _ => cases registers

structure Registered (c : CellId) (task : Task V N S) (s : State V N S) : Prop where
  standing : Standing c task s .none
  routed : Routed c task s
  derived : s.cells[task.result]? = some .derived

omit [Inhabited V] in
theorem Registered.has (registered : Registered c task s) : s.Has (.cell task.result) :=
  (Array.getElem?_eq_some_iff.mp registered.derived).1

omit [Inhabited V] in
theorem Registered.undecided (registered : Registered c task s) :
    s.holds? (.cell task.result) = none := by
  rw [State.holds?, State.outcome?_of_found registered.derived]
  rfl

theorem registered_of_task? (reachable : Reachable s) {p : Prog V N S}
    (found : s.threads[t]? = some ⟨name, .run p, fs⟩) (registers : p.task? s = some (c, task))
    (inside : c < s.cells.size) (moved : s.move (.step t) = some s') : Registered c task s' := by
  have result := task_result registers
  have sound := sound_of_reachable reachable
  have recorded := recorded_of_reachable reachable c
  have finished' : (s'.ledger.view c).finished = (s.ledger.view c).finished ++ [] :=
    recorded.finishes moved found
  obtain ⟨thread, n, found', next, rfl⟩ := next_of_step moved
  cases found.symm.trans found'
  have transition := transition_of_next next
  let after := n.state.setThread t ⟨name, n.doing, n.frames⟩
  have stepped : after.threads[t]? = some ⟨name, n.doing, n.frames⟩ := thread_after transition found
  have started' : (after.ledger.view c).started = (s.ledger.view c).started ++ n.doing.starts c :=
    recorded.starts moved stepped
  have new : s.parts task.result = fun _ => [] := result ▸ parts_of_new sound
  have parts : after.parts task.result = update (s.parts task.result) t _ :=
    parts_of_step found transition
  have unfinished : task.result ∉ (after.ledger.view c).finished := by
    rw [finished', List.append_nil, result]
    intro member
    obtain ⟨entry, marked, same⟩ := List.mem_filterMap.mp member
    refine Nat.lt_irrefl _ ((orderly_of_reachable reachable).tidy.marks entry
      (mem_traceOf.mp marked).1 s.cells.size ?_)
    cases mark : entry.2 <;> simp_all [Mark.finished?, Mark.result?]
  obtain ⟨s₀, q, opens, rfl⟩ := register_of_task? registers next
  have held : s₀.cells[c]? = some s.cells[c] := by
    rw [opens.cells]
    exact Array.getElem?_eq_getElem inside
  refine ⟨?_, ?_, ?_⟩
  · rcases waits_or_runs task fs held (t := t) q with
      ⟨waits, doing, frames⟩ | ⟨starting, frames⟩
    · refine .waiting waits ?_ unfinished
      have same : partsOf task.result (s₀.register t c task q fs).doing
          (s₀.register t c task q fs).frames = s.parts task.result t := by
        rw [doing, frames, parts_of_found found]
        rfl
      rw [parts, same, Function.update_eq_self, new]
    · refine .held ?_ unfinished (.taken (by rw [stepped, starting]) ?_)
      · rw [started', starting]
        exact List.mem_append_right _ (by simp [Doing.starts])
      · have below : fs.filterMap (Frame.part? task.result) = [] :=
          result ▸ parts_of_stacked (sound.threads t _ found).stacked
        have now : partsOf task.result (.starting c task) (.resume q :: fs) = [.start] := by
          rw [partsOf, Doing.part?, if_pos rfl]
          exact congrArg (Part.start :: ·) below
        rw [parts, new, starting, frames, now]
  · intro b other member same
    rcases queued_of_next next member with before | ⟨p', run, registers'⟩
    · refine absurd (sound.issued b other before) ?_
      rw [same, result]
      exact Nat.lt_irrefl _
    · cases run
      cases registers.symm.trans registers'
      exact ⟨rfl, rfl⟩
  · have made := derived_of_register (t := t) task fs held q
    have sizes : s₀.cells.size = task.result := by rw [opens.cells, result]
    rw [sizes] at made
    exact made

/-- What has been done for `r` along a run. -/
def State.record (s : State V N S) (r : CellId) (ms : List Move) : Deeds V N S :=
  ⟨s.gather (State.begins r) ms, s.gather (State.endings r) ms,
    (s.tries (.cell r) ms).filter Try.unasked⟩

theorem tries_eq_gather (x : Object) (s : State V N S) (ms : List Move) :
    s.tries x ms = s.gather (fun s m => (s.tryOn? x m).toList) ms := by
  induction ms generalizing s with
  | nil => rfl
  | cons m ms ih =>
    rw [State.tries, State.gather]
    cases s.move m with
    | none => rfl
    | some s' => exact congrArg (_ ++ ·) (ih s')

/-- A call attempts nothing itself. -/
theorem tries_of_call {p : Prog V N S} (found : s.threads[t]? = some ⟨name, .run p, fs⟩)
    (moved : s.move (.step t) = some s') (x : Object) (ms : List Move) :
    s.tries x (.step t :: ms) = s'.tries x ms := by
  simp [State.tries, moved, State.tryOn?, found, Doing.attempt?]

theorem record_snoc {ms : List Move} (ran : s.run ms = some s') (r : CellId) (m : Move) :
    s.record r (ms ++ [m]) = (s.record r ms).also (s'.deeds r m) := by
  simp only [State.record, Deeds.also, State.deeds, tries_eq_gather, gather_snoc ran, List.filter_append]

theorem standing_of_run (reachable : Reachable s) (registered : Registered c task s) {ms : List Move}
    (ran : s.run ms = some s') : Standing c task s' (s.record task.result ms) := by
  have known : task.result < s.cells.size := registered.has
  have all : Standing c task s' (s.record task.result ms) ∧ Routed c task s' := by
    refine run_induct (P := fun ms s' => Standing c task s' (s.record task.result ms) ∧ Routed c task s')
      ⟨registered.standing, registered.routed⟩ ?_ ran
    rintro ms s₁ m s₂ before ⟨standing, routed⟩ moved
    have since := extends_of_reaches ⟨ms, before⟩
    have known₁ := Nat.lt_of_lt_of_le known since.cells
    rw [record_snoc before]
    exact ⟨standing_of_move moved (reachable_of_reaches reachable ⟨ms, before⟩) known₁ routed standing,
      routed_of_move moved known₁ routed⟩
  exact all.1

omit [Inhabited V] in
theorem finished_iff : r ∈ (s.ledger.view c).finished ↔ ∃ t, ⟨t, .finished c r⟩ ∈ s.history := by
  constructor
  · intro member
    obtain ⟨⟨t, mark⟩, marked, same⟩ := List.mem_filterMap.mp member
    obtain ⟨⟨u, event⟩, recorded, entry⟩ := List.mem_filterMap.mp (mem_traceOf.mp marked).1
    have cell := (mem_traceOf.mp marked).2
    cases event with
    | finished b r' =>
      cases entry
      cases cell
      cases same
      exact ⟨_, recorded⟩
    | _ => cases entry <;> cases same
  · rintro ⟨t, member⟩
    have marked : (t, Mark.finished c r) ∈ s.marks := List.mem_filterMap.mpr ⟨_, member, rfl⟩
    exact List.mem_filterMap.mpr ⟨_, mem_traceOf.mpr ⟨marked, rfl⟩, rfl⟩

omit [Inhabited V] in
theorem done_of_standing (standing : Standing c task s x)
    (past : task.result ∈ (s.ledger.view c).finished) : Done c task s x := by
  cases standing with
  | waiting _ _ unfinished => exact absurd past unfinished
  | held _ unfinished => exact absurd past unfinished
  | finished _ _ _ done => exact done

omit [Inhabited V] in
theorem begun_of_comesTo {source o : Outcome V} {begun : List (Prog V N S)} {ended : List (Ending V)}
    (comes : task.ComesTo source begun ended o) : begun.length ≤ 1 := by
  cases comes <;> simp

omit [Inhabited V] in
theorem begun_of_standing (standing : Standing c task s x) : x.begun.length ≤ 1 := by
  cases standing with
  | waiting => exact Nat.zero_le _
  | held _ _ held =>
    cases held with
    | taken => exact Nat.zero_le _
    | @running u source => cases task.code? source <;> simp
    | deciding _ comes => exact begun_of_comesTo comes
    | finishing _ comes => exact begun_of_comesTo comes
  | finished _ _ _ done =>
    obtain ⟨source, o, own, -, comes, -⟩ := done
    exact begun_of_comesTo comes

omit [Inhabited V] in
theorem frameDuties_of_finishing (member : .finishing c r ∈ fs) : frameDuties fs ≠ [] := by
  induction fs with
  | nil => cases member
  | cons frame fs ih =>
    rcases List.mem_cons.mp member with rfl | below
    · exact List.cons_ne_nil _ _
    · cases frame with
      | finishing b r' => exact List.cons_ne_nil _ _
      | draining b => exact List.cons_ne_nil _ _
      | _ => exact ih below

omit [Inhabited V] in
theorem duties_of_finish (part : .finish c ∈ s.parts r t) : s.duties t ≠ [] := by
  unfold State.parts at part
  split at part
  next => cases part
  next thread found =>
    have inside : ∃ frame ∈ thread.frames, frame.part? r = some (.finish c) := by
      rcases List.mem_append.mp part with top | below
      · cases doing : thread.doing with
        | starting b task => simp [doing, Doing.part?] at top
        | deciding b o k => cases k <;> simp [doing, Doing.part?] at top
        | _ => simp [doing, Doing.part?] at top
      · exact List.mem_filterMap.mp below
    obtain ⟨frame, member, here⟩ := inside
    have duty : frameDuties thread.frames ≠ [] := by
      cases frame with
      | finishing b r' => exact frameDuties_of_finishing member
      | capturing b => simp [Frame.part?] at here
      | _ => cases here
    obtain ⟨first, last⟩ := List.exists_mem_of_ne_nil _ duty
    rw [State.duties_of_found found]
    exact List.ne_nil_of_mem (mem_dutiesOf last)

theorem finished_of_quiet (reachable : Reachable s) (standing : Standing c task s x) (quiet : s.Quiet)
    (decided : s.outcome? c ≠ none) : task.result ∈ (s.ledger.view c).finished := by
  cases standing with
  | waiting member =>
    rw [(idle_of_quiet reachable quiet decided).1] at member
    cases member
  | held _ _ held =>
    have busy {u : ThreadId} {ps : List Part} (alone : s.parts task.result = update (fun _ => []) u ps)
        (last : .finish c ∈ ps) : False := by
      refine duties_of_finish (c := c) (t := u) (r := task.result) ?_ (quiet u)
      rw [alone, Function.update_self]
      exact last
    cases held with
    | @taken u name fs found _ =>
      have idle := quiet u
      rw [State.duties_of_found found] at idle
      cases idle
    | running _ _ alone => exact (busy alone (by simp)).elim
    | deciding _ _ _ alone => exact (busy alone (by simp)).elim
    | finishing _ _ _ alone => exact (busy alone (by simp)).elim
  | finished _ finished => exact finished

theorem cancels_of_try {ms : List Move} (reachable : Reachable s) (derives : s.Derives r)
    (ran : s.run ms = some s') {a : Try V N S} (member : a ∈ s.tries (.cell r) ms)
    (asked : a.answer ≠ none) : a.reading = .error .cancelled := by
  obtain ⟨reached, tried, -⟩ := reaches_of_try ran member
  obtain ⟨⟨name, d, fs⟩, -, -, found, attempt⟩ := try_cases tried
  obtain ⟨k, answer⟩ := Option.ne_none_iff_exists'.mp asked
  rcases attempt_cases attempt with ⟨b, o, same, rfl, reading⟩ | ⟨e, same, -⟩
  · cases same
    rw [answer] at found
    rw [← reading, cancels_of_derived (reachable_of_reaches reachable reached)
      (derives_of_reaches reached derives) found]
    rfl
  · cases same

end Inhabited
end Oneshot
