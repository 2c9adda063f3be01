import Oneshot.Proofs.Ledger

/-! # The phases of a cell

What the ledger says of one cell is its view.  A cell is undecided; then the thread that decided it runs
what is queued, one continuation at a time and in turn; then registrations run their continuations
themselves.  `Phase` says what the history of the cell is in each phase (`phase_of_turns`). -/
set_option autoImplicit false
namespace Oneshot
open Function (update)

def Mark.cell : Mark → CellId
  | .decided c | .queued c _ | .inlined c _ | .started c _ | .finished c _ => c

def Mark.result? : Mark → Option CellId
  | .decided _ => none
  | .queued _ r | .inlined _ r | .started _ r | .finished _ r => some r

def Mark.queued? : Mark → Option CellId
  | .queued _ r => some r
  | _ => none

def Mark.registered? : Mark → Option CellId
  | .queued _ r | .inlined _ r => some r
  | _ => none

def Mark.started? : Mark → Option CellId
  | .started _ r => some r
  | _ => none

def Mark.finished? : Mark → Option CellId
  | .finished _ r => some r
  | _ => none

def Duty.cell : Duty → CellId
  | .announce c | .dispatch c | .queued c _ | .inline c _ => c

abbrev Trace := List (ThreadId × Mark)

/-- The continuations with a mark of this kind, in the order of the marks. -/
def Trace.results (kind : Mark → Option CellId) (trace : Trace) : List CellId :=
  trace.filterMap fun entry => kind entry.2

/-- The trace without the registrations that have only queued something. -/
def Trace.runs (trace : Trace) : Trace := trace.filter fun entry => entry.2.queued?.isNone

/-- The trace of one continuation. -/
def Trace.life (r : CellId) (trace : Trace) : Trace :=
  trace.filter fun entry => entry.2.result? = some r

namespace Trace

theorem results_append (kind : Mark → Option CellId) (trace trace' : Trace) :
    results kind (trace ++ trace') = results kind trace ++ results kind trace' :=
  List.filterMap_append

theorem results_snoc (kind : Mark → Option CellId) (trace : Trace) (t : ThreadId) (mark : Mark) :
    results kind (trace ++ [(t, mark)]) = results kind trace ++ (kind mark).toList := by
  rw [results_append]
  rfl

theorem results_snoc_two (kind : Mark → Option CellId) (trace : Trace) (t : ThreadId)
    (mark mark' : Mark) : results kind (trace ++ [(t, mark), (t, mark')]) =
      results kind trace ++ (kind mark).toList ++ (kind mark').toList := by
  have split : trace ++ [(t, mark), (t, mark')] = trace ++ [(t, mark)] ++ [(t, mark')] := by simp
  rw [split, results_snoc, results_snoc]

theorem runs_append (trace trace' : Trace) : runs (trace ++ trace') = runs trace ++ runs trace' :=
  List.filter_append ..

theorem life_append (r : CellId) (trace trace' : Trace) :
    life r (trace ++ trace') = life r trace ++ life r trace' :=
  List.filter_append ..

end Trace

@[ext]
structure View where
  decided : Bool
  waiting : List CellId
  dispatches : Bool
  duties : ThreadId → List Duty
  /-- Oldest first. -/
  trace : Trace

namespace View

def blank : View := ⟨false, [], false, fun _ => [], []⟩

def queued (w : View) : List CellId := w.trace.results Mark.queued?

def registered (w : View) : List CellId := w.trace.results Mark.registered?

def started (w : View) : List CellId := w.trace.results Mark.started?

def runs (w : View) : Trace := w.trace.runs

theorem queued_of_trace {w w' : View} {entries : Trace} (longer : w'.trace = w.trace ++ entries) :
    w'.queued = w.queued ++ entries.results Mark.queued? := by
  rw [queued, longer, Trace.results_append]
  rfl

theorem runs_of_trace {w w' : View} {entries : Trace} (longer : w'.trace = w.trace ++ entries) :
    w'.runs = w.runs ++ entries.runs := by
  rw [runs, longer, Trace.runs_append]
  rfl

def New (w : View) (r : CellId) : Prop := ∀ entry ∈ w.trace, entry.2.result? ≠ some r

end View

/-- What one posting may change in the view of `c`. -/
inductive Turns (c : CellId) (w : View) : View → Prop
  | readies (blank : w = .blank) : Turns c w { w with decided := true }
  | decides {t} (undecided : w.decided = false) :
      Turns c w
        { w with
          decided := true
          dispatches := true
          duties := update w.duties t (.announce c :: w.duties t) }
  | announces {t ds} (top : w.duties t = .announce c :: ds) :
      Turns c w
        { w with
          duties := update w.duties t (.dispatch c :: ds)
          trace := w.trace ++ [(t, .decided c)] }
  | queues {t r} (waits : w.decided = false ∨ w.dispatches = true) (new : w.New r) :
      Turns c w
        { w with
          waiting := w.waiting ++ [r]
          trace := w.trace ++ [(t, .queued c r)] }
  | inlines {t r} (decided : w.decided = true) (free : w.dispatches = false) (new : w.New r) :
      Turns c w
        { w with
          duties := update w.duties t (.inline c r :: w.duties t)
          trace := w.trace ++ [(t, .inlined c r), (t, .started c r)] }
  | takes {t r rest ds} (waiting : w.waiting = r :: rest) (top : w.duties t = .dispatch c :: ds) :
      Turns c w
        { w with
          waiting := rest
          duties := update w.duties t (.queued c r :: .dispatch c :: ds)
          trace := w.trace ++ [(t, .started c r)] }
  | empties {t ds} (waiting : w.waiting = []) (top : w.duties t = .dispatch c :: ds) :
      Turns c w
        { w with
          dispatches := false
          duties := update w.duties t ds }
  | finishes {t r duty ds} (which : duty = .queued c r ∨ duty = .inline c r)
      (top : w.duties t = duty :: ds) :
      Turns c w
        { w with
          duties := update w.duties t ds
          trace := w.trace ++ [(t, .finished c r)] }

/-- The run of a continuation that its dispatch has taken. -/
def turn (t : ThreadId) (c r : CellId) : Trace := [(t, .started c r), (t, .finished c r)]

def only (t : ThreadId) (ds : List Duty) : ThreadId → List Duty := update (fun _ => []) t ds

theorem update_only (t : ThreadId) (ds ds' : List Duty) : update (only t ds) t ds' = only t ds' :=
  Function.update_idem ..

theorem only_nil (t : ThreadId) : only t [] = fun _ => [] := Function.update_eq_self ..

theorem only_self (t : ThreadId) (ds : List Duty) : only t ds t = ds := Function.update_self ..

theorem only_eq_cons {t u : ThreadId} {ds rest : List Duty} {duty : Duty}
    (top : only t ds u = duty :: rest) : u = t ∧ ds = duty :: rest := by
  unfold only at top
  rw [Function.update_apply] at top
  split at top
  next same => exact ⟨same, top⟩
  next => cases top

/-- Continuations that their registrations run themselves nest on each thread. -/
inductive Nested (c : CellId) : (ThreadId → List Duty) → Trace → Prop
  | nil : Nested c (fun _ => []) []
  | enters {D trace t r} (nested : Nested c D trace)
      (new : ∀ entry ∈ trace, entry.2.result? ≠ some r) :
      Nested c (update D t (.inline c r :: D t)) (trace ++ [(t, .inlined c r), (t, .started c r)])
  | leaves {D trace t r ds} (nested : Nested c D trace) (top : D t = .inline c r :: ds) :
      Nested c (update D t ds) (trace ++ [(t, .finished c r)])

theorem Nested.inline {c : CellId} {D : ThreadId → List Duty} {trace : Trace}
    (nested : Nested c D trace) {t : ThreadId} {duty : Duty} (member : duty ∈ D t) :
    ∃ r, duty = .inline c r := by
  induction nested with
  | nil => cases member
  | @enters D _ u r _ _ ih =>
    rw [Function.update_apply] at member
    split at member
    next =>
      rcases List.mem_cons.mp member with rfl | below
      · exact ⟨r, rfl⟩
      · exact ih (by rwa [‹t = u›])
    next => exact ih member
  | @leaves D _ u r ds _ top ih =>
    rw [Function.update_apply] at member
    split at member
    next same =>
      subst same
      exact ih (by rw [top]; exact List.mem_cons_of_mem _ member)
    next => exact ih member

/-- How a dispatch, or a cell that was decided from the start, leaves the history. -/
def Opening (c : CellId) (queued : List CellId) (opening : Trace) : Prop :=
  (queued = [] ∧ opening = []) ∨ ∃ t, opening = (t, .decided c) :: queued.flatMap (turn t c)

inductive Phase (c : CellId) (w : View) : Prop
  | pending (undecided : w.decided = false) (idle : w.dispatches = false)
      (duties : w.duties = fun _ => []) (queued : w.queued = w.waiting) (runs : w.runs = [])
  | announcing (t : ThreadId) (decided : w.decided = true) (busy : w.dispatches = true)
      (duties : w.duties = only t [.announce c]) (queued : w.queued = w.waiting) (runs : w.runs = [])
  | dispatching (t : ThreadId) (done : List CellId) (decided : w.decided = true)
      (busy : w.dispatches = true) (duties : w.duties = only t [.dispatch c])
      (queued : w.queued = done ++ w.waiting)
      (runs : w.runs = (t, .decided c) :: done.flatMap (turn t c))
  | running (t : ThreadId) (done : List CellId) (r : CellId) (decided : w.decided = true)
      (busy : w.dispatches = true) (duties : w.duties = only t [.queued c r, .dispatch c])
      (queued : w.queued = done ++ r :: w.waiting)
      (runs : w.runs = (t, .decided c) :: done.flatMap (turn t c) ++ [(t, .started c r)])
  | closed (opening later : Trace) (decided : w.decided = true) (idle : w.dispatches = false)
      (waiting : w.waiting = []) (opens : Opening c w.queued opening)
      (nested : Nested c w.duties later) (runs : w.runs = opening ++ later)

section Turns
variable {c : CellId} {w w' : View}

theorem phase_blank (c : CellId) : Phase c .blank := .pending rfl rfl rfl rfl rfl

theorem announcing_of_top {t : ThreadId} {ds : List Duty} (phase : Phase c w)
    (top : w.duties t = .announce c :: ds) :
    ds = [] ∧ w.decided = true ∧ w.dispatches = true ∧ w.duties = only t [.announce c] ∧
      w.queued = w.waiting ∧ w.runs = [] := by
  cases phase with
  | pending _ _ duties => rw [duties] at top; cases top
  | announcing u decided busy duties queued runs =>
    rw [duties] at top
    obtain ⟨rfl, same⟩ := only_eq_cons top
    cases same
    exact ⟨rfl, decided, busy, duties, queued, runs⟩
  | dispatching u done _ _ duties =>
    rw [duties] at top
    cases (only_eq_cons top).2
  | running u done r _ _ duties =>
    rw [duties] at top
    cases (only_eq_cons top).2
  | closed _ _ _ _ _ _ nested =>
    obtain ⟨r, same⟩ := nested.inline (by rw [top]; exact List.mem_cons_self ..)
    cases same

theorem dispatching_of_top {t : ThreadId} {ds : List Duty} (phase : Phase c w)
    (top : w.duties t = .dispatch c :: ds) :
    ds = [] ∧ ∃ done, w.decided = true ∧ w.dispatches = true ∧ w.duties = only t [.dispatch c] ∧
      w.queued = done ++ w.waiting ∧ w.runs = (t, .decided c) :: done.flatMap (turn t c) := by
  cases phase with
  | pending _ _ duties => rw [duties] at top; cases top
  | announcing u _ _ duties =>
    rw [duties] at top
    cases (only_eq_cons top).2
  | dispatching u done decided busy duties queued runs =>
    rw [duties] at top
    obtain ⟨rfl, same⟩ := only_eq_cons top
    cases same
    exact ⟨rfl, done, decided, busy, duties, queued, runs⟩
  | running u done r _ _ duties =>
    rw [duties] at top
    cases (only_eq_cons top).2
  | closed _ _ _ _ _ _ nested =>
    obtain ⟨r, same⟩ := nested.inline (by rw [top]; exact List.mem_cons_self ..)
    cases same

theorem running_of_top {t : ThreadId} {r : CellId} {ds : List Duty} (phase : Phase c w)
    (top : w.duties t = .queued c r :: ds) :
    ds = [.dispatch c] ∧ ∃ done, w.decided = true ∧ w.dispatches = true ∧
      w.duties = only t [.queued c r, .dispatch c] ∧ w.queued = done ++ r :: w.waiting ∧
      w.runs = (t, .decided c) :: done.flatMap (turn t c) ++ [(t, .started c r)] := by
  cases phase with
  | pending _ _ duties => rw [duties] at top; cases top
  | announcing u _ _ duties =>
    rw [duties] at top
    cases (only_eq_cons top).2
  | dispatching u done _ _ duties =>
    rw [duties] at top
    cases (only_eq_cons top).2
  | running u done r' decided busy duties queued runs =>
    rw [duties] at top
    obtain ⟨rfl, same⟩ := only_eq_cons top
    cases same
    exact ⟨rfl, done, decided, busy, duties, queued, runs⟩
  | closed _ _ _ _ _ _ nested =>
    obtain ⟨r', same⟩ := nested.inline (by rw [top]; exact List.mem_cons_self ..)
    cases same

theorem closed_of_top {t : ThreadId} {r : CellId} {ds : List Duty} (phase : Phase c w)
    (top : w.duties t = .inline c r :: ds) :
    ∃ opening later, w.decided = true ∧ w.dispatches = false ∧ w.waiting = [] ∧
      Opening c w.queued opening ∧ Nested c w.duties later ∧ w.runs = opening ++ later := by
  cases phase with
  | pending _ _ duties => rw [duties] at top; cases top
  | announcing u _ _ duties =>
    rw [duties] at top
    cases (only_eq_cons top).2
  | dispatching u done _ _ duties =>
    rw [duties] at top
    cases (only_eq_cons top).2
  | running u done r' _ _ duties =>
    rw [duties] at top
    cases (only_eq_cons top).2
  | closed opening later decided idle waiting opens nested runs =>
    exact ⟨opening, later, decided, idle, waiting, opens, nested, runs⟩

theorem phase_of_decides (phase : Phase c w) (t : ThreadId) (undecided : w.decided = false) :
    Phase c { w with
      decided := true
      dispatches := true
      duties := update w.duties t (.announce c :: w.duties t) } := by
  cases phase with
  | pending _ _ duties queued runs =>
    refine .announcing t rfl rfl ?_ queued runs
    simp only [duties]
    rfl
  | announcing _ decided => cases undecided.symm.trans decided
  | dispatching _ _ decided => cases undecided.symm.trans decided
  | running _ _ _ decided => cases undecided.symm.trans decided
  | closed _ _ decided => cases undecided.symm.trans decided

theorem phase_of_announces (phase : Phase c w) {t : ThreadId} {ds : List Duty}
    (top : w.duties t = .announce c :: ds) :
    Phase c { w with
      duties := update w.duties t (.dispatch c :: ds)
      trace := w.trace ++ [(t, .decided c)] } := by
  obtain ⟨rfl, decided, busy, duties, queued, runs⟩ := announcing_of_top phase top
  refine .dispatching t [] decided busy ?_ ?_ ?_
  · simp only [duties, update_only]
  · rw [View.queued_of_trace (w := w) rfl, queued]
    exact List.append_nil _
  · rw [View.runs_of_trace (w := w) rfl, runs]
    rfl

theorem phase_of_queues (phase : Phase c w) (t : ThreadId) (r : CellId)
    (waits : w.decided = false ∨ w.dispatches = true) :
    Phase c { w with
      waiting := w.waiting ++ [r]
      trace := w.trace ++ [(t, .queued c r)] } := by
  let w' : View := { w with
    waiting := w.waiting ++ [r]
    trace := w.trace ++ [(t, .queued c r)] }
  have added : w'.queued = w.queued ++ [r] :=
    Trace.results_snoc Mark.queued? w.trace t (.queued c r)
  have same : w'.runs = w.runs := (View.runs_of_trace (w := w) rfl).trans (List.append_nil _)
  cases phase with
  | pending undecided idle duties queued runs =>
    exact .pending undecided idle duties (by rw [added, queued]) (same.trans runs)
  | announcing u decided busy duties queued runs =>
    exact .announcing u decided busy duties (by rw [added, queued]) (same.trans runs)
  | dispatching u done decided busy duties queued runs =>
    refine .dispatching u done decided busy duties ?_ (same.trans runs)
    rw [added, queued, List.append_assoc]
  | running u done r decided busy duties queued runs =>
    refine .running u done r decided busy duties ?_ (same.trans runs)
    rw [added, queued, List.append_assoc, List.cons_append]
  | closed _ _ decided idle =>
    rcases waits with undecided | busy
    · cases undecided.symm.trans decided
    · cases busy.symm.trans idle

theorem phase_of_inlines (phase : Phase c w) (t : ThreadId) {r : CellId} (decided : w.decided = true)
    (free : w.dispatches = false) (new : w.New r) :
    Phase c { w with
      duties := update w.duties t (.inline c r :: w.duties t)
      trace := w.trace ++ [(t, .inlined c r), (t, .started c r)] } := by
  cases phase with
  | pending undecided => cases undecided.symm.trans decided
  | announcing _ _ busy => cases busy.symm.trans free
  | dispatching _ _ _ busy => cases busy.symm.trans free
  | running _ _ _ _ busy => cases busy.symm.trans free
  | closed opening later decided idle waiting opens nested runs =>
    have fresh : ∀ entry ∈ later, entry.2.result? ≠ some r := by
      intro entry member
      have recorded : entry ∈ w.runs := by
        rw [runs]
        exact List.mem_append_right _ member
      exact new entry (List.mem_filter.mp recorded).1
    refine .closed opening (later ++ [(t, .inlined c r), (t, .started c r)]) decided idle waiting ?_
      (.enters nested fresh) ?_
    · rw [View.queued_of_trace (w := w) rfl]
      exact (List.append_nil w.queued).symm ▸ opens
    · rw [View.runs_of_trace (w := w) rfl, runs, List.append_assoc]
      rfl

theorem phase_of_takes (phase : Phase c w) {t : ThreadId} {r : CellId} {rest : List CellId}
    {ds : List Duty} (waiting : w.waiting = r :: rest) (top : w.duties t = .dispatch c :: ds) :
    Phase c { w with
      waiting := rest
      duties := update w.duties t (.queued c r :: .dispatch c :: ds)
      trace := w.trace ++ [(t, .started c r)] } := by
  obtain ⟨rfl, done, decided, busy, duties, queued, runs⟩ := dispatching_of_top phase top
  refine .running t done r decided busy ?_ ?_ ?_
  · simp only [duties, update_only]
  · rw [View.queued_of_trace (w := w) rfl, queued, waiting]
    exact List.append_nil _
  · rw [View.runs_of_trace (w := w) rfl, runs]
    rfl

theorem phase_of_empties (phase : Phase c w) {t : ThreadId} {ds : List Duty}
    (waiting : w.waiting = []) (top : w.duties t = .dispatch c :: ds) :
    Phase c { w with
      dispatches := false
      duties := update w.duties t ds } := by
  obtain ⟨rfl, done, decided, busy, duties, queued, runs⟩ := dispatching_of_top phase top
  rw [waiting, List.append_nil] at queued
  refine .closed ((t, .decided c) :: done.flatMap (turn t c)) [] decided rfl waiting ?_ ?_ ?_
  · exact Or.inr ⟨t, by rw [← queued]; rfl⟩
  · simp only [duties, update_only, only_nil]
    exact .nil
  · exact runs.trans (List.append_nil _).symm

theorem phase_of_finishes (phase : Phase c w) {t : ThreadId} {r : CellId} {duty : Duty}
    {ds : List Duty} (which : duty = .queued c r ∨ duty = .inline c r)
    (top : w.duties t = duty :: ds) :
    Phase c { w with
      duties := update w.duties t ds
      trace := w.trace ++ [(t, .finished c r)] } := by
  rcases which with rfl | rfl
  · obtain ⟨rfl, done, decided, busy, duties, queued, runs⟩ := running_of_top phase top
    refine .dispatching t (done ++ [r]) decided busy ?_ ?_ ?_
    · simp only [duties, update_only]
    · rw [View.queued_of_trace (w := w) rfl, queued]
      simp [Trace.results, Mark.queued?]
    · rw [View.runs_of_trace (w := w) rfl, runs]
      simp [turn, Trace.runs, Mark.queued?]
  · obtain ⟨opening, later, decided, idle, waiting, opens, nested, runs⟩ := closed_of_top phase top
    refine .closed opening (later ++ [(t, .finished c r)]) decided idle waiting ?_
      (.leaves nested top) ?_
    · rw [View.queued_of_trace (w := w) rfl]
      exact (List.append_nil w.queued).symm ▸ opens
    · rw [View.runs_of_trace (w := w) rfl, runs, List.append_assoc]
      rfl

theorem phase_of_turns (turns : Turns c w w') (phase : Phase c w) : Phase c w' := by
  cases turns with
  | readies blank =>
    subst blank
    exact .closed [] [] rfl rfl rfl (Or.inl ⟨rfl, rfl⟩) .nil rfl
  | decides undecided => exact phase_of_decides phase _ undecided
  | announces top => exact phase_of_announces phase top
  | queues waits _ => exact phase_of_queues phase _ _ waits
  | inlines decided free new => exact phase_of_inlines phase _ decided free new
  | takes waiting top => exact phase_of_takes phase waiting top
  | empties waiting top => exact phase_of_empties phase waiting top
  | finishes which top => exact phase_of_finishes phase which top

/-- A cell in one of its phases starts its continuations, each registered once, in the order of their
registrations. -/
structure Course (c : CellId) (w : View) : Prop where
  phase : Phase c w
  inTurn : w.started ++ w.waiting = w.registered
  distinct : w.registered.Nodup

theorem course_blank (c : CellId) : Course c .blank := ⟨phase_blank c, rfl, List.nodup_nil⟩

theorem waiting_of_free (phase : Phase c w) (decided : w.decided = true)
    (free : w.dispatches = false) : w.waiting = [] := by
  cases phase with
  | pending undecided => cases undecided.symm.trans decided
  | announcing _ _ busy => cases busy.symm.trans free
  | dispatching _ _ _ busy => cases busy.symm.trans free
  | running _ _ _ _ busy => cases busy.symm.trans free
  | closed _ _ _ _ waiting => exact waiting

theorem View.New.registered {r : CellId} (new : w.New r) : r ∉ w.registered := by
  intro member
  obtain ⟨entry, recorded, same⟩ := List.mem_filterMap.mp member
  apply new entry recorded
  cases mark : entry.2 <;> simp_all [Mark.registered?, Mark.result?]

theorem nodup_append_new {rs : List CellId} {r : CellId} (distinct : rs.Nodup) (new : r ∉ rs) :
    (rs ++ [r]).Nodup := by
  rw [List.nodup_append]
  refine ⟨distinct, by simp, ?_⟩
  intro a known b last
  rw [List.mem_singleton.mp last]
  exact fun same => new (same ▸ known)

/-- A turn registers one continuation that is new, or none. -/
theorem registered_of_turns (turns : Turns c w w') :
    w'.registered = w.registered ∨ ∃ r, w.New r ∧ w'.registered = w.registered ++ [r] := by
  have silent (t : ThreadId) {mark : Mark} (none : mark.registered? = none) :
      Trace.results Mark.registered? (w.trace ++ [(t, mark)]) = w.registered := by
    rw [Trace.results_snoc, none]
    exact List.append_nil _
  cases turns with
  | @queues t r _ new =>
    refine Or.inr ⟨r, new, ?_⟩
    exact Trace.results_snoc Mark.registered? w.trace t (.queued c r)
  | @inlines t r _ _ new =>
    refine Or.inr ⟨r, new, ?_⟩
    rw [View.registered, Trace.results_snoc_two]
    exact List.append_nil _
  | announces _ => exact Or.inl (silent _ rfl)
  | takes _ _ => exact Or.inl (silent _ rfl)
  | finishes _ _ => exact Or.inl (silent _ rfl)
  | _ => exact Or.inl rfl

theorem inTurn_of_turns (turns : Turns c w w') (phase : Phase c w)
    (inTurn : w.started ++ w.waiting = w.registered) :
    w'.started ++ w'.waiting = w'.registered := by
  cases turns with
  | announces _ =>
    simp only [View.started, View.registered, Trace.results_snoc, Mark.started?, Mark.registered?,
      Option.toList, List.append_nil]
    exact inTurn
  | @queues t r _ _ =>
    simp only [View.started, View.registered, Trace.results_snoc, Mark.started?, Mark.registered?,
      Option.toList, List.append_nil]
    rw [← List.append_assoc]
    exact congrArg (· ++ [r]) inTurn
  | @inlines t r decided free _ =>
    have same : w.started = w.registered := by
      rw [← inTurn, waiting_of_free phase decided free, List.append_nil]
    simp only [View.started, View.registered, Trace.results_snoc_two, Mark.started?,
      Mark.registered?, Option.toList, List.append_nil]
    rw [waiting_of_free phase decided free, List.append_nil]
    exact congrArg (· ++ [r]) same
  | @takes t r rest ds waiting _ =>
    simp only [View.started, View.registered, Trace.results_snoc, Mark.started?, Mark.registered?,
      Option.toList, List.append_nil]
    rw [List.append_assoc, List.singleton_append, ← waiting]
    exact inTurn
  | finishes _ _ =>
    simp only [View.started, View.registered, Trace.results_snoc, Mark.started?, Mark.registered?,
      Option.toList, List.append_nil]
    exact inTurn
  | _ => exact inTurn

theorem course_of_turns (turns : Turns c w w') (course : Course c w) : Course c w' := by
  refine ⟨phase_of_turns turns course.phase, inTurn_of_turns turns course.phase course.inTurn, ?_⟩
  rcases registered_of_turns turns with same | ⟨r, new, added⟩
  · rw [same]
    exact course.distinct
  · rw [added]
    exact nodup_append_new course.distinct new.registered

end Turns
end Oneshot
