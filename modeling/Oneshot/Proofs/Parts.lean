import Oneshot.Proofs.Origins
import Oneshot.Proofs.Quiescence

/-! # Who is at work on a continuation

From its start to its finish a continuation is in the hands of a thread, and what the thread still has
to do for it is read off what it does and off its frames.  `Turn` lists what a step may do of this
(`turning_of_next`).  A cell that was derived is decided by its continuation, or else cancelled
(`cancels_of_derived`). -/
set_option autoImplicit false
namespace Oneshot
open Function (update)
variable {V N S : Type}

inductive Part
  | start
  | capture
  | decide
  | finish (c : CellId)

/-- What is to be done at once for the continuation that decides `r`. -/
def Doing.part? (r : CellId) : Doing V N S → Option Part
  | .starting _ task => if task.result = r then some .start else none
  | .deciding b _ none => if b = r then some .decide else none
  | _ => none

def Frame.part? (r : CellId) : Frame V N S → Option Part
  | .capturing b => if b = r then some .capture else none
  | .finishing c b => if b = r then some (.finish c) else none
  | _ => none

def partsOf (r : CellId) (d : Doing V N S) (fs : List (Frame V N S)) : List Part :=
  (d.part? r).toList ++ fs.filterMap (Frame.part? r)

def State.parts (s : State V N S) (r : CellId) (t : ThreadId) : List Part :=
  match s.threads[t]? with
  | none => []
  | some thread => partsOf r thread.doing thread.frames

/-- The code that a continuation runs, when its source holds `source`. -/
def Task.code? (source : Outcome V) : Task V N S → Option (Prog V N S)
  | .chain _ body => some body
  | .transform _ f =>
    match source with
    | .value v => some (f v)
    | _ => none
  | .relay _ _ => none

/-- A continuation that runs nothing: the outcome is handed on. -/
def Task.HandsOn (source : Outcome V) : Task V N S → Prop
  | .transform _ _ => ∀ v, source ≠ .value v
  | _ => False

/-- What has been done for a continuation: the code that was set going, the endings that were captured,
and the attempts that nobody is told of. -/
structure Deeds (V N S : Type) where
  begun : List (Prog V N S)
  ended : List (Ending V)
  tried : List (Try V N S)

namespace Deeds

def none : Deeds V N S := ⟨[], [], []⟩

def also (x y : Deeds V N S) : Deeds V N S :=
  ⟨x.begun ++ y.begun, x.ended ++ y.ended, x.tried ++ y.tried⟩

@[simp] theorem also_none (x : Deeds V N S) : x.also none = x := by
  simp [also, none]

@[simp] theorem none_also (x : Deeds V N S) : none.also x = x := by
  simp [also, none]

end Deeds

/-- The code that a step sets going for `r`: it runs above the frame that captures its ending. -/
def Next.begun (r : CellId) (n : Next V N S) : List (Prog V N S) :=
  match n.doing, n.frames with
  | .run p, .capturing b :: _ => if b = r then [p] else []
  | _, _ => []

def State.begins [Inhabited V] (r : CellId) (s : State V N S) : Move → List (Prog V N S)
  | .step t =>
    match s.threads[t]? with
    | some ⟨_, .starting c task, fs⟩ => (s.startTask t c task fs).begun r
    | _ => []
  | _ => []

def State.endings (r : CellId) (s : State V N S) : Move → List (Ending V)
  | .step t =>
    match s.threads[t]? with
    | some ⟨_, .ended e, .capturing b :: _⟩ => if b = r then [e] else []
    | _ => []
  | _ => []

/-- Nobody is told how the attempt has come out: it is one of the cell's own continuation. -/
def Try.unasked (a : Try V N S) : Bool := a.answer.isNone

section Inhabited
variable [Inhabited V] {s s' : State V N S} {t : ThreadId} {r : CellId} {d : Doing V N S}
  {fs : List (Frame V N S)} {n : Next V N S}

def State.deeds (s : State V N S) (r : CellId) (m : Move) : Deeds V N S :=
  ⟨s.begins r m, s.endings r m, (s.tryOn? (.cell r) m).toList.filter Try.unasked⟩

/-- What a step does for the continuation that decides `r`, by what is to be done for it before and
after the step. -/
inductive Turn (s : State V N S) (t : ThreadId) (r : CellId) (d : Doing V N S)
    (fs : List (Frame V N S)) (n : Next V N S) : List Part → List Part → Deeds V N S → Prop
  /-- Nothing, whatever else it does. -/
  | aside {ps} (idle : d.part? r = none)
      (other : ∀ e frame rest, d = .ended e → fs = frame :: rest → frame.part? r = none) :
      Turn s t r d fs n ps ps .none
  | takes {ps} {c : CellId} {task : Task V N S} (loop : d = .draining c) (result : task.result = r)
      (member : task ∈ s.queueOf c) (starting : n.doing = .starting c task) :
      Turn s t r d fs n ps (.start :: ps) .none
  | begins {ps} {c : CellId} {task : Task V N S} {source : Outcome V} (starting : d = .starting c task)
      (decided : s.outcome? c = some source) (runs : ¬ task.HandsOn source)
      (code : n.begun r = (task.code? source).toList) :
      Turn s t r d fs n (.start :: ps) (.capture :: .finish c :: ps) ⟨(task.code? source).toList, [], []⟩
  | handsOn {ps} {c : CellId} {task : Task V N S} {source : Outcome V} (starting : d = .starting c task)
      (decided : s.outcome? c = some source) (passes : task.HandsOn source)
      (deciding : n.doing = .deciding r source none) :
      Turn s t r d fs n (.start :: ps) (.decide :: .finish c :: ps) .none
  | captures {ps} {e : Ending V} {rest : List (Frame V N S)} (ended : d = .ended e)
      (captured : fs = .capturing r :: rest)
      (deciding : n.doing = .deciding r (e.attempt.outcome s.nextCause) none) :
      Turn s t r d fs n (.capture :: ps) (.decide :: ps) ⟨[], [e], []⟩
  | decides {ps} {o : Outcome V} (deciding : d = .deciding r o none) :
      Turn s t r d fs n (.decide :: ps) ps ⟨[], [], [⟨s, t, o.reading, none⟩]⟩
  | finishes {ps} {e : Ending V} {c : CellId} {rest : List (Frame V N S)} (ended : d = .ended e)
      (finishing : fs = .finishing c r :: rest) : Turn s t r d fs n (.finish c :: ps) ps .none

def Turning (s : State V N S) (t : ThreadId) (r : CellId) (d : Doing V N S)
    (fs : List (Frame V N S)) (n : Next V N S) : Prop :=
  ∃ x, Turn s t r d fs n (partsOf r d fs) (partsOf r n.doing n.frames) x

omit [Inhabited V] in
theorem Doing.Plain.part? (plain : d.Plain) : d.part? r = none := by
  cases d <;> first | rfl | exact plain.elim

omit [Inhabited V] in
theorem filterMap_part_won (k : Option (Bool → Prog V N S)) :
    (won k ++ fs).filterMap (Frame.part? r) = fs.filterMap (Frame.part? r) := by
  cases k <;> rfl

theorem part_lost (k : Option (Bool → Prog V N S)) : (lost k).part? r = none := by
  cases k <;> rfl

omit [Inhabited V] in
theorem Turn.turning {ps ps' : List Part} {x : Deeds V N S} (turn : Turn s t r d fs n ps ps' x)
    (before : partsOf r d fs = ps) (after : partsOf r n.doing n.frames = ps') :
    Turning s t r d fs n := by
  subst before after
  exact ⟨x, turn⟩

omit [Inhabited V] in
theorem turning_of_aside (idle : d.part? r = none)
    (other : ∀ e frame rest, d = .ended e → fs = frame :: rest → frame.part? r = none)
    (unstarted : n.doing.part? r = none)
    (parts : n.frames.filterMap (Frame.part? r) = fs.filterMap (Frame.part? r)) :
    Turning s t r d fs n := by
  have same : partsOf r n.doing n.frames = partsOf r d fs := by
    rw [partsOf, partsOf, idle, unstarted, parts]
  rw [Turning, same]
  exact ⟨_, .aside idle other⟩

omit [Inhabited V] in
theorem turning_of_receive {e : Ending V} {frame : Frame V N S} (other : frame.part? r = none)
    (unstarted : n.doing.part? r = none)
    (parts : n.frames.filterMap (Frame.part? r) = fs.filterMap (Frame.part? r)) :
    Turning s t r (.ended e) (frame :: fs) n := by
  refine turning_of_aside rfl ?_ unstarted ?_
  · intro e frame' rest ended here
    cases here
    exact other
  · rw [List.filterMap_cons_none other, parts]

omit [Inhabited V] in
/-- What begins a continuation of a decided cell. -/
theorem turning_of_startTask (c : CellId) (task : Task V N S) (result : task.result = r)
    {source : Outcome V} (decided : s.outcome? c = some source) :
    Turning s t r (.starting c task) fs (s.startTask t c task fs) := by
  have before : partsOf r (.starting c task) fs = .start :: fs.filterMap (Frame.part? r) := by
    simp [partsOf, Doing.part?, result]
  have runs (p : Prog V N S) : partsOf r (.run p) (.capturing r :: .finishing c r :: fs) =
      .capture :: .finish c :: fs.filterMap (Frame.part? r) := by
    simp [partsOf, Doing.part?, Frame.part?]
  have relays (e : ExternalId) : partsOf r (.relaying c e : Doing V N S)
      (.capturing r :: .finishing c r :: fs) =
      .capture :: .finish c :: fs.filterMap (Frame.part? r) := by
    simp [partsOf, Doing.part?, Frame.part?]
  have passes (o : Outcome V) : partsOf r (.deciding r o none) (.finishing c r :: fs) =
      .decide :: .finish c :: fs.filterMap (Frame.part? r) := by
    simp [partsOf, Doing.part?, Frame.part?]
  cases task with
  | chain b body =>
    obtain rfl : b = r := result
    exact Turn.turning (.begins rfl decided id (if_pos rfl)) before (runs body)
  | relay b e =>
    obtain rfl : b = r := result
    exact Turn.turning (.begins rfl decided id rfl) before (relays e)
  | transform b f =>
    obtain rfl : b = r := result
    simp only [State.startTask, decided, Option.map_some]
    cases source with
    | value v =>
      exact Turn.turning (.begins rfl decided (fun none => none v rfl) (if_pos rfl)) before (runs (f v))
    | failed cause =>
      exact Turn.turning (.handsOn rfl decided (fun v => by simp) rfl) before (passes _)
    | cancelled =>
      exact Turn.turning (.handsOn rfl decided (fun v => by simp) rfl) before (passes _)

omit [Inhabited V] in
theorem turning_of_deciding {b : CellId} {o : Outcome V} {k : Option (Bool → Prog V N S)}
    (unstarted : n.doing.part? r = none)
    (parts : n.frames.filterMap (Frame.part? r) = fs.filterMap (Frame.part? r)) :
    Turning s t r (.deciding b o k) fs n := by
  have aside (idle : (Doing.deciding b o k : Doing V N S).part? r = none) :
      Turning s t r (.deciding b o k) fs n :=
    turning_of_aside idle (fun e _ _ ended => by cases ended) unstarted parts
  cases k with
  | some k => exact aside rfl
  | none =>
    by_cases same : b = r
    · subst same
      refine Turn.turning (.decides rfl) (by simp [partsOf, Doing.part?]; rfl) ?_
      rw [partsOf, unstarted, parts]
      rfl
    · exact aside (if_neg same)

theorem turning_of_next (moved : s.next t d fs = some n) (sound : Thread.Sound s d fs)
    (known : r < s.cells.size) : Turning s t r d fs n := by
  have quiet (idle : d.part? r = none)
      (running : ∀ e, d ≠ .ended e) (idle' : n.doing.part? r = none)
      (same : n.frames.filterMap (Frame.part? r) = fs.filterMap (Frame.part? r)) :
      Turning s t r d fs n :=
    turning_of_aside idle (fun e _ _ ended _ => absurd ended (running e)) idle' same
  have starts {c : CellId} (task : Task V N S) (starting : d = .starting c task)
      (unstarted : task.result ≠ r → n.doing.part? r = none ∧
        n.frames.filterMap (Frame.part? r) = fs.filterMap (Frame.part? r)) : Turning s t r d fs n := by
    subst starting
    by_cases same : task.result = r
    · obtain ⟨source, decided⟩ := Option.ne_none_iff_exists'.mp sound.top.1
      exact Option.some.inj moved ▸ turning_of_startTask c task same decided
    · exact quiet (if_neg same) (fun e ended => by cases ended) (unstarted same).1 (unstarted same).2
  cases transition_of_next moved with
  | @plain d d' _ s' was is still =>
    refine quiet was.part? (fun e ended => by rw [ended] at was; exact was.elim) ?_ rfl
    rcases is with plain | ⟨e, rfl⟩
    · exact plain.part?
    · rfl
  | @inlines p p' _ s₀ c cell task _ _ _ new =>
    refine quiet rfl (fun e ended => by cases ended) (if_neg ?_) rfl
    rw [new]
    exact Ne.symm (Nat.ne_of_lt known)
  | @loses c o k _ s' _ _ => exact turning_of_deciding (part_lost k) rfl
  | @wins c o k _ cell _ _ => exact turning_of_deciding rfl (filterMap_part_won k)
  | @takes c _ cell task rest held queue =>
    by_cases same : task.result = r
    · refine Turn.turning (.takes rfl same ?_ rfl) rfl (by rw [partsOf, Doing.part?, if_pos same]; rfl)
      rw [State.queueOf_of_found held, queue]
      exact List.mem_cons_self ..
    · exact quiet rfl (fun e ended => by cases ended) (if_neg same) rfl
  | @begins c task p _ code =>
    exact starts task rfl fun other => ⟨rfl, by simp [Frame.part?, other]⟩
  | @beginsRelay c b e _ =>
    exact starts (.relay b e) rfl fun other => ⟨rfl, by simp [Frame.part?, show b ≠ r from other]⟩
  | @handsOn c b f _ o =>
    exact starts (.transform b f) rfl fun other =>
      ⟨if_neg other, by simp [Frame.part?, show b ≠ r from other]⟩
  | gapes undecided => exact absurd undecided sound.top.1
  | @refuses _ _ k _ _ _ _ =>
    exact quiet rfl (fun e ended => by cases ended) (part_lost k) rfl
  | @settles e reading k _ x _ _ =>
    exact quiet rfl (fun e ended => by cases ended) rfl (filterMap_part_won k)
  | @captures e b rest =>
    by_cases same : b = r
    · subst same
      exact Turn.turning (.captures rfl rfl rfl) (by simp [partsOf, Doing.part?, Frame.part?]; rfl)
        (by simp [partsOf, Doing.part?])
    · exact turning_of_receive (if_neg same) (if_neg same) rfl
  | @finishes e c b rest calm =>
    by_cases same : b = r
    · subst same
      exact Turn.turning (.finishes rfl rfl) (by simp [partsOf, Doing.part?, Frame.part?]) rfl
    · exact turning_of_receive (if_neg same) rfl rfl
  | @unwinds payload frame rest passes =>
    cases frame with
    | capturing b => exact passes.elim
    | finishing c b => exact (calm_of_rests sound.top (Or.inl ⟨c, b, rfl⟩)).elim
    | _ => exact turning_of_receive rfl rfl rfl
  | catches => exact turning_of_receive rfl rfl rfl
  | resumes _ => exact turning_of_receive rfl rfl rfl
  | loops _ => exact turning_of_receive rfl rfl rfl
  | rests _ => exact turning_of_receive rfl rfl rfl
  | wakes _ => exact turning_of_receive rfl rfl rfl
  | _ => exact quiet rfl (fun e ended => by cases ended) rfl rfl

omit [Inhabited V] in
/-- Code is set going only for the continuation that starts. -/
theorem begun_of_other {c : CellId} {task : Task V N S} (other : task.result ≠ r) :
    (s.startTask t c task fs).begun r = [] := by
  cases task with
  | chain b body => exact if_neg other
  | relay b e => rfl
  | transform b f =>
    simp only [State.startTask]
    split
    next => rfl
    next => exact if_neg other
    next => rfl

theorem deeds_of_turn {name : Option String} (found : s.threads[t]? = some ⟨name, d, fs⟩)
    (moved : s.next t d fs = some n) {ps ps' : List Part} {x : Deeds V N S}
    (turn : Turn s t r d fs n ps ps' x) : s.deeds r (.step t) = x := by
  have silent (idle : d.part? r = none)
      (uncaptured : ∀ e rest, d = .ended e → fs ≠ .capturing r :: rest) :
      s.deeds r (.step t) = .none := by
    unfold State.deeds Deeds.none
    simp only [State.begins, State.endings, State.tryOn?, found]
    cases d with
    | starting c task =>
      have other : task.result ≠ r := fun same => by simp [Doing.part?, same] at idle
      simp [begun_of_other other, Doing.attempt?]
    | ended e =>
      cases fs with
      | nil => rfl
      | cons frame rest =>
        cases frame with
        | capturing b =>
          have other : b ≠ r := fun same => uncaptured e rest rfl (by rw [same])
          simp [other, Doing.attempt?]
        | _ => rfl
    | deciding b o k =>
      cases k with
      | none =>
        have other : b ≠ r := fun same => by simp [Doing.part?, same] at idle
        simp [Doing.attempt?, other]
      | some k =>
        by_cases same : b = r <;> simp [Doing.attempt?, same, Try.unasked]
    | _ => rfl
  cases turn with
  | aside idle other =>
    refine silent idle fun e rest ended captured => ?_
    have none := other e _ rest ended captured
    simp [Frame.part?] at none
  | takes loop _ _ _ =>
    subst loop
    exact silent rfl fun e rest ended => by cases ended
  | begins starting _ _ code =>
    subst starting
    cases moved
    simp [State.deeds, State.begins, State.endings, State.tryOn?, found, Doing.attempt?, code]
  | handsOn starting _ _ deciding =>
    subst starting
    cases moved
    simp [State.deeds, State.begins, State.endings, State.tryOn?, found, Doing.attempt?, Next.begun,
      deciding, Deeds.none]
  | captures ended captured _ =>
    subst ended captured
    simp [State.deeds, State.begins, State.endings, State.tryOn?, found, Doing.attempt?]
  | decides deciding =>
    subst deciding
    simp [State.deeds, State.begins, State.endings, State.tryOn?, found, Doing.attempt?, Try.unasked]
  | finishes ended finishing =>
    subst ended finishing
    exact silent rfl fun e rest _ captured => by cases captured

/-! ## All threads -/

omit [Inhabited V] in
theorem parts_of_found {thread : Thread V N S} (found : s.threads[t]? = some thread) :
    s.parts r t = partsOf r thread.doing thread.frames := by
  simp [State.parts, found]

theorem parts_of_step {thread : Thread V N S} (found : s.threads[t]? = some thread)
    (transition : Transition s t thread.doing thread.frames n) :
    (n.state.setThread t ⟨thread.name, n.doing, n.frames⟩).parts r =
      update (s.parts r) t (partsOf r n.doing n.frames) := by
  funext u
  by_cases own : u = t
  · subst own
    rw [Function.update_self, parts_of_found (thread_after transition found)]
  · rw [Function.update_of_ne own, State.parts, State.getElem?_setThread, if_neg (Ne.symm own),
      State.parts]
    rcases threads_of_transition transition with same | ⟨name, body, pushed⟩
    · rw [same]
    · rw [pushed, Array.getElem?_push]
      by_cases last : u = s.threads.size
      · simp [last, partsOf, Doing.part?]
      · rw [if_neg last]

/-- Without a step, a thread does no more than leave a timed wait. -/
theorem thread_of_lull {m : Move} (moved : s.move m = some s') (lull : ∀ t, m ≠ .step t)
    (u : ThreadId) : s'.threads[u]? = s.threads[u]? ∨
      ∃ name w c limit k fs, s.threads[u]? = some ⟨name, .asleep w, fs⟩ ∧
        s'.threads[u]? = some ⟨name, .expired c limit k, fs⟩ := by
  cases m with
  | step t => exact absurd rfl (lull t)
  | pass nanos =>
    cases moved
    exact Or.inl rfl
  | expire t =>
    obtain ⟨name, c, limit, deadline, k, fs, found, -, -, rfl⟩ := asleep_of_expire moved
    rw [State.getElem?_setThread]
    by_cases same : t = u
    · subst same
      have kept : t < (s.modifyCell c (·.rouse t)).threads.size :=
        (Array.getElem?_eq_some_iff.mp found).1
      rw [if_pos rfl, if_pos kept]
      exact Or.inr ⟨name, _, c, limit, k, fs, found, rfl⟩
    · rw [if_neg same]
      exact Or.inl rfl
  | stir t =>
    obtain ⟨_, w, _, -, rfl⟩ := asleep_of_stir moved
    exact Or.inl rfl

theorem parts_of_lull {m : Move} (moved : s.move m = some s') (lull : ∀ t, m ≠ .step t) :
    s'.parts r = s.parts r := by
  funext u
  rw [State.parts, State.parts]
  rcases thread_of_lull moved lull u with same | ⟨name, w, c, limit, k, fs, before, after⟩
  · rw [same]
  · rw [before, after]
    rfl

/-! ## Cells without a promise -/

theorem promised_of_transition (transition : Transition s t d fs n) {c : CellId} {cell : Cell V N S}
    (found : s.cells[c]? = some cell) :
    ∃ cell', n.state.cells[c]? = some cell' ∧ cell'.promised = cell.promised := by
  have stays {s' : State V N S} (still : Still s s') :
      ∃ cell', s'.cells[c]? = some cell' ∧ cell'.promised = cell.promised := by
    have core := still.core c
    rw [found] at core
    obtain ⟨cell', found', same⟩ := Option.map_eq_some_iff.mp core
    exact ⟨cell', found', congrArg (·.promised) same⟩
  have replaced {s₀ : State V N S} {b : CellId} {old : Cell V N S} (f : Cell V N S → Cell V N S)
      (found : s₀.cells[c]? = some cell) (held : s₀.cells[b]? = some old)
      (kept : (f old).promised = old.promised) :
      ∃ cell', (s₀.modifyCell b f).cells[c]? = some cell' ∧ cell'.promised = cell.promised := by
    rw [State.getElem?_replaceCell held]
    split
    next same =>
      subst same
      cases found.symm.trans held
      exact ⟨_, rfl, kept⟩
    next => exact ⟨cell, found, rfl⟩
  cases transition with
  | plain _ _ still => exact stays still
  | creates _ => exact ⟨cell, Opens.found_addCell (.atOnce (t := t)) _ found, rfl⟩
  | strays opens => exact ⟨cell, opens.found_addCell _ found, rfl⟩
  | @queues _ _ _ _ _ _ task opens held _ _ =>
    exact replaced (·.enqueue task) (opens.found_addCell _ found) (opens.found_addCell _ held) rfl
  | inlines opens _ _ _ => exact ⟨cell, opens.found_addCell _ found, rfl⟩
  | loses still _ => exact stays still
  | @wins _ o _ _ _ held _ => exact replaced (·.decide o) found held rfl
  | @announces b _ _ _ =>
    have still : Still s (s.modifyCell b Cell.notifyAll) := still_of_waiting s b _ fun _ => rfl
    obtain ⟨cell', found', same⟩ := stays still
    exact ⟨cell', found', same⟩
  | @takes _ _ old _ rest held _ => exact replaced (fun _ => { old with queue := rest }) found held rfl
  | empties held _ => exact replaced _ found held rfl
  | refuses still _ => exact stays still
  | captures => exact ⟨cell, by rw [← found]; exact congrArg (·[c]?) (State.cells_logEnding ..), rfl⟩
  | _ => exact ⟨cell, found, rfl⟩

theorem promised_of_advance (advance : Advance s s') {c : CellId} {cell : Cell V N S}
    (found : s.cells[c]? = some cell) :
    ∃ cell', s'.cells[c]? = some cell' ∧ cell'.promised = cell.promised := by
  cases advance with
  | aside still _ =>
    have core := still.core c
    rw [found] at core
    obtain ⟨cell', found', same⟩ := Option.map_eq_some_iff.mp core
    exact ⟨cell', found', congrArg (·.promised) same⟩
  | thread _ transition => exact promised_of_transition transition found

def State.Derives (s : State V N S) (r : CellId) : Prop :=
  ∃ cell, s.cells[r]? = some cell ∧ cell.promised = false

theorem derives_of_reaches (reached : Reaches s s') (derives : s.Derives r) : s'.Derives r := by
  refine reached.induct (P := fun s => s.Derives r) derives ?_
  rintro s m s' ⟨cell, found, derived⟩ moved
  obtain ⟨cell', found', same⟩ := promised_of_advance (advance_of_move moved) found
  exact ⟨cell', found', same.trans derived⟩

/-- Whoever is told of a decision asks for no more than he may. -/
def State.Licensed (s : State V N S) : Prop :=
  ∀ (t : ThreadId) name c o k fs, s.threads[t]? = some ⟨name, .deciding c o (some k), fs⟩ →
    ∃ cell, s.cells[c]? = some cell ∧ (cell.promised = true ∨ o = .cancelled)

omit [Inhabited V] in
theorem licensed_of_admits {c : CellId} {a : Attempt V} (admitted : s.admits c a = true)
    (id : CauseId) : ∃ cell, s.cells[c]? = some cell ∧
      (cell.promised = true ∨ a.outcome id = .cancelled) := by
  unfold State.admits at admitted
  split at admitted
  next => cases admitted
  next cell found =>
    refine ⟨cell, found, ?_⟩
    rcases Bool.or_eq_true_iff.mp admitted with promised | free
    · exact Or.inl promised
    · cases a with
      | cancel => exact Or.inr rfl
      | _ => cases free

theorem licensed_of_move {m : Move} (moved : s.move m = some s') (licensed : s.Licensed) :
    s'.Licensed := by
  intro t name c o k fs found
  have keeps (old : s.threads[t]? = some ⟨name, .deciding c o (some k), fs⟩) :
      ∃ cell, s'.cells[c]? = some cell ∧ (cell.promised = true ∨ o = .cancelled) := by
    obtain ⟨cell, held, may⟩ := licensed t name c o k fs old
    obtain ⟨cell', held', same⟩ := promised_of_advance (advance_of_move moved) held
    exact ⟨cell', held', by rwa [same]⟩
  by_cases own : m = .step t
  · subst own
    obtain ⟨⟨name', d, fs'⟩, n, found', next, rfl⟩ := next_of_step moved
    rw [thread_after (transition_of_next next) found'] at found
    obtain ⟨-, doing, -⟩ : name' = name ∧ n.doing = .deciding c o (some k) ∧ n.frames = fs := by
      simpa using found
    have attempt : n.doing.attempt? = some (.cell c, o.reading, some k) := by rw [doing]; rfl
    cases transition_of_next next with
    | @asks p b o' k' _ inside =>
      cases doing
      rcases attempt_of_perform next with none | ⟨x, a, k', call, allowed, state, attempt'⟩
      · cases none
      · obtain ⟨rfl, same⟩ : x = .cell c ∧ (a.outcome s.nextCause).reading = o.reading := by
          have both := attempt'.symm.trans attempt
          simp only [Option.some.injEq, Prod.mk.injEq] at both
          exact ⟨both.1, both.2.1⟩
        obtain ⟨cell, held, may⟩ := licensed_of_admits (s := s) allowed s.nextCause
        rw [Outcome.reading_injective same] at may
        exact ⟨cell, held, may⟩
    | plain _ is _ =>
      rcases is with plain | ⟨e, ended⟩
      · simp only at doing
        rw [doing] at plain
        exact plain.elim
      · cases doing.symm.trans ended
    | @loses _ _ k => cases k <;> cases doing
    | @refuses _ _ k => cases k <;> cases doing
    | _ => cases doing
  · exact keeps (attempt_before moved own found (by simp [Doing.attempt?]))

theorem licensed_of_reachable (reachable : Reachable s) : s.Licensed := by
  obtain ⟨client, p, reached⟩ := reachable
  refine reached.induct (P := State.Licensed) ?_ fun s m s' licensed moved =>
    licensed_of_move moved licensed
  intro t name c o k fs found
  cases thread_of_start found

theorem cancels_of_derived (reachable : Reachable s) (derives : s.Derives r) {name : Option String}
    {o : Outcome V} {k : Bool → Prog V N S}
    (found : s.threads[t]? = some ⟨name, .deciding r o (some k), fs⟩) : o = .cancelled := by
  obtain ⟨cell, held, may⟩ := licensed_of_reachable reachable t name r o k fs found
  obtain ⟨cell', held', derived⟩ := derives
  cases held.symm.trans held'
  exact may.resolve_left (by rw [derived]; simp)

end Inhabited
end Oneshot
