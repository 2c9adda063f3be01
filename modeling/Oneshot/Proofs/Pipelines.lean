import Oneshot.Promise
import Oneshot.Proofs.Bodies
import Oneshot.Proofs.Folds

/-! # Pipelines

Each stage of a pipeline is registered at the future of the stage before it, at whatever moment of a
run.  However the registrations and the decision of the first future fall, the last future holds what
the stages make of the first outcome (`pipeline_folds`). -/
set_option autoImplicit false
namespace Oneshot
variable {V N S : Type}

def Link.ending (link : Link V) (v : V) : Ending V :=
  match link.g v with
  | .ok w => .value w
  | .error payload => .panicked payload

section Inhabited
variable [Inhabited V] {s s' : State V N S} {t : ThreadId} {c r z : CellId} {source o : Outcome V}

/-- A stage with the code of its function. -/
structure Segment (V N S : Type) [Inhabited V] extends Link V where
  code : V → Prog V N S
  computes : ∀ v, (code v).Computes (toLink.ending v)

namespace Segment

/-- Reads its view of the source; without a value, the error is its own failure. -/
def body (stage : Segment V N S) (d : Future) : Prog V N S :=
  d.get fun
    | .ok v => stage.code v
    | .error e => .err (.unread e)

def call (stage : Segment V N S) (f : Future) : Act V N S Future :=
  match stage.manner with
  | .map => f.map stage.code
  | .andThen => f.andThen stage.body

def task (stage : Segment V N S) (c r : CellId) : Task V N S :=
  match stage.manner with
  | .map => .transform r stage.code
  | .andThen => .chain r (stage.body ⟨c⟩)

theorem result_task (stage : Segment V N S) (c r : CellId) : (stage.task c r).result = r := by
  unfold task
  cases stage.manner <;> rfl

theorem task?_call (stage : Segment V N S) (c : CellId) (k : Future → Prog V N S) (s : State V N S) :
    (stage.call ⟨c⟩ k).task? s = some (c, stage.task c s.cells.size) := by
  unfold call task
  cases stage.manner <;> rfl

theorem derives?_call (stage : Segment V N S) (c : CellId) (k : Future → Prog V N S) (s : State V N S) :
    (stage.call ⟨c⟩ k).derives? s = some (c, .cell s.cells.size) := by
  unfold call
  cases stage.manner <;> rfl

end Segment

/-- In the run `ms` from `s` the stage is registered at `c`, and its future is `r`; nobody is ahead of
the stage with the decision of `r`. -/
inductive Registers (s : State V N S) (ms : List Move) (stage : Segment V N S) (c r : CellId) : Prop
  | at {before rest : List Move} {s₁ : State V N S} {t : ThreadId} {name k fs}
      (split : ms = before ++ .step t :: rest) (ran : s.run before = some s₁)
      (found : s₁.threads[t]? = some ⟨name, .run (stage.call ⟨c⟩ k), fs⟩) (inside : c < s₁.cells.size)
      (new : r = s₁.cells.size)
      (first : ∀ a ∈ (s₁.tries (.cell r) (.step t :: rest)).head?, a.answer = none)

/-- In the run `ms` from `s` the stages are registered one at the other, from `c` to `z`. -/
inductive Piped (s : State V N S) (ms : List Move) : CellId → List (Segment V N S) → CellId → Prop
  | nil (c : CellId) : Piped s ms c [] c
  | cons {c r z stage stages} (registers : Registers s ms stage c r) (rest : Piped s ms r stages z) :
      Piped s ms c (stage :: stages) z

omit [Inhabited V] in
theorem after_of_yields {link : Link V} {v : V} (yields : (link.ending v).Yields o) :
    ∃ id, o = link.after id (.value v) := by
  unfold Link.ending at yields
  cases ends : link.g v with
  | ok w =>
    rw [ends] at yields
    cases yields
    exact ⟨0, by simp [Link.after, ends]⟩
  | error payload =>
    rw [ends] at yields
    cases yields with
    | text id text => exact ⟨id, by simp [Link.after, ends, Payload.message]⟩
    | other id => exact ⟨id, by simp [Link.after, ends, Payload.message]⟩

/-- What the body of a stage ends in is what the stage makes of the outcome that it reads. -/
theorem after_of_body {stage : Segment V N S} {e : Ending V} (manner : stage.manner = .andThen)
    (run : HasRun c r (stage.body ⟨c⟩) s e) (held : s.outcome? c = some source) (yields : e.Yields o) :
    ∃ id, o = stage.after id source := by
  obtain ⟨s₀, past, decided, reached, ends⟩ := run.endsIn
  have then' := (extends_of_reaches reached).outcomes c decided
  obtain ⟨s₁, reachable, ends⟩ := endsIn_get past (then'.symm.trans held) ends
  cases source with
  | value v =>
    rw [stage.computes v s₁ e reachable ends] at yields
    exact after_of_yields yields
  | failed cause =>
    rw [computes_err _ s₁ e reachable ends] at yields
    cases yields with
    | failed id => exact ⟨id, by simp [Link.after, manner]⟩
  | cancelled =>
    rw [computes_err _ s₁ e reachable ends] at yields
    cases yields with
    | failed id => exact ⟨id, by simp [Link.after, manner]⟩

theorem after_of_comesTo {stage : Segment V N S} {begun : List (Prog V N S)} {ended : List (Ending V)}
    (held : s.outcome? c = some source) (comes : (stage.task c r).ComesTo source begun ended o)
    (runs : ∀ p ∈ begun, ∀ e ∈ ended, HasRun c r p s e) : ∃ id, o = stage.after id source := by
  cases manner : stage.manner with
  | map =>
    rw [Segment.task, manner] at comes
    cases comes with
    | @applied _ _ v e _ value yields =>
      subst value
      have run := runs _ (List.mem_singleton_self _) e (List.mem_singleton_self _)
      obtain ⟨s₀, past, -, -, ends⟩ := run.endsIn
      rw [stage.computes v _ e past ends] at yields
      exact after_of_yields yields
    | passed none =>
      refine ⟨0, ?_⟩
      cases source with
      | value v => exact absurd rfl (none v)
      | failed cause => simp [Link.after, manner]
      | cancelled => simp [Link.after, manner]
  | andThen =>
    rw [Segment.task, manner] at comes
    cases comes with
    | @chain _ _ e _ yields =>
      exact after_of_body manner (runs _ (List.mem_singleton_self _) e (List.mem_singleton_self _)) held
        yields

theorem after_of_registers (reachable : Reachable s) {ms : List Move} (ran : s.run ms = some s')
    {stage : Segment V N S} (registers : Registers s ms stage c r) :
    (∀ o, s'.outcome? r = some o →
        ∃ source id, s'.outcome? c = some source ∧ o = stage.after id source) ∧
      (s'.Quiet → s'.outcome? c ≠ none → s'.outcome? r ≠ none) := by
  obtain @⟨early, rest, s₁, t, name, k, fs, split, before, found, inside, new, first⟩ := registers
  subst split
  rw [State.run_append, before, Option.bind_some] at ran
  obtain ⟨s₂, moved, onwards⟩ := Option.bind_eq_some_iff.mp ran
  have past : Reachable s₁ := reachable_of_reaches reachable ⟨_, before⟩
  have result : (stage.task c s₁.cells.size).result = r := (stage.result_task c _).trans new.symm
  have registered := registered_of_task? past found (stage.task?_call c k s₁) inside moved
  refine ⟨fun o decided => ?_, fun quiet decided undecided => ?_⟩
  · rw [tries_of_call found moved, ← result] at first
    obtain ⟨source, begun, ended, held, comes, runs⟩ := comes_of_decided
      (reachable_of_reaches past (.of_move moved)) registered onwards first (result ▸ decided)
    rw [stage.result_task] at runs
    obtain ⟨id, same⟩ := after_of_comesTo held comes runs
    exact ⟨source, id, held, same⟩
  · have derived : Derived s' c (.cell r) :=
      ⟨s₁, t, name, _, fs, s₂, past, found, new ▸ stage.derives?_call c k s₁, inside, moved, _, onwards⟩
    have landed := holds_of_derived (reachable_of_reaches past ⟨_, ran⟩) quiet derived decided
    rw [State.holds?, undecided] at landed
    exact landed rfl

/-- What a pipeline of stages from `c` to `z` has made of the outcome of `c` by `s`. -/
structure Carries (s : State V N S) (c : CellId) (links : List (Link V)) (z : CellId) : Prop where
  folds : ∀ o, s.outcome? z = some o → ∃ source steps, s.outcome? c = some source ∧
    steps.map Prod.fst = links ∧ o = Link.fold steps source ∧ Folded links source o
  /-- Nothing is left on the way. -/
  arrives : s.Quiet → s.outcome? c ≠ none → s.outcome? z ≠ none

theorem pipeline_folds (reachable : Reachable s) {ms : List Move} (ran : s.run ms = some s')
    {stages : List (Segment V N S)} (piped : Piped s ms c stages z) :
    Carries s' c (stages.map Segment.toLink) z := by
  induction piped with
  | nil c => exact ⟨fun o held => ⟨o, [], held, rfl, rfl, folded_of_steps [] o⟩, fun _ => id⟩
  | @cons c r z stage stages registers _ ih =>
    obtain ⟨applied, lands⟩ := after_of_registers reachable ran registers
    refine ⟨fun o held => ?_, fun quiet decided => ih.arrives quiet (lands quiet decided)⟩
    obtain ⟨middle, steps, reached, links, same, -⟩ := ih.folds o held
    obtain ⟨source, id, start, rfl⟩ := applied middle reached
    have all : ((stage.toLink, id) :: steps).map Prod.fst = (stage :: stages).map Segment.toLink := by
      rw [List.map_cons, List.map_cons, links]
    exact ⟨source, (stage.toLink, id) :: steps, start, all, same, all ▸ same ▸ folded_of_steps _ source⟩

def addOne : Segment Nat Nat Unit where
  manner := .map
  g v := .ok (v + 1)
  code v := .note v (.ret (v + 1))
  computes v := computes_note v (computes_ret (v + 1))

def breakOff : Segment Nat Nat Unit where
  manner := .andThen
  g _ := .error (.text "broken off")
  code _ := .panic (.text "broken off")
  computes _ := computes_panic _

def repeated : Segment Nat Nat Unit where
  manner := .andThen
  g v := .ok v
  code v := .ret v
  computes v := computes_ret v

/-- Four stages; the source is decided when the first two are registered. -/
def interruptedPipeline : Prog Nat Nat Unit :=
  .newCell none fun c =>
    addOne.call ⟨c⟩ fun first => breakOff.call first fun second => .decide c (.complete 1) fun _ =>
      addOne.call second fun third => repeated.call third fun _ => .ret 0

/-- The panic of the second stage goes through the third as it is, and the fourth wraps it. -/
theorem pipeline_folds_interrupted : ∃ (s s' : State Nat Nat Unit) (ms : List Move),
    Reachable s ∧ s.run ms = some s' ∧ Piped s ms 0 [addOne, breakOff, addOne, repeated] 4 ∧
      Carries s' 0 [addOne.toLink, breakOff.toLink, addOne.toLink, repeated.toLink] 4 ∧
      s'.outcome? 0 = some (.value 1) ∧
      ∃ i j, s'.outcome? 4 =
        some (.failed (.mk j (.unread (.failed (.mk i (.panicked "broken off")))))) := by
  let all := List.replicate 48 (Move.step 0)
  have unasked {l : List (Try Nat Nat Unit)} (first : l.head?.map Try.answer = some none) :
      ∀ a ∈ l.head?, a.answer = none := by
    intro a here
    rw [Option.mem_def.mp here] at first
    exact Option.some.inj first
  have reachable : Reachable (State.start () interruptedPipeline) := ⟨(), _, .refl _⟩
  obtain ⟨s', ran, source, last⟩ : ∃ s', (State.start () interruptedPipeline).run all = some s' ∧
      s'.outcome? 0 = some (.value 1) ∧ ∃ i j, s'.outcome? 4 =
        some (.failed (.mk j (.unread (.failed (.mk i (.panicked "broken off")))))) :=
    ⟨_, rfl, rfl, _, _, rfl⟩
  have piped : Piped (State.start () interruptedPipeline) all 0
      [addOne, breakOff, addOne, repeated] 4 := by
    have cut (n : Nat) (early : n < 48) :
        all = List.replicate n (.step 0) ++ .step 0 :: List.replicate (47 - n) (.step 0) := by
      have total : n + (47 - n + 1) = 48 := by omega
      rw [← List.replicate_succ, ← List.replicate_add, total]
    refine .cons (r := 1) (.at (cut 1 (by decide)) rfl rfl (by decide) rfl (unasked rfl)) ?_
    refine .cons (r := 2) (.at (cut 2 (by decide)) rfl rfl (by decide) rfl (unasked rfl)) ?_
    refine .cons (r := 3) (.at (cut 29 (by decide)) rfl rfl (by decide) rfl (unasked rfl)) ?_
    exact .cons (r := 4) (.at (cut 36 (by decide)) rfl rfl (by decide) rfl (unasked rfl)) (.nil 4)
  exact ⟨_, s', all, reachable, ran, piped, pipeline_folds reachable ran piped, source, last⟩

end Inhabited
end Oneshot
