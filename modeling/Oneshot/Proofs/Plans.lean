import Mathlib.Data.List.Nodup
import Mathlib.Logic.Function.Basic
import Oneshot.Proofs.Traversal

/-! # Registrations and the trees they build

A plan registers one continuation after the other, each on a first cell or on the future of an earlier
registration.  What it builds depends only on the order of the registrations on each single cell
(`under_of_agree`), and the call that decides the first cell processes it in preorder
(`plan_traversed`). -/
set_option autoImplicit false
namespace Oneshot
open Function (update)
variable {V N S : Type}

/-- A continuation on the cell named `source`, whose future gets the name `result`. -/
structure Registration (V N : Type) where
  source : Nat
  result : Nat
  stage : Stage V N

namespace Registration

/-- Each registration is on a known future and gives its own a new name. -/
def Grows : List Nat → List (Registration V N) → Prop
  | _, [] => True
  | known, r :: rest => r.source ∈ known ∧ r.result ∉ known ∧ Grows (r.result :: known) rest

def on (x : Nat) (plan : List (Registration V N)) : List (Registration V N) :=
  plan.filter fun r => r.source = x

/-- The forest that the plan builds on `x`. -/
def under (x : Nat) : List (Registration V N) → Forest V N
  | [] => .nil
  | r :: rest =>
    if r.source = x then .node r.result r.stage (under r.result rest) (under x rest) else under x rest

/-- Code that registers as planned and goes on with what the names stand for. -/
def code (k : (Nat → CellId) → Prog V N S) (env : Nat → CellId) :
    List (Registration V N) → Prog V N S
  | [] => k env
  | r :: rest =>
    match r.stage with
    | .chain body =>
      .chain (env r.source) (body.code (env r.source)) fun c => code k (update env r.result c) rest
    | .transform f =>
      .transform (env r.source) (fun v => (f v).code (env r.source)) fun c =>
        code k (update env r.result c) rest

def task (env : Nat → CellId) (r : Registration V N) : Task V N S :=
  r.stage.task (env r.source) (env r.result)

def names (plan : List (Registration V N)) : List Nat := plan.map result

theorem on_cons_of_ne {x : Nat} {r : Registration V N} (other : r.source ≠ x)
    (rest : List (Registration V N)) : on x (r :: rest) = on x rest := by
  simp [on, other]

theorem on_cons_self (r : Registration V N) (rest : List (Registration V N)) :
    on r.source (r :: rest) = r :: on r.source rest := by
  simp [on]

theorem Grows.new {known : List Nat} {plan : List (Registration V N)} (grows : Grows known plan) :
    ∀ x ∈ names plan, x ∉ known := by
  induction plan generalizing known with
  | nil => intro x member; cases member
  | cons r rest ih =>
    obtain ⟨-, new, grows⟩ := grows
    intro x member
    rcases List.mem_cons.mp member with rfl | later
    · exact new
    · exact fun here => ih grows x later (List.mem_cons_of_mem _ here)

/-- Nothing is registered on a future before it is there. -/
theorem Grows.on_later {known : List Nat} {r : Registration V N} {rest : List (Registration V N)}
    (grows : Grows known (r :: rest)) {x : Nat} (named : x ∈ names (r :: rest)) :
    on x (r :: rest) = on x rest := by
  refine on_cons_of_ne (fun same => grows.new x named ?_) rest
  have known : r.source ∈ known := grows.1
  exact same ▸ known

theorem Grows.nodup {known : List Nat} {plan : List (Registration V N)} (grows : Grows known plan) :
    (names plan).Nodup := by
  induction plan generalizing known with
  | nil => exact List.nodup_nil
  | cons r rest ih =>
    obtain ⟨-, -, grows⟩ := grows
    exact List.nodup_cons.mpr ⟨fun later => grows.new _ later List.mem_cons_self, ih grows⟩

theorem tasks_under (env : Nat → CellId) (x : Nat) (plan : List (Registration V N)) :
    ((under x plan).tasks env (env x) : List (Task V N S)) = (on x plan).map (task env) := by
  induction plan with
  | nil => rfl
  | cons r rest ih =>
    by_cases here : r.source = x
    · subst here
      simp only [under, if_true, Forest.tasks, on_cons_self, List.map_cons, ih]
      rfl
    · rw [under, if_neg here, on_cons_of_ne here, ih]

/-- The plan is carried out in `s`: all cells are undecided, with its registrations in their queues. -/
structure Built (s : State V N S) (env : Nat → CellId) (root : Nat) (plan : List (Registration V N)) :
    Prop where
  distinct : ((root :: names plan).map env).Nodup
  pends : ∀ x ∈ root :: names plan, s.Pends (env x) ((on x plan).map (task env))

theorem planted_under {s : State V N S} {env : Nat → CellId} {known : List Nat}
    {plan : List (Registration V N)} (grows : Grows known plan)
    (pends : ∀ x ∈ names plan, s.Pends (env x) ((on x plan).map (task env))) (x : Nat) :
    (under x plan).Planted env s := by
  induction plan generalizing known x with
  | nil => trivial
  | cons r rest ih =>
    have later (y : Nat) (named : y ∈ names rest) : s.Pends (env y) ((on y rest).map (task env)) := by
      rw [← grows.on_later (List.mem_cons_of_mem _ named)]
      exact pends y (List.mem_cons_of_mem _ named)
    have planted := ih grows.2.2 later
    rw [under]
    split
    next =>
      refine ⟨?_, planted r.result, planted x⟩
      rw [tasks_under, ← grows.on_later List.mem_cons_self]
      exact pends r.result List.mem_cons_self
    next => exact planted x

/-- The forest has these registrations at its top, and below each those that `kids` says. -/
inductive Fits (kids : Nat → List (Registration V N)) :
    List (Registration V N) → Forest V N → Prop
  | nil : Fits kids [] .nil
  | node {r rs below behind} (under : Fits kids (kids r.result) below) (after : Fits kids rs behind) :
      Fits kids (r :: rs) (.node r.result r.stage below behind)

theorem Fits.unique {kids : Nat → List (Registration V N)} {rs : List (Registration V N)}
    {forest forest' : Forest V N} (fits : Fits kids rs forest) (fits' : Fits kids rs forest') :
    forest = forest' := by
  induction fits generalizing forest' with
  | nil =>
    cases fits'
    rfl
  | node _ _ ihUnder ihAfter =>
    cases fits' with
    | node under after => rw [ihUnder under, ihAfter after]

theorem fits_under (kids : Nat → List (Registration V N)) {known : List Nat}
    {plan : List (Registration V N)} (grows : Grows known plan)
    (same : ∀ x ∈ names plan, kids x = on x plan) (x : Nat) : Fits kids (on x plan) (under x plan) := by
  induction plan generalizing known x with
  | nil => exact .nil
  | cons r rest ih =>
    have fits := ih grows.2.2 fun y named => by
      rw [same y (List.mem_cons_of_mem _ named), grows.on_later (List.mem_cons_of_mem _ named)]
    rw [under]
    split
    next here =>
      subst here
      rw [on_cons_self]
      refine .node ?_ (fits _)
      rw [same r.result List.mem_cons_self, grows.on_later List.mem_cons_self]
      exact fits r.result
    next other =>
      rw [on_cons_of_ne other]
      exact fits x

/-- The same registrations on each cell, in the same order. -/
def Agree (plan plan' : List (Registration V N)) : Prop := ∀ x, on x plan = on x plan'

theorem under_of_agree {known : List Nat} {plan plan' : List (Registration V N)}
    (grows : Grows known plan) (grows' : Grows known plan') (agree : Agree plan plan') (x : Nat) :
    under x plan = under x plan' := by
  have fits := fits_under (fun x => on x plan) grows (fun _ _ => rfl) x
  have fits' := fits_under (fun x => on x plan) grows' (fun x _ => agree x) x
  rw [← agree x] at fits'
  exact fits.unique fits'

/-- Below the known names together are all names of the plan. -/
theorem perm_under {known : List Nat} {plan : List (Registration V N)} (grows : Grows known plan)
    (distinct : known.Nodup) :
    (known.flatMap fun x => (under x plan).preorder).Perm (names plan) := by
  induction plan generalizing known with
  | nil => simp [under, Forest.preorder, names]
  | cons r rest ih =>
    obtain ⟨source, new, grows⟩ := grows
    have split := List.perm_cons_erase source
    have others : (known.erase r.source).flatMap (fun x => (under x (r :: rest)).preorder) =
        (known.erase r.source).flatMap fun x => (under x rest).preorder := by
      refine List.flatMap_congr fun x member => ?_
      have other : r.source ≠ x := fun same => (distinct.not_mem_erase (same ▸ member))
      rw [under, if_neg other]
    have first : (under r.source (r :: rest)).preorder =
        r.result :: ((under r.result rest).preorder ++ (under r.source rest).preorder) := by
      rw [under, if_pos rfl, Forest.preorder]
    have below := ih grows (List.nodup_cons.mpr ⟨new, distinct⟩)
    rw [List.flatMap_cons] at below
    have known' := split.flatMap_right fun x => (under x (r :: rest)).preorder
    rw [List.flatMap_cons, first, others, List.cons_append, List.append_assoc,
      ← List.flatMap_cons (f := fun x => (under x rest).preorder)] at known'
    exact known'.trans ((((split.symm.flatMap_right _).append_left _).trans below).cons _)

section Inhabited
variable [Inhabited V] {s : State V N S} {t : ThreadId} {name : Option String}
  {fs : List (Frame V N S)}

theorem registers_runs {env : Nat → CellId} {r : Registration V N} {rest : List (Registration V N)}
    {k : (Nat → CellId) → Prog V N S} {queue : List (Task V N S)}
    (found : s.threads[t]? = some ⟨name, .run (code k env (r :: rest)), fs⟩)
    (pends : s.Pends (env r.source) queue) :
    ∃ event s', Alone t [event] 0 s s' ∧
      s'.threads[t]? = some ⟨name, .run (code k (update env r.result s.cells.size) rest), fs⟩ ∧
      s'.Pends (env r.source) (queue ++ [r.stage.task (env r.source) s.cells.size]) ∧
      s'.Pends s.cells.size [] ∧
      ∀ d, d ≠ env r.source → d ≠ s.cells.size → s'.cells[d]? = s.cells[d]? := by
  refine queues_runs found ?_ pends
  simp only [code]
  cases stage : r.stage <;> simp [State.next, State.perform, Stage.task]

/-- The registrations `done` are carried out in `s`, and there are no names but the known ones. -/
structure Growing (s : State V N S) (env : Nat → CellId) (known : List Nat)
    (done : List (Registration V N)) : Prop where
  distinct : (known.map env).Nodup
  pends : ∀ x ∈ known, s.Pends (env x) ((on x done).map (task env))
  named : ∀ r ∈ done, r.source ∈ known ∧ r.result ∈ known

omit [Inhabited V] in
theorem task_update {env : Nat → CellId} {r : Registration V N} {x : Nat} (c : CellId)
    (source : r.source ≠ x) (result : r.result ≠ x) :
    (task (update env x c) r : Task V N S) = task env r := by
  simp only [task, Function.update_of_ne source, Function.update_of_ne result]

omit [Inhabited V] in
theorem growing_of_register {env : Nat → CellId} {known : List Nat} {done : List (Registration V N)}
    {r : Registration V N} (growing : Growing s env known done) (source : r.source ∈ known)
    (new : r.result ∉ known) {s' : State V N S}
    (queued : s'.Pends (env r.source)
      ((on r.source done).map (task env) ++ [r.stage.task (env r.source) s.cells.size]))
    (fresh : s'.Pends s.cells.size [])
    (same : ∀ d, d ≠ env r.source → d ≠ s.cells.size → s'.cells[d]? = s.cells[d]?) :
    Growing s' (update env r.result s.cells.size) (r.result :: known) (done ++ [r]) := by
  have inside (x : Nat) (member : x ∈ known) : env x < s.cells.size := by
    obtain ⟨cell, held, -⟩ := growing.pends x member
    exact (Array.getElem?_eq_some_iff.mp held).1
  have kept (x : Nat) (member : x ∈ known) : update env r.result s.cells.size x = env x := by
    have other : x ≠ r.result := fun same => new (same ▸ member)
    exact Function.update_of_ne other _ _
  have tasks (x : Nat) : (on x done).map (task (update env r.result s.cells.size)) =
      ((on x done).map (task env) : List (Task V N S)) := by
    refine List.map_congr_left fun r' member => ?_
    obtain ⟨source', result'⟩ := growing.named r' (List.mem_filter.mp member).1
    exact task_update _ (fun same => new (same ▸ source')) fun same => new (same ▸ result')
  refine ⟨?_, ?_, ?_⟩
  · rw [List.map_cons, Function.update_self, List.map_congr_left kept]
    refine List.nodup_cons.mpr ⟨fun member => ?_, growing.distinct⟩
    obtain ⟨x, member, at'⟩ := List.mem_map.mp member
    exact Nat.lt_irrefl _ (at' ▸ inside x member)
  · intro x member
    rw [on, List.filter_append, ← on, List.map_append, tasks]
    rcases List.mem_cons.mp member with rfl | old
    · have none : on r.result done = [] := by
        refine List.filter_eq_nil_iff.mpr fun r' member => ?_
        have here : r'.source ∈ known := (growing.named r' member).1
        simpa using fun same : r'.source = r.result => new (same ▸ here)
      have away : r.source ≠ r.result := fun same => new (same ▸ source)
      have other : on r.result [r] = [] := on_cons_of_ne away []
      rw [none, ← on, other, Function.update_self]
      exact fresh
    · rw [kept x old]
      by_cases here : r.source = x
      · subst here
        simpa [on, task, kept _ old] using queued
      · have away : env x ≠ env r.source := by
          intro same
          exact here (List.inj_on_of_nodup_map growing.distinct old source same).symm
        obtain ⟨cell, held, pends⟩ := growing.pends x old
        refine ⟨cell, ?_, by simpa [on, here] using pends⟩
        rw [same _ away (Nat.ne_of_lt (inside x old)), held]
  · intro r' member
    rcases List.mem_append.mp member with old | last
    · obtain ⟨source', result'⟩ := growing.named r' old
      exact ⟨List.mem_cons_of_mem _ source', List.mem_cons_of_mem _ result'⟩
    · rw [List.mem_singleton.mp last]
      exact ⟨List.mem_cons_of_mem _ source, List.mem_cons_self⟩

theorem plan_builds {plan : List (Registration V N)} {known : List Nat} (grows : Grows known plan)
    {env : Nat → CellId} {done : List (Registration V N)} {k : (Nat → CellId) → Prog V N S}
    (growing : Growing s env known done)
    (found : s.threads[t]? = some ⟨name, .run (code k env plan), fs⟩) :
    ∃ events s' env', Alone t events 0 s s' ∧ s'.threads[t]? = some ⟨name, .run (k env'), fs⟩ ∧
      Growing s' env' ((names plan).reverse ++ known) (done ++ plan) := by
  induction plan generalizing s known env done with
  | nil => exact ⟨[], s, env, .refl t s, found, by simpa [names] using growing⟩
  | cons r rest ih =>
    obtain ⟨source, new, grows⟩ := grows
    obtain ⟨event, s₁, queued, found₁, pends, fresh, same⟩ :=
      registers_runs found (growing.pends _ source)
    have growing₁ := growing_of_register growing source new pends fresh same
    obtain ⟨events, s', env', alone, found', built⟩ := ih grows growing₁ found₁
    refine ⟨event :: events, s', env', queued.trans alone, found', ?_⟩
    simpa [names] using built

omit [Inhabited V] in
theorem built_of_growing {env : Nat → CellId} {root : Nat} {plan : List (Registration V N)}
    (growing : Growing s env ((names plan).reverse ++ [root]) plan) : Built s env root plan := by
  have same : (root :: names plan).Perm ((names plan).reverse ++ [root]) :=
    ((List.reverse_perm _).symm.cons _).trans (List.perm_append_singleton _ _).symm
  exact ⟨(same.map env).nodup_iff.mpr growing.distinct, fun x member =>
    growing.pends x (same.mem_iff.mp member)⟩

/-- The call that decides the first cell processes what the plan has built. -/
theorem plan_processed {root : Nat} {plan : List (Registration V N)} (grows : Grows [root] plan)
    {env : Nat → CellId} (built : Built s env root plan) {a : Attempt V} {k : Bool → Prog V N S}
    (found : s.threads[t]? = some ⟨name, .run (.decide (env root) a k), fs⟩)
    (admitted : s.admits (env root) a = true) :
    ∃ s', Processed t name (k true) fs env root (a.outcome s.nextCause) (under root plan) s s' := by
  have all : (root :: (under root plan).preorder).Perm (root :: names plan) := by
    simpa using (perm_under grows (List.nodup_singleton root)).cons root
  refine forest_processed env (under root plan) found admitted ?_ ?_ ?_
  · rw [tasks_under]
    exact built.pends root List.mem_cons_self
  · exact planted_under grows (fun x named => built.pends x (List.mem_cons_of_mem _ named)) root
  · exact (all.map env).nodup_iff.mpr built.distinct

structure PlanTraversed (V N S : Type) [Inhabited V] (root : Nat) (plan : List (Registration V N)) :
    Prop where
  /-- Every registration is in the forest once. -/
  once : (names plan).Nodup ∧ (under root plan).preorder.Perm (names plan)
  /-- Its continuations start and are decided in preorder, and finish in postorder. -/
  order : ∀ env o id,
    ((under root plan).events env root o id).filterMap Event.started? =
        (under root plan).preorder.map env ∧
      ((under root plan).events env root o id).filterMap Event.decided? =
        (under root plan).preorder.map env ∧
      ((under root plan).events env root o id).filterMap Event.finished? =
        (under root plan).postorder.map env
  builds : ∀ {s : State V N S} {t name fs env k}, s.Pends (env root) [] →
    s.threads[t]? = some ⟨name, .run (code k env plan), fs⟩ →
    ∃ events s' env', Alone t events 0 s s' ∧ Built s' env' root plan ∧
      s'.threads[t]? = some ⟨name, .run (k env'), fs⟩
  processes : ∀ {s : State V N S} {t name fs env a k}, Built s env root plan →
    s.threads[t]? = some ⟨name, .run (.decide (env root) a k), fs⟩ →
    s.admits (env root) a = true →
    ∃ s', Processed t name (k true) fs env root (a.outcome s.nextCause) (under root plan) s s'
  /-- Another plan with the same order on each cell comes to the same, up to what the names stand for. -/
  agrees : ∀ {plan'}, Grows [root] plan' → Agree plan plan' →
    ∀ {s s' : State V N S} {t t' name name' fs fs' env env' a k k'},
    Built s env root plan → s.threads[t]? = some ⟨name, .run (.decide (env root) a k), fs⟩ →
    s.admits (env root) a = true →
    Built s' env' root plan' → s'.threads[t']? = some ⟨name', .run (.decide (env' root) a k'), fs'⟩ →
    s'.admits (env' root) a = true → s.nextCause = s'.nextCause →
    ∃ (events : List (Event N)) (causes : Nat) (outcomes : List (Nat × Outcome V)),
      outcomes.map Prod.fst = root :: (under root plan).preorder ∧
      (∃ r, Alone t (events.map (Event.rename env)) causes s r ∧
        r.threads[t]? = some ⟨name, .run (k true), fs⟩ ∧ r.Decided env outcomes) ∧
      ∃ r', Alone t' (events.map (Event.rename env')) causes s' r' ∧
        r'.threads[t']? = some ⟨name', .run (k' true), fs'⟩ ∧ r'.Decided env' outcomes

omit [Inhabited V] in
theorem rename_decided (env : Nat → CellId) (root : Nat) (o : Outcome V) (id : CauseId)
    (forest : Forest V N) :
    .decided (env root) o.kind forest.width :: forest.events env root o id =
      (.decided root o.kind forest.width :: forest.events (fun y => y) root o id).map
        (Event.rename env) := by
  rw [List.map_cons, ← forest.events_rename]
  rfl

theorem plan_traversed {root : Nat} {plan : List (Registration V N)} (grows : Grows [root] plan) :
    PlanTraversed V N S root plan := by
  refine ⟨⟨grows.nodup, ?_⟩, fun env o id => Forest.order_events env _ root o id, ?_, ?_, ?_⟩
  · simpa using perm_under grows (List.nodup_singleton root)
  · intro s t name fs env k pends found
    have growing : Growing s env [root] ([] : List (Registration V N)) :=
      ⟨List.nodup_singleton _, fun x member => by rwa [List.mem_singleton.mp member],
        fun r member => by cases member⟩
    obtain ⟨events, s', env', alone, found', growing'⟩ := plan_builds grows growing found
    exact ⟨events, s', env', alone, built_of_growing growing', found'⟩
  · exact fun built found admitted => plan_processed grows built found admitted
  · intro plan' grows' agree s s' t t' name name' fs fs' env env' a k k' built found admitted built'
      found' admitted' causes
    obtain ⟨r, processed⟩ := plan_processed grows built found admitted
    obtain ⟨r', processed'⟩ := plan_processed grows' built' found' admitted'
    rw [← under_of_agree grows grows' agree root, ← causes] at processed'
    have alone := processed.alone
    have alone' := processed'.alone
    rw [rename_decided] at alone alone'
    rw [← causes] at alone'
    have decided' := processed'.decided
    rw [← causes] at decided'
    refine ⟨_, _, _, ?_, ⟨r, alone, processed.back, processed.decided⟩,
      r', alone', processed'.back, decided'⟩
    rw [List.map_cons, Forest.names_outcomes]

/-- Two continuations of the first cell, and below the first of them a failure that a map hands on. -/
def nested : List (Registration Nat Nat) :=
  [⟨0, 1, .chain (.look fun x => .note x.queued (.ret 1))⟩, ⟨0, 2, .transform fun _ => .panic .other⟩,
    ⟨1, 3, .chain (.get fun _ => .err (.message "no"))⟩, ⟨3, 4, .transform fun v => .ret v⟩,
    ⟨1, 5, .chain (.ret 7)⟩]

/-- The same registrations, with those on the second cell before the second of the first. -/
def nested' : List (Registration Nat Nat) :=
  [⟨0, 1, .chain (.look fun x => .note x.queued (.ret 1))⟩,
    ⟨1, 3, .chain (.get fun _ => .err (.message "no"))⟩, ⟨1, 5, .chain (.ret 7)⟩,
    ⟨0, 2, .transform fun _ => .panic .other⟩, ⟨3, 4, .transform fun v => .ret v⟩]

def carryOut (plan : List (Registration Nat Nat)) : Prog Nat Nat Unit :=
  .newCell none fun c =>
    code (fun env => .decide (env 0) (.complete 5) fun _ => .ret 0) (fun _ => c) plan

theorem plan_traversed_nested :
    Grows [0] nested ∧ Grows [0] nested' ∧ Agree nested nested' ∧
      PlanTraversed Nat Nat Unit 0 nested ∧ (under 0 nested).preorder = [1, 3, 4, 5, 2] ∧
      ∃ s s', (State.start () (carryOut nested)).run (List.replicate 6 (.step 0)) = some s ∧
        Built s (fun x => x) 0 nested ∧
        Processed 0 (some "main") (.ret 0) [] (fun x => x) 0 (.value 5) (under 0 nested) s s' := by
  have grows : Grows [0] nested := by simp [Grows, nested]
  have grows' : Grows [0] nested' := by simp [Grows, nested']
  have agree : Agree nested nested' := by
    rintro (_ | _ | _ | _ | x) <;> rfl
  have traversed : PlanTraversed Nat Nat Unit 0 nested := plan_traversed grows
  obtain ⟨s, ran, built, found, admitted, causes⟩ : ∃ s : State Nat Nat Unit,
      (State.start () (carryOut nested)).run (List.replicate 6 (.step 0)) = some s ∧
      Built s (fun x => x) 0 nested ∧
      s.threads[0]? = some ⟨some "main", .run (.decide 0 (.complete 5) fun _ => .ret 0), []⟩ ∧
      s.admits 0 (.complete 5) = true ∧ s.nextCause = 0 := by
    refine ⟨_, rfl, ⟨by decide, fun x member => ?_⟩, rfl, rfl, rfl⟩
    simp only [names, nested, List.map_cons, List.map_nil, List.mem_cons, List.not_mem_nil,
      or_false] at member
    rcases member with rfl | rfl | rfl | rfl | rfl | rfl <;> exact ⟨_, rfl, rfl, rfl, rfl⟩
  obtain ⟨s', processed⟩ := traversed.processes built found admitted
  exact ⟨grows, grows', agree, traversed, rfl, s, s', ran, built, processed⟩

end Inhabited
end Registration
end Oneshot
