import Oneshot.Proofs.Brisk
import Oneshot.Proofs.Containment

/-! # Every call ends

While a call goes on, each step of its thread takes some of the work that is left (`lighter_of_own`), and
no other move adds to it.  So the call ends, in whatever way it comes to its turns, if nothing in it waits
and the code of no waker polls (`call_ends`): its drain loops end, and so do those of the cells that are
decided inside it, though they are filled up while they run. -/
set_option autoImplicit false
namespace Oneshot
variable {V N S : Type}

def Prog.Operates : Prog V N S → Prop
  | .newCell _ _ | .look _ _ | .decide _ _ _ | .get _ _ | .getTimeout _ _ _ | .chain _ _ _
  | .transform _ _ _ | .relay _ _ | .newExternal _ | .lookExternal _ _ | .settle _ _ _
  | .poll _ _ _ => True
  | _ => False

/-- What the program goes on with after that operation is `q`. -/
def Prog.Answer (q : Prog V N S) : Prog V N S → Prop
  | .newCell _ k | .chain _ _ k | .transform _ _ k => ∃ c, q = k c
  | .look _ k => ∃ x, q = k x
  | .decide _ _ k | .settle _ _ k => ∃ b, q = k b
  | .get _ k | .getTimeout _ _ k => ∃ r, q = k r
  | .relay _ k | .newExternal k => ∃ e, q = k e
  | .lookExternal _ k => ∃ x, q = k x
  | .poll _ _ k => ∃ r, q = k r
  | _ => False

def Prog.Settles : Prog V N S → Prop
  | .settle _ _ _ => True
  | _ => False

theorem child_of_answer {p q : Prog V N S} (answer : q.Answer p) : q.Child p := by
  cases p with
  | chain c body k => exact Or.inr answer
  | transform c f k => exact Or.inr answer
  | ret | err | panic | newWaker | share | guarded | spawn | join | threadName | note | ask | update =>
    exact answer.elim
  | _ => exact answer

theorem answer_ne {p q : Prog V N S} (answer : q.Answer p) : q ≠ p := by
  rintro rfl
  exact wellFounded_follows.irrefl.irrefl q (Or.inl (child_of_answer answer))

/-- Where a thread is in the operation that it has begun with `p` above the frames `fs`. -/
inductive Within (p : Prog V N S) (fs : List (Frame V N S)) :
    Doing V N S → List (Frame V N S) → Prop
  | calls : Within p fs (.run p) fs
  | decides {c o k} (answers : ∀ b, (k b).Answer p) : Within p fs (.deciding c o (some k)) fs
  | settles {e r k} (settles : p.Settles) (answers : ∀ b, (k b).Answer p) :
      Within p fs (.settling e r (some k)) fs
  | reads {w} (answers : ∀ r, (w.resume r).Answer p) : Within p fs (.checking w) fs
  | inside {q d frames} (answer : q.Answer p) (inside : InCall q fs d frames) : Within p fs d frames
  /-- The wakers are being woken one after the other. -/
  | wakes {q d x ws} (settles : p.Settles) (answer : q.Answer p) (inner : List (Frame V N S)) :
      Within p fs d (inner ++ .waking x ws :: .resume q :: fs)
  | woken {q e} (settles : p.Settles) (answer : q.Answer p) : Within p fs (.ended e) (.resume q :: fs)

/-- The thread has the answer to its operation, or a waker has panicked and the operation with it. -/
def Doing.Leaves (p : Prog V N S) (d : Doing V N S) : Prop :=
  (∃ q, q.Answer p ∧ d = .run q) ∨ (p.Settles ∧ ∃ payload, d = .ended (.panicked payload))

namespace State

def OutOf (t : ThreadId) (name : Option String) (p : Prog V N S) (fs : List (Frame V N S))
    (s : State V N S) : Prop :=
  ∃ d, s.threads[t]? = some ⟨name, d, fs⟩ ∧ d.Leaves p

def Blocked (s : State V N S) (t : ThreadId) : Prop :=
  ∃ thread, s.threads[t]? = some thread ∧ thread.doing.Blocked s

end State

section Inhabited
variable [Inhabited V] {s s' : State V N S} {t : ThreadId} {name : Option String} {p : Prog V N S}
  {d : Doing V N S} {fs frames : List (Frame V N S)} {n : Next V N S}

/-- The state comes of `s` while the call goes on. -/
inductive Meanwhile (closed : State V N S → Prop) (s : State V N S) : State V N S → Prop
  | now : Meanwhile closed s s
  | later {s₁ s₂ m} (before : Meanwhile closed s s₁) (goesOn : ¬ closed s₁)
      (moved : s₁.move m = some s₂) : Meanwhile closed s s₂

theorem Meanwhile.reaches {closed : State V N S → Prop} (meanwhile : Meanwhile closed s s') :
    Reaches s s' := by
  induction meanwhile with
  | now => exact .refl s
  | later _ _ moved ih => exact ih.trans (.of_move moved)

omit [Inhabited V] in
theorem within_of_perform (operates : p.Operates) (moved : s.perform t p fs = some n) :
    Within p fs n.doing n.frames ∨ (n.doing.Leaves p ∧ n.frames = fs) := by
  have back {q : Prog V N S} (answer : q.Answer p) (doing : n.doing = .run q) (frames : n.frames = fs) :
      Within p fs n.doing n.frames ∨ (n.doing.Leaves p ∧ n.frames = fs) :=
    Or.inr ⟨Or.inl ⟨q, answer, doing⟩, frames⟩
  have registers {s₀ : State V N S} {c : CellId} {task : Task V N S} {q : Prog V N S}
      (answer : q.Answer p) (same : s₀.register t c task q fs = n) :
      Within p fs n.doing n.frames ∨ (n.doing.Leaves p ∧ n.frames = fs) := by
    subst same
    rcases register_cases s₀ t c task q fs with ⟨doing, frames⟩ | inside
    · exact back answer doing frames
    · exact Or.inl (.inside answer inside)
  cases p with
  | newCell start k => cases start <;> cases moved <;> exact back ⟨_, rfl⟩ rfl rfl
  | decide c a k =>
    simp only [State.perform] at moved
    split at moved
    next => cases moved; exact Or.inl (.decides fun b => ⟨b, rfl⟩)
    next => cases moved; exact back ⟨_, rfl⟩ rfl rfl
  | get c k => cases moved; exact Or.inl (.reads fun r => ⟨r, rfl⟩)
  | getTimeout c limit k => cases moved; exact Or.inl (.reads fun r => ⟨r, rfl⟩)
  | chain c body k => exact registers ⟨_, rfl⟩ (Option.some.inj moved)
  | transform c f k => exact registers ⟨_, rfl⟩ (Option.some.inj moved)
  | relay c k => exact registers ⟨_, rfl⟩ (Option.some.inj moved)
  | settle e a k => cases moved; exact Or.inl (.settles trivial fun b => ⟨b, rfl⟩)
  | poll e w k =>
    simp only [State.perform, State.pollExternal] at moved
    split at moved
    next => cases moved; exact back ⟨_, rfl⟩ rfl rfl
    next => split at moved <;> cases moved <;> exact back ⟨_, rfl⟩ rfl rfl
  | look c k => cases moved; exact back ⟨_, rfl⟩ rfl rfl
  | newExternal k => cases moved; exact back ⟨_, rfl⟩ rfl rfl
  | lookExternal e k => cases moved; exact back ⟨_, rfl⟩ rfl rfl
  | _ => exact operates.elim

/-- A step inside an operation stays inside it, or it is the last. -/
theorem within_of_next (operates : p.Operates) (sound : Thread.Sound s d frames)
    (unblocked : ¬ d.Blocked s) (within : Within p fs d frames) (moved : s.next t d frames = some n) :
    Within p fs n.doing n.frames ∨ (n.doing.Leaves p ∧ n.frames = fs) := by
  cases within with
  | calls => exact within_of_perform operates moved
  | @decides c o k answers =>
    cases transition_of_next moved with
    | plain was => exact was.elim
    | loses _ _ => exact Or.inr ⟨Or.inl ⟨k false, answers false, rfl⟩, rfl⟩
    | wins _ _ => exact Or.inl (.inside (answers true) (.shallow trivial))
  | @settles e r k settles answers =>
    cases transition_of_next moved with
    | plain was => exact was.elim
    | refuses _ _ => exact Or.inr ⟨Or.inl ⟨k false, answers false, rfl⟩, rfl⟩
    | settles _ _ => exact Or.inl (.wakes settles (answers true) [])
  | @reads w answers =>
    obtain ⟨cell, found, ⟨undecided, rfl⟩ | ⟨o, -, rfl⟩⟩ := check_cases moved
    · exact absurd ((State.outcome?_of_found found).trans undecided) unblocked
    · exact Or.inr ⟨Or.inl ⟨_, answers _, rfl⟩, rfl⟩
  | inside answer inside =>
    rcases inCall_of_transition (transition_of_next moved) sound inside with on | ⟨doing, rest⟩
    · exact Or.inl (.inside answer on)
    · exact Or.inr ⟨Or.inl ⟨_, answer, doing⟩, rest⟩
  | @wakes q _ x ws settles answer inner =>
    have transition := transition_of_next moved
    rcases frames_of_transition transition with
      ⟨new, grown⟩ | ⟨e, frame, rest, new, ended, popped, grown⟩
    · refine Or.inl ?_
      rw [grown, ← List.append_assoc]
      exact .wakes settles answer (new ++ inner)
    · cases inner with
      | cons first inner =>
        have same : rest = inner ++ .waking x ws :: .resume q :: fs := (List.cons.inj popped).2.symm
        refine Or.inl ?_
        rw [grown, same, ← List.append_assoc]
        exact .wakes settles answer (new ++ inner)
      | nil =>
        subst ended
        rw [List.nil_append] at transition
        cases transition with
        | plain was => exact was.elim
        | rests _ => exact Or.inl (.woken settles answer)
        | wakes _ => exact Or.inl (.wakes settles answer [])
        | unwinds _ => exact Or.inl (.woken settles answer)
  | woken settles answer =>
    cases transition_of_next moved with
    | plain was => exact was.elim
    | resumes _ => exact Or.inr ⟨Or.inl ⟨_, answer, rfl⟩, rfl⟩
    | unwinds _ => exact Or.inr ⟨Or.inr ⟨settles, _, rfl⟩, rfl⟩

theorem next_of_within (within : Within p fs d frames) (unblocked : ¬ d.Blocked s) :
    ∃ n, s.next t d frames = some n := by
  cases next : s.next t d frames with
  | some n => exact ⟨n, rfl⟩
  | none =>
    obtain ⟨e, ended, none⟩ := (blocked_of_next next).resolve_left unblocked
    cases within with
    | inside _ inside =>
      cases inside with
      | shallow _ => cases none
      | deep inner _ _ => simp at none
    | wakes _ _ inner => simp at none
    | woken _ _ => cases none
    | _ => cases ended

def State.Amid (t : ThreadId) (name : Option String) (p : Prog V N S) (fs : List (Frame V N S))
    (s : State V N S) : Prop :=
  ∃ d frames, s.threads[t]? = some ⟨name, d, frames⟩ ∧ Within p fs d frames

theorem lighter_of_turn (tame : s.Tame) (unblocked : ¬ s.Blocked t)
    (moved : s.move (.step t) = some s') : Lighter s'.work s.work := by
  obtain ⟨thread, n, found, -⟩ := next_of_step moved
  exact lighter_of_own tame found (fun blocked => unblocked ⟨thread, found, blocked⟩) moved

theorem step_of_amid (amid : s.Amid t name p fs) (unblocked : ¬ s.Blocked t) :
    ∃ s', s.move (.step t) = some s' := by
  obtain ⟨d, frames, found, within⟩ := amid
  have awake : ¬ d.Blocked s := fun blocked => unblocked ⟨_, found, blocked⟩
  obtain ⟨n, next⟩ := next_of_within (t := t) within awake
  exact ⟨_, step_of_next found next⟩

theorem amid_of_move {m : Move} (operates : p.Operates) (sound : s.Sound) (amid : s.Amid t name p fs)
    (unblocked : ¬ s.Blocked t) (moved : s.move m = some s') :
    s'.Amid t name p fs ∨ s'.OutOf t name p fs := by
  obtain ⟨d, frames, found, within⟩ := amid
  have awake : ¬ d.Blocked s := fun blocked => unblocked ⟨_, found, blocked⟩
  by_cases own : m = .step t
  · subst own
    obtain ⟨thread, n, found', next, rfl⟩ := next_of_step moved
    cases Option.some.inj (found.symm.trans found')
    have after : (n.state.setThread t ⟨name, n.doing, n.frames⟩).threads[t]? =
        some ⟨name, n.doing, n.frames⟩ := thread_after (transition_of_next next) found
    rcases within_of_next operates (sound.threads t _ found) awake within next with on | ⟨leaves, rest⟩
    · exact Or.inl ⟨_, _, after, on⟩
    · refine Or.inr ⟨n.doing, ?_, leaves⟩
      rw [← rest]
      exact after
  · refine Or.inl ⟨d, frames, thread_kept moved own found ?_, within⟩
    rintro w rfl
    exact awake trivial

/-- While a call goes on, its thread is inside it. -/
theorem amid_meanwhile (reachable : Reachable s) (amid : s.Amid t name p fs) (operates : p.Operates)
    (prompt : ∀ s', Meanwhile (State.OutOf t name p fs) s s' →
      s'.OutOf t name p fs ∨ ¬ s'.Blocked t)
    (meanwhile : Meanwhile (State.OutOf t name p fs) s s') :
    Reachable s' ∧ (s'.Amid t name p fs ∨ s'.OutOf t name p fs) := by
  induction meanwhile with
  | now => exact ⟨reachable, Or.inl amid⟩
  | later before goesOn moved ih =>
    obtain ⟨reachable, inside⟩ := ih
    have unblocked := (prompt _ before).resolve_left goesOn
    exact ⟨reachable_of_reaches reachable (.of_move moved), amid_of_move operates
      (sound_of_reachable reachable) (inside.resolve_right goesOn) unblocked moved⟩

structure CallEnds (t : ThreadId) (name : Option String) (p : Prog V N S) (fs : List (Frame V N S))
    (s : State V N S) : Prop where
  begins : ¬ s.OutOf t name p fs
  goesOn : ∀ s', Meanwhile (State.OutOf t name p fs) s s' →
    s'.OutOf t name p fs ∨ ∃ s'', s'.move (.step t) = some s''
  /-- No run goes on for ever in which `t` takes steps again and again without an end of the call,
  whatever the other threads do in between. -/
  ends : ∀ (σ : Nat → State V N S) (m : Nat → Move), σ 0 = s →
    (∀ i, (σ i).move (m i) = some (σ (i + 1))) → (∀ i, ∃ j, i ≤ j ∧ m j = .step t) →
    ∃ i, (σ i).OutOf t name p fs
  alone : ∃ n s', s.run (List.replicate n (.step t)) = some s' ∧ s'.OutOf t name p fs

omit [Inhabited V] in
theorem not_outOf {thread : Thread V N S} (found : s.threads[t]? = some thread)
    (run : thread.doing = .run p) : ¬ s.OutOf t name p fs := by
  rintro ⟨d, found', leaves⟩
  obtain rfl := Option.some.inj (found.symm.trans found')
  obtain rfl : d = .run p := run
  rcases leaves with ⟨q, answer, same⟩ | ⟨-, payload, same⟩
  · exact answer_ne answer (Doing.run.inj same).symm
  · cases same

theorem alone_of_meanwhile (tame : ∀ s', Meanwhile (State.OutOf t name p fs) s s' → s'.Tame)
    (prompt : ∀ s', Meanwhile (State.OutOf t name p fs) s s' →
      s'.OutOf t name p fs ∨ ¬ s'.Blocked t)
    (goesOn : ∀ s', Meanwhile (State.OutOf t name p fs) s s' →
      s'.OutOf t name p fs ∨ ∃ s'', s'.move (.step t) = some s'')
    (meanwhile : Meanwhile (State.OutOf t name p fs) s s') :
    ∃ n s'', s'.run (List.replicate n (.step t)) = some s'' ∧ s''.OutOf t name p fs := by
  generalize weight : s'.work = M
  induction M using wellFounded_lighter.induction generalizing s' with
  | _ M ih =>
    subst weight
    by_cases closed : s'.OutOf t name p fs
    · exact ⟨0, s', rfl, closed⟩
    · obtain ⟨s₁, moved⟩ := (goesOn s' meanwhile).resolve_left closed
      have lighter := lighter_of_turn (tame s' meanwhile) ((prompt s' meanwhile).resolve_left closed) moved
      obtain ⟨n, s'', run, out⟩ := ih s₁.work lighter (.later meanwhile closed moved) rfl
      refine ⟨n + 1, s'', ?_, out⟩
      rw [List.replicate_succ, State.run, moved]
      exact run

omit [Inhabited V] in
/-- No run takes work away again and again. -/
theorem not_again {σ : Nat → State V N S} (less : ∀ i, (σ (i + 1)).work = (σ i).work ∨
      Lighter (σ (i + 1)).work (σ i).work)
    (again : ∀ i, ∃ j, i ≤ j ∧ Lighter (σ (j + 1)).work (σ j).work) : False := by
  have later (i j : Nat) (after : i ≤ j) : (σ j).work = (σ i).work ∨ Lighter (σ j).work (σ i).work := by
    induction j, after using Nat.le_induction with
    | base => exact Or.inl rfl
    | succ j _ ih =>
      rcases less j with same | lighter
      · rwa [same]
      · rcases ih with same | before
        · exact Or.inr (same ▸ lighter)
        · exact Or.inr (lighter.trans before)
  have never (M : Multiset (Token V N S)) (i : Nat) : (σ i).work ≠ M := by
    induction M using wellFounded_lighter.induction generalizing i with
    | _ M ih =>
      rintro rfl
      obtain ⟨j, after, lighter⟩ := again i
      rcases later i j after with same | before
      · exact ih _ (same ▸ lighter) (j + 1) rfl
      · exact ih _ (lighter.trans before) (j + 1) rfl
  exact never _ 0 rfl

/-- A call comes to its end, whatever the other threads do, if nothing in it waits and the code of no
waker polls.  Its own queues may grow while they are drained, and cells may decide one another. -/
theorem call_ends (reachable : Reachable s) (found : s.threads[t]? = some ⟨name, .run p, fs⟩)
    (operates : p.Operates)
    (prompt : ∀ s', Meanwhile (State.OutOf t name p fs) s s' →
      s'.OutOf t name p fs ∨ ¬ s'.Blocked t)
    (tame : ∀ s', Meanwhile (State.OutOf t name p fs) s s' → s'.Tame) :
    CallEnds t name p fs s := by
  have goesOn (s' : State V N S) (meanwhile : Meanwhile (State.OutOf t name p fs) s s') :
      s'.OutOf t name p fs ∨ ∃ s'', s'.move (.step t) = some s'' := by
    have inside := (amid_meanwhile reachable ⟨_, _, found, .calls⟩ operates prompt meanwhile).2
    rcases inside with amid | closed
    · exact (prompt s' meanwhile).imp id (step_of_amid amid)
    · exact Or.inl closed
  refine ⟨not_outOf found rfl, goesOn, ?_, alone_of_meanwhile tame prompt goesOn .now⟩
  intro σ m first moves turns
  by_contra never
  have ongoing (i : Nat) : ¬ (σ i).OutOf t name p fs := fun closed => never ⟨i, closed⟩
  have meanwhile (i : Nat) : Meanwhile (State.OutOf t name p fs) s (σ i) := by
    induction i with
    | zero => exact first ▸ .now
    | succ i ih => exact .later ih (ongoing i) (moves i)
  refine not_again (fun i => work_of_move (tame _ (meanwhile i)) (moves i)) fun i => ?_
  obtain ⟨j, after, own⟩ := turns i
  have unblocked := (prompt _ (meanwhile j)).resolve_left (ongoing j)
  exact ⟨j, after, lighter_of_turn (tame _ (meanwhile j)) unblocked (own ▸ moves j)⟩

theorem prompt_of_brisk (brisk : s.Brisk) {closed : State V N S → Prop} (meanwhile : Meanwhile closed s s') :
    (∀ t, ¬ s'.Blocked t) ∧ s'.Tame := by
  have brisk' := brisk_of_reaches meanwhile.reaches brisk
  refine ⟨?_, tame_of_brisk brisk'⟩
  rintro t ⟨thread, found, blocked⟩
  exact unblocked_of_brisk (brisk'.threads t thread found).1 blocked

/-- Two cells whose continuations complete each other's cell and register more on their own. -/
def entangled : Prog Nat Empty Unit :=
  .newCell none fun a => .newCell none fun b =>
  .chain a (.decide b (.complete 1) fun _ => .chain a (.decide b .cancel fun _ => .ret 2) fun _ => .ret 3)
    fun _ =>
  .chain b (.decide a (.complete 4) fun _ => .transform b .ret fun _ => .ret 5) fun _ =>
  .decide a (.complete 0) fun _ => .ret 6

theorem call_ends_entangled : ∃ (s : State Nat Empty Unit) (k : Bool → Prog Nat Empty Unit),
    Reachable s ∧ s.threads[0]? = some ⟨some "main", .run (.decide 0 (.complete 0) k), []⟩ ∧
    ((s.queueOf 0).length = 1 ∧ (s.queueOf 1).length = 1) ∧
    (∀ s', Meanwhile (State.OutOf 0 (some "main") (.decide 0 (.complete 0) k) []) s s' →
      (∀ t, ¬ s'.Blocked t) ∧ s'.Tame) ∧
    CallEnds 0 (some "main") (.decide 0 (.complete 0) k) [] s := by
  have reached : Reaches (State.start () entangled) _ :=
    ⟨[.step 0, .step 0, .step 0, .step 0], rfl⟩
  have code : entangled.Brisk := by simp [entangled, Prog.Brisk]
  have brisk := brisk_of_reaches reached (brisk_of_start () code)
  refine ⟨_, _, ⟨(), _, reached⟩, rfl, ⟨rfl, rfl⟩, fun s' => prompt_of_brisk brisk, ?_⟩
  exact call_ends ⟨(), _, reached⟩ rfl trivial
    (fun s' meanwhile => Or.inr ((prompt_of_brisk brisk meanwhile).1 0))
    fun s' meanwhile => (prompt_of_brisk brisk meanwhile).2

end Inhabited
end Oneshot
