import Oneshot.Proofs.Alike
import Oneshot.Proofs.Transition

/-! # Code that touches no cell

Code is `Apart` when none of its operations has to do with a cell, with a note that counts, or with what
programs share.  A step of such code changes nothing that counts (`sidestep_of_next`), and goes on above
the frame that it was called from. -/
set_option autoImplicit false
namespace Oneshot
variable {V N S : Type}

/-- What code may go on with after its first operation, whatever the answer. -/
inductive Prog.Leads : Prog V N S → Prog V N S → Prop
  | newExternal {k} (e : ExternalId) : Leads (.newExternal k) (k e)
  | lookExternal {e k} (x : ExternalSnapshot V) : Leads (.lookExternal e k) (k x)
  | settle {e a k} (b : Bool) : Leads (.settle e a k) (k b)
  | poll {e w k} (r : Option (Reading V)) : Leads (.poll e w k) (k r)
  | newWaker {p k} (w : WakerId) : Leads (.newWaker p k) (k w)
  | share {f k} (c : Cause) : Leads (.share f k) (k c)
  | guarded {p k} (e : Ending V) : Leads (.guarded p k) (k e)
  | spawn {name p k} (t : ThreadId) : Leads (.spawn name p k) (k t)
  | join {t k} (e : Ending V) : Leads (.join t k) (k e)
  | threadName {k} (name : Option String) : Leads (.threadName k) (k name)
  | note {n k} : Leads (.note n k) k
  | ask {k} (x : S) : Leads (.ask k) (k x)
  | update {f k} : Leads (.update f k) k

/-- Code inside the first operation. -/
inductive Prog.Holds : Prog V N S → Prog V N S → Prop
  | newWaker {p k} : Holds (.newWaker p k) p
  | guarded {p k} : Holds (.guarded p k) p
  | spawn {name p k} : Holds (.spawn name p k) p

section Sight
variable [Inhabited V]

/-- An update that changes nothing on which client states have to agree. -/
def Sight.Neutral (σ : Sight V N S) (f : S → S) : Prop :=
  ∀ w x x', σ.client w x x' → σ.client w (f x) x' ∧ σ.client w x (f x')

/-- Code aside may end like this: it panics only where it may. -/
def Sight.Allows (σ : Sight V N S) (e : Ending V) : Prop := σ.calm → e.Calm

/-- The first operation has to do with no cell, and changes nothing that counts. -/
def Prog.Aside (σ : Sight V N S) : Prog V N S → Prop
  | .newExternal _ | .lookExternal _ _ | .settle _ _ _ | .poll _ _ _ | .newWaker _ _ | .share _ _
  | .guarded _ _ | .spawn _ _ _ | .join _ _ | .threadName _ | .ask _ => True
  | .note n _ => σ.heard n = false
  | .update f _ => σ.Neutral f
  | _ => False

inductive Apart (σ : Sight V N S) : Prog V N S → Prop
  | ret v : Apart σ (.ret v)
  | err failure : Apart σ (.err failure)
  | panic payload (noisy : ¬ σ.calm) : Apart σ (.panic payload)
  | goes {p} (aside : p.Aside σ) (holds : ∀ p', p.Holds p' → Apart σ p')
      (leads : ∀ p', p.Leads p' → Apart σ p') : Apart σ p

inductive Frame.Apart (σ : Sight V N S) : Frame V N S → Prop
  | resume {p} (code : Oneshot.Apart σ p) : Apart σ (.resume p)
  | waking e ws : Apart σ (.waking e ws)
  | guarding {k} (code : ∀ e, Oneshot.Apart σ (k e)) : Apart σ (.guarding k)

inductive Doing.Apart (σ : Sight V N S) : Doing V N S → Prop
  | run {p} (code : Oneshot.Apart σ p) : Apart σ (.run p)
  | settling {e r k} (code : ∀ b, Oneshot.Apart σ (k b)) : Apart σ (.settling e r (some k))
  | ended {e} (allowed : σ.Allows e) : Apart σ (.ended e)

/-- Whether an event counts: it tells of registrations and runs of continuations, or it is a note that
counts. -/
def Event.counts (σ : Sight V N S) : Event N → Bool
  | .queued _ _ _ _ | .inlined _ _ | .started _ _ | .finished _ _ | .bridged _ _ => true
  | .noted n => σ.heard n
  | _ => false

def State.Secluded (σ : Sight V N S) (s : State V N S) : Prop := ∀ p ∈ s.wakers, Apart σ p

/-- From `s` to `s'` nothing changes that counts. -/
structure Sidestep (σ : Sight V N S) (s s' : State V N S) : Prop where
  cells : s'.cells = s.cells
  now : s'.now = s.now
  nextCause : s.nextCause ≤ s'.nextCause
  history : ∃ entries, s'.history = entries ++ s.history ∧
    ∀ entry ∈ entries, entry.event.counts σ = false
  secluded : s.Secluded σ → s'.Secluded σ
  client : ∀ w x, (σ.client w s.client x → σ.client w s'.client x) ∧
    (σ.client w x s.client → σ.client w x s'.client)
  threads : s'.threads = s.threads ∨
    ∃ name body, Apart σ body ∧ s'.threads = s.threads.push ⟨name, .run body, []⟩

variable {σ : Sight V N S} {s : State V N S} {t : ThreadId} {fs : List (Frame V N S)}
  {n : Next V N S}

theorem Sidestep.refl (s : State V N S) : Sidestep σ s s :=
  ⟨rfl, rfl, Nat.le_refl _, ⟨[], rfl, by simp⟩, id, fun _ _ => ⟨id, id⟩, Or.inl rfl⟩

theorem Sidestep.log {s' : State V N S} (aside : Sidestep σ s s') {event : Event N}
    (silent : event.counts σ = false) : Sidestep σ s (s'.log t event) := by
  obtain ⟨cells, now, nextCause, ⟨entries, history, others⟩, secluded, client, threads⟩ := aside
  refine ⟨cells, now, nextCause, ⟨⟨t, event⟩ :: entries, congrArg (_ :: ·) history, ?_⟩, secluded,
    client, threads⟩
  intro entry member
  rcases List.mem_cons.mp member with rfl | before
  · exact silent
  · exact others entry before

theorem Sidestep.useCause {s' : State V N S} (aside : Sidestep σ s s') : Sidestep σ s s'.useCause :=
  { aside with nextCause := Nat.le_succ_of_le aside.nextCause }

theorem Sidestep.externals {s' : State V N S} (aside : Sidestep σ s s') (xs : Array (External V)) :
    Sidestep σ s { s' with externals := xs } :=
  { aside with }

inductive Prog.Goes (p : Prog V N S) (fs : List (Frame V N S)) :
    Doing V N S → List (Frame V N S) → Prop
  | runs {p'} (leads : p.Leads p') : Goes p fs (.run p') fs
  | asks {e a r k} (settles : p = .settle e a k) : Goes p fs (.settling e r (some k)) fs
  | guards {p' k} (guards : p = .guarded p' k) : Goes p fs (.run p') (.guarding k :: fs)

theorem Prog.Goes.apart {p : Prog V N S} (holds : ∀ p', p.Holds p' → Apart σ p')
    (leads : ∀ p', p.Leads p' → Apart σ p') {d : Doing V N S} {fs' : List (Frame V N S)}
    (goes : p.Goes fs d fs') : d.Apart σ ∧ ∃ above, fs' = above ++ fs ∧ ∀ f ∈ above, f.Apart σ := by
  cases goes with
  | runs lead => exact ⟨.run (leads _ lead), [], rfl, by simp⟩
  | asks settles =>
    subst settles
    exact ⟨.settling fun b => leads _ (.settle b), [], rfl, by simp⟩
  | guards guards =>
    subst guards
    refine ⟨.run (holds _ .guarded), [.guarding _], rfl, fun f member => ?_⟩
    rw [List.mem_singleton.mp member]
    exact .guarding fun e => leads _ (.guarded e)

end Sight
end Oneshot
