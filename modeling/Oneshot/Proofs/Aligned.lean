import Mathlib.Data.List.Forall2
import Oneshot.Proofs.Agrees

/-! # Threads that correspond

A thread inside of a resolution, or about to do what its program has to itself, may be anywhere there,
whatever the other thread does; all else two threads do together.  What the two have to come back to is
alike. -/
set_option autoImplicit false
namespace Oneshot
variable {V N S : Type} [Inhabited V]

/-- Inside of a resolution that goes on with `k`, above the frames of its caller. -/
inductive Call (σ : Sight V N S) :
    Option (Bool → Prog V N S) → Doing V N S → List (Frame V N S) → Prop
  | asking {k e r} : Call σ k (.settling e r k) []
  | waking {k d above} (e ws) (apart : d.Apart σ) (frames : ∀ f ∈ above, f.Apart σ) :
      Call σ k d (above ++ .waking e ws :: won k)
  | woken {k e} (allowed : σ.Allows e) : Call σ (some k) (.ended e) [.resume (k true)]

/-- Back from such a resolution. -/
inductive Back (σ : Sight V N S) : Option (Bool → Prog V N S) → Doing V N S → Prop
  | answered k b : Back σ (some k) (.run (k b))
  | thrown {k payload} (noisy : ¬ σ.calm) : Back σ (some k) (.ended (.panicked payload))
  | past e : Back σ none (.ended e)

theorem Call.woke {σ : Sight V N S} {k : Option (Bool → Prog V N S)} {d : Doing V N S} (e : ExternalId)
    (ws : List WakerId) (apart : d.Apart σ) : Call σ k d (.waking e ws :: won k) := by
  have inside : Call σ k d ([] ++ .waking e ws :: won k) := .waking e ws apart (by simp)
  exact inside

/-- Code of a thread, above the frames that it has in common with the other: at an operation of its own,
or on the way to one of these programs. -/
inductive Heads (σ : Sight V N S) :
    Doing V N S → List (Frame V N S) → (Prog V N S → Prop) → Prop
  | here p : Heads σ (.run p) [] (· = p)
  | call {k d top} (calm : σ.calm) (call : Call σ (some k) d top) :
      Heads σ d top fun p => ∃ b, p = k b
  | begun {e a} (f : Bool → V) {k} :
      Heads σ (.run (.settle e a fun b => .ret (f b))) [.guarding k] fun p => ∃ e, p = k e
  | guarded {f : Bool → V} {k d top} (call : Call σ (some fun b => .ret (f b)) d top) :
      Heads σ d (top ++ [.guarding k]) fun p => ∃ e, p = k e
  | answered {v k} : Heads σ (.run (.ret v)) [.guarding k] fun p => ∃ e, p = k e
  | caught {e k} : Heads σ (.ended e) [.guarding k] fun p => ∃ e, p = k e

/-- A bridge settles its external future. -/
inductive Bridging (σ : Sight V N S) : Doing V N S → List (Frame V N S) → Prop
  | call {d top} (call : Call σ none d top) : Bridging σ d top
  | past e : Bridging σ (.ended e) []

inductive Aligned (σ : Sight V N S) (w : World) :
    Doing V N S → List (Frame V N S) → Doing V N S → List (Frame V N S) → Prop
  | code {d top P d' top' P' fs fs'} (heads : Heads σ d top P) (heads' : Heads σ d' top' P')
      (agree : ∀ p p', P p → P' p' → Agrees σ w p p')
      (frames : List.Forall₂ (Frame.Alike σ w) fs fs') : Aligned σ w d (top ++ fs) d' (top' ++ fs')
  | deciding {c o o' k k' fs fs'} (held : Held σ w c o o')
      (answers : Option.Rel (fun k k' => ∀ w' b, w.Grows w' → Agrees σ w' (k b) (k' b)) k k')
      (frames : List.Forall₂ (Frame.Alike σ w) fs fs') :
      Aligned σ w (.deciding c o k) fs (.deciding c o' k') fs'
  | announcing {c kind kind' queued queued' fs fs'}
      (frames : List.Forall₂ (Frame.Alike σ w) fs fs') :
      Aligned σ w (.announcing c kind queued) fs (.announcing c kind' queued') fs'
  | draining {c fs fs'} (frames : List.Forall₂ (Frame.Alike σ w) fs fs') :
      Aligned σ w (.draining c) fs (.draining c) fs'
  | starting {c task task' fs fs'} (shows : w.Shows c) (tasks : Task.Alike σ w task task')
      (frames : List.Forall₂ (Frame.Alike σ w) fs fs') :
      Aligned σ w (.starting c task) fs (.starting c task') fs'
  | relaying {c e e' r fs fs'} (hides : w.Hides r)
      (frames : List.Forall₂ (Frame.Alike σ w) fs fs') :
      Aligned σ w (.relaying c e) (.capturing r :: fs) (.relaying c e') (.capturing r :: fs')
  | bridging {d top d' top' r fs fs'} (bridging : Bridging σ d top) (bridging' : Bridging σ d' top')
      (hides : w.Hides r) (frames : List.Forall₂ (Frame.Alike σ w) fs fs') :
      Aligned σ w d (top ++ .capturing r :: fs) d' (top' ++ .capturing r :: fs')
  | checking {x x' fs fs'} (waits : Wait.Alike σ w x x')
      (frames : List.Forall₂ (Frame.Alike σ w) fs fs') :
      Aligned σ w (.checking x) fs (.checking x') fs'
  | asleep {x x' fs fs'} (waits : Wait.Alike σ w x x')
      (frames : List.Forall₂ (Frame.Alike σ w) fs fs') :
      Aligned σ w (.asleep x) fs (.asleep x') fs'
  | expired {c limit k k' fs fs'} (shows : w.Shows c)
      (go : ∀ w' r r', w.Grows w' → Reading.Alike σ w' r r' → Agrees σ w' (k r) (k' r'))
      (frames : List.Forall₂ (Frame.Alike σ w) fs fs') :
      Aligned σ w (.expired c limit k) fs (.expired c limit k') fs'
  | ended {e e' fs fs'} (ending : e.Alike σ w e') (frames : List.Forall₂ (Frame.Alike σ w) fs fs') :
      Aligned σ w (.ended e) fs (.ended e') fs'

variable {σ : Sight V N S} {s : State V N S} {t : ThreadId} {fs : List (Frame V N S)}
  {n : Next V N S} {w w' : World}

theorem Aligned.mono (grows : w.Grows w') {d d' : Doing V N S} {fs fs' : List (Frame V N S)}
    (aligned : Aligned σ w d fs d' fs') : Aligned σ w' d fs d' fs' := by
  have below : ∀ {fs fs' : List (Frame V N S)}, List.Forall₂ (Frame.Alike σ w) fs fs' →
      List.Forall₂ (Frame.Alike σ w') fs fs' :=
    fun frames => frames.imp fun _ _ => Frame.Alike.mono grows
  cases aligned with
  | code heads heads' agree frames =>
    exact .code heads heads' (fun p p' on on' => (agree p p' on on').mono grows) (below frames)
  | deciding held answers frames =>
    exact .deciding (held.mono grows)
      (Option.Rel.mono (fun _ _ go w'' b later => go w'' b (grows.trans later)) answers) (below frames)
  | announcing frames => exact .announcing (below frames)
  | draining frames => exact .draining (below frames)
  | starting shows tasks frames => exact .starting (shows.mono grows) (tasks.mono grows) (below frames)
  | relaying hides frames => exact .relaying (hides.mono grows) (below frames)
  | bridging bridging bridging' hides frames =>
    exact .bridging bridging bridging' (hides.mono grows) (below frames)
  | checking waits frames => exact .checking (waits.mono grows) (below frames)
  | asleep waits frames => exact .asleep (waits.mono grows) (below frames)
  | expired shows go frames =>
    exact .expired (shows.mono grows) (fun w'' r r' later => go w'' r r' (grows.trans later))
      (below frames)
  | ended ending frames => exact .ended (ending.mono grows) (below frames)

theorem Heads.not_ended {d : Doing V N S} {top : List (Frame V N S)} {P : Prog V N S → Prop}
    (heads : Heads σ d top P) {e : Ending V} (ended : d = .ended e) : top ≠ [] := by
  cases heads with
  | here p => cases ended
  | call calm call =>
    cases call with
    | asking => cases ended
    | waking => simp
    | woken => simp
  | guarded => simp
  | _ => simp

theorem Aligned.of_ended {d d' : Doing V N S} {fs fs' : List (Frame V N S)}
    (aligned : Aligned σ w d fs d' fs') {e : Ending V} (ended : d = .ended e) (empty : fs = []) :
    ∃ e', d' = .ended e' ∧ fs' = [] ∧ e.Alike σ w e' := by
  cases aligned with
  | ended ending frames =>
    subst empty
    cases ended
    cases frames
    exact ⟨_, rfl, rfl, ending⟩
  | code heads => exact absurd (List.append_eq_nil_iff.mp empty).1 (heads.not_ended ended)
  | bridging => simp at empty
  | _ => cases ended

theorem Call.not_asleep {k : Option (Bool → Prog V N S)} {d : Doing V N S}
    {top : List (Frame V N S)} (call : Call σ k d top) (x : Wait V N S) : d ≠ .asleep x := by
  rintro rfl
  cases call with
  | waking _ _ apart => cases apart

/-- A thread that waits has nothing to itself. -/
theorem Aligned.of_asleep {d d' : Doing V N S} {fs fs' : List (Frame V N S)}
    (aligned : Aligned σ w d fs d' fs') {x : Wait V N S} (asleep : d = .asleep x) :
    ∃ x', d' = .asleep x' ∧ x.Alike σ w x' ∧ List.Forall₂ (Frame.Alike σ w) fs fs' := by
  cases aligned with
  | asleep waits frames =>
    cases asleep
    exact ⟨_, rfl, waits, frames⟩
  | code heads =>
    cases heads with
    | call _ call => exact absurd asleep (call.not_asleep x)
    | guarded call => exact absurd asleep (call.not_asleep x)
    | _ => cases asleep
  | bridging bridging =>
    cases bridging with
    | call call => exact absurd asleep (call.not_asleep x)
    | past => cases asleep
  | _ => cases asleep

theorem Agrees.aligned {p p' : Prog V N S} (agrees : Agrees σ w p p') {fs fs' : List (Frame V N S)}
    (frames : List.Forall₂ (Frame.Alike σ w) fs fs') : Aligned σ w (.run p) fs (.run p') fs' := by
  change Aligned σ w _ ([] ++ fs) _ ([] ++ fs')
  refine .code (.here p) (.here p') ?_ frames
  rintro _ _ rfl rfl
  exact agrees

theorem Bridging.aligned {d d' : Doing V N S} (bridging : Bridging σ d []) (bridging' : Bridging σ d' [])
    {r : CellId} (hides : w.Hides r) {fs fs' : List (Frame V N S)}
    (frames : List.Forall₂ (Frame.Alike σ w) fs fs') :
    Aligned σ w d (.capturing r :: fs) d' (.capturing r :: fs') := by
  have aligned := Aligned.bridging bridging bridging' hides frames
  exact aligned

theorem Prog.Outside.aside {p : Prog V N S} (outside : p.Outside σ) : p.Aside σ := by
  cases p with
  | note n k => exact outside
  | update f k => exact outside
  | newExternal | lookExternal | poll | share | threadName | ask | settle | guarded | newWaker | spawn =>
    exact trivial
  | _ => exact outside.elim

theorem Prog.Outside.holds {p : Prog V N S} (outside : p.Outside σ) :
    ∀ p', p.Holds p' → Apart σ p' := by
  intro p' holds
  cases holds with
  | newWaker => exact outside
  | spawn => exact outside
  | guarded =>
    rcases outside with ⟨v, rfl⟩ | ⟨e, a, f, rfl⟩
    · exact .ret v
    · refine .goes trivial (fun _ none => nomatch none) fun p' leads => ?_
      cases leads with
      | settle b => exact .ret (f b)

end Oneshot
