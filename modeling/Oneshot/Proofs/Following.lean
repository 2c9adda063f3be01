import Oneshot.Proofs.Permanence
import Oneshot.Proofs.Operations

/-! # One run follows another

Before two threads do an operation together, the second one comes back from what it has to itself.  It
does so by steps of its own, if no waker is in its way. -/
set_option autoImplicit false
namespace Oneshot
variable {V N S : Type} [Inhabited V]

namespace State

/-- A loop that wakes is among what `t` has to come back to. -/
def InLoop (s : State V N S) (t : ThreadId) : Prop :=
  ∃ thread, s.threads[t]? = some thread ∧ ∃ e ws, Frame.waking e ws ∈ thread.frames

/-- Wherever the run gets to, a thread that wakes wakers comes to the end of that by steps of its own: what
wakers do neither waits for another thread nor goes on for ever. -/
def WakersReturn (s : State V N S) : Prop :=
  ∀ s₁, Reaches s s₁ → ∀ t, ∃ n s₂, s₁.run (List.replicate n (.step t)) = some s₂ ∧ ¬ s₂.InLoop t

theorem WakersReturn.later {s s' : State V N S} (returns : s.WakersReturn) (reached : Reaches s s') :
    s'.WakersReturn :=
  fun s₁ rest => returns s₁ (reached.trans rest)

end State

structure Tracks (σ : Sight V N S) (w : World) (s s' : State V N S) : Prop where
  akin : Akin σ w s s'
  returns : s'.WakersReturn

variable {σ : Sight V N S} {w : World} {s s' : State V N S} {t t' : ThreadId}
  {th : Thread V N S} {name : Option String} {d : Doing V N S} {fs : List (Frame V N S)}
  {P Q : Doing V N S → List (Frame V N S) → Prop}

namespace Akin

end Akin

theorem Tracks.rightStep (tracks : Tracks σ w s s') (paired : (t, t') ∈ w.threads.pairs)
    (found : s.threads[t]? = some th) (found' : s'.threads[t']? = some ⟨name, d, fs⟩) {n : Next V N S}
    (moved : s'.next t' d fs = some n) (aside : Sidestep σ s' n.state)
    (aligned : Aligned σ w th.doing th.frames n.doing n.frames) :
    ∃ s₁, s'.step t' = some s₁ ∧ Tracks σ w s s₁ ∧
      s₁.threads[t']? = some ⟨name, n.doing, n.frames⟩ := by
  obtain ⟨_, _, found₁, found₁', names, _⟩ := tracks.akin.threads.both t t' paired
  cases found.symm.trans found₁
  cases found'.symm.trans found₁'
  have stepped := step_of_next found' moved
  exact ⟨_, stepped, ⟨(tracks.akin.right aside).setRight paired found ⟨names, aligned⟩,
    tracks.returns.later (.of_move (m := .step t') stepped)⟩,
    thread_after (transition_of_next moved) found'⟩

inductive Comes (σ : Sight V N S) (w : World) (s : State V N S) (t' : ThreadId)
    (P : Doing V N S → List (Frame V N S) → Prop) (s' : State V N S) : Prop
  | there {s₁ name d fs} (reached : Reaches s' s₁) (tracks : Tracks σ w s s₁)
      (found : s₁.threads[t']? = some ⟨name, d, fs⟩) (here : P d fs) : Comes σ w s t' P s'

namespace Comes

theorem later {s₁ : State V N S} (reached : Reaches s' s₁) (comes : Comes σ w s t' P s₁) :
    Comes σ w s t' P s' := by
  obtain ⟨rest, tracks, found, here⟩ := comes
  exact .there (reached.trans rest) tracks found here

theorem andThen (comes : Comes σ w s t' P s')
    (next : ∀ s₁ name d fs, Tracks σ w s s₁ → s₁.threads[t']? = some ⟨name, d, fs⟩ → P d fs →
      Comes σ w s t' Q s₁) : Comes σ w s t' Q s' := by
  obtain ⟨reached, tracks, found, here⟩ := comes
  exact (next _ _ _ _ tracks found here).later reached

theorem step (tracks : Tracks σ w s s') (paired : (t, t') ∈ w.threads.pairs)
    (found : s.threads[t]? = some th) (found' : s'.threads[t']? = some ⟨name, d, fs⟩) {n : Next V N S}
    (moved : s'.next t' d fs = some n) (aside : Sidestep σ s' n.state)
    (aligned : Aligned σ w th.doing th.frames n.doing n.frames)
    (next : ∀ s₁, Tracks σ w s s₁ → s₁.threads[t']? = some ⟨name, n.doing, n.frames⟩ →
      Comes σ w s t' P s₁) : Comes σ w s t' P s' := by
  obtain ⟨s₁, stepped, tracks', found₁⟩ := tracks.rightStep paired found found' moved aside aligned
  exact (next s₁ tracks' found₁).later (.of_move (m := .step t') stepped)

end Comes

section Resolutions
variable {k : Option (Bool → Prog V N S)} {fs' : List (Frame V N S)}
  (aligned : ∀ d top, Call σ k d top ∨ (top = [] ∧ Back σ k d) →
    Aligned σ w th.doing th.frames d (top ++ fs'))
include aligned

variable (paired : (t, t') ∈ w.threads.pairs) (found : s.threads[t]? = some th)
include paired found

end Resolutions
end Oneshot
