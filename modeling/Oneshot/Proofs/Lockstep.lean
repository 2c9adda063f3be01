import Oneshot.Proofs.Akin

/-! # Steps that two runs take together

What the library does to a cell that both runs have, it does in both: the states stay akin and the two
threads aligned, in a world that may have grown by an identity or a cell. -/
set_option autoImplicit false
namespace Oneshot
variable {V N S : Type} [Inhabited V] {σ : Sight V N S} {w : World} {s s' : State V N S}
  {t t' : ThreadId} {fs fs' : List (Frame V N S)}

/-- What two steps leave behind corresponds. -/
def InStep (σ : Sight V N S) (w : World) (n n' : Next V N S) : Prop :=
  ∃ w', w.Grows w' ∧ Akin σ w' n.state n'.state ∧ Aligned σ w' n.doing n.frames n'.doing n'.frames

theorem InStep.same {n n' : Next V N S} (akin : Akin σ w n.state n'.state)
    (aligned : Aligned σ w n.doing n.frames n'.doing n'.frames) : InStep σ w n n' :=
  ⟨w, .refl w, akin, aligned⟩

section Decisions
variable {k k' : Option (Bool → Prog V N S)}
  (answers : Option.Rel (fun k k' => ∀ w' b, w.Grows w' → Agrees σ w' (k b) (k' b)) k k')
  (frames : List.Forall₂ (Frame.Alike σ w) fs fs')
include answers frames

end Decisions

end Oneshot
