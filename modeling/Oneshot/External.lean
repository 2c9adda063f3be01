import Oneshot.Prog

/-! # The pollable future

It holds no reading yet, and then the wakers of the tasks that asked for one, or a reading for ever and
no wakers. -/
set_option autoImplicit false
namespace Oneshot

structure External (V : Type) where
  value : Option (Reading V)
  wakers : List WakerId

namespace External
variable {V : Type}

def new : External V := ⟨none, []⟩

def snapshot (x : External V) : ExternalSnapshot V := ⟨x.value, x.wakers.length⟩

def settle (_x : External V) (r : Reading V) : External V := ⟨some r, []⟩

/-- Stores a waker unless one that wakes the same task is stored already; see `map_storeWaker`. -/
def park (x : External V) (w : WakerId) : External V :=
  if w ∈ x.wakers then x else { x with wakers := x.wakers ++ [w] }

theorem mem_wakers_park {x : External V} {w u : WakerId} :
    u ∈ (x.park w).wakers ↔ u ∈ x.wakers ∨ u = w := by
  unfold park
  split
  next stored => exact ⟨Or.inl, fun h => h.elim id fun e => e ▸ stored⟩
  next => simp

@[simp] theorem value_park (x : External V) (w : WakerId) : (x.park w).value = x.value := by
  unfold park
  split <;> rfl

end External

end Oneshot
