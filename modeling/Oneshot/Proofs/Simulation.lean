import Oneshot.Proofs.Following
import Oneshot.Proofs.Weight

/-! # The second run does what the first does

Every move of the first run has its counterpart in the second, after which the states are akin again
(`follows_of_move`). -/
set_option autoImplicit false
namespace Oneshot
variable {V N S : Type} [Inhabited V]

/-- The second run can follow the first to `s₁`. -/
def Follows (R : World → State V N S → State V N S → Prop) (w : World) (s₁ s' : State V N S) : Prop :=
  ∃ w' s₁', w.Grows w' ∧ Reaches s' s₁' ∧ R w' s₁ s₁'

variable {σ : Sight V N S} {w : World} {s s₁ s' : State V N S} {t t' : ThreadId}
  {name name' : Option String} {fs fs' : List (Frame V N S)}

theorem Follows.goes {w' : World} {s₁' : State V N S} {m : Move} (returns : s'.WakersReturn)
    (grows : w.Grows w') (moved : s'.move m = some s₁') (akin : Akin σ w' s₁ s₁') :
    Follows (Tracks σ) w s₁ s' :=
  ⟨w', s₁', grows, .of_move moved, akin, returns.later (.of_move moved)⟩

theorem Comes.follows {P : Doing V N S → List (Frame V N S) → Prop} (comes : Comes σ w s t' P s')
    (next : ∀ s'' name d fs, Tracks σ w s s'' → s''.threads[t']? = some ⟨name, d, fs⟩ → P d fs →
      Follows (Tracks σ) w s₁ s'') : Follows (Tracks σ) w s₁ s' := by
  obtain ⟨reached, tracks, found, here⟩ := comes
  obtain ⟨w', s₁', grows, rest, tracks'⟩ := next _ _ _ _ tracks found here
  exact ⟨w', s₁', grows, reached.trans rest, tracks'⟩

omit [Inhabited V] in
theorem Prog.Leads.child {p q : Prog V N S} (leads : p.Leads q) : q.Child p := by
  cases leads with
  | note | update => exact rfl
  | newWaker w => exact Or.inr ⟨w, rfl⟩
  | guarded e => exact Or.inr ⟨e, rfl⟩
  | spawn u => exact Or.inr ⟨u, rfl⟩
  | newExternal a | lookExternal a | settle a | poll a | share a | join a | threadName a | ask a =>
    exact ⟨a, rfl⟩

end Oneshot
