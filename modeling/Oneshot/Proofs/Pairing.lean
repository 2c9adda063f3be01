/-! # Places that are paired

A `Pairing` says which places of one array correspond to which of another, one to one.  Two arrays are a
`Spread` when items at paired places are related and all other items have a property of their own. -/
set_option autoImplicit false
namespace Oneshot

structure Pairing where
  pairs : List (Nat × Nat)
  oneToOne : ∀ {a b a' b'}, (a, b) ∈ pairs → (a', b') ∈ pairs → (a = a' ↔ b = b')

namespace Pairing

def Within (P : Pairing) (m n : Nat) : Prop := ∀ a b, (a, b) ∈ P.pairs → a < m ∧ b < n

theorem Within.mono {P : Pairing} {m n m' n' : Nat} (within : P.Within m n) (left : m ≤ m')
    (right : n ≤ n') : P.Within m' n' :=
  fun a b member =>
    ⟨Nat.lt_of_lt_of_le (within a b member).1 left, Nat.lt_of_lt_of_le (within a b member).2 right⟩

def add (P : Pairing) (a b : Nat) (within : P.Within a b) : Pairing where
  pairs := (a, b) :: P.pairs
  oneToOne := by
    intro c d c' d' member member'
    rcases List.mem_cons.mp member with same | old <;>
      rcases List.mem_cons.mp member' with same' | old'
    · cases same
      cases same'
      simp
    · cases same
      have := within c' d' old'
      omega
    · cases same'
      have := within c d old
      omega
    · exact P.oneToOne old old'

theorem within_add {P : Pairing} {a b : Nat} (within : P.Within a b) :
    (P.add a b within).Within (a + 1) (b + 1) := by
  intro c d member
  rcases List.mem_cons.mp member with same | old
  · cases same
    exact ⟨Nat.lt_succ_self _, Nat.lt_succ_self _⟩
  · have := within c d old
    omega

def flip (P : Pairing) : Pairing where
  pairs := P.pairs.map Prod.swap
  oneToOne := by
    intro a b a' b' member member'
    simp only [List.mem_map, Prod.exists, Prod.swap_prod_mk, Prod.mk.injEq] at member member'
    obtain ⟨_, _, member, rfl, rfl⟩ := member
    obtain ⟨_, _, member', rfl, rfl⟩ := member'
    exact (P.oneToOne member member').symm

@[simp] theorem mem_flip {P : Pairing} {a b : Nat} : (a, b) ∈ P.flip.pairs ↔ (b, a) ∈ P.pairs := by
  simp only [flip, List.mem_map, Prod.exists, Prod.swap_prod_mk, Prod.mk.injEq]
  constructor
  · rintro ⟨_, _, member, rfl, rfl⟩
    exact member
  · exact fun member => ⟨b, a, member, rfl, rfl⟩

end Pairing

/-- Items at paired places correspond, and all others stand alone. -/
structure Spread {α : Type} (rel : α → α → Prop) (lone : α → Prop) (P : Pairing) (xs ys : Array α) :
    Prop where
  both : ∀ a b : Nat, (a, b) ∈ P.pairs → ∃ x y, xs[a]? = some x ∧ ys[b]? = some y ∧ rel x y
  left : ∀ (a : Nat) x, xs[a]? = some x → (∀ b, (a, b) ∉ P.pairs) → lone x
  right : ∀ (b : Nat) y, ys[b]? = some y → (∀ a, (a, b) ∉ P.pairs) → lone y

namespace Spread
variable {α : Type} {rel : α → α → Prop} {lone : α → Prop} {P : Pairing} {xs ys : Array α}

theorem flip (spread : Spread rel lone P xs ys) : Spread (fun y x => rel x y) lone P.flip ys xs where
  both b a member := by
    obtain ⟨x, y, found, found', related⟩ := spread.both a b (Pairing.mem_flip.mp member)
    exact ⟨y, x, found', found, related⟩
  left b y found alone := spread.right b y found fun a member => alone a (Pairing.mem_flip.mpr member)
  right a x found alone := spread.left a x found fun b member => alone b (Pairing.mem_flip.mpr member)

theorem of_flip (spread : Spread (fun y x => rel x y) lone P.flip ys xs) : Spread rel lone P xs ys where
  both a b member := by
    obtain ⟨y, x, found', found, related⟩ := spread.both b a (Pairing.mem_flip.mpr member)
    exact ⟨x, y, found, found', related⟩
  left a x found alone := spread.right a x found fun b member => alone b (Pairing.mem_flip.mp member)
  right b y found alone := spread.left b y found fun a member => alone a (Pairing.mem_flip.mp member)

theorem imp {rel' : α → α → Prop} (implies : ∀ x y, rel x y → rel' x y)
    (spread : Spread rel lone P xs ys) : Spread rel' lone P xs ys where
  both a b member := by
    obtain ⟨x, y, found, found', related⟩ := spread.both a b member
    exact ⟨x, y, found, found', implies x y related⟩
  left := spread.left
  right := spread.right

theorem within (spread : Spread rel lone P xs ys) : P.Within xs.size ys.size := by
  intro a b member
  obtain ⟨x, y, found, found', _⟩ := spread.both a b member
  exact ⟨(Array.getElem?_eq_some_iff.mp found).1, (Array.getElem?_eq_some_iff.mp found').1⟩

theorem pushLeft (spread : Spread rel lone P xs ys) {x : α} (alone : lone x) :
    Spread rel lone P (xs.push x) ys where
  both a b member := by
    obtain ⟨x', y, found, found', related⟩ := spread.both a b member
    have inside := (Array.getElem?_eq_some_iff.mp found).1
    exact ⟨x', y, by rw [Array.getElem?_push_lt inside, ← Array.getElem?_eq_getElem inside, found],
      found', related⟩
  left a x' found others := by
    rw [Array.getElem?_push] at found
    split at found
    next =>
      cases found
      exact alone
    next => exact spread.left a x' found others
  right := spread.right

theorem pushRight (spread : Spread rel lone P xs ys) {y : α} (alone : lone y) :
    Spread rel lone P xs (ys.push y) :=
  (spread.flip.pushLeft alone).of_flip

theorem pushBoth (spread : Spread rel lone P xs ys) {x y : α} (related : rel x y) :
    Spread rel lone (P.add xs.size ys.size spread.within) (xs.push x) (ys.push y) where
  both a b member := by
    rcases List.mem_cons.mp member with same | old
    · cases same
      exact ⟨x, y, by simp, by simp, related⟩
    · obtain ⟨x', y', found, found', related'⟩ := spread.both a b old
      have inside := (Array.getElem?_eq_some_iff.mp found).1
      have inside' := (Array.getElem?_eq_some_iff.mp found').1
      exact ⟨x', y', by rw [Array.getElem?_push_lt inside, ← Array.getElem?_eq_getElem inside, found],
        by rw [Array.getElem?_push_lt inside', ← Array.getElem?_eq_getElem inside', found'], related'⟩
  left a x' found others := by
    rw [Array.getElem?_push] at found
    split at found
    next new => exact absurd (List.mem_cons_self ..) (new ▸ others ys.size)
    next => exact spread.left a x' found fun b member => others b (List.mem_cons_of_mem _ member)
  right b y' found others := by
    rw [Array.getElem?_push] at found
    split at found
    next new => exact absurd (List.mem_cons_self ..) (new ▸ others xs.size)
    next => exact spread.right b y' found fun a member => others a (List.mem_cons_of_mem _ member)

theorem setBoth (spread : Spread rel lone P xs ys) {a b : Nat} (member : (a, b) ∈ P.pairs) {x y : α}
    (related : rel x y) : Spread rel lone P (xs.setIfInBounds a x) (ys.setIfInBounds b y) where
  both c d member' := by
    obtain ⟨x', y', found, found', related'⟩ := spread.both c d member'
    have inside := (Array.getElem?_eq_some_iff.mp found).1
    have inside' := (Array.getElem?_eq_some_iff.mp found').1
    by_cases same : a = c
    · have same' := (P.oneToOne member member').mp same
      subst same same'
      exact ⟨x, y, by simp [inside], by simp [inside'], related⟩
    · have other : b ≠ d := fun same' => same ((P.oneToOne member member').mpr same')
      exact ⟨x', y', by rwa [Array.getElem?_setIfInBounds_ne same],
        by rwa [Array.getElem?_setIfInBounds_ne other], related'⟩
  left c x' found others := by
    have other : a ≠ c := fun same => others b (same ▸ member)
    rw [Array.getElem?_setIfInBounds_ne other] at found
    exact spread.left c x' found others
  right d y' found others := by
    have other : b ≠ d := fun same => others a (same ▸ member)
    rw [Array.getElem?_setIfInBounds_ne other] at found
    exact spread.right d y' found others

theorem setLeft (spread : Spread rel lone P xs ys) {a b : Nat} (member : (a, b) ∈ P.pairs) {x y : α}
    (found : ys[b]? = some y) (related : rel x y) : Spread rel lone P (xs.setIfInBounds a x) ys := by
  have same : ys.setIfInBounds b y = ys := by
    ext c inside inside'
    · simp
    · rw [Array.getElem_setIfInBounds]
      split
      next here =>
        subst here
        exact (Array.getElem?_eq_some_iff.mp found).2.symm
      next => rfl
  exact same ▸ spread.setBoth member related

theorem setRight (spread : Spread rel lone P xs ys) {a b : Nat} (member : (a, b) ∈ P.pairs) {x y : α}
    (found : xs[a]? = some x) (related : rel x y) : Spread rel lone P xs (ys.setIfInBounds b y) :=
  (spread.flip.setLeft (Pairing.mem_flip.mpr member) found related).of_flip

end Spread

end Oneshot
