import Mathlib.Logic.Hydra
import Oneshot.Machine.State

/-! # The weight of code

A token stands for code that is still to run: programs that may come next, and how many steps of a call
there are before them.  A step of the machine takes a token away and puts lighter ones in its place, and
that cannot go on for ever (`wellFounded_lighter`). -/
set_option autoImplicit false
namespace Oneshot
variable {V N S : Type}

/-- `q` is a part of the program, right below its first operation. -/
def Prog.Child (q : Prog V N S) : Prog V N S → Prop
  | .ret _ | .err _ | .panic _ => False
  | .newCell _ k => ∃ c, q = k c
  | .look _ k => ∃ x, q = k x
  | .decide _ _ k | .settle _ _ k => ∃ b, q = k b
  | .get _ k | .getTimeout _ _ k => ∃ r, q = k r
  | .chain _ body k => q = body ∨ ∃ c, q = k c
  | .transform _ f k => (∃ v, q = f v) ∨ ∃ c, q = k c
  | .relay _ k | .newExternal k => ∃ e, q = k e
  | .lookExternal _ k => ∃ x, q = k x
  | .poll _ _ k => ∃ r, q = k r
  | .newWaker onWake k => q = onWake ∨ ∃ w, q = k w
  | .share _ k => ∃ cause, q = k cause
  | .guarded body k => q = body ∨ ∃ e, q = k e
  | .spawn _ body k => q = body ∨ ∃ t, q = k t
  | .join _ k => ∃ e, q = k e
  | .threadName k => ∃ name, q = k name
  | .note _ k | .update _ k => q = k
  | .ask k => ∃ client, q = k client

def Prog.Polls : Prog V N S → Prop
  | .poll _ _ _ => True
  | _ => False

inductive Prog.PollFree : Prog V N S → Prop
  | of {p : Prog V N S} (here : ¬ Prog.Polls p)
      (below : ∀ q : Prog V N S, Prog.Child q p → Prog.PollFree q) : Prog.PollFree p

/-- `q` may be run after the first operation of the program: a part of it, or the code of a waker that
it parks. -/
def Prog.Follows (q p : Prog V N S) : Prop := q.Child p ∨ (p.Polls ∧ q.PollFree)

theorem Prog.induct {P : Prog V N S → Prop} (step : ∀ p, (∀ q, q.Child p → P q) → P p)
    (p : Prog V N S) : P p := by
  induction p with
  | ret | err | panic => exact step _ fun _ child => child.elim
  | newCell _ _ ih | look _ _ ih | decide _ _ _ ih | settle _ _ _ ih | get _ _ ih
  | getTimeout _ _ _ ih | relay _ _ ih | newExternal _ ih | lookExternal _ _ ih | poll _ _ _ ih
  | share _ _ ih | join _ _ ih | threadName _ ih | ask _ ih =>
    exact step _ fun _ ⟨a, same⟩ => same ▸ ih a
  | chain _ _ _ first ih | newWaker _ _ first ih | guarded _ _ first ih | spawn _ _ _ first ih =>
    exact step _ fun _ child => child.elim (fun same => same ▸ first) fun ⟨a, same⟩ => same ▸ ih a
  | transform _ _ _ first ih =>
    exact step _ fun _ child =>
      child.elim (fun ⟨v, same⟩ => same ▸ first v) fun ⟨a, same⟩ => same ▸ ih a
  | note _ _ ih | update _ _ ih => exact step _ fun _ same => same ▸ ih

theorem acc_of_pollFree (p : Prog V N S) (free : p.PollFree) : Acc Prog.Follows p := by
  induction p using Prog.induct with
  | step p ih =>
    cases free with
    | of here below =>
      refine ⟨p, fun q follows => ?_⟩
      rcases follows with child | ⟨polls, -⟩
      · exact ih q child (below q child)
      · exact absurd polls here

theorem wellFounded_follows : WellFounded (Prog.Follows (V := V) (N := N) (S := S)) := by
  -- A program that polls has all those below it that never do, so these go first.
  refine ⟨fun p => ?_⟩
  induction p using Prog.induct with
  | step p ih =>
    refine ⟨p, fun q follows => ?_⟩
    rcases follows with child | ⟨-, free⟩
    · exact ih q child
    · exact acc_of_pollFree q free

/-- Programs of which one may be run, and a stage before that. -/
structure Token (V N S : Type) where
  code : Prog V N S → Prop
  stage : Nat

namespace Token

/-- `a` is at an earlier stage for the same programs or fewer, or it stands for what comes of one of
them. -/
def Below (a b : Token V N S) : Prop :=
  ((∀ p, a.code p → b.code p) ∧ a.stage < b.stage) ∨
    ∃ p, b.code p ∧ ∀ q, a.code q → q.Follows p

def Over (a : Token V N S) (M : Multiset (Token V N S)) : Prop := ∀ b ∈ M, b.Below a

@[simp] theorem over_zero (a : Token V N S) : a.Over 0 := fun _ none => by simp at none

@[simp] theorem over_singleton {a b : Token V N S} : a.Over {b} ↔ b.Below a := by simp [Over]

@[simp] theorem over_cons {a b : Token V N S} {M : Multiset (Token V N S)} :
    a.Over (b ::ₘ M) ↔ b.Below a ∧ a.Over M := by
  simp [Over]

@[simp] theorem over_add {a : Token V N S} {M M' : Multiset (Token V N S)} :
    a.Over (M + M') ↔ a.Over M ∧ a.Over M' := by
  simp only [Over, Multiset.mem_add]
  exact ⟨fun all => ⟨fun b here => all b (Or.inl here), fun b here => all b (Or.inr here)⟩,
    fun both b here => here.elim (both.1 b) (both.2 b)⟩

theorem acc_of_code {a : Token V N S} (n : Nat) (stage : a.stage = n)
    (known : ∀ p, a.code p → ∀ b : Token V N S, (∀ q, b.code q → q.Follows p) → Acc Below b) :
    Acc Below a := by
  induction n using Nat.strongRecOn generalizing a with
  | ind n ih =>
    refine ⟨a, fun b below => ?_⟩
    rcases below with ⟨fewer, earlier⟩ | ⟨p, here, code⟩
    · exact ih b.stage (by omega) rfl fun p member => known p (fewer p member)
    · exact known p here b code

theorem wellFounded_below : WellFounded (Below (V := V) (N := N) (S := S)) := by
  have each (p : Prog V N S) :
      ∀ b : Token V N S, (∀ q, b.code q → q.Follows p) → Acc Below b := by
    induction p using wellFounded_follows.induction with
    | _ p ih => exact fun b code => acc_of_code b.stage rfl fun q member => ih q (code q member)
  exact ⟨fun a => acc_of_code a.stage rfl fun p _ => each p⟩

end Token

/-- `M` comes of `M'` when tokens are taken away and lighter ones put in their place. -/
def Lighter : Multiset (Token V N S) → Multiset (Token V N S) → Prop :=
  Relation.TransGen (Relation.CutExpand Token.Below)

theorem wellFounded_lighter : WellFounded (Lighter (V := V) (N := N) (S := S)) :=
  (Token.wellFounded_below.cutExpand).transGen

theorem lighter_add (rest : Multiset (Token V N S)) {M M' : Multiset (Token V N S)}
    (lighter : Lighter M M') : Lighter (rest + M) (rest + M') := by
  induction lighter with
  | single step => exact .single ((Relation.cutExpand_add_left rest).mpr step)
  | tail _ step ih => exact .tail ih ((Relation.cutExpand_add_left rest).mpr step)

/-- One token is replaced by others that are below it, and some more are dropped. -/
theorem lighter_of_replace {a : Token V N S} {added : Multiset (Token V N S)} (below : a.Over added)
    (dropped : Multiset (Token V N S)) : Lighter added ({a} + dropped) := by
  induction dropped using Multiset.induction with
  | empty =>
    rw [add_zero]
    exact .single (Relation.cutExpand_singleton below)
  | cons b dropped ih =>
    have drop : Relation.CutExpand Token.Below ({a} + dropped) ({a} + b ::ₘ dropped) := by
      refine ⟨0, b, (fun _ none => by simp at none), ?_⟩
      rw [add_zero, add_assoc, ← Multiset.singleton_add b dropped, add_comm dropped]
    exact .tail ih drop

theorem lighter_of_split {a : Token V N S} {added M M' : Multiset (Token V N S)}
    (rest dropped : Multiset (Token V N S)) (after : M' = rest + added)
    (before : M = rest + ({a} + dropped)) (below : a.Over added) : Lighter M' M := by
  rw [after, before]
  exact lighter_add rest (lighter_of_replace below dropped)

end Oneshot
