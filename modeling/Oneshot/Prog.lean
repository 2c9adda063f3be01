import Oneshot.Snapshot

/-! # Programs over cells

A program is a tree: a node is one operation and its children are what follows each answer.  Bodies of
continuations, code of wakers and code of threads are programs too, so every one of them is finite.
`V` is the type of values, `N` of notes a program leaves in the history, `S` of the state that all
programs share beside the cells. -/
set_option autoImplicit false
namespace Oneshot

inductive Prog (V N S : Type) : Type
  | ret (v : V)
  | err (failure : Failure)
  | panic (payload : Payload)
  /-- A new cell, undecided or decided from the start. -/
  | newCell (start : Option (Attempt V)) (k : CellId → Prog V N S)
  | look (c : CellId) (k : Snapshot V → Prog V N S)
  | decide (c : CellId) (a : Attempt V) (k : Bool → Prog V N S)
  | get (c : CellId) (k : Reading V → Prog V N S)
  | getTimeout (c : CellId) (limit : Duration) (k : Reading V → Prog V N S)
  /-- Runs `body` once `c` is decided; the new cell gets its ending. -/
  | chain (c : CellId) (body : Prog V N S) (k : CellId → Prog V N S)
  /-- Runs `f` on the value of `c`; the new cell gets its ending, or what `c` has instead of a value. -/
  | transform (c : CellId) (f : V → Prog V N S) (k : CellId → Prog V N S)
  /-- A new external future that is settled as `c` is decided. -/
  | relay (c : CellId) (k : ExternalId → Prog V N S)
  | newExternal (k : ExternalId → Prog V N S)
  | lookExternal (e : ExternalId) (k : ExternalSnapshot V → Prog V N S)
  | settle (e : ExternalId) (a : Attempt V) (k : Bool → Prog V N S)
  | poll (e : ExternalId) (w : WakerId) (k : Option (Reading V) → Prog V N S)
  | newWaker (onWake : Prog V N S) (k : WakerId → Prog V N S)
  /-- Gives a failure an identity. -/
  | share (failure : Failure) (k : Cause → Prog V N S)
  /-- Runs `body` and goes on with its ending, a panic included. -/
  | guarded (body : Prog V N S) (k : Ending V → Prog V N S)
  | spawn (name : Option String) (body : Prog V N S) (k : ThreadId → Prog V N S)
  | join (t : ThreadId) (k : Ending V → Prog V N S)
  | threadName (k : Option String → Prog V N S)
  | note (n : N) (k : Prog V N S)
  | ask (k : S → Prog V N S)
  | update (f : S → S) (k : Prog V N S)

/-- Code that goes on with an `α`. -/
def Act (V N S α : Type) := (α → Prog V N S) → Prog V N S

namespace Act
variable {V N S α β : Type}

def andThen (x : Act V N S α) (f : α → Act V N S β) : Act V N S β := fun k => x fun a => f a k

instance : Monad (Act V N S) where
  pure a := fun k => k a
  bind := andThen

def note (n : N) : Act V N S Unit := fun k => .note n (k ())

def update (f : S → S) : Act V N S Unit := fun k => .update f (k ())

def times (x : Act V N S Unit) : Nat → Act V N S Unit
  | 0 => pure ()
  | n + 1 => andThen x fun _ => times x n

end Act
end Oneshot
