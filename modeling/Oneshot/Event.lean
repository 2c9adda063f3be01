import Oneshot.Outcome

/-! # What a history records

Every registration, decision, start and finish of a continuation, every wake, and every refusal is an
event of the thread that caused it.  A continuation is named by the cell that it decides. -/
set_option autoImplicit false
namespace Oneshot

inductive Event (N : Type)
  | decided (c : CellId) (kind : Kind) (queued : Nat)
  | ignored (c : CellId) (attempted held : Kind)
  | queued (c result : CellId) (length : Nat) (dispatching : Bool)
  | inlined (c result : CellId)
  | started (c result : CellId)
  | finished (c result : CellId)
  /-- A transformation found no value in `c` and hands on what it found. -/
  | handedOn (c result : CellId)
  | bridged (c : CellId) (e : ExternalId)
  | bodyFailed (result : CellId) (failure : Failure)
  | bodyPanicked (result : CellId) (message : String)
  | timedOut (c : CellId) (limit : Duration)
  | resolved (e : ExternalId) (wakers : Nat)
  | refused (e : ExternalId)
  | parked (e : ExternalId) (w : WakerId)
  | woke (e : ExternalId) (w : WakerId)
  | noted (n : N)

structure Entry (N : Type) where
  thread : ThreadId
  event : Event N

end Oneshot
