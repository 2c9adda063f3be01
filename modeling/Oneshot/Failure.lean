import Oneshot.Duration

/-! # Failures, causes and read errors

A failure is what a producer reports.  Once a cell holds it, it is a cause: the failure together with
an identity that every reader of the cell shares.  A read error is why reading gave no value; it may
itself be used as a failure. -/
set_option autoImplicit false
namespace Oneshot

abbrev CauseId := Nat

inductive SystemKind
  | notFound | permissionDenied | unexpectedEof | other | timedOut | interrupted | invalidData
  | invalidInput | alreadyExists | wouldBlock | brokenPipe
  deriving DecidableEq

mutual
inductive Failure
  | message (text : String)
  | system (kind : SystemKind)
  | systemWith (kind : SystemKind) (text : String)
  | labelled (text : String)
  | wrapping (text : String) (source : Failure)
  | panicked (message : String)
  | unread (error : ReadError)

inductive ReadError
  | timeout (limit : Duration)
  | cancelled
  | failed (cause : Cause)

inductive Cause
  | mk (id : CauseId) (failure : Failure)
end

namespace Cause

def id : Cause → CauseId
  | .mk id _ => id

def failure : Cause → Failure
  | .mk _ failure => failure

@[simp] theorem id_mk (id : CauseId) (f : Failure) : (Cause.mk id f).id = id := rfl

@[simp] theorem failure_mk (id : CauseId) (f : Failure) : (Cause.mk id f).failure = f := rfl

end Cause

namespace ReadError

/-- The producer's failure, when there is one. -/
def cause? : ReadError → Option Cause
  | .failed cause => some cause
  | _ => none

/-- Whether reading again may still succeed. -/
def isTimeout : ReadError → Bool
  | .timeout _ => true
  | _ => false

theorem cause?_eq_some_iff {e : ReadError} {c : Cause} : e.cause? = some c ↔ e = .failed c := by
  cases e <;> simp [cause?]

theorem isTimeout_iff {e : ReadError} : e.isTimeout = true ↔ ∃ d, e = .timeout d := by
  cases e <;> simp [isTimeout]

end ReadError
end Oneshot
