import Oneshot.Failure.Text
import Oneshot.Script.Client
import Oneshot.Script.Syntax

/-! # Values of expressions

Each expression has a value or comes to the fault of its first part that is of the wrong form.  A
function comes to no fault: in place of an operand of the wrong form it takes a plain one. -/
set_option autoImplicit false
namespace Oneshot.Script

/-- The value of a digit string with at most a plus sign before it. -/
def natural? (s : String) : Option Nat :=
  let digits :=
    match s.toList with
    | '+' :: rest => rest
    | cs => cs
  if digits.isEmpty || !digits.all Char.isDigit then none
  else some (digits.foldl (fun n c => 10 * n + (c.toNat - '0'.toNat)) 0)

def DurationExpr.evaluate (d : DurationExpr) : Except Fault Duration :=
  match d.secs.bind natural? with
  | none => .error (.badOp "secs")
  | some secs =>
    if secondsLimit ≤ secs then .error (.badOp "secs")
    else
      match d.nanos with
      | none => .error (.badOp "nanos")
      | some nanos =>
        if nanos < 0 then .error (.badOp "nanos")
        else
          match Duration.ofParts? secs nanos.toNat with
          | none => .error (.badOp "nanos")
          | some limit => .ok limit

def evaluateLimit (d : DurationExpr) : Trial Duration := ExceptT.mk (pure d.evaluate)

def evaluateLimit? : Option DurationExpr → Trial (Option Duration)
  | none => pure none
  | some d => do return some (← evaluateLimit d)

mutual
def ValueExpr.evaluate (this : Option Future) : ValueExpr → Trial Value
  | .null => pure .null
  | .bool b => pure (.bool b)
  | .int n => if inRange n then pure (.int n) else throw (.badOp "value")
  | .text s => pure (.text s)
  | .list items => do return .list (← evaluateAll this items)
  | .future name => do return .future (← Trial.theFuture this "future" name)
  | .unreadable => throw (.badOp "value")

def evaluateAll (this : Option Future) : List ValueExpr → Trial (List Value)
  | [] => pure []
  | e :: rest => do
    let first ← e.evaluate this
    let others ← evaluateAll this rest
    return first :: others
end

def systemKind (name : String) : Trial SystemKind :=
  match SystemKind.ofName? name with
  | none => throw (.badOp "io")
  | some kind => pure kind

mutual
def ErrorExpr.evaluate : ErrorExpr → Trial Failure
  | .message s => pure (.message s)
  | .system kind => do return .system (← systemKind kind)
  | .systemWith kind s => do return .systemWith (← systemKind kind) s
  | .labelled s => pure (.labelled s)
  | .wrapping s source => do return .wrapping s (← source.evaluate)
  | .unread error => do return .unread (← error.evaluate)
  | .unreadable => throw (.badOp "error")

def ReadErrorExpr.evaluate : ReadErrorExpr → Trial ReadError
  | .cancelled => pure .cancelled
  | .timeout limit => do return .timeout (← evaluateLimit limit)
  | .failed error => do
    let failure ← error.evaluate
    let cause ← Trial.lift (Prog.share failure)
    return .failed cause
  | .unreadable => throw (.badOp "error")
end

/-- A number that is missing or out of range counts as zero. -/
def operand (k : Option Int) : Int := (k.filter inRange).getD 0

/-- A constant that cannot be had counts as null. -/
def constant (this : Option Future) (e : ValueExpr) : Code Value := do
  match ← (e.evaluate this).run with
  | .ok v => return v
  | .error _ => return .null

def FunctionExpr.evaluate (this : Option Future) : FunctionExpr → Code Function
  | .identity => pure .identity
  | .add k => pure (.add (operand k))
  | .mul k => pure (.mul (operand k))
  | .concat s => pure (.concat (s.getD ""))
  | .wrap => pure .wrap
  | .const e => do return .const (← constant this e)
  | .panic payload => pure (.panic payload)
  | .unknown name => pure (.unknown name)

def AttemptExpr.evaluate (this : Option Future) : AttemptExpr → Trial (Attempt Value)
  | .complete e => do return .complete (← e.evaluate this)
  | .fail error => do return .fail (← error.evaluate)
  | .cancel => pure .cancel

def evaluateAttempts (this : Option Future) : List AttemptExpr → Trial (List (Attempt Value))
  | [] => pure []
  | e :: rest => do
    let first ← e.evaluate this
    let others ← evaluateAttempts this rest
    return first :: others

end Oneshot.Script
