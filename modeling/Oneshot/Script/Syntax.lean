import Oneshot.Script.Datum
import Oneshot.Outcome

/-! # Scripts

A script is a list of operations.  A field that an operation may lack, or that may be of the wrong form,
is an option or has a case for it: what is missing is found out when the operation is performed. -/
set_option autoImplicit false
namespace Oneshot.Script

structure DurationExpr where
  secs : Option String
  nanos : Option Int

inductive ValueExpr
  | null
  | bool (b : Bool)
  | int (n : Int)
  | text (s : String)
  | list (items : List ValueExpr)
  | future (name : Option String)
  | unreadable

mutual
inductive ErrorExpr
  | message (text : String)
  | system (kind : String)
  | systemWith (kind text : String)
  | labelled (text : String)
  | wrapping (text : String) (source : ErrorExpr)
  | unread (error : ReadErrorExpr)
  | unreadable

inductive ReadErrorExpr
  | cancelled
  | timeout (limit : DurationExpr)
  | failed (error : ErrorExpr)
  | unreadable
end

inductive FunctionExpr
  | identity
  | add (k : Option Int)
  | mul (k : Option Int)
  | concat (s : Option String)
  | wrap
  | const (value : ValueExpr)
  | panic (payload : Payload)
  | unknown (name : String)

/-- What a continuation does last. -/
inductive Result
  | read (future : String) (limit : Option DurationExpr) (function : FunctionExpr)
      (complete : Option String)
  | error (error : ErrorExpr)
  | panic (payload : Payload)
  | value (value : ValueExpr)

inductive AttemptExpr
  | complete (value : ValueExpr)
  | fail (error : ErrorExpr)
  | cancel

/-- The names of objects that an operation has in its fields. -/
structure Keys where
  on : Option String
  as : Option String
  p : Option String
  f : Option String

mutual
inductive Op
  | mk (name : Datum) (keys : Keys) (action : Action)

inductive Action
  | new
  | done (value : ValueExpr)
  | failed (error : ErrorExpr)
  | cancelled
  | newExternal
  | future
  | clone
  | drop
  | unwrap
  | complete (value : ValueExpr)
  | fail (error : ErrorExpr)
  | cancel
  | isDone
  | isCancelled
  | debug (alternate : Bool)
  | tryGet
  | get
  | getTimeout (limit : DurationExpr)
  | explain
  | error (error : ReadErrorExpr)
  | sameCause (other : Option String)
  | andThen (label : Datum) (body : List Op) (result : Result)
  | map (label : Datum) (body : List Op) (function : FunctionExpr)
  | toExternal
  | waker (name : Option String) (body : List Op) (panic : Option Payload)
  | poll (waker : Option String)
  | blockOn
  | thread (name : Option String) (body : List Op)
  | reader (limit : Option DurationExpr)
  | join (reader : Option String)
  | race (attempts : List AttemptExpr) (registrars : Nat)
  | again (times : Nat) (body : List Op)
  | unknown
end

instance : Inhabited ValueExpr := ⟨.null⟩

instance : Inhabited ErrorExpr := ⟨.unreadable⟩

instance : Inhabited ReadErrorExpr := ⟨.unreadable⟩

instance : Inhabited Op := ⟨.mk .null ⟨none, none, none, none⟩ .unknown⟩

def Op.name : Op → Datum
  | .mk name _ _ => name

def Op.keys : Op → Keys
  | .mk _ keys _ => keys

structure Request where
  ops : List Op
  trace : Bool

end Oneshot.Script
