import Oneshot.Promise

/-! # Values of scripts

A value may hold a live future, which stays one value.  Integers have 64 bits and a sign. -/
set_option autoImplicit false
namespace Oneshot.Script

inductive Value
  | null
  | bool (b : Bool)
  | int (n : Int)
  | text (s : String)
  | list (items : List Value)
  | future (f : Future)

instance : Inhabited Value := ⟨.null⟩

def inRange (n : Int) : Bool := decide (-0x8000000000000000 ≤ n ∧ n < 0x8000000000000000)

/-- A function on values, its constants resolved. -/
inductive Function
  | identity
  | add (k : Int)
  | mul (k : Int)
  | concat (s : String)
  | wrap
  | const (v : Value)
  | panic (payload : Payload)
  | unknown (name : String)

namespace Function

def wrongType (name : String) : Except Payload Value := .error (.text (name ++ ": wrong type"))

def checked (name : String) (n : Int) : Except Payload Value :=
  if inRange n then .ok (.int n) else .error (.text (name ++ " overflow"))

def apply : Function → Value → Except Payload Value
  | .identity, v => .ok v
  | .add k, .int n => checked "add" (n + k)
  | .add _, _ => wrongType "add"
  | .mul k, .int n => checked "mul" (n * k)
  | .mul _, _ => wrongType "mul"
  | .concat s, .text t => .ok (.text (t ++ s))
  | .concat _, _ => wrongType "concat"
  | .wrap, v => .ok (.list [v])
  | .const v, _ => .ok v
  | .panic payload, _ => .error payload
  | .unknown name, _ => wrongType name

end Function
end Oneshot.Script
