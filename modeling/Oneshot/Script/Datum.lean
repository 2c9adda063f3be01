/-! # Data that answers are made of -/
set_option autoImplicit false
namespace Oneshot.Script

inductive Datum
  | null
  | bool (b : Bool)
  /-- `mantissa` divided by ten, `places` times. -/
  | number (mantissa : Int) (places : Nat)
  | text (s : String)
  | list (items : List Datum)
  | object (fields : List (String × Datum))

instance : Inhabited Datum := ⟨.null⟩

namespace Datum

def nat (n : Nat) : Datum := .number n 0

def int (n : Int) : Datum := .number n 0

def texts (ss : List String) : Datum := .list (ss.map .text)

end Datum
end Oneshot.Script
