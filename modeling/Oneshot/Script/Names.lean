/-! # Bindings of names, in the order of the names -/
set_option autoImplicit false
namespace Oneshot.Script

structure Names (α : Type) where
  entries : List (String × α)

namespace Names
variable {α : Type}

def empty : Names α := ⟨[]⟩

def seek (name : String) : List (String × α) → Option α
  | [] => none
  | (other, a) :: rest => if name = other then some a else seek name rest

def find? (names : Names α) (name : String) : Option α := seek name names.entries

def insert (name : String) (a : α) : List (String × α) → List (String × α)
  | [] => [(name, a)]
  | (other, b) :: rest =>
    if name = other then (name, a) :: rest
    else if name < other then (name, a) :: (other, b) :: rest
    else (other, b) :: insert name a rest

def bind (names : Names α) (name : String) (a : α) : Names α := ⟨insert name a names.entries⟩

def erase (names : Names α) (name : String) : Names α :=
  ⟨names.entries.filter fun entry => entry.1 ≠ name⟩

end Names
end Oneshot.Script
