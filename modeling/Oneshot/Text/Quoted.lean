import Oneshot.Text.Unprintable

/-! # Quoted text

Text between quotation marks with the marks, the backslash, the common controls, and every character
that is unprintable or extends its neighbour written as an escape. -/
set_option autoImplicit false
namespace Oneshot.Text

def hexadecimal (n : Nat) : List Char := Nat.toDigits 16 n

/-- A printable character of the basic block stands for itself, which spares it the tables. -/
def isPlain (c : Char) : Bool := ' ' ≤ c && c ≤ '~'

def escape (c : Char) : List Char :=
  match c with
  | '\x00' => ['\\', '0']
  | '\t' => ['\\', 't']
  | '\n' => ['\\', 'n']
  | '\r' => ['\\', 'r']
  | '"' => ['\\', '"']
  | '\\' => ['\\', '\\']
  | c =>
    if isPlain c then [c]
    else if isExtending c || isUnprintable c then
      ['\\', 'u', '\x7b'] ++ hexadecimal c.toNat ++ ['\x7d']
    else [c]

def quoted (s : String) : String :=
  String.ofList ('"' :: (s.toList.flatMap escape ++ ['"']))

end Oneshot.Text
