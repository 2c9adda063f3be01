/-! # Records as text

A layout is a word, a name around one layout, or a named record of fields.  It is written on one line
or broken over lines with four blanks a level. -/
set_option autoImplicit false
namespace Oneshot.Text

mutual
inductive Layout
  | word (s : String)
  | around (name : String) (inner : Layout)
  | record (name : String) (fields : Fields)

inductive Fields
  | done
  | field (name : String) (value : Layout) (rest : Fields)
end

mutual
def Layout.line : Layout → String
  | .word s => s
  | .around name inner => name ++ "(" ++ inner.line ++ ")"
  | .record name .done => name
  | .record name (.field key value rest) =>
    name ++ " \x7b " ++ key ++ ": " ++ value.line ++ rest.line ++ " \x7d"

def Fields.line : Fields → String
  | .done => ""
  | .field key value rest => ", " ++ key ++ ": " ++ value.line ++ rest.line
end

def indent (level : Nat) : String := String.ofList (List.replicate (4 * level) ' ')

mutual
def Layout.lines (level : Nat) : Layout → String
  | .word s => s
  | .around name inner =>
    name ++ "(\n" ++ indent (level + 1) ++ inner.lines (level + 1) ++ ",\n" ++ indent level ++ ")"
  | .record name .done => name
  | .record name fields => name ++ " \x7b\n" ++ fields.lines level ++ indent level ++ "\x7d"

def Fields.lines (level : Nat) : Fields → String
  | .done => ""
  | .field key value rest =>
    indent (level + 1) ++ key ++ ": " ++ value.lines (level + 1) ++ ",\n" ++ rest.lines level
end

end Oneshot.Text
