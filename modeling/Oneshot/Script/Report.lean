import Oneshot.Failure.Text
import Oneshot.Script.Client

/-! # Reports

What is told of values, readings and causes.  A value that holds a future shows it as it is at that
moment, and causes are numbered in the order in which they are first told of. -/
set_option autoImplicit false
namespace Oneshot.Script

def describe (handle : Handle) : Code Datum := fun k =>
  handle.layout fun layout => k (.text layout.line)

mutual
def Value.report : Value → Code Datum
  | .null => pure .null
  | .bool b => pure (.bool b)
  | .int n => pure (.int n)
  | .text s => pure (.text s)
  | .list items => do return .list (← reportAll items)
  | .future f => do return .object [("future", ← describe (.future f))]

def reportAll : List Value → Code (List Datum)
  | [] => pure []
  | v :: rest => do
    let first ← v.report
    let others ← reportAll rest
    return first :: others
end

def failureKind : Failure → String
  | .message _ => "string"
  | .system kind => "io:" ++ kind.name
  | .systemWith kind _ => "io:" ++ kind.name
  | .labelled _ => "custom"
  | .wrapping _ _ => "custom"
  | .panicked _ => "panicked"
  | .unread _ => "error"

mutual
def reportReadError : ReadError → Code Datum
  | .timeout limit =>
    pure (.object
      [("err", .text "timeout"), ("text", .text (ReadError.timeout limit).text),
        ("is_timeout", .bool true), ("cause", .null)])
  | .cancelled =>
    pure (.object
      [("err", .text "cancelled"), ("text", .text ReadError.cancelled.text),
        ("is_timeout", .bool false), ("cause", .null)])
  | .failed cause => do
    let told ← reportCause cause
    return .object
      [("err", .text "failed"), ("text", .text (ReadError.failed cause).text),
        ("is_timeout", .bool false), ("cause", told)]

def reportCause : Cause → Code Datum
  | .mk id failure => do
    let n ← Code.number id
    let more ← reportInside failure
    return .object
      ([("id", .nat n), ("kind", .text (failureKind failure)), ("text", .text failure.text),
        ("sources", .texts failure.sources)] ++ more)

/-- What only some kinds of cause tell. -/
def reportInside : Failure → Code (List (String × Datum))
  | .message _ => pure []
  | .system _ => pure []
  | .systemWith _ _ => pure []
  | .labelled _ => pure []
  | .wrapping _ _ => pure []
  | .panicked message => pure [("message", .text message)]
  | .unread error => do return [("inner", ← reportReadError error)]
end

def reportReading : Reading Value → Code Datum
  | .ok v => do return .object [("ok", ← v.report)]
  | .error error => reportReadError error

def reportReading? : Option (Reading Value) → Code Datum
  | none => pure .null
  | some r => reportReading r

/-- A read error with the layout that shows its structure and the messages of its sources. -/
def explain (error : ReadError) : Code Datum := do
  let told ← reportReadError error
  return .object
    [("error", told), ("debug", .text error.layout.line), ("sources", .texts error.sources)]

def logEntry (fields : List (String × Datum)) : Code Unit := Act.note (.entry (.object fields))

end Oneshot.Script
