import Oneshot.Machine.Schedule
import Oneshot.Script.Perform

/-! # Transcripts

A request runs on one thread, each of its operations ending with a note of what came of it.  Its answer
is read off the history: between two such notes stands the log of a step. -/
set_option autoImplicit false
namespace Oneshot.Script

/-- The objects that an operation names, as they are after it. -/
def shown (keys : Keys) : Code (List (String × Datum)) :=
  let view (key : String) (name : Option String) : Code (List (String × Datum)) := do
    match name with
    | none => return []
    | some name =>
      match (← Code.client).objects.find? name with
      | none => return []
      | some handle => return [(key, ← describe handle)]
  do
    let on ← view "on" keys.on
    let as ← view "as" keys.as
    let p ← view "p" keys.p
    let f ← view "f" keys.f
    return on ++ as ++ p ++ f

def performSteps : List Op → Code Unit
  | [] => pure ()
  | op :: rest => do
    let answer ← op.perform none
    let objects ← shown op.keys
    Act.note (.step (("r", answer) :: objects))
    performSteps rest

def readHandle : Handle → Code Datum
  | .future f => do reportReading? (← f.tryGet)
  | other => do return .list [.bool (← other.isDone), .bool (← other.isCancelled)]

def closeAll : List (String × Handle) → Code (List (String × Datum))
  | [] => pure []
  | (name, handle) :: rest => do
    let state ← describe handle
    let read ← readHandle handle
    let others ← closeAll rest
    return (name, .list [state, read]) :: others

def Request.program (request : Request) : Prog Value Note Client :=
  Code.program do
    performSteps request.ops
    let closing ← closeAll (← Code.client).objects.entries
    Act.note (.closing (.object closing))
    return .value .null

def traced (level message : String) (fields : List (String × Datum)) : Option Datum :=
  some (.object (("level", .text level) :: ("trace", .text message) :: fields))

def traceOf : Event Note → Option Datum
  | .decided _ kind queued =>
    traced "TRACE" "cell decided" [("outcome", .text kind.name), ("continuations", .nat queued)]
  | .ignored _ attempted held =>
    traced "DEBUG" "cell already decided, ignoring"
      [("attempted", .text attempted.name), ("decided", .text held.name)]
  | .queued _ _ length dispatching =>
    traced "TRACE" "continuation queued"
      [("queued", .nat length), ("dispatching", .bool dispatching)]
  | .inlined _ _ => traced "TRACE" "cell already decided, running continuation inline" []
  | .timedOut _ limit =>
    traced "DEBUG" "timed out waiting for cell" [("timeout", .text limit.text)]
  | .bodyFailed _ failure =>
    traced "DEBUG" "continuation failed" [("error", .text failure.text)]
  | .bodyPanicked _ message =>
    traced "ERROR" "continuation panicked" [("panic", .text message)]
  | .resolved _ wakers => traced "TRACE" "external future resolved" [("wakers", .nat wakers)]
  | _ => none

structure Transcript where
  /-- The log of the step that is not over yet, latest first. -/
  log : List Datum
  steps : List Datum
  closing : Datum

namespace Transcript

def empty : Transcript := ⟨[], [], .object []⟩

def stepDatum (fields : List (String × Datum)) (log : List Datum) : Datum :=
  .object (if log.isEmpty then fields else fields ++ [("log", .list log.reverse)])

def add (trace : Bool) (x : Transcript) : Event Note → Transcript
  | .noted (.entry d) => { x with log := d :: x.log }
  | .noted (.step fields) => { x with log := [], steps := stepDatum fields x.log :: x.steps }
  | .noted (.closing d) => { x with closing := d }
  | event =>
    match trace, traceOf event with
    | true, some d => { x with log := d :: x.log }
    | _, _ => x

/-- Threads without a name are not heard of, nor are those that they begin. -/
def heard (s : State Value Note Client) (entry : Entry Note) : Bool :=
  (s.threads[entry.thread]?.bind Thread.name).isSome

def ofState (trace : Bool) (s : State Value Note Client) : Transcript :=
  (s.history.filter (heard s)).foldr (fun entry x => add trace x entry.event) empty

def datum (x : Transcript) : Datum :=
  .object [("steps", .list x.steps.reverse), ("end", x.closing)]

end Transcript

/-- More steps than any request takes that ends. -/
def stepLimit : Nat := 0x1000000000000000

def Request.answer (request : Request) : Datum :=
  let final := (State.start Client.empty request.program).advance stepLimit
  (Transcript.ofState request.trace final).datum

/-- The answer to what is no request, with the part that is missing. -/
def refusal (part : String) : Datum :=
  .object [("error", .text "bad_request"), ("message", .text part)]

end Oneshot.Script
