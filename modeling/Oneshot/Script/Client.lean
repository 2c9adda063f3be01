import Oneshot.Script.Datum
import Oneshot.Script.Names
import Oneshot.Script.Value

/-! # What scripts share beside the cells

Names of objects, wakers and readers, the causes reported so far, and counters.  Code may come to a
fault, which answers its operation. -/
set_option autoImplicit false
namespace Oneshot.Script

/-- A background read: of a future on a thread of its own, or of an external future. -/
inductive Reader
  | future (f : Future) (limit : Option Duration) (t : ThreadId)
  | external (x : ExternalFuture)

structure Client where
  objects : Names Handle
  wakers : Names WakerId
  readers : Names Reader
  /-- In the order of their first report. -/
  reported : List CauseId
  counters : Array Nat

def Client.empty : Client := ⟨.empty, .empty, .empty, [], #[]⟩

inductive Note
  | entry (d : Datum)
  | step (fields : List (String × Datum))
  | closing (d : Datum)

inductive Fault
  | unbound (name : String)
  | noMethod (kind : Handle.Kind)
  | badOp (key : String)
  | wouldBlock
  | notAFuture
  | notAnError

namespace Fault

def word : Fault → String
  | .unbound _ => "unbound"
  | .noMethod _ => "no_method"
  | .badOp _ => "bad_op"
  | .wouldBlock => "would_block"
  | .notAFuture => "not_a_future"
  | .notAnError => "not_an_error"

def detail : Fault → List (String × Datum)
  | .unbound name => [("name", .text name)]
  | .noMethod kind => [("on", .text kind.name)]
  | .badOp key => [("message", .text key)]
  | _ => []

def datum (fault : Fault) : Datum := .object (("error", .text fault.word) :: fault.detail)

end Fault

abbrev Code (α : Type) := Act Value Note Client α

abbrev Trial (α : Type) := ExceptT Fault (Act Value Note Client) α

namespace Code

def program (x : Code (Ending Value)) : Prog Value Note Client :=
  x fun ending =>
    match ending with
    | .value v => .ret v
    | .failed failure => .err failure
    | .panicked payload => .panic payload

def client : Code Client := Prog.ask

/-- The position of a cause among those reported; one not reported yet comes last. -/
def number (id : CauseId) : Code Nat := fun k =>
  .ask fun client =>
    match client.reported.idxOf? id with
    | some n => k n
    | none =>
      .update (fun client => { client with reported := client.reported ++ [id] })
        (k client.reported.length)

def newCounter : Code Nat := fun k =>
  .ask fun client =>
    .update (fun client => { client with counters := client.counters.push 0 })
      (k client.counters.size)

def count (counter : Nat) : Code Unit :=
  Act.update fun client => { client with counters := client.counters.modify counter (· + 1) }

def counted (counter : Nat) : Code Nat := fun k =>
  .ask fun client => k (client.counters.getD counter 0)

def bindObject (name : String) (handle : Handle) : Code Unit :=
  Act.update fun client => { client with objects := client.objects.bind name handle }

def bindWaker (name : String) (w : WakerId) : Code Unit :=
  Act.update fun client => { client with wakers := client.wakers.bind name w }

def bindReader (name : String) (reader : Reader) : Code Unit :=
  Act.update fun client => { client with readers := client.readers.bind name reader }

def threadText : Code Datum := fun k =>
  .threadName fun name => k (.text (name.getD ""))

end Code

namespace Trial

def lift {α : Type} (x : Code α) : Trial α := ExceptT.lift x

def required (key : String) : Option String → Trial String
  | none => throw (.badOp key)
  | some s => pure s

/-- The object of this name; `this` is the source of the continuation that the code is part of. -/
def object (this : Option Future) (name : String) : Trial Handle := do
  match this with
  | some f => if name = "this" then return .future f
  | none => pure ()
  match (← Code.client).objects.find? name with
  | some handle => pure handle
  | none => throw (.unbound name)

def theObject (this : Option Future) (key : String) (name : Option String) : Trial Handle := do
  object this (← required key name)

def thePromise (this : Option Future) (key : String) (name : Option String) : Trial Promise := do
  match ← theObject this key name with
  | .promise p => pure p
  | other => throw (.noMethod other.kind)

def asFuture : Handle → Trial Future
  | .future f => pure f
  | other => throw (.noMethod other.kind)

def theFuture (this : Option Future) (key : String) (name : Option String) : Trial Future := do
  asFuture (← theObject this key name)

def theExternal (this : Option Future) (key : String) (name : Option String) :
    Trial ExternalFuture := do
  match ← theObject this key name with
  | .external x => pure x
  | other => throw (.noMethod other.kind)

end Trial
end Oneshot.Script
