import Oneshot.Script.Evaluate
import Oneshot.Script.Report

/-! # Performing operations

Every operation of a script is code over cells that comes to the datum it answers with.  Scripts inside
an operation become bodies of continuations, wakers and threads. -/
set_option autoImplicit false
namespace Oneshot.Script

open Trial (lift required object asFuture theObject thePromise theFuture theExternal)

/-- Reads with a limit above this one count as reads without one. -/
def patience : Nat := 20000000

/-- Whether a read would have to be waited for: nothing is there to read, and no short limit is set. -/
def blocks (seen : Option (Reading Value)) (limit : Option Duration) : Bool :=
  seen.isNone &&
    match limit with
    | none => true
    | some d => decide (patience < d.toNanos)

/-- What a poll of `x` would answer, found without a waker.  External futures have no such read: a script
needs it to tell whether it would wait. -/
def foundIn (x : ExternalFuture) : Code (Option (Reading Value)) :=
  fun k => .lookExternal x.id fun seen => k seen.value

def await (f : Future) : Option Duration → Code (Reading Value)
  | none => f.get
  | some limit => f.getTimeout limit

def readNow (f : Future) (limit : Option Duration) : Trial (Reading Value) := do
  let seen ← lift f.tryGet
  if blocks seen limit then throw .wouldBlock
  lift (await f limit)

def panicDatum : Payload → Datum
  | .text s => .object [("panic", .text s)]
  | .other => .object [("panic", .null)]

/-- Answers with the boolean of `x`, or with the panic that escaped from it. -/
def caught (x : Code Bool) : Code Datum := fun k =>
  .guarded (x fun b => .ret (.bool b)) fun ending =>
    match ending with
    | .value (.bool b) => k (.bool b)
    | .panicked payload => k (panicDatum payload)
    | _ => k .null

/-- An attempt through this handle.  A future has no way to make one. -/
def attemptOn (a : Attempt Value) : Handle → Trial (Code Bool)
  | .promise p => pure (p.attempt a)
  | .external x => pure (x.attempt a)
  | .future _ => throw (.noMethod .future)

namespace Result

def attempt (this : Option Future) : Result → Trial (Ending Value)
  | .read name limit function complete => do
    let f ← asFuture (← object this name)
    let limit ← evaluateLimit? limit
    match ← readNow f limit with
    | .error unread => return .failed (.unread unread)
    | .ok v =>
      let g ← lift (function.evaluate this)
      match g.apply v with
      | .error payload => return .panicked payload
      | .ok w =>
        match complete with
        | none => return .value w
        | some other =>
          let completes ← attemptOn (.complete w) (← object this other)
          return .value (.bool (← lift completes))
  | .error expr => do return .failed (← expr.evaluate)
  | .panic payload => pure (.panicked payload)
  | .value expr => do return .value (← expr.evaluate this)

/-- A fault fails the continuation with the fault's word. -/
def ending (this : Option Future) (result : Result) : Code (Ending Value) := do
  match ← (result.attempt this).run with
  | .ok e => return e
  | .error fault => return .failed (.message fault.word)

end Result

def functionEnding (this : Option Future) (function : FunctionExpr) (v : Value) :
    Code (Ending Value) := do
  match (← function.evaluate this).apply v with
  | .ok w => return .value w
  | .error payload => return .panicked payload

def chainedBody (label : Datum) (body : Code Unit) (result : Result) (source : Future) :
    Prog Value Note Client :=
  Code.program do
    let saw ← reportReading? (← source.tryGet)
    logEntry [("run", label), ("saw", saw), ("thread", ← Code.threadText)]
    body
    result.ending (some source)

def mappedBody (label : Datum) (body : Code Unit) (function : FunctionExpr) (source : Future)
    (v : Value) : Prog Value Note Client :=
  Code.program do
    let arg ← v.report
    logEntry [("run", label), ("arg", arg), ("thread", ← Code.threadText)]
    body
    functionEnding (some source) function v

def wakerBody (name : String) (body : Code Unit) (panic : Option Payload) :
    Prog Value Note Client :=
  Code.program do
    logEntry [("wake", .text name), ("thread", ← Code.threadText)]
    body
    match panic with
    | none => return .value .null
    | some payload => return .panicked payload

/-- The waker of this name, made without a script if there is none. -/
def theWaker (name : String) : Code WakerId := do
  match (← Code.client).wakers.find? name with
  | some w => return w
  | none =>
    let w ← Prog.newWaker (wakerBody name (pure ()) none)
    Code.bindWaker name w
    return w

def readBody (f : Future) (limit : Option Duration) : Prog Value Note Client :=
  Code.program do
    match ← await f limit with
    | .ok v => return .value v
    | .error error => return .failed (.unread error)

def readOfEnding : Ending Value → Option (Reading Value)
  | .value v => some (.ok v)
  | .failed (.unread error) => some (.error error)
  | _ => none

/-- A background read, begun: a future is read by a thread without a name, an external future polled by
one with a waker of its own. -/
def startReader (handle : Handle) (limit : Option Duration) : Trial Reader :=
  match handle with
  | .promise _ => throw (.noMethod .promise)
  | .future f => do
    let t ← lift (Prog.spawn none (readBody f limit))
    return .future f limit t
  | .external x => do
    let w ← lift (Prog.newWaker (.ret .null))
    let t ← lift (Prog.spawn none (.poll x.id w fun _ => .ret .null))
    let _ ← lift (Prog.join t)
    return .external x

def finishReader : Reader → Trial (Option (Reading Value))
  | .future f limit t => do
    if blocks (← lift f.tryGet) limit then throw .wouldBlock
    return readOfEnding (← lift (Prog.join t))
  | .external x => do
    match ← lift (foundIn x) with
    | none => throw .wouldBlock
    | some r => return some r

/-- A thread of this name; one begun by a thread without a name has none either. -/
def spawnNamed (name : String) (body : Prog Value Note Client) : Code ThreadId := do
  let parent ← Prog.threadName
  Prog.spawn (parent.map fun _ => name) body

def spawnAll : List (Prog Value Note Client) → Code (List ThreadId)
  | [] => pure []
  | p :: rest => do
    let t ← Prog.spawn none p
    let ts ← spawnAll rest
    return t :: ts

def countWins : List ThreadId → Code Nat
  | [] => pure 0
  | t :: rest => do
    let ending ← Prog.join t
    let others ← countWins rest
    match ending with
    | .value (.bool true) => return others + 1
    | _ => return others

/-- Attempts on one promise, each on a thread of its own, and as many threads that register a counting
continuation. -/
def race (p : Promise) (attempts : List (Attempt Value)) (registrars : Nat) : Code Datum := do
  let counter ← Code.newCounter
  let contenders := attempts.map fun a => p.attempt a fun b => .ret (.bool b)
  let counting : Prog Value Note Client :=
    .chain p.cell (Code.program do Code.count counter; return .value .null) fun _ => .ret .null
  let ts ← spawnAll contenders
  let us ← spawnAll (List.replicate registrars counting)
  let wins ← countWins ts
  let _ ← countWins us
  let calls ← Code.counted counter
  return .object [("wins", .nat wins), ("calls", .nat calls)]

def bindIf (name : Option String) (handle : Handle) : Code Unit :=
  match name with
  | none => pure ()
  | some name => Code.bindObject name handle

def bindNew (name : String) (handle : Handle) : Trial Datum := do
  lift (Code.bindObject name handle)
  return .null

def causeOf (f : Future) : Code (Option Cause) := do
  match ← f.tryGet with
  | none => return none
  | some r => return Reading.cause? r

mutual
def Action.perform (this : Option Future) (keys : Keys) : Action → Trial Datum
  | .new => do
    let p ← required "p" keys.p
    let (promise, future) ← lift Promise.new
    lift (Code.bindObject p (.promise promise))
    bindNew (← required "f" keys.f) (.future future)
  | .done value => do
    let name ← required "as" keys.as
    let v ← value.evaluate this
    bindNew name (.future (← lift (Future.done v)))
  | .failed error => do
    let name ← required "as" keys.as
    let failure ← error.evaluate
    bindNew name (.future (← lift (Future.failed failure)))
  | .cancelled => do
    let name ← required "as" keys.as
    bindNew name (.future (← lift Future.cancelled))
  | .newExternal => do
    let name ← required "as" keys.as
    bindNew name (.external (← lift ExternalFuture.new))
  | .future => do
    let p ← thePromise this "on" keys.on
    bindNew (← required "as" keys.as) (.future p.future)
  | .clone => do
    let handle ← theObject this "on" keys.on
    bindNew (← required "as" keys.as) handle
  | .drop => do
    let name ← required "on" keys.on
    let bound := ((← Code.client).objects.find? name).isSome
    lift (Act.update fun client => { client with objects := client.objects.erase name })
    return .bool bound
  | .unwrap => do
    let f ← theFuture this "on" keys.on
    match ← lift f.tryGet with
    | some (.ok (.future held)) => bindNew (← required "as" keys.as) (.future held)
    | _ => throw .notAFuture
  | .complete value => do
    let handle ← theObject this "on" keys.on
    let v ← value.evaluate this
    lift (caught (← attemptOn (.complete v) handle))
  | .fail error => do
    let handle ← theObject this "on" keys.on
    let failure ← error.evaluate
    lift (caught (← attemptOn (.fail failure) handle))
  | .cancel => do
    let handle ← theObject this "on" keys.on
    lift (caught handle.cancel)
  | .isDone => do
    let handle ← theObject this "on" keys.on
    return .bool (← lift handle.isDone)
  | .isCancelled => do
    let handle ← theObject this "on" keys.on
    return .bool (← lift handle.isCancelled)
  | .debug alternate => do
    let handle ← theObject this "on" keys.on
    let layout ← lift handle.layout
    return .text (if alternate then layout.lines 0 else layout.line)
  | .tryGet => do
    let f ← theFuture this "on" keys.on
    lift (reportReading? (← lift f.tryGet))
  | .get => do
    let f ← theFuture this "on" keys.on
    lift (reportReading (← readNow f none))
  | .getTimeout limit => do
    let f ← theFuture this "on" keys.on
    let limit ← evaluateLimit limit
    lift (reportReading (← readNow f (some limit)))
  | .explain => do
    let f ← theFuture this "on" keys.on
    match ← lift f.tryGet with
    | some (.error error) => lift (explain error)
    | _ => throw .notAnError
  | .error error => do lift (explain (← error.evaluate))
  | .sameCause other => do
    let f ← theFuture this "on" keys.on
    let g ← theFuture this "with" other
    match ← lift (causeOf f), ← lift (causeOf g) with
    | some c, some d => return .bool (c.id == d.id)
    | _, _ => return .null
  | .andThen label body result => do
    let f ← theFuture this "on" keys.on
    let chained ← lift
      (f.andThen fun source => chainedBody label (performAll (some source) body) result source)
    lift (bindIf keys.as (.future chained))
    return .null
  | .map label body function => do
    let f ← theFuture this "on" keys.on
    let mapped ← lift
      (f.map fun v => mappedBody label (performAll (some f) body) function f v)
    lift (bindIf keys.as (.future mapped))
    return .null
  | .toExternal => do
    let f ← theFuture this "on" keys.on
    let name ← required "as" keys.as
    bindNew name (.external (← lift f.toExternal))
  | .waker name body panic => do
    let name ← required "name" name
    let w ← lift (Prog.newWaker (wakerBody name (performAll this body) panic))
    lift (Code.bindWaker name w)
    return .null
  | .poll waker => do
    let x ← theExternal this "on" keys.on
    let name ← required "waker" waker
    let w ← lift (theWaker name)
    match ← lift (x.poll w) with
    | none => return .text "pending"
    | some r => return .object [("ready", ← lift (reportReading r))]
  | .blockOn => do
    let x ← theExternal this "on" keys.on
    match ← lift (foundIn x) with
    | none => throw .wouldBlock
    | some r => lift (reportReading r)
  | .thread name body => do
    let name ← required "name" name
    let t ← lift (spawnNamed name (performAll this body fun _ => .ret .null))
    let _ ← lift (Prog.join t)
    return .null
  | .reader limit => do
    let handle ← theObject this "on" keys.on
    let name ← required "as" keys.as
    let limit ← evaluateLimit? limit
    let reader ← startReader handle limit
    lift (Code.bindReader name reader)
    return .null
  | .join reader => do
    let name ← required "reader" reader
    match (← Code.client).readers.find? name with
    | none => throw (.badOp "reader")
    | some reader =>
      let r ← finishReader reader
      lift (Act.update fun client => { client with readers := client.readers.erase name })
      lift (reportReading? r)
  | .race attempts registrars => do
    let p ← thePromise this "on" keys.on
    let attempts ← evaluateAttempts this attempts
    lift (race p attempts registrars)
  | .again times body => do
    lift (Act.times (performAll this body) times)
    return .null
  | .unknown => throw (.badOp "op")

def Op.perform (this : Option Future) : Op → Code Datum
  | .mk _ keys action => do
    match ← (action.perform this keys).run with
    | .ok d => return d
    | .error fault => return fault.datum

/-- Nested operations, one after another: each logs its answer after everything it caused. -/
def performAll (this : Option Future) : List Op → Code Unit
  | [] => pure ()
  | op :: rest => do
    let answer ← op.perform this
    logEntry [("op", op.name), ("r", answer)]
    performAll this rest
end

end Oneshot.Script
