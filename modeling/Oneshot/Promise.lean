import Oneshot.Prog
import Oneshot.Text.Layout
import Oneshot.Text.Quoted

/-! # Promises, futures and external futures

A promise is the write view of a cell and a future its read view; both may cancel it.  An external
future has its own state.  Every operation is code that goes on with its answer. -/
set_option autoImplicit false
namespace Oneshot

structure Promise where
  cell : CellId

structure Future where
  cell : CellId

structure ExternalFuture where
  id : ExternalId

variable {V N S : Type}

namespace Promise

def new : Act V N S (Promise × Future) := fun k => .newCell none fun c => k (⟨c⟩, ⟨c⟩)

def future (p : Promise) : Future := ⟨p.cell⟩

/-- Answers whether this attempt decided the cell. -/
def attempt (p : Promise) (a : Attempt V) : Act V N S Bool := Prog.decide p.cell a

def complete (p : Promise) (v : V) : Act V N S Bool := p.attempt (.complete v)

def fail (p : Promise) (failure : Failure) : Act V N S Bool := p.attempt (.fail failure)

def cancel (p : Promise) : Act V N S Bool := p.attempt .cancel

def isDone (p : Promise) : Act V N S Bool := fun k => .look p.cell fun x => k x.isDone

def isCancelled (p : Promise) : Act V N S Bool := fun k => .look p.cell fun x => k x.isCancelled

end Promise

namespace Future

def done (v : V) : Act V N S Future := fun k => .newCell (some (.complete v)) fun c => k ⟨c⟩

def failed (failure : Failure) : Act V N S Future :=
  fun k => .newCell (some (.fail failure)) fun c => k ⟨c⟩

def cancelled : Act V N S Future := fun k => .newCell (some .cancel) fun c => k ⟨c⟩

def isDone (f : Future) : Act V N S Bool := fun k => .look f.cell fun x => k x.isDone

def isCancelled (f : Future) : Act V N S Bool := fun k => .look f.cell fun x => k x.isCancelled

def cancel (f : Future) : Act V N S Bool := Prog.decide f.cell .cancel

def get (f : Future) : Act V N S (Reading V) := Prog.get f.cell

def getTimeout (f : Future) (limit : Duration) : Act V N S (Reading V) :=
  Prog.getTimeout f.cell limit

def tryGet (f : Future) : Act V N S (Option (Reading V)) :=
  fun k => .look f.cell fun x => k x.reading?

/-- A future of what `body` comes to, which runs with a view of `f` once `f` is decided. -/
def andThen (f : Future) (body : Future → Prog V N S) : Act V N S Future :=
  fun k => .chain f.cell (body f) fun c => k ⟨c⟩

/-- A future of `g` applied to the value of `f`; a failure and a cancellation pass through. -/
def map (f : Future) (g : V → Prog V N S) : Act V N S Future :=
  fun k => .transform f.cell g fun c => k ⟨c⟩

def toExternal (f : Future) : Act V N S ExternalFuture := fun k => .relay f.cell fun e => k ⟨e⟩

end Future

namespace ExternalFuture

def new : Act V N S ExternalFuture := fun k => .newExternal fun e => k ⟨e⟩

def attempt (x : ExternalFuture) (a : Attempt V) : Act V N S Bool := Prog.settle x.id a

def complete (x : ExternalFuture) (v : V) : Act V N S Bool := x.attempt (.complete v)

def fail (x : ExternalFuture) (failure : Failure) : Act V N S Bool := x.attempt (.fail failure)

def cancel (x : ExternalFuture) : Act V N S Bool := x.attempt .cancel

def isDone (x : ExternalFuture) : Act V N S Bool :=
  fun k => .lookExternal x.id fun seen => k seen.isDone

def isCancelled (x : ExternalFuture) : Act V N S Bool :=
  fun k => .lookExternal x.id fun seen => k seen.isCancelled

def poll (x : ExternalFuture) (w : WakerId) : Act V N S (Option (Reading V)) := Prog.poll x.id w

end ExternalFuture

open Text (Layout)

def Snapshot.layout (x : Snapshot V) : Layout :=
  .record "Cell"
    (.field "outcome" (.word (Text.quoted x.kind.name))
      (.field "continuations" (.word (toString x.queued)) .done))

def ExternalSnapshot.layout (x : ExternalSnapshot V) : Layout :=
  .record "ExternalFuture"
    (.field "state" (.word (Text.quoted x.kind.name))
      (.field "wakers" (.word (toString x.wakers)) .done))

inductive Handle
  | promise (p : Promise)
  | future (f : Future)
  | external (x : ExternalFuture)

namespace Handle

inductive Kind
  | promise | future | external
  deriving DecidableEq

def Kind.name : Kind → String
  | .promise => "promise"
  | .future => "future"
  | .external => "external"

def kind : Handle → Kind
  | .promise _ => .promise
  | .future _ => .future
  | .external _ => .external

def layout : Handle → Act V N S Layout
  | .promise p => fun k =>
    .look p.cell fun x => k (.record "Promise" (.field "cell" x.layout .done))
  | .future f => fun k =>
    .look f.cell fun x => k (.record "Future" (.field "cell" x.layout .done))
  | .external x => fun k => .lookExternal x.id fun seen => k seen.layout

def isDone : Handle → Act V N S Bool
  | .promise p => p.isDone
  | .future f => f.isDone
  | .external x => x.isDone

def isCancelled : Handle → Act V N S Bool
  | .promise p => p.isCancelled
  | .future f => f.isCancelled
  | .external x => x.isCancelled

def cancel : Handle → Act V N S Bool
  | .promise p => p.cancel
  | .future f => f.cancel
  | .external x => x.cancel

end Handle
end Oneshot
