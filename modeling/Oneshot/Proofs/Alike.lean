import Oneshot.Machine.Step
import Oneshot.Proofs.Pairing

/-! # What two runs have in common

Two runs of one machine give identities of their own to causes and threads.  A `World` says which of them
correspond, and which cells the programs know.  Data of the two runs are alike when they are the same but
for these identities; what is alike in a world is alike in every world that has grown from it. -/
set_option autoImplicit false
namespace Oneshot
variable {V N S : Type}

structure World where
  causes : Pairing
  threads : Pairing
  /-- Whether programs have views of a cell; of the cells that bridges decide they have none. -/
  cells : List Bool

namespace World

def start : World := ⟨⟨[], by simp⟩, ⟨[(0, 0)], by simp_all⟩, []⟩

def Shows (w : World) (c : CellId) : Prop := w.cells[c]? = some true

def Hides (w : World) (c : CellId) : Prop := w.cells[c]? = some false

structure Grows (w w' : World) : Prop where
  causes : w.causes.pairs ⊆ w'.causes.pairs
  threads : w.threads.pairs ⊆ w'.threads.pairs
  cells : w.cells <+: w'.cells

theorem Grows.refl (w : World) : Grows w w :=
  ⟨List.Subset.refl _, List.Subset.refl _, List.prefix_rfl⟩

theorem Grows.trans {w w' w'' : World} (first : Grows w w') (rest : Grows w' w'') : Grows w w'' :=
  ⟨List.Subset.trans first.causes rest.causes, List.Subset.trans first.threads rest.threads,
    List.IsPrefix.trans first.cells rest.cells⟩

section Extensions
variable (w : World) (a b : Nat)

def addCause (within : w.causes.Within a b) : World := { w with causes := w.causes.add a b within }

def addThread (within : w.threads.Within a b) : World :=
  { w with threads := w.threads.add a b within }

def addCell (shown : Bool) : World := { w with cells := w.cells ++ [shown] }

theorem grows_addCause (within : w.causes.Within a b) : w.Grows (w.addCause a b within) :=
  { Grows.refl w with causes := List.subset_cons_self _ _ }

theorem grows_addThread (within : w.threads.Within a b) : w.Grows (w.addThread a b within) :=
  { Grows.refl w with threads := List.subset_cons_self _ _ }

theorem grows_addCell (shown : Bool) : w.Grows (w.addCell shown) :=
  { Grows.refl w with cells := List.prefix_append _ _ }

end Extensions

variable {w w' : World} {c : CellId}

theorem flag_mono (grows : w.Grows w') {shown : Bool} (found : w.cells[c]? = some shown) :
    w'.cells[c]? = some shown := by
  obtain ⟨inside, rfl⟩ := List.getElem?_eq_some_iff.mp found
  exact List.prefix_iff_getElem?.mp grows.cells c inside

theorem Shows.mono (grows : w.Grows w') (shows : w.Shows c) : w'.Shows c := flag_mono grows shows

theorem Hides.mono (grows : w.Grows w') (hides : w.Hides c) : w'.Hides c := flag_mono grows hides

theorem Shows.not_hides (shows : w.Shows c) : ¬ w.Hides c := by
  intro hides
  cases shows.symm.trans hides

end World

mutual
inductive Failure.Alike (w : World) : Failure → Failure → Prop
  | message (text : String) : Failure.Alike w (.message text) (.message text)
  | system (kind : SystemKind) : Failure.Alike w (.system kind) (.system kind)
  | systemWith (kind : SystemKind) (text : String) :
      Failure.Alike w (.systemWith kind text) (.systemWith kind text)
  | labelled (text : String) : Failure.Alike w (.labelled text) (.labelled text)
  | wrapping (text : String) {f f' : Failure} (source : Failure.Alike w f f') :
      Failure.Alike w (.wrapping text f) (.wrapping text f')
  | panicked (message : String) : Failure.Alike w (.panicked message) (.panicked message)
  | unread {e e' : ReadError} (error : ReadError.Alike w e e') :
      Failure.Alike w (.unread e) (.unread e')

inductive ReadError.Alike (w : World) : ReadError → ReadError → Prop
  | timeout (limit : Duration) : ReadError.Alike w (.timeout limit) (.timeout limit)
  | cancelled : ReadError.Alike w .cancelled .cancelled
  | failed {c c' : Cause} (cause : Cause.Alike w c c') : ReadError.Alike w (.failed c) (.failed c')

inductive Cause.Alike (w : World) : Cause → Cause → Prop
  | mk {a b : CauseId} {f f' : Failure} (same : (a, b) ∈ w.causes.pairs)
      (failure : Failure.Alike w f f') : Cause.Alike w (.mk a f) (.mk b f')
end

section Mono
variable {w w' : World}

mutual
theorem Failure.Alike.mono (grows : w.Grows w') {f f' : Failure} (alike : f.Alike w f') :
    f.Alike w' f' := by
  cases alike with
  | message text => exact .message text
  | system kind => exact .system kind
  | systemWith kind text => exact .systemWith kind text
  | labelled text => exact .labelled text
  | wrapping text source => exact .wrapping text (Failure.Alike.mono grows source)
  | panicked message => exact .panicked message
  | unread error => exact .unread (ReadError.Alike.mono grows error)

theorem ReadError.Alike.mono (grows : w.Grows w') {e e' : ReadError} (alike : e.Alike w e') :
    e.Alike w' e' := by
  cases alike with
  | timeout limit => exact .timeout limit
  | cancelled => exact .cancelled
  | failed cause => exact .failed (Cause.Alike.mono grows cause)

theorem Cause.Alike.mono (grows : w.Grows w') {c c' : Cause} (alike : c.Alike w c') :
    c.Alike w' c' := by
  cases alike with
  | mk same failure => exact .mk (grows.causes same) (Failure.Alike.mono grows failure)
end

end Mono

/-- What counts when two runs are compared. -/
structure Sight (V N S : Type) [Inhabited V] where
  /-- The cells that a value gives a view of. -/
  cells : V → List CellId
  plain : cells default = []
  /-- Whether a note counts. -/
  heard : N → Bool
  /-- Whether two notes say the same. -/
  notes : World → N → N → Prop
  notes_mono : ∀ {w w' n n'}, w.Grows w' → notes w n n' → notes w' n n'
  /-- Whether two states that programs share agree. -/
  client : World → S → S → Prop
  client_mono : ∀ {w w' x x'}, w.Grows w' → client w x x' → client w' x x'
  /-- Whether the code of wakers is not to panic.  If it may, a program has to catch the panics of its
  own resolutions. -/
  calm : Prop

section Sight
variable [Inhabited V] {σ : Sight V N S} {w w' : World}

/-- All that the value gives a view of is known. -/
def Sight.Knows (σ : Sight V N S) (w : World) (v : V) : Prop := ∀ c ∈ σ.cells v, w.Shows c

theorem Sight.Knows.mono (grows : w.Grows w') {v : V} (knows : σ.Knows w v) : σ.Knows w' v :=
  fun c member => (knows c member).mono grows

inductive Outcome.Alike (σ : Sight V N S) (w : World) : Outcome V → Outcome V → Prop
  | value {v} (knows : σ.Knows w v) : Alike σ w (.value v) (.value v)
  | failed {c c'} (cause : c.Alike w c') : Alike σ w (.failed c) (.failed c')
  | cancelled : Alike σ w .cancelled .cancelled

inductive Reading.Alike (σ : Sight V N S) (w : World) : Reading V → Reading V → Prop
  | ok {v} (knows : σ.Knows w v) : Alike σ w (.ok v) (.ok v)
  | error {e e'} (error : e.Alike w e') : Alike σ w (.error e) (.error e')

inductive Ending.Alike (σ : Sight V N S) (w : World) : Ending V → Ending V → Prop
  | value {v} (knows : σ.Knows w v) : Alike σ w (.value v) (.value v)
  | failed {f f'} (failure : f.Alike w f') : Alike σ w (.failed f) (.failed f')
  | panicked payload : Alike σ w (.panicked payload) (.panicked payload)

inductive Attempt.Alike (σ : Sight V N S) (w : World) : Attempt V → Attempt V → Prop
  | complete {v} (knows : σ.Knows w v) : Alike σ w (.complete v) (.complete v)
  | fail {f f'} (failure : f.Alike w f') : Alike σ w (.fail f) (.fail f')
  | cancel : Alike σ w .cancel .cancel

structure Snapshot.Alike (σ : Sight V N S) (w : World) (x x' : Snapshot V) : Prop where
  outcome : Option.Rel (Outcome.Alike σ w) x.outcome x'.outcome
  queued : x.queued = x'.queued

theorem Outcome.Alike.mono (grows : w.Grows w') {o o' : Outcome V} (alike : o.Alike σ w o') :
    o.Alike σ w' o' := by
  cases alike with
  | value knows => exact .value (knows.mono grows)
  | failed cause => exact .failed (cause.mono grows)
  | cancelled => exact .cancelled

theorem Ending.Alike.mono (grows : w.Grows w') {e e' : Ending V} (alike : e.Alike σ w e') :
    e.Alike σ w' e' := by
  cases alike with
  | value knows => exact .value (knows.mono grows)
  | failed failure => exact .failed (failure.mono grows)
  | panicked payload => exact .panicked payload

theorem Attempt.Alike.mono (grows : w.Grows w') {a a' : Attempt V} (alike : a.Alike σ w a') :
    a.Alike σ w' a' := by
  cases alike with
  | complete knows => exact .complete (knows.mono grows)
  | fail failure => exact .fail (failure.mono grows)
  | cancel => exact .cancel

theorem Option.Rel.mono {α β : Type} {r r' : α → β → Prop} (implies : ∀ a b, r a b → r' a b)
    {x : Option α} {y : Option β} (rel : Option.Rel r x y) : Option.Rel r' x y := by
  cases rel with
  | some related => exact .some (implies _ _ related)
  | none => exact .none

theorem Outcome.Alike.kind {o o' : Outcome V} (alike : o.Alike σ w o') : o.kind = o'.kind := by
  cases alike <;> rfl

theorem Outcome.Alike.reading {o o' : Outcome V} (alike : o.Alike σ w o') :
    Reading.Alike σ w o.reading o'.reading := by
  cases alike with
  | value knows => exact .ok knows
  | failed cause => exact .error (.failed cause)
  | cancelled => exact .error .cancelled

theorem Attempt.Alike.outcome {a a' : Attempt V} (alike : a.Alike σ w a') {id id' : CauseId}
    (same : (id, id') ∈ w.causes.pairs) : (a.outcome id).Alike σ w (a'.outcome id') := by
  cases alike with
  | complete knows => exact .value knows
  | fail failure => exact .failed (.mk same failure)
  | cancel => exact .cancelled

theorem Attempt.Alike.needsPromise {a a' : Attempt V} (alike : a.Alike σ w a') :
    a.needsPromise = a'.needsPromise := by
  cases alike <;> rfl

theorem Ending.Alike.attempt {e e' : Ending V} (alike : e.Alike σ w e') :
    e.attempt.Alike σ w e'.attempt := by
  cases alike with
  | value knows => exact .complete knows
  | failed failure => exact .fail failure
  | panicked payload => exact .fail (.panicked payload.message)

theorem ReadError.Alike.outcome {e e' : ReadError} (alike : e.Alike w e') {id id' : CauseId}
    (same : (id, id') ∈ w.causes.pairs) :
    (e.outcome id : Outcome V).Alike σ w (e'.outcome id') := by
  cases alike with
  | timeout limit => exact .failed (.mk same (.unread (.timeout limit)))
  | cancelled => exact .cancelled
  | failed cause => exact .failed cause

end Sight
end Oneshot
