import Mathlib.Logic.Function.Iterate
import Oneshot.Failure.Text
import Oneshot.Outcome

/-! # Pipelines as folds

A stage of a pipeline applies a function that may panic, and what it makes of the outcome of its source
is an outcome again (`Link.after`).  So a pipeline folds its stages over the outcome that it starts
from, and what is left of a failure at its end is read off the number of stages that wrap
(`folded_of_steps`). -/
set_option autoImplicit false
namespace Oneshot

def ReadError.nested (k : Nat) (text : String) : String := (ReadError.lead ++ ·)^[k] text

/-- The messages of this many errors around one with that message, from the outside in. -/
def ReadError.wrappers (k : Nat) (text : String) : List String :=
  ((List.range k).map (ReadError.nested · text)).reverse

/-- The error inside of one more error for each identity. -/
def ReadError.wrap (e : ReadError) (ids : List CauseId) : ReadError :=
  ids.foldl (fun e id => .failed (.mk id (.unread e))) e

namespace ReadError

@[simp] theorem nested_succ (k : Nat) (text : String) :
    nested (k + 1) text = nested k (lead ++ text) := rfl

theorem wrappers_succ (k : Nat) (text : String) :
    wrappers (k + 1) text = wrappers k (lead ++ text) ++ [text] := by
  simp only [wrappers, List.range_succ_eq_map, List.map_cons, List.map_map, List.reverse_cons]
  rfl

@[simp] theorem length_wrappers (k : Nat) (text : String) : (wrappers k text).length = k := by
  simp [wrappers]

theorem text_wrap (e : ReadError) (ids : List CauseId) :
    (e.wrap ids).text = nested ids.length e.text := by
  induction ids generalizing e with
  | nil => rfl
  | cons id ids ih =>
    rw [List.length_cons, nested_succ]
    refine (ih (.failed (.mk id (.unread e)))).trans ?_
    simp only [text_failed, Cause.text, Failure.text]

theorem sources_wrap (e : ReadError) (ids : List CauseId) :
    (e.wrap ids).sources = wrappers ids.length e.text ++ e.sources := by
  induction ids generalizing e with
  | nil => rfl
  | cons id ids ih =>
    refine (ih (.failed (.mk id (.unread e)))).trans ?_
    simp only [text_failed, sources_failed, Cause.text, Cause.sources, Failure.text, Failure.sources,
      List.length_cons, wrappers_succ, List.append_assoc, List.singleton_append]

theorem wrap_failed (cause : Cause) (ids : List CauseId) :
    ∃ last, (ReadError.failed cause).wrap ids = .failed last := by
  induction ids generalizing cause with
  | nil => exact ⟨cause, rfl⟩
  | cons id ids ih => exact ih _

end ReadError

/-- How a stage is registered: as a transformation, or as a body that reads the source and fails if
there is no value. -/
inductive Manner
  | map | andThen
  deriving DecidableEq

structure Link (V : Type) where
  manner : Manner
  /-- A value, or a panic. -/
  g : V → Except Payload V

namespace Link
variable {V : Type}

/-- What a stage makes of the outcome of its source; a failure that is its own gets this identity. -/
def after (link : Link V) (id : CauseId) : Outcome V → Outcome V
  | .value v =>
    match link.g v with
    | .ok w => .value w
    | .error payload => .failed (.mk id (.panicked payload.message))
  | .failed cause =>
    match link.manner with
    | .map => .failed cause
    | .andThen => .failed (.mk id (.unread (.failed cause)))
  | .cancelled =>
    match link.manner with
    | .map => .cancelled
    | .andThen => .failed (.mk id (.unread .cancelled))

/-- The stages from left to right, on a value, as far as the first panic. -/
def applyAll (links : List (Link V)) (v : V) : Except Payload V :=
  links.foldlM (fun v link => link.g v) v

/-- The left fold of stages over an outcome. -/
def fold (steps : List (Link V × CauseId)) (source : Outcome V) : Outcome V :=
  steps.foldl (fun o step => step.1.after step.2 o) source

/-- How many stages make a failure of their own of what they read. -/
def wraps (links : List (Link V)) : Nat := links.countP (·.manner = .andThen)

end Link

section Folds
variable {V : Type} {links : List (Link V)} {steps : List (Link V × CauseId)} {source o : Outcome V}

/-- What stages leave of a failure: with no stage that wraps it is the same cause, and with each one the
error has one more prefix in its text, and one more error among its sources. -/
def Leaves (links : List (Link V)) (cause : Cause) (o : Outcome V) : Prop :=
  ∃ last, o = .failed last ∧ (Link.wraps links = 0 → last = cause) ∧
    (ReadError.failed last).text = ReadError.nested (Link.wraps links + 1) cause.text ∧
    (ReadError.failed last).sources =
      ReadError.wrappers (Link.wraps links) (ReadError.lead ++ cause.text) ++
        cause.text :: cause.sources

structure Folded (links : List (Link V)) (source o : Outcome V) : Prop where
  values : ∀ v w, source = .value v → Link.applyAll links v = .ok w → o = .value w
  /-- The first panic is a failure, for all that follows. -/
  panics : ∀ v u payload before link rest, source = .value v → links = before ++ link :: rest →
    Link.applyAll before v = .ok u → link.g u = .error payload →
      ∃ id, Leaves rest (.mk id (.panicked payload.message)) o
  failures : ∀ cause, source = .failed cause → Leaves links cause o
  stays : source = .cancelled → Link.wraps links = 0 → o = .cancelled
  cancellations : ∀ k, source = .cancelled → Link.wraps links = k → 0 < k →
    ∃ last, o = .failed last ∧
      (ReadError.failed last).text = ReadError.nested k ReadError.cancelledText ∧
      (ReadError.failed last).sources = ReadError.wrappers k ReadError.cancelledText ∧
      (ReadError.failed last).sources.length = k

/-- Stages after an outcome without a value: those that wrap do so, one inside of the other. -/
theorem reading_fold (steps : List (Link V × CauseId)) (source : Outcome V) {e : ReadError}
    (read : source.reading = .error e) :
    ∃ ids, ids.length = Link.wraps (steps.map Prod.fst) ∧
      (Link.fold steps source).reading = .error (e.wrap ids) := by
  induction steps generalizing source e with
  | nil => exact ⟨[], rfl, read⟩
  | cons step steps ih =>
    obtain ⟨link, id⟩ := step
    cases manner : link.manner with
    | map =>
      have same : link.after id source = source := by
        cases source with
        | value v => cases read
        | failed cause => simp [Link.after, manner]
        | cancelled => simp [Link.after, manner]
      obtain ⟨ids, count, last⟩ := ih source read
      refine ⟨ids, ?_, ?_⟩
      · simpa [Link.wraps, manner] using count
      · rwa [Link.fold, List.foldl_cons, same]
    | andThen =>
      have wrapped : (link.after id source).reading = .error (.failed (.mk id (.unread e))) := by
        cases source with
        | value v => cases read
        | failed cause =>
          cases read
          simp [Link.after, manner, Outcome.reading]
        | cancelled =>
          cases read
          simp [Link.after, manner, Outcome.reading]
      obtain ⟨ids, count, last⟩ := ih _ wrapped
      refine ⟨id :: ids, ?_, last⟩
      simpa [Link.wraps, manner] using count

theorem fold_value {v w : V} (all : Link.applyAll (steps.map Prod.fst) v = .ok w) :
    Link.fold steps (.value v) = .value w := by
  induction steps generalizing v with
  | nil =>
    cases all
    rfl
  | cons step steps ih =>
    obtain ⟨link, id⟩ := step
    obtain ⟨u, first, rest⟩ : ∃ u, link.g v = .ok u ∧ Link.applyAll (steps.map Prod.fst) u = .ok w := by
      rw [Link.applyAll, List.map_cons, List.foldlM_cons] at all
      cases first : link.g v with
      | error payload =>
        rw [first] at all
        cases all
      | ok u =>
        rw [first] at all
        exact ⟨u, rfl, all⟩
    have next : link.after id (.value v) = .value u := by simp [Link.after, first]
    rw [Link.fold, List.foldl_cons, next]
    exact ih rest

theorem leaves_fold (steps : List (Link V × CauseId)) (cause : Cause) :
    Leaves (steps.map Prod.fst) cause (Link.fold steps (.failed cause)) := by
  obtain ⟨ids, count, reading⟩ := reading_fold steps (.failed cause) rfl
  obtain ⟨last, wrapped⟩ := ReadError.wrap_failed cause ids
  have text := ReadError.text_wrap (.failed cause) ids
  have sources := ReadError.sources_wrap (.failed cause) ids
  rw [wrapped] at reading text sources
  rw [ReadError.text_failed cause] at text sources
  refine ⟨last, Outcome.reading_injective reading, fun none => ?_, ?_, ?_⟩
  · cases List.length_eq_zero_iff.mp (count.trans none)
    cases wrapped
    rfl
  · rw [text, count, ReadError.nested_succ]
  · rw [sources, count, ReadError.sources_failed]

theorem folded_of_steps (steps : List (Link V × CauseId)) (source : Outcome V) :
    Folded (steps.map Prod.fst) source (Link.fold steps source) where
  values v w value all := by
    subst value
    exact fold_value all
  panics v u payload before link rest value cut calm panics := by
    subst value
    obtain ⟨first, later, rfl, rfl, split⟩ := List.map_eq_append_iff.mp cut
    obtain ⟨⟨link, id⟩, later, rfl, rfl, rfl⟩ := List.map_eq_cons_iff.mp split
    have fails : link.after id (.value u) = .failed (.mk id (.panicked payload.message)) := by
      simp only at panics
      simp [Link.after, panics]
    refine ⟨id, ?_⟩
    rw [Link.fold, List.foldl_append, List.foldl_cons]
    have upTo : first.foldl (fun o step => step.1.after step.2 o) (.value v) = .value u :=
      fold_value calm
    rw [upTo, fails]
    exact leaves_fold later _
  failures cause failed := by
    subst failed
    exact leaves_fold steps cause
  stays cancelled none := by
    subst cancelled
    obtain ⟨ids, count, reading⟩ := reading_fold steps .cancelled rfl
    cases List.length_eq_zero_iff.mp (count.trans none)
    exact Outcome.reading_injective reading
  cancellations k cancelled count some := by
    subst cancelled count
    obtain ⟨ids, count, reading⟩ := reading_fold steps .cancelled rfl
    have text := ReadError.text_wrap .cancelled ids
    have sources := ReadError.sources_wrap .cancelled ids
    have own : ReadError.cancelled.text = ReadError.cancelledText := by simp only [ReadError.text]
    have none : ReadError.cancelled.sources = [] := by simp only [ReadError.sources]
    obtain ⟨last, wrapped⟩ : ∃ last, ReadError.cancelled.wrap ids = .failed last := by
      cases ids with
      | nil => exact absurd count (Nat.ne_of_lt some)
      | cons id ids => exact ReadError.wrap_failed _ ids
    rw [wrapped, own, count] at text
    rw [wrapped, own, none, List.append_nil, count] at sources
    rw [wrapped] at reading
    refine ⟨last, Outcome.reading_injective reading, text, sources, ?_⟩
    rw [sources, ReadError.length_wrappers]

end Folds
end Oneshot
