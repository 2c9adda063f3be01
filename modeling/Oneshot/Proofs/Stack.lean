import Oneshot.Proofs.Permanence

/-! # What rests on what

A frame is put only on frames that can take its answer, and it is there only while the cells that it
names are decided.  So a panic of a body reaches the frame that captures it, and none reaches a drain
loop or the end of a continuation (`calm_of_rests`). -/
set_option autoImplicit false
namespace Oneshot
variable {V N S : Type}

/-- The frames on which code of a program runs: whatever it comes to, they take it. -/
def Free : List (Frame V N S) → Prop
  | [] | .capturing _ :: _ | .guarding _ :: _ | .waking _ _ :: _ => True
  | _ => False

def Called (c : CellId) (fs : List (Frame V N S)) : Prop :=
  (∃ b rest, fs = .finishing b c :: rest) ∨ ∃ p rest, fs = .resume p :: rest

def Frame.RestsOn (s : State V N S) : Frame V N S → List (Frame V N S) → Prop
  | .resume _, fs | .guarding _, fs => Free fs
  | .capturing r, fs => ∃ c rest, fs = .finishing c r :: rest
  | .finishing c r, fs => s.outcome? c ≠ none ∧ r < s.cells.size ∧
      ((∃ rest, fs = .draining c :: rest) ∨ ∃ p rest, fs = .resume p :: rest)
  | .draining c, fs => s.outcome? c ≠ none ∧ Called c fs
  | .waking _ _, fs => (∃ r rest, fs = .capturing r :: rest) ∨ ∃ p rest, fs = .resume p :: rest

def Stacked (s : State V N S) : List (Frame V N S) → Prop
  | [] => True
  | frame :: fs => frame.RestsOn s fs ∧ Stacked s fs

/-- A continuation ends only when the cell is decided that it was to decide. -/
def Landed (s : State V N S) (fs : List (Frame V N S)) : Prop :=
  ∀ c r rest, fs = .finishing c r :: rest → s.outcome? r ≠ none

def Doing.RestsOn (s : State V N S) : Doing V N S → List (Frame V N S) → Prop
  | .run _, fs | .checking _, fs | .asleep _, fs | .expired _ _ _, fs => Free fs
  | .deciding _ _ (some _), fs | .settling _ _ (some _), fs => Free fs
  | .deciding r _ none, fs => ∃ c rest, fs = .finishing c r :: rest
  | .settling _ _ none, fs => ∃ r rest, fs = .capturing r :: rest
  | .announcing c _ _, fs | .draining c, fs => (Frame.draining c).RestsOn s fs
  | .starting c task, fs => (Frame.finishing c task.result).RestsOn s fs
  | .relaying c _, fs => ∃ r rest, fs = .capturing r :: .finishing c r :: rest
  | .ended e, fs => Landed s fs ∧ (e.Calm ∨ Free fs ∨ ∃ p rest, fs = .resume p :: rest)

structure Thread.Sound (s : State V N S) (doing : Doing V N S) (fs : List (Frame V N S)) : Prop where
  top : doing.RestsOn s fs
  stacked : Stacked s fs

def Issued (s : State V N S) : Prop := ∀ c, ∀ task ∈ s.queueOf c, task.result < s.cells.size


section Kept
variable {s s' : State V N S} {fs : List (Frame V N S)}

theorem Frame.RestsOn.mono {frame : Frame V N S} (rests : frame.RestsOn s fs)
    (later : Extends s s') : frame.RestsOn s' fs := by
  cases frame with
  | finishing c r =>
    obtain ⟨decided, inside, below⟩ := rests
    exact ⟨later.decided decided, Nat.lt_of_lt_of_le inside later.cells, below⟩
  | draining c => exact ⟨later.decided rests.1, rests.2⟩
  | _ => exact rests

theorem Stacked.mono (stacked : Stacked s fs) (later : Extends s s') : Stacked s' fs := by
  induction fs with
  | nil => trivial
  | cons frame fs ih => exact ⟨stacked.1.mono later, ih stacked.2⟩

theorem Doing.RestsOn.mono {doing : Doing V N S} (rests : doing.RestsOn s fs)
    (later : Extends s s') : doing.RestsOn s' fs := by
  cases doing with
  | deciding c o k => cases k <;> exact rests
  | settling e r k => cases k <;> exact rests
  | announcing c kind queued => exact (show (Frame.draining c).RestsOn s fs from rests).mono later
  | draining c => exact (show (Frame.draining c).RestsOn s fs from rests).mono later
  | starting c task =>
    exact (show (Frame.finishing c task.result).RestsOn s fs from rests).mono later
  | ended e => exact ⟨fun c r rest here => later.decided (rests.1 c r rest here), rests.2⟩
  | _ => exact rests

theorem Thread.Sound.mono {doing : Doing V N S} (sound : Thread.Sound s doing fs)
    (later : Extends s s') : Thread.Sound s' doing fs :=
  ⟨sound.top.mono later, sound.stacked.mono later⟩

theorem Free.not_finishing (free : Free fs) : Landed s fs := by
  rintro c r rest rfl
  exact free.elim

/-- No panic comes to the end of a continuation or to a drain loop. -/
theorem calm_of_rests {e : Ending V} {frame : Frame V N S}
    (rests : (Doing.ended e).RestsOn s (frame :: fs))
    (inner : (∃ c r, frame = .finishing c r) ∨ ∃ c, frame = .draining c) : e.Calm := by
  rcases rests.2 with calm | free | ⟨p, rest, resume⟩
  · exact calm
  · rcases inner with ⟨c, r, rfl⟩ | ⟨c, rfl⟩
    · exact free.elim
    · exact free.elim
  · rcases inner with ⟨c, r, rfl⟩ | ⟨c, rfl⟩
    · cases resume
    · cases resume

end Kept

theorem Doing.Plain.free {s : State V N S} {doing : Doing V N S} {fs : List (Frame V N S)}
    (plain : doing.Plain) (rests : doing.RestsOn s fs) : Free fs := by
  cases doing with
  | run p => exact rests
  | checking w => exact rests
  | asleep w => exact rests
  | expired c limit k => exact rests
  | _ => exact plain.elim

theorem Doing.Plain.rests {s : State V N S} {doing : Doing V N S} {fs : List (Frame V N S)}
    (plain : doing.Plain) (free : Free fs) : doing.RestsOn s fs := by
  cases doing with
  | run p => exact free
  | checking w => exact free
  | asleep w => exact free
  | expired c limit k => exact free
  | _ => exact plain.elim

section Inhabited
variable [Inhabited V] {s s' : State V N S} {t : ThreadId}

theorem calm_default : (default : Ending V).Calm := trivial

theorem lost_rests {k : Option (Bool → Prog V N S)} {fs : List (Frame V N S)}
    (landed : k = none → Landed s fs) (free : k ≠ none → Free fs) : (lost k).RestsOn s fs := by
  cases k with
  | none => exact ⟨landed rfl, Or.inl calm_default⟩
  | some k => exact free (by simp)

theorem sound_of_transition {d : Doing V N S} {fs : List (Frame V N S)} {n : Next V N S}
    (transition : Transition s t d fs n) (sound : Thread.Sound s d fs) (issued : Issued s) :
    Thread.Sound n.state n.doing n.frames := by
  have later := extends_of_transition transition
  obtain ⟨top, stacked⟩ := sound
  have kept := stacked.mono later
  cases transition with
  | plain was is _ =>
    have free := was.free top
    rcases is with plain | ⟨e, rfl⟩
    · exact ⟨plain.rests free, kept⟩
    · exact ⟨⟨free.not_finishing, Or.inr (Or.inl free)⟩, kept⟩
  | guards => exact ⟨trivial, top, kept⟩
  | creates _ => exact ⟨top, kept⟩
  | asks _ => exact ⟨top, kept⟩
  | asksExternal => exact ⟨top, kept⟩
  | strays _ => exact ⟨top, kept⟩
  | queues _ _ _ _ => exact ⟨top, kept⟩
  | inlines opens found free new =>
    obtain ⟨⟨o, decided⟩, -⟩ := Cell.queues_eq_false_iff.mp free
    refine ⟨⟨later.decided ?_, ?_, Or.inr ⟨_, _, rfl⟩⟩, top, kept⟩
    · simp [State.outcome?_of_found found, decided]
    · simp [State.log, State.addCell, opens.cells, new]
  | @loses c _ k _ _ _ closed =>
    refine ⟨lost_rests ?_ ?_, kept⟩
    · rintro rfl
      obtain ⟨b, rest, rfl⟩ := top
      rintro _ _ _ same
      cases same
      exact later.decided (closed stacked.1.2.1)
    · intro some
      obtain ⟨k, rfl⟩ := Option.ne_none_iff_exists'.mp some
      exact top
  | @wins c o k _ cell found undecided =>
    have decided : (s.modifyCell c (·.decide o)).outcome? c ≠ none := by
      simp [State.outcome?_replaceCell found]
    cases k with
    | none => exact ⟨⟨decided, Or.inl top⟩, kept⟩
    | some k => exact ⟨⟨decided, Or.inr ⟨_, _, rfl⟩⟩, top, kept⟩
  | announces => exact ⟨top.mono later, kept⟩
  | takes found queue =>
    have member := issued _ _ (by rw [State.queueOf_of_found found, queue]; exact List.mem_cons_self ..)
    exact ⟨⟨later.decided top.1, Nat.lt_of_lt_of_le member later.cells, Or.inl ⟨_, rfl⟩⟩,
      (show (Frame.draining _).RestsOn s fs from top).mono later, kept⟩
  | empties found queue =>
    refine ⟨⟨?_, Or.inl calm_default⟩, kept⟩
    rintro b r rest rfl
    obtain ⟨decided, ⟨_, _, same⟩ | ⟨_, _, same⟩⟩ := top
    · cases same
      exact later.decided decided
    · cases same
  | idles missing => exact absurd (by simp [State.outcome?, missing]) top.1
  | begins _ => exact ⟨trivial, ⟨_, _, rfl⟩, top, kept⟩
  | beginsRelay => exact ⟨⟨_, _, rfl⟩, ⟨_, _, rfl⟩, top, kept⟩
  | handsOn => exact ⟨⟨_, _, rfl⟩, (show (Frame.finishing _ _).RestsOn s fs from top).mono later, kept⟩
  | gapes undecided => exact absurd undecided top.1
  | relays _ =>
    obtain ⟨r, rest, rfl⟩ := top
    exact ⟨⟨_, _, rfl⟩, kept⟩
  | skips undecided =>
    obtain ⟨r, rest, rfl⟩ := top
    exact absurd undecided stacked.2.1.1
  | @refuses _ _ k _ _ _ _ =>
    refine ⟨lost_rests ?_ ?_, kept⟩
    · rintro rfl
      obtain ⟨r, rest, rfl⟩ := top
      exact fun _ _ _ same => by cases same
    · intro some
      obtain ⟨k, rfl⟩ := Option.ne_none_iff_exists'.mp some
      exact top
  | @settles _ _ k _ _ _ _ =>
    refine ⟨⟨(fun _ _ _ same => by cases same), Or.inl calm_default⟩, ?_⟩
    cases k with
    | none => exact ⟨Or.inl top, kept⟩
    | some k => exact ⟨Or.inr ⟨_, _, rfl⟩, top, kept⟩
  | captures => exact ⟨stacked.1, kept.2⟩
  | catches => exact ⟨stacked.1, kept.2⟩
  | resumes _ => exact ⟨stacked.1, kept.2⟩
  | finishes _ =>
    refine ⟨⟨?_, Or.inl calm_default⟩, kept.2⟩
    obtain ⟨-, -, ⟨rest, rfl⟩ | ⟨p, rest, rfl⟩⟩ := stacked.1
    · exact fun _ _ _ same => by cases same
    · exact fun _ _ _ same => by cases same
  | loops _ => exact ⟨stacked.1.mono later, kept.2⟩
  | rests _ =>
    refine ⟨⟨?_, Or.inl calm_default⟩, kept.2⟩
    rcases stacked.1 with ⟨r, rest, rfl⟩ | ⟨p, rest, rfl⟩
    · exact fun _ _ _ same => by cases same
    · exact fun _ _ _ same => by cases same
  | wakes _ => exact ⟨trivial, kept⟩
  | @unwinds _ frame fs passes =>
    refine ⟨?_, kept.2⟩
    cases frame with
    | capturing r => exact passes.elim
    | guarding k => exact passes.elim
    | resume p => exact ⟨Free.not_finishing stacked.1, Or.inr (Or.inl stacked.1)⟩
    | finishing c r => exact (calm_of_rests top (Or.inl ⟨c, r, rfl⟩)).elim
    | draining c => exact (calm_of_rests top (Or.inr ⟨c, rfl⟩)).elim
    | waking x ws =>
      rcases stacked.1 with ⟨r, rest, rfl⟩ | ⟨p, rest, rfl⟩
      · exact ⟨Free.not_finishing trivial, Or.inr (Or.inl trivial)⟩
      · exact ⟨(fun _ _ _ same => by cases same), Or.inr (Or.inr ⟨p, rest, rfl⟩)⟩

end Inhabited
end Oneshot
