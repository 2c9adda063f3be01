import Oneshot.Proofs.Aligned

/-! # States that correspond

Two states are akin when all cells, all threads that are in both runs, the clock, what programs share and
the counted history correspond, and all other threads are apart.  External futures, wakers, and threads
that only one run has, may differ. -/
set_option autoImplicit false
namespace Oneshot
variable {V N S : Type} [Inhabited V]

structure Cell.Alike (σ : Sight V N S) (w : World) (c : CellId) (cell cell' : Cell V N S) : Prop where
  promised : cell'.promised = cell.promised
  dispatching : cell'.dispatching = cell.dispatching
  outcome : Option.Rel (Held σ w c) cell.outcome cell'.outcome
  queue : List.Forall₂ (Task.Alike σ w) cell.queue cell'.queue
  shown : w.Shows c ∨ cell.queue = []
  waiting : List.Forall₂ (fun t t' => (t, t') ∈ w.threads.pairs) cell.waiting cell'.waiting

inductive Event.Alike (σ : Sight V N S) (w : World) : Event N → Event N → Prop
  | queued c r n d : Alike σ w (.queued c r n d) (.queued c r n d)
  | inlined c r : Alike σ w (.inlined c r) (.inlined c r)
  | started c r : Alike σ w (.started c r) (.started c r)
  | finished c r : Alike σ w (.finished c r) (.finished c r)
  | bridged c e e' : Alike σ w (.bridged c e) (.bridged c e')
  | noted {n n'} (same : σ.notes w n n') : Alike σ w (.noted n) (.noted n')

structure Entry.Alike (σ : Sight V N S) (w : World) (x x' : Entry N) : Prop where
  thread : (x.thread, x'.thread) ∈ w.threads.pairs
  event : x.event.Alike σ w x'.event

structure Thread.Alike (σ : Sight V N S) (w : World) (th th' : Thread V N S) : Prop where
  name : th'.name = th.name
  aligned : Aligned σ w th.doing th.frames th'.doing th'.frames

structure Thread.Alone (σ : Sight V N S) (th : Thread V N S) : Prop where
  doing : th.doing.Apart σ
  frames : ∀ f ∈ th.frames, f.Apart σ

namespace State

def counted (s : State V N S) (σ : Sight V N S) : List (Entry N) :=
  s.history.filter fun entry => entry.event.counts σ

/-- The cell is decided by a bridge: it was registered right after the bridge was made. -/
def Bridged (s : State V N S) (r : CellId) : Prop :=
  ∃ later earlier t c e event, s.history = later ++ ⟨t, event⟩ :: ⟨t, .bridged c e⟩ :: earlier ∧
    (event = .inlined c r ∨ ∃ n d, event = .queued c r n d)

end State

structure Akin (σ : Sight V N S) (w : World) (s s' : State V N S) : Prop where
  causes : w.causes.Within s.nextCause s'.nextCause
  flags : w.cells.length = s.cells.size
  cells : ∀ c : CellId, Option.Rel (Cell.Alike σ w c) s.cells[c]? s'.cells[c]?
  threads : Spread (Thread.Alike σ w) (Thread.Alone σ) w.threads s.threads s'.threads
  now : s'.now = s.now
  client : σ.client w s.client s'.client
  history : List.Forall₂ (Entry.Alike σ w) (s.counted σ) (s'.counted σ)
  bridged : ∀ r, w.Hides r → s.Bridged r
  bridged' : ∀ r, w.Hides r → s'.Bridged r
  secluded : s.Secluded σ
  secluded' : s'.Secluded σ

variable {σ : Sight V N S} {w w' : World} {s s' : State V N S} {t t' : ThreadId}

section Mono

theorem Cell.Alike.mono (grows : w.Grows w') {c : CellId} {cell cell' : Cell V N S}
    (alike : cell.Alike σ w c cell') : cell.Alike σ w' c cell' where
  promised := alike.promised
  dispatching := alike.dispatching
  outcome := Option.Rel.mono (fun _ _ => Held.mono grows) alike.outcome
  queue := alike.queue.imp fun _ _ => Task.Alike.mono grows
  shown := alike.shown.imp_left (World.Shows.mono grows)
  waiting := alike.waiting.imp fun _ _ member => grows.threads member

theorem Cell.Alike.queues {c : CellId} {cell cell' : Cell V N S} (alike : cell.Alike σ w c cell') :
    cell'.queues = cell.queues := by
  have outcomes := alike.outcome
  unfold Cell.queues
  rw [alike.dispatching]
  generalize cell.outcome = o at outcomes
  generalize cell'.outcome = o' at outcomes
  cases outcomes <;> rfl

theorem Entry.Alike.mono (grows : w.Grows w') {x x' : Entry N} (alike : x.Alike σ w x') :
    x.Alike σ w' x' := by
  refine ⟨grows.threads alike.thread, ?_⟩
  have event := alike.event
  revert event
  generalize x.event = event
  generalize x'.event = event'
  rintro (⟨c, r, n, d⟩ | ⟨c, r⟩ | ⟨c, r⟩ | ⟨c, r⟩ | ⟨c, e, e'⟩ | same)
  · exact .queued c r n d
  · exact .inlined c r
  · exact .started c r
  · exact .finished c r
  · exact .bridged c e e'
  · exact .noted (σ.notes_mono grows same)

theorem Thread.Alike.mono (grows : w.Grows w') {th th' : Thread V N S} (alike : th.Alike σ w th') :
    th.Alike σ w' th' :=
  ⟨alike.name, alike.aligned.mono grows⟩

omit [Inhabited V] in
theorem State.Bridged.mono {r : CellId} (bridged : s.Bridged r) (entries : List (Entry N))
    (history : s'.history = entries ++ s.history) : s'.Bridged r := by
  obtain ⟨later, earlier, t, c, e, event, split, registered⟩ := bridged
  exact ⟨entries ++ later, earlier, t, c, e, event, by rw [history, split, List.append_assoc],
    registered⟩

end Mono

theorem counted_of_sidestep {s₁ : State V N S} (step : Sidestep σ s s₁) :
    s₁.counted σ = s.counted σ := by
  obtain ⟨entries, history, silent⟩ := step.history
  rw [State.counted, history, List.filter_append, List.filter_eq_nil_iff.mpr]
  · rfl
  · intro entry member
    rw [silent entry member]
    decide

theorem Thread.Alone.fresh {name : Option String} {body : Prog V N S} (apart : Apart σ body) :
    Thread.Alone σ ⟨name, .run body, []⟩ :=
  ⟨.run apart, by simp⟩

theorem mem_waiting (paired : (t, t') ∈ w.threads.pairs) {ts ts' : List ThreadId}
    (waiting : List.Forall₂ (fun t t' => (t, t') ∈ w.threads.pairs) ts ts') : t' ∈ ts' ↔ t ∈ ts := by
  induction waiting with
  | nil => simp
  | cons member _ ih => rw [List.mem_cons, List.mem_cons, ih, w.threads.oneToOne paired member]

theorem paired_filter (paired : (t, t') ∈ w.threads.pairs) {ts ts' : List ThreadId}
    (waiting : List.Forall₂ (fun t t' => (t, t') ∈ w.threads.pairs) ts ts') :
    List.Forall₂ (fun t t' => (t, t') ∈ w.threads.pairs) (ts.filter (· ≠ t)) (ts'.filter (· ≠ t')) := by
  induction waiting with
  | nil => exact .nil
  | @cons u u' _ _ member _ ih =>
    have same := w.threads.oneToOne member paired
    simp only [List.filter_cons, decide_not, Bool.not_eq_eq_eq_not, Bool.not_true,
      decide_eq_false_iff_not, ← same] at ih ⊢
    by_cases here : u = t
    · rw [if_neg (not_not_intro here), if_neg (not_not_intro here)]
      exact ih
    · rw [if_pos here, if_pos here]
      exact .cons member ih

namespace Akin
variable (akin : Akin σ w s s')
include akin

theorem size : s'.cells.size = s.cells.size := by
  have missing : ∀ c : CellId, s'.cells[c]? = none ↔ s.cells[c]? = none := by
    intro c
    have related := akin.cells c
    generalize s.cells[c]? = x at related
    generalize s'.cells[c]? = x' at related
    cases related <;> simp
  simp only [Array.getElem?_eq_none_iff] at missing
  exact Nat.le_antisymm ((missing _).mpr (Nat.le_refl _)) ((missing _).mp (Nat.le_refl _))

theorem left {s₁ : State V N S} (step : Sidestep σ s s₁) : Akin σ w s₁ s' where
  causes := akin.causes.mono step.nextCause (Nat.le_refl _)
  flags := step.cells ▸ akin.flags
  cells := step.cells ▸ akin.cells
  threads := by
    rcases step.threads with same | ⟨name, body, apart, pushed⟩
    · exact same ▸ akin.threads
    · exact pushed ▸ akin.threads.pushLeft (.fresh apart)
  now := akin.now.trans step.now.symm
  client := (step.client w s'.client).1 akin.client
  history := counted_of_sidestep step ▸ akin.history
  bridged r hides := by
    obtain ⟨entries, history, _⟩ := step.history
    exact (akin.bridged r hides).mono entries history
  bridged' := akin.bridged'
  secluded := step.secluded akin.secluded
  secluded' := akin.secluded'

theorem right {s₁ : State V N S} (step : Sidestep σ s' s₁) : Akin σ w s s₁ where
  causes := akin.causes.mono (Nat.le_refl _) step.nextCause
  flags := akin.flags
  cells := step.cells ▸ akin.cells
  threads := by
    rcases step.threads with same | ⟨name, body, apart, pushed⟩
    · exact same ▸ akin.threads
    · exact pushed ▸ akin.threads.pushRight (.fresh apart)
  now := step.now.trans akin.now
  client := (step.client w s.client).2 akin.client
  history := counted_of_sidestep step ▸ akin.history
  bridged := akin.bridged
  bridged' r hides := by
    obtain ⟨entries, history, _⟩ := step.history
    exact (akin.bridged' r hides).mono entries history
  secluded := akin.secluded
  secluded' := step.secluded akin.secluded'

theorem setBoth (paired : (t, t') ∈ w.threads.pairs) {th th' : Thread V N S}
    (alike : th.Alike σ w th') : Akin σ w (s.setThread t th) (s'.setThread t' th') :=
  { akin with threads := akin.threads.setBoth paired alike }

theorem setLeft (paired : (t, t') ∈ w.threads.pairs) {th th' : Thread V N S}
    (found : s'.threads[t']? = some th') (alike : th.Alike σ w th') :
    Akin σ w (s.setThread t th) s' :=
  { akin with threads := akin.threads.setLeft paired found alike }

theorem setRight (paired : (t, t') ∈ w.threads.pairs) {th th' : Thread V N S}
    (found : s.threads[t]? = some th) (alike : th.Alike σ w th') :
    Akin σ w s (s'.setThread t' th') :=
  { akin with threads := akin.threads.setRight paired found alike }

theorem log (paired : (t, t') ∈ w.threads.pairs) {event event' : Event N}
    (alike : event.Alike σ w event') (counts : event.counts σ = true)
    (counts' : event'.counts σ = true) : Akin σ w (s.log t event) (s'.log t' event') :=
  { akin with
    history := by
      simp only [State.counted, State.log, List.filter_cons, counts, counts', if_true]
      exact .cons ⟨paired, alike⟩ akin.history
    bridged := fun r hides => (akin.bridged r hides).mono [_] rfl
    bridged' := fun r hides => (akin.bridged' r hides).mono [_] rfl }

theorem modifyCell (c : CellId) (f f' : Cell V N S → Cell V N S)
    (keeps : ∀ cell cell', cell.Alike σ w c cell' → (f cell).Alike σ w c (f' cell')) :
    Akin σ w (s.modifyCell c f) (s'.modifyCell c f') :=
  { akin with
    flags := akin.flags.trans Array.size_modify.symm
    cells := by
      intro d
      rw [State.getElem?_modifyCell, State.getElem?_modifyCell]
      split
      next same =>
        subst same
        have related := akin.cells c
        generalize s.cells[c]? = x at related
        generalize s'.cells[c]? = x' at related
        cases related with
        | some related => exact .some (keeps _ _ related)
        | none => exact .none
      next => exact akin.cells d }

theorem useCause : Akin σ (w.addCause _ _ akin.causes) s.useCause s'.useCause :=
  have grows := World.grows_addCause w _ _ akin.causes
  { akin with
    causes := Pairing.within_add akin.causes
    cells := fun c => Option.Rel.mono (fun _ _ => Cell.Alike.mono grows) (akin.cells c)
    threads := akin.threads.imp fun _ _ => Thread.Alike.mono grows
    client := σ.client_mono grows akin.client
    history := akin.history.imp fun _ _ => Entry.Alike.mono grows }

theorem addThread {th th' : Thread V N S} (alike : th.Alike σ w th') :
    Akin σ (w.addThread _ _ akin.threads.within) { s with threads := s.threads.push th }
      { s' with threads := s'.threads.push th' } :=
  have grows := World.grows_addThread w _ _ akin.threads.within
  { akin with
    cells := fun c => Option.Rel.mono (fun _ _ => Cell.Alike.mono grows) (akin.cells c)
    threads := (akin.threads.imp fun _ _ => Thread.Alike.mono grows).pushBoth (alike.mono grows)
    client := σ.client_mono grows akin.client
    history := akin.history.imp fun _ _ => Entry.Alike.mono grows }

theorem hides_of_addCell {shown : Bool} {r : Nat} (hides : (w.addCell shown).Hides r) :
    w.Hides r ∨ (r = s.cells.size ∧ shown = false) := by
  rw [World.Hides, World.addCell, List.getElem?_append] at hides
  split at hides
  next => exact Or.inl hides
  next beyond =>
    obtain ⟨last, hidden⟩ := List.getElem?_eq_some_iff.mp hides
    have flags := akin.flags
    have only : r - w.cells.length < 1 := last
    exact Or.inr ⟨by omega, by simpa using hidden⟩

theorem addCell (shown : Bool) {cell cell' : Cell V N S}
    (alike : cell.Alike σ (w.addCell shown) s.cells.size cell')
    (made : shown = false → s.Bridged s.cells.size ∧ s'.Bridged s.cells.size) :
    Akin σ (w.addCell shown) (s.addCell cell) (s'.addCell cell') :=
  have grows := World.grows_addCell w shown
  { akin with
    flags := by simp [World.addCell, State.addCell, akin.flags]
    cells := by
      intro c
      simp only [State.addCell, Array.getElem?_push, akin.size]
      split
      next here => exact here ▸ .some alike
      next => exact Option.Rel.mono (fun _ _ => Cell.Alike.mono grows) (akin.cells c)
    threads := akin.threads.imp fun _ _ => Thread.Alike.mono grows
    client := σ.client_mono grows akin.client
    history := akin.history.imp fun _ _ => Entry.Alike.mono grows
    bridged := by
      intro r hides
      rcases akin.hides_of_addCell hides with old | ⟨rfl, hidden⟩
      · exact akin.bridged r old
      · exact (made hidden).1
    bridged' := by
      intro r hides
      rcases akin.hides_of_addCell hides with old | ⟨rfl, hidden⟩
      · exact akin.bridged' r old
      · exact (made hidden).2 }

theorem outcome (c : CellId) : Option.Rel (Held σ w c) (s.outcome? c) (s'.outcome? c) := by
  have related := akin.cells c
  unfold State.outcome?
  generalize s.cells[c]? = x at related
  generalize s'.cells[c]? = x' at related
  cases related with
  | some alike => exact alike.outcome
  | none => exact .none

theorem snapshot {c : CellId} (shows : w.Shows c) : (s.snapshot c).Alike σ w (s'.snapshot c) := by
  have related := akin.cells c
  unfold State.snapshot
  generalize s.cells[c]? = x at related
  generalize s'.cells[c]? = x' at related
  cases related with
  | some alike =>
    exact ⟨Option.Rel.mono (fun _ _ held => held.alike shows) alike.outcome, alike.queue.length_eq⟩
  | none => exact ⟨.none, rfl⟩

theorem admits (c : CellId) {a a' : Attempt V} (same : a.needsPromise = a'.needsPromise) :
    s'.admits c a' = s.admits c a := by
  have related := akin.cells c
  unfold State.admits
  rw [same]
  generalize s.cells[c]? = x at related
  generalize s'.cells[c]? = x' at related
  cases related with
  | some alike => simp only [alike.promised]
  | none => rfl

theorem awake (paired : (t, t') ∈ w.threads.pairs) (c : CellId) : s'.awake t' c = s.awake t c := by
  have related := akin.cells c
  unfold State.awake
  generalize s.cells[c]? = x at related
  generalize s'.cells[c]? = x' at related
  cases related with
  | some alike => simp only [List.contains_eq_mem, mem_waiting paired alike.waiting]
  | none => rfl

theorem rouse (paired : (t, t') ∈ w.threads.pairs) (c : CellId) :
    Akin σ w (s.modifyCell c (·.rouse t)) (s'.modifyCell c (·.rouse t')) :=
  akin.modifyCell c _ _ fun _ _ alike => { alike with waiting := paired_filter paired alike.waiting }

theorem asleep {name : Option String} {x : Wait V N S} {fs : List (Frame V N S)}
    (found : s.threads[t]? = some ⟨name, .asleep x, fs⟩) : ∃ t' x' fs', (t, t') ∈ w.threads.pairs ∧
      s'.threads[t']? = some ⟨name, .asleep x', fs'⟩ ∧ x.Alike σ w x' ∧
      List.Forall₂ (Frame.Alike σ w) fs fs' := by
  by_cases known : ∃ t', (t, t') ∈ w.threads.pairs
  · obtain ⟨t', paired⟩ := known
    obtain ⟨_, ⟨name', d', fs'⟩, found₁, found', names, aligned⟩ := akin.threads.both t t' paired
    cases found.symm.trans found₁
    obtain ⟨x', rfl, waits, frames⟩ := aligned.of_asleep rfl
    cases names
    exact ⟨t', x', fs', paired, found', waits, frames⟩
  · have alone := akin.threads.left t _ found fun t' paired => known ⟨t', paired⟩
    cases alone.doing

theorem ending (paired : (t, t') ∈ w.threads.pairs) {e : Ending V} (ended : s.ending? t = some e) :
    ∃ e', s'.ending? t' = some e' ∧ e.Alike σ w e' := by
  obtain ⟨⟨name, d, fs⟩, ⟨name', d', fs'⟩, found, found', _, aligned⟩ := akin.threads.both t t' paired
  rw [State.ending?, found] at ended
  obtain ⟨rfl, rfl⟩ : d = .ended e ∧ fs = [] := by
    split at ended
    next same =>
      cases same
      cases ended
      exact ⟨rfl, rfl⟩
    next => cases ended
  obtain ⟨e', rfl, rfl, alike⟩ := aligned.of_ended rfl rfl
  exact ⟨e', by rw [State.ending?, found'], alike⟩

end Akin
end Oneshot
