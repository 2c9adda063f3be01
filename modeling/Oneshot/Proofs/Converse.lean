import Oneshot.Proofs.Akin

/-! # The two runs change places

What corresponds in a world corresponds the other way round in the world with its pairs turned round.  So
states that are akin are akin when the runs change places (`Akin.flip`). -/
set_option autoImplicit false
namespace Oneshot
variable {V N S : Type}

theorem Pairing.flip_flip (P : Pairing) : P.flip.flip = P := by
  obtain ⟨pairs, _⟩ := P
  simp [Pairing.flip]

namespace World
variable {w w' : World}

def flip (w : World) : World := ⟨w.causes.flip, w.threads.flip, w.cells⟩

theorem flip_flip (w : World) : w.flip.flip = w := by
  simp only [flip, Pairing.flip_flip]

theorem Grows.flip (grows : w.Grows w') : w.flip.Grows w'.flip :=
  ⟨List.map_subset _ grows.causes, List.map_subset _ grows.threads, grows.cells⟩

end World

mutual
theorem Failure.Alike.flip {w : World} {f f' : Failure} (alike : f.Alike w.flip f') : f'.Alike w f := by
  cases alike with
  | message text => exact .message text
  | system kind => exact .system kind
  | systemWith kind text => exact .systemWith kind text
  | labelled text => exact .labelled text
  | wrapping text source => exact .wrapping text (Failure.Alike.flip source)
  | panicked message => exact .panicked message
  | unread error => exact .unread (ReadError.Alike.flip error)

theorem ReadError.Alike.flip {w : World} {e e' : ReadError} (alike : e.Alike w.flip e') :
    e'.Alike w e := by
  cases alike with
  | timeout limit => exact .timeout limit
  | cancelled => exact .cancelled
  | failed cause => exact .failed (Cause.Alike.flip cause)

theorem Cause.Alike.flip {w : World} {c c' : Cause} (alike : c.Alike w.flip c') : c'.Alike w c := by
  cases alike with
  | mk same failure => exact .mk (Pairing.mem_flip.mp same) (Failure.Alike.flip failure)
end

theorem Cause.Alike.of_flip {w : World} {c c' : Cause} (alike : c.Alike w c') : c'.Alike w.flip c := by
  rw [← World.flip_flip w] at alike
  exact alike.flip

theorem Option.Rel.flip {α β : Type} {r : α → β → Prop} {x : Option α} {y : Option β}
    (rel : Option.Rel r x y) : Option.Rel (fun b a => r a b) y x := by
  cases rel with
  | some related => exact .some related
  | none => exact .none

section Sight
variable [Inhabited V] {σ : Sight V N S} {w : World}

def Sight.flip (σ : Sight V N S) : Sight V N S where
  cells := σ.cells
  plain := σ.plain
  heard := σ.heard
  notes w n n' := σ.notes w.flip n' n
  notes_mono grows same := σ.notes_mono grows.flip same
  client w x x' := σ.client w.flip x' x
  client_mono grows agree := σ.client_mono grows.flip agree
  calm := σ.calm

theorem Sight.flip_flip (σ : Sight V N S) : σ.flip.flip = σ := by
  simp only [Sight.flip, World.flip_flip]

theorem Outcome.Alike.flip {o o' : Outcome V} (alike : o.Alike σ w.flip o') : o'.Alike σ.flip w o := by
  cases alike with
  | value knows => exact .value knows
  | failed cause => exact .failed cause.flip
  | cancelled => exact .cancelled

theorem Reading.Alike.flip {r r' : Reading V} (alike : Reading.Alike σ w.flip r r') :
    Reading.Alike σ.flip w r' r := by
  cases alike with
  | ok knows => exact .ok knows
  | error error => exact .error error.flip

theorem Ending.Alike.flip {e e' : Ending V} (alike : e.Alike σ w.flip e') : e'.Alike σ.flip w e := by
  cases alike with
  | value knows => exact .value knows
  | failed failure => exact .failed failure.flip
  | panicked payload => exact .panicked payload

theorem Reading.Alike.of_flip {r r' : Reading V} (alike : Reading.Alike σ.flip w r r') :
    Reading.Alike σ w.flip r' r := by
  rw [← World.flip_flip w] at alike
  exact Sight.flip_flip σ ▸ alike.flip

theorem Ending.Alike.of_flip {e e' : Ending V} (alike : e.Alike σ.flip w e') : e'.Alike σ w.flip e := by
  rw [← World.flip_flip w] at alike
  exact Sight.flip_flip σ ▸ alike.flip

theorem Attempt.Alike.flip {a a' : Attempt V} (alike : a.Alike σ w.flip a') : a'.Alike σ.flip w a := by
  cases alike with
  | complete knows => exact .complete knows
  | fail failure => exact .fail failure.flip
  | cancel => exact .cancel

theorem Snapshot.Alike.flip {x x' : Snapshot V} (alike : x.Alike σ w.flip x') : x'.Alike σ.flip w x where
  outcome := Option.Rel.mono (fun _ _ => Outcome.Alike.flip) (Option.Rel.flip alike.outcome)
  queued := alike.queued.symm

theorem Snapshot.Alike.of_flip {x x' : Snapshot V} (alike : x.Alike σ.flip w x') :
    x'.Alike σ w.flip x := by
  rw [← World.flip_flip w] at alike
  exact Sight.flip_flip σ ▸ alike.flip

section Apart

theorem Sight.Neutral.flip {f : S → S} (neutral : σ.Neutral f) : σ.flip.Neutral f :=
  fun w x x' agree => (neutral w.flip x' x agree).symm

theorem Prog.Aside.flip {p : Prog V N S} (aside : p.Aside σ) : p.Aside σ.flip := by
  cases p with
  | update f k => exact Sight.Neutral.flip aside
  | _ => exact aside

theorem Apart.flip {p : Prog V N S} (apart : Apart σ p) : Apart σ.flip p := by
  induction apart with
  | ret v => exact .ret v
  | err failure => exact .err failure
  | panic payload noisy => exact .panic payload noisy
  | goes aside _ _ holdsIh leadsIh => exact .goes aside.flip holdsIh leadsIh

theorem Frame.Apart.flip {f : Frame V N S} (apart : f.Apart σ) : f.Apart σ.flip := by
  cases apart with
  | resume code => exact .resume code.flip
  | waking e ws => exact .waking e ws
  | guarding code => exact .guarding fun e => (code e).flip

theorem Doing.Apart.flip {d : Doing V N S} (apart : d.Apart σ) : d.Apart σ.flip := by
  cases apart with
  | run code => exact .run code.flip
  | settling code => exact .settling fun b => (code b).flip
  | ended allowed => exact .ended allowed

theorem State.Secluded.flip {s : State V N S} (secluded : s.Secluded σ) : s.Secluded σ.flip :=
  fun p member => (secluded p member).flip

theorem Prog.Outside.flip {p : Prog V N S} (outside : p.Outside σ) : p.Outside σ.flip := by
  cases p with
  | newWaker p k => exact Oneshot.Apart.flip outside
  | spawn name p k => exact Oneshot.Apart.flip outside
  | update f k => exact Sight.Neutral.flip outside
  | _ => exact outside

end Apart

theorem Agrees.flip {p q : Prog V N S} (agrees : Agrees σ w.flip p q) : Agrees σ.flip w q p := by
  generalize same : w.flip = w' at agrees
  induction agrees generalizing w with
  | ret knows =>
    subst same
    exact .ret knows
  | err failure =>
    subst same
    exact .err failure.flip
  | panic payload => exact .panic payload
  | newCell starts go ih =>
    subst same
    exact .newCell (Option.Rel.mono (fun _ _ => Attempt.Alike.flip) (Option.Rel.flip starts))
      fun w₁ c grows shows => ih w₁.flip c grows.flip shows rfl
  | look shows go ih =>
    subst same
    exact .look shows fun w₁ x x' grows alike => ih w₁.flip x' x grows.flip alike.of_flip rfl
  | decide shows attempt go ih =>
    subst same
    exact .decide shows attempt.flip fun w₁ b grows => ih w₁.flip b grows.flip rfl
  | get shows go ih =>
    subst same
    exact .get shows fun w₁ r r' grows alike => ih w₁.flip r' r grows.flip alike.of_flip rfl
  | getTimeout limit shows go ih =>
    subst same
    exact .getTimeout limit shows fun w₁ r r' grows alike => ih w₁.flip r' r grows.flip alike.of_flip rfl
  | chain shows body go bodyIh ih =>
    subst same
    exact .chain shows (bodyIh rfl) fun w₁ r grows known => ih w₁.flip r grows.flip known rfl
  | transform shows body go bodyIh ih =>
    subst same
    exact .transform shows (fun w₁ v grows knows => bodyIh w₁.flip v grows.flip knows rfl)
      fun w₁ r grows known => ih w₁.flip r grows.flip known rfl
  | relay shows go ih =>
    subst same
    exact .relay shows fun w₁ e e' grows => ih w₁.flip e' e grows.flip rfl
  | share failure go ih =>
    subst same
    exact .share failure.flip fun w₁ c c' grows alike => ih w₁.flip c' c grows.flip alike.of_flip rfl
  | guarded body go bodyIh ih =>
    subst same
    exact .guarded (bodyIh rfl) fun w₁ e e' grows alike => ih w₁.flip e' e grows.flip alike.of_flip rfl
  | spawn name body go bodyIh ih =>
    subst same
    exact .spawn name (bodyIh rfl) fun w₁ u u' grows known =>
      ih w₁.flip u' u grows.flip (Pairing.mem_flip.mpr known) rfl
  | join paired go ih =>
    subst same
    exact .join (Pairing.mem_flip.mp paired) fun w₁ e e' grows alike =>
      ih w₁.flip e' e grows.flip alike.of_flip rfl
  | threadName go ih =>
    subst same
    exact .threadName fun w₁ name grows => ih w₁.flip name grows.flip rfl
  | note heard heard' alike go ih =>
    subst same
    exact .note heard' heard alike (ih rfl)
  | ask go ih =>
    subst same
    exact .ask fun w₁ x x' grows agree => ih w₁.flip x' x grows.flip agree rfl
  | update agree go ih =>
    subst same
    exact .update (fun w₁ x x' grows => agree w₁.flip x' x grows.flip) (ih rfl)
  | left outside go ih => exact .right outside.flip fun p' lead => ih p' lead same
  | right outside go ih => exact .left outside.flip fun q' lead => ih q' lead same

theorem Task.Alike.flip {x x' : Task V N S} (alike : x.Alike σ w.flip x') : x'.Alike σ.flip w x := by
  cases alike with
  | chain body => exact .chain body.flip
  | transform body => exact .transform fun w₁ v grows knows => (body w₁.flip v grows.flip knows).flip
  | relay hides => exact .relay hides

theorem Frame.Alike.flip {f f' : Frame V N S} (alike : f.Alike σ w.flip f') : f'.Alike σ.flip w f := by
  cases alike with
  | resume code => exact .resume code.flip
  | finishing c r => exact .finishing c r
  | draining c => exact .draining c
  | capturing r => exact .capturing r
  | guarding go =>
    exact .guarding fun w₁ e e' grows alike => (go w₁.flip e' e grows.flip alike.of_flip).flip

theorem Wait.Alike.flip {x x' : Wait V N S} (alike : x.Alike σ w.flip x') : x'.Alike σ.flip w x where
  cell := alike.cell.symm
  limit := alike.limit.symm
  shows := alike.cell ▸ alike.shows
  go w₁ r r' grows related := (alike.go w₁.flip r' r grows.flip related.of_flip).flip

theorem Held.flip {c : CellId} {o o' : Outcome V} (held : Held σ w.flip c o o') :
    Held σ.flip w c o' o :=
  held.imp id Outcome.Alike.flip

section Aligned
variable {d d' : Doing V N S} {fs fs' : List (Frame V N S)}

theorem Call.flip {k : Option (Bool → Prog V N S)} (call : Call σ k d fs) : Call σ.flip k d fs := by
  cases call with
  | asking => exact .asking
  | waking e ws apart frames => exact .waking e ws apart.flip fun f member => (frames f member).flip
  | woken allowed => exact .woken allowed

theorem Heads.flip {P : Prog V N S → Prop} (heads : Heads σ d fs P) : Heads σ.flip d fs P := by
  cases heads with
  | here p => exact .here p
  | call calm call => exact .call calm call.flip
  | begun f => exact .begun f
  | guarded call => exact .guarded call.flip
  | answered => exact .answered
  | caught => exact .caught

theorem Bridging.flip (bridging : Bridging σ d fs) : Bridging σ.flip d fs := by
  cases bridging with
  | call call => exact .call call.flip
  | past e => exact .past e

theorem alike_flip (frames : List.Forall₂ (Frame.Alike σ w.flip) fs fs') :
    List.Forall₂ (Frame.Alike σ.flip w) fs' fs :=
  (frames.imp fun _ _ => Frame.Alike.flip).flip

theorem Aligned.flip (aligned : Aligned σ w.flip d fs d' fs') : Aligned σ.flip w d' fs' d fs := by
  cases aligned with
  | code heads heads' agree frames =>
    exact .code heads'.flip heads.flip (fun p' p on' on => (agree p p' on on').flip) (alike_flip frames)
  | deciding held answers frames =>
    refine .deciding held.flip ?_ (alike_flip frames)
    cases answers with
    | some go => exact .some fun w₁ b grows => (go w₁.flip b grows.flip).flip
    | none => exact .none
  | announcing frames => exact .announcing (alike_flip frames)
  | draining frames => exact .draining (alike_flip frames)
  | starting shows tasks frames => exact .starting shows tasks.flip (alike_flip frames)
  | relaying hides frames => exact .relaying hides (alike_flip frames)
  | bridging bridging bridging' hides frames =>
    exact .bridging bridging'.flip bridging.flip hides (alike_flip frames)
  | checking waits frames => exact .checking waits.flip (alike_flip frames)
  | asleep waits frames => exact .asleep waits.flip (alike_flip frames)
  | expired shows go frames =>
    exact .expired shows (fun w₁ r r' grows alike => (go w₁.flip r' r grows.flip alike.of_flip).flip)
      (alike_flip frames)
  | ended ending frames => exact .ended ending.flip (alike_flip frames)

end Aligned

theorem Cell.Alike.flip {c : CellId} {cell cell' : Cell V N S} (alike : cell.Alike σ w.flip c cell') :
    cell'.Alike σ.flip w c cell where
  promised := alike.promised.symm
  dispatching := alike.dispatching.symm
  outcome := Option.Rel.mono (fun _ _ => Held.flip) (Option.Rel.flip alike.outcome)
  queue := (alike.queue.imp fun _ _ => Task.Alike.flip).flip
  shown := alike.shown.imp_right fun empty => by
    have queue := alike.queue
    rw [empty] at queue
    exact List.forall₂_nil_left_iff.mp queue
  waiting := (alike.waiting.imp fun _ _ => Pairing.mem_flip.mp).flip

theorem Event.Alike.flip {event event' : Event N} (alike : event.Alike σ w.flip event') :
    event'.Alike σ.flip w event := by
  cases alike with
  | queued c r n d => exact .queued c r n d
  | inlined c r => exact .inlined c r
  | started c r => exact .started c r
  | finished c r => exact .finished c r
  | bridged c e e' => exact .bridged c e' e
  | noted same => exact .noted same

theorem Entry.Alike.flip {x x' : Entry N} (alike : x.Alike σ w.flip x') : x'.Alike σ.flip w x :=
  ⟨Pairing.mem_flip.mp alike.thread, alike.event.flip⟩

theorem Thread.Alike.flip {th th' : Thread V N S} (alike : th.Alike σ w.flip th') :
    th'.Alike σ.flip w th :=
  ⟨alike.name.symm, alike.aligned.flip⟩

theorem Thread.Alone.flip {th : Thread V N S} (alone : th.Alone σ) : th.Alone σ.flip :=
  ⟨alone.doing.flip, fun f member => (alone.frames f member).flip⟩

theorem Akin.flip {s s' : State V N S} (akin : Akin σ w.flip s s') : Akin σ.flip w s' s where
  causes a b member := (akin.causes b a (Pairing.mem_flip.mpr member)).symm
  flags := akin.flags.trans akin.size.symm
  cells c := Option.Rel.mono (fun _ _ => Cell.Alike.flip) (Option.Rel.flip (akin.cells c))
  threads := {
    both := by
      intro t t' paired
      obtain ⟨th, th', found, found', alike⟩ := akin.threads.both t' t (Pairing.mem_flip.mpr paired)
      exact ⟨th', th, found', found, alike.flip⟩
    left := fun t th found alone =>
      (akin.threads.right t th found fun u member => alone u (Pairing.mem_flip.mp member)).flip
    right := fun t th found alone =>
      (akin.threads.left t th found fun u member => alone u (Pairing.mem_flip.mp member)).flip }
  now := akin.now.symm
  client := akin.client
  history := (akin.history.imp fun _ _ => Entry.Alike.flip).flip
  bridged := akin.bridged'
  bridged' := akin.bridged
  secluded := akin.secluded'.flip
  secluded' := akin.secluded.flip

theorem Akin.of_flip {s s' : State V N S} (akin : Akin σ.flip w s' s) : Akin σ w.flip s s' := by
  rw [← World.flip_flip w] at akin
  exact Sight.flip_flip σ ▸ akin.flip

end Sight
end Oneshot
