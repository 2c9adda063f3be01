import Oneshot.Proofs.Agrees

/-! # Programs without some of their operations

A program from which resolutions and polls of external futures are deleted still agrees with what the
program agreed with. -/
set_option autoImplicit false
namespace Oneshot
variable {V N S : Type}

/-- The second program is the first without some of its completions, failures, cancellations and polls of
external futures.  Where one is left out, the code goes on as after some answer to it. -/
inductive Deletes : Prog V N S → Prog V N S → Prop
  | unsettled {e a k q} (b) (go : Deletes (k b) q) : Deletes (.settle e a k) q
  | unpolled {e w k q} (r) (go : Deletes (k r) q) : Deletes (.poll e w k) q
  | ret v : Deletes (.ret v) (.ret v)
  | err failure : Deletes (.err failure) (.err failure)
  | panic payload : Deletes (.panic payload) (.panic payload)
  | newCell {start k k'} (go : ∀ c, Deletes (k c) (k' c)) : Deletes (.newCell start k) (.newCell start k')
  | look {c k k'} (go : ∀ x, Deletes (k x) (k' x)) : Deletes (.look c k) (.look c k')
  | decide {c a k k'} (go : ∀ b, Deletes (k b) (k' b)) : Deletes (.decide c a k) (.decide c a k')
  | get {c k k'} (go : ∀ r, Deletes (k r) (k' r)) : Deletes (.get c k) (.get c k')
  | getTimeout {c limit k k'} (go : ∀ r, Deletes (k r) (k' r)) :
      Deletes (.getTimeout c limit k) (.getTimeout c limit k')
  | chain {c p p' k k'} (body : Deletes p p') (go : ∀ r, Deletes (k r) (k' r)) :
      Deletes (.chain c p k) (.chain c p' k')
  | transform {c f f' k k'} (body : ∀ v, Deletes (f v) (f' v)) (go : ∀ r, Deletes (k r) (k' r)) :
      Deletes (.transform c f k) (.transform c f' k')
  | relay {c k k'} (go : ∀ e, Deletes (k e) (k' e)) : Deletes (.relay c k) (.relay c k')
  | newExternal {k k'} (go : ∀ e, Deletes (k e) (k' e)) : Deletes (.newExternal k) (.newExternal k')
  | lookExternal {e k k'} (go : ∀ x, Deletes (k x) (k' x)) :
      Deletes (.lookExternal e k) (.lookExternal e k')
  | settle {e a k k'} (go : ∀ b, Deletes (k b) (k' b)) : Deletes (.settle e a k) (.settle e a k')
  | poll {e w k k'} (go : ∀ r, Deletes (k r) (k' r)) : Deletes (.poll e w k) (.poll e w k')
  | newWaker {p p' k k'} (body : Deletes p p') (go : ∀ w, Deletes (k w) (k' w)) :
      Deletes (.newWaker p k) (.newWaker p' k')
  | share {failure k k'} (go : ∀ c, Deletes (k c) (k' c)) :
      Deletes (.share failure k) (.share failure k')
  | guarded {p p' k k'} (body : Deletes p p') (go : ∀ e, Deletes (k e) (k' e)) :
      Deletes (.guarded p k) (.guarded p' k')
  | spawn {name p p' k k'} (body : Deletes p p') (go : ∀ u, Deletes (k u) (k' u)) :
      Deletes (.spawn name p k) (.spawn name p' k')
  | join {u k k'} (go : ∀ e, Deletes (k e) (k' e)) : Deletes (.join u k) (.join u k')
  | threadName {k k'} (go : ∀ name, Deletes (k name) (k' name)) :
      Deletes (.threadName k) (.threadName k')
  | note {n k k'} (go : Deletes k k') : Deletes (.note n k) (.note n k')
  | ask {k k'} (go : ∀ x, Deletes (k x) (k' x)) : Deletes (.ask k) (.ask k')
  | update {f k k'} (go : Deletes k k') : Deletes (.update f k) (.update f k')

variable [Inhabited V] {σ : Sight V N S} {w : World} {p q : Prog V N S}

/-- An operation is left out, or kept with what follows it and what is inside of it. -/
theorem Deletes.first (σ : Sight V N S) (deletes : Deletes p q) :
    (∃ p', p.Leads p' ∧ Deletes p' q) ∨ ((p.Aside σ → q.Aside σ) ∧
      (∀ q', q.Leads q' → ∃ p', p.Leads p' ∧ Deletes p' q') ∧
      ∀ q', q.Holds q' → ∃ p', p.Holds p' ∧ Deletes p' q') := by
  cases deletes with
  | unsettled b go => exact Or.inl ⟨_, .settle b, go⟩
  | unpolled r go => exact Or.inl ⟨_, .poll r, go⟩
  | newExternal go | lookExternal go | settle go | poll go | share go | join go | threadName go
  | ask go =>
    refine Or.inr ⟨id, ?_, nofun⟩
    rintro _ ⟨⟩
    exact ⟨_, by constructor, go _⟩
  | note go | update go =>
    refine Or.inr ⟨id, ?_, nofun⟩
    rintro _ ⟨⟩
    exact ⟨_, by constructor, go⟩
  | newWaker body go | guarded body go | spawn body go =>
    refine Or.inr ⟨id, ?_, ?_⟩
    · rintro _ ⟨⟩
      exact ⟨_, by constructor, go _⟩
    · rintro _ ⟨⟩
      exact ⟨_, by constructor, body⟩
  | _ => exact Or.inr ⟨id, nofun, nofun⟩

/-- What is apart with some operations, is apart without them. -/
theorem Apart.deletes (apart : Apart σ p) (deletes : Deletes p q) : Apart σ q := by
  induction apart generalizing q with
  | ret v =>
    cases deletes
    exact .ret v
  | err failure =>
    cases deletes
    exact .err failure
  | panic payload noisy =>
    cases deletes
    exact .panic payload noisy
  | goes aside _ _ holdsIh leadsIh =>
    rcases deletes.first σ with ⟨p', lead, deletes⟩ | ⟨aside', leads, holds⟩
    · exact leadsIh p' lead deletes
    · refine .goes (aside' aside) (fun q' hold => ?_) fun q' lead => ?_
      · obtain ⟨p', hold', deletes⟩ := holds q' hold
        exact holdsIh p' hold' deletes
      · obtain ⟨p', lead', deletes⟩ := leads q' lead
        exact leadsIh p' lead' deletes

omit [Inhabited V] in
theorem Deletes.of_ret {v : V} (deletes : Deletes (.ret v) q) : q = .ret v := by
  cases deletes
  rfl

theorem Prog.Outside.deletes (outside : p.Outside σ) (deletes : Deletes p q) :
    (∃ p', p.Leads p' ∧ Deletes p' q) ∨ (q.Outside σ ∧
      ∀ q', q.Leads q' → ∃ p', p.Leads p' ∧ Deletes p' q') := by
  rcases deletes.first σ with left | ⟨_, leads, _⟩
  · exact Or.inl left
  · cases deletes with
    | unsettled b go => exact Or.inl ⟨_, .settle b, go⟩
    | unpolled r go => exact Or.inl ⟨_, .poll r, go⟩
    | newExternal | lookExternal | poll | share | threadName | ask => exact Or.inr ⟨trivial, leads⟩
    | settle | note | update => exact Or.inr ⟨outside, leads⟩
    | newWaker body | spawn body => exact Or.inr ⟨Apart.deletes outside body, leads⟩
    | guarded body =>
      refine Or.inr ⟨?_, leads⟩
      rcases outside with ⟨v, rfl⟩ | ⟨e, a, f, rfl⟩
      · exact Or.inl ⟨v, body.of_ret⟩
      · cases body with
        | unsettled b go => exact Or.inl ⟨f b, go.of_ret⟩
        | settle go => exact Or.inr ⟨e, a, f, congrArg _ (funext fun b => (go b).of_ret)⟩
    | _ => exact outside.elim

/-- A program agrees with another one without operations of its own, if it agrees with it whole. -/
theorem Agrees.deletes {p₀ : Prog V N S} (agrees : Agrees σ w p₀ p) (deletes : Deletes p q) :
    Agrees σ w p₀ q := by
  induction agrees generalizing q with
  | left outside go ih => exact .left outside fun p' lead => ih p' lead deletes
  | right outside go ih =>
    rcases outside.deletes deletes with ⟨p', lead, deletes⟩ | ⟨outside', leads⟩
    · exact ih p' lead deletes
    · refine .right outside' fun q' lead => ?_
      obtain ⟨p', lead', deletes⟩ := leads q' lead
      exact ih p' lead' deletes
  | ret knows =>
    cases deletes
    exact .ret knows
  | err failure =>
    cases deletes
    exact .err failure
  | panic payload =>
    cases deletes
    exact .panic payload
  | newCell starts go ih =>
    cases deletes with
    | newCell go' => exact .newCell starts fun w' c grows shows => ih w' c grows shows (go' c)
  | look shows go ih =>
    cases deletes with
    | look go' => exact .look shows fun w' x x' grows alike => ih w' x x' grows alike (go' x')
  | decide shows attempt go ih =>
    cases deletes with
    | decide go' => exact .decide shows attempt fun w' b grows => ih w' b grows (go' b)
  | get shows go ih =>
    cases deletes with
    | get go' => exact .get shows fun w' r r' grows alike => ih w' r r' grows alike (go' r')
  | getTimeout limit shows go ih =>
    cases deletes with
    | getTimeout go' =>
      exact .getTimeout limit shows fun w' r r' grows alike => ih w' r r' grows alike (go' r')
  | chain shows body go bodyIh ih =>
    cases deletes with
    | chain body' go' =>
      exact .chain shows (bodyIh body') fun w' r grows known => ih w' r grows known (go' r)
  | transform shows body go bodyIh ih =>
    cases deletes with
    | transform body' go' =>
      exact .transform shows (fun w' v grows knows => bodyIh w' v grows knows (body' v))
        fun w' r grows known => ih w' r grows known (go' r)
  | relay shows go ih =>
    cases deletes with
    | relay go' => exact .relay shows fun w' e e' grows => ih w' e e' grows (go' e')
  | share failure go ih =>
    cases deletes with
    | share go' => exact .share failure fun w' c c' grows alike => ih w' c c' grows alike (go' c')
  | guarded body go bodyIh ih =>
    cases deletes with
    | guarded body' go' =>
      exact .guarded (bodyIh body') fun w' e e' grows alike => ih w' e e' grows alike (go' e')
  | spawn name body go bodyIh ih =>
    cases deletes with
    | spawn body' go' =>
      exact .spawn name (bodyIh body') fun w' u u' grows known => ih w' u u' grows known (go' u')
  | join known go ih =>
    cases deletes with
    | join go' => exact .join known fun w' e e' grows alike => ih w' e e' grows alike (go' e')
  | threadName go ih =>
    cases deletes with
    | threadName go' => exact .threadName fun w' name grows => ih w' name grows (go' name)
  | note heard heard' same go ih =>
    cases deletes with
    | note go' => exact .note heard heard' same (ih go')
  | ask go ih =>
    cases deletes with
    | ask go' => exact .ask fun w' x x' grows agree => ih w' x x' grows agree (go' x')
  | update agree go ih =>
    cases deletes with
    | update go' => exact .update agree (ih go')

end Oneshot
