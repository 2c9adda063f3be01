import Oneshot.Proofs.Seclusion

/-! # Programs that agree

Two programs agree when they do the same to promises and futures, one operation after the other, whatever
each of them does to external futures in between: those operations may stand on one side only, and what
follows does not depend on their answers.  Identities that operations answer with may differ, as the
world of the two runs says. -/
set_option autoImplicit false
namespace Oneshot
variable {V N S : Type} [Inhabited V]

/-- Operations that one of two programs may have to itself.  Where wakers may panic, a program catches
what its resolutions throw. -/
def Prog.Outside (σ : Sight V N S) : Prog V N S → Prop
  | .newExternal _ | .lookExternal _ _ | .poll _ _ _ | .share _ _ | .threadName _ | .ask _ => True
  | .settle _ _ _ => σ.calm
  | .guarded body _ =>
    (∃ v, body = .ret v) ∨ ∃ e a, ∃ f : Bool → V, body = .settle e a fun b => .ret (f b)
  | .newWaker p _ | .spawn _ p _ => Apart σ p
  | .note n _ => σ.heard n = false
  | .update f _ => σ.Neutral f
  | _ => False

inductive Agrees (σ : Sight V N S) : World → Prog V N S → Prog V N S → Prop
  | ret {w v} (knows : σ.Knows w v) : Agrees σ w (.ret v) (.ret v)
  | err {w f f'} (failure : f.Alike w f') : Agrees σ w (.err f) (.err f')
  | panic {w} payload : Agrees σ w (.panic payload) (.panic payload)
  | newCell {w a a' k k'} (starts : Option.Rel (Attempt.Alike σ w) a a')
      (go : ∀ w' c, w.Grows w' → w'.Shows c → Agrees σ w' (k c) (k' c)) :
      Agrees σ w (.newCell a k) (.newCell a' k')
  | look {w c k k'} (shows : w.Shows c)
      (go : ∀ w' x x', w.Grows w' → x.Alike σ w' x' → Agrees σ w' (k x) (k' x')) :
      Agrees σ w (.look c k) (.look c k')
  | decide {w c a a' k k'} (shows : w.Shows c) (attempt : a.Alike σ w a')
      (go : ∀ w' b, w.Grows w' → Agrees σ w' (k b) (k' b)) :
      Agrees σ w (.decide c a k) (.decide c a' k')
  | get {w c k k'} (shows : w.Shows c)
      (go : ∀ w' r r', w.Grows w' → Reading.Alike σ w' r r' → Agrees σ w' (k r) (k' r')) :
      Agrees σ w (.get c k) (.get c k')
  | getTimeout {w c k k'} (limit) (shows : w.Shows c)
      (go : ∀ w' r r', w.Grows w' → Reading.Alike σ w' r r' → Agrees σ w' (k r) (k' r')) :
      Agrees σ w (.getTimeout c limit k) (.getTimeout c limit k')
  | chain {w c p p' k k'} (shows : w.Shows c) (body : Agrees σ w p p')
      (go : ∀ w' r, w.Grows w' → w'.Shows r → Agrees σ w' (k r) (k' r)) :
      Agrees σ w (.chain c p k) (.chain c p' k')
  | transform {w c f f' k k'} (shows : w.Shows c)
      (body : ∀ w' v, w.Grows w' → σ.Knows w' v → Agrees σ w' (f v) (f' v))
      (go : ∀ w' r, w.Grows w' → w'.Shows r → Agrees σ w' (k r) (k' r)) :
      Agrees σ w (.transform c f k) (.transform c f' k')
  | relay {w c k k'} (shows : w.Shows c) (go : ∀ w' e e', w.Grows w' → Agrees σ w' (k e) (k' e')) :
      Agrees σ w (.relay c k) (.relay c k')
  | share {w f f' k k'} (failure : f.Alike w f')
      (go : ∀ w' c c', w.Grows w' → c.Alike w' c' → Agrees σ w' (k c) (k' c')) :
      Agrees σ w (.share f k) (.share f' k')
  | guarded {w p p' k k'} (body : Agrees σ w p p')
      (go : ∀ w' e e', w.Grows w' → e.Alike σ w' e' → Agrees σ w' (k e) (k' e')) :
      Agrees σ w (.guarded p k) (.guarded p' k')
  | spawn {w p p' k k'} (name) (body : Agrees σ w p p')
      (go : ∀ w' u u', w.Grows w' → (u, u') ∈ w'.threads.pairs → Agrees σ w' (k u) (k' u')) :
      Agrees σ w (.spawn name p k) (.spawn name p' k')
  | join {w u u' k k'} (paired : (u, u') ∈ w.threads.pairs)
      (go : ∀ w' e e', w.Grows w' → e.Alike σ w' e' → Agrees σ w' (k e) (k' e')) :
      Agrees σ w (.join u k) (.join u' k')
  | threadName {w k k'} (go : ∀ w' name, w.Grows w' → Agrees σ w' (k name) (k' name)) :
      Agrees σ w (.threadName k) (.threadName k')
  | note {w n n' k k'} (heard : σ.heard n = true) (heard' : σ.heard n' = true)
      (same : σ.notes w n n') (go : Agrees σ w k k') : Agrees σ w (.note n k) (.note n' k')
  | ask {w k k'} (go : ∀ w' x x', w.Grows w' → σ.client w' x x' → Agrees σ w' (k x) (k' x')) :
      Agrees σ w (.ask k) (.ask k')
  | update {w f f' k k'}
      (agree : ∀ w' x x', w.Grows w' → σ.client w' x x' → σ.client w' (f x) (f' x'))
      (go : Agrees σ w k k') : Agrees σ w (.update f k) (.update f' k')
  | left {w p q} (outside : p.Outside σ) (go : ∀ p', p.Leads p' → Agrees σ w p' q) : Agrees σ w p q
  | right {w p q} (outside : q.Outside σ) (go : ∀ q', q.Leads q' → Agrees σ w p q') : Agrees σ w p q

inductive Task.Alike (σ : Sight V N S) (w : World) : Task V N S → Task V N S → Prop
  | chain {r p p'} (body : Agrees σ w p p') : Alike σ w (.chain r p) (.chain r p')
  | transform {r f f'} (body : ∀ w' v, w.Grows w' → σ.Knows w' v → Agrees σ w' (f v) (f' v)) :
      Alike σ w (.transform r f) (.transform r f')
  | relay {r e e'} (hides : w.Hides r) : Alike σ w (.relay r e) (.relay r e')

inductive Frame.Alike (σ : Sight V N S) (w : World) : Frame V N S → Frame V N S → Prop
  | resume {p p'} (code : Agrees σ w p p') : Alike σ w (.resume p) (.resume p')
  | finishing c r : Alike σ w (.finishing c r) (.finishing c r)
  | draining c : Alike σ w (.draining c) (.draining c)
  | capturing r : Alike σ w (.capturing r) (.capturing r)
  | guarding {k k'} (go : ∀ w' e e', w.Grows w' → e.Alike σ w' e' → Agrees σ w' (k e) (k' e')) :
      Alike σ w (.guarding k) (.guarding k')

structure Wait.Alike (σ : Sight V N S) (w : World) (x x' : Wait V N S) : Prop where
  cell : x'.cell = x.cell
  limit : x'.limit = x.limit
  shows : w.Shows x.cell
  go : ∀ w' r r', w.Grows w' → Reading.Alike σ w' r r' → Agrees σ w' (x.resume r) (x'.resume r')

/-- What corresponding cells hold is alike, unless no program has a view of them. -/
def Held (σ : Sight V N S) (w : World) (c : CellId) (o o' : Outcome V) : Prop :=
  w.Hides c ∨ o.Alike σ w o'

section Mono
variable {σ : Sight V N S} {w w' : World}

theorem Agrees.mono {p p' : Prog V N S} (agrees : Agrees σ w p p') (grows : w.Grows w') :
    Agrees σ w' p p' := by
  induction agrees generalizing w' with
  | ret knows => exact .ret (knows.mono grows)
  | err failure => exact .err (failure.mono grows)
  | panic payload => exact .panic payload
  | newCell starts go =>
    exact .newCell (Option.Rel.mono (fun _ _ => Attempt.Alike.mono grows) starts)
      fun w'' c later => go w'' c (grows.trans later)
  | look shows go => exact .look (shows.mono grows) fun w'' x x' later => go w'' x x' (grows.trans later)
  | decide shows attempt go =>
    exact .decide (shows.mono grows) (attempt.mono grows) fun w'' b later => go w'' b (grows.trans later)
  | get shows go => exact .get (shows.mono grows) fun w'' r r' later => go w'' r r' (grows.trans later)
  | getTimeout limit shows go =>
    exact .getTimeout limit (shows.mono grows) fun w'' r r' later => go w'' r r' (grows.trans later)
  | chain shows body go bodyIh =>
    exact .chain (shows.mono grows) (bodyIh grows) fun w'' r later => go w'' r (grows.trans later)
  | transform shows body go =>
    exact .transform (shows.mono grows) (fun w'' v later => body w'' v (grows.trans later))
      fun w'' r later => go w'' r (grows.trans later)
  | relay shows go =>
    exact .relay (shows.mono grows) fun w'' e e' later => go w'' e e' (grows.trans later)
  | share failure go =>
    exact .share (failure.mono grows) fun w'' c c' later => go w'' c c' (grows.trans later)
  | guarded body go bodyIh =>
    exact .guarded (bodyIh grows) fun w'' e e' later => go w'' e e' (grows.trans later)
  | spawn name body go bodyIh =>
    exact .spawn name (bodyIh grows) fun w'' u u' later => go w'' u u' (grows.trans later)
  | join paired go =>
    exact .join (grows.threads paired) fun w'' e e' later => go w'' e e' (grows.trans later)
  | threadName go => exact .threadName fun w'' name later => go w'' name (grows.trans later)
  | note heard heard' same go ih => exact .note heard heard' (σ.notes_mono grows same) (ih grows)
  | ask go => exact .ask fun w'' x x' later => go w'' x x' (grows.trans later)
  | update agree go ih =>
    exact .update (fun w'' x x' later => agree w'' x x' (grows.trans later)) (ih grows)
  | left outside go ih => exact .left outside fun p' lead => ih p' lead grows
  | right outside go ih => exact .right outside fun q' lead => ih q' lead grows

theorem Task.Alike.mono (grows : w.Grows w') {x x' : Task V N S} (alike : x.Alike σ w x') :
    x.Alike σ w' x' := by
  cases alike with
  | chain body => exact .chain (body.mono grows)
  | transform body => exact .transform fun w'' v later => body w'' v (grows.trans later)
  | relay hides => exact .relay (hides.mono grows)

theorem Frame.Alike.mono (grows : w.Grows w') {f f' : Frame V N S} (alike : f.Alike σ w f') :
    f.Alike σ w' f' := by
  cases alike with
  | resume code => exact .resume (code.mono grows)
  | finishing c r => exact .finishing c r
  | draining c => exact .draining c
  | capturing r => exact .capturing r
  | guarding go => exact .guarding fun w'' e e' later => go w'' e e' (grows.trans later)

theorem Wait.Alike.mono (grows : w.Grows w') {x x' : Wait V N S} (alike : x.Alike σ w x') :
    x.Alike σ w' x' :=
  ⟨alike.cell, alike.limit, alike.shows.mono grows,
    fun w'' r r' later => alike.go w'' r r' (grows.trans later)⟩

theorem Held.mono (grows : w.Grows w') {c : CellId} {o o' : Outcome V} (held : Held σ w c o o') :
    Held σ w' c o o' :=
  held.imp (World.Hides.mono grows) (Outcome.Alike.mono grows)

theorem Held.alike {c : CellId} {o o' : Outcome V} (held : Held σ w c o o') (shows : w.Shows c) :
    o.Alike σ w o' :=
  held.resolve_left shows.not_hides

theorem Task.Alike.result {x x' : Task V N S} (alike : x.Alike σ w x') : x'.result = x.result := by
  cases alike <;> rfl

end Mono
end Oneshot
