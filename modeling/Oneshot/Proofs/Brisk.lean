import Oneshot.Proofs.Origins
import Oneshot.Proofs.Work

/-! # Code that never waits

Where no code reads a cell or waits for a thread, no code comes up that does: what a step runs or queues
is a part of what was there (`brisk_of_reaches`).  So no thread is ever held up. -/
set_option autoImplicit false
namespace Oneshot
variable {V N S : Type}

/-- No part of the program reads a cell or waits for a thread, and the code of its wakers does not
poll. -/
def Prog.Brisk : Prog V N S → Prop
  | .ret _ | .err _ | .panic _ => True
  | .get _ _ | .getTimeout _ _ _ | .join _ _ => False
  | .newCell _ k => ∀ c, (k c).Brisk
  | .look _ k => ∀ x, (k x).Brisk
  | .decide _ _ k | .settle _ _ k => ∀ b, (k b).Brisk
  | .chain _ body k => body.Brisk ∧ ∀ c, (k c).Brisk
  | .transform _ f k => (∀ v, (f v).Brisk) ∧ ∀ c, (k c).Brisk
  | .relay _ k | .newExternal k => ∀ e, (k e).Brisk
  | .lookExternal _ k => ∀ x, (k x).Brisk
  | .poll _ _ k => ∀ r, (k r).Brisk
  | .newWaker onWake k => (onWake.Brisk ∧ onWake.PollFree) ∧ ∀ w, (k w).Brisk
  | .share _ k => ∀ cause, (k cause).Brisk
  | .guarded body k => body.Brisk ∧ ∀ e, (k e).Brisk
  | .spawn _ body k => body.Brisk ∧ ∀ t, (k t).Brisk
  | .threadName k => ∀ name, (k name).Brisk
  | .note _ k | .update _ k => k.Brisk
  | .ask k => ∀ client, (k client).Brisk

def Task.Brisk (task : Task V N S) : Prop := ∀ p, task.Code p → p.Brisk

def Frame.Brisk : Frame V N S → Prop
  | .resume p => p.Brisk
  | .guarding k => ∀ e, (k e).Brisk
  | _ => True

def Doing.Brisk : Doing V N S → Prop
  | .run p => p.Brisk
  | .deciding _ _ k | .settling _ _ k => ∀ k', k = some k' → ∀ b, (k' b).Brisk
  | .starting _ task => task.Brisk
  | .checking _ | .asleep _ | .expired _ _ _ => False
  | _ => True

def Thread.Brisk (thread : Thread V N S) : Prop :=
  thread.doing.Brisk ∧ ∀ frame ∈ thread.frames, frame.Brisk

structure State.Brisk (s : State V N S) : Prop where
  threads : ∀ (t : ThreadId) (thread : Thread V N S), s.threads[t]? = some thread → thread.Brisk
  queued : ∀ c, ∀ task ∈ s.queueOf c, task.Brisk
  wakers : ∀ (w : WakerId) (p : Prog V N S), s.wakers[w]? = some p → p.Brisk ∧ p.PollFree

theorem tame_of_brisk {s : State V N S} (brisk : s.Brisk) : s.Tame :=
  fun w p stored => (brisk.wakers w p stored).2

theorem unblocked_of_brisk {s : State V N S} {d : Doing V N S} (brisk : d.Brisk) : ¬ d.Blocked s := by
  cases d with
  | run p =>
    cases p with
    | join u k => exact brisk.elim
    | _ => exact fun blocked => blocked
  | checking w => exact brisk.elim
  | asleep w => exact brisk.elim
  | _ => exact fun blocked => blocked

theorem task_of_brisk {s : State V N S} {p : Prog V N S} (brisk : p.Brisk) {c : CellId}
    {task : Task V N S} (registers : p.task? s = some (c, task)) : task.Brisk := by
  cases p with
  | chain b body k =>
    cases registers
    exact fun q code => code ▸ brisk.1
  | transform b f k =>
    cases registers
    exact fun q ⟨v, code⟩ => code ▸ brisk.1 v
  | relay b k =>
    cases registers
    exact fun q code => code.elim
  | _ => cases registers

section Inhabited
variable [Inhabited V] {s s' : State V N S} {t : ThreadId} {d : Doing V N S}
  {fs : List (Frame V N S)} {n : Next V N S}

def Next.Brisk (n : Next V N S) : Prop := n.doing.Brisk ∧ ∀ frame ∈ n.frames, frame.Brisk

theorem brisk_lost {k : Option (Bool → Prog V N S)} (brisk : ∀ k', k = some k' → ∀ b, (k' b).Brisk) :
    (lost k).Brisk := by
  cases k with
  | none => trivial
  | some k => exact brisk k rfl false

omit [Inhabited V] in
theorem brisk_won {k : Option (Bool → Prog V N S)} (brisk : ∀ k', k = some k' → ∀ b, (k' b).Brisk) :
    ∀ frame ∈ won k, frame.Brisk := by
  cases k with
  | none => exact fun frame member => by cases member
  | some k =>
    intro frame member
    rw [List.mem_singleton.mp member]
    exact brisk k rfl true

omit [Inhabited V] in
theorem brisk_of_register {c : CellId} {task : Task V N S} {q : Prog V N S} (brisk : task.Brisk)
    (on : q.Brisk) (below : ∀ frame ∈ fs, frame.Brisk) : (s.register t c task q fs).Brisk := by
  unfold State.register
  split
  next => exact ⟨on, below⟩
  next =>
    split
    next => exact ⟨on, below⟩
    next => exact ⟨brisk, List.forall_mem_cons.mpr ⟨on, below⟩⟩

omit [Inhabited V] in
theorem brisk_of_perform {p : Prog V N S} (brisk : p.Brisk) (below : ∀ frame ∈ fs, frame.Brisk)
    (moved : s.perform t p fs = some n) : n.Brisk := by
  cases p with
  | ret | err | panic => cases moved; exact ⟨trivial, below⟩
  | newCell start k => cases start <;> cases moved <;> exact ⟨brisk _, below⟩
  | decide c a k =>
    simp only [State.perform] at moved
    split at moved <;> cases moved
    · exact ⟨fun k' same b => Option.some.inj same ▸ brisk b, below⟩
    · exact ⟨brisk false, below⟩
  | settle e a k => cases moved; exact ⟨fun k' same b => Option.some.inj same ▸ brisk b, below⟩
  | get | getTimeout | join => exact brisk.elim
  | chain c body k =>
    cases moved
    exact brisk_of_register (task_of_brisk (s := s) brisk rfl) (brisk.2 _) below
  | transform c f k =>
    cases moved
    exact brisk_of_register (task_of_brisk (s := s) brisk rfl) (brisk.2 _) below
  | relay c k =>
    cases moved
    exact brisk_of_register (fun q code => code.elim) (brisk _) below
  | poll e w k =>
    simp only [State.perform, State.pollExternal] at moved
    split at moved
    next => cases moved; exact ⟨brisk none, below⟩
    next => split at moved <;> cases moved <;> exact ⟨brisk _, below⟩
  | newWaker onWake k => cases moved; exact ⟨brisk.2 _, below⟩
  | guarded body k =>
    cases moved
    exact ⟨brisk.1, List.forall_mem_cons.mpr ⟨brisk.2, below⟩⟩
  | spawn name body k => cases moved; exact ⟨brisk.2 _, below⟩
  | note | update => cases moved; exact ⟨brisk, below⟩
  | _ => cases moved; exact ⟨brisk _, below⟩

omit [Inhabited V] in
theorem brisk_of_startTask {c : CellId} {task : Task V N S} (brisk : task.Brisk)
    (below : ∀ frame ∈ fs, frame.Brisk) : (s.startTask t c task fs).Brisk := by
  have two : ∀ frame ∈ (.capturing task.result :: .finishing c task.result :: fs : List (Frame V N S)),
      frame.Brisk := List.forall_mem_cons.mpr ⟨trivial, List.forall_mem_cons.mpr ⟨trivial, below⟩⟩
  cases task with
  | chain result body => exact ⟨brisk body rfl, two⟩
  | relay result e => exact ⟨trivial, two⟩
  | transform result f =>
    simp only [State.startTask]
    split
    next => exact ⟨trivial, List.forall_mem_cons.mpr ⟨trivial, below⟩⟩
    next v _ => exact ⟨brisk (f v) ⟨v, rfl⟩, two⟩
    next =>
      refine ⟨?_, List.forall_mem_cons.mpr ⟨trivial, below⟩⟩
      exact fun k same => by cases same

theorem brisk_of_receive (store : s.Brisk) {frame : Frame V N S} (e : Ending V) (first : frame.Brisk)
    (below : ∀ frame ∈ fs, frame.Brisk) : (s.receive t frame e fs).Brisk := by
  cases frame with
  | resume p =>
    cases e with
    | panicked payload => exact ⟨trivial, below⟩
    | _ => exact ⟨first, below⟩
  | finishing c r => cases e <;> exact ⟨trivial, below⟩
  | draining c => cases e <;> exact ⟨trivial, below⟩
  | capturing r => cases e <;> exact ⟨(fun k same => by cases same), below⟩
  | guarding k => cases e <;> exact ⟨first _, below⟩
  | waking x ws =>
    cases ws with
    | nil => cases e <;> exact ⟨trivial, below⟩
    | cons w ws =>
      have code : (s.wakers.getD w (.ret default)).Brisk := by
        rw [Array.getD_eq_getD_getElem?]
        cases stored : s.wakers[w]? with
        | none => trivial
        | some p => exact (store.wakers w p stored).1
      cases e with
      | panicked payload => exact ⟨trivial, below⟩
      | _ => exact ⟨code, List.forall_mem_cons.mpr ⟨trivial, below⟩⟩

/-- A step goes on with parts of the code that it has before it. -/
theorem brisk_of_next (store : s.Brisk) (brisk : d.Brisk) (below : ∀ frame ∈ fs, frame.Brisk)
    (moved : s.next t d fs = some n) : n.Brisk := by
  cases d with
  | run p => exact brisk_of_perform brisk below moved
  | deciding c o k =>
    cases transition_of_next moved with
    | plain was => exact was.elim
    | loses _ _ => exact ⟨brisk_lost brisk, below⟩
    | wins _ _ => exact ⟨trivial, List.forall_mem_append.mpr ⟨brisk_won brisk, below⟩⟩
  | settling e r k =>
    cases transition_of_next moved with
    | plain was => exact was.elim
    | refuses _ _ => exact ⟨brisk_lost brisk, below⟩
    | settles _ _ =>
      exact ⟨trivial, List.forall_mem_cons.mpr
        ⟨trivial, List.forall_mem_append.mpr ⟨brisk_won brisk, below⟩⟩⟩
  | draining c =>
    cases transition_of_next moved with
    | plain was => exact was.elim
    | @takes _ _ cell task rest found queue =>
      refine ⟨store.queued c task ?_, List.forall_mem_cons.mpr ⟨trivial, below⟩⟩
      rw [State.queueOf_of_found found, queue]
      exact List.mem_cons_self ..
    | empties _ _ => exact ⟨trivial, below⟩
    | idles _ => exact ⟨trivial, below⟩
  | starting c task =>
    cases moved
    exact brisk_of_startTask brisk below
  | checking | asleep | expired => exact brisk.elim
  | announcing c kind queued => cases moved; exact ⟨trivial, below⟩
  | relaying c e =>
    cases transition_of_next moved with
    | plain was => exact was.elim
    | relays _ => exact ⟨(fun k same => by cases same), below⟩
    | skips _ => exact ⟨trivial, below⟩
  | ended e =>
    cases fs with
    | nil => cases moved
    | cons frame fs =>
      obtain ⟨first, rest⟩ := List.forall_mem_cons.mp below
      cases moved
      exact brisk_of_receive store e first rest

theorem brisk_of_step (brisk : s.Brisk) (moved : s.step t = some s') : s'.Brisk := by
  obtain ⟨thread, n, found, next, rfl⟩ := next_of_step moved
  have own := brisk.threads t thread found
  have on := brisk_of_next brisk own.1 own.2 next
  have queued (c : CellId) (task : Task V N S) (member : task ∈ n.state.queueOf c) : task.Brisk := by
    rcases queued_of_next next member with before | ⟨p, run, registers⟩
    · exact brisk.queued c task before
    · have code : thread.doing.Brisk := own.1
      rw [run] at code
      exact task_of_brisk code registers
  have placed (u : ThreadId) (thread' : Thread V N S)
      (kept : ∀ other, n.state.threads[u]? = some other → other.Brisk)
      (found' : (n.state.setThread t ⟨thread.name, n.doing, n.frames⟩).threads[u]? = some thread') :
      thread'.Brisk := by
    rw [State.getElem?_setThread] at found'
    split at found'
    next =>
      split at found'
      next =>
        cases found'
        exact on
      next => cases found'
    next => exact kept thread' found'
  have pushed {α : Type} {P : α → Prop} {xs : Array α} {x : α} (all : ∀ (i : Nat) y, xs[i]? = some y → P y)
      (new : P x) (i : Nat) (y : α) (here : (xs.push x)[i]? = some y) : P y := by
    rw [Array.getElem?_push] at here
    split at here
    next => exact Option.some.inj here ▸ new
    next => exact all i y here
  by_cases recruits : thread.doing.Recruits
  · obtain ⟨name, d, fs⟩ := thread
    cases d with
    | run p =>
      have code : p.Brisk := own.1
      cases p with
      | spawn name body k =>
        cases next
        have begun : Thread.Brisk (⟨name, .run body, []⟩ : Thread V N S) := ⟨code.1, by simp⟩
        exact ⟨fun u thread' => placed u thread' (pushed brisk.threads begun u), queued, brisk.wakers⟩
      | newWaker onWake k =>
        cases next
        exact ⟨fun u thread' => placed u thread' (brisk.threads u), queued,
          pushed brisk.wakers code.1⟩
      | _ => exact recruits.elim
    | _ => exact recruits.elim
  · obtain ⟨threads, wakers⟩ := crew_of_next next recruits
    refine ⟨fun u thread' => placed u thread' ?_, queued, ?_⟩
    · rw [threads]
      exact brisk.threads u
    · intro w p stored
      exact brisk.wakers w p (wakers ▸ stored)

theorem brisk_of_move {m : Move} (brisk : s.Brisk) (moved : s.move m = some s') : s'.Brisk := by
  cases m with
  | step t => exact brisk_of_step brisk moved
  | pass nanos =>
    cases moved
    exact ⟨brisk.threads, brisk.queued, brisk.wakers⟩
  | expire t =>
    obtain ⟨_, _, _, _, _, _, found, -⟩ := asleep_of_expire moved
    exact (brisk.threads t _ found).1.elim
  | stir t =>
    obtain ⟨_, _, _, found, -⟩ := asleep_of_stir moved
    exact (brisk.threads t _ found).1.elim

theorem brisk_of_reaches (reached : Reaches s s') (brisk : s.Brisk) : s'.Brisk :=
  reached.induct brisk fun _ _ _ brisk moved => brisk_of_move brisk moved

omit [Inhabited V] in
theorem brisk_of_start (client : S) {p : Prog V N S} (brisk : p.Brisk) :
    (State.start client p).Brisk where
  threads t thread found := by
    rw [thread_of_start found]
    exact ⟨brisk, by simp⟩
  queued c task member := by simp [State.start, State.queueOf] at member
  wakers w p stored := by simp [State.start] at stored

end Inhabited
end Oneshot
