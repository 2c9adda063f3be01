import Oneshot.Proofs.Calls
import Oneshot.Proofs.Termination

/-! # Panics stay inside

Whatever panics during a call, the call comes back to its caller, with the answer that its critical
section gave (`calls_return`).  It goes on for ever only if code of a program waits for ever in it, or if
the code of a waker polls (`endless_of_polling`). -/
set_option autoImplicit false
namespace Oneshot
variable {V N S : Type} [Inhabited V] {s : State V N S} {t : ThreadId}

/-- Code of a program holds `t` up: it waits, and `t` has no step. -/
def State.Held (s : State V N S) (t : ThreadId) : Prop :=
  s.step t = none ∧ ∃ thread, s.threads[t]? = some thread ∧ thread.doing.Waits

theorem held_of_in {name : Option String} {q : Prog V N S} {fs : List (Frame V N S)}
    (inside : s.In t name q fs) (stuck : s.step t = none) : s.Held t := by
  obtain ⟨d, frames, found, inside⟩ := inside
  refine ⟨stuck, _, found, ?_⟩
  rw [step_of_found found, Option.map_eq_none_iff] at stuck
  rcases waits_of_next stuck with waits | ⟨e, -, none⟩
  · exact waits
  · cases inside with
    | shallow _ => cases none
    | deep inner _ _ => simp at none

/-- Left alone, a thread comes out of its call. -/
theorem back_of_in {name : Option String} {q : Prog V N S} {fs : List (Frame V N S)} (sound : s.Sound)
    (inside : s.In t name q fs) :
    ∃ n s', s.run (List.replicate n (.step t)) = some s' ∧
      (s'.Back t name q fs ∨ (s'.In t name q fs ∧ (s'.Held t ∨ ¬ s'.Tame))) := by
  -- Each step of `t` either comes back or leaves a lighter thread inside the call.
  generalize weight : s.weightOf t = M
  induction M using wellFounded_lighter.induction generalizing s with
  | _ M ih =>
    subst weight
    by_cases tame : s.Tame
    · cases moved : s.step t with
      | none => exact ⟨0, s, rfl, Or.inr ⟨inside, Or.inl (held_of_in inside moved)⟩⟩
      | some s₁ =>
        have advance : Advance s s₁ := advance_of_move (m := .step t) moved
        rcases in_of_advance advance sound inside with on | back
        · obtain ⟨n, s', run, done⟩ := ih (s₁.weightOf t) (lighter_of_step tame moved)
            (sound_of_advance advance sound) on rfl
          refine ⟨n + 1, s', ?_, done⟩
          rw [List.replicate_succ, State.run, State.move, moved]
          exact run
        · refine ⟨1, s₁, ?_, Or.inl back⟩
          simp [State.run, State.move, moved]
    · exact ⟨0, s, rfl, Or.inr ⟨inside, Or.inr tame⟩⟩

structure CallsReturn (s : State V N S) : Prop where
  attempts : ∀ {t name c a k fs}, s.threads[t]? = some ⟨name, .run (.decide c a k), fs⟩ →
    s.admits c a = true → ∃ s₁, s.move (.step t) = some s₁ ∧
      s₁.threads[t]? = some ⟨name, .deciding c (a.outcome s.nextCause) (some k), fs⟩
  /-- The answer is whether `c` was undecided, and if so, all that was queued has run. -/
  decisions : ∀ {t name c o k fs}, s.threads[t]? = some ⟨name, .deciding c o (some k), fs⟩ →
    ∃ s₁, s.move (.step t) = some s₁ ∧ ∀ ms, Until (State.In t name (k (s.pending c)) fs)
      (fun s' => s'.Back t name (k (s.pending c)) fs ∧
        (s.pending c = true → (s'.ledger.view c).Served c)) s₁ ms
  registrations : ∀ {t name p q fs}, s.threads[t]? = some ⟨name, .run p, fs⟩ →
    p.goesOn? s = some q → ∃ s₁, s.move (.step t) = some s₁ ∧
      ∀ ms, Until (State.In t name q fs) (State.Back t name q fs) s₁ ms
  ends : ∀ {t name q fs}, s.In t name q fs → ∃ n s', s.run (List.replicate n (.step t)) = some s' ∧
    (s'.Back t name q fs ∨ (s'.In t name q fs ∧ (s'.Held t ∨ ¬ s'.Tame)))
  /-- A cell is being dispatched only inside the call that has decided it. -/
  flags : ∀ c, s.dispatches c = true → ∃ u, (s.ledger.view c).Deciding c u

theorem calls_return (reachable : Reachable s) : CallsReturn s where
  attempts found admitted := by
    refine ⟨_, ?_, thread_setThread (s := s.useCause) found rfl⟩
    simp [State.move, step_of_found found, State.next, State.perform, admitted]
  decisions found := decision_back reachable found
  registrations found call := registration_back reachable found call
  ends inside := back_of_in (sound_of_reachable reachable) inside
  flags c busy := by
    by_contra nobody
    have free := free_of_idle (phase_of_reachable reachable c) fun u deciding => nobody ⟨u, deciding⟩
    cases busy.symm.trans free

theorem calls_return_panicked : ∃ s : State Nat Empty Unit, Reachable s ∧ CallsReturn s ∧
    (∃ name o k, s.threads[0]? = some ⟨name, .deciding 0 o (some k), []⟩) ∧
    s.pending 0 = true ∧ s.queueOf 0 = [.chain 1 (.panic .other)] := by
  have reachable : Reachable _ := ⟨(), .newCell none fun _ => panickingContinuation,
    [.step 0, .step 0, .step 0], rfl⟩
  exact ⟨_, reachable, calls_return reachable, ⟨_, _, _, rfl⟩, rfl, rfl⟩

/-- The code of a waker that parks itself at a new external future and settles that. -/
def endlessWaker : Prog Nat Empty Unit :=
  .newExternal fun e => .poll e 0 fun _ => .settle e (.complete 5) fun _ => .ret 0

/-- The only thread runs the code of the only waker. -/
def Waking (s : State Nat Empty Unit) : Prop :=
  s.wakers = #[endlessWaker] ∧ ∃ fs, s.threads = #[⟨some "main", .run endlessWaker, fs⟩]

theorem waking_again {s : State Nat Empty Unit} (waking : Waking s) :
    ∃ s', s.run (List.replicate 5 (.step 0)) = some s' ∧ Waking s' := by
  obtain ⟨wakers, fs, threads⟩ := waking
  obtain ⟨cells, externals, _, _, nextCause, now, client, history⟩ := s
  cases wakers
  cases threads
  simp [List.replicate, State.run, State.move, State.step, State.next, State.perform, endlessWaker,
    State.addExternal, State.setThread, State.pollExternal, State.settleExternal,
    State.modifyExternal, State.log, State.receive, State.useCause, External.new, External.park,
    External.settle, won, Array.getElem_modify]
  exact ⟨rfl, _, rfl⟩

theorem waking_rounds {s : State Nat Empty Unit} (waking : Waking s) (n : Nat) :
    ∃ s', s.run (List.replicate (5 * n) (.step 0)) = some s' ∧ Waking s' := by
  induction n with
  | zero => exact ⟨s, rfl, waking⟩
  | succ n ih =>
    obtain ⟨s₁, ran, waking⟩ := ih
    obtain ⟨s₂, again, waking⟩ := waking_again waking
    refine ⟨s₂, ?_, waking⟩
    rw [Nat.mul_succ, List.replicate_add, State.run_append, ran]
    exact again

/-- A waker that polls can go on for ever, and so can the call that wakes it. -/
theorem endless_of_polling (n : Nat) : ∃ s',
    (State.start () (.newWaker endlessWaker fun _ => endlessWaker)).run
      (List.replicate n (.step 0)) = some s' := by
  let s₁ : State Nat Empty Unit :=
    { State.start () endlessWaker with wakers := #[endlessWaker] }
  have waking : Waking s₁ := ⟨rfl, [], rfl⟩
  cases n with
  | zero => exact ⟨_, rfl⟩
  | succ n =>
    obtain ⟨s', ran, -⟩ := waking_rounds waking n
    have split : 5 * n = n + 4 * n := by omega
    rw [split, List.replicate_add, State.run_append] at ran
    obtain ⟨s₂, first, -⟩ := Option.bind_eq_some_iff.mp ran
    exact ⟨s₂, first⟩

end Oneshot
