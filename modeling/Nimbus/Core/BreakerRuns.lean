/-
  Nimbus.Core.BreakerRuns
  ───────────────────────
  **WHAT OVERLAPPING CALLS DO TO THE STATES OF THE BREAKER.**

  The class says closed → open → half-open → closed, and half-open → open.  But
  a call is recorded in whatever state the breaker is in when its function
  ends: a success of a call that was admitted before the breaker opened closes
  it at once.  And half-open rejects nobody: the call that finds the timeout
  elapsed is the trial, and so is every call that arrives before it ends.

    • `Legal`, `transitions`      — **the states change as the class says as
                                    long as no success is recorded while open;**
    • `SingleTrial`, `trial_iff`  — **half-open admits a single trial exactly
                                    when no other call arrives meanwhile.**
-/
import Nimbus.Core.Breaker
import Nimbus.Lib.Spans

namespace Nimbus.Cache

open Lib AsyncCircuitBreaker

variable {τ : Type}

/-! ## §1. Transitions. -/

/-- The arrows of the state machine. -/
def Arrow (src dst : BreakerState) : Prop :=
  (src = .closed ∧ dst = .opened) ∨ (src = .opened ∧ dst = .halfOpen)
    ∨ (src = .halfOpen ∧ dst = .closed) ∨ (src = .halfOpen ∧ dst = .opened)

instance (src dst : BreakerState) : Decidable (Arrow src dst) := inferInstanceAs (Decidable (_ ∨ _))

/-- The breaker opens. -/
def Sight.Opening (n : Sight τ) : Prop := ∃ src now, n = .changed src .opened now

/-- A function is invoked. -/
def Sight.Invoking (n : Sight τ) : Prop := ∃ t now, n = .invoked t now

/-- The clock when it was seen. -/
def Sight.time : Sight τ → Int
  | .changed _ _ now => now
  | .invoked _ now => now
  | .rejected _ now _ => now

/-- The states change along the arrows only, and the first function invoked
after the breaker has opened is invoked when the timeout has elapsed. -/
structure Legal (reset_timeout : Int) (log : List (Sight τ)) : Prop where
  arrows : ∀ src dst now, .changed src dst now ∈ log → Arrow src dst
  waits : ClosedBy Sight.Opening Sight.Invoking
    (fun opening invoking => reset_timeout ≤ invoking.time - opening.time) log

/-- The call that is recorded has succeeded, and the breaker is open. -/
def LateSuccess (S : Calls τ) : CallStep τ → Prop
  | .record t _ => S.phase t = .ended true ∧ S.breaker.state = .opened
  | _ => False

/-- The call that is recorded has failed, the breaker is open, and the clock
shows less than when it opened. -/
def SetsBack (S : Calls τ) : CallStep τ → Prop
  | .record t now => S.phase t = .ended false ∧ S.breaker.state = .opened
      ∧ S.breaker.opened_at.any (fun opened_at => now < opened_at) = true
  | _ => False

instance (S : Calls τ) : (a : CallStep τ) → Decidable (LateSuccess S a)
  | .arrive _ _ => inferInstanceAs (Decidable False)
  | .finish _ _ => inferInstanceAs (Decidable False)
  | .record _ _ => inferInstanceAs (Decidable (_ ∧ _))

instance (S : Calls τ) : (a : CallStep τ) → Decidable (SetsBack S a)
  | .arrive _ _ => inferInstanceAs (Decidable False)
  | .finish _ _ => inferInstanceAs (Decidable False)
  | .record _ _ => inferInstanceAs (Decidable (_ ∧ _))

/-- What is open in the log of a legal run: nothing unless the breaker is open,
and then an opening no later than `_opened_at`. -/
structure Pending (S : Calls τ) : Prop where
  closed : S.breaker.state ≠ .opened → ∀ a span, ¬ Since Sight.Opening Sight.Invoking S.log a span
  opened : S.breaker.state = .opened → ∃ opened_at, S.breaker.opened_at = some opened_at
    ∧ ∀ a span, Since Sight.Opening Sight.Invoking S.log a span → a.time ≤ opened_at

/-- **One more sight of a legal run.** -/
theorem legal_snoc {reset_timeout : Int} {log : List (Sight τ)} {n : Sight τ} :
    Legal reset_timeout (log ++ [n]) ↔ Legal reset_timeout log
      ∧ (∀ src dst now, n = .changed src dst now → Arrow src dst)
      ∧ (n.Invoking → ∀ a span, Since Sight.Opening Sight.Invoking log a span →
          reset_timeout ≤ n.time - a.time) := by
  constructor
  · intro h
    obtain ⟨hwaits, hnew⟩ := closedBy_snoc.mp h.waits
    refine ⟨⟨fun src dst now hc => ?_, hwaits⟩, fun src dst now hc => ?_, hnew⟩
    · exact h.arrows src dst now (List.mem_append_left _ hc)
    · exact h.arrows src dst now (List.mem_append_right _ (List.mem_singleton.mpr hc.symm))
  · intro h
    obtain ⟨hold, harrow, hnew⟩ := h
    refine ⟨fun src dst now hc => ?_, closedBy_snoc.mpr ⟨hold.waits, hnew⟩⟩
    rcases List.mem_append.mp hc with hc | hc
    · exact hold.arrows src dst now hc
    · exact harrow src dst now (List.mem_singleton.mp hc).symm

@[simp] theorem not_opening_invoked (t : τ) (now : Int) : ¬ (Sight.invoked t now).Opening := by
  rintro ⟨_, _, h⟩
  cases h

@[simp] theorem not_opening_rejected (t : τ) (now : Int) (exc : Exn) :
    ¬ (Sight.rejected t now exc).Opening := by
  rintro ⟨_, _, h⟩
  cases h

theorem not_opening_changed {src dst : BreakerState} (hd : dst ≠ .opened) (now : Int) :
    ¬ (Sight.changed src dst now : Sight τ).Opening := by
  rintro ⟨_, _, h⟩
  exact hd (Sight.changed.inj h).2.1

@[simp] theorem not_invoking_changed (src dst : BreakerState) (now : Int) :
    ¬ (Sight.changed src dst now : Sight τ).Invoking := by
  rintro ⟨_, _, h⟩
  cases h

@[simp] theorem not_invoking_rejected (t : τ) (now : Int) (exc : Exn) :
    ¬ (Sight.rejected t now exc).Invoking := by
  rintro ⟨_, _, h⟩
  cases h

/-- A legal log, and what is pending in it. -/
structure Tracks (reset_timeout : Int) (S : Calls τ) : Prop where
  timeout : S.breaker.reset_timeout = reset_timeout
  legal : Legal reset_timeout S.log
  pending : Pending S

variable {S S' : Calls τ} {a : CallStep τ} {reset_timeout : Int}

/-- A change of state is seen, or nothing is. -/
theorem legal_changes {b b' : AsyncCircuitBreaker} {now : Int} {log : List (Sight τ)}
    (h : Legal reset_timeout log) (harrow : b.state ≠ b'.state → Arrow b.state b'.state) :
    Legal reset_timeout (log ++ changes b b' now) := by
  by_cases heq : b.state = b'.state
  · rw [changes_of_eq heq, List.append_nil]
    exact h
  · rw [changes_of_ne heq]
    refine legal_snoc.mpr ⟨h, fun src dst at' hc => ?_, fun hc => absurd hc (by simp)⟩
    obtain ⟨rfl, rfl, -⟩ := Sight.changed.inj hc
    exact harrow heq

/-- A recorded failure: the breaker opens, or opens again, or only counts. -/
theorem Tracks.failure (hS : Tracks reset_timeout S) {now : Int} {phase : τ → CallPhase}
    (hback : ∀ opened_at, S.breaker.state = .opened → S.breaker.opened_at = some opened_at →
      opened_at ≤ now) :
    Tracks reset_timeout ⟨S.breaker.recordFailure now, phase,
      S.log ++ changes S.breaker (S.breaker.recordFailure now) now⟩ := by
  have htimeout := (sameSettings_recordFailure S.breaker now).reset_timeout.trans hS.timeout
  by_cases hopens : Opens S.breaker
  · rw [recordFailure_of_opens hopens] at htimeout ⊢
    by_cases hstate : S.breaker.state = .opened
    · -- open already: the moment of opening is set again
      refine ⟨htimeout, legal_changes hS.legal fun hne => absurd hstate hne, ?_⟩
      obtain ⟨opened_at, hat, hle⟩ := hS.pending.opened hstate
      refine ⟨fun hne => absurd rfl hne, fun _ => ⟨now, rfl, fun a span hs => ?_⟩⟩
      rw [changes_of_eq hstate, List.append_nil] at hs
      have := hle a span hs
      have := hback opened_at hstate hat
      omega
    · refine ⟨htimeout, legal_changes hS.legal fun _ => ?_, ?_⟩
      · -- closed → open at the threshold, half-open → open at the first failure
        cases hc : S.breaker.state with
        | closed => exact Or.inl ⟨rfl, rfl⟩
        | opened => exact absurd hc hstate
        | halfOpen => exact Or.inr (Or.inr (Or.inr ⟨rfl, rfl⟩))
      · refine ⟨fun hne => absurd rfl hne, fun _ => ⟨now, rfl, fun a span hs => ?_⟩⟩
        rw [changes_of_ne hstate] at hs
        rcases since_snoc.mp hs with ⟨-, rfl, -⟩ | ⟨s, hs, -, -⟩
        · exact le_refl _
        · exact absurd hs (hS.pending.closed hstate a s)
  · -- a closed breaker below its threshold
    rw [recordFailure_of_not_opens hopens] at htimeout ⊢
    have hnone : (changes S.breaker { S.breaker with
        failure_count := S.breaker.failure_count + 1 } now : List (Sight τ)) = [] :=
      changes_of_eq rfl
    rw [hnone, List.append_nil]
    exact ⟨htimeout, hS.legal, hS.pending.closed, hS.pending.opened⟩

theorem tracks_init (b : AsyncCircuitBreaker) :
    Tracks b.reset_timeout (Calls.init b : Calls τ) := by
  refine ⟨rfl, ⟨fun _ _ _ hc => (nomatch hc), closedBy_nil⟩, fun _ _ _ => not_since_nil, ?_⟩
  exact fun hc => (nomatch hc)

variable [DecidableEq τ]

/-- **A step that records no success while open, and no failure out of time,
keeps a run legal.** -/
theorem Tracks.step (hS : Tracks reset_timeout S) (hlate : ¬ LateSuccess S a)
    (hback : ¬ SetsBack S a) (h : S.step a = some S') : Tracks reset_timeout S' := by
  rcases Calls.step_cases h with ⟨t, now, -, -, hrej, rfl⟩ | ⟨t, now, -, -, ho, ht, rfl⟩ |
    ⟨t, now, -, -, ho, rfl⟩ | ⟨t, result, -, -, rfl⟩ | ⟨t, now, rfl, hended, rfl⟩ |
    ⟨t, now, rfl, hended, rfl⟩
  · -- rejected
    refine ⟨hS.timeout, legal_snoc.mpr ⟨hS.legal, fun _ _ _ hc => (nomatch hc), fun hc => ?_⟩, ?_⟩
    · exact absurd hc (by simp)
    · refine ⟨fun hne => absurd hrej.1 hne, fun ho => ?_⟩
      obtain ⟨opened_at, hat, hle⟩ := hS.pending.opened ho
      refine ⟨opened_at, hat, fun a span hs => ?_⟩
      obtain ⟨-, s, hs, -⟩ := hs.of_snoc (by simp)
      exact hle a s hs
  · -- the trial
    obtain ⟨opened_at, hat, hle⟩ := hS.pending.opened ho
    have helapsed : S.breaker.reset_timeout ≤ now - opened_at := by
      unfold timedOut at ht
      rw [hat] at ht
      exact of_decide_eq_true ht
    have hhalf : ¬ (Sight.changed .opened .halfOpen now : Sight τ).Opening :=
      not_opening_changed (by decide) now
    -- the change of state and the invocation are two entries
    have hsplit : S.log ++ [Sight.changed .opened .halfOpen now, .invoked t now]
        = (S.log ++ [Sight.changed .opened .halfOpen now]) ++ [.invoked t now] := by simp
    have hclose : ∀ a span, ¬ Since Sight.Opening Sight.Invoking
        ((S.log ++ [Sight.changed .opened .halfOpen now]) ++ [.invoked t now]) a span :=
      not_since_of_closes ⟨t, now, rfl⟩ (by simp)
    rw [hsplit]
    refine ⟨hS.timeout, legal_snoc.mpr ⟨?_, fun _ _ _ hc => (nomatch hc), ?_⟩,
      fun _ => hclose, fun hc => (nomatch hc)⟩
    · refine legal_snoc.mpr ⟨hS.legal, fun src dst at' hc => ?_, fun hc => absurd hc (by simp)⟩
      obtain ⟨rfl, rfl, -⟩ := Sight.changed.inj hc
      exact Or.inr (Or.inl ⟨rfl, rfl⟩)
    · intro _ a span hs
      obtain ⟨-, s, hs, -⟩ := hs.of_snoc hhalf
      have hopen := hle a s hs
      have htimeout := hS.timeout
      show reset_timeout ≤ now - a.time
      omega
  · -- admitted, not open
    refine ⟨hS.timeout, legal_snoc.mpr ⟨hS.legal, fun _ _ _ hc => (nomatch hc), ?_⟩, ?_⟩
    · intro _ a span hs
      exact absurd hs (hS.pending.closed ho a span)
    · exact ⟨fun _ => not_since_of_closes ⟨t, now, rfl⟩ (by simp), fun hc => absurd hc ho⟩
  · -- a function ends
    exact ⟨hS.timeout, hS.legal, hS.pending.closed, hS.pending.opened⟩
  · -- a success
    have hne : S.breaker.state ≠ .opened := fun ho => hlate ⟨hended, ho⟩
    refine ⟨hS.timeout, legal_changes hS.legal fun hne' => ?_, fun _ => ?_, fun hc => (nomatch hc)⟩
    · cases hc : S.breaker.state with
      | closed => exact absurd hc hne'
      | opened => exact absurd hc hne
      | halfOpen => exact Or.inr (Or.inr (Or.inl ⟨rfl, rfl⟩))
    · show ∀ a span, ¬ Since _ _ (S.log ++ changes _ _ now) a span
      by_cases hc : S.breaker.state = .closed
      · rw [changes_of_eq hc, List.append_nil]
        exact hS.pending.closed hne
      · rw [changes_of_ne hc]
        exact not_since_snoc (hS.pending.closed hne) (not_opening_changed (by simp) now)
  · -- a failure
    refine hS.failure fun opened_at ho hat => ?_
    by_contra hlt
    refine hback ⟨hended, ho, ?_⟩
    rw [hat]
    exact decide_eq_true (by omega)

/-- **A success recorded while the breaker is open closes it.** -/
theorem not_legal_lateSuccess (hlate : LateSuccess S a) :
    ¬ Legal reset_timeout ((Calls.machine τ).next S a).log := by
  intro hl
  cases a with
  | arrive t now => exact hlate
  | finish t result => exact hlate
  | record t now =>
      obtain ⟨hended, ho⟩ := hlate
      have hstep : S.step (.record t now) = some (S.move S.breaker.recordSuccess t .idle now []) := by
        simp [Calls.step, hended]
      rw [Machine.next_of_step _ hstep] at hl
      have hne : S.breaker.state ≠ S.breaker.recordSuccess.state := by
        rw [ho]
        intro hc
        cases hc
      have hseen : Sight.changed .opened .closed now
          ∈ (S.move S.breaker.recordSuccess t .idle now []).log := by
        show _ ∈ S.log ++ (changes S.breaker S.breaker.recordSuccess now ++ [])
        rw [changes_of_ne hne, ho]
        simp
      exact absurd (hl.arrows _ _ _ hseen) (by decide)

/-- **The states change as the class says** in every interleaving in which no
success is recorded while the breaker is open, and no failure at a reading of
the clock before the one at which it opened; and only in those of the first
kind. -/
theorem transitions (b : AsyncCircuitBreaker) (as : List (CallStep τ)) :
    ((Calls.machine τ).Along (fun S a => ¬ LateSuccess S a ∧ ¬ SetsBack S a) (Calls.init b) as →
        ∀ S ∈ (Calls.machine τ).trace (Calls.init b) as, Legal b.reset_timeout S.log)
    ∧ ((∀ S ∈ (Calls.machine τ).trace (Calls.init b) as, Legal b.reset_timeout S.log) →
        (Calls.machine τ).Along (fun S a => ¬ LateSuccess S a) (Calls.init b) as) := by
  refine ⟨fun halong S hS => ?_, ?_⟩
  · have htracks := (Calls.machine τ).run_invariant_along (I := Tracks b.reset_timeout)
      (fun S a S' hS hc h => hS.step hc.1 hc.2 h) as _ (tracks_init b) halong S hS
    exact htracks.legal
  · refine (Calls.machine τ).along_of_trace (G := fun S => Legal b.reset_timeout S.log) ?_ as _
    exact fun S a hl hlate => not_legal_lateSuccess hlate hl

/-- Call 0 is admitted, three others fail and open the breaker, and then call 0
succeeds; the next call is admitted two ticks after the breaker has opened. -/
def lateRun : List (CallStep Nat) :=
  [.arrive 0 0, .arrive 1 1, .arrive 2 1, .arrive 3 1, .finish 1 .raised, .record 1 2,
    .finish 2 .raised, .record 2 2, .finish 3 .raised, .record 3 3, .finish 0 .returned,
    .record 0 4, .arrive 4 5]

theorem transitions_fails :
    ¬ ∀ as : List (CallStep Nat), ∀ S ∈ (Calls.machine Nat).trace (Calls.init threeStrikes) as,
        Legal threeStrikes.reset_timeout S.log := by
  intro h
  have hlegal := h lateRun _ (Machine.run_mem_trace _ _ lateRun)
  have hseen : ((Calls.machine Nat).run (Calls.init threeStrikes) lateRun).log
      = [.invoked 0 0, .invoked 1 1, .invoked 2 1, .invoked 3 1, .changed .closed .opened 3,
          .changed .opened .closed 4, .invoked 4 5] := rfl
  rw [hseen] at hlegal
  have harrow : Arrow .opened .closed := hlegal.arrows _ _ 4 (by simp)
  exact absurd harrow (by decide)

/-- Without call 0 the breaker stays open until tick 13. -/
def openRun : List (CallStep Nat) :=
  [.arrive 1 1, .arrive 2 1, .arrive 3 1, .finish 1 .raised, .record 1 2, .finish 2 .raised,
    .record 2 2, .finish 3 .raised, .record 3 3, .arrive 4 5, .arrive 5 13]

theorem transitions_openRun :
    ∀ S ∈ (Calls.machine Nat).trace (Calls.init threeStrikes) openRun,
      Legal threeStrikes.reset_timeout S.log := by
  exact (transitions threeStrikes openRun).1 (by decide)

/-! ## §2. The trial. -/

/-- The breaker becomes half-open. -/
def Sight.HalfOpening (n : Sight τ) : Prop := ∃ now, n = .changed .opened .halfOpen now

/-- The breaker leaves half-open. -/
def Sight.Leaving (n : Sight τ) : Prop := ∃ dst now, n = .changed .halfOpen dst now

def Sight.isInvoked : Sight τ → Bool
  | .invoked _ _ => true
  | _ => false

/-- Until the breaker leaves half-open at most one function is invoked, and the
calls that are rejected raise `CacheUnavailableError`. -/
structure SingleTrial (log : List (Sight τ)) : Prop where
  once : Within Sight.HalfOpening Sight.Leaving (fun _ span => span.countP Sight.isInvoked ≤ 1) log
  rejected : ∀ t now exc, .rejected t now exc ∈ log → exc.cls = .cacheUnavailableError

/-- A call arrives while the breaker is half-open. -/
def ArrivesHalfOpen (S : Calls τ) : CallStep τ → Prop
  | .arrive t _ => S.phase t = .idle ∧ S.breaker.state = .halfOpen
  | _ => False

instance (S : Calls τ) : (a : CallStep τ) → Decidable (ArrivesHalfOpen S a)
  | .arrive _ _ => inferInstanceAs (Decidable (_ ∧ _))
  | .finish _ _ => inferInstanceAs (Decidable False)
  | .record _ _ => inferInstanceAs (Decidable False)

/-- A half-open breaker has invoked a function since it became so; no other
state comes after that with half-open not left. -/
structure Trying (S : Calls τ) : Prop where
  trying : S.breaker.state = .halfOpen → ∃ a span,
    Since Sight.HalfOpening Sight.Leaving S.log a span ∧ 1 ≤ span.countP Sight.isInvoked
  left : S.breaker.state ≠ .halfOpen →
    ∀ a span, ¬ Since Sight.HalfOpening Sight.Leaving S.log a span

omit [DecidableEq τ] in
/-- **One more sight.** -/
theorem singleTrial_snoc {log : List (Sight τ)} {n : Sight τ} :
    SingleTrial (log ++ [n]) ↔ SingleTrial log
      ∧ (n.isInvoked = true → ∀ a span, Since Sight.HalfOpening Sight.Leaving log a span →
          span.countP Sight.isInvoked = 0)
      ∧ ∀ t now exc, n = .rejected t now exc → exc.cls = .cacheUnavailableError := by
  constructor
  · intro h
    obtain ⟨hold, hnew⟩ := within_snoc.mp h.once
    refine ⟨⟨hold, fun t now exc hr => ?_⟩, fun hn a span hs => ?_, fun t now exc hr => ?_⟩
    · exact h.rejected t now exc (List.mem_append_left _ hr)
    · -- the stretch with the new entry has one invocation more
      have hleave : ¬ n.Leaving := by
        rintro ⟨dst, now, rfl⟩
        cases hn
      have hone := hnew a (span ++ [n]) (since_snoc.mpr (Or.inr ⟨span, hs, hleave, rfl⟩))
      rw [List.countP_append, List.countP_singleton, if_pos hn] at hone
      omega
    · exact h.rejected t now exc (List.mem_append_right _ (List.mem_singleton.mpr hr.symm))
  · intro h
    obtain ⟨hold, hinv, hrej⟩ := h
    refine ⟨within_snoc.mpr ⟨hold.once, fun a span hs => ?_⟩, fun t now exc hr => ?_⟩
    · rcases since_snoc.mp hs with ⟨-, -, rfl⟩ | ⟨s, hs', -, rfl⟩
      · simp
      · rw [List.countP_append, List.countP_singleton]
        by_cases hn : n.isInvoked = true
        · rw [hinv hn a s hs', if_pos hn]
        · rw [if_neg hn]
          obtain ⟨ha, hspan, before, heq⟩ := hs'
          exact hold.once before a s [] (by rw [heq]; simp) ha hspan
    · rcases List.mem_append.mp hr with hr | hr
      · exact hold.rejected t now exc hr
      · exact hrej t now exc (List.mem_singleton.mp hr).symm

omit [DecidableEq τ] in
/-- Once a call is recorded the breaker is not half-open. -/
theorem Trying.recorded (hS : Trying S) {b : AsyncCircuitBreaker} (hb : b.state ≠ .halfOpen)
    {now : Int} {phase : τ → CallPhase} :
    Trying ⟨b, phase, S.log ++ changes S.breaker b now⟩ := by
  refine ⟨fun hc => absurd hc hb, fun _ => ?_⟩
  show ∀ a span, ¬ Since _ _ (S.log ++ changes S.breaker b now) a span
  have hno : ¬ (Sight.changed S.breaker.state b.state now : Sight τ).HalfOpening := by
    rintro ⟨_, h⟩
    exact hb (Sight.changed.inj h).2.1
  by_cases heq : S.breaker.state = b.state
  · rw [changes_of_eq heq, List.append_nil]
    exact hS.left (by rw [heq]; exact hb)
  · rw [changes_of_ne heq]
    by_cases hhalf : S.breaker.state = .halfOpen
    · exact not_since_of_closes ⟨b.state, now, by rw [hhalf]⟩ hno
    · exact not_since_snoc (hS.left hhalf) hno

theorem recordFailure_state (b : AsyncCircuitBreaker) (now : Int) :
    (b.recordFailure now).state ≠ .halfOpen := by
  by_cases hopens : Opens b
  · rw [recordFailure_of_opens hopens]
    exact fun hc => nomatch hc
  · rw [recordFailure_of_not_opens hopens]
    exact fun hc => hopens (Or.inl hc)

/-- **Every step keeps count of the trial.** -/
theorem Trying.step (hS : Trying S) (h : S.step a = some S') : Trying S' := by
  rcases Calls.step_cases h with ⟨t, now, -, -, hrej, rfl⟩ | ⟨t, now, -, -, ho, -, rfl⟩ |
    ⟨t, now, -, -, ho, rfl⟩ | ⟨t, result, -, -, rfl⟩ | ⟨t, now, -, -, rfl⟩ | ⟨t, now, -, -, rfl⟩
  · -- rejected, so open
    have hne : S.breaker.state ≠ .halfOpen := by
      rw [hrej.1]
      exact fun hc => nomatch hc
    exact ⟨fun hc => absurd hc hne,
      fun _ => not_since_snoc (hS.left hne) (by rintro ⟨_, hc⟩; cases hc)⟩
  · -- the trial begins
    refine ⟨fun _ => ?_, fun hc => absurd rfl hc⟩
    refine ⟨.changed .opened .halfOpen now, [.invoked t now], ⟨⟨now, rfl⟩, ?_, S.log, rfl⟩, ?_⟩
    · rintro n hn ⟨_, _, rfl⟩
      simp at hn
    · simp [Sight.isInvoked]
  · -- admitted, closed or half-open
    have hno : ¬ (Sight.invoked t now : Sight τ).HalfOpening := by
      rintro ⟨_, hc⟩
      cases hc
    refine ⟨fun hhalf => ?_, fun hne => not_since_snoc (hS.left hne) hno⟩
    obtain ⟨b, span, hs, hcount⟩ := hS.trying hhalf
    refine ⟨b, span ++ [.invoked t now], since_snoc.mpr (Or.inr ⟨span, hs, ?_, rfl⟩), ?_⟩
    · rintro ⟨_, _, hc⟩
      cases hc
    · rw [List.countP_append]
      omega
  · -- a function ends, and nothing is seen
    exact ⟨hS.trying, hS.left⟩
  · -- a success closes the breaker
    exact hS.recorded (by simp)
  · -- a failure opens a half-open breaker
    exact hS.recorded (recordFailure_state S.breaker now)

omit [DecidableEq τ] in
/-- A change of state is no invocation. -/
theorem singleTrial_changes {log : List (Sight τ)} (h : SingleTrial log)
    (b b' : AsyncCircuitBreaker) (now : Int) : SingleTrial (log ++ changes b b' now) := by
  unfold changes
  split
  · rw [List.append_nil]
    exact h
  · exact singleTrial_snoc.mpr ⟨h, fun hc => (nomatch hc), fun _ _ _ hc => nomatch hc⟩

/-- **A step keeps the trial single exactly when no call arrives half-open.** -/
theorem trial_step (hS : Trying S) (hg : SingleTrial S.log) :
    SingleTrial ((Calls.machine τ).next S a).log ↔ ¬ ArrivesHalfOpen S a := by
  rcases (Calls.machine τ).next_cases S a with ⟨S', hstep, hnext⟩ | ⟨hstep, hnext⟩
  · rw [hnext]
    rcases Calls.step_cases hstep with ⟨t, now, rfl, -, hrej, rfl⟩ | ⟨t, now, rfl, -, ho, -, rfl⟩ |
      ⟨t, now, rfl, hidle, ho, rfl⟩ | ⟨t, result, rfl, -, rfl⟩ | ⟨t, now, rfl, -, rfl⟩ |
      ⟨t, now, rfl, -, rfl⟩
    · -- rejected, so open
      refine iff_of_true (singleTrial_snoc.mpr ⟨hg, fun hc => (nomatch hc), ?_⟩) fun hc => ?_
      · intro t' now' exc hr
        obtain ⟨-, -, rfl⟩ := Sight.rejected.inj hr
        rfl
      · have hhalf : S.breaker.state = .halfOpen := hc.2
        rw [hrej.1] at hhalf
        cases hhalf
    · -- the trial itself
      have hsplit : S.log ++ [Sight.changed .opened .halfOpen now, .invoked t now]
          = (S.log ++ [Sight.changed .opened .halfOpen now]) ++ [.invoked t now] := by simp
      have hne : S.breaker.state ≠ .halfOpen := by
        rw [ho]
        exact fun hc => nomatch hc
      refine iff_of_true ?_ fun hc => hne hc.2
      show SingleTrial (S.log ++ [_, _])
      rw [hsplit]
      refine singleTrial_snoc.mpr ⟨?_, fun _ b span hs => ?_, fun _ _ _ hc => nomatch hc⟩
      · exact singleTrial_snoc.mpr ⟨hg, fun hc => (nomatch hc), fun _ _ _ hc => nomatch hc⟩
      · rcases since_snoc.mp hs with ⟨-, -, rfl⟩ | ⟨s, hs, -, -⟩
        · rfl
        · exact absurd hs (hS.left hne b s)
    · -- admitted, closed or half-open
      constructor
      · -- half-open, the trial has been invoked already
        intro h hc
        obtain ⟨-, hinv, -⟩ := singleTrial_snoc.mp h
        obtain ⟨b, span, hs, hcount⟩ := hS.trying hc.2
        have hzero := hinv rfl b span hs
        omega
      · intro hno
        refine singleTrial_snoc.mpr ⟨hg, fun _ b span hs => ?_, fun _ _ _ hc => nomatch hc⟩
        exact absurd hs (hS.left (fun hhalf => hno ⟨hidle, hhalf⟩) b span)
    -- the other steps invoke nothing
    · exact iff_of_true hg fun hc => hc
    · exact iff_of_true (singleTrial_changes hg _ _ _) fun hc => hc
    · exact iff_of_true (singleTrial_changes hg _ _ _) fun hc => hc
  · rw [hnext]
    refine iff_of_true hg fun hc => ?_
    -- a call that arrives half-open is admitted
    cases a with
    | arrive t now =>
        have hhalf : S.breaker.state = .halfOpen := hc.2
        have henter : S.breaker.enter now = (S.breaker, .ok ()) :=
          enter_of_not_opened (by rw [hhalf]; decide)
        have hsome : S.step (.arrive t now) ≠ none := by
          simp [Calls.step, hc.1, henter]
        exact hsome hstep
    | finish t result => exact hc
    | record t now => exact hc

/-- **Half-open admits a single trial exactly when no call arrives while the
breaker is half-open**, in every interleaving. -/
theorem trial_iff (b : AsyncCircuitBreaker) (as : List (CallStep τ)) :
    (∀ S ∈ (Calls.machine τ).trace (Calls.init b) as, SingleTrial S.log)
      ↔ (Calls.machine τ).Along (fun S a => ¬ ArrivesHalfOpen S a) (Calls.init b) as := by
  refine (Calls.machine τ).trace_forall_iff_along (I := Trying) (G := fun S => SingleTrial S.log)
    (fun S a S' hS h => hS.step h) (fun S a hS hg => trial_step hS hg) as _ ?_ ?_
  · exact ⟨fun hc => (nomatch hc), fun _ _ _ => not_since_nil⟩
  · exact ⟨within_nil, fun _ _ _ hc => nomatch hc⟩

/-- The breaker has opened; at tick 13 two calls arrive. -/
def trialRun : List (CallStep Nat) :=
  [.arrive 1 1, .arrive 2 1, .arrive 3 1, .finish 1 .raised, .record 1 2, .finish 2 .raised,
    .record 2 2, .finish 3 .raised, .record 3 3, .arrive 4 13, .arrive 5 13]

/-- Both functions are invoked. -/
theorem trial_fails :
    ¬ ∀ as : List (CallStep Nat), ∀ S ∈ (Calls.machine Nat).trace (Calls.init threeStrikes) as,
        SingleTrial S.log := by
  intro h
  have htrial := h trialRun _ (Machine.run_mem_trace _ _ trialRun)
  have hseen : ((Calls.machine Nat).run (Calls.init threeStrikes) trialRun).log
      = [.invoked 1 1, .invoked 2 1, .invoked 3 1, .changed .closed .opened 3,
          .changed .opened .halfOpen 13, .invoked 4 13, .invoked 5 13] := rfl
  rw [hseen] at htrial
  have htwo := htrial.once [.invoked 1 1, .invoked 2 1, .invoked 3 1, .changed .closed .opened 3]
    (.changed .opened .halfOpen 13) [.invoked 4 13, .invoked 5 13] [] rfl ⟨13, rfl⟩ (by
      rintro n hn ⟨_, _, rfl⟩
      simp at hn)
  exact absurd htwo (by decide)

end Nimbus.Cache
