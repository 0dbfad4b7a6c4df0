/-
  Nimbus.Lib.Tasks
  ────────────────
  **TASKS THAT REPEAT A PROGRAM UNTIL THEY ARE STOPPED.**

  A worker runs a first program and then, as long as its stop event is not set,
  one program over and over.  Each operation is answered by the environment, with
  a value or an exception; anybody may set the stop event or cancel the task in
  between.  A worker should end for one of these two reasons only.

    • `Worker`, `Task`    — the two programs; where a task is;
    • `Worker.machine`    — one answer at a time, or a stop, or a cancellation;
    • `Comes`             — what a program comes to whatever it is answered;
    • `Fragile`           — a program that every exception ends;
    • `onRequest_iff`     — **a task ends on request only, exactly where nothing in
                            a fragile first part raises before a request.**
-/
import Nimbus.Lib.Machine
import Nimbus.Lib.Prog

namespace Nimbus.Lib

variable {Op : Type} {Ans : Op → Type} {ε α β : Type}

/-- What the environment can answer, to a task that has been cancelled or not. -/
abbrev Answers (Op : Type) (Ans : Op → Type) (ε : Type) :=
  Bool → (op : Op) → Except ε (Ans op) → Bool

/-- The answers of the environment, whatever is asked. -/
abbrev Oracle (Op : Type) (Ans : Op → Type) (ε : Type) := (op : Op) → Except ε (Ans op)

/-- `first`, then `again` as long as the stop event is not set. -/
structure Worker (Op : Type) (Ans : Op → Type) (ε : Type) where
  first : Prog Op Ans ε Unit
  again : Prog Op Ans ε Unit
  possible : Answers Op Ans ε

/-- How far a task is. -/
inductive Stage (Op : Type) (Ans : Op → Type) (ε : Type)
  | running (p : Prog Op Ans ε Unit)
  | ended (r : Except ε Unit)

structure Task (Op : Type) (Ans : Op → Type) (ε : Type) where
  stage : Stage Op Ans ε
  stop_event : Bool
  /-- `cancel` has been called. -/
  cancelled : Bool

inductive TaskEvent (Op : Type) (Ans : Op → Type) (ε : Type)
  | stop
  | cancel
  -- the operation the task waits for is answered
  | answer (oracle : Oracle Op Ans ε)

namespace Worker

variable (W : Worker Op Ans ε)

/-! ## §1. The machine. -/

/-- The head of the loop, where the last part has come to `r`. -/
def turn (stop_event : Bool) : Except ε Unit → Stage Op Ans ε
  | .error e => .ended (.error e)
  | .ok _ => if stop_event then .ended (.ok ()) else .running W.again

/-- On to the next operation. -/
def settle (stop_event : Bool) : Prog Op Ans ε Unit → Stage Op Ans ε
  | .ret r => W.turn stop_event r
  | .call op k => .running (.call op k)

def machine : Machine (Task Op Ans ε) (TaskEvent Op Ans ε) where
  step s
    | .stop => some { s with stop_event := true }
    | .cancel => some { s with cancelled := true }
    | .answer oracle => match s.stage with
        | .ended _ => none
        | .running (.ret r) => some { s with stage := W.turn s.stop_event r }
        | .running (.call op k) =>
            if W.possible s.cancelled op (oracle op) then
              some { s with stage := W.settle s.stop_event (k (oracle op)) }
            else none

/-- The task that `create_task` makes, its stop event cleared. -/
def spawn : Task Op Ans ε := ⟨.running W.first, false, false⟩

end Worker

namespace Task

/-- Somebody wants the task to end. -/
def Requested (s : Task Op Ans ε) : Prop := s.stop_event = true ∨ s.cancelled = true

/-- The task has not ended without a request. -/
def OnRequest (s : Task Op Ans ε) : Prop := ∀ r, s.stage = .ended r → s.Requested

/-- The operation the task waits for. -/
def awaits (s : Task Op Ans ε) : Option Op :=
  match s.stage with
  | .running (.call op _) => some op
  | _ => none

end Task

/-! ## §2. What a program comes to. -/

namespace Prog

variable (possible : Answers Op Ans ε) (P : Op → Prop)

/-- An environment that answers a task nobody has cancelled. -/
def undisturbed : Setting Op Ans ε Unit (Oracle Op Ans ε) Unit where
  exec oracle op s := if possible false op (oracle op) then some (oracle op, s) else none
  inv _ := True
  view s := s
  allowed op _ := P op

/-- Whatever it is answered, the operations of `p` satisfy `P` and its outcome
satisfies `Q`. -/
def Comes (Q : Except ε α → Prop) (p : Prog Op Ans ε α) : Prop :=
  wlp (undisturbed possible P) (fun _ => True) (fun r _ => Q r) p ()

variable {possible P} {Q : Except ε α → Prop}

theorem comes_ret {r : Except ε α} (h : Q r) : Comes possible P Q (.ret r) := ⟨trivial, h⟩

theorem comes_call {op : Op} {k : Except ε (Ans op) → Prog Op Ans ε α} (hop : P op)
    (h : ∀ r, possible false op r = true → Comes possible P Q (k r)) :
    Comes possible P Q (.call op k) := by
  refine ⟨trivial, hop, fun oracle s r s' _ _ he => ?_⟩
  have hif : (if possible false op (oracle op) then some (oracle op, s) else none) = some (r, s') := he
  split at hif
  next hpossible =>
      obtain ⟨rfl, rfl⟩ := Prod.mk.inj (Option.some.inj hif)
      exact h _ hpossible
  next => cases hif

theorem comes_of_call {op : Op} {k : Except ε (Ans op) → Prog Op Ans ε α}
    (h : Comes possible P Q (.call op k)) :
    P op ∧ ∀ oracle : Oracle Op Ans ε, possible false op (oracle op) = true →
      Comes possible P Q (k (oracle op)) := by
  obtain ⟨-, hop, hk⟩ := h
  exact ⟨hop, fun oracle hpossible => hk oracle () _ () trivial rfl (if_pos hpossible)⟩

/-- One part after another. -/
theorem comes_handle {Q' : Except ε β → Prop} {p : Prog Op Ans ε α}
    {k : Except ε α → Prog Op Ans ε β} (hp : Comes possible P Q p)
    (hk : ∀ r, Q r → Comes possible P Q' (k r)) : Comes possible P Q' (p.handle k) :=
  wlp_handle (fun r _ _ hr => hk r hr) hp

/-- An exception only of the kind `E`. -/
def Raising (E : ε → Prop) (r : Except ε α) : Prop := ∀ e, r = .error e → E e

section Raising

variable {E : ε → Prop} {p : Prog Op Ans ε α}

theorem comes_raise {e : ε} (he : E e) :
    Comes possible P (Raising E) (throw e : Prog Op Ans ε α) := by
  refine comes_ret fun e' h => ?_
  obtain rfl := Except.error.inj h
  exact he

theorem comes_pure (a : α) : Comes possible P (Raising E) (pure a : Prog Op Ans ε α) :=
  comes_ret fun _ h => nomatch h

/-- One operation alone. -/
theorem comes_op {op : Op} (hop : P op) (h : ∀ e, possible false op (.error e) = true → E e) :
    Comes possible P (Raising E) (.call op .ret) := by
  refine comes_call hop fun r hr => comes_ret fun e he => ?_
  subst he
  exact h e hr

theorem comes_bind {f : α → Prog Op Ans ε β} (hp : Comes possible P (Raising E) p)
    (hf : ∀ a, Comes possible P (Raising E) (f a)) : Comes possible P (Raising E) (p >>= f) := by
  refine comes_handle hp fun r hr => ?_
  cases r with
  | ok a => exact hf a
  | error e => exact comes_raise (hr e rfl)

/-- The handler meets the exceptions of the first part only. -/
theorem comes_tryCatch {h : ε → Prog Op Ans ε α} (hp : Comes possible P (Raising E) p)
    (hok : ∀ a, Q (.ok a)) (hh : ∀ e, E e → Comes possible P Q (h e)) :
    Comes possible P Q (tryCatch p h) := by
  refine comes_handle hp fun r hr => ?_
  cases r with
  | ok a => exact comes_ret (hok a)
  | error e => exact hh e (hr e rfl)

theorem comes_finally {fin : Prog Op Ans ε β} (hp : Comes possible P (Raising E) p)
    (hfin : Comes possible P (Raising E) fin) : Comes possible P (Raising E) (finally_ p fin) := by
  refine comes_handle hp fun r hr => comes_handle hfin fun r' hr' => ?_
  cases r' with
  | ok b => exact comes_ret hr
  | error e => exact comes_raise (hr' e rfl)

end Raising

variable (possible P)

/-- A program over the operations `P` that every exception ends: it has no
handlers that go on. -/
def Fragile : Prog Op Ans ε Unit → Prop
  | .ret r => r = .ok ()
  | .call op k => P op
      ∧ (∀ e, possible false op (.error e) = true → ∃ e', k (.error e) = .ret (.error e'))
      ∧ ∀ a, Fragile (k (.ok a))

end Prog

/-! ## §3. When a task ends. -/

namespace Worker

variable {W : Worker Op Ans ε} {First : Op → Prop}

/-- No operation of the first part raises before somebody wants the task to end. -/
def FirstHolds (W : Worker Op Ans ε) (First : Op → Prop) (s : Task Op Ans ε) :
    TaskEvent Op Ans ε → Prop
  | .answer oracle => ¬ s.Requested → ∀ op, s.awaits = some op → First op →
      W.possible false op (oracle op) = true → ∃ a, oracle op = .ok a
  | _ => True

/-- Where a task is that nobody wants to end: in a first part that holds by a
thread, or in a part that cannot fail. -/
def Placed (W : Worker Op Ans ε) (First : Op → Prop) (p : Prog Op Ans ε Unit) : Prop :=
  Prog.Fragile W.possible First p ∨ Prog.Comes W.possible (fun op => ¬ First op) (· = .ok ()) p

/-- **One answer**: an exception of the first part ends it, and every other answer
leaves the task in place. -/
theorem placed_answer {op : Op} {k : Except ε (Ans op) → Prog Op Ans ε Unit}
    (hp : Placed W First (.call op k)) {oracle : Oracle Op Ans ε}
    (hpossible : W.possible false op (oracle op) = true) :
    (First op ∧ (∃ e, oracle op = .error e) ∧ ∃ e', k (oracle op) = .ret (.error e'))
      ∨ (Placed W First (k (oracle op)) ∧ (First op → ∃ a, oracle op = .ok a)) := by
  rcases hp with ⟨hfirst, herror, hok⟩ | hcomes
  · cases hr : oracle op with
    | error e =>
        rw [hr] at hpossible
        exact Or.inl ⟨hfirst, ⟨e, rfl⟩, herror e hpossible⟩
    | ok a => exact Or.inr ⟨Or.inl (hok a), fun _ => ⟨a, rfl⟩⟩
  · obtain ⟨hnot, hk⟩ := Prog.comes_of_call hcomes
    exact Or.inr ⟨Or.inr (hk oracle hpossible), fun hfirst => absurd hfirst hnot⟩

/-- What a part comes to that is in place: on to the next turn, or to an operation. -/
theorem settle_placed (hagain : Prog.Comes W.possible (fun op => ¬ First op) (· = .ok ()) W.again)
    {p : Prog Op Ans ε Unit} (hp : Placed W First p) :
    ∃ q, W.settle false p = .running q ∧ Placed W First q := by
  cases p with
  | call op k => exact ⟨_, rfl, hp⟩
  | ret r =>
      have hr : r = .ok () := by
        rcases hp with hp | hp
        · exact hp
        · exact hp.2
      subst hr
      exact ⟨W.again, rfl, Or.inr hagain⟩

/-- The invariant of a run. -/
def AllPlaced (W : Worker Op Ans ε) (First : Op → Prop) (s : Task Op Ans ε) : Prop :=
  ¬ s.Requested → ∀ p, s.stage = .running p → Placed W First p

/-- What an answer makes of a task that nobody wants to end. -/
theorem answer_step {s : Task Op Ans ε} (hs : ¬ s.Requested) {p : Prog Op Ans ε Unit}
    (hp : s.stage = .running p) (oracle : Oracle Op Ans ε) :
    W.machine.step s (.answer oracle) = match p with
      | .ret r => some { s with stage := W.settle false (.ret r) }
      | .call op k =>
          if W.possible false op (oracle op) then
            some { s with stage := W.settle false (k (oracle op)) }
          else none := by
  obtain ⟨stage, stop_event, cancelled⟩ := s
  obtain ⟨hstop, hcancelled⟩ := not_or.mp hs
  obtain rfl : stop_event = false := by simpa using hstop
  obtain rfl : cancelled = false := by simpa using hcancelled
  obtain rfl : stage = .running p := hp
  cases p with
  | ret r => rfl
  | call op k => rfl

/-- Only a stop or a cancellation is a request. -/
theorem step_request {s s' : Task Op Ans ε} {a : TaskEvent Op Ans ε}
    (h : W.machine.step s a = some s') (hs' : ¬ s'.Requested) :
    ¬ s.Requested ∧ ∃ oracle, a = .answer oracle := by
  cases a with
  | stop =>
      obtain rfl := Option.some.inj h
      exact absurd (Or.inl rfl) hs'
  | cancel =>
      obtain rfl := Option.some.inj h
      exact absurd (Or.inr rfl) hs'
  | answer oracle =>
      -- an answer sets no flag
      refine ⟨fun hc => hs' ?_, oracle, rfl⟩
      have hflags : s'.stop_event = s.stop_event ∧ s'.cancelled = s.cancelled := by
        obtain ⟨stage, stop_event, cancelled⟩ := s
        cases stage with
        | ended r => cases h
        | running p =>
            cases p with
            | ret r =>
                obtain rfl := Option.some.inj h
                exact ⟨rfl, rfl⟩
            | call op k =>
                have hif : (if W.possible cancelled op (oracle op) then _ else none) = some s' := h
                split at hif
                next =>
                    obtain rfl := Option.some.inj hif
                    exact ⟨rfl, rfl⟩
                next => cases hif
      unfold Task.Requested
      rw [hflags.1, hflags.2]
      exact hc

/-- A task that has ended answers nothing. -/
theorem ended_step {s : Task Op Ans ε} {r : Except ε Unit} (hr : s.stage = .ended r)
    (oracle : Oracle Op Ans ε) : W.machine.step s (.answer oracle) = none := by
  show (match s.stage with | .ended _ => none | .running (.ret _) => _ | .running (.call _ _) => _) = _
  rw [hr]

variable (hagain : Prog.Comes W.possible (fun op => ¬ First op) (· = .ok ()) W.again)
include hagain

/-- Every step keeps the task in place. -/
theorem placed_step {s s' : Task Op Ans ε} {a : TaskEvent Op Ans ε} (hI : AllPlaced W First s)
    (h : W.machine.step s a = some s') : AllPlaced W First s' := by
  intro hs' p hp
  obtain ⟨hs, oracle, rfl⟩ := step_request h hs'
  cases hstage : s.stage with
  | ended r =>
      rw [ended_step hstage] at h
      cases h
  | running q =>
      have hq := hI hs q hstage
      rw [answer_step hs hstage] at h
      cases q with
      | ret r =>
          -- the part has ended, and the next turn is placed
          obtain rfl := Option.some.inj h
          obtain ⟨q', hq', hplaced⟩ := settle_placed hagain hq
          obtain rfl := Stage.running.inj (hq'.symm.trans hp)
          exact hplaced
      | call op k =>
          simp only at h
          split at h
          next hpossible =>
              obtain rfl := Option.some.inj h
              have hp : W.settle false (k (oracle op)) = .running p := hp
              -- an answer that ends the first part ends the task
              rcases placed_answer hq hpossible with ⟨-, -, e', hk⟩ | ⟨hplaced, -⟩
              · rw [hk] at hp
                cases hp
              · obtain ⟨q', hq', hplaced'⟩ := settle_placed hagain hplaced
                obtain rfl := Stage.running.inj (hq'.symm.trans hp)
                exact hplaced'
          next => cases h

/-- **One step**: a task that has not ended without a request does so now exactly
where the first part does not hold. -/
theorem onRequest_step {s : Task Op Ans ε} {a : TaskEvent Op Ans ε} (hI : AllPlaced W First s)
    (hgood : s.OnRequest) : (W.machine.next s a).OnRequest ↔ FirstHolds W First s a := by
  by_cases hs : s.Requested
  · -- a request is never taken back
    refine iff_of_true (fun r _ => ?_) ?_
    · rcases W.machine.next_cases s a with ⟨s', h, hn⟩ | ⟨-, hn⟩
      · rw [hn]
        by_contra hs'
        exact (step_request h hs').1 hs
      · rw [hn]
        exact hs
    · cases a with
      | stop => trivial
      | cancel => trivial
      | answer oracle => exact fun hc => absurd hs hc
  · cases a with
    | stop => exact iff_of_true (fun _ _ => Or.inl rfl) trivial
    | cancel => exact iff_of_true (fun _ _ => Or.inr rfl) trivial
    | answer oracle =>
        cases hstage : s.stage with
        | ended r => exact absurd (hgood r hstage) hs
        | running q =>
            have hq := hI hs q hstage
            have hstep := answer_step (W := W) hs hstage oracle
            cases q with
            | ret r =>
                obtain ⟨q', hq', -⟩ := settle_placed hagain hq
                rw [W.machine.next_of_step hstep]
                refine iff_of_true (fun r hr => ?_) fun _ op hop => ?_
                · exact nomatch hq'.symm.trans hr
                · unfold Task.awaits at hop
                  rw [hstage] at hop
                  cases hop
            | call op k =>
                have hawaits : s.awaits = some op := by
                  unfold Task.awaits
                  rw [hstage]
                simp only at hstep
                split at hstep
                next hpossible =>
                    rw [W.machine.next_of_step hstep]
                    rcases placed_answer hq hpossible with ⟨hfirst, ⟨e, he⟩, e', hk⟩ | ⟨hplaced, hok⟩
                    · refine iff_of_false (fun hc => ?_) fun hc => ?_
                      · refine hs (hc (.error e') ?_)
                        show W.settle false (k (oracle op)) = _
                        rw [hk]
                        rfl
                      · obtain ⟨a, ha⟩ := hc hs op hawaits hfirst hpossible
                        rw [he] at ha
                        cases ha
                    · obtain ⟨q', hq', -⟩ := settle_placed hagain hplaced
                      refine iff_of_true (fun r hr => ?_) fun _ op' hop' hfirst _ => ?_
                      · exact nomatch hq'.symm.trans hr
                      · obtain rfl := Option.some.inj (hawaits.symm.trans hop')
                        exact hok hfirst
                next hnot =>
                    rw [W.machine.next_of_none hstep]
                    refine iff_of_true hgood fun _ op' hop' _ hpossible => ?_
                    obtain rfl := Option.some.inj (hawaits.symm.trans hop')
                    exact absurd hpossible hnot

/-- **When a task ends on request only**: it has a first part that every exception
ends and then goes on whatever happens; so exactly where nothing in the first
part raises before a request. -/
theorem onRequest_iff (hfirst : Prog.Fragile W.possible First W.first)
    (events : List (TaskEvent Op Ans ε)) :
    (∀ s ∈ W.machine.trace W.spawn events, s.OnRequest)
      ↔ W.machine.Along (FirstHolds W First) W.spawn events := by
  refine W.machine.trace_forall_iff_along (I := AllPlaced W First)
    (fun s a s' hI h => placed_step hagain hI h) (fun s a hI hgood => onRequest_step hagain hI hgood)
    events W.spawn ?_ ?_
  · intro _ p hp
    obtain rfl := Stage.running.inj hp
    exact Or.inl hfirst
  · intro r hr
    cases hr

end Worker

end Nimbus.Lib
