/-
  Nimbus.Core.Sessions
  ────────────────────
  **WHEN THE SESSION OF A MESSAGE IS CLOSED.**

  `get_session` closes its session and restores the schema in a `finally`.  The
  consumer does not manage that generator itself: `_order_session` wraps it in
  `async for session in get_session(): yield session`, and an exception thrown
  in at the outer `yield` never reaches the inner one.

    • `getSession`, `orderSession`, `dispatch` — the generators and the with-block;
    • `Released`       — no session is left open and the schema is the old one;
    • `managed_iff`    — over `get_session` itself the block releases the session
                         whatever the handler and the commit do;
    • `dispatch_eq_managed` — where nothing raises, `_order_session` changes nothing;
    • `dispatched_iff` — **over `_order_session` it does only where nothing raises.**
-/
import Nimbus.Core.ErrorResponses
import Nimbus.Lib.Generators

namespace Nimbus.Sessions

open Lib

/-! ## §1. Operations. -/

/-- What the code does with sessions, each known by its number. -/
inductive Op where
  /-- `_current_schema.set`, which answers what `reset` is to restore. -/
  | setSchema (schema : String)
  | resetSchema (token : String)
  /-- `get_session_factory()` and the factory's call. -/
  | newSession
  | handler (session : Nat)
  | commit (session : Nat)
  | rollback (session : Nat)
  | close (session : Nat)

def Ans : Op → Type
  | .setSchema _ => String
  | .newSession => Nat
  | _ => Unit

abbrev SessionProg := Prog Op Ans Raised

def call (op : Op) : SessionProg (Ans op) := .call op .ret

/-! ## §2. The generators and the with-block. -/

/-- The `except` clauses of `get_session`, for what is thrown in at its `yield`. -/
def exceptClauses (target_schema : String) (session : Nat) : Option Raised → SessionProg Unit
  | none => pure ()
  | some (.exception exc) => do
      let _ ← call (.rollback session)
      throw (.exception (translated target_schema exc))
  -- no clause takes it
  | some e => throw e

/-- Its `finally` clause. -/
def cleanup (token : String) (session : Nat) : SessionProg Unit := do
  let _ ← call (.close session)
  call (.resetSchema token)

/-- The rest of `get_session`, from its `yield` on. -/
def afterYield (target_schema token : String) (session : Nat) (thrown : Option Raised) :
    SessionProg Unit :=
  Prog.finally_ (exceptClauses target_schema session thrown) (cleanup token session)

/-- `get_session`, of a schema whose name is valid. -/
def getSession (target_schema : String) : Gen Op Ans Raised Nat :=
  .ofProg (call (.setSchema target_schema)) fun
    | .error e => .fail e
    | .ok token => .ofProg (call .newSession) fun
      -- raised before the `try`: the schema stays
      | .error e => .fail e
      | .ok session => .yield session fun thrown =>
          .ofProg (afterYield target_schema token session thrown) Gen.ending

/-- `_order_session`. -/
def orderSession : Gen Op Ans Raised Nat := (getSession "orders").forYield

/-- The `except` clause in `_handle_message`'s with-block. -/
def undo (session : Nat) : Raised → SessionProg Unit
  | .exception exc => do
      let _ ← call (.rollback session)
      throw (.exception exc)
  | e => throw e

/-- Its `try` clause. -/
def handleAndCommit (session : Nat) : SessionProg Unit := do
  let _ ← call (.handler session)
  call (.commit session)

/-- The body of the with-block. -/
def dispatchBody (session : Nat) : SessionProg Unit :=
  tryCatch (handleAndCommit session) (undo session)

/-- The exceptions of the interpreter and of `contextlib`. -/
def interpreter : Gen.Interpreter Raised where
  generator_exit := .generatorExit
  exits := fun
    | .generatorExit => true
    | _ => false
  ignored_exit := .exception ⟨.runtimeError, "async generator ignored GeneratorExit", []⟩
  didnt_yield := .exception ⟨.runtimeError, "generator didn't yield", []⟩
  didnt_stop := .exception ⟨.runtimeError, "generator didn't stop", []⟩
  didnt_stop_after_athrow := .exception ⟨.runtimeError, "generator didn't stop after athrow()", []⟩

/-- The with-block of `_handle_message` over a generator of sessions. -/
def dispatchOver (g : Gen Op Ans Raised Nat) : SessionProg (Option Unit) :=
  Gen.withBlock interpreter g dispatchBody

/-- `_handle_message`'s with-block as it is. -/
def dispatch : SessionProg (Option Unit) := dispatchOver orderSession

/-! ## §3. What the operations do. -/

structure State where
  current_schema : String
  opened : Nat
  /-- The sessions that are open. -/
  live : List Nat
  rollbacks : Nat

/-- What the operations raise; `rollback n` is what the `n`-th rollback does. -/
structure Outcomes where
  newSession : Option Raised
  handler : Option Raised
  commit : Option Raised
  rollback : Nat → Option Raised
  close : Option Raised

/-- An operation without an answer. -/
def raising : Option Raised → Except Raised Unit
  | none => .ok ()
  | some e => .error e

def Outcomes.exec (env : Outcomes) : (op : Op) → State → Except Raised (Ans op) × State
  | .setSchema schema, s => (.ok s.current_schema, { s with current_schema := schema })
  | .resetSchema token, s => (.ok (), { s with current_schema := token })
  | .newSession, s => match env.newSession with
      | some e => (.error e, s)
      | none => (.ok s.opened, { s with opened := s.opened + 1, live := s.opened :: s.live })
  | .handler _, s => (raising env.handler, s)
  | .commit _, s => (raising env.commit, s)
  | .rollback _, s => (raising (env.rollback s.rollbacks), { s with rollbacks := s.rollbacks + 1 })
  | .close session, s => match env.close with
      | some e => (.error e, s)
      | none => (.ok (), { s with live := s.live.erase session })

/-- The session that was opened is closed, and the schema restored. -/
def Released (s s' : State) : Prop := s'.live = s.live ∧ s'.current_schema = s.current_schema

/-! ## §4. The generators, step by step. -/

variable (env : Outcomes)

/-- An operation that touches neither the sessions nor the schema. -/
def Quiet (s s' : State) : Prop :=
  s'.live = s.live ∧ s'.current_schema = s.current_schema ∧ s'.opened = s.opened

/-- The `except` clauses only roll back. -/
theorem exceptClauses_quiet (target_schema : String) (session : Nat) (thrown : Option Raised)
    (s : State) : Quiet s ((exceptClauses target_schema session thrown).eval env.exec s).2 := by
  cases thrown with
  | none => exact ⟨rfl, rfl, rfl⟩
  | some e =>
      cases e with
      | exception exc =>
          show Quiet s (Prog.eval env.exec (Prog.onOk _ (raising (env.rollback s.rollbacks))) _).2
          cases env.rollback s.rollbacks with
          | none => exact ⟨rfl, rfl, rfl⟩
          | some e => exact ⟨rfl, rfl, rfl⟩
      | cancelledError => exact ⟨rfl, rfl, rfl⟩
      | generatorExit => exact ⟨rfl, rfl, rfl⟩

theorem cleanup_eval (token : String) (session : Nat) (s : State) :
    (cleanup token session).eval env.exec s
      = (raising env.close,
        if env.close = none then { s with live := s.live.erase session, current_schema := token }
        else s) := by
  show (Prog.onOk (fun _ => call (.resetSchema token)) (env.exec (.close session) s).1).eval
    env.exec (env.exec (.close session) s).2 = _
  unfold Outcomes.exec
  cases env.close with
  | none => rfl
  | some e => rfl

/-- **The `finally` of `get_session`** is reached whatever was thrown in: the
session is closed and the schema restored, unless the session cannot be closed. -/
theorem afterYield_released {s s₁ : State} {target_schema : String} {thrown : Option Raised}
    (hlive : s₁.live = s.opened :: s.live) :
    Released s ((afterYield target_schema s.current_schema s.opened thrown).eval env.exec s₁).2
      ↔ env.close = none := by
  obtain ⟨hquiet, -, -⟩ := exceptClauses_quiet env target_schema s.opened thrown s₁
  unfold afterYield
  rw [Prog.eval_finally, cleanup_eval]
  generalize (exceptClauses target_schema s.opened thrown).eval env.exec s₁ = left at hquiet ⊢
  rw [hlive] at hquiet
  cases env.close with
  | none =>
      refine iff_of_true ⟨?_, rfl⟩ rfl
      show left.2.live.erase s.opened = s.live
      rw [hquiet, List.erase_cons_head]
  | some e =>
      refine iff_of_false (fun hc => ?_) (fun hc => nomatch hc)
      have hsame : s.opened :: s.live = s.live := hquiet.symm.trans hc.1
      exact List.cons_ne_self _ _ hsame

/-- `get_session` up to its `yield`. -/
theorem getSession_next (target_schema : String) (s : State) :
    (getSession target_schema).next.eval env.exec s
      = match env.newSession with
        | some e => (.error e, { s with current_schema := target_schema })
        | none => (.ok (some (s.opened, fun thrown =>
              .ofProg (afterYield target_schema s.current_schema s.opened thrown) Gen.ending)),
            { s with current_schema := target_schema, opened := s.opened + 1,
                     live := s.opened :: s.live }) := by
  cases hnew : env.newSession with
  | some e => simp only [getSession, Gen.next_ofProg, Gen.next, call, Prog.handle_call,
      Prog.handle_ret, Prog.eval_call, Prog.eval_ret, Outcomes.exec, hnew]
  | none => simp only [getSession, Gen.next_ofProg, Gen.next, call, Prog.handle_call,
      Prog.handle_ret, Prog.eval_call, Prog.eval_ret, Outcomes.exec, hnew]

/-- What the handler and the commit after it come to. -/
def Outcomes.attempt : Except Raised Unit :=
  match env.handler with
  | none => raising env.commit
  | some e => .error e

theorem attempt_ok_iff : env.attempt = .ok () ↔ env.handler = none ∧ env.commit = none := by
  unfold Outcomes.attempt
  cases env.handler with
  | none =>
      cases env.commit with
      | none => exact iff_of_true rfl ⟨rfl, rfl⟩
      | some e => exact iff_of_false (fun hc => nomatch hc) fun hc => nomatch hc.2
  | some e => exact iff_of_false (fun hc => nomatch hc) fun hc => nomatch hc.1

theorem undo_eval (session : Nat) (e : Raised) (s : State) :
    Quiet s ((undo session e).eval env.exec s).2
      ∧ ∃ e', ((undo session e).eval env.exec s).1 = .error e' := by
  cases e with
  | exception exc =>
      show Quiet s (Prog.eval env.exec (Prog.onOk _ (raising (env.rollback s.rollbacks))) _).2
        ∧ ∃ e', (Prog.eval env.exec (Prog.onOk _ (raising (env.rollback s.rollbacks))) _).1 = _
      cases env.rollback s.rollbacks with
      | none => exact ⟨⟨rfl, rfl, rfl⟩, _, rfl⟩
      | some e' => exact ⟨⟨rfl, rfl, rfl⟩, _, rfl⟩
  | cancelledError => exact ⟨⟨rfl, rfl, rfl⟩, _, rfl⟩
  | generatorExit => exact ⟨⟨rfl, rfl, rfl⟩, _, rfl⟩

/-- The body runs the handler and the commit, and an exception of theirs goes on
after the rollback. -/
theorem dispatchBody_eval (session : Nat) (s : State) :
    (dispatchBody session).eval env.exec s = (match env.attempt with
      | .ok a => (.ok a, s)
      | .error e => (undo session e).eval env.exec s) := by
  have hattempt : (handleAndCommit session).eval env.exec s = (env.attempt, s) := by
    show (Prog.onOk (fun _ => call (.commit session)) (raising env.handler)).eval env.exec s = _
    unfold Outcomes.attempt
    cases env.handler with
    | none => rfl
    | some e => rfl
  show Prog.eval env.exec (Prog.handle _ _) s = _
  rw [Prog.eval_handle, hattempt]
  cases env.attempt with
  | ok _ => rfl
  | error _ => rfl

/-- It leaves the sessions and the schema alone. -/
theorem dispatchBody_quiet (session : Nat) (s : State) :
    Quiet s ((dispatchBody session).eval env.exec s).2 := by
  rw [dispatchBody_eval]
  cases env.attempt with
  | ok a => exact ⟨rfl, rfl, rfl⟩
  | error e => exact (undo_eval env session e s).1

/-! ## §5. The session of a message. -/

/-- A session that could not be opened: nothing stays but the schema. -/
theorem not_opened_iff {g : Gen Op Ans Raised Nat} {s : State} {e : Raised} {target_schema : String}
    (hnext : g.next.eval env.exec s = (.error e, { s with current_schema := target_schema })) :
    Released s ((dispatchOver g).eval env.exec s).2 ↔ s.current_schema = target_schema := by
  unfold dispatchOver Gen.withBlock
  rw [Prog.eval_handle, hnext]
  constructor
  · intro h
    exact h.2.symm
  · intro h
    exact ⟨rfl, h.symm⟩

/-- **Over `get_session` itself** every handler outcome and every commit releases
the session: only a session that cannot be closed stays. -/
theorem managed_iff (target_schema : String) (s : State) :
    Released s ((dispatchOver (getSession target_schema)).eval env.exec s).2
      ↔ (env.newSession = none → env.close = none)
        ∧ (env.newSession ≠ none → s.current_schema = target_schema) := by
  have hnext := getSession_next env target_schema s
  cases hnew : env.newSession with
  | some e =>
      rw [hnew] at hnext
      rw [not_opened_iff env hnext]
      exact ⟨fun h => ⟨fun hc => (nomatch hc), fun _ => h⟩, fun h => h.2 (fun hc => nomatch hc)⟩
  | none =>
      rw [hnew] at hnext
      unfold dispatchOver
      rw [Gen.eval_withBlock env.exec interpreter hnext, Prog.eval_handle, Gen.aexit_state,
        afterYield_released env (dispatchBody_quiet env s.opened _).1]
      exact ⟨fun h => ⟨fun _ => h, fun hc => absurd rfl hc⟩, fun h => h.1 rfl⟩

/-- **Where nothing raises**, `_order_session` does what `get_session` does. -/
theorem dispatch_eq_managed {s : State} {u : Unit} (hnew : env.newSession = none)
    (hattempt : env.attempt = .ok u) :
    dispatch.eval env.exec s = (dispatchOver (getSession "orders")).eval env.exec s := by
  have hnext := getSession_next env "orders" s
  have hbody := dispatchBody_eval env s.opened
    { s with current_schema := "orders", opened := s.opened + 1, live := s.opened :: s.live }
  rw [hnew] at hnext
  rw [hattempt] at hbody
  unfold dispatch dispatchOver orderSession
  obtain ⟨hwrapped, hplain⟩ := Gen.withBlock_forYield_ok env.exec interpreter hnext hbody
    (by rw [Gen.next_ofProg_ending, Prog.eval_map])
  rw [hwrapped, hplain]

/-- **The with-block of `_handle_message`** closes the session it has opened and
restores the schema exactly where the handler, the commit and the close raise
nothing.  Where no session was opened the schema must have been the same. -/
theorem dispatched_iff (s : State) :
    Released s (dispatch.eval env.exec s).2
      ↔ (env.newSession = none → env.handler = none ∧ env.commit = none ∧ env.close = none)
        ∧ (env.newSession ≠ none → s.current_schema = "orders") := by
  have hnext := getSession_next env "orders" s
  cases hnew : env.newSession with
  | some e =>
      rw [hnew] at hnext
      have hwrapped : orderSession.next.eval env.exec s
          = (.error e, { s with current_schema := "orders" }) := by
        unfold orderSession
        rw [Gen.next_forYield, Prog.eval_map, hnext]
        rfl
      unfold dispatch
      rw [not_opened_iff env hwrapped]
      exact ⟨fun h => ⟨fun hc => (nomatch hc), fun _ => h⟩, fun h => h.2 (fun hc => nomatch hc)⟩
  | none =>
      have hok := attempt_ok_iff env
      cases hattempt : env.attempt with
      | error e =>
          -- the exception stays outside `get_session`: the session is open as before
          rw [hnew] at hnext
          have hbody := dispatchBody_eval env s.opened
            { s with current_schema := "orders", opened := s.opened + 1, live := s.opened :: s.live }
          rw [hattempt] at hbody hok
          obtain ⟨hquiet, e', hraised⟩ := undo_eval env s.opened e
            { s with current_schema := "orders", opened := s.opened + 1, live := s.opened :: s.live }
          unfold dispatch dispatchOver orderSession
          rw [Gen.withBlock_forYield_error env.exec interpreter hnext
            (hbody.trans (Prod.ext hraised rfl))]
          refine iff_of_false (fun hc => ?_) fun hc => ?_
          · exact List.cons_ne_self _ _ (hquiet.1.symm.trans hc.1)
          · obtain ⟨hhandler, hcommit, -⟩ := hc.1 rfl
            exact nomatch hok.mpr ⟨hhandler, hcommit⟩
      | ok u =>
          rw [dispatch_eq_managed env hnew hattempt, managed_iff, hnew]
          obtain ⟨hhandler, hcommit⟩ := hok.mp hattempt
          exact ⟨fun h => ⟨fun _ => ⟨hhandler, hcommit, h.1 rfl⟩, fun hc => absurd rfl hc⟩,
            fun h => ⟨fun _ => (h.1 rfl).2.2, fun hc => absurd rfl hc⟩⟩

/-- The payment of an order that is not there: the handler raises. -/
def missingOrder : Outcomes where
  newSession := none
  handler := some (.exception ⟨.orderNotFoundError, "Order does not exist.", []⟩)
  commit := none
  rollback := fun _ => none
  close := none

/-- The session of that message stays open, and the schema is not restored. -/
theorem dispatched_leaks :
    ¬ ∀ (env : Outcomes) (s : State), env.newSession = none → env.close = none →
        Released s (dispatch.eval env.exec s).2 := by
  intro h
  have hleft := (h missingOrder ⟨"public", 0, [], 0⟩ rfl rfl).2
  exact absurd hleft (by decide)

end Nimbus.Sessions
