/-
  Nimbus.Lib.Pool
  ───────────────
  **INTERLEAVED TRANSACTIONS.**

  Any number of calls run at once over one shared state.  Each call is a
  program (`Nimbus.Lib.Prog`) in a session of its own; a scheduler picks whose
  operation is next.  When its program has ended, the owner of the session
  commits or rolls back; a session can also be lost at any moment.

    • `Pool.act`         — the transition, `Pool.machine` — the machine;
    • `act_cases`        — everything one action can do;
    • `Contract`         — what has to be shown of each program alone;
    • `Contract.reachable` — and what then holds in every state of every
                             interleaving;
    • `Effects.replay`   — an observation that only commits change is that of
                           the committed calls, one after another;
    • `Pool.act_after`, `Pool.act_yielding` — what was committed before a call,
                             and what a call that commits has returned;
    • `Contract.later`     — what is shown of a program that begins when
                             something holds for good.
-/
import Nimbus.Lib.Machine
import Nimbus.Lib.Prog
import Mathlib.Logic.Function.Basic

namespace Nimbus.Lib

/-- Calls, their programs, and how sessions open and end. -/
structure System (Call Op : Type) (Ans : Op → Type) (ε Out σ τ χ : Type) where
  body : Call → Prog Op Ans ε Out
  exec : χ → τ → (op : Op) → σ → Option (Except ε (Ans op) × σ)
  enter : τ → σ → σ
  /-- Whether the owner of the session may commit after this outcome. -/
  mayCommit : Call → Except ε Out → Bool
  commit : χ → τ → σ → Option σ
  rollback : τ → σ → σ

/-- A running call: what was asked, and what is left to do. -/
structure Thread (Call Op : Type) (Ans : Op → Type) (ε Out : Type) where
  call : Call
  prog : Prog Op Ans ε Out

/-- A committed call with its outcome. -/
structure Entry (τ Call ε Out : Type) where
  tid : τ
  call : Call
  result : Except ε Out

/-- The scheduler's moves. -/
inductive Action (τ Call χ : Type) where
  /-- A new session `t` begins `call`. -/
  | start (t : τ) (call : Call)
  /-- The next operation of `t`, the environment choosing `c`. -/
  | step (t : τ) (c : χ)
  /-- The program of `t` has ended and its owner commits. -/
  | commit (t : τ) (c : χ)
  /-- The session `t` is rolled back, or lost. -/
  | rollback (t : τ)

/-- The shared state, the open sessions, and the committed calls in the order
of their commits. -/
structure Pool (Call Op : Type) (Ans : Op → Type) (ε Out σ τ : Type) where
  shared : σ
  thread : τ → Option (Thread Call Op Ans ε Out)
  log : List (Entry τ Call ε Out)

namespace Pool

variable {Call Op : Type} {Ans : Op → Type} {ε Out σ τ χ : Type} [DecidableEq τ]

/-! ## §1. Transitions. -/

/-- No session is open and nothing has been committed. -/
def init (s : σ) : Pool Call Op Ans ε Out σ τ := ⟨s, fun _ => none, []⟩

/-- One move of the scheduler; `none` when it is not possible. -/
def act (S : System Call Op Ans ε Out σ τ χ) (P : Pool Call Op Ans ε Out σ τ) :
    Action τ Call χ → Option (Pool Call Op Ans ε Out σ τ)
  | .start t call =>
      -- a thread runs one call, from its start to a commit or a rollback
      match P.thread t with
      | none => some { P with
          shared := S.enter t P.shared
          thread := Function.update P.thread t (some ⟨call, S.body call⟩) }
      | some _ => none
  | .step t c =>
      match P.thread t with
      | some ⟨call, .call op k⟩ =>
          (S.exec c t op P.shared).map fun rs => { P with
            shared := rs.2
            thread := Function.update P.thread t (some ⟨call, k rs.1⟩) }
      | _ => none
  | .commit t c =>
      match P.thread t with
      | some ⟨call, .ret r⟩ =>
          if S.mayCommit call r then
            (S.commit c t P.shared).map fun s =>
              { shared := s
                thread := Function.update P.thread t none
                log := P.log ++ [⟨t, call, r⟩] }
          else none
      | _ => none
  | .rollback t =>
      match P.thread t with
      | some _ => some { P with
          shared := S.rollback t P.shared
          thread := Function.update P.thread t none }
      | none => none

/-- The pool as a machine. -/
def machine (S : System Call Op Ans ε Out σ τ χ) :
    Machine (Pool Call Op Ans ε Out σ τ) (Action τ Call χ) := ⟨act S⟩

@[simp] theorem machine_step (S : System Call Op Ans ε Out σ τ χ)
    (P : Pool Call Op Ans ε Out σ τ) (a : Action τ Call χ) :
    (machine S).step P a = act S P a := rfl

/-- **Everything one action can do.** -/
theorem act_cases {S : System Call Op Ans ε Out σ τ χ} {P P' : Pool Call Op Ans ε Out σ τ}
    {a : Action τ Call χ} (h : act S P a = some P') :
    (∃ t call, a = .start t call ∧ P.thread t = none ∧
      P' = { P with
        shared := S.enter t P.shared
        thread := Function.update P.thread t (some ⟨call, S.body call⟩) })
    ∨ (∃ t c call op k r s', a = .step t c ∧ P.thread t = some ⟨call, .call op k⟩ ∧
      S.exec c t op P.shared = some (r, s') ∧
      P' = { P with
        shared := s'
        thread := Function.update P.thread t (some ⟨call, k r⟩) })
    ∨ (∃ t c call r s', a = .commit t c ∧ P.thread t = some ⟨call, .ret r⟩ ∧
      S.mayCommit call r = true ∧ S.commit c t P.shared = some s' ∧
      P' = { shared := s'
             thread := Function.update P.thread t none
             log := P.log ++ [⟨t, call, r⟩] })
    ∨ (∃ t th, a = .rollback t ∧ P.thread t = some th ∧
      P' = { P with
        shared := S.rollback t P.shared
        thread := Function.update P.thread t none }) := by
  cases a with
  | start t call =>
      simp only [act] at h
      split at h
      next hn => exact Or.inl ⟨t, call, rfl, hn, (Option.some.inj h).symm⟩
      next => cases h
  | step t c =>
      simp only [act] at h
      split at h
      next call op k ht =>
        obtain ⟨⟨r, s'⟩, he, rfl⟩ := Option.map_eq_some_iff.mp h
        exact Or.inr (Or.inl ⟨t, c, call, op, k, r, s', rfl, ht, he, rfl⟩)
      next => cases h
  | commit t c =>
      simp only [act] at h
      split at h
      next call r ht =>
        split at h
        next hm =>
          obtain ⟨s', hc, rfl⟩ := Option.map_eq_some_iff.mp h
          exact Or.inr (Or.inr (Or.inl ⟨t, c, call, r, s', rfl, ht, hm, hc, rfl⟩))
        next => cases h
      next => cases h
  | rollback t =>
      simp only [act] at h
      split at h
      next th ht =>
        exact Or.inr (Or.inr (Or.inr ⟨t, th, rfl, ht, (Option.some.inj h).symm⟩))
      next => cases h

end Pool

/-- Committed calls stay in the log. -/
theorem Pool.log_prefix {Call Op : Type} {Ans : Op → Type} {ε Out σ τ χ : Type} [DecidableEq τ]
    {S : System Call Op Ans ε Out σ τ χ} (P : Pool Call Op Ans ε Out σ τ)
    (as : List (Action τ Call χ)) : P.log <+: ((Pool.machine S).run P as).log := by
  refine (Pool.machine S).run_invariant (I := fun P' => P.log <+: P'.log) ?_ as P
    (List.prefix_refl _)
  intro P₁ a P₂ hp hstep
  rcases Pool.act_cases hstep with ⟨_, _, _, _, rfl⟩ | ⟨_, _, _, _, _, _, _, _, _, _, rfl⟩ |
    ⟨_, _, _, _, _, _, _, _, _, rfl⟩ | ⟨_, _, _, _, rfl⟩
  · exact hp
  · exact hp
  · exact hp.trans (List.prefix_append _ _)
  · exact hp

/-- The same system where only the calls `f c` are made. -/
def System.comap {Call Call' Op : Type} {Ans : Op → Type} {ε Out σ τ χ : Type}
    (S : System Call Op Ans ε Out σ τ χ) (f : Call' → Call) :
    System Call' Op Ans ε Out σ τ χ :=
  { S with body := fun c => S.body (f c), mayCommit := fun c => S.mayCommit (f c) }

/-- The same system where an operation is possible only under the guard `g`. -/
def System.restrict {Call Op : Type} {Ans : Op → Type} {ε Out σ τ χ : Type}
    (S : System Call Op Ans ε Out σ τ χ) (g : χ → τ → Op → σ → Bool) :
    System Call Op Ans ε Out σ τ χ :=
  { S with exec := fun c t op s => if g c t op s then S.exec c t op s else none }

/-- A move whose operation meets the guard is a move of the restricted system. -/
theorem Pool.act_restrict {Call Op : Type} {Ans : Op → Type} {ε Out σ τ χ : Type} [DecidableEq τ]
    {S : System Call Op Ans ε Out σ τ χ} {g : χ → τ → Op → σ → Bool}
    {P P' : Pool Call Op Ans ε Out σ τ} {a : Action τ Call χ} (h : Pool.act S P a = some P')
    (hg : ∀ t c call op k x, a = .step t c → P.thread t = some ⟨call, .call op k⟩ →
      S.exec c t op P.shared = some x → g c t op P.shared = true) :
    Pool.act (S.restrict g) P a = some P' := by
  rcases Pool.act_cases h with ⟨t, call, rfl, -, -⟩ | ⟨t, c, call, op, k, r, s', rfl, ht, he, rfl⟩ |
    ⟨t, c, call, r, s', rfl, -, -, -, -⟩ | ⟨t, th, rfl, -, -⟩
  · exact h
  · have hexec : (S.restrict g).exec c t op P.shared = some (r, s') := by
      show (if g c t op P.shared then S.exec c t op P.shared else none) = _
      rw [if_pos (hg t c call op k _ rfl ht he), he]
    simp only [Pool.act, ht, hexec]
    rfl
  · exact h
  · exact h

/-! ## §2. The contract of a system. -/

/-- What is shown of each program alone: a local view for every session that
the other sessions cannot change, an invariant of the shared state, what an
operation asks of the local view, what holds of it at every point of a call,
and the call's postcondition. -/
structure Contract {Call Op : Type} {Ans : Op → Type} {ε Out σ τ χ : Type}
    (S : System Call Op Ans ε Out σ τ χ) (View : Type) where
  view : τ → σ → View
  inv : σ → Prop
  allowed : Op → View → Prop
  along : Call → View → Prop
  post : Call → Except ε Out → View → Prop
  enter_inv : ∀ {t s}, inv s → inv (S.enter t s)
  enter_view : ∀ {t u s}, t ≠ u → inv s → view t (S.enter u s) = view t s
  body_wlp : ∀ {t s} call, inv s →
    Prog.wlp ⟨fun c op s => S.exec c t op s, inv, view t, allowed⟩ (along call) (post call)
      (S.body call) (view t (S.enter t s))
  exec_inv : ∀ {t s c op r s'}, inv s → allowed op (view t s) →
    S.exec c t op s = some (r, s') → inv s'
  exec_view : ∀ {t u s c op r s'}, t ≠ u → inv s → S.exec c u op s = some (r, s') →
    view t s' = view t s
  commit_inv : ∀ {t s c call r s'}, inv s → post call r (view t s) →
    S.mayCommit call r = true → S.commit c t s = some s' → inv s'
  commit_view : ∀ {t u s c s'}, t ≠ u → inv s → S.commit c u s = some s' → view t s' = view t s
  rollback_inv : ∀ {t s}, inv s → inv (S.rollback t s)
  rollback_view : ∀ {t u s}, t ≠ u → inv s → view t (S.rollback u s) = view t s

namespace Contract

variable {Call Call' Op : Type} {Ans : Op → Type} {ε Out σ τ χ View : Type}
variable {S : System Call Op Ans ε Out σ τ χ} (K : Contract S View)

/-- What the programs of session `t` are verified against. -/
def setting (t : τ) : Prog.Setting Op Ans ε σ χ View :=
  ⟨fun c op s => S.exec c t op s, K.inv, K.view t, K.allowed⟩

/-- The contract of the system with fewer calls. -/
def comap (f : Call' → Call) : Contract (S.comap f) View where
  view := K.view
  inv := K.inv
  allowed := K.allowed
  along := fun c => K.along (f c)
  post := fun c => K.post (f c)
  enter_inv := K.enter_inv
  enter_view := K.enter_view
  body_wlp := fun c => K.body_wlp (f c)
  exec_inv := K.exec_inv
  exec_view := K.exec_view
  commit_inv := K.commit_inv
  commit_view := K.commit_view
  rollback_inv := K.rollback_inv
  rollback_view := K.rollback_view

/-- The contract with one more postcondition. -/
def also (post' : Call → Except ε Out → View → Prop)
    (h : ∀ {t s} call, K.inv s →
      Prog.wlp (K.setting t) (K.along call) (post' call) (S.body call) (K.view t (S.enter t s))) :
    Contract S View where
  view := K.view
  inv := K.inv
  allowed := K.allowed
  along := K.along
  post := fun call r v => K.post call r v ∧ post' call r v
  enter_inv := K.enter_inv
  enter_view := K.enter_view
  body_wlp := fun call hs => Prog.wlp_and (K.body_wlp call hs) (h call hs)
  exec_inv := K.exec_inv
  exec_view := K.exec_view
  commit_inv := fun hs hpost => K.commit_inv hs hpost.1
  commit_view := K.commit_view
  rollback_inv := K.rollback_inv
  rollback_view := K.rollback_view

/-- The invariant holds, and what is left of every open call still meets its
contract. -/
structure Holds (P : Pool Call Op Ans ε Out σ τ) : Prop where
  inv : K.inv P.shared
  thread : ∀ t th, P.thread t = some th →
    Prog.wlp (K.setting t) (K.along th.call) (K.post th.call) th.prog (K.view t P.shared)

theorem holds_init {s : σ} (h : K.inv s) :
    K.Holds (Pool.init s : Pool Call Op Ans ε Out σ τ) :=
  ⟨h, fun _ _ ht => nomatch ht⟩

/-- What holds at every point of a call holds of it now. -/
theorem Holds.along {P : Pool Call Op Ans ε Out σ τ} (hP : K.Holds P) {t : τ}
    {th : Thread Call Op Ans ε Out} (ht : P.thread t = some th) :
    K.along th.call (K.view t P.shared) :=
  Prog.wlp_loc (hP.thread t th ht)

/-- The postcondition of a call that has ended holds of it now. -/
theorem Holds.post {P : Pool Call Op Ans ε Out σ τ} (hP : K.Holds P) {t : τ} {call : Call}
    {r : Except ε Out} (ht : P.thread t = some ⟨call, .ret r⟩) :
    K.post call r (K.view t P.shared) :=
  (hP.thread t _ ht).2

variable [DecidableEq τ]

/-- When session `u` has been updated and the view of the others is the same,
the other sessions still meet their contracts. -/
theorem thread_update {P : Pool Call Op Ans ε Out σ τ} {s' : σ} {u : τ}
    {x : Option (Thread Call Op Ans ε Out)} (hP : K.Holds P)
    (hview : ∀ t, t ≠ u → K.view t s' = K.view t P.shared)
    (hx : ∀ th, x = some th →
      Prog.wlp (K.setting u) (K.along th.call) (K.post th.call) th.prog (K.view u s')) :
    ∀ t th, Function.update P.thread u x t = some th →
      Prog.wlp (K.setting t) (K.along th.call) (K.post th.call) th.prog (K.view t s') := by
  intro t th ht
  by_cases htu : t = u
  · subst htu
    rw [Function.update_self] at ht
    exact hx th ht
  · rw [Function.update_of_ne htu] at ht
    rw [hview t htu]
    exact hP.thread t th ht

/-- **Every move keeps the contracts.** -/
theorem act_holds {P P' : Pool Call Op Ans ε Out σ τ} {a : Action τ Call χ}
    (hP : K.Holds P) (h : Pool.act S P a = some P') : K.Holds P' := by
  rcases Pool.act_cases h with ⟨t, call, -, -, rfl⟩ | ⟨t, c, call, op, k, r, s', -, ht, he, rfl⟩ |
    ⟨t, c, call, r, s', -, ht, hm, hc, rfl⟩ | ⟨t, th, -, -, rfl⟩
  · refine ⟨K.enter_inv hP.inv, ?_⟩
    refine K.thread_update hP (fun u hu => K.enter_view hu hP.inv) fun th hth => ?_
    obtain rfl := Option.some.inj hth
    exact K.body_wlp call hP.inv
  · obtain ⟨-, hallow, hstep⟩ := hP.thread t _ ht
    refine ⟨K.exec_inv hP.inv hallow he, ?_⟩
    refine K.thread_update hP (fun u hu => K.exec_view hu hP.inv he) fun th hth => ?_
    obtain rfl := Option.some.inj hth
    exact hstep c P.shared r s' hP.inv rfl he
  · have hpost := (hP.thread t _ ht).2
    refine ⟨K.commit_inv hP.inv hpost hm hc, ?_⟩
    exact K.thread_update hP (fun u hu => K.commit_view hu hP.inv hc) fun th hth => nomatch hth
  · refine ⟨K.rollback_inv hP.inv, ?_⟩
    exact K.thread_update hP (fun u hu => K.rollback_view hu hP.inv) fun th hth => nomatch hth

/-- **Soundness**: every state of every interleaving keeps the invariant, and
every call in it the contract it was verified with. -/
theorem reachable {s : σ} (h : K.inv s) (as : List (Action τ Call χ)) :
    K.Holds ((Pool.machine S).run (Pool.init s) as) :=
  (Pool.machine S).run_invariant (fun _ _ _ hP hstep => K.act_holds hP hstep) as _
    (K.holds_init h)

end Contract

/-! ## §3. Committed effects. -/

/-- An observation `obs` of the shared state that only commits change, and what
a commit makes of it. -/
structure Effects {Call Op : Type} {Ans : Op → Type} {ε Out σ τ χ View : Type}
    {S : System Call Op Ans ε Out σ τ χ} (K : Contract S View) (β : Type) where
  obs : σ → β
  effect : Call → Except ε Out → β → β → Prop
  enter_obs : ∀ t s, obs (S.enter t s) = obs s
  exec_obs : ∀ {t s c op r s'}, K.inv s → S.exec c t op s = some (r, s') → obs s' = obs s
  rollback_obs : ∀ t s, obs (S.rollback t s) = obs s
  commit_obs : ∀ {t s c call r s'}, K.inv s → K.post call r (K.view t s) →
    S.mayCommit call r = true → S.commit c t s = some s' → effect call r (obs s) (obs s')

/-- `b` becomes `b'` by the effects of the calls of a log, one after another. -/
inductive Replay {Call ε Out τ β : Type} (effect : Call → Except ε Out → β → β → Prop) (b : β) :
    List (Entry τ Call ε Out) → β → Prop where
  | nil : Replay effect b [] b
  | snoc {log b' b''} (e : Entry τ Call ε Out) : Replay effect b log b' →
      effect e.call e.result b' b'' → Replay effect b (log ++ [e]) b''

/-- What the first state satisfies, and every effect of a call keeps, holds
after every log. -/
theorem Replay.invariant {Call ε Out τ β : Type} {effect : Call → Except ε Out → β → β → Prop}
    {I : List (Entry τ Call ε Out) → β → Prop} {b b' : β} {log : List (Entry τ Call ε Out)}
    (h₀ : I [] b)
    (hstep : ∀ log b' b'' e, I log b' → effect e.call e.result b' b'' → I (log ++ [e]) b'')
    (h : Replay effect b log b') : I log b' := by
  induction h with
  | nil => exact h₀
  | snoc e _ he ih => exact hstep _ _ _ e ih he

/-! What is read off a log, after one more committed call. -/

theorem filterMap_snoc_none {α β : Type} {f : α → Option β} {l : List α} {a : α}
    (h : f a = none) : (l ++ [a]).filterMap f = l.filterMap f := by
  rw [List.filterMap_append, List.filterMap_cons, h]
  exact List.append_nil _

theorem filterMap_snoc_some {α β : Type} {f : α → Option β} {l : List α} {a : α} {b : β}
    (h : f a = some b) : (l ++ [a]).filterMap f = l.filterMap f ++ [b] := by
  rw [List.filterMap_append, List.filterMap_cons, h]
  rfl

namespace Effects

variable {Call Call' Op : Type} {Ans : Op → Type} {ε Out σ τ χ View β : Type} [DecidableEq τ]
variable {S : System Call Op Ans ε Out σ τ χ} {K : Contract S View} (F : Effects K β)

/-- The effects of the system with fewer calls. -/
def comap (f : Call' → Call) : Effects (K.comap f) β where
  obs := F.obs
  effect := fun c => F.effect (f c)
  enter_obs := F.enter_obs
  exec_obs := F.exec_obs
  rollback_obs := F.rollback_obs
  commit_obs := F.commit_obs

/-- **A move changes the observation only by committing a call, and then by
that call's effect.** -/
theorem act_effect {P P' : Pool Call Op Ans ε Out σ τ} {a : Action τ Call χ} (hP : K.Holds P)
    (h : Pool.act S P a = some P') :
    (F.obs P'.shared = F.obs P.shared ∧ P'.log = P.log ∧ ∀ t c, a ≠ .commit t c)
    ∨ ∃ t c call r, a = .commit t c ∧ P.thread t = some ⟨call, .ret r⟩
        ∧ P'.log = P.log ++ [⟨t, call, r⟩] ∧ K.post call r (K.view t P.shared)
        ∧ F.effect call r (F.obs P.shared) (F.obs P'.shared) := by
  rcases Pool.act_cases h with ⟨t, call, rfl, -, rfl⟩ | ⟨t, c, call, op, k, r, s', rfl, -, he, rfl⟩ |
    ⟨t, c, call, r, s', rfl, ht, hm, hc, rfl⟩ | ⟨t, th, rfl, -, rfl⟩
  · exact Or.inl ⟨F.enter_obs t P.shared, rfl, fun _ _ hc => nomatch hc⟩
  · exact Or.inl ⟨F.exec_obs hP.inv he, rfl, fun _ _ hc => nomatch hc⟩
  · have hpost := Contract.Holds.post K hP ht
    exact Or.inr ⟨t, c, call, r, rfl, ht, rfl, hpost, F.commit_obs hP.inv hpost hm hc⟩
  · exact Or.inl ⟨F.rollback_obs t P.shared, rfl, fun _ _ hc => nomatch hc⟩

/-- A commit that succeeds has the effect of the call that has ended. -/
theorem effect_of_commit {P P' : Pool Call Op Ans ε Out σ τ} (hP : K.Holds P) {t : τ} {c : χ}
    {call : Call} {r : Except ε Out} (ht : P.thread t = some ⟨call, .ret r⟩)
    (h : Pool.act S P (.commit t c) = some P') :
    F.effect call r (F.obs P.shared) (F.obs P'.shared) := by
  rcases F.act_effect hP h with ⟨-, -, hno⟩ | ⟨t', c', call', r', ha, ht', -, -, he⟩
  · exact absurd rfl (hno t c)
  · obtain ⟨rfl, rfl⟩ := Action.commit.inj ha
    have hsame := Option.some.inj (ht.symm.trans ht')
    obtain rfl : call = call' := congrArg Thread.call hsame
    obtain rfl := Prog.ret.inj (congrArg Thread.prog hsame)
    exact he

/-- **Every run is equivalent to its committed calls, taken one after another
in the order of their commits.** -/
theorem replay {s : σ} (h : K.inv s) (as : List (Action τ Call χ)) :
    Replay F.effect (F.obs s) ((Pool.machine S).run (Pool.init s) as).log
      (F.obs ((Pool.machine S).run (Pool.init s) as).shared) := by
  have hinv := (Pool.machine S).run_invariant
    (I := fun P => K.Holds P ∧ Replay F.effect (F.obs s) P.log (F.obs P.shared)) ?_ as
    (Pool.init s) ⟨K.holds_init h, Replay.nil⟩
  · exact hinv.2
  · rintro P a P' ⟨hP, hR⟩ hstep
    refine ⟨K.act_holds hP hstep, ?_⟩
    rcases F.act_effect hP hstep with ⟨hobs, hlog, -⟩ | ⟨t, c, call, r, -, -, hlog, -, he⟩
    · rw [hobs, hlog]
      exact hR
    · rw [hlog]
      exact Replay.snoc ⟨t, call, r⟩ hR he

end Effects

/-! ## §4. Calls and what they return. -/

namespace Pool

variable {Call Op : Type} {Ans : Op → Type} {ε Out σ τ χ : Type}
variable {S : System Call Op Ans ε Out σ τ χ} {P P' : Pool Call Op Ans ε Out σ τ}

/-- Every call, open or committed, comes after what it needs: `N log call` is asked
of the calls that were committed before it. -/
structure After (N : List (Entry τ Call ε Out) → Call → Prop) (P : Pool Call Op Ans ε Out σ τ) :
    Prop where
  thread : ∀ t th, P.thread t = some th → N P.log th.call
  log : ∀ earlier e later, P.log = earlier ++ e :: later → N earlier e.call

theorem after_init {N : List (Entry τ Call ε Out) → Call → Prop} {s : σ} :
    After N (init s : Pool Call Op Ans ε Out σ τ) := by
  refine ⟨fun _ _ ht => (nomatch ht), fun earlier e later h => ?_⟩
  exact absurd h.symm (List.append_ne_nil_of_right_ne_nil _ (List.cons_ne_nil _ _))

/-- What every call returns, if it returns, satisfies `R`. -/
structure Yielding (R : Call → Out → Prop) (P : Pool Call Op Ans ε Out σ τ) : Prop where
  thread : ∀ t th, P.thread t = some th → Prog.Yields (R th.call) th.prog
  log : ∀ e ∈ P.log, ∀ out, e.result = .ok out → R e.call out

theorem yielding_init {R : Call → Out → Prop} {s : σ} :
    Yielding R (init s : Pool Call Op Ans ε Out σ τ) :=
  ⟨fun _ _ ht => (nomatch ht), fun _ he => (nomatch he)⟩

variable [DecidableEq τ]

/-- What holds of every open thread still does when one of them is replaced. -/
theorem forall_thread_update {Q : Thread Call Op Ans ε Out → Prop}
    (hP : ∀ t th, P.thread t = some th → Q th) {u : τ} {x : Option (Thread Call Op Ans ε Out)}
    (hx : ∀ th, x = some th → Q th) : ∀ t th, Function.update P.thread u x t = some th → Q th := by
  intro t th ht
  by_cases htu : t = u
  · subst htu
    rw [Function.update_self] at ht
    exact hx th ht
  · rw [Function.update_of_ne htu] at ht
    exact hP t th ht

/-- A list with one element more is split at the last one, or before it. -/
theorem split_snoc {α : Type} {l earlier later : List α} {a e : α}
    (h : l ++ [a] = earlier ++ e :: later) :
    (earlier = l ∧ e = a) ∨ ∃ later', l = earlier ++ e :: later' := by
  rcases List.append_eq_append_iff.mp h with ⟨rest, rfl, ha⟩ | ⟨rest, rfl, ha⟩
  · cases rest with
    | nil => exact Or.inl ⟨List.append_nil l, (List.cons.inj ha).1.symm⟩
    | cons b rest => exact absurd (List.cons.inj ha).2.symm (by simp)
  · cases rest with
    | nil => exact Or.inl ⟨(List.append_nil earlier).symm, (List.cons.inj ha).1⟩
    | cons b rest =>
        obtain ⟨rfl, -⟩ := List.cons.inj ha
        exact Or.inr ⟨rest, rfl⟩

/-- **What a call needs when it is started, it has when it is committed.** -/
theorem act_after {N : List (Entry τ Call ε Out) → Call → Prop}
    (hmono : ∀ log e call, N log call → N (log ++ [e]) call) {a : Action τ Call χ}
    (hP : After N P) (hstart : ∀ t call, a = .start t call → N P.log call)
    (h : act S P a = some P') : After N P' := by
  rcases act_cases h with ⟨t, call, rfl, -, rfl⟩ | ⟨t, c, call, op, k, r, s', -, ht, -, rfl⟩ |
    ⟨t, c, call, r, s', -, ht, -, -, rfl⟩ | ⟨t, th, -, -, rfl⟩
  · refine ⟨forall_thread_update hP.thread fun th hth => ?_, hP.log⟩
    obtain rfl := Option.some.inj hth
    exact hstart t call rfl
  · refine ⟨forall_thread_update hP.thread fun th hth => ?_, hP.log⟩
    obtain rfl := Option.some.inj hth
    have hcall : N P.log call := hP.thread t _ ht
    exact hcall
  · refine ⟨forall_thread_update (fun u th hu => hmono _ _ _ (hP.thread u th hu))
      fun th hth => (nomatch hth), fun earlier e later hlog => ?_⟩
    -- the entry that is new comes after the whole log
    rcases split_snoc hlog with ⟨rfl, rfl⟩ | ⟨later', hlog⟩
    · exact hP.thread t _ ht
    · exact hP.log earlier e later' hlog
  · exact ⟨forall_thread_update hP.thread fun th hth => (nomatch hth), hP.log⟩

/-- **What all programs yield, every call that commits has returned.** -/
theorem act_yielding {R : Call → Out → Prop} (hbody : ∀ call, Prog.Yields (R call) (S.body call))
    {a : Action τ Call χ} (hP : Yielding R P) (h : act S P a = some P') : Yielding R P' := by
  rcases act_cases h with ⟨t, call, -, -, rfl⟩ | ⟨t, c, call, op, k, r, s', -, ht, -, rfl⟩ |
    ⟨t, c, call, r, s', -, ht, -, -, rfl⟩ | ⟨t, th, -, -, rfl⟩
  · refine ⟨forall_thread_update hP.thread fun th hth => ?_, hP.log⟩
    obtain rfl := Option.some.inj hth
    exact hbody call
  · refine ⟨forall_thread_update hP.thread fun th hth => ?_, hP.log⟩
    obtain rfl := Option.some.inj hth
    exact hP.thread t _ ht r
  · refine ⟨forall_thread_update hP.thread fun th hth => (nomatch hth), fun e he out hout => ?_⟩
    -- what is committed is what the program has returned
    rcases List.mem_append.mp he with he | he
    · exact hP.log e he out hout
    · rw [List.mem_singleton.mp he] at hout ⊢
      have hret := hP.thread t _ ht
      have hr : r = .ok out := hout
      rw [hr] at hret
      exact hret
  · exact ⟨forall_thread_update hP.thread fun th hth => (nomatch hth), hP.log⟩

end Pool

/-! ## §5. Calls that begin later. -/

namespace Contract

variable {Call Op : Type} {Ans : Op → Type} {ε Out σ τ χ View : Type} [DecidableEq τ]
variable {S : System Call Op Ans ε Out σ τ χ} (K : Contract S View)

/-- What the programs of session `t` are verified against where `Q` holds. -/
def settingWith (Q : σ → Prop) (t : τ) : Prog.Setting Op Ans ε σ χ View :=
  { K.setting t with inv := fun s => K.inv s ∧ Q s }

/-- **A call that begins where something holds for good** is verified with it, in
whatever company it runs. -/
theorem later {Q : σ → Prop} {R : Call → Except ε Out → View → Prop}
    (hstable : ∀ {P P' : Pool Call Op Ans ε Out σ τ} {a : Action τ Call χ}, K.Holds P →
      Pool.act S P a = some P' → Q P.shared → Q P'.shared)
    (hbody : ∀ {t s} call, K.inv s → Q s →
      Prog.wlp (K.settingWith Q t) (fun _ => True) (R call) (S.body call)
        (K.view t (S.enter t s)))
    {P : Pool Call Op Ans ε Out σ τ} (hP : K.Holds P) (hQ : Q P.shared) {t : τ}
    (hnone : P.thread t = none) (as : List (Action τ Call χ)) {call : Call} {r : Except ε Out}
    (hend : ((Pool.machine S).run P as).thread t = some ⟨call, .ret r⟩) :
    R call r (K.view t ((Pool.machine S).run P as).shared) := by
  have hinv := (Pool.machine S).run_invariant
    (I := fun P' => K.Holds P' ∧ Q P'.shared ∧ ∀ th, P'.thread t = some th →
      Prog.wlp (K.settingWith Q t) (fun _ => True) (R th.call) th.prog (K.view t P'.shared)) ?_ as
    P ⟨hP, hQ, fun th hth => ?_⟩
  · exact (hinv.2.2 _ hend).2
  · rintro P₁ a P₂ ⟨hP₁, hQ₁, ht⟩ hstep
    refine ⟨K.act_holds hP₁ hstep, hstable hP₁ hstep hQ₁, ?_⟩
    -- a move of another session leaves what `t` sees as it is
    have hupdate : ∀ {u : τ} {x : Option (Thread Call Op Ans ε Out)} {s' : σ},
        (t ≠ u → K.view t s' = K.view t P₁.shared) →
        (t = u → ∀ th, x = some th →
          Prog.wlp (K.settingWith Q t) (fun _ => True) (R th.call) th.prog (K.view t s')) →
        ∀ th, Function.update P₁.thread u x t = some th →
          Prog.wlp (K.settingWith Q t) (fun _ => True) (R th.call) th.prog (K.view t s') := by
      intro u x s' hview hx th hth
      by_cases htu : t = u
      · subst htu
        rw [Function.update_self] at hth
        exact hx rfl th hth
      · rw [Function.update_of_ne htu] at hth
        rw [hview htu]
        exact ht th hth
    rcases Pool.act_cases hstep with ⟨u, call, -, -, rfl⟩ |
      ⟨u, c, call, op, k, r, s', -, hu, he, rfl⟩ | ⟨u, c, call, r, s', -, -, -, hc, rfl⟩ |
      ⟨u, th, -, -, rfl⟩
    · refine hupdate (fun htu => K.enter_view htu hP₁.inv) fun htu th hth => ?_
      subst htu
      obtain rfl := Option.some.inj hth
      exact hbody call hP₁.inv hQ₁
    · refine hupdate (fun htu => K.exec_view htu hP₁.inv he) fun htu th hth => ?_
      subst htu
      obtain rfl := Option.some.inj hth
      obtain ⟨-, -, hk⟩ := ht _ hu
      exact hk c P₁.shared r s' ⟨hP₁.inv, hQ₁⟩ rfl he
    · exact hupdate (fun htu => K.commit_view htu hP₁.inv hc) fun _ th hth => (nomatch hth)
    · exact hupdate (fun htu => K.rollback_view htu hP₁.inv) fun _ th hth => (nomatch hth)
  · rw [hnone] at hth
    cases hth

end Contract

end Nimbus.Lib
