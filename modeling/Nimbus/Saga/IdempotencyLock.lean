/-
  Nimbus.Saga.IdempotencyLock
  ───────────────────────────
  **THE IDEMPOTENCY LOCK ENDS BEFORE THE TRANSACTION DOES.**

  `process_payment` releases its Redis lock when it returns; its caller commits
  afterwards.  Between the two the key is free, and the next request with the
  same key may take it while the first one's change is still to be committed.
  As long as no request does so, at most one open request has acquired a key,
  and no two of them hold a change under the same key.

    • `Exclusive`           — a key belongs to one open request;
    • `AcquiresReleased`    — a request takes a key that another one has
                              released without having ended;
    • `exclusive_iff`       — **a run is exclusive exactly when no request
                              does that.**
-/
import Nimbus.Saga.PaymentEvents

namespace Nimbus

open Lib Payments

variable {τ : Type} [DecidableEq τ] {uuid5 : Uuid5} {T : Table Row}

/-! ## §1. Exclusion. -/

/-- From its acquisition to the commit or rollback a key belongs to one request,
and of the open requests with one idempotency key one at most holds a change. -/
structure Exclusive (P : Pool ProcessPaymentRequest Op Ans Exn Reply (World τ) τ) : Prop where
  acquired : ∀ t u key, (P.shared.lock t).acquired key = true →
    (P.shared.lock u).acquired key = true → t = u
  changes : ∀ t u th th', P.thread t = some th → P.thread u = some th' →
    th.call.idempotency_key = th'.call.idempotency_key →
    ¬ (P.shared.local t).Untouched → ¬ (P.shared.local u).Untouched → t = u

/-- The action is a SET NX that goes through and finds the key free, while
another request has acquired and released it and has not ended. -/
def AcquiresReleased (P : Pool ProcessPaymentRequest Op Ans Exn Reply (World τ) τ)
    (a : Action τ ProcessPaymentRequest Choice) : Prop :=
  ∃ t c request key token k u, a = .step t c
    ∧ P.thread t = some ⟨request, .call (.redisSetNx key token) k⟩ ∧ c.fault = none
    ∧ P.shared.redis key = none ∧ u ≠ t ∧ P.shared.lock u = .released key

/-- A request that holds a change has acquired the lock of its key. -/
theorem changes_of_acquired {P : Pool ProcessPaymentRequest Op Ans Exn Reply (World τ) τ}
    (hP : (paymentContract uuid5).Holds P)
    (h : ∀ t u key, (P.shared.lock t).acquired key = true →
      (P.shared.lock u).acquired key = true → t = u) : Exclusive P := by
  refine ⟨h, fun t u th th' ht hu hkey htouched htouched' => ?_⟩
  have hunder : UnderLock th.call (P.shared.local t) :=
    Contract.Holds.along (paymentContract uuid5) hP ht
  have hunder' : UnderLock th'.call (P.shared.local u) :=
    Contract.Holds.along (paymentContract uuid5) hP hu
  have hacq := hunder.resolve_left fun hidle => htouched hidle.2
  have hacq' := hunder'.resolve_left fun hidle => htouched' hidle.2
  rw [hkey] at hacq
  exact h t u _ hacq hacq'

/-! ## §2. What an operation does to the lock phases. -/

/-- A SET NX changes a phase exactly when it goes through and the key is free. -/
theorem setNx_lock {c : Choice} {t : τ} {key token : String} {w w' : World τ}
    {r : Except Exn Bool} (h : exec c t (.redisSetNx key token) w = some (r, w')) :
    (w'.lock = w.lock ∧ ¬ (c.fault = none ∧ w.redis key = none))
    ∨ (c.fault = none ∧ w.redis key = none
        ∧ w'.lock = Function.update w.lock t (.held key token)) := by
  have hsame : (w.setNx key token).2.lock = w.lock := by
    unfold World.setNx
    split <;> rfl
  simp only [exec] at h
  split at h
  next f hf =>
    obtain ⟨-, rfl⟩ := Prod.mk.inj (Option.some.inj h)
    -- the command may have been executed, but its answer is lost
    refine Or.inl ⟨?_, fun hc => ?_⟩
    · split
      · exact hsame
      · rfl
    · rw [hf] at hc
      cases hc.1
  next hf =>
    unfold World.setNx at h
    cases hkey : w.redis key with
    | none =>
        rw [hkey] at h
        obtain ⟨-, rfl⟩ := Prod.mk.inj (Option.some.inj h)
        exact Or.inr ⟨hf, rfl, rfl⟩
    | some held =>
        rw [hkey] at h
        obtain ⟨-, rfl⟩ := Prod.mk.inj (Option.some.inj h)
        exact Or.inl ⟨rfl, fun hc => Option.some_ne_none held hc.2⟩

/-- A SET NX never waits. -/
theorem setNx_ne_none (c : Choice) (t : τ) (key token : String) (w : World τ) :
    exec c t (.redisSetNx key token) w ≠ none := by
  intro h
  simp only [exec] at h
  split at h
  next => cases h
  next => split at h <;> cases h

theorem release_lock {c : Choice} {t : τ} {key token : String} {w w' : World τ}
    {r : Except Exn Nat} (h : exec c t (.redisRelease key token) w = some (r, w')) :
    w'.lock = Function.update w.lock t (.released key) := by
  have hsame : (w.releaseKey key token).2.lock = w.lock := by
    unfold World.releaseKey
    split <;> rfl
  simp only [exec] at h
  split at h
  next f _ =>
    obtain ⟨-, rfl⟩ := Prod.mk.inj (Option.some.inj h)
    split
    · exact congrArg (Function.update · t (LockPhase.released key)) hsame
    · rfl
  next =>
    obtain ⟨-, rfl⟩ := Prod.mk.inj (Option.some.inj h)
    exact congrArg (Function.update · t (LockPhase.released key)) hsame

/-- Fewer acquired keys. -/
theorem acquired_mono {τ : Type} {l l' : τ → LockPhase}
    (h : ∀ t u key, (l t).acquired key = true → (l u).acquired key = true → t = u)
    (hsub : ∀ t key, (l' t).acquired key = true → (l t).acquired key = true) :
    ∀ t u key, (l' t).acquired key = true → (l' u).acquired key = true → t = u :=
  fun t u key ht hu => h t u key (hsub t key ht) (hsub u key hu)

/-- A phase that has acquired nothing more. -/
theorem acquired_update {l : τ → LockPhase} {t : τ} {p : LockPhase}
    (hp : ∀ key, p.acquired key = true → (l t).acquired key = true) (u : τ) (key : String)
    (h : (Function.update l t p u).acquired key = true) : (l u).acquired key = true := by
  by_cases hu : u = t
  · subst hu
    rw [Function.update_self] at h
    exact hp key h
  · rw [Function.update_of_ne hu] at h
    exact h

/-- A key that nobody else has acquired is taken. -/
theorem acquired_taken {l : τ → LockPhase} {t : τ} {key token : String}
    (h : ∀ u v key, (l u).acquired key = true → (l v).acquired key = true → u = v)
    (hfree : ∀ u, u ≠ t → (l u).acquired key = false) (u v : τ) (key' : String)
    (hu : (Function.update l t (.held key token) u).acquired key' = true)
    (hv : (Function.update l t (.held key token) v).acquired key' = true) : u = v := by
  by_cases hut : u = t
  · by_cases hvt : v = t
    · rw [hut, hvt]
    · rw [hut, Function.update_self] at hu
      obtain rfl : key = key' := of_decide_eq_true hu
      rw [Function.update_of_ne hvt, hfree v hvt] at hv
      cases hv
  · rw [Function.update_of_ne hut] at hu
    by_cases hvt : v = t
    · rw [hvt, Function.update_self] at hv
      obtain rfl : key = key' := of_decide_eq_true hv
      rw [hfree u hut] at hu
      cases hu
    · rw [Function.update_of_ne hvt] at hv
      exact h u v key' hu hv

/-- A key that another request has acquired although Redis does not hold it has
been released by that request. -/
theorem released_of_free {w : World τ} (hi : Inv w) {u : τ} {key : String}
    (hfree : w.redis key = none) (hacq : (w.lock u).acquired key = true) :
    w.lock u = .released key := by
  cases hl : w.lock u with
  | idle =>
      rw [hl] at hacq
      cases hacq
  | held k token =>
      rw [hl] at hacq
      obtain rfl : k = key := of_decide_eq_true hacq
      have hredis := (hi.held u k token hl).1
      rw [hfree] at hredis
      cases hredis
  | released k =>
      rw [hl] at hacq
      obtain rfl : k = key := of_decide_eq_true hacq
      rfl

/-! ## §3. One step. -/

/-- An operation that is no SET NX gives nobody a key. -/
theorem exec_acquired {c : Choice} {t : τ} {op : Op} {w w' : World τ} {r : Except Exn (Ans op)}
    (hi : Inv w) (ha : allowed op (w.local t)) (hop : ∀ key token, op ≠ .redisSetNx key token)
    (h : exec c t op w = some (r, w')) (u : τ) (key : String)
    (hacq : (w'.lock u).acquired key = true) : (w.lock u).acquired key = true := by
  cases hredis : op.isRedis with
  | false =>
      rw [(exec_quiet hredis hi.store h).phases] at hacq
      exact hacq
  | true =>
      cases op with
      | redisSetNx k token => exact absurd rfl (hop k token)
      | redisRelease k token =>
          have hheld : w.lock t = .held k token := ha
          rw [release_lock h] at hacq
          refine acquired_update (fun key' hk => ?_) u key hacq
          obtain rfl : k = key' := of_decide_eq_true hk
          rw [hheld]
          exact LockPhase.acquired_held _ _
      | _ => cases hredis

/-- **A step keeps the keys exclusive exactly when it takes none that another
open request has released.** -/
theorem exclusive_step {P : Pool ProcessPaymentRequest Op Ans Exn Reply (World τ) τ}
    {a : Action τ ProcessPaymentRequest Choice} (hP : (paymentContract uuid5).Holds P)
    (hx : Exclusive P) :
    Exclusive ((Pool.machine (paymentShop uuid5)).next P a) ↔ ¬ AcquiresReleased P a := by
  rcases (Pool.machine (paymentShop uuid5)).next_cases P a with ⟨P', hact, hnext⟩ | ⟨hact, hnext⟩
  · rw [hnext]
    have hP' := (paymentContract uuid5).act_holds hP hact
    -- where nobody gets a key, and the action is no such SET NX
    have hquiet : (∀ u key, (P'.shared.lock u).acquired key = true →
        (P.shared.lock u).acquired key = true) → ¬ AcquiresReleased P a →
        (Exclusive P' ↔ ¬ AcquiresReleased P a) := fun hsub hno =>
      ⟨fun _ => hno, fun _ => changes_of_acquired hP' (acquired_mono hx.acquired hsub)⟩
    rcases Pool.act_cases hact with ⟨t, call, rfl, -, rfl⟩ |
      ⟨t, c, request, op, k, r, w', rfl, ht, he, rfl⟩ | ⟨t, c, call, r, w', rfl, -, -, hc, rfl⟩ |
      ⟨t, th, rfl, -, rfl⟩
    · -- a call begins
      refine hquiet (acquired_update fun _ hk => nomatch hk) ?_
      rintro ⟨_, _, _, _, _, _, _, ha, -⟩
      cases ha
    · -- one operation, which is a SET NX or not
      by_cases hop : ∃ key token, op = .redisSetNx key token
      · obtain ⟨key, token, rfl⟩ := hop
        rcases setNx_lock he with ⟨hlock, hno⟩ | ⟨hfault, hfree, hlock⟩
        · refine hquiet (fun u key' hk => ?_) ?_
          · rw [← hlock]
            exact hk
          · rintro ⟨t', c', _, key', _, _, _, ha, ht', hf, hr, -⟩
            obtain ⟨rfl, rfl⟩ := Action.step.inj ha
            rw [ht] at ht'
            cases ht'
            exact hno ⟨hf, hr⟩
        · constructor
          · -- two requests would have the key
            rintro hx' ⟨t', c', _, key', _, _, u, ha, ht', -, -, hne, hrel⟩
            obtain ⟨rfl, rfl⟩ := Action.step.inj ha
            rw [ht] at ht'
            cases ht'
            refine hne (hx'.acquired u t key ?_ ?_)
            · show (w'.lock u).acquired key = true
              rw [hlock, Function.update_of_ne hne, hrel]
              exact LockPhase.acquired_released _
            · show (w'.lock t).acquired key = true
              rw [hlock, Function.update_self]
              exact LockPhase.acquired_held _ _
          · intro hno
            -- nobody else has the key
            have hfreeOf : ∀ u, u ≠ t → (P.shared.lock u).acquired key = false := by
              intro u hu
              rw [Bool.eq_false_iff]
              intro hacq
              have hrel := released_of_free hP.inv.1 hfree hacq
              exact hno ⟨t, c, request, key, token, k, u, rfl, ht, hfault, hfree, hu, hrel⟩
            refine changes_of_acquired hP' fun u v key' hu hv => ?_
            exact acquired_taken hx.acquired hfreeOf u v key' (hlock ▸ hu) (hlock ▸ hv)
      · have hne : ∀ key token, op ≠ .redisSetNx key token :=
          fun key token hc => hop ⟨key, token, hc⟩
        have hallowed : allowed op (P.shared.local t) := (hP.thread t _ ht).2.1
        refine hquiet (fun u key hk => exec_acquired hP.inv.1 hallowed hne he u key hk) ?_
        rintro ⟨t', c', _, key, token, _, _, ha, ht', -⟩
        obtain ⟨rfl, rfl⟩ := Action.step.inj ha
        rw [ht] at ht'
        cases ht'
        exact hne key token rfl
    · obtain ⟨store, -, rfl⟩ := commit_eq_some hc
      refine hquiet (acquired_update fun _ hk => nomatch hk) ?_
      rintro ⟨_, _, _, _, _, _, _, ha, -⟩
      cases ha
    · refine hquiet (acquired_update fun _ hk => nomatch hk) ?_
      rintro ⟨_, _, _, _, _, _, _, ha, -⟩
      cases ha
  · rw [hnext]
    refine ⟨fun _ => ?_, fun _ => hx⟩
    rintro ⟨t, c, request, key, token, k, _, rfl, ht, -⟩
    have hstep : Pool.act (paymentShop uuid5) P (.step t c) = none := hact
    simp only [Pool.act, ht] at hstep
    exact setNx_ne_none c t key token P.shared (Option.map_eq_none_iff.mp hstep)

/-! ## §4. Every run. -/

/-- **A run keeps every key to one open request exactly when no request takes a
key that another open request has released.** -/
theorem exclusive_iff (hT : ∀ r ∈ T.rows, r.violation = .ok ())
    (as : List (Action τ ProcessPaymentRequest Choice)) :
    (∀ P ∈ (Pool.machine (paymentShop uuid5)).trace (Pool.init (World.init T)) as, Exclusive P)
      ↔ (Pool.machine (paymentShop uuid5)).Along (fun P a => ¬ AcquiresReleased P a)
          (Pool.init (World.init T)) as := by
  have hinit : (paymentContract uuid5 (τ := τ)).Holds (Pool.init (World.init T)) :=
    (paymentContract uuid5).holds_init ⟨inv_init hT, trivial⟩
  refine (Pool.machine (paymentShop uuid5)).trace_forall_iff_along
    (I := fun P => (paymentContract uuid5).Holds P) (G := Exclusive)
    (fun P a P' hP hact => (paymentContract uuid5).act_holds hP hact)
    (fun P a hP hx => exclusive_step hP hx) as _ hinit ?_
  exact ⟨fun _ _ _ ht => (nomatch ht), fun _ _ _ _ ht => (nomatch ht)⟩

/-- Session 0 has returned and not committed; session 1 asks with the same key. -/
def earlyReleaseRun : List (Action Nat ProcessPaymentRequest Choice) :=
  runRequest 0 (askFor "k" .authorized) 10 11
  ++ [.start 1 (askFor "k" .captured), .step 1 { uuid := Uuid.ofNat 12 }, .step 1 {}]

/-- Both have acquired the lock on the key, and neither has ended. -/
theorem exclusive_fails_earlyRelease :
    ¬ ∀ P ∈ (Pool.machine (paymentShop (fun c => c))).trace (Pool.init (World.init dueTable))
        earlyReleaseRun, Exclusive P := by
  intro h
  have hend := h _ (Machine.run_mem_trace _ _ earlyReleaseRun)
  have hboth : ∀ t : Fin 2, (((Pool.machine (paymentShop (fun c => c))).run
      (Pool.init (World.init dueTable)) earlyReleaseRun).shared.lock t.val).acquired "idemp:k"
        = true := by
    decide +kernel
  exact absurd (hend.acquired 0 1 "idemp:k" (hboth 0) (hboth 1)) (by decide)

theorem exclusive_iff_earlyRelease :
    (∀ P ∈ (Pool.machine (paymentShop (fun c => c))).trace (Pool.init (World.init dueTable))
        earlyReleaseRun, Exclusive P)
      ↔ (Pool.machine (paymentShop (fun c => c))).Along (fun P a => ¬ AcquiresReleased P a)
          (Pool.init (World.init dueTable)) earlyReleaseRun :=
  exclusive_iff dueTable_accepted earlyReleaseRun

/-- The first commits its change; the second returns with another one, ready to
be committed as well. -/
example : ((paymentRun (fun c => c) dueTable (earlyReleaseRun ++ [.commit 0 {}, .step 1 {},
      .step 1 {}, .step 1 {}, .step 1 { uuid := Uuid.ofNat 13 }, .step 1 {}, .step 1 {}])).thread
        1).map (fun th => (th.call.new_status, th.prog.ended)) = some (.captured, true) := by
  decide +kernel

end Nimbus
