/-
  Nimbus.Core.DatabaseLaws
  ────────────────────────
  **WHAT ONE OPERATION CAN CHANGE.**

  Every operation of a session touches the store only by locking rows and by
  writing rows that the database accepts (`Acts`).  From this one fact follow
  all the others: committed rows change in commits only, no operation touches
  the part of another session, and the invariant `Inv` is kept.

    • `Inv`              — the store is well formed and holds only rows the
                           database accepts, a held lock is in Redis under the
                           holder's own token, no UUID occurs twice;
    • `exec_quiet`, `exec_own` — what an operation leaves alone;
    • `exec_inv`, `commit_inv`, `rollback_inv`;
    • `exec_local_of_ne`, `commit_local_of_ne`, `rollback_local_of_ne`.
-/
import Nimbus.Core.Database

namespace Nimbus

open Lib

variable {τ : Type} [DecidableEq τ]

/-! ## §1. Locking and writing. -/

/-- `u` has locked some rows and written some rows the database accepts. -/
inductive Acts (u : τ) : TxStore Row τ → TxStore Row τ → Prop where
  | refl (s) : Acts u s s
  | lock {s s' k} : s.lock u k = some s' → Acts u s s'
  | put {s s' row} : row.violation = .ok () → s.put u row = some s' → Acts u s s'
  | trans {s s' s''} : Acts u s s' → Acts u s' s'' → Acts u s s''

/-- The store is well formed and holds only rows the database accepts. -/
structure StoreInv (s : TxStore Row τ) : Prop where
  wf : s.WF
  rows : ∀ r ∈ s.base.rows, r.violation = .ok ()
  writes : ∀ t, ∀ r ∈ s.writes t, r.violation = .ok ()

namespace Acts

theorem base {u : τ} {s s' : TxStore Row τ} (h : Acts u s s') : s'.base = s.base := by
  induction h with
  | refl s => rfl
  | lock h => obtain ⟨-, rfl⟩ := TxStore.lock_eq_some h; rfl
  | put _ h => obtain ⟨-, rfl⟩ := TxStore.put_eq_some h; rfl
  | trans _ _ ih ih' => exact ih'.trans ih

theorem part_of_ne {t u : τ} (htu : t ≠ u) {s s' : TxStore Row τ} (h : Acts u s s') :
    s'.part t = s.part t := by
  induction h with
  | refl s => rfl
  | lock h => exact TxStore.part_lock_of_ne htu h
  | put _ h => exact TxStore.part_put_of_ne htu h
  | trans _ _ ih ih' => exact ih'.trans ih

theorem inv {u : τ} {s s' : TxStore Row τ} (h : Acts u s s') : StoreInv s → StoreInv s' := by
  induction h with
  | refl s => exact id
  | lock h =>
      intro hs
      have hwf := TxStore.lock_wf hs.wf h
      obtain ⟨-, rfl⟩ := TxStore.lock_eq_some h
      exact ⟨hwf, hs.rows, hs.writes⟩
  | put hrow h =>
      intro hs
      have hwf := TxStore.put_wf hs.wf h
      obtain ⟨-, rfl⟩ := TxStore.put_eq_some h
      refine ⟨hwf, hs.rows, fun t r hr => ?_⟩
      by_cases ht : t = u
      · subst ht
        simp only [Function.update_self, List.mem_cons] at hr
        rcases hr with rfl | hr
        · exact hrow
        · exact hs.writes t r hr
      · simp only [Function.update_of_ne ht] at hr
        exact hs.writes t r hr
  | trans _ _ ih ih' => exact fun hs => ih' (ih hs)

end Acts

/-! ## §2. Visible rows are accepted rows. -/

theorem StoreInv.view {τ : Type} {s : TxStore Row τ} (hs : StoreInv s) {t : τ} {k : RowKey}
    {r : Row} (h : s.view t k = some r) : r.violation = .ok () ∧ key r = k := by
  refine ⟨?_, TxStore.key_of_view h⟩
  rcases Option.or_eq_some_iff.mp h with hw | ⟨-, hb⟩
  · exact hs.writes t r (List.mem_of_find?_eq_some hw)
  · exact hs.rows r (Table.mem_of_lookup hb)

/-! ## §3. Statements lock and write. -/

theorem flushOne_order {now : Int} {s s' : TxStore Row τ} {t : τ} {id : Uuid} {status : OrderStatus}
    (h : World.flushOne now s t (.orderStatus id status) = some (.ok s')) :
    ∃ o, s.view t (.order id) = some (.order o)
      ∧ s.put t (.order { o with status := status }) = some s' := by
  simp only [World.flushOne] at h
  split at h
  next o hv =>
    obtain ⟨s₁, h₁, hok⟩ := Option.map_eq_some_iff.mp h
    obtain rfl := Except.ok.inj hok
    exact ⟨o, hv, h₁⟩
  next => cases h

theorem flushOne_payment {now : Int} {s s' : TxStore Row τ} {t : τ} {id : Uuid} {status : PaymentStatus}
    (h : World.flushOne now s t (.paymentStatus id status) = some (.ok s')) :
    ∃ p, s.view t (.payment id) = some (.payment p)
      ∧ s.put t (.payment { p with status := status }) = some s' := by
  simp only [World.flushOne] at h
  split at h
  next p hv =>
    obtain ⟨s₁, h₁, hok⟩ := Option.map_eq_some_iff.mp h
    obtain rfl := Except.ok.inj hok
    exact ⟨p, hv, h₁⟩
  next => cases h

/-- An insert writes a row the database accepts, under a key that is not taken;
an outbox row also under a `dedupe_id` that is not taken. -/
theorem flushOne_insert {now : Int} {s s' : TxStore Row τ} {t : τ} {row : Row}
    (h : World.flushOne now s t (.insert row) = some (.ok s')) :
    ∃ s₁, (World.stamp now row).violation = .ok ()
      ∧ s.view t (key (World.stamp now row)) = none
      ∧ World.reserveDedupe s t (World.stamp now row) = some (.ok s₁)
      ∧ s₁.put t (World.stamp now row) = some s' := by
  simp only [World.flushOne, World.insertRow] at h
  split at h
  next => cases h
  next hrow =>
    split at h
    next => cases h
    next hv =>
      split at h
      next => cases h
      next => cases h
      next s₁ hd =>
        obtain ⟨s₂, h₂, hok⟩ := Option.map_eq_some_iff.mp h
        obtain rfl := Except.ok.inj hok
        exact ⟨s₁, hrow, hv, hd, h₂⟩

/-- The unique index only takes a lock, on a value that is not taken. -/
theorem reserveDedupe_ok {s s' : TxStore Row τ} {t : τ} {row : Row}
    (h : World.reserveDedupe s t row = some (.ok s')) :
    s' = s ∨ ∃ e, row = .outbox e ∧ World.dedupeTaken s t e.dedupe_id = false
      ∧ s.lock t (.dedupe e.dedupe_id) = some s' := by
  unfold World.reserveDedupe at h
  split at h
  next e =>
    obtain ⟨s₁, h₁, hok⟩ := Option.map_eq_some_iff.mp h
    split at hok
    next => cases hok
    next hfree =>
      obtain rfl := Except.ok.inj hok
      exact Or.inr ⟨e, rfl, Bool.eq_false_iff.mpr hfree, h₁⟩
  next =>
    obtain rfl := Except.ok.inj (Option.some.inj h)
    exact Or.inl rfl

/-- No visible outbox row has a `dedupe_id` that the unique index takes. -/
theorem reserveDedupe_fresh {s s' : TxStore Row τ} {t : τ} {e : OutboxEvent}
    (h : World.reserveDedupe s t (.outbox e) = some (.ok s')) :
    ∀ e', Row.outbox e' ∈ (s.base.upsertAll (s.part t).writes).rows →
      e'.dedupe_id ≠ e.dedupe_id := by
  have hfree : World.dedupeTaken s t e.dedupe_id = false := by
    obtain ⟨s₁, -, hok⟩ := Option.map_eq_some_iff.mp h
    split at hok
    next => cases hok
    next hfree => exact Bool.eq_false_iff.mpr hfree
  intro e' he' hid
  have hno := List.any_eq_false.mp hfree (.outbox e') he'
  exact hno (decide_eq_true hid)

theorem flushOne_acts {now : Int} {s s' : TxStore Row τ} {t : τ} {p : Pending} (hs : StoreInv s)
    (h : World.flushOne now s t p = some (.ok s')) : Acts t s s' := by
  cases p with
  | orderStatus id status =>
      obtain ⟨o, hv, hput⟩ := flushOne_order h
      exact Acts.put ((violation_order_status o status).trans (hs.view hv).1) hput
  | paymentStatus id status =>
      obtain ⟨p, hv, hput⟩ := flushOne_payment h
      exact Acts.put ((violation_payment_status p status).trans (hs.view hv).1) hput
  | insert row =>
      obtain ⟨s₁, hrow, -, hd, hput⟩ := flushOne_insert h
      -- the index, and then the row
      rcases reserveDedupe_ok hd with rfl | ⟨e, -, -, hl⟩
      · exact Acts.put hrow hput
      · exact Acts.trans (Acts.lock hl) (Acts.put hrow hput)

theorem flushAll_acts {now : Int} {t : τ} {ps : List Pending} : ∀ {s s' : TxStore Row τ},
    StoreInv s → World.flushAll now s t ps = some (.ok s') → Acts t s s' := by
  induction ps with
  | nil =>
      intro s s' _ h
      obtain rfl := Except.ok.inj (Option.some.inj h)
      exact Acts.refl _
  | cons p ps ih =>
      intro s s' hs h
      simp only [World.flushAll] at h
      split at h
      next => cases h
      next => cases h
      next s₁ h₁ =>
        have ha := flushOne_acts hs h₁
        exact Acts.trans ha (ih (ha.inv hs) h)

/-- Everything a SELECT can do. -/
theorem select_cases {w w' : World τ} {t : τ} {k : RowKey} {fu : Bool} {r : Option Row}
    (h : w.select t k fu = some (r, w')) :
    (w.store.view t k = none ∧ r = none ∧ w' = w)
    ∨ ∃ row store, w.store.view t k = some row
        ∧ r = some (((w.session t).objs k).getD row)
        ∧ (if fu then w.store.lock t k = some store else store = w.store)
        ∧ w' = { w.setSession t { w.session t with
            objs := Function.update (w.session t).objs k r } with store := store } := by
  unfold World.select at h
  split at h
  next hv =>
    obtain ⟨rfl, rfl⟩ := Prod.mk.inj (Option.some.inj h)
    exact Or.inl ⟨hv, rfl, rfl⟩
  next row hv =>
    refine Or.inr ⟨row, ?_⟩
    cases fu with
    | true =>
        obtain ⟨store, hl, hp⟩ := Option.map_eq_some_iff.mp h
        obtain ⟨rfl, rfl⟩ := Prod.mk.inj hp
        exact ⟨store, hv, rfl, hl, rfl⟩
    | false =>
        obtain ⟨rfl, rfl⟩ := Prod.mk.inj (Option.some.inj h)
        exact ⟨w.store, hv, rfl, rfl, rfl⟩

/-- Everything an UPDATE of a stock row can do. -/
theorem updateStock_cases {w w' : World τ} {t : τ} {u : StockUpdate} {r : Except Exn Nat}
    (h : w.updateStock t u = some (r, w')) :
    (r = .ok 0 ∧ (∀ s, w.store.view t (.stock u.id) = some (.stock s) → u.cond s = false)
        ∧ w' = w.synced t u)
    ∨ (∃ e, r = .error e ∧ w' = w)
    ∨ ∃ s store, w.store.view t (.stock u.id) = some (.stock s) ∧ u.cond s = true
        ∧ (Row.stock (u.set s)).violation = .ok () ∧ w.store.put t (.stock (u.set s)) = some store
        ∧ r = .ok 1 ∧ w' = { w.synced t u with store := store } := by
  unfold World.updateStock at h
  split at h
  next s hv =>
    split at h
    next hc =>
      obtain ⟨store, hp, hr⟩ := Option.map_eq_some_iff.mp h
      split at hr
      -- one row, which the constraints accept
      next hok =>
        obtain ⟨rfl, rfl⟩ := Prod.mk.inj hr
        exact Or.inr (Or.inr ⟨s, store, hv, hc, hok, hp, rfl, rfl⟩)
      next e he =>
        obtain ⟨rfl, rfl⟩ := Prod.mk.inj hr
        exact Or.inr (Or.inl ⟨e, rfl, rfl⟩)
    next hc =>
      obtain ⟨rfl, rfl⟩ := Prod.mk.inj (Option.some.inj h)
      refine Or.inl ⟨rfl, fun s' hs' => ?_, rfl⟩
      -- the row is there, and the WHERE clause does not hold of it
      obtain rfl := Row.stock.inj (Option.some.inj (hv.symm.trans hs'))
      exact Bool.eq_false_iff.mpr hc
  next hno =>
    obtain ⟨rfl, rfl⟩ := Prod.mk.inj (Option.some.inj h)
    exact Or.inl ⟨rfl, fun s hs => absurd hs (hno s), rfl⟩

/-- Everything a flush can do. -/
theorem flush_cases {w w' : World τ} {now : Int} {t : τ} {r : Except Exn Unit}
    (h : w.flush now t = some (r, w')) :
    (∃ e, World.flushAll now w.store t (w.session t).pending = some (.error e)
        ∧ r = .error e ∧ w' = w)
    ∨ ∃ store, World.flushAll now w.store t (w.session t).pending = some (.ok store)
        ∧ r = .ok ()
        ∧ w' = { w.setSession t { w.session t with pending := [] } with store := store } := by
  unfold World.flush at h
  split at h
  next => cases h
  next e he =>
    obtain ⟨rfl, rfl⟩ := Prod.mk.inj (Option.some.inj h)
    exact Or.inl ⟨e, he, rfl, rfl⟩
  next store hf =>
    obtain ⟨rfl, rfl⟩ := Prod.mk.inj (Option.some.inj h)
    exact Or.inr ⟨store, hf, rfl, rfl⟩

/-! ## §4. What an operation leaves alone. -/

/-- A step of session `u`: it acts on the store, and the sessions, locks and
UUIDs of the others stay. -/
structure Own (u : τ) (w w' : World τ) : Prop where
  store : Acts u w.store w'.store
  session : ∀ t, t ≠ u → w'.session t = w.session t
  lock : ∀ t, t ≠ u → w'.lock t = w.lock t
  used : w'.used = w.used ∨ ∃ x, x ∉ w.used.map Prod.snd ∧ w'.used = (u, x) :: w.used

/-- A step that leaves Redis and the lock phases alone as well. -/
structure Quiet (u : τ) (w w' : World τ) : Prop extends Own u w w' where
  redis : w'.redis = w.redis
  phases : w'.lock = w.lock

theorem Own.refl (u : τ) (w : World τ) : Own u w w :=
  ⟨Acts.refl _, fun _ _ => rfl, fun _ _ => rfl, Or.inl rfl⟩

theorem Quiet.refl (u : τ) (w : World τ) : Quiet u w w := ⟨Own.refl u w, rfl, rfl⟩

/-- A step that changes the session, and acts on the store. -/
theorem Quiet.of_session {u : τ} {w : World τ} {s : Session} {store : TxStore Row τ}
    (h : Acts u w.store store) : Quiet u w { w.setSession u s with store := store } :=
  ⟨⟨h, fun _ ht => World.setSession_of_ne _ _ ht, fun _ _ => rfl, Or.inl rfl⟩, rfl, rfl⟩

theorem setNx_own (u : τ) (w : World τ) (key token : String) :
    Own u w (w.setNx key token).2 := by
  unfold World.setNx
  split
  · exact ⟨Acts.refl _, fun _ _ => rfl, fun _ _ => rfl, Or.inl rfl⟩
  · exact Own.refl u _

theorem releaseKey_own (u : τ) (w : World τ) (key token : String) :
    Own u w (w.releaseKey key token).2 := by
  unfold World.releaseKey
  split
  · exact ⟨Acts.refl _, fun _ _ => rfl, fun _ _ => rfl, Or.inl rfl⟩
  · exact Own.refl u _

theorem Own.setLock {u : τ} {w w' : World τ} (h : Own u w w') (p : LockPhase) :
    Own u w (w'.setLock u p) :=
  ⟨h.store, h.session,
    fun t ht => (World.setLock_of_ne _ _ ht).trans (h.lock t ht), h.used⟩

/-- A command of Redis. -/
def Op.isRedis : Op → Bool
  | .redisSetNx .. | .redisRelease .. => true
  | _ => false

/-- **A statement of `u` is a quiet step of `u`.** -/
theorem exec_quiet {c : Choice} {u : τ} {op : Op} {w w' : World τ} {r : Except Exn (Ans op)}
    (hop : op.isRedis = false) (hs : StoreInv w.store) (h : exec c u op w = some (r, w')) :
    Quiet u w w' := by
  have fault : ∀ {f : Fault}, some ((.error f.exn : Except Exn (Ans op)), w) = some (r, w') →
      Quiet u w w' := by
    intro f hf
    obtain ⟨-, rfl⟩ := Prod.mk.inj (Option.some.inj hf)
    exact Quiet.refl u _
  cases op with
  | select k fu =>
      simp only [exec] at h
      split at h
      next f _ => exact fault h
      next =>
        obtain ⟨⟨r₁, w₁⟩, h₁, hr⟩ := Option.map_eq_some_iff.mp h
        obtain ⟨-, rfl⟩ := Prod.mk.inj hr
        rcases select_cases h₁ with ⟨-, -, rfl⟩ | ⟨row, store, -, -, hl, rfl⟩
        · exact Quiet.refl u _
        · -- FOR UPDATE takes a lock
          cases fu with
          | true => exact Quiet.of_session (Acts.lock hl)
          | false =>
              obtain rfl : store = w.store := hl
              exact Quiet.of_session (Acts.refl _)
  | loaded k =>
      -- attributes are set in the session only
      obtain ⟨-, rfl⟩ := Prod.mk.inj (Option.some.inj h)
      exact Quiet.refl u _
  | updateStock su =>
      simp only [exec] at h
      split at h
      next f _ => exact fault h
      next =>
        rcases updateStock_cases h with ⟨-, -, rfl⟩ | ⟨e, -, rfl⟩ | ⟨s, store, -, -, hv, hp, -, rfl⟩
        · exact Quiet.of_session (Acts.refl _)
        · exact Quiet.refl u _
        · exact Quiet.of_session (Acts.put hv hp)
  | setOrderStatus id status =>
      obtain ⟨-, rfl⟩ := Prod.mk.inj (Option.some.inj h)
      exact Quiet.of_session (Acts.refl _)
  | setPaymentStatus id status =>
      obtain ⟨-, rfl⟩ := Prod.mk.inj (Option.some.inj h)
      exact Quiet.of_session (Acts.refl _)
  | add row =>
      obtain ⟨-, rfl⟩ := Prod.mk.inj (Option.some.inj h)
      exact Quiet.of_session (Acts.refl _)
  | flush =>
      simp only [exec] at h
      split at h
      next f _ => exact fault h
      next =>
        rcases flush_cases h with ⟨e, -, -, rfl⟩ | ⟨store, hf, -, rfl⟩
        · exact Quiet.refl u _
        · exact Quiet.of_session (flushAll_acts hs hf)
  | setSearchPath path =>
      simp only [exec] at h
      split at h
      next f _ => exact fault h
      next =>
        obtain ⟨-, rfl⟩ := Prod.mk.inj (Option.some.inj h)
        exact Quiet.refl u _
  | uuid4 =>
      simp only [exec] at h
      split at h
      next => cases h
      next hfresh =>
        obtain ⟨-, rfl⟩ := Prod.mk.inj (Option.some.inj h)
        -- only a fresh UUID is handed out
        exact ⟨⟨Acts.refl _, fun _ _ => rfl, fun _ _ => rfl, Or.inr ⟨c.uuid, hfresh, rfl⟩⟩,
          rfl, rfl⟩
  | nowIso =>
      obtain ⟨-, rfl⟩ := Prod.mk.inj (Option.some.inj h)
      exact Quiet.refl u _
  | redisSetNx key token => cases hop
  | redisRelease key token => cases hop

/-- **An operation of `u` is a step of `u`.** -/
theorem exec_own {c : Choice} {u : τ} {op : Op} {w w' : World τ} {r : Except Exn (Ans op)}
    (hs : StoreInv w.store) (h : exec c u op w = some (r, w')) : Own u w w' := by
  cases hop : op.isRedis with
  | false => exact (exec_quiet hop hs h).toOwn
  | true =>
      cases op with
      | redisSetNx key token =>
          have hown := setNx_own u w key token
          simp only [exec] at h
          split at h
          next f _ =>
            -- the answer is lost, and the command may have been executed
            obtain ⟨-, rfl⟩ := Prod.mk.inj (Option.some.inj h)
            split
            · exact hown
            · exact Own.refl u _
          next =>
            split at h
            next w₁ hset =>
              -- the key was free
              rw [hset] at hown
              obtain ⟨-, rfl⟩ := Prod.mk.inj (Option.some.inj h)
              exact hown.setLock _
            next w₁ hset =>
              rw [hset] at hown
              obtain ⟨-, rfl⟩ := Prod.mk.inj (Option.some.inj h)
              exact hown
      | redisRelease key token =>
          have hown := releaseKey_own u w key token
          simp only [exec] at h
          split at h
          next f _ =>
            obtain ⟨-, rfl⟩ := Prod.mk.inj (Option.some.inj h)
            split
            · exact hown.setLock _
            · exact (Own.refl u _).setLock _
          next =>
            obtain ⟨-, rfl⟩ := Prod.mk.inj (Option.some.inj h)
            exact hown.setLock _
      | _ => cases hop

/-- Committed rows change in commits only. -/
theorem exec_base {c : Choice} {u : τ} {op : Op} {w w' : World τ} {r : Except Exn (Ans op)}
    (hs : StoreInv w.store) (h : exec c u op w = some (r, w')) : w'.base = w.base :=
  (exec_own hs h).store.base

/-! ## §5. The invariant. -/

/-- Every held lock is in Redis, under a token its holder generated. -/
def Held (w : World τ) : Prop :=
  ∀ t key token, w.lock t = .held key token →
    w.redis key = some token ∧ ∃ u ∈ (w.local t).mine, token = u.hex

/-- **The invariant of the shared state.** -/
structure Inv (w : World τ) : Prop where
  store : StoreInv w.store
  held : Held w
  used : (w.used.map Prod.snd).Nodup

/-- What an operation asks of the session's own part: a lock token is one the
session generated, and a lock is released by its holder. -/
def allowed : Op → Local → Prop
  | .redisSetNx _ token, l => ∃ u ∈ l.mine, token = u.hex
  | .redisRelease key token, l => l.lock = .held key token
  | _, _ => True

theorem mem_mine {w : World τ} {t : τ} {x : Uuid} : x ∈ (w.local t).mine ↔ (t, x) ∈ w.used := by
  simp [World.local, List.mem_map, List.mem_filter]

/-- A UUID has one owner. -/
theorem Inv.mine_unique {w : World τ} (hi : Inv w) {t u : τ} {x : Uuid}
    (ht : x ∈ (w.local t).mine) (hu : x ∈ (w.local u).mine) : t = u := by
  have hp := List.inj_on_of_nodup_map hi.used (mem_mine.mp ht) (mem_mine.mp hu) rfl
  exact congrArg Prod.fst hp

theorem inv_init {T : Table Row} (h : ∀ r ∈ T.rows, r.violation = .ok ()) :
    Inv (World.init T : World τ) where
  store := ⟨TxStore.ofTable_wf T, h, fun _ _ hr => nomatch hr⟩
  held := fun _ _ _ hh => nomatch hh
  used := List.nodup_nil

/-- The part of another session stays. -/
theorem Own.local_of_ne {t u : τ} {w w' : World τ} (htu : t ≠ u) (h : Own u w w') :
    w'.local t = w.local t := by
  have hpart := h.store.part_of_ne htu
  have hmine : (w'.local t).mine = (w.local t).mine := by
    rcases h.used with he | ⟨x, -, he⟩
    · simp [World.local, he]
    · simp [World.local, he, Ne.symm htu]
  show (⟨w'.store.part t, w'.session t, w'.lock t, (w'.local t).mine⟩ : Local) = _
  rw [hpart, h.session t htu, h.lock t htu, hmine]
  rfl

theorem exec_local_of_ne {c : Choice} {t u : τ} {op : Op} {w w' : World τ}
    {r : Except Exn (Ans op)} (htu : t ≠ u) (hi : Inv w) (h : exec c u op w = some (r, w')) :
    w'.local t = w.local t :=
  (exec_own hi.store h).local_of_ne htu

theorem Own.mine_mono {t u : τ} {w w' : World τ} (h : Own u w w') {x : Uuid}
    (hx : x ∈ (w.local t).mine) : x ∈ (w'.local t).mine := by
  rw [mem_mine] at hx ⊢
  rcases h.used with he | ⟨y, -, he⟩
  · rw [he]; exact hx
  · rw [he]; exact List.mem_cons_of_mem _ hx

theorem Own.used_nodup {u : τ} {w w' : World τ} (h : Own u w w')
    (hn : (w.used.map Prod.snd).Nodup) : (w'.used.map Prod.snd).Nodup := by
  rcases h.used with he | ⟨y, hy, he⟩
  · rw [he]; exact hn
  · rw [he, List.map_cons]; exact List.nodup_cons.mpr ⟨hy, hn⟩

theorem setNx_held {w : World τ} (hh : Held w) (key token : String) :
    Held (w.setNx key token).2 := by
  intro t k tok hl
  unfold World.setNx at hl ⊢
  split
  next hnone =>
    rw [hnone] at hl
    obtain ⟨hr, hm⟩ := hh t k tok hl
    have hk : k ≠ key := by
      rintro rfl
      rw [hnone] at hr
      cases hr
    exact ⟨(Function.update_of_ne hk _ _).trans hr, hm⟩
  next hsome =>
    rw [hsome] at hl
    exact hh t k tok hl

/-- The release script deletes no lock that another session holds. -/
theorem releaseKey_held {w : World τ} (hi : Inv w) {t : τ} {key token : String}
    (hmine : ∃ u ∈ (w.local t).mine, token = u.hex) :
    Held ((w.releaseKey key token).2.setLock t (.released key)) := by
  intro t' k tok hl
  have ht : t' ≠ t := by
    rintro rfl
    rw [World.setLock_self] at hl
    cases hl
  -- the other session holds what it held before
  have hl' : w.lock t' = .held k tok := by
    have hsame := (releaseKey_own t w key token).lock t' ht
    rw [← hsame]
    exact (World.setLock_of_ne _ _ ht).symm.trans hl
  obtain ⟨hr, hm⟩ := hi.held t' k tok hl'
  have hused : (w.releaseKey key token).2.used = w.used := by
    unfold World.releaseKey
    split <;> rfl
  refine ⟨?_, ?_⟩
  · show (w.releaseKey key token).2.redis k = some tok
    unfold World.releaseKey
    split
    next hkey =>
      have hk : k ≠ key := by
        rintro rfl
        obtain ⟨x, hx, rfl⟩ := hmine
        obtain ⟨y, hy, rfl⟩ := hm
        -- two tokens of one text are one UUID, which one session generated
        have hxy := Uuid.hex_injective (Option.some.inj (hkey.symm.trans hr))
        exact ht (hi.mine_unique hy (hxy ▸ hx))
      exact (Function.update_of_ne hk _ _).trans hr
    next => exact hr
  · obtain ⟨y, hy, he⟩ := hm
    refine ⟨y, ?_, he⟩
    rw [mem_mine] at hy ⊢
    rw [← hused] at hy
    exact hy

/-- A step that leaves Redis and the lock phases alone keeps held locks. -/
theorem Quiet.held {u : τ} {w w' : World τ} (h : Quiet u w w') (hh : Held w) : Held w' := by
  intro t k tok hl
  rw [h.phases] at hl
  obtain ⟨hr, x, hx, he⟩ := hh t k tok hl
  exact ⟨h.redis ▸ hr, x, h.mine_mono hx, he⟩

theorem setNx_exec_held {c : Choice} {t : τ} {key token : String} {w w' : World τ}
    {r : Except Exn Bool} (hh : Held w) (hmine : ∃ u ∈ (w.local t).mine, token = u.hex)
    (h : exec c t (.redisSetNx key token) w = some (r, w')) : Held w' := by
  have hset := setNx_held hh key token
  simp only [exec] at h
  split at h
  next f _ =>
    obtain ⟨-, rfl⟩ := Prod.mk.inj (Option.some.inj h)
    split
    · -- whether or not the command was executed, nobody has come to hold a lock
      exact hset
    · exact hh
  next =>
    split at h
    next w₁ hw =>
      obtain ⟨-, rfl⟩ := Prod.mk.inj (Option.some.inj h)
      rw [hw] at hset
      intro t' k tok hl
      by_cases ht : t' = t
      · subst ht
        rw [World.setLock_self] at hl
        -- the key holds the token that has just been written
        obtain ⟨rfl, rfl⟩ := LockPhase.held.inj hl
        unfold World.setNx at hw
        split at hw
        next =>
          obtain ⟨-, rfl⟩ := Prod.mk.inj hw
          exact ⟨Function.update_self .., hmine⟩
        next => cases hw
      · exact hset t' k tok ((World.setLock_of_ne _ _ ht).symm.trans hl)
    next w₁ hw =>
      obtain ⟨-, rfl⟩ := Prod.mk.inj (Option.some.inj h)
      rw [hw] at hset
      exact hset

theorem release_exec_held {c : Choice} {t : τ} {key token : String} {w w' : World τ}
    {r : Except Exn Nat} (hi : Inv w) (hlock : w.lock t = .held key token)
    (h : exec c t (.redisRelease key token) w = some (r, w')) : Held w' := by
  have hmine := (hi.held t key token hlock).2
  simp only [exec] at h
  split at h
  next f _ =>
    obtain ⟨-, rfl⟩ := Prod.mk.inj (Option.some.inj h)
    split
    · exact releaseKey_held hi hmine
    · -- the script did not run: nothing but the phase of `t` changes
      intro t' k tok hl
      by_cases ht : t' = t
      · subst ht
        rw [World.setLock_self] at hl
        cases hl
      · exact hi.held t' k tok ((World.setLock_of_ne _ _ ht).symm.trans hl)
  next =>
    obtain ⟨-, rfl⟩ := Prod.mk.inj (Option.some.inj h)
    exact releaseKey_held hi hmine

theorem exec_held {c : Choice} {t : τ} {op : Op} {w w' : World τ} {r : Except Exn (Ans op)}
    (hi : Inv w) (ha : allowed op (w.local t)) (h : exec c t op w = some (r, w')) : Held w' := by
  cases hop : op.isRedis with
  | false => exact (exec_quiet hop hi.store h).held hi.held
  | true =>
      cases op with
      | redisSetNx key token => exact setNx_exec_held hi.held ha h
      | redisRelease key token => exact release_exec_held hi ha h
      | _ => cases hop

/-- **Every allowed operation keeps the invariant.** -/
theorem exec_inv {c : Choice} {t : τ} {op : Op} {w w' : World τ} {r : Except Exn (Ans op)}
    (hi : Inv w) (ha : allowed op (w.local t)) (h : exec c t op w = some (r, w')) : Inv w' where
  store := (exec_own hi.store h).store.inv hi.store
  held := exec_held hi ha h
  used := (exec_own hi.store h).used_nodup hi.used

/-! ## §6. The end of a transaction. -/

theorem commit_eq_some {c : Choice} {t : τ} {w w' : World τ} (h : w.commit c t = some w') :
    ∃ store, World.flushAll c.now w.store t (w.session t).pending = some (.ok store)
      ∧ w' = w.endSession t (store.commit t) := by
  unfold World.commit at h
  split at h
  next => cases h
  next =>
    split at h
    next store hf => exact ⟨store, hf, (Option.some.inj h).symm⟩
    next => cases h

/-- After a commit every row is one written by the session or an old one. -/
theorem mem_upsertAll {T : Table Row} {rs : List Row} {r : Row}
    (h : r ∈ (T.upsertAll rs).rows) : r ∈ rs ∨ r ∈ T.rows := by
  induction rs with
  | nil => exact Or.inr h
  | cons x rs ih =>
      rw [Table.upsertAll_cons, Table.mem_upsert] at h
      rcases h with rfl | ⟨h, -⟩
      · exact Or.inl List.mem_cons_self
      · exact (ih h).imp_left (List.mem_cons_of_mem _)

theorem StoreInv.rollback {s : TxStore Row τ} (hs : StoreInv s) (t : τ) :
    StoreInv (s.rollback t) := by
  refine ⟨TxStore.release_wf t hs.wf, hs.rows, fun u r hr => ?_⟩
  by_cases hu : u = t
  · subst hu
    simp [TxStore.rollback, TxStore.release] at hr
  · simp only [TxStore.rollback, TxStore.release, Function.update_of_ne hu] at hr
    exact hs.writes u r hr

theorem StoreInv.commit {s : TxStore Row τ} (hs : StoreInv s) (t : τ) : StoreInv (s.commit t) := by
  have hroll := hs.rollback t
  refine ⟨TxStore.commit_wf t hs.wf, fun r hr => ?_, hroll.writes⟩
  rcases mem_upsertAll hr with h | h
  · exact hs.writes t r h
  · exact hs.rows r h

theorem endSession_inv {w : World τ} {t : τ} {store : TxStore Row τ} (hi : Inv w)
    (hs : StoreInv store) : Inv (w.endSession t store) where
  store := hs
  held := by
    intro u k tok hl
    by_cases hu : u = t
    · subst hu
      have hidle : (w.endSession u store).lock u = .idle := World.setLock_self _ _ _
      rw [hidle] at hl
      cases hl
    · have hsame : (w.endSession t store).lock u = w.lock u := World.setLock_of_ne _ _ hu
      rw [hsame] at hl
      exact hi.held u k tok hl
  used := hi.used

theorem endSession_local_of_ne {w : World τ} {t u : τ} {store : TxStore Row τ} (htu : t ≠ u)
    (hp : store.part t = w.store.part t) : (w.endSession u store).local t = w.local t := by
  have hsession : (w.endSession u store).session t = w.session t :=
    World.setSession_of_ne _ _ htu
  have hlock : (w.endSession u store).lock t = w.lock t := World.setLock_of_ne _ _ htu
  show (⟨store.part t, (w.endSession u store).session t, (w.endSession u store).lock t,
    (w.local t).mine⟩ : Local) = _
  rw [hp, hsession, hlock]
  rfl

theorem rollback_inv {w : World τ} {t : τ} (hi : Inv w) : Inv (w.rollback t) :=
  endSession_inv hi (hi.store.rollback t)

theorem rollback_local_of_ne {w : World τ} {t u : τ} (htu : t ≠ u) :
    (w.rollback u).local t = w.local t :=
  endSession_local_of_ne htu (TxStore.part_rollback_of_ne htu)

theorem commit_inv {c : Choice} {t : τ} {w w' : World τ} (hi : Inv w)
    (h : w.commit c t = some w') : Inv w' := by
  obtain ⟨store, hf, rfl⟩ := commit_eq_some h
  exact endSession_inv hi (((flushAll_acts hi.store hf).inv hi.store).commit t)

theorem commit_local_of_ne {c : Choice} {t u : τ} {w w' : World τ} (htu : t ≠ u) (hi : Inv w)
    (h : w.commit c u = some w') : w'.local t = w.local t := by
  obtain ⟨store, hf, rfl⟩ := commit_eq_some h
  have ha := flushAll_acts hi.store hf
  refine endSession_local_of_ne htu ?_
  rw [TxStore.part_commit_of_ne htu (ha.inv hi.store).wf, ha.part_of_ne htu]

/-- A new session has written, locked and loaded nothing. -/
theorem enter_local (t : τ) (w : World τ) :
    (w.enter t).local t = ⟨TxPart.empty, Session.fresh, .idle, (w.local t).mine⟩ := by
  have hpart := TxStore.part_release w.store t
  have hsession : (w.enter t).session t = Session.fresh := World.setSession_self _ _ _
  have hlock : (w.enter t).lock t = .idle := World.setLock_self _ _ _
  show (⟨(w.store.release t).part t, (w.enter t).session t, (w.enter t).lock t,
    (w.local t).mine⟩ : Local) = _
  rw [hpart, hsession, hlock]

end Nimbus
