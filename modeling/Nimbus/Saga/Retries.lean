/-
  Nimbus.Saga.Retries
  ───────────────────
  **WHAT THE RETRIES OF `place_order` LOOK AT.**

  `place_order` tries the reservation three times, and each attempt reads the
  stock row first.  But the session has the row loaded since the first attempt:
  the SELECTs of a later one answer with the object as the lost UPDATE left it,
  one reservation further on, and not with the row.

    • `Attempt`, `Raced`   — an attempt, and that the row changed meanwhile;
    • `RetriesRetry`       — what a ConcurrentUpdateError or an OutOfStockError
                             says about the database;
    • `SameVerdict`        — the session's copy of the row says of the order what
                             the row says;
    • `runs_attempt`       — one turn of the loop;
    • `retries_retry`      — **where each attempt meets such a copy, the errors
                             keep the promise**, whatever the others do;
    • `shop_runs`          — such paths are what the calls of the shop take.
-/
import Nimbus.Core.Steps
import Nimbus.Saga.Placement

namespace Nimbus

open Lib Lib.Prog Orders Inventory

variable {τ : Type}

/-! ## §1. What the errors promise. -/

/-- An attempt that lost: the SELECT of `get_stock`, that of `reserve`, the UPDATE. -/
structure Attempt (τ : Type) where
  read : Move (World τ) Choice
  reread : Move (World τ) Choice
  update : Move (World τ) Choice

def Attempt.moves (a : Attempt τ) : Moves τ := [a.read, a.reread, a.update]

/-- The committed row changed between the attempt's read and its UPDATE. -/
def Attempt.Raced (a : Attempt τ) (id : Uuid) : Prop :=
  a.update.state.base.lookup (.stock id) ≠ a.read.state.base.lookup (.stock id)

/-- `place_order` has made all its attempts, and the row changed in each. -/
def RacedEachTime (id : Uuid) (ms : Moves τ) : Prop :=
  ∃ m₀, ∃ as : List (Attempt τ), ms = m₀ :: as.flatMap Attempt.moves ∧ as.length = maxReserveRetries
    ∧ ∀ a ∈ as, a.Raced id

/-- The last attempt ended with its second SELECT, and the row had too few
pieces at its first. -/
def ShortWhenRead (t : τ) (request : PlaceOrderRequest) (ms : Moves τ) : Prop :=
  ∃ before r r' s, ms = before ++ [r, r']
    ∧ r.state.store.view t (.stock request.stock_id) = some (.stock s)
    ∧ s.available < request.quantity

/-- **What the errors promise** of the path that raised them. -/
structure RetriesRetry (t : τ) (request : PlaceOrderRequest) (ms : Moves τ) (e : Exn) : Prop where
  concurrent : e.isA .concurrentUpdateError = true → RacedEachTime request.stock_id ms
  outOfStock : e.isA .outOfStockError = true → ShortWhenRead t request ms

/-- The copy of the row that the session has, if any, and the row give the
order the same verdict: too few pieces, or enough in the same version. -/
def SameVerdict (t : τ) (request : PlaceOrderRequest) (w : World τ) : Prop :=
  ∀ o s, (w.session t).objs (.stock request.stock_id) = some (.stock o) →
    w.store.view t (.stock request.stock_id) = some (.stock s) →
    (o.available < request.quantity → s.available < request.quantity)
      ∧ (request.quantity ≤ o.available →
        s.version = o.version ∧ request.quantity ≤ s.available)

variable {t : τ} {w w' : World τ} {ms : Moves τ}

/-! ## §2. The other errors. -/

/-- An error that the promise says nothing about. -/
def Unrelated (e : Exn) : Prop :=
  e.isA .concurrentUpdateError = false ∧ e.isA .outOfStockError = false

theorem unrelated_of_flush {e : Exn} (h : FlushError e) : Unrelated e := by
  have hnot := not_refused_of_flush h
  constructor
  · exact Bool.eq_false_iff.mpr fun hc => hnot (Or.inr (Or.inr (Or.inr hc)))
  · exact Bool.eq_false_iff.mpr fun hc => hnot (Or.inr (Or.inr (Or.inl hc)))

theorem Unrelated.retries {request : PlaceOrderRequest} {e : Exn} (h : Unrelated e) :
    RetriesRetry t request ms e := by
  constructor
  · intro hc
    rw [h.1] at hc
    cases hc
  · intro hc
    rw [h.2] at hc
    cases hc

/-! ## §3. Reading the row. -/

/-- The SELECT `m` answered with the object `s`, which is then loaded. -/
structure ReadAs (t : τ) (id : Uuid) (s : Stock) (m : Move (World τ) Choice) (w' : World τ) :
    Prop where
  found : m.state.found t (.stock id) = some (.stock s)
  loaded : (w'.session t).objs (.stock id) = some (.stock s)
  writes : w'.store.writes t = m.state.store.writes t

/-- The object that is loaded already is read again. -/
theorem ReadAs.again {id : Uuid} {s s₀ : Stock} {m : Move (World τ) Choice}
    (h : ReadAs t id s m w') (hobj : (m.state.session t).objs (.stock id) = some (.stock s₀)) :
    s = s₀ := by
  obtain ⟨row, -, hrow⟩ := Option.map_eq_some_iff.mp h.found
  rw [hobj] at hrow
  exact (Row.stock.inj hrow).symm

/-- **What the same verdict is worth**: what the object says of the order, the
row says as well. -/
theorem ReadAs.row {request : PlaceOrderRequest} {s : Stock} {m : Move (World τ) Choice}
    (h : ReadAs t request.stock_id s m w') (hsame : SameVerdict t request m.state) :
    ∃ s₁, m.state.store.view t (.stock request.stock_id) = some (.stock s₁)
      ∧ (s.available < request.quantity → s₁.available < request.quantity)
      ∧ (request.quantity ≤ s.available →
        s₁.version = s.version ∧ request.quantity ≤ s₁.available) := by
  obtain ⟨row, hv, hrow⟩ := Option.map_eq_some_iff.mp h.found
  obtain ⟨s₁, rfl, -⟩ := stock_of_key (TxStore.key_of_view hv)
  refine ⟨s₁, hv, ?_⟩
  cases hobj : (m.state.session t).objs (.stock request.stock_id) with
  | none =>
      -- the object is the row
      rw [hobj] at hrow
      obtain rfl := Row.stock.inj hrow
      exact ⟨fun hshort => hshort, fun henough => ⟨rfl, henough⟩⟩
  | some obj =>
      rw [hobj] at hrow
      obtain rfl : obj = .stock s := hrow
      exact hsame s s₁ hobj hv

variable [DecidableEq τ]

theorem runs_readStock {id : Uuid} {r : Except Exn (Option Stock)}
    (h : Runs t (readStock id) w ms r w') : ∃ m, ms = [m] ∧ m.state.local t = w.local t
      ∧ ((∃ e, r = .error e ∧ Unrelated e) ∨ ∃ found, r = .ok found
        ∧ ∀ s, found = some s → ReadAs t id s m w') := by
  obtain ⟨m, rest, r₀, w₁, rfl, ho, he, hnext⟩ := runs_next h
  have hstore := exec_select_store he
  rcases hnext with ⟨row, rfl, h⟩ | ⟨e, rfl, rfl, rfl, rfl⟩
  · obtain ⟨rfl, rfl, rfl⟩ := runs_ret h
    refine ⟨m, rfl, ho, Or.inr ⟨asStock row, rfl, fun s hs => ?_⟩⟩
    rcases exec_select he with ⟨f, -, hr, -⟩ | ⟨-, -, hr, -⟩ | ⟨obj, -, hfound, hr, hsession⟩
    · cases hr
    · obtain rfl := Except.ok.inj hr
      cases hs
    · -- the object that is answered is the one that is loaded afterwards
      obtain rfl := Except.ok.inj hr
      obtain rfl := asStock_some hs
      refine ⟨hfound, ?_, by rw [hstore]⟩
      rw [hsession]
      exact Function.update_self ..
  · refine ⟨m, rfl, ho, Or.inl ⟨e, rfl, ?_⟩⟩
    rcases exec_select he with ⟨f, -, hr, -⟩ | ⟨-, -, hr, -⟩ | ⟨obj, -, -, hr, -⟩
    · obtain rfl := Except.error.inj hr
      exact unrelated_of_flush (Or.inl ⟨f, rfl⟩)
    · cases hr
    · cases hr

theorem runs_getStock {id : Uuid} {r : Except Exn Stock} (h : Runs t (getStock id) w ms r w') :
    ∃ m, ms = [m] ∧ ((∃ e, r = .error e ∧ Unrelated e) ∨ ∃ s, r = .ok s ∧ ReadAs t id s m w') := by
  rcases runs_bind h with ⟨ms₁, ms₂, found, w₁, rfl, h₁, h₂⟩ | ⟨e, rfl, h₁⟩
  · obtain ⟨m, rfl, -, ⟨e, hr, -⟩ | ⟨found', hr, hread⟩⟩ := runs_readStock h₁
    · cases hr
    · obtain rfl := Except.ok.inj hr
      cases found with
      | none =>
          -- StockNotFoundError
          obtain ⟨rfl, rfl, rfl⟩ := runs_ret h₂
          exact ⟨m, rfl, Or.inl ⟨_, rfl, rfl, rfl⟩⟩
      | some s =>
          obtain ⟨rfl, rfl, rfl⟩ := runs_ret h₂
          exact ⟨m, rfl, Or.inr ⟨s, rfl, hread s rfl⟩⟩
  · obtain ⟨m, rfl, -, ⟨e', hr, hu⟩ | ⟨found', hr, -⟩⟩ := runs_readStock h₁
    · obtain rfl := Except.error.inj hr
      exact ⟨m, rfl, Or.inl ⟨e, rfl, hu⟩⟩
    · cases hr

/-! ## §4. The UPDATE. -/

/-- What an UPDATE itself is refused with. -/
theorem updateStock_error {u : StockUpdate} {e : Exn}
    (h : w.updateStock t u = some (.error e, w')) : Refusal e := by
  unfold World.updateStock at h
  split at h
  next s _ =>
    split at h
    next =>
      obtain ⟨store, -, hr⟩ := Option.map_eq_some_iff.mp h
      split at hr
      next => cases (Prod.mk.inj hr).1
      next e' he =>
        obtain rfl := Except.error.inj (Prod.mk.inj hr).1
        have hviolation : (Row.stock (u.set s)).violation = .error e' := he
        exact Row.violation_cls hviolation
    next => cases (Prod.mk.inj (Option.some.inj h)).1
  next => cases (Prod.mk.inj (Option.some.inj h)).1

/-- An UPDATE fails, matches no row, or one. -/
theorem exec_updateStock {c : Choice} {u : StockUpdate} {r : Except Exn Nat}
    (h : exec c t (.updateStock u) w = some (r, w')) :
    (∃ e, r = .error e ∧ Unrelated e)
      ∨ (r = .ok 0 ∧ ∀ s, w.store.view t (.stock u.id) = some (.stock s) → u.cond s = false)
      ∨ r = .ok 1 := by
  simp only [exec] at h
  split at h
  next f _ =>
    obtain ⟨rfl, -⟩ := Prod.mk.inj (Option.some.inj h)
    exact Or.inl ⟨f.exn, rfl, unrelated_of_flush (Or.inl ⟨f, rfl⟩)⟩
  next =>
    rcases updateStock_cases h with ⟨rfl, hmiss, -⟩ | ⟨e, rfl, rfl⟩ | ⟨s, store, -, -, -, -, rfl, -⟩
    · exact Or.inr (Or.inl ⟨rfl, hmiss⟩)
    · have hrefused := updateStock_error h
      exact Or.inl ⟨e, rfl, unrelated_of_flush (Or.inr (hrefused.imp_right Or.inl))⟩
    · exact Or.inr (Or.inr rfl)

/-- **A `reserve` with the row loaded as `s`**, whose version is expected: it fails
for a reason of its own, or `s` has too few pieces, or it comes to the UPDATE. -/
theorem runs_reserve {request : ReserveRequest} {s : Stock} {r : Except Exn ReserveResult}
    (hversion : request.expected_version = s.version)
    (hobj : (w.session t).objs (.stock request.stock_id) = some (.stock s))
    (h : Runs t (reserve request) w ms r w') :
    (∃ e, r = .error e ∧ Unrelated e)
      ∨ (s.available < request.quantity ∧ r = .error (insufficientStock request s.available)
        ∧ ∃ m, ms = [m])
      ∨ (0 < request.quantity ∧ request.quantity ≤ s.available ∧ ∃ m rest w₁, ms = m :: rest
        ∧ m.state.store.writes t = w.store.writes t ∧ ReadAs t request.stock_id s m w₁
        ∧ Runs t (reserveRow request s) w₁ rest r w') := by
  unfold reserve at h
  split at h
  next =>
    obtain ⟨-, rfl, -⟩ := runs_ret h
    exact Or.inl ⟨_, rfl, rfl, rfl⟩
  next hq =>
    rcases runs_bind h with ⟨ms₁, ms₂, found, w₁, rfl, h₁, h₂⟩ | ⟨e, rfl, h₁⟩
    · obtain ⟨m, rfl, ho, ⟨e, hr, -⟩ | ⟨found', hr, hread⟩⟩ := runs_readStock h₁
      · cases hr
      · obtain rfl := Except.ok.inj hr
        cases found with
        | none =>
            -- StockNotFoundError
            obtain ⟨-, rfl, -⟩ := runs_ret h₂
            exact Or.inl ⟨_, rfl, rfl, rfl⟩
        | some s' =>
            have hread := hread s' rfl
            rw [← session_of_local ho] at hobj
            obtain rfl := hread.again hobj
            change Runs t (if s'.version ≠ request.expected_version then _ else
              if s'.available < request.quantity then _ else reserveRow request s')
              w₁ ms₂ r w' at h₂
            -- the expected version is the one that `get_stock` has read off the object
            rw [if_neg (fun hc => hc hversion.symm)] at h₂
            split at h₂
            next hshort =>
              obtain ⟨rfl, rfl, -⟩ := runs_ret h₂
              exact Or.inr (Or.inl ⟨hshort, rfl, m, rfl⟩)
            next henough =>
              exact Or.inr (Or.inr ⟨Int.not_le.mp hq, Int.not_lt.mp henough, m, ms₂, w₁, rfl,
                writes_of_local ho, hread, h₂⟩)
    · obtain ⟨m, -, -, ⟨x, hr, hx⟩ | ⟨found', hr, -⟩⟩ := runs_readStock h₁
      · obtain rfl := Except.error.inj hr
        exact Or.inl ⟨e, rfl, hx⟩
      · cases hr

/-- **The UPDATE of a `reserve` that raises** has failed, or matched no row. -/
theorem runs_reserveRow {request : ReserveRequest} {s : Stock} {e : Exn}
    (h : Runs t (reserveRow request s) w ms (.error e) w') :
    Unrelated e
      ∨ (e = lostRace request ∧ ∃ u, ms = [u] ∧ u.state.store.writes t = w.store.writes t
        ∧ ∀ s', u.state.store.view t (.stock request.stock_id) = some (.stock s') →
          (reserveUpdate request).cond s' = false) := by
  obtain ⟨u, rest, r₀, w₂, rfl, hou, heu, hupdate⟩ := runs_next h
  rcases hupdate with ⟨n, rfl, h₃⟩ | ⟨x, rfl, -, he, -⟩
  · rcases exec_updateStock heu with ⟨x, hx, -⟩ | ⟨hn, hmiss⟩ | hn
    · cases hx
    · -- no row matched
      obtain rfl := Except.ok.inj hn
      obtain ⟨rfl, he, -⟩ := runs_ret h₃
      obtain rfl := Except.error.inj he
      exact Or.inr ⟨rfl, u, rfl, writes_of_local hou, hmiss⟩
    · -- a reservation that has been made returns
      obtain rfl := Except.ok.inj hn
      obtain ⟨l, rest', r₁, w₃, rfl, -, hel, hloaded⟩ := runs_next h₃
      obtain ⟨rfl, -⟩ := Prod.mk.inj (Option.some.inj hel)
      rcases hloaded with ⟨row, -, h₄⟩ | ⟨x, hx, -⟩
      · cases (runs_ret h₄).2.1
      · cases hx
  · -- refused, or the database has failed
    obtain rfl := Except.error.inj he
    rcases exec_updateStock heu with ⟨x, hx, hu⟩ | ⟨hn, -⟩ | hn
    · obtain rfl := Except.error.inj hx
      exact Or.inl hu
    · cases hn
    · cases hn

/-! ## §5. The loop. -/

/-- A lost race is no OutOfStockError. -/
theorem isA_of_concurrent {e : Exn} (h : e.isA .concurrentUpdateError = true) :
    e.isA .outOfStockError = false := by
  have hcls : e.cls = .concurrentUpdateError := by
    unfold Exn.isA at h
    cases hc : e.cls
    all_goals
      first
      | rfl
      | rw [hc] at h
        cases h
  exact Exn.isA_of_cls hcls .outOfStockError

/-- An operation that cannot fail. -/
theorem runs_sure {α : Type} {op : Op} {f : Ans op → Svc α} {r : Except Exn α}
    (hsure : ∀ c u u' x, exec c t op u = some (x, u') → ∃ a, x = .ok a)
    (h : Runs t (Prog.call op .ret >>= f) w ms r w') :
    ∃ a rest w₁, Runs t (f a) w₁ rest r w' := by
  obtain ⟨m, rest, x, w₁, rfl, -, he, hnext⟩ := runs_next h
  obtain ⟨a, rfl⟩ := hsure _ _ _ _ he
  rcases hnext with ⟨a', ha, h⟩ | ⟨e, he', -⟩
  · exact ⟨a', rest, w₁, h⟩
  · cases he'

/-- After the reservation only the flush can fail; the order is the one that is
made of it. -/
theorem runs_recordOrder {uuid5 : Uuid5} {request : PlaceOrderRequest} {stock : Stock}
    {rr : ReserveResult} {r : Except Exn PlaceOrderResult}
    (h : Runs t (recordOrder uuid5 request stock rr) w ms r w') :
    (∃ e, r = .error e ∧ Unrelated e)
      ∨ ∃ id outbox envelope, r = .ok ⟨newOrder request stock rr id, outbox, envelope⟩ := by
  have huuid : ∀ c (u u' : World τ) x, exec c t .uuid4 u = some (x, u') → ∃ a, x = .ok a :=
    fun c u u' x hx => ⟨c.uuid, (exec_uuid4 hx).1⟩
  have hadd : ∀ row c (u u' : World τ) x, exec c t (.add row) u = some (x, u') →
      ∃ a, x = .ok a :=
    fun row c u u' x hx => ⟨(), (Prod.mk.inj (Option.some.inj hx)).1.symm⟩
  -- the operations before the flush cannot fail
  obtain ⟨order_id, rest, w₁, h⟩ := runs_sure huuid h
  obtain ⟨event_id, rest, w₂, h⟩ := runs_sure huuid h
  obtain ⟨envelope, hmade⟩ := orderEnvelope_ok event_id (newOrder request stock rr order_id)
  obtain ⟨outbox, hbuilt⟩ := orderOutbox_ok uuid5 hmade
  rw [hmade] at h
  change Runs t (lift (outboxRow uuid5 envelope "orders.events") >>= _) w₂ rest r w' at h
  rw [hbuilt] at h
  obtain ⟨-, rest, w₃, h⟩ := runs_sure (hadd _) h
  obtain ⟨-, rest, w₄, h⟩ := runs_sure (hadd _) h
  obtain ⟨m, rest, x, w₅, rfl, -, he, hflush⟩ := runs_next h
  rcases hflush with ⟨-, -, h⟩ | ⟨e, rfl, -, rfl, -⟩
  · exact Or.inr ⟨order_id, outbox, envelope, (runs_ret h).2.1⟩
  · -- the flush raises, or the connection is lost
    refine Or.inl ⟨e, rfl, ?_⟩
    simp only [exec] at he
    split at he
    next f _ =>
      obtain ⟨hf, -⟩ := Prod.mk.inj (Option.some.inj he)
      exact unrelated_of_flush (Or.inl ⟨f, (Except.error.inj hf).symm⟩)
    next =>
      rcases flush_cases he with ⟨x, hx, hr, -⟩ | ⟨store, -, hr, -⟩
      · obtain rfl := Except.error.inj hr
        exact unrelated_of_flush (flushAll_error hx)
      · cases hr

/-- **One turn of the loop** that meets such a copy: the error is another one, or
the row had too few pieces, or the row changed and the loop goes on. -/
theorem runs_attempt {uuid5 : Uuid5} {request : PlaceOrderRequest} {n : Nat}
    {last_exc : Option Exn} {e : Exn} (hcur : ∀ m, ms[0]? = some m → SameVerdict t request m.state)
    (h : Runs t (attempts uuid5 request (n + 1) last_exc) w ms (.error e) w') :
    Unrelated e
      ∨ (e.isA .concurrentUpdateError = false ∧ ShortWhenRead t request ms)
      ∨ ∃ (a : Attempt τ) (rest : Moves τ) (exc : Exn) (w₁ : World τ), ms = a.moves ++ rest
        ∧ a.Raced request.stock_id ∧ exc.isA .concurrentUpdateError = true
        ∧ Runs t (attempts uuid5 request n (some exc)) w₁ rest (.error e) w' := by
  rcases runs_bind h with ⟨ms₁, ms₂, s, w₁, rfl, h₁, h₂⟩ | ⟨e', he', h₁⟩
  · obtain ⟨m, rfl, ⟨e', hr, -⟩ | ⟨s', hr, hread⟩⟩ := runs_getStock h₁
    · cases hr
    · obtain rfl := Except.ok.inj hr
      obtain ⟨s₁, hv, hrowShort, hrowEnough⟩ := hread.row (hcur m rfl)
      obtain ⟨ms₃, ms₄, r₁, w₂, rfl, h₃, h₄⟩ := runs_handle h₂
      cases r₁ with
      | ok rr =>
          rcases runs_recordOrder h₄ with ⟨x, hx, hu⟩ | ⟨id, outbox, envelope, hx⟩
          · obtain rfl := Except.error.inj hx
            exact Or.inl hu
          · cases hx
      | error exc =>
          change Runs t (if exc.isA .concurrentUpdateError then _ else _) w₂ ms₄ (.error e) w' at h₄
          -- only a ConcurrentUpdateError is caught
          have hpassed : Unrelated exc → Unrelated e := by
            intro hx
            rw [hx.1] at h₄
            obtain ⟨-, he, -⟩ := runs_ret h₄
            obtain rfl := Except.error.inj he
            exact hx
          rcases runs_reserve rfl hread.loaded h₃ with ⟨x, hx, hu⟩ | ⟨hshort, hx, r', rfl⟩ |
            ⟨-, henough, r', rest, w₃, rfl, hw, hreread, hrow⟩
          · obtain rfl := Except.error.inj hx
            exact Or.inl (hpassed hu)
          · -- OutOfStockError: what the object has too few of, the row has
            obtain rfl := Except.error.inj hx
            obtain ⟨rfl, he, -⟩ := runs_ret h₄
            obtain rfl := Except.error.inj he
            exact Or.inr (Or.inl ⟨rfl, [], m, r', s₁, rfl, hv, hrowShort hshort⟩)
          · rcases runs_reserveRow hrow with hu | ⟨rfl, u, rfl, hwu, hmiss⟩
            · exact Or.inl (hpassed hu)
            · refine Or.inr (Or.inr ⟨⟨m, r', u⟩, ms₄, _, w₂, rfl, fun hsame => ?_, rfl, h₄⟩)
              -- the row was there for the UPDATE, if nobody changed it
              have hwrites : u.state.store.writes t = m.state.store.writes t :=
                hwu.trans (hreread.writes.trans (hw.trans hread.writes))
              have hseen : u.state.store.view t (.stock request.stock_id) = some (.stock s₁) := by
                rw [← hv]
                exact TxStore.view_congr hwrites hsame
              obtain ⟨hversion, havailable⟩ := hrowEnough henough
              have hmatch : (reserveUpdate ⟨request.stock_id, request.quantity, s.version⟩).cond s₁
                  = true := by
                simp [reserveUpdate, hversion, havailable]
              rw [hmiss s₁ hseen] at hmatch
              cases hmatch
  · obtain rfl := Except.error.inj he'
    obtain ⟨m, rfl, ⟨x, hr, hx⟩ | ⟨s', hr, -⟩⟩ := runs_getStock h₁
    · obtain rfl := Except.error.inj hr
      exact Or.inl hx
    · cases hr

/-- **The loop**, where each turn meets such a copy. -/
theorem runs_attempts {uuid5 : Uuid5} {request : PlaceOrderRequest} {e : Exn} :
    ∀ (n : Nat) {last_exc : Option Exn} {w : World τ} {ms : Moves τ},
      (∀ exc, last_exc = some exc → exc.isA .concurrentUpdateError = true) →
      (∀ i < n, ∀ m, ms[3 * i]? = some m → SameVerdict t request m.state) →
      Runs t (attempts uuid5 request n last_exc) w ms (.error e) w' →
      (e.isA .concurrentUpdateError = true → ∃ as : List (Attempt τ),
        ms = as.flatMap Attempt.moves ∧ as.length = n ∧ ∀ a ∈ as, a.Raced request.stock_id)
      ∧ (e.isA .outOfStockError = true → ShortWhenRead t request ms) := by
  intro n
  induction n with
  | zero =>
      intro last_exc w ms hlast _ h
      -- all attempts have been made: the last ConcurrentUpdateError goes out
      cases last_exc with
      | none =>
          obtain ⟨rfl, he, -⟩ := runs_ret h
          obtain rfl := Except.error.inj he
          exact ⟨fun hc => (nomatch hc), fun hc => (nomatch hc)⟩
      | some exc =>
          obtain ⟨rfl, he, -⟩ := runs_ret h
          obtain rfl := Except.error.inj he
          refine ⟨fun _ => ⟨[], rfl, rfl, fun a ha => absurd ha List.not_mem_nil⟩, fun hc => ?_⟩
          rw [isA_of_concurrent (hlast e rfl)] at hc
          cases hc
  | succ n ih =>
      intro last_exc w ms _ hcur h
      rcases runs_attempt (hcur 0 n.succ_pos) h with hx | ⟨hnot, hshort⟩ |
        ⟨a, rest, exc, w₁, rfl, hraced, hexc, hrest⟩
      · refine ⟨fun hc => ?_, fun hc => ?_⟩
        · rw [hx.1] at hc
          cases hc
        · rw [hx.2] at hc
          cases hc
      · refine ⟨fun hc => ?_, fun _ => hshort⟩
        rw [hnot] at hc
        cases hc
      · -- the rest of the loop starts three operations later
        have hlater : ∀ i < n, ∀ m, rest[3 * i]? = some m → SameVerdict t request m.state := by
          intro i hi m hm
          refine hcur (i + 1) (by omega) m ?_
          rw [List.getElem?_append_right (by show 3 ≤ 3 * (i + 1); omega)]
          show rest[3 * (i + 1) - 3]? = some m
          rw [show 3 * (i + 1) - 3 = 3 * i by omega]
          exact hm
        obtain ⟨hconcurrent, hout⟩ := ih (fun x hx => Option.some.inj hx ▸ hexc) hlater hrest
        refine ⟨fun hc => ?_, fun hc => ?_⟩
        · obtain ⟨as, rfl, hlength, hall⟩ := hconcurrent hc
          refine ⟨a :: as, rfl, by rw [List.length_cons, hlength], ?_⟩
          exact List.forall_mem_cons.mpr ⟨hraced, hall⟩
        · obtain ⟨before, r, r', s, rfl, hv, hs⟩ := hout hc
          exact ⟨a.moves ++ before, r, r', s, (List.append_assoc ..).symm, hv, hs⟩

/-- **Every call of the shop that has ended has taken a path**, from a new
session. -/
theorem shop_runs {uuid5 : Uuid5} {T : Table Row} (hT : ∀ r ∈ T.rows, r.violation = .ok ())
    (as : List (Action τ Call Choice)) {call : Call} {r : Except Exn Reply}
    (ht : (shopRun uuid5 T as).thread t = some ⟨call, .ret r⟩) :
    ∃ (w : World τ) (ms : Moves τ) (w' : World τ), Runs t (body uuid5 call) (w.enter t) ms r w'
      ∧ (shopRun uuid5 T as).shared.local t = w'.local t := by
  let K := shopContract anyRows uuid5 keeps_anyRows (τ := τ)
  obtain ⟨w, ms, w', hpath, hlocal⟩ := K.path ⟨inv_init hT, trivial⟩ as t _ ht
  exact ⟨w, ms, w', hpath, hlocal⟩

/-- At each attempt the session's copy of the row and the row agree. -/
def Agreeing (t : τ) (request : PlaceOrderRequest) (ms : Moves τ) : Prop :=
  ∀ i < maxReserveRetries, ∀ m, ms[3 * i + 1]? = some m → SameVerdict t request m.state

/-- Along a path whose attempts all agree, the error keeps its promise. -/
theorem retries_of_agreeing {uuid5 : Uuid5} {request : PlaceOrderRequest} {e : Exn}
    (hcur : Agreeing t request ms) (h : Runs t (placeOrder uuid5 request) w ms (.error e) w') :
    RetriesRetry t request ms e := by
  unfold placeOrder at h
  split at h
  next =>
    obtain ⟨-, he, -⟩ := runs_ret h
    obtain rfl := Except.error.inj he
    exact Unrelated.retries ⟨rfl, rfl⟩
  next =>
    -- the search path is set first
    rw [withSchemas_eq] at h
    obtain ⟨m₀, rest, r₀, w₁, rfl, -, he, hpath⟩ := runs_next h
    rcases hpath with ⟨u, -, h⟩ | ⟨e', rfl, -, he', -⟩
    · -- so each attempt comes one operation later than in the loop
      have hlater : ∀ i < maxReserveRetries, ∀ m, rest[3 * i]? = some m →
          SameVerdict t request m.state := fun i hi m hm => hcur i hi m hm
      obtain ⟨hconcurrent, hout⟩ := runs_attempts maxReserveRetries
        (fun x (hx : none = some x) => nomatch hx) hlater h
      constructor
      · intro hc
        obtain ⟨as, rfl, hlength, hall⟩ := hconcurrent hc
        exact ⟨m₀, as, rfl, hlength, hall⟩
      · intro hc
        obtain ⟨before, r, r', s, rfl, hv, hs⟩ := hout hc
        exact ⟨m₀ :: before, r, r', s, rfl, hv, hs⟩
    · obtain rfl := Except.error.inj he'
      simp only [exec] at he
      split at he
      next f _ =>
        obtain ⟨hf, -⟩ := Prod.mk.inj (Option.some.inj he)
        exact (unrelated_of_flush (Or.inl ⟨f, (Except.error.inj hf).symm⟩)).retries
      next => cases (Prod.mk.inj (Option.some.inj he)).1

/-- **The errors of `place_order` say what they promise**, whatever the other
transactions do, if at each attempt the session's copy of the row and the row
give the order the same verdict; and every `place_order` of the shop that has
raised took such a path, in a new session. -/
theorem retries_retry {uuid5 : Uuid5} {request : PlaceOrderRequest} {e : Exn} :
    (∀ {w w' : World τ} {ms : Moves τ}, Agreeing t request ms →
      Runs t (placeOrder uuid5 request) w ms (.error e) w' → RetriesRetry t request ms e)
    ∧ ∀ {T : Table Row}, (∀ r ∈ T.rows, r.violation = .ok ()) →
        ∀ as : List (Action τ Call Choice),
          (shopRun uuid5 T as).thread t = some ⟨.placeOrder request, .ret (.error e)⟩ →
          ∃ (w : World τ) (ms : Moves τ) (w' : World τ),
            Runs t (placeOrder uuid5 request) (w.enter t) ms (.error e) w' := by
  refine ⟨retries_of_agreeing, fun hT as ht => ?_⟩
  obtain ⟨w, ms, w', hruns, -⟩ := shop_runs hT as ht
  obtain ⟨r, hpath, hr⟩ := runs_map hruns
  cases r with
  | ok res => cases hr
  | error e' =>
      obtain rfl := Except.error.inj hr
      exact ⟨w, ms, w', hpath⟩

/-! ## §6. A phantom, and an attempt that is really lost. -/

/-- A session that holds no lock is interrupted by commits of others. -/
theorem runs_overtaken {α : Type} {p q : Svc α} {r : Except Exn α} {w₁ : World τ} {ms₁ ms₂ : Moves τ}
    {cs₁ cs₂ : List Choice} {U : Table Row}
    (h₁ : alone (World.among t) cs₁ p w = some (ms₁, q, w₁))
    (howner : ∀ k, w₁.store.owner k = none)
    (h₂ : alone (World.among t) cs₂ q { w₁ with store := { w₁.store with base := U } }
      = some (ms₂, .ret r, w')) (hne : ms₂ ≠ []) : Runs t p w (ms₁ ++ ms₂) r w' := by
  refine runs_interrupted (path_alone (fun _ => rfl) h₁) (local_of_commit fun k hk => ?_)
    (path_alone (fun _ => rfl) h₂) hne
  rw [howner k] at hk
  cases hk

/-- Session 0 orders six of ten pieces. -/
def sixRequest : PlaceOrderRequest := ⟨Uuid.ofNat 7, tenStock.id, 6⟩

/-- Another transaction has reserved one piece and committed. -/
def nineTable : Table Row := tenTable.upsert (.stock (tenStock.reserve 1))

/-- Between the second SELECT and the UPDATE of the first attempt one piece is
reserved; the second attempt finds too few. -/
theorem phantom_ends : ∃ (ms₁ : Moves Nat) (q : Svc PlaceOrderResult) (w₁ : World Nat)
    (ms₂ : Moves Nat) (w₂ : World Nat),
    alone (World.among 0) [{}, {}, {}] (placeOrder (fun c => c) sixRequest) (World.init tenTable)
        = some (ms₁, q, w₁)
      ∧ (∀ k, w₁.store.owner k = none)
      ∧ alone (World.among 0) [{}, {}, {}] q { w₁ with store := { w₁.store with base := nineTable } }
        = some (ms₂, .ret (.error (insufficientStock ⟨tenStock.id, 6, 2⟩ 4)), w₂)
      ∧ ms₂.length = 3
      ∧ (ms₁ ++ ms₂).dropLast.getLast?.map
          (fun m => m.state.store.view 0 (.stock tenStock.id))
        = some (some (.stock (tenStock.reserve 1))) :=
  ⟨_, _, _, _, _, rfl, fun _ => rfl, rfl, rfl, rfl⟩

/-- **An order of six fails for want of stock, and nine pieces are there.** -/
theorem retries_do_not_retry :
    ¬ ∀ (request : PlaceOrderRequest) (w : World Nat) (ms : Moves Nat) (e : Exn) (w' : World Nat),
        Runs 0 (placeOrder (fun c => c) request) w ms (.error e) w' →
          RetriesRetry 0 request ms e := by
  intro h
  obtain ⟨ms₁, q, w₁, ms₂, w₂, h₁, howner, h₂, hlength, hlast⟩ := phantom_ends
  have hruns := runs_overtaken h₁ howner h₂ (List.ne_nil_of_length_pos (by omega))
  obtain ⟨before, r, r', s, hms, hv, hs⟩ := (h _ _ _ _ _ hruns).outOfStock rfl
  rw [hms, show before ++ [r, r'] = (before ++ [r]) ++ [r'] by simp, List.dropLast_concat,
    List.getLast?_append] at hlast
  obtain rfl := Row.stock.inj (Option.some.inj (hv.symm.trans (Option.some.inj hlast)))
  exact absurd hs (by decide)

/-- Another transaction has reserved five pieces and committed. -/
def fiveTable : Table Row := tenTable.upsert (.stock (tenStock.reserve 5))

/-- Between the second SELECT and the UPDATE of the first attempt five pieces are
reserved: neither the row nor the copy in the session has six left. -/
theorem lostAttempt_ends : ∃ (ms₁ : Moves Nat) (q : Svc PlaceOrderResult) (w₁ : World Nat)
    (ms₂ : Moves Nat) (w₂ : World Nat),
    alone (World.among 0) [{}, {}, {}] (placeOrder (fun c => c) sixRequest) (World.init tenTable)
        = some (ms₁, q, w₁)
      ∧ (∀ k, w₁.store.owner k = none)
      ∧ alone (World.among 0) [{}, {}, {}] q { w₁ with store := { w₁.store with base := fiveTable } }
        = some (ms₂, .ret (.error (insufficientStock ⟨tenStock.id, 6, 2⟩ 4)), w₂)
      ∧ ms₁.length = 3 ∧ ms₂.length = 3
      ∧ ms₁[1]?.map (fun m => (m.state.session 0).objs (.stock tenStock.id)) = some none
      ∧ ms₂[1]?.map (fun m => ((m.state.session 0).objs (.stock tenStock.id),
          m.state.store.view 0 (.stock tenStock.id)))
        = some (some (.stock { tenStock with available := 4, version := 2 }),
          some (.stock { tenStock with available := 5, version := 2 })) :=
  ⟨_, _, _, _, _, rfl, fun _ => rfl, rfl, rfl, rfl, rfl, rfl⟩

/-- Both attempts of a path like that agree. -/
theorem agreeing_lost {ms₁ ms₂ : Moves Nat} (hlength₁ : ms₁.length = 3) (hlength₂ : ms₂.length = 3)
    (hfresh : ms₁[1]?.map (fun m => (m.state.session 0).objs (.stock tenStock.id)) = some none)
    (hlost : ms₂[1]?.map (fun m => ((m.state.session 0).objs (.stock tenStock.id),
        m.state.store.view 0 (.stock tenStock.id)))
      = some (some (.stock { tenStock with available := 4, version := 2 }),
        some (.stock { tenStock with available := 5, version := 2 }))) :
    Agreeing 0 sixRequest (ms₁ ++ ms₂) := by
  intro i _ m hm
  cases i with
  | zero =>
      -- nothing is loaded yet
      rw [List.getElem?_append_left (by omega)] at hm
      rw [show ms₁[1]? = some m from hm] at hfresh
      intro o s hobj
      cases (Option.some.inj hfresh).symm.trans hobj
  | succ i =>
      cases i with
      | zero =>
          rw [List.getElem?_append_right (by omega), hlength₁] at hm
          rw [show ms₂[1]? = some m from hm] at hlost
          obtain ⟨hcopy, hrow⟩ := Prod.mk.inj (Option.some.inj hlost)
          intro o s hobj hview
          obtain rfl := Row.stock.inj (Option.some.inj (hcopy.symm.trans hobj))
          obtain rfl := Row.stock.inj (Option.some.inj (hrow.symm.trans hview))
          exact ⟨fun _ => by decide, fun hle => absurd hle (by decide)⟩
      | succ i =>
          rw [List.getElem?_eq_none (by rw [List.length_append]; omega)] at hm
          cases hm

/-- **The second attempt finds too few pieces**, in its copy as in the row. -/
theorem retries_retry_lost : ∃ ms w',
    Runs 0 (placeOrder (fun c => c) sixRequest) (World.init tenTable) ms
        (.error (insufficientStock ⟨tenStock.id, 6, 2⟩ 4)) w'
      ∧ ms.length = 6
      ∧ RetriesRetry 0 sixRequest ms (insufficientStock ⟨tenStock.id, 6, 2⟩ 4) := by
  obtain ⟨ms₁, q, w₁, ms₂, w₂, h₁, howner, h₂, hlength₁, hlength₂, hfresh, hlost⟩ := lostAttempt_ends
  have hruns := runs_overtaken h₁ howner h₂ (List.ne_nil_of_length_pos (by omega))
  have hcur := agreeing_lost hlength₁ hlength₂ hfresh hlost
  exact ⟨_, w₂, hruns, by rw [List.length_append]; omega, retries_retry.1 hcur hruns⟩

end Nimbus
