/-
  Nimbus.Saga.OrderTotals
  ───────────────────────
  **WHICH RESERVATIONS MAKE AN ORDER THAT CAN BE STORED.**

  `place_order` multiplies the price by the quantity once the stock is reserved.
  Price and quantity are INTEGERs, and so is the column of the total; `reserve`
  bounds the quantity by what is available and nothing bounds the product.  A
  reservation may thus succeed whose order the database refuses for its range.

    • `takeStock`       — a turn of the loop up to the reservation;
    • `runs_takeStock`, `taken_of_row` — what it succeeds with, and that it can;
    • `order_of_placeOrder` — the order of `place_order` is made of such a turn;
    • `OrderFits`       — the order made of a reservation has no range to exceed;
    • `totals_iff`      — **for every stock row: when its reservations make such
                          orders.**
-/
import Nimbus.Saga.Retries

namespace Nimbus

open Lib Lib.Prog Orders Inventory

/-! ## §1. Reservations and their orders. -/

/-- The largest value of an INTEGER column. -/
def int4Max : Int := 2147483647

/-- A turn of the loop of `place_order`, up to the reservation: the row that was
read, and the result of `reserve`. -/
def takeStock (request : PlaceOrderRequest) : Svc (Stock × ReserveResult) := do
  let stock ← getStock request.stock_id
  let reserve_result ← reserve ⟨request.stock_id, request.quantity, stock.version⟩
  return (stock, reserve_result)

/-- In some session, whatever the others do meanwhile, `reserve` succeeds from
the row `s` with `reserve_result`. -/
def Taken (s : Stock) (request : PlaceOrderRequest) (reserve_result : ReserveResult) : Prop :=
  ∃ (τ : Type) (_ : DecidableEq τ) (t : τ) (w : World τ) (ms : Moves τ) (w' : World τ),
    Runs t (takeStock request) w ms (.ok (s, reserve_result)) w'

/-- **The order of every reservation from `s` can be stored**: its total fits the
column, and no flush that inserts it fails on a range. -/
structure OrderFits (s : Stock) : Prop where
  total : ∀ request reserve_result, Taken s request reserve_result →
    inInt4 (s.price_minor_units * request.quantity) = true
  flush : ∀ request reserve_result, Taken s request reserve_result →
    ∀ (id : Uuid) (τ : Type) [DecidableEq τ] (store : TxStore Row τ) (t : τ) (now : Int) (e : Exn),
      World.flushOne now store t (.insert (.order (newOrder request s reserve_result id)))
        = some (.error e) → e.cls ≠ .dataError

/-! ## §2. What the columns hold. -/

/-- The constraint does not answer that a value is out of range. -/
def NoRange (answer : Except Exn Unit) : Prop := ∀ e, answer = .error e → e.cls ≠ .dataError

theorem fits_then_ok {ok : Bool} {column : String} {f : Unit → Except Exn Unit} :
    (fits ok column >>= f) = .ok () ↔ ok = true ∧ f () = .ok () := by
  cases ok with
  | true => exact ⟨fun h => ⟨rfl, h⟩, And.right⟩
  | false => exact ⟨fun h => (nomatch h), fun h => (nomatch h.1)⟩

theorem check_then_ok {ok : Bool} {name : String} {f : Unit → Except Exn Unit} :
    (check ok name >>= f) = .ok () ↔ ok = true ∧ f () = .ok () := by
  cases ok with
  | true => exact ⟨fun h => ⟨rfl, h⟩, And.right⟩
  | false => exact ⟨fun h => (nomatch h), fun h => (nomatch h.1)⟩

theorem check_ok_iff {ok : Bool} {name : String} : check ok name = .ok () ↔ ok = true := by
  cases ok with
  | true => exact ⟨fun _ => rfl, fun _ => rfl⟩
  | false => exact ⟨fun h => (nomatch h), fun h => (nomatch h)⟩

theorem fits_then_noRange {ok : Bool} {column : String} {f : Unit → Except Exn Unit} :
    NoRange (fits ok column >>= f) ↔ ok = true ∧ NoRange (f ()) := by
  cases ok with
  | true => exact ⟨fun h => ⟨rfl, h⟩, And.right⟩
  | false => exact ⟨fun h => absurd rfl (h _ rfl), fun h => nomatch h.1⟩

/-- A CHECK constraint is no matter of ranges. -/
theorem check_noRange (ok : Bool) (name : String) : NoRange (check ok name) := by
  cases ok with
  | true => exact fun e h => nomatch h
  | false =>
      intro e h
      obtain rfl := Except.error.inj h
      exact fun hc => nomatch hc

theorem check_then_noRange {ok : Bool} {name : String} {f : Unit → Except Exn Unit}
    (h : NoRange (f ())) : NoRange (check ok name >>= f) := by
  cases ok with
  | true => exact h
  | false => exact check_noRange false name

/-- The range of an INTEGER column, where there are no negative values. -/
theorem inInt4_iff {n : Int} (h : 0 ≤ n) : inInt4 n = true ↔ n ≤ int4Max := by
  unfold inInt4 int4Max
  rw [decide_eq_true_eq]
  omega

/-- A stock row that the table accepts. -/
structure Accepted (s : Stock) : Prop where
  price : 0 ≤ s.price_minor_units
  price_le : s.price_minor_units ≤ int4Max
  available : 0 ≤ s.available
  available_le : s.available ≤ int4Max
  version : 0 ≤ s.version
  version_le : s.version ≤ int4Max
  currency : s.currency.length ≤ 3

theorem accepted_iff {s : Stock} : s.violation = .ok () ↔ Accepted s := by
  unfold Stock.violation
  simp only [fits_then_ok, check_then_ok, check_ok_iff, decide_eq_true_eq]
  constructor
  · rintro ⟨hprice, havail, hversion, hcurrency, ha, hp, hv⟩
    exact ⟨hp, (inInt4_iff hp).mp hprice, ha, (inInt4_iff ha).mp havail, hv,
      (inInt4_iff hv).mp hversion, hcurrency⟩
  · intro h
    exact ⟨(inInt4_iff h.price).mpr h.price_le, (inInt4_iff h.available).mpr h.available_le,
      (inInt4_iff h.version).mpr h.version_le, h.currency, h.available, h.price, h.version⟩

/-- The values of an order that the columns can hold. -/
structure InRange (o : Order) : Prop where
  quantity : inInt4 o.quantity = true
  expected_version : inInt4 o.expected_version = true
  total : inInt4 o.total_amount_minor_units = true
  currency : o.currency.length ≤ 3

/-- **An order is refused for a range** unless its values are in range. -/
theorem noRange_order_iff {o : Order} : NoRange o.violation ↔ InRange o := by
  unfold Order.violation
  simp only [fits_then_noRange, decide_eq_true_eq]
  constructor
  · rintro ⟨hquantity, hversion, htotal, hcurrency, -⟩
    exact ⟨hquantity, hversion, htotal, hcurrency⟩
  · intro h
    exact ⟨h.quantity, h.expected_version, h.total, h.currency,
      check_then_noRange (check_noRange _ _)⟩

/-- The flush that inserts an order says what the row's constraints say, or that
its key is taken. -/
theorem flush_noRange_iff {o : Order} :
    (∀ (τ : Type) [DecidableEq τ] (store : TxStore Row τ) (t : τ) (now : Int) (e : Exn),
      World.flushOne now store t (.insert (.order o)) = some (.error e) → e.cls ≠ .dataError)
    ↔ NoRange o.violation := by
  constructor
  · intro h e he
    have hrow : (Row.order o).violation = .error e := he
    -- an empty table refuses nothing but the values
    refine h Unit (TxStore.ofTable ⟨[], List.nodup_nil⟩) () 0 e ?_
    simp only [World.flushOne, World.stamp, World.insertRow, hrow]
  · intro h τ _ store t now e he
    simp only [World.flushOne, World.stamp, World.insertRow, World.reserveDedupe] at he
    split at he
    next e' hrow =>
      obtain rfl := Except.error.inj (Option.some.inj he)
      exact h _ hrow
    next =>
      split at he
      next =>
        obtain rfl := Except.error.inj (Option.some.inj he)
        intro hc
        cases hc
      next =>
        obtain ⟨store', -, hok⟩ := Option.map_eq_some_iff.mp he
        cases hok

/-! ## §3. What a reservation succeeds with. -/

section

variable {τ : Type} [DecidableEq τ] {t : τ} {w w' : World τ} {ms : Moves τ}

/-- What a successful reservation says of the row `s` it was made from. -/
structure Bounded (s : Stock) (quantity : Int) (reserve_result : ReserveResult) : Prop where
  positive : 0 < quantity
  available : quantity ≤ s.available
  version : s.version + 1 ≤ int4Max
  new_version : reserve_result.new_version = s.version + 2

/-- **The UPDATE of a `reserve` that returns** has matched a row of the version of
`s`, and has changed the loaded object as well. -/
theorem runs_reserveRow_ok {request : ReserveRequest} {s : Stock} {reserve_result : ReserveResult}
    (hversion : request.expected_version = s.version) (henough : request.quantity ≤ s.available)
    (hobj : (w.session t).objs (.stock request.stock_id) = some (.stock s))
    (h : Runs t (reserveRow request s) w ms (.ok reserve_result) w') :
    s.version + 1 ≤ int4Max ∧ reserve_result.new_version = s.version + 2 := by
  obtain ⟨u, rest, r₀, w₂, rfl, hou, heu, ⟨rowcount, rfl, h₃⟩ | ⟨x, -, -, hx, -⟩⟩ := runs_next h
  · simp only [exec] at heu
    split at heu
    next => cases (Prod.mk.inj (Option.some.inj heu)).1
    next =>
      rcases updateStock_cases heu with ⟨hr, -, -⟩ | ⟨e, hr, -⟩ |
        ⟨row, store, -, hcond, hok, -, hr, rfl⟩
      · -- no row matched: the race is lost
        obtain rfl := Except.ok.inj hr
        cases (runs_ret h₃).2.1
      · cases hr
      · obtain rfl := Except.ok.inj hr
        obtain ⟨l, rest', r₁, w₃, rfl, hol, hel, hloaded⟩ := runs_next h₃
        obtain ⟨rfl, rfl⟩ := Prod.mk.inj (Option.some.inj hel)
        rcases hloaded with ⟨row', hrow', h₄⟩ | ⟨x, hx, -⟩
        · -- the attributes are those of the object that the UPDATE has changed
          have hsync : (l.state.session t).objs (.stock request.stock_id)
              = some (.stock (s.reserve request.quantity)) := by
            rw [session_of_local hol]
            show (World.session _ t).objs _ = _
            unfold World.synced
            rw [World.setSession_self]
            refine syncStock_reserve ?_ hversion.symm henough
            rw [session_of_local hou]
            exact hobj
          obtain rfl := Except.ok.inj hrow'
          obtain ⟨-, hresult, -⟩ := runs_ret h₄
          obtain rfl := Except.ok.inj hresult
          constructor
          · obtain ⟨hv, -⟩ := Bool.and_eq_true_iff.mp hcond
            have hrow : row.version = s.version := (of_decide_eq_true hv).trans hversion
            rw [← hrow]
            exact (accepted_iff.mp hok).version_le
          · rw [hsync]
            show s.version + 1 + 1 = s.version + 2
            omega
        · cases hx
  · cases hx

/-- **A `reserve` that returns**, the row being loaded as `s`. -/
theorem runs_reserved {request : ReserveRequest} {s : Stock} {reserve_result : ReserveResult}
    (hversion : request.expected_version = s.version)
    (hobj : (w.session t).objs (.stock request.stock_id) = some (.stock s))
    (h : Runs t (reserve request) w ms (.ok reserve_result) w') :
    Bounded s request.quantity reserve_result := by
  rcases runs_reserve hversion hobj h with ⟨e, he, -⟩ | ⟨-, he, -⟩ |
    ⟨hpos, henough, m, rest, w₁, rfl, -, hread, hrow⟩
  · cases he
  · cases he
  · obtain ⟨hmax, hnew⟩ := runs_reserveRow_ok hversion henough hread.loaded hrow
    exact ⟨hpos, henough, hmax, hnew⟩

theorem runs_takeStock {request : PlaceOrderRequest} {s : Stock} {reserve_result : ReserveResult}
    (h : Runs t (takeStock request) w ms (.ok (s, reserve_result)) w') :
    Bounded s request.quantity reserve_result := by
  rcases runs_bind h with ⟨ms₁, ms₂, stock, w₁, rfl, h₁, h₂⟩ | ⟨e, he, -⟩
  · obtain ⟨m, rfl, ⟨e, hr, -⟩ | ⟨s₀, hr, hread⟩⟩ := runs_getStock h₁
    · cases hr
    · obtain rfl := Except.ok.inj hr
      rcases runs_bind h₂ with ⟨ms₃, ms₄, rr, w₂, rfl, h₃, h₄⟩ | ⟨e, he, -⟩
      · obtain ⟨-, hres, -⟩ := runs_ret h₄
        obtain ⟨rfl, rfl⟩ := Prod.mk.inj (Except.ok.inj hres)
        exact runs_reserved rfl hread.loaded h₃
      · cases he
  · cases he

/-! ## §4. A reservation that succeeds. -/

/-- A path that the others stay away from, one operation on. -/
theorem exists_runs_call {α : Type} {op : Op} {k : Except Exn (Ans op) → Svc α} {c : Choice}
    {r : Except Exn (Ans op)} {r' : Except Exn α} {w₁ : World τ}
    (he : exec c t op w = some (r, w₁)) (h : ∃ ms w', Runs t (k r) w₁ ms r' w') :
    ∃ ms w', Runs t (.call op k) w ms r' w' := by
  obtain ⟨ms, w', h⟩ := h
  exact ⟨⟨w, c⟩ :: ms, w', rfl, r, w₁, he, h⟩

theorem exec_select_row {c : Choice} {k : RowKey} {row : Row} (obj : Row) (hf : c.fault = none)
    (hview : w.store.view t k = some row) (hobj : ((w.session t).objs k).getD row = obj) :
    exec c t (.select k false) w
      = some (.ok (some obj), w.setSession t ((w.session t).load k obj)) := by
  subst hobj
  simp only [exec, hf, World.select, hview]
  rfl

theorem exec_updateStock_row {c : Choice} {u : StockUpdate} {s : Stock} {store : TxStore Row τ}
    (hf : c.fault = none) (hview : w.store.view t (.stock u.id) = some (.stock s))
    (hcond : u.cond s = true) (hput : w.store.put t (.stock (u.set s)) = some store)
    (hok : (u.set s).violation = .ok ()) :
    exec c t (.updateStock u) w = some (.ok (1 : Nat), { w.synced t u with store := store }) := by
  simp only [exec, hf, World.updateStock, hview, hcond, hput, hok]
  rfl

/-- A row that is the only one. -/
def only (s : Stock) : World Unit := World.init ⟨[.stock s], List.nodup_singleton _⟩

/-- The row after a reservation is accepted, too. -/
theorem Accepted.reserve {s : Stock} {quantity : Int} (hs : Accepted s) (hpos : 0 < quantity)
    (havail : quantity ≤ s.available) (hversion : s.version + 1 ≤ int4Max) :
    Accepted (s.reserve quantity) := by
  have hle := hs.available_le
  have hv := hs.version
  refine ⟨hs.price, hs.price_le, ?_, ?_, ?_, hversion, hs.currency⟩
  · show 0 ≤ s.available - quantity
    omega
  · show s.available - quantity ≤ int4Max
    omega
  · show 0 ≤ s.version + 1
    omega

/-- **Every quantity that is there can be reserved**, while the version can be
raised. -/
theorem taken_of_row {s : Stock} (request : PlaceOrderRequest) (hs : Accepted s)
    (hid : request.stock_id = s.id) (hpos : 0 < request.quantity)
    (havail : request.quantity ≤ s.available) (hversion : s.version + 1 ≤ int4Max) :
    ∃ reserve_result, Taken s request reserve_result := by
  let u := reserveUpdate ⟨request.stock_id, request.quantity, s.version⟩
  have hview : (only s).store.view () (.stock request.stock_id) = some (.stock s) := by
    rw [hid]
    simp [only, World.init, TxStore.ofTable, TxStore.view, Table.lookup]
  have hcond : u.cond s = true :=
    Bool.and_eq_true_iff.mpr ⟨decide_eq_true rfl, decide_eq_true havail⟩
  obtain ⟨store, hput⟩ : ∃ store, (only s).store.put () (.stock (u.set s)) = some store :=
    ⟨_, rfl⟩
  have hok : (u.set s).violation = .ok () :=
    accepted_iff.mpr (hs.reserve hpos havail hversion)
  let result : ReserveResult := ⟨s.version + 1 + 1, s.available - request.quantity - request.quantity⟩
  suffices hruns : ∃ ms w', Runs () (takeStock request) (only s) ms (.ok (s, result)) w' by
    obtain ⟨ms, w', hruns⟩ := hruns
    exact ⟨result, Unit, inferInstance, (), only s, ms, w', hruns⟩
  have hload : ∀ w : World Unit,
      ((w.setSession () ((w.session ()).load (.stock request.stock_id) (.stock s))).session ()).objs
        (.stock request.stock_id) = some (.stock s) := by
    intro w
    rw [World.setSession_self]
    exact Function.update_self ..
  -- `get_stock`, and `reserve` reads the object again
  refine exists_runs_call (c := {}) (exec_select_row (.stock s) rfl hview rfl) ?_
  show ∃ ms w', Runs () (reserve ⟨request.stock_id, request.quantity, s.version⟩ >>= _) _ ms _ w'
  unfold reserve
  rw [if_neg (Int.not_le.mpr hpos)]
  refine exists_runs_call (c := {}) (exec_select_row (.stock s) rfl hview
    (congrArg (fun o => o.getD (Row.stock s)) (hload (only s)))) ?_
  show ∃ ms w', Runs () ((if s.version ≠ s.version then _ else
    if s.available < request.quantity then _ else
      reserveRow ⟨request.stock_id, request.quantity, s.version⟩ s) >>= _) _ ms _ w'
  rw [if_neg (not_not.mpr rfl), if_neg (Int.not_lt.mpr havail)]
  -- the UPDATE changes the row and the object
  refine exists_runs_call (c := {}) (exec_updateStock_row rfl hview hcond hput hok) ?_
  refine exists_runs_call (c := {}) rfl ?_
  have hsync : ∀ w : World Unit, (w.session ()).objs (.stock request.stock_id) = some (.stock s) →
      ((w.synced () u).session ()).objs (.stock request.stock_id)
        = some (.stock (s.reserve request.quantity)) := by
    intro w hw
    unfold World.synced
    rw [World.setSession_self]
    exact syncStock_reserve hw rfl havail
  show ∃ ms w', Runs () (.ret (.ok (s, ReserveResult.mk (((asStock _).getD s).version + 1)
    (((asStock _).getD s).available - request.quantity)))) _ ms _ w'
  refine ⟨[], _, ?_, rfl⟩
  rw [show (World.session _ ()).objs (.stock request.stock_id) = _ from hsync _ (hload _)]
  rfl

end

/-! ## §5. Every stock row. -/

/-- The order that the loop returns is made of such a reservation. -/
theorem order_of_attempts {τ : Type} [DecidableEq τ] {t : τ} {w' : World τ} {uuid5 : Uuid5}
    {request : PlaceOrderRequest} {res : PlaceOrderResult} :
    ∀ (n : Nat) {last_exc : Option Exn} {w : World τ} {ms : Moves τ},
      Runs t (attempts uuid5 request n last_exc) w ms (.ok res) w' →
      ∃ s reserve_result id, Taken s request reserve_result
        ∧ res.order = newOrder request s reserve_result id := by
  intro n
  induction n with
  | zero =>
      intro last_exc w ms h
      cases last_exc with
      | none => cases (runs_ret h).2.1
      | some exc => cases (runs_ret h).2.1
  | succ n ih =>
      intro last_exc w ms h
      rcases runs_bind h with ⟨ms₁, ms₂, s, w₁, rfl, h₁, h₂⟩ | ⟨e, he, -⟩
      · obtain ⟨ms₃, ms₄, r₁, w₂, rfl, h₃, h₄⟩ := runs_handle h₂
        cases r₁ with
        | ok reserve_result =>
            -- the two calls are a turn up to the reservation
            have hreturn : Runs t (pure (s, reserve_result)) w₂ [] (.ok (s, reserve_result)) w₂ :=
              path_nil _ w₂
            have htaken : Runs t (takeStock request) w (ms₁ ++ (ms₃ ++ []))
                (.ok (s, reserve_result)) w₂ := runs_then h₁ (runs_then h₃ hreturn)
            rcases runs_recordOrder h₄ with ⟨x, hx, -⟩ | ⟨id, outbox, envelope, hx⟩
            · cases hx
            · obtain rfl := Except.ok.inj hx
              exact ⟨s, reserve_result, id, ⟨τ, inferInstance, t, w, _, w₂, htaken⟩, rfl⟩
        | error exc =>
            change Runs t (if exc.isA .concurrentUpdateError then _ else _) w₂ ms₄ (.ok res) w' at h₄
            split at h₄
            · exact ih h₄
            · cases (runs_ret h₄).2.1
      · cases he

/-- So is the order of `place_order`. -/
theorem order_of_placeOrder {τ : Type} [DecidableEq τ] {t : τ} {w w' : World τ} {uuid5 : Uuid5}
    {request : PlaceOrderRequest} {res : PlaceOrderResult} {ms : Moves τ}
    (h : Runs t (placeOrder uuid5 request) w ms (.ok res) w') :
    ∃ s reserve_result id, Taken s request reserve_result
      ∧ res.order = newOrder request s reserve_result id := by
  unfold placeOrder at h
  split_ifs at h with hq
  · cases (runs_ret h).2.1
  · -- after the search path comes the loop
    rw [withSchemas_eq] at h
    obtain ⟨m, rest, r, w₁, -, -, -, hpath⟩ := runs_next h
    rcases hpath with ⟨u, -, h₁⟩ | ⟨e, -, -, he, -⟩
    · exact order_of_attempts maxReserveRetries h₁
    · cases he

/-- What a reservation made of the row `s` succeeds with. -/
theorem Taken.bounded {s : Stock} {request : PlaceOrderRequest} {reserve_result : ReserveResult}
    (h : Taken s request reserve_result) : Bounded s request.quantity reserve_result := by
  obtain ⟨τ, _, t, w, ms, w', hruns⟩ := h
  exact runs_takeStock hruns

/-- The order of a reservation is in range when its total and its version are. -/
theorem inRange_newOrder {s : Stock} {request : PlaceOrderRequest} {reserve_result : ReserveResult}
    (hs : Accepted s) (hb : Bounded s request.quantity reserve_result)
    (htotal : s.price_minor_units * request.quantity ≤ int4Max)
    (hversion : s.version + 2 ≤ int4Max) (id : Uuid) :
    InRange (newOrder request s reserve_result id) := by
  have hpos := hb.positive
  have hle := hb.available
  have hmax := hs.available_le
  have hv := hs.version
  refine ⟨?_, ?_, ?_, hs.currency⟩
  · exact (inInt4_iff (by omega : 0 ≤ request.quantity)).mpr (by omega)
  · show inInt4 reserve_result.new_version = true
    rw [hb.new_version]
    exact (inInt4_iff (by omega)).mpr hversion
  · exact (inInt4_iff (Int.mul_nonneg hs.price (by omega))).mpr htotal

/-- If every order can be stored, so can the one of all that is available. -/
theorem bounds_of_fits {s : Stock} (ha : Accepted s) (hfits : OrderFits s) :
    s.available = 0 ∨ s.version = int4Max
      ∨ (s.price_minor_units * s.available ≤ int4Max ∧ s.version + 2 ≤ int4Max) := by
  by_cases hnone : s.available = 0
  · exact Or.inl hnone
  by_cases hlast : s.version = int4Max
  · exact Or.inr (Or.inl hlast)
  -- everything can be reserved at once
  have havail := ha.available
  have hversion := ha.version_le
  have hpos : 0 < s.available := by omega
  obtain ⟨reserve_result, htaken⟩ := taken_of_row ⟨Uuid.ofNat 0, s.id, s.available⟩ ha rfl hpos
    (Int.le_refl _) (by omega)
  have hflush := flush_noRange_iff.mp (hfits.flush _ _ htaken (Uuid.ofNat 0))
  have hrange := noRange_order_iff.mp hflush
  refine Or.inr (Or.inr ⟨?_, ?_⟩)
  · exact (inInt4_iff (Int.mul_nonneg ha.price havail)).mp (hfits.total _ _ htaken)
  · have hexpected : inInt4 reserve_result.new_version = true := hrange.expected_version
    have hv := ha.version
    rw [htaken.bounded.new_version] at hexpected
    exact (inInt4_iff (by omega)).mp hexpected

/-- Within these bounds no order is too large. -/
theorem fits_of_bounds {s : Stock} (ha : Accepted s)
    (hcond : s.available = 0 ∨ s.version = int4Max
      ∨ (s.price_minor_units * s.available ≤ int4Max ∧ s.version + 2 ≤ int4Max)) : OrderFits s := by
  have hall : ∀ request reserve_result, Taken s request reserve_result →
      s.price_minor_units * request.quantity ≤ int4Max ∧ s.version + 2 ≤ int4Max := by
    intro request reserve_result htaken
    have hb := htaken.bounded
    have hpos := hb.positive
    have hle := hb.available
    have hversion := hb.version
    rcases hcond with hnone | hlast | ⟨hprice, hnext⟩
    · omega
    · omega
    · exact ⟨(Int.mul_le_mul_of_nonneg_left hle ha.price).trans hprice, hnext⟩
  constructor
  · intro request reserve_result htaken
    have hpos := htaken.bounded.positive
    exact (inInt4_iff (Int.mul_nonneg ha.price (by omega))).mpr (hall _ _ htaken).1
  · intro request reserve_result htaken id
    have hrange := inRange_newOrder ha htaken.bounded (hall _ _ htaken).1 (hall _ _ htaken).2 id
    exact flush_noRange_iff.mpr (noRange_order_iff.mpr hrange)

/-- **Which stock rows make orders that can be stored.**  Of a row that its table
accepts, every reservation makes an order whose total fits its column, and which
no flush refuses for a range, exactly when no reservation can succeed, or the
price of all that is available fits, and the version two reservations on.  And
every order that `place_order` returns is made of a reservation. -/
theorem totals_iff {s : Stock} (hs : s.violation = .ok ()) :
    (OrderFits s ↔ s.available = 0 ∨ s.version = int4Max
      ∨ (s.price_minor_units * s.available ≤ int4Max ∧ s.version + 2 ≤ int4Max))
    ∧ ∀ {τ : Type} [DecidableEq τ] {t : τ} {w w' : World τ} {uuid5 : Uuid5}
        {request : PlaceOrderRequest} {res : PlaceOrderResult} {ms : Moves τ},
        Runs t (placeOrder uuid5 request) w ms (.ok res) w' →
        ∃ s reserve_result id, Taken s request reserve_result
          ∧ res.order = newOrder request s reserve_result id := by
  have ha := accepted_iff.mp hs
  exact ⟨⟨bounds_of_fits ha, fits_of_bounds ha⟩, order_of_placeOrder⟩

/-- A row of which all can be sold. -/
theorem totals_iff_ten :
    OrderFits tenStock ↔ tenStock.available = 0 ∨ tenStock.version = int4Max
      ∨ (tenStock.price_minor_units * tenStock.available ≤ int4Max
        ∧ tenStock.version + 2 ≤ int4Max) := (totals_iff rfl).1

/-- A hundred pieces for a million each. -/
def costlyStock : Stock := ⟨Uuid.ofNat 1, 100000000, "EUR", 100, 0⟩

/-- Ordering all of them needs a total of ten thousand million minor units. -/
theorem totals_overflow : ¬ ∀ s : Stock, s.violation = .ok () → OrderFits s := by
  intro h
  have hfits := h costlyStock rfl
  obtain ⟨reserve_result, htaken⟩ := taken_of_row ⟨Uuid.ofNat 0, costlyStock.id, 100⟩
    (accepted_iff.mp rfl) rfl (by decide) (by decide) (by decide)
  exact absurd (hfits.total _ _ htaken) (by decide)

end Nimbus
