/-
  Nimbus.Modules.Inventory
  ────────────────────────
  **RESERVING AND RELEASING STOCK.**

  The inventory services: `reserve` with its optimistic lock, and `release`,
  which looks at no version.

    • `reserve`, `release`, `getStock`
    • `reserve_wlp` — when `reserve` returns, its transaction holds exactly one
                      write, made on the committed row it matched; when it
                      raises, none;
    • `release_wlp` — the same for `release`;
    • `reserve_computed` — what the result of `reserve` is computed from.
-/
import Nimbus.Core.Statements

namespace Nimbus.Inventory

open Lib Lib.Prog

/-! ## §1. Requests. -/

structure ReserveRequest where
  stock_id : Uuid
  quantity : Int
  expected_version : Int

structure ReserveResult where
  new_version : Int
  new_available : Int

structure ReleaseRequest where
  stock_id : Uuid
  quantity : Int
  expected_version : Int

def quantityNotPositive : Exn := ⟨.valueError, "quantity must be > 0", []⟩

def stockNotFound (stock_id : Uuid) : Exn :=
  ⟨.stockNotFoundError, "Stock does not exist.", [("stock_id", .str stock_id.str)]⟩

def staleVersion (request : ReserveRequest) (actual : Int) : Exn :=
  ⟨.concurrentUpdateError, "Stock was modified by another transaction.",
    [("stock_id", .str request.stock_id.str), ("expected_version", .int request.expected_version),
      ("actual_version", .int actual)]⟩

def insufficientStock (request : ReserveRequest) (available : Int) : Exn :=
  ⟨.outOfStockError, "Insufficient stock.",
    [("stock_id", .str request.stock_id.str), ("requested", .int request.quantity),
      ("available", .int available)]⟩

def lostRace (request : ReserveRequest) : Exn :=
  ⟨.concurrentUpdateError, "Stock was modified concurrently (race).",
    [("stock_id", .str request.stock_id.str)]⟩

/-! ## §2. Services. -/

/-- The stock object of a query result. -/
def asStock : Option Row → Option Stock
  | some (.stock s) => some s
  | _ => none

theorem asStock_some {row : Row} {s : Stock} (h : asStock (some row) = some s) : row = .stock s := by
  cases row with
  | stock s' => rw [Option.some.inj h]
  | order o => cases h
  | payment p => cases h
  | outbox e => cases h

/-- `_read_stock`. -/
def readStock (stock_id : Uuid) : Svc (Option Stock) := do
  let row ← Svc.select (.stock stock_id) false
  return asStock row

/-- The UPDATE of `reserve`. -/
def reserveUpdate (request : ReserveRequest) : StockUpdate where
  id := request.stock_id
  cond := fun s => s.version = request.expected_version && request.quantity ≤ s.available
  set := fun s => s.reserve request.quantity
  keeps_id := fun _ => rfl

/-- The UPDATE of `release`. -/
def releaseUpdate (request : ReleaseRequest) : StockUpdate where
  id := request.stock_id
  cond := fun _ => true
  set := fun s => s.release request.quantity
  keeps_id := fun _ => rfl

/-- The UPDATE of `reserve` and what follows it; `stock` is the object read. -/
def reserveRow (request : ReserveRequest) (stock : Stock) : Svc ReserveResult := do
  let rowcount ← Svc.updateStock (reserveUpdate request)
  if rowcount ≠ 1 then throw (lostRace request)
  else do
    -- the attributes of the object as the UPDATE left them
    let row ← Svc.loaded (.stock request.stock_id)
    let stock := (asStock row).getD stock
    return ⟨stock.version + 1, stock.available - request.quantity⟩

/-- `reserve`. -/
def reserve (request : ReserveRequest) : Svc ReserveResult :=
  if request.quantity ≤ 0 then throw quantityNotPositive
  else do
    let found ← readStock request.stock_id
    match found with
    | none => throw (stockNotFound request.stock_id)
    | some stock =>
        if stock.version ≠ request.expected_version then throw (staleVersion request stock.version)
        else if stock.available < request.quantity then
          throw (insufficientStock request stock.available)
        else reserveRow request stock

/-- `release`. -/
def release (request : ReleaseRequest) : Svc Int :=
  if request.quantity ≤ 0 then throw quantityNotPositive
  else do
    let rowcount ← Svc.updateStock (releaseUpdate request)
    if rowcount = 0 then return -1 else return 0

/-- `get_stock`. -/
def getStock (stock_id : Uuid) : Svc Stock := do
  let found ← readStock stock_id
  match found with
  | none => throw (stockNotFound stock_id)
  | some stock => return stock

/-! ## §3. What is left in the transaction. -/

/-- The one write of a successful `reserve`, on the committed row it matched. -/
structure Reserved (request : ReserveRequest) (s : Stock) (l : Local) : Prop where
  positive : 0 < request.quantity
  id : s.id = request.stock_id
  locked : l.part.locked (.stock request.stock_id) = some (some (.stock s))
  version : s.version = request.expected_version
  available : request.quantity ≤ s.available
  writes : l.part.writes = [.stock (s.reserve request.quantity)]
  pending : l.session.pending = []

/-- What `reserve` leaves behind. -/
def reservePost (request : ReserveRequest) (r : Except Exn ReserveResult) (l : Local) : Prop :=
  match r with
  | .ok _ => ∃ s, Reserved request s l
  | .error _ => l.Untouched

/-- What `release` leaves behind: one write, or none where the stock row was
missing from the committed rows `T` it met; the rest is as `before`. -/
structure Released (J : Table Row → Prop) (request : ReleaseRequest) (before l : Local) : Prop where
  pending : l.session.pending = before.session.pending
  locked : ∀ k, k ≠ .stock request.stock_id → l.part.locked k = before.part.locked k
  positive : 0 < request.quantity
  writes : (l.part.writes = [] ∧ ∃ T, J T ∧ before.SeenIn T
        ∧ T.lookup (.stock request.stock_id) = none)
    ∨ ∃ s : Stock, s.id = request.stock_id
        ∧ l.part.locked (.stock request.stock_id) = some (some (.stock s))
        ∧ l.part.writes = [.stock (s.release request.quantity)]

/-- What `release` leaves behind, on every outcome. -/
def releasePost (J : Table Row → Prop) (request : ReleaseRequest) (before : Local)
    (r : Except Exn Int) (l : Local) : Prop :=
  match r with
  | .ok _ => Released J request before l
  | .error _ => l.part.writes = [] ∧ l.session.pending = before.session.pending

variable {τ : Type} [DecidableEq τ] {t : τ} {J : Table Row → Prop} {l : Local}

/-- A read leaves the transaction untouched. -/
theorem readStock_wlp (stock_id : Uuid) (hl : l.Untouched) :
    wlp (setting J t) anywhere (fun _ l' => l'.Untouched) (readStock stock_id) l := by
  refine wlp_select trivial (fun _ => hl) ⟨trivial, hl⟩ fun row _ => ?_
  exact ⟨trivial, Local.load_untouched hl⟩

theorem getStock_wlp (stock_id : Uuid) (hl : l.Untouched) :
    wlp (setting J t) anywhere (fun _ l' => l'.Untouched) (getStock stock_id) l := by
  refine wlp_bind (readStock_wlp stock_id hl) (fun _ _ h => h) fun found l' _ hl' => ?_
  cases found with
  | none => exact ⟨trivial, hl'⟩
  | some stock => exact ⟨trivial, hl'⟩

/-- The UPDATE of `reserve` writes the row it matched, or nothing. -/
theorem reserveRow_wlp (request : ReserveRequest) (stock : Stock) (hq : 0 < request.quantity)
    (hl : l.Untouched) :
    wlp (setting J t) anywhere (reservePost request) (reserveRow request stock) l := by
  refine wlp_updateStock trivial hl.1 (fun _ => hl) ?_ fun s hid hc => ?_
  · intro _ _ _ _
    exact ⟨trivial, Local.sync_untouched hl⟩
  · obtain ⟨hv, ha⟩ := Bool.and_eq_true_iff.mp hc
    refine wlp_loaded trivial ⟨trivial, s, ?_⟩
    have hkey := (reserveUpdate request).key_set hid
    refine ⟨hq, hid, ?_, of_decide_eq_true hv, of_decide_eq_true ha, ?_, hl.2⟩
    · exact hkey ▸ TxPart.put_locked _ _ _
    · show Row.stock _ :: l.part.writes = _
      rw [hl.1]
      rfl

/-- **When `reserve` returns, its transaction holds one write on the committed
row it matched; when it raises, none.** -/
theorem reserve_wlp (request : ReserveRequest) (hl : l.Untouched) :
    wlp (setting J t) anywhere (reservePost request) (reserve request) l := by
  unfold reserve
  split
  next => exact ⟨trivial, hl⟩
  next hq =>
    refine wlp_bind (readStock_wlp request.stock_id hl) (fun _ _ h => h) fun found l' _ hl' => ?_
    cases found with
    | none => exact ⟨trivial, hl'⟩
    | some stock =>
        show wlp _ _ _ (if _ then _ else if _ then _ else _) l'
        split_ifs
        · exact ⟨trivial, hl'⟩
        · exact ⟨trivial, hl'⟩
        · exact reserveRow_wlp request stock (by omega) hl'

/-- **`release` writes the committed row, or nothing.** -/
theorem release_wlp (request : ReleaseRequest) (hw : l.part.writes = []) :
    wlp (setting J t) anywhere (releasePost J request l) (release request) l := by
  unfold release
  split
  next => exact ⟨trivial, hw, rfl⟩
  next hq =>
    have hpos : 0 < request.quantity := by omega
    refine wlp_updateStock trivial hw (fun _ => ⟨hw, rfl⟩) ?_ fun s hid _ => ?_
    · intro T hJ hseen hno
      -- a release asks for no version, so only a missing row is not matched
      have hmissing : T.lookup (.stock request.stock_id) = none := by
        cases hrow : T.lookup (.stock request.stock_id) with
        | none => rfl
        | some row =>
            obtain ⟨s, rfl, -⟩ := stock_of_lookup hrow
            exact absurd (hno s hrow) (fun h => nomatch h)
      exact ⟨trivial, rfl, fun _ _ => rfl, hpos, Or.inl ⟨hw, T, hJ, hseen, hmissing⟩⟩
    · have hkey := (releaseUpdate request).key_set hid
      refine ⟨trivial, rfl, fun k hk => ?_, hpos, Or.inr ⟨s, hid, ?_, ?_⟩⟩
      · exact TxPart.put_locked_ne _ _ (hkey ▸ hk)
      · exact hkey ▸ TxPart.put_locked _ _ _
      · show Row.stock _ :: l.part.writes = _
        rw [hw]
        rfl

/-! ## §4. What `reserve` returns. -/

/-- The object `read` that a `reserve` which has returned had loaded: it passed
both checks, the UPDATE has applied its SET clause to it, and the result is
computed from it after that. -/
structure Computed (request : ReserveRequest) (result : ReserveResult) (read : Stock) (l : Local) :
    Prop where
  version : read.version = request.expected_version
  available : request.quantity ≤ read.available
  loaded : l.session.objs (.stock request.stock_id)
    = some (.stock (read.reserve request.quantity))
  result : result = ⟨(read.reserve request.quantity).version + 1,
    (read.reserve request.quantity).available - request.quantity⟩

/-- What a `reserve` that returns has computed its result from. -/
def computedPost (request : ReserveRequest) (r : Except Exn ReserveResult) (l : Local) : Prop :=
  match r with
  | .ok result => ∃ read, Computed request result read l
  | .error _ => True

/-- The object a read answers with is the one that stays loaded. -/
theorem readStock_loaded (stock_id : Uuid) :
    wlp (setting J t) anywhere (fun r l' => ∀ stock, r = .ok (some stock) →
      l'.session.objs (.stock stock_id) = some (.stock stock)) (readStock stock_id) l := by
  refine wlp_select trivial (fun _ _ hc => nomatch hc) ⟨trivial, fun _ hc => nomatch hc⟩ ?_
  intro row _
  refine ⟨trivial, fun stock hstock => ?_⟩
  have hfound : asStock (some (l.object (.stock stock_id) row)) = some stock :=
    Except.ok.inj hstock
  unfold Local.load
  show Function.update l.session.objs _ (some (l.object (.stock stock_id) row)) _ = _
  rw [Function.update_self]
  rw [asStock_some hfound]

/-- The object that passed the checks satisfies the WHERE clause, so the UPDATE
changes it too. -/
theorem syncStock_reserve {request : ReserveRequest} {read : Stock}
    {objs : RowKey → Option Row} (hobj : objs (.stock request.stock_id) = some (.stock read))
    (hv : read.version = request.expected_version) (ha : request.quantity ≤ read.available) :
    World.syncStock objs (reserveUpdate request) (.stock request.stock_id)
      = some (.stock (read.reserve request.quantity)) := by
  have hcond : (reserveUpdate request).cond read = true :=
    Bool.and_eq_true_iff.mpr ⟨decide_eq_true hv, decide_eq_true ha⟩
  have hid : (reserveUpdate request).id = request.stock_id := rfl
  unfold World.syncStock
  rw [hid, hobj]
  show (if (reserveUpdate request).cond read = true then Function.update objs _ _ else objs) _ = _
  rw [if_pos hcond]
  exact Function.update_self ..

theorem reserveRow_computed (request : ReserveRequest) (read : Stock)
    (hw : l.part.writes = [])
    (hobj : l.session.objs (.stock request.stock_id) = some (.stock read))
    (hv : read.version = request.expected_version) (ha : request.quantity ≤ read.available) :
    wlp (setting J t) anywhere (computedPost request) (reserveRow request read) l := by
  refine wlp_updateStock trivial hw (fun _ => trivial) ?_ fun s _ _ => ?_
  · intro _ _ _ _
    exact ⟨trivial, trivial⟩
  · have hsync : (l.sync (reserveUpdate request)).session.objs (.stock request.stock_id)
        = some (.stock (read.reserve request.quantity)) := syncStock_reserve hobj hv ha
    refine wlp_loaded trivial ⟨trivial, read, hv, ha, hsync, ?_⟩
    -- the attributes are read after the UPDATE
    show ReserveResult.mk (((asStock _).getD read).version + 1) (((asStock _).getD read).available
      - request.quantity) = _
    rw [show ((l.sync (reserveUpdate request)).put _ _).session.objs _ = _ from hsync]
    rfl

/-- **The result of `reserve` is computed from an object that the UPDATE has
changed already.** -/
theorem reserve_computed (request : ReserveRequest) (hw : l.Untouched) :
    wlp (setting J t) anywhere (computedPost request) (reserve request) l := by
  unfold reserve
  split
  next => exact ⟨trivial, trivial⟩
  next =>
    refine wlp_bind (wlp_and (readStock_wlp request.stock_id hw) (readStock_loaded _))
      (fun _ _ _ => trivial) fun found l' _ hl' => ?_
    obtain ⟨hl', hobj⟩ := hl'
    cases found with
    | none => exact ⟨trivial, trivial⟩
    | some stock =>
        show wlp _ _ _ (if _ then _ else if _ then _ else _) l'
        split_ifs with hv ha
        · exact ⟨trivial, trivial⟩
        · exact ⟨trivial, trivial⟩
        · exact reserveRow_computed request stock hl'.1 (hobj stock rfl) (not_not.mp hv) (by omega)

end Nimbus.Inventory
