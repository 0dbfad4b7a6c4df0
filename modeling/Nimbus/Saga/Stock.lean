/-
  Nimbus.Saga.Stock
  ─────────────────
  **NO OVERSELL.**

  Any number of `reserve` and `release` transactions, interleaved operation by
  operation, each committed or rolled back.  Between the read of `reserve` and
  its UPDATE other transactions come and go; what counts is the committed row
  the UPDATE finds.  Every committed reservation raises the version by one and
  has asked for the version it found, so the versions asked for are
  consecutive, and no two are the same.

    • `stockRun`     — a run of stock calls only;
    • `Accounted`    — a stock row as its committed reservations and releases
                       made it;
    • `no_oversell`  — **every reachable committed state.**
-/
import Nimbus.Saga.Shop

namespace Nimbus

open Lib Inventory

/-! ## §1. Runs of stock calls. -/

inductive StockCall where
  | reserve (request : ReserveRequest)
  | release (request : ReleaseRequest)

def StockCall.toCall : StockCall → Call
  | .reserve request => .reserve request
  | .release request => .release request

section

variable {τ : Type} [DecidableEq τ]

/-- The platform when only stock calls are made. -/
def stockShop (uuid5 : Uuid5) : System StockCall Op Ans Exn Reply (World τ) τ Choice :=
  (shop uuid5).comap StockCall.toCall

/-- The state after the actions `as`, from committed rows `T`. -/
def stockRun (uuid5 : Uuid5) (T : Table Row) (as : List (Action τ StockCall Choice)) :
    Pool StockCall Op Ans Exn Reply (World τ) τ :=
  (Pool.machine (stockShop uuid5)).run (Pool.init (World.init T)) as

end

variable {τ : Type}

/-- A committed `reserve` of row `id` that returned. -/
def reserveOf (id : Uuid) (e : Entry τ StockCall Exn Reply) : Option ReserveRequest :=
  match e.call, e.result with
  | .reserve request, .ok _ => if request.stock_id = id then some request else none
  | _, _ => none

/-- A committed `release` of row `id` that returned. -/
def releaseOf (id : Uuid) (e : Entry τ StockCall Exn Reply) : Option ReleaseRequest :=
  match e.call, e.result with
  | .release request, .ok _ => if request.stock_id = id then some request else none
  | _, _ => none

/-- The quantities of the committed reservations of row `id`. -/
def reservedTotal (id : Uuid) (log : List (Entry τ StockCall Exn Reply)) : Int :=
  ((log.filterMap (reserveOf id)).map (·.quantity)).sum

/-- The quantities of the committed releases of row `id`. -/
def releasedTotal (id : Uuid) (log : List (Entry τ StockCall Exn Reply)) : Int :=
  ((log.filterMap (releaseOf id)).map (·.quantity)).sum

/-! ## §2. One more committed call. -/

/-- The row `s` is what the committed calls of `log` made of `s₀`. -/
structure Accounted (s₀ : Stock) (log : List (Entry τ StockCall Exn Reply)) (T : Table Row)
    (s : Stock) : Prop where
  row : T.lookup (.stock s₀.id) = some (.stock s)
  id : s.id = s₀.id
  nonneg : 0 ≤ s.available
  available : s.available = s₀.available - reservedTotal s₀.id log + releasedTotal s₀.id log
  version : s.version = s₀.version + (log.filterMap (reserveOf s₀.id)).length
  /-- The reservations have asked for one version after the other. -/
  asked : (log.filterMap (reserveOf s₀.id)).map (·.expected_version)
    = (List.range (log.filterMap (reserveOf s₀.id)).length).map fun i : Nat => s₀.version + i

variable {s₀ s : Stock} {log : List (Entry τ StockCall Exn Reply)} {T : Table Row} {t : τ}

theorem accounted_init (h : T.lookup (.stock s₀.id) = some (.stock s₀)) (hn : 0 ≤ s₀.available) :
    Accounted s₀ ([] : List (Entry τ StockCall Exn Reply)) T s₀ := by
  refine ⟨h, rfl, hn, ?_, ?_, rfl⟩
  · show s₀.available = s₀.available - 0 + 0
    omega
  · show s₀.version = s₀.version + 0
    omega

/-- A call that is neither a reservation nor a release of the row, and leaves
the row as it is. -/
theorem Accounted.other (h : Accounted s₀ log T s) {T' : Table Row}
    {e : Entry τ StockCall Exn Reply} (hrow : T'.lookup (.stock s₀.id) = T.lookup (.stock s₀.id))
    (hr : reserveOf s₀.id e = none) (hl : releaseOf s₀.id e = none) :
    Accounted s₀ (log ++ [e]) T' s := by
  refine ⟨hrow.trans h.row, h.id, h.nonneg, ?_, ?_, ?_⟩
  · unfold reservedTotal releasedTotal
    rw [filterMap_snoc_none hr, filterMap_snoc_none hl]
    exact h.available
  · rw [filterMap_snoc_none hr]
    exact h.version
  · rw [filterMap_snoc_none hr]
    exact h.asked

/-- A committed reservation of the row. -/
theorem Accounted.reserve (h : Accounted s₀ log T s) {e : Entry τ StockCall Exn Reply}
    {request : ReserveRequest} (hr : reserveOf s₀.id e = some request)
    (hl : releaseOf s₀.id e = none) (hv : s.version = request.expected_version)
    (hq : request.quantity ≤ s.available) :
    Accounted s₀ (log ++ [e]) (T.upsert (.stock (s.reserve request.quantity)))
      (s.reserve request.quantity) := by
  refine ⟨?_, h.id, ?_, ?_, ?_, ?_⟩
  · exact Table.lookup_upsert_self (congrArg RowKey.stock h.id)
  · show 0 ≤ s.available - request.quantity
    omega
  · have havail := h.available
    unfold reservedTotal releasedTotal at havail ⊢
    rw [filterMap_snoc_some hr, filterMap_snoc_none hl, List.map_append, List.sum_append]
    show s.available - request.quantity = _ - (_ + (request.quantity + 0)) + _
    omega
  · have hversion := h.version
    rw [filterMap_snoc_some hr, List.length_append]
    show s.version + 1 = _ + ((_ + 1 : Nat) : Int)
    push_cast
    omega
  · -- the version asked for is the next one
    rw [filterMap_snoc_some hr, List.map_append, h.asked, List.length_append]
    show _ = (List.range (_ + 1)).map _
    rw [List.range_succ, List.map_append]
    show _ ++ [request.expected_version] = _ ++ [_]
    rw [← hv, h.version]

/-- A committed release of the row. -/
theorem Accounted.release (h : Accounted s₀ log T s) {e : Entry τ StockCall Exn Reply}
    {request : ReleaseRequest} (hr : reserveOf s₀.id e = none)
    (hl : releaseOf s₀.id e = some request) (hq : 0 < request.quantity) :
    Accounted s₀ (log ++ [e]) (T.upsert (.stock (s.release request.quantity)))
      (s.release request.quantity) := by
  refine ⟨?_, h.id, ?_, ?_, ?_, ?_⟩
  · exact Table.lookup_upsert_self (congrArg RowKey.stock h.id)
  · have hn := h.nonneg
    show 0 ≤ s.available + request.quantity
    omega
  · have havail := h.available
    unfold reservedTotal releasedTotal at havail ⊢
    rw [filterMap_snoc_none hr, filterMap_snoc_some hl, List.map_append, List.sum_append]
    show s.available + request.quantity = _ - _ + (_ + (request.quantity + 0))
    omega
  · rw [filterMap_snoc_none hr]
    exact h.version
  · rw [filterMap_snoc_none hr]
    exact h.asked

/-- **Every committed stock call keeps the account of the row.** -/
theorem Accounted.step {J : Table Row → Prop} {uuid5 : Uuid5} {T' : Table Row}
    {e : Entry τ StockCall Exn Reply} (hJ : ∀ U, J U → (U.lookup (.stock s₀.id)).isSome)
    (h : Accounted s₀ log T s) (he : Effect J uuid5 e.call.toCall e.result T T') :
    ∃ s', Accounted s₀ (log ++ [e]) T' s' := by
  obtain ⟨t, call, result⟩ := e
  cases call with
  | reserve request =>
      change Effect J uuid5 (.reserve request) result T T' at he
      cases he with
      | reserveRefused => exact ⟨s, h.other rfl rfl rfl⟩
      | @reserved _ _ _ x hx hq hv ha =>
          have hxid : x.id = request.stock_id := RowKey.stock.inj (Table.key_of_lookup hx)
          by_cases hid : request.stock_id = s₀.id
          · rw [hid, h.row] at hx
            obtain rfl := Row.stock.inj (Option.some.inj hx)
            exact ⟨_, h.reserve (if_pos hid) rfl hv ha⟩
          · refine ⟨s, h.other ?_ (if_neg hid) rfl⟩
            exact Table.lookup_upsert_ne fun hc => hid (hxid.symm.trans (RowKey.stock.inj hc).symm)
  | release request =>
      change Effect J uuid5 (.release request) result T T' at he
      cases he with
      | releaseRefused => exact ⟨s, h.other rfl rfl rfl⟩
      | @releasedNothing _ _ _ T₀ hq hJ₀ hnone =>
          -- a row that is there from the start has never been missing
          have hid : request.stock_id ≠ s₀.id := by
            intro hc
            have hsome := hJ T₀ hJ₀
            rw [← hc, hnone] at hsome
            cases hsome
          exact ⟨s, h.other rfl rfl (if_neg hid)⟩
      | @released _ _ _ x hx hq =>
          have hxid : x.id = request.stock_id := RowKey.stock.inj (Table.key_of_lookup hx)
          by_cases hid : request.stock_id = s₀.id
          · rw [hid, h.row] at hx
            obtain rfl := Row.stock.inj (Option.some.inj hx)
            exact ⟨_, h.release rfl (if_pos hid) hq⟩
          · refine ⟨s, h.other ?_ rfl (if_neg hid)⟩
            exact Table.lookup_upsert_ne fun hc => hid (hxid.symm.trans (RowKey.stock.inj hc).symm)

/-! ## §3. Every reachable state. -/

variable [DecidableEq τ] {uuid5 : Uuid5}

/-- **No oversell.**  In every state that any interleaving of stock calls
reaches: the available quantity is not negative and is the initial one less
what was reserved plus what was released, the version counts the reservations,
no two of them asked for the same version, and a `reserve` that raises has
changed nothing and will not. -/
theorem no_oversell (hT : ∀ r ∈ T.rows, r.violation = .ok ())
    (h₀ : T.lookup (.stock s₀.id) = some (.stock s₀)) (as : List (Action τ StockCall Choice)) :
    (∃ s, (stockRun uuid5 T as).shared.base.lookup (.stock s₀.id) = some (.stock s)
      ∧ 0 ≤ s.available
      ∧ s.available = s₀.available - reservedTotal s₀.id (stockRun uuid5 T as).log
          + releasedTotal s₀.id (stockRun uuid5 T as).log
      ∧ s.version = s₀.version
          + ((stockRun uuid5 T as).log.filterMap (reserveOf s₀.id)).length)
    ∧ (((stockRun uuid5 T as).log.filterMap (reserveOf s₀.id)).map (·.expected_version)).Nodup
    ∧ ∀ t request e,
        (stockRun uuid5 T as).thread t = some ⟨.reserve request, .ret (.error e)⟩ →
        ((stockRun uuid5 T as).shared.local t).Untouched
          ∧ ∀ c P', Pool.act (stockShop uuid5) (stockRun uuid5 T as) (.commit t c) = some P' →
              P'.shared.base = (stockRun uuid5 T as).shared.base := by
  let J : Table Row → Prop := fun U => (U.lookup (.stock s₀.id)).isSome = true
  let K := (shopContract J uuid5 (keeps_isSome _) (τ := τ)).comap StockCall.toCall
  let F := (shopEffects J uuid5 (keeps_isSome _) (τ := τ)).comap StockCall.toCall
  have hinit : K.inv (World.init T) := ⟨inv_init hT, by show (T.lookup _).isSome = true; rw [h₀]; rfl⟩
  have hreach : K.Holds (stockRun uuid5 T as) := K.reachable hinit as
  have hnonneg := Stock.nonneg_of_violation (hT _ (Table.mem_of_lookup h₀))
  -- the committed row is the log of the committed calls, replayed
  obtain ⟨s, hs⟩ : ∃ s, Accounted s₀ (stockRun uuid5 T as).log
      (stockRun uuid5 T as).shared.base s := by
    refine Replay.invariant (I := fun log U => ∃ s, Accounted s₀ log U s)
      ⟨s₀, accounted_init h₀ hnonneg⟩ ?_ (F.replay hinit as)
    rintro log U U' e ⟨s, hs⟩ he
    exact hs.step (fun _ hU => hU) he
  refine ⟨⟨s, hs.row, hs.nonneg, hs.available, hs.version⟩, ?_, ?_⟩
  · -- the k-th reservation asked for the k-th version
    rw [hs.asked]
    refine List.Nodup.map (fun i j hij => ?_) List.nodup_range
    show i = j
    have hcast : s₀.version + (i : Int) = s₀.version + (j : Int) := hij
    omega
  · intro t request e ht
    obtain ⟨x, hx, hpost⟩ := Contract.Holds.post K hreach ht
    -- a refused reservation has written nothing, so its commit writes nothing
    have huntouched : ((stockRun uuid5 T as).shared.local t).Untouched := by
      cases x with
      | ok result => cases hx
      | error e' => exact hpost
    refine ⟨huntouched, fun c P' hact => ?_⟩
    rcases Pool.act_cases hact with ⟨_, _, ha, _⟩ | ⟨_, _, _, _, _, _, _, ha, _⟩ |
      ⟨u, c', call, r, w', ha, _, _, hc, rfl⟩ | ⟨_, _, ha, _⟩
    · cases ha
    · cases ha
    · obtain ⟨rfl, rfl⟩ := Action.commit.inj ha
      exact commit_untouched hreach.inv.1 hc huntouched
    · cases ha

/-- A stock row, and two reservations of it that both read version 1. -/
def lastTen : Stock := ⟨Uuid.ofNat 1, 250, "EUR", 10, 1⟩

def lastTenTable : Table Row := ⟨[.stock lastTen], List.nodup_singleton _⟩

def lastTenRun : List (Action Nat StockCall Choice) :=
  [.start 0 (.reserve ⟨lastTen.id, 4, 1⟩), .start 1 (.reserve ⟨lastTen.id, 7, 1⟩),
    .step 0 {}, .step 1 {}, .step 0 {}, .step 0 {}, .commit 0 {}, .step 1 {}]

theorem no_oversell_lastTen :
    ∃ s, (stockRun (fun c => c) lastTenTable lastTenRun).shared.base.lookup (.stock lastTen.id)
        = some (.stock s)
      ∧ 0 ≤ s.available
      ∧ s.available = 10
          - reservedTotal lastTen.id (stockRun (fun c => c) lastTenTable lastTenRun).log
          + releasedTotal lastTen.id (stockRun (fun c => c) lastTenTable lastTenRun).log
      ∧ s.version = 1 + ((stockRun (fun c => c) lastTenTable lastTenRun).log.filterMap
          (reserveOf lastTen.id)).length :=
  (no_oversell (fun r hr => by rw [List.mem_singleton.mp hr]; rfl) rfl lastTenRun).1

/-- The later UPDATE matches no row: one reservation of four is committed. -/
example : ((stockRun (fun c => c) lastTenTable lastTenRun).log.filterMap
    (reserveOf lastTen.id)).map (·.quantity) = [4] := by decide

end Nimbus
