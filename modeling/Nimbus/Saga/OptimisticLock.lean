/-
  Nimbus.Saga.OptimisticLock
  ──────────────────────────
  **WHAT `reserve` RETURNS IS NOT THE ROW IT LEFT.**

  `reserve` computes its result from the object it read, on the ground that
  the UPDATE was atomic.  The UPDATE is an ORM statement: the object satisfies
  its WHERE clause, so the SET clause is applied to the object as well, and the
  version is raised and the quantity subtracted a second time in the result.
  Nor is the row the UPDATE ran against the row that was read: a release in
  between changes `available` and leaves the version alone.

    • `Ran`             — the object a `reserve` read, and the row its UPDATE
                          ran against;
    • `Sound`           — what the optimistic lock promises of a result;
    • `optimistic_lock` — **no `reserve` that returns keeps that promise.**
-/
import Nimbus.Saga.Stock

namespace Nimbus

open Lib Inventory

variable {τ : Type} [DecidableEq τ]

/-! ## §1. What the optimistic lock promises. -/

/-- The `reserve` of session `t` has returned. -/
def Returned (P : Pool StockCall Op Ans Exn Reply (World τ) τ) (t : τ) (request : ReserveRequest)
    (result : ReserveResult) : Prop :=
  P.thread t = some ⟨.reserve request, .ret (.ok (.reserved result))⟩

/-- Session `t` had read `read`, and its UPDATE ran against the row `s`: the
object is now as the SET clause left it, and so is the one row written. -/
structure Ran (w : World τ) (t : τ) (request : ReserveRequest) (read s : Stock) : Prop where
  loaded : (w.local t).session.objs (.stock request.stock_id)
    = some (.stock (read.reserve request.quantity))
  matched : (w.local t).part.locked (.stock request.stock_id) = some (some (.stock s))
  written : (w.local t).part.writes = [.stock (s.reserve request.quantity)]

/-- The UPDATE ran against the contents that were read, and the result is the
row right after it. -/
structure Sound (request : ReserveRequest) (result : ReserveResult) (read s : Stock) : Prop where
  version : s.version = read.version
  available : s.available = read.available
  new_version : result.new_version = (s.reserve request.quantity).version
  new_available : result.new_available = (s.reserve request.quantity).available

/-- The session determines the row its UPDATE ran against. -/
theorem Ran.matched_unique {w : World τ} {t : τ} {request : ReserveRequest}
    {read read' s s' : Stock} (h : Ran w t request read s) (h' : Ran w t request read' s') :
    s = s' := by
  have hrow := h.matched.symm.trans h'.matched
  exact Row.stock.inj (Option.some.inj (Option.some.inj hrow))

/-! ## §2. Every interleaving. -/

variable {uuid5 : Uuid5} {T : Table Row}

/-- The result of a `reserve`, next to what its contract already says. -/
def resultPost (call : StockCall) (r : Except Exn Reply) (l : Local) : Prop :=
  match call with
  | .reserve request => ∃ x, r = x.map .reserved ∧ computedPost request x l
  | .release _ => True

/-- Every stock call among the others, with what `reserve` returns. -/
def stockContract (uuid5 : Uuid5) :
    Contract (stockShop uuid5 : System StockCall Op Ans Exn Reply (World τ) τ Choice) Local :=
  ((shopContract anyRows uuid5 keeps_anyRows).comap StockCall.toCall).also resultPost (by
    intro t w call _
    show Prog.wlp (setting anyRows t) _ (resultPost call) _ ((w.enter t).local t)
    rw [enter_local]
    cases call with
    | reserve request => exact Prog.wlp_map (reserve_computed request ⟨rfl, rfl⟩)
    | release request =>
        have hbody := body_wlp anyRows uuid5 t (.release request) (w.local t).mine
        exact Prog.wlp_mono (fun _ _ _ => trivial) hbody)

/-- What the session of a `reserve` that has returned holds. -/
theorem returned_cases (hT : ∀ r ∈ T.rows, r.violation = .ok ())
    (as : List (Action τ StockCall Choice)) {t : τ} {request : ReserveRequest}
    {result : ReserveResult} (h : Returned (stockRun uuid5 T as) t request result) :
    ∃ read s, Computed request result read ((stockRun uuid5 T as).shared.local t)
      ∧ Reserved request s ((stockRun uuid5 T as).shared.local t) := by
  have hreach : (stockContract uuid5).Holds (stockRun uuid5 T as) :=
    (stockContract uuid5).reachable ⟨inv_init hT, trivial⟩ as
  obtain ⟨⟨x, hx, hreserved⟩, ⟨y, hy, hcomputed⟩⟩ :=
    Contract.Holds.post (stockContract uuid5) hreach h
  -- both postconditions speak of the one result
  cases x with
  | error e => cases hx
  | ok rx =>
      cases y with
      | error e => cases hy
      | ok ry =>
          obtain rfl := Reply.reserved.inj (Except.ok.inj hy)
          obtain ⟨s, hs⟩ := hreserved
          obtain ⟨read, hread⟩ := hcomputed
          exact ⟨read, s, hread, hs⟩

/-- **No `reserve` that returns is sound.**  In every state that any
interleaving of stock calls reaches: a `reserve` that has returned ran its
UPDATE against a row of the version it had read, but its `new_version` is one
more than the version of the row after the UPDATE, and its `new_available` is
what was read less twice the quantity. -/
theorem optimistic_lock (hT : ∀ r ∈ T.rows, r.violation = .ok ())
    (as : List (Action τ StockCall Choice)) (t : τ) (request : ReserveRequest)
    (result : ReserveResult) (h : Returned (stockRun uuid5 T as) t request result) :
    (∃ read s, Ran (stockRun uuid5 T as).shared t request read s
      ∧ s.version = read.version
      ∧ result.new_version = (s.reserve request.quantity).version + 1
      ∧ result.new_available = read.available - 2 * request.quantity)
    ∧ ¬ ∃ read s, Ran (stockRun uuid5 T as).shared t request read s
        ∧ Sound request result read s := by
  obtain ⟨read, s, hread, hs⟩ := returned_cases hT as h
  have hran : Ran (stockRun uuid5 T as).shared t request read s :=
    ⟨hread.loaded, hs.locked, hs.writes⟩
  have hversion : s.version = read.version := hs.version.trans hread.version.symm
  -- the UPDATE raises the version of the object as well, and the code adds one more
  have hnew : result.new_version = (s.reserve request.quantity).version + 1 := by
    rw [hread.result]
    show read.version + 1 + 1 = s.version + 1 + 1
    omega
  refine ⟨⟨read, s, hran, hversion, hnew, ?_⟩, ?_⟩
  · rw [hread.result]
    show read.available - request.quantity - request.quantity = _
    omega
  · intro hex
    obtain ⟨read', s', hran', hsound⟩ := hex
    obtain rfl := hran.matched_unique hran'
    have hsame := hsound.new_version
    omega

/-- One reservation, alone: the row goes from version 1 to version 2. -/
def reserveFour : List (Action Nat StockCall Choice) :=
  [.start 0 (.reserve ⟨lastTen.id, 4, 1⟩), .step 0 {}, .step 0 {}, .step 0 {}]

theorem lastTen_accepted : ∀ r ∈ lastTenTable.rows, r.violation = .ok () := by
  intro r hr
  rw [List.mem_singleton.mp hr]
  rfl

/-- It returns version 3. -/
theorem reserveFour_returned :
    Returned (stockRun (fun c => c) lastTenTable reserveFour) 0 ⟨lastTen.id, 4, 1⟩ ⟨3, 2⟩ := rfl

theorem optimistic_lock_reserveFour :
    ∃ read s, Ran (stockRun (fun c => c) lastTenTable reserveFour).shared 0 ⟨lastTen.id, 4, 1⟩
        read s
      ∧ s.version = read.version ∧ (3 : Int) = (s.reserve 4).version + 1
      ∧ (2 : Int) = read.available - 2 * 4 :=
  (optimistic_lock lastTen_accepted reserveFour 0 _ _ reserveFour_returned).1

/-- A release of five comes between the read and the UPDATE. -/
def releaseBetween : List (Action Nat StockCall Choice) :=
  [.start 0 (.reserve ⟨lastTen.id, 4, 1⟩), .step 0 {},
    .start 1 (.release ⟨lastTen.id, 5, 1⟩), .step 1 {}, .commit 1 {},
    .step 0 {}, .step 0 {}]

/-- The UPDATE ran against fifteen pieces where ten were read; the row has
version 2 and eleven pieces after it, the result says version 3 and two. -/
theorem optimistic_lock_fails :
    ¬ ∀ (as : List (Action Nat StockCall Choice)) (t : Nat) (request : ReserveRequest)
        (result : ReserveResult),
        Returned (stockRun (fun c => c) lastTenTable as) t request result →
        ∃ read s, Ran (stockRun (fun c => c) lastTenTable as).shared t request read s
          ∧ Sound request result read s := by
  intro h
  obtain ⟨read, s, hran, hsound⟩ := h releaseBetween 0 ⟨lastTen.id, 4, 1⟩ ⟨3, 2⟩ rfl
  have hrow : Row.stock s = .stock ⟨lastTen.id, 250, "EUR", 15, 1⟩ :=
    (Option.some.inj (Option.some.inj hran.matched)).symm
  obtain rfl := Row.stock.inj hrow
  exact absurd hsound.new_version (by decide)

end Nimbus
