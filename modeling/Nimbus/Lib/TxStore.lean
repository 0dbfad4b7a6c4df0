/-
  Nimbus.Lib.TxStore
  ──────────────────
  **A TRANSACTIONAL ROW STORE: READ COMMITTED, WITH ROW LOCKS.**

  The committed rows are shared.  A transaction keeps what it has written to
  itself until it commits, and locks every row it writes (or selects for
  update) until it ends; nobody else can lock that row meanwhile.

    • `view`     — a transaction reads its own writes over the committed rows;
    • `lock`/`put` — `none` when another transaction holds the row: it waits;
    • `commit`/`rollback` — publish or drop the writes, release the locks;
    • `WF`       — a written row is locked by its writer (kept by every
                   operation);
    • `part t`   — what no other transaction can change for `t`: its writes,
                   its locks, and what is committed where it holds the lock.
-/
import Nimbus.Lib.Table
import Mathlib.Logic.Function.Basic

namespace Nimbus.Lib

/-- Committed rows, lock owners, and the uncommitted writes of every
transaction, the newest first. -/
structure TxStore (ν : Type) {κ : Type} [Keyed ν κ] (τ : Type) where
  base : Table ν
  owner : κ → Option τ
  writes : τ → List ν

namespace TxStore

variable {ν κ τ : Type} [Keyed ν κ]

/-! ## §1. Stores. -/

/-- A store with committed rows only. -/
def ofTable (T : Table ν) : TxStore ν τ := ⟨T, fun _ => none, fun _ => []⟩

/-- Every uncommitted row is locked by the transaction that wrote it. -/
def WF (s : TxStore ν τ) : Prop := ∀ t, ∀ r ∈ s.writes t, s.owner (key r) = some t

theorem ofTable_wf (T : Table ν) : (ofTable T : TxStore ν τ).WF := by
  intro t r hr
  cases hr

/-! ## §2. Operations. -/

section Rows

variable [DecidableEq κ]

/-- The row with key `k` as transaction `t` sees it. -/
def view (s : TxStore ν τ) (t : τ) (k : κ) : Option ν :=
  ((s.writes t).find? (fun r => key r = k)).or (s.base.lookup k)

theorem key_of_view {s : TxStore ν τ} {t : τ} {k : κ} {r : ν} (h : s.view t k = some r) :
    key r = k := by
  rcases Option.or_eq_some_iff.mp h with hw | ⟨-, hb⟩
  · simpa using List.find?_some hw
  · exact Table.key_of_lookup hb

/-- A transaction with the same writes over the same committed row sees the same. -/
theorem view_congr {s s' : TxStore ν τ} {t : τ} {k : κ} (hw : s'.writes t = s.writes t)
    (hb : s'.base.lookup k = s.base.lookup k) : s'.view t k = s.view t k := by
  unfold view
  rw [hw, hb]

theorem view_of_no_writes {s : TxStore ν τ} {t : τ} (h : s.writes t = []) (k : κ) :
    s.view t k = s.base.lookup k := by
  simp [view, h]

theorem update_owner_iff {s : TxStore ν τ} {t u : τ} {k : κ} (htu : t ≠ u)
    (hf : s.owner k = none ∨ s.owner k = some u) (k' : κ) :
    Function.update s.owner k (some u) k' = some t ↔ s.owner k' = some t := by
  by_cases hk : k' = k
  · subst hk
    rw [Function.update_self]
    constructor
    · intro h; exact absurd (Option.some.inj h).symm htu
    · intro h
      rcases hf with hn | hu
      · rw [hn] at h; cases h
      · rw [hu] at h; exact absurd (Option.some.inj h).symm htu
  · rw [Function.update_of_ne hk]

end Rows

section Release

variable [DecidableEq τ]

/-- End of the transaction: its locks are released, its writes forgotten. -/
def release (s : TxStore ν τ) (t : τ) : TxStore ν τ where
  base := s.base
  owner := fun k => if s.owner k = some t then none else s.owner k
  writes := Function.update s.writes t []

/-- What is still uncommitted was written by others. -/
theorem mem_writes_release {s : TxStore ν τ} {t u : τ} {r : ν} (h : r ∈ (s.release t).writes u) :
    u ≠ t ∧ r ∈ s.writes u := by
  by_cases hu : u = t
  · subst hu
    simp [release] at h
  · simp only [release, Function.update_of_ne hu] at h
    exact ⟨hu, h⟩

theorem release_owner_iff {s : TxStore ν τ} {t u : τ} (htu : t ≠ u) (k : κ) :
    (s.release u).owner k = some t ↔ s.owner k = some t := by
  show (if s.owner k = some u then none else s.owner k) = some t ↔ _
  split
  next h =>
    rw [h]
    constructor
    · intro hc; cases hc
    · intro hc; exact absurd (Option.some.inj hc).symm htu
  next => exact Iff.rfl

theorem release_wf {s : TxStore ν τ} (t : τ) (hw : s.WF) : (s.release t).WF := by
  intro u r hr
  by_cases hu : u = t
  · subst hu
    simp [release] at hr
  · simp only [release, Function.update_of_ne hu] at hr
    have ho := hw u r hr
    show (if s.owner (key r) = some t then none else s.owner (key r)) = some u
    rw [if_neg, ho]
    rw [ho]
    exact fun he => hu (Option.some.inj he)

end Release

variable [DecidableEq κ] [DecidableEq τ]

/-- Lock the row with key `k`; `none` while another transaction holds it. -/
def lock (s : TxStore ν τ) (t : τ) (k : κ) : Option (TxStore ν τ) :=
  if s.owner k = none ∨ s.owner k = some t then
    some { s with owner := Function.update s.owner k (some t) }
  else none

/-- Write a row, under its lock. -/
def put (s : TxStore ν τ) (t : τ) (r : ν) : Option (TxStore ν τ) :=
  (s.lock t (key r)).map fun s' =>
    { s' with writes := Function.update s'.writes t (r :: s'.writes t) }

/-- Publish the writes of `t`. -/
def commit (s : TxStore ν τ) (t : τ) : TxStore ν τ :=
  { s.release t with base := s.base.upsertAll (s.writes t) }

/-- Drop the writes of `t`. -/
def rollback (s : TxStore ν τ) (t : τ) : TxStore ν τ := s.release t

@[simp] theorem commit_base (s : TxStore ν τ) (t : τ) :
    (s.commit t).base = s.base.upsertAll (s.writes t) := rfl

theorem lock_eq_some {s s' : TxStore ν τ} {t : τ} {k : κ} (h : s.lock t k = some s') :
    (s.owner k = none ∨ s.owner k = some t)
      ∧ s' = { s with owner := Function.update s.owner k (some t) } := by
  unfold lock at h
  split at h
  next hf => exact ⟨hf, (Option.some.inj h).symm⟩
  next => cases h

theorem put_eq_some {s s' : TxStore ν τ} {t : τ} {r : ν} (h : s.put t r = some s') :
    (s.owner (key r) = none ∨ s.owner (key r) = some t)
      ∧ s' = { base := s.base
               owner := Function.update s.owner (key r) (some t)
               writes := Function.update s.writes t (r :: s.writes t) } := by
  unfold put at h
  obtain ⟨s₁, h₁, rfl⟩ := Option.map_eq_some_iff.mp h
  obtain ⟨hf, rfl⟩ := lock_eq_some h₁
  exact ⟨hf, rfl⟩

theorem put_base {s s' : TxStore ν τ} {t : τ} {r : ν} (h : s.put t r = some s') :
    s'.base = s.base := by
  obtain ⟨-, rfl⟩ := put_eq_some h
  rfl

/-- **What a commit makes of a row is what the transaction saw.** -/
theorem lookup_commit (s : TxStore ν τ) (t : τ) (k : κ) :
    (s.commit t).base.lookup k = s.view t k :=
  Table.lookup_upsertAll s.base (s.writes t) k

/-! ## §3. A written row is locked by its writer. -/

theorem lock_wf {s s' : TxStore ν τ} {t : τ} {k : κ} (hw : s.WF)
    (h : s.lock t k = some s') : s'.WF := by
  obtain ⟨hf, rfl⟩ := lock_eq_some h
  intro u r hr
  have ho := hw u r hr
  by_cases hk : key r = k
  · subst hk
    rcases hf with hn | ht
    · rw [hn] at ho; cases ho
    · rw [ht] at ho
      simpa using ho
  · simpa [Function.update_of_ne hk] using ho

theorem put_wf {s s' : TxStore ν τ} {t : τ} {x : ν} (hw : s.WF)
    (h : s.put t x = some s') : s'.WF := by
  obtain ⟨hf, rfl⟩ := put_eq_some h
  intro u r hr
  show Function.update s.owner (key x) (some t) (key r) = some u
  by_cases hu : u = t
  · subst hu
    by_cases hk : key r = key x
    · rw [hk, Function.update_self]
    · rw [Function.update_of_ne hk]
      simp only [Function.update_self, List.mem_cons] at hr
      rcases hr with rfl | hr
      · exact absurd rfl hk
      · exact hw u r hr
  · simp only [Function.update_of_ne hu] at hr
    have ho := hw u r hr
    by_cases hk : key r = key x
    · rw [hk] at ho
      rcases hf with hn | ht
      · rw [hn] at ho; cases ho
      · rw [ht] at ho
        exact absurd (Option.some.inj ho).symm hu
    · rw [Function.update_of_ne hk]
      exact ho

theorem commit_wf {s : TxStore ν τ} (t : τ) (hw : s.WF) : (s.commit t).WF :=
  release_wf t hw

/-! ## §4. The part of the store that is a transaction's own. -/

end TxStore

/-- What only the transaction itself can change: its writes, and, for every
row it has locked, what is committed there. -/
@[ext] structure TxPart (ν κ : Type) where
  writes : List ν
  locked : κ → Option (Option ν)

namespace TxPart

variable {ν κ : Type} [DecidableEq κ]

/-- Nothing written, nothing locked. -/
def empty : TxPart ν κ := ⟨[], fun _ => none⟩

/-- The row with key `k` has been locked; `b` is committed there. -/
def lock (p : TxPart ν κ) (k : κ) (b : Option ν) : TxPart ν κ :=
  { p with locked := Function.update p.locked k (some b) }

@[simp] theorem lock_locked (p : TxPart ν κ) (k : κ) (b : Option ν) :
    (p.lock k b).locked k = some b := Function.update_self ..

theorem lock_locked_ne (p : TxPart ν κ) {k k' : κ} (b : Option ν) (h : k' ≠ k) :
    (p.lock k b).locked k' = p.locked k' := Function.update_of_ne h ..

variable [Keyed ν κ]

/-- The row `r` has been written over `b`. -/
def put (p : TxPart ν κ) (r : ν) (b : Option ν) : TxPart ν κ :=
  { p.lock (key r) b with writes := r :: p.writes }

@[simp] theorem put_writes (p : TxPart ν κ) (r : ν) (b : Option ν) :
    (p.put r b).writes = r :: p.writes := rfl

@[simp] theorem put_locked (p : TxPart ν κ) (r : ν) (b : Option ν) :
    (p.put r b).locked (key r) = some b := Function.update_self ..

theorem put_locked_ne (p : TxPart ν κ) {r : ν} {k' : κ} (b : Option ν) (h : k' ≠ key r) :
    (p.put r b).locked k' = p.locked k' := Function.update_of_ne h ..

end TxPart

namespace TxStore

variable {ν κ τ : Type} [Keyed ν κ] [DecidableEq κ] [DecidableEq τ]

/-- The part of `t`. -/
def part (s : TxStore ν τ) (t : τ) : TxPart ν κ :=
  ⟨s.writes t, fun k => if s.owner k = some t then some (s.base.lookup k) else none⟩

theorem part_locked {s : TxStore ν τ} {t : τ} {k : κ} {b : Option ν}
    (h : (s.part t).locked k = some b) : s.owner k = some t ∧ s.base.lookup k = b := by
  unfold part at h
  dsimp only at h
  split at h
  next ho => exact ⟨ho, Option.some.inj h⟩
  next => cases h

/-- A locked row reads as the transaction's own write, or as committed. -/
theorem view_of_locked {s : TxStore ν τ} {t : τ} {k : κ} {b : Option ν}
    (h : (s.part t).locked k = some b) :
    s.view t k = ((s.part t).writes.find? (fun r => key r = k)).or b := by
  unfold view
  rw [(part_locked h).2]
  rfl

theorem part_lock {s s' : TxStore ν τ} {t : τ} {k : κ} (h : s.lock t k = some s') :
    s'.part t = (s.part t).lock k (s.base.lookup k) := by
  obtain ⟨-, rfl⟩ := lock_eq_some h
  refine TxPart.ext rfl (funext fun k' => ?_)
  by_cases hk : k' = k
  · subst hk
    simp [part]
  · rw [TxPart.lock_locked_ne _ _ hk]
    simp [part, Function.update_of_ne hk]

theorem part_put {s s' : TxStore ν τ} {t : τ} {r : ν} (h : s.put t r = some s') :
    s'.part t = (s.part t).put r (s.base.lookup (key r)) := by
  unfold put at h
  obtain ⟨s₁, h₁, rfl⟩ := Option.map_eq_some_iff.mp h
  have hp := part_lock h₁
  obtain ⟨-, rfl⟩ := lock_eq_some h₁
  have hl := congrArg TxPart.locked hp
  exact TxPart.ext (Function.update_self ..) hl

/-- Nothing is left after the end of the transaction. -/
theorem part_release (s : TxStore ν τ) (t : τ) : (s.release t).part t = TxPart.empty := by
  refine TxPart.ext (Function.update_self ..) (funext fun k => ?_)
  show (if (if s.owner k = some t then none else s.owner k) = some t then _ else none) = none
  by_cases h : s.owner k = some t
  · rw [if_pos h, if_neg (fun hc => nomatch hc)]
  · rw [if_neg h, if_neg h]

/-- A change of the store that keeps the writes and locks of `t`, and what is
committed where `t` holds the lock, keeps the part of `t`. -/
theorem part_congr {s s' : TxStore ν τ} {t : τ} (hw : s'.writes t = s.writes t)
    (ho : ∀ k, s'.owner k = some t ↔ s.owner k = some t)
    (hb : ∀ k, s.owner k = some t → s'.base.lookup k = s.base.lookup k) :
    s'.part t = s.part t := by
  refine TxPart.ext hw (funext fun k => ?_)
  show (if s'.owner k = some t then _ else _) = if s.owner k = some t then _ else _
  by_cases h : s.owner k = some t
  · rw [if_pos h, if_pos ((ho k).mpr h), hb k h]
  · rw [if_neg h, if_neg (fun h' => h ((ho k).mp h'))]

theorem part_lock_of_ne {s s' : TxStore ν τ} {t u : τ} {k : κ} (htu : t ≠ u)
    (h : s.lock u k = some s') : s'.part t = s.part t := by
  obtain ⟨hf, rfl⟩ := lock_eq_some h
  exact part_congr rfl (update_owner_iff htu hf) (fun _ _ => rfl)

theorem part_put_of_ne {s s' : TxStore ν τ} {t u : τ} {r : ν} (htu : t ≠ u)
    (h : s.put u r = some s') : s'.part t = s.part t := by
  obtain ⟨hf, rfl⟩ := put_eq_some h
  exact part_congr (Function.update_of_ne htu _ _) (update_owner_iff htu hf) (fun _ _ => rfl)

theorem part_rollback_of_ne {s : TxStore ν τ} {t u : τ} (htu : t ≠ u) :
    (s.rollback u).part t = s.part t :=
  part_congr (Function.update_of_ne htu _ _) (release_owner_iff htu) (fun _ _ => rfl)

/-- **A commit leaves the rows that others have locked alone**: what it
publishes are rows it has locked itself. -/
theorem part_commit_of_ne {s : TxStore ν τ} {t u : τ} (htu : t ≠ u) (hw : s.WF) :
    (s.commit u).part t = s.part t := by
  refine part_congr (Function.update_of_ne htu _ _) (release_owner_iff htu) fun k hk => ?_
  rw [lookup_commit]
  have hnone : (s.writes u).find? (fun r => key r = k) = none := by
    rw [List.find?_eq_none]
    intro r hr hkr
    have ho := hw u r hr
    rw [show key r = k by simpa using hkr, hk] at ho
    exact htu (Option.some.inj ho)
  simp [TxStore.view, hnone]

end TxStore

end Nimbus.Lib
