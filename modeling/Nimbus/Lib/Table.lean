/-
  Nimbus.Lib.Table
  ────────────────
  **TABLES WITH A PRIMARY KEY.**

  A table is its list of rows in insertion order together with the proof that
  no two rows share a key, so a table with a duplicate key cannot be built.
  `upsert` replaces the row with the same key in place, or appends.

    • `lookup_upsert`    — reading after writing;
    • `sum_upsert`       — a sum over all rows changes by the new row minus
                           the replaced one;
    • `upsertAll`, `lookup_upsertAll` — a list of writes, the newest first.
-/
import Mathlib.Data.List.Nodup
import Mathlib.Algebra.BigOperators.Group.List.Basic
import Mathlib.Tactic.Ring
import Mathlib.Tactic.Abel

namespace Nimbus.Lib

/-- Rows of type `ν` have a primary key of type `κ`. -/
class Keyed (ν : Type) (κ : outParam Type) where
  key : ν → κ

export Keyed (key)

/-- A list of rows without two rows of one key. -/
structure Table (ν : Type) {κ : Type} [Keyed ν κ] where
  rows : List ν
  nodup : (rows.map key).Nodup

namespace Table

variable {ν κ : Type} [Keyed ν κ] [DecidableEq κ]

/-! ## §1. Reading and writing. -/

/-- The table without rows. -/
def empty : Table ν := ⟨[], List.nodup_nil⟩

/-- The row with key `k`. -/
def lookup (T : Table ν) (k : κ) : Option ν := T.rows.find? (fun r => key r = k)

/-- Replace the row with the key of `x` by `x`, or append `x`. -/
def upsertList (x : ν) : List ν → List ν
  | [] => [x]
  | y :: ys => if key y = key x then x :: ys else y :: upsertList x ys

theorem key_mem_upsertList (x : ν) (l : List ν) (k : κ) :
    k ∈ (upsertList x l).map key ↔ k = key x ∨ k ∈ l.map key := by
  induction l with
  | nil => simp [upsertList]
  | cons y ys ih =>
      unfold upsertList
      split
      next h => simp [h]
      next h =>
        rw [List.map_cons, List.mem_cons, ih, List.map_cons, List.mem_cons]
        tauto

theorem upsertList_nodup (x : ν) (l : List ν) (h : (l.map key).Nodup) :
    ((upsertList x l).map key).Nodup := by
  induction l with
  | nil => simp [upsertList]
  | cons y ys ih =>
      rw [List.map_cons, List.nodup_cons] at h
      unfold upsertList
      split
      next he => rw [List.map_cons, List.nodup_cons, ← he]; exact h
      next he =>
        rw [List.map_cons, List.nodup_cons, key_mem_upsertList]
        exact ⟨fun hm => hm.elim he h.1, ih h.2⟩

/-- Insert `x`, or replace the row with its key. -/
def upsert (T : Table ν) (x : ν) : Table ν :=
  ⟨upsertList x T.rows, upsertList_nodup x T.rows T.nodup⟩

theorem lookup_some_iff {T : Table ν} {k : κ} {r : ν} :
    T.lookup k = some r ↔ r ∈ T.rows ∧ key r = k := by
  constructor
  · intro h
    exact ⟨List.mem_of_find?_eq_some h, by simpa using List.find?_some h⟩
  · rintro ⟨hr, rfl⟩
    have hsome : (T.rows.find? (fun x => key x = key r)).isSome := by
      rw [List.find?_isSome]
      exact ⟨r, hr, by simp⟩
    obtain ⟨x, hx⟩ := Option.isSome_iff_exists.mp hsome
    have hkey : key x = key r := by simpa using List.find?_some hx
    have hxr : x = r :=
      List.inj_on_of_nodup_map T.nodup (List.mem_of_find?_eq_some hx) hr hkey
    rw [← hxr] at hx ⊢
    exact hx

theorem key_of_lookup {T : Table ν} {k : κ} {r : ν} (h : T.lookup k = some r) :
    key r = k := (lookup_some_iff.mp h).2

theorem mem_of_lookup {T : Table ν} {k : κ} {r : ν} (h : T.lookup k = some r) :
    r ∈ T.rows := (lookup_some_iff.mp h).1

theorem lookup_none_iff {T : Table ν} {k : κ} :
    T.lookup k = none ↔ k ∉ T.rows.map key := by
  simp [lookup, List.find?_eq_none]

theorem find?_upsertList (x : ν) (l : List ν) (k : κ) :
    (upsertList x l).find? (fun r => key r = k)
      = if k = key x then some x else l.find? (fun r => key r = k) := by
  induction l with
  | nil =>
      by_cases h : k = key x
      · simp [upsertList, h]
      · simp [upsertList, h, Ne.symm h]
  | cons y ys ih =>
      unfold upsertList
      split
      next he =>
        by_cases h : k = key x
        · simp [h]
        · simp [h, he, Ne.symm h]
      next he =>
        by_cases h : k = key x
        · subst h
          simp [he, ih]
        · by_cases hy : key y = k
          · simp [hy, h]
          · simp [hy, ih, h]

/-- **Reading after writing.** -/
@[simp] theorem lookup_upsert (T : Table ν) (x : ν) (k : κ) :
    (T.upsert x).lookup k = if k = key x then some x else T.lookup k :=
  find?_upsertList x T.rows k

/-- A write leaves the rows with other keys alone. -/
theorem lookup_upsert_ne {T : Table ν} {x : ν} {k : κ} (h : k ≠ key x) :
    (T.upsert x).lookup k = T.lookup k := by
  rw [lookup_upsert]
  exact if_neg h

theorem lookup_upsert_self {T : Table ν} {x : ν} {k : κ} (h : key x = k) :
    (T.upsert x).lookup k = some x := by
  rw [lookup_upsert]
  exact if_pos h.symm

theorem mem_upsert {T : Table ν} {x r : ν} :
    r ∈ (T.upsert x).rows ↔ r = x ∨ (r ∈ T.rows ∧ key r ≠ key x) := by
  have hmem : ∀ (U : Table ν) (y : ν), y ∈ U.rows ↔ U.lookup (key y) = some y :=
    fun U y => ⟨fun h => lookup_some_iff.mpr ⟨h, rfl⟩, mem_of_lookup⟩
  rw [hmem, lookup_upsert, hmem T r]
  by_cases h : key r = key x
  · simp only [h, ↓reduceIte, Option.some.injEq]
    constructor
    · intro he; exact Or.inl he.symm
    · rintro (he | ⟨-, hne⟩)
      · exact he.symm
      · exact absurd rfl hne
  · simp only [h, ↓reduceIte, ne_eq, not_false_eq_true, and_true]
    constructor
    · exact Or.inr
    · rintro (he | he)
      · exact absurd (congrArg key he) h
      · exact he

/-! ## §2. Sums over the rows. -/

section Sum

variable {A : Type} [AddCommGroup A]

/-- The sum of `f` over all rows. -/
def sum (T : Table ν) (f : ν → A) : A := (T.rows.map f).sum

/-- What the row with key `k` contributes to a sum. -/
def weight (T : Table ν) (f : ν → A) (k : κ) : A := ((T.lookup k).map f).getD 0

/-- **A write changes a sum by the new row minus the replaced one.** -/
theorem sum_upsert (T : Table ν) (f : ν → A) (x : ν) :
    (T.upsert x).sum f = T.sum f - T.weight f (key x) + f x := by
  have key_list : ∀ l : List ν, ((upsertList x l).map f).sum
      = (l.map f).sum - ((l.find? (fun r => key r = key x)).map f).getD 0 + f x := by
    intro l
    induction l with
    | nil => simp [upsertList]
    | cons y ys ih =>
        unfold upsertList
        split
        next h => simp [h]; abel
        next h => simp [h, ih]; abel
  exact key_list T.rows

theorem weight_of_lookup {T : Table ν} {f : ν → A} {k : κ} {r : ν}
    (h : T.lookup k = some r) : T.weight f k = f r := by
  simp [weight, h]

theorem weight_of_none {T : Table ν} {f : ν → A} {k : κ} (h : T.lookup k = none) :
    T.weight f k = 0 := by
  simp [weight, h]

theorem weight_upsert (T : Table ν) (f : ν → A) (x : ν) (k : κ) :
    (T.upsert x).weight f k = if k = key x then f x else T.weight f k := by
  unfold weight
  rw [lookup_upsert]
  split <;> rfl

theorem weight_upsert_ne {T : Table ν} {f : ν → A} {x : ν} {k : κ} (h : k ≠ key x) :
    (T.upsert x).weight f k = T.weight f k := by
  rw [weight_upsert, if_neg h]

omit [DecidableEq κ] in
/-- A sum of nothing but zeros. -/
theorem sum_eq_zero {T : Table ν} {f : ν → A} (h : ∀ r ∈ T.rows, f r = 0) : T.sum f = 0 := by
  unfold sum
  rw [List.map_congr_left h]
  simp

end Sum

/-! ## §3. What is read off the rows in order. -/

theorem upsertList_new {x : ν} {l : List ν} (h : key x ∉ l.map key) :
    upsertList x l = l ++ [x] := by
  induction l with
  | nil => rfl
  | cons y ys ih =>
      rw [List.map_cons, List.mem_cons, not_or] at h
      unfold upsertList
      rw [if_neg (Ne.symm h.1), ih h.2]
      rfl

/-- A row with a new key goes to the end. -/
theorem rows_upsert_new {T : Table ν} {x : ν} (h : T.lookup (key x) = none) :
    (T.upsert x).rows = T.rows ++ [x] :=
  upsertList_new (lookup_none_iff.mp h)

/-- Replacing a row by one that reads the same keeps what is read off. -/
theorem filterMap_upsert_same {β : Type} {T : Table ν} {x y : ν} {f : ν → Option β}
    (h : T.lookup (key x) = some y) (hf : f x = f y) :
    (T.upsert x).rows.filterMap f = T.rows.filterMap f := by
  have key_list : ∀ l : List ν, l.find? (fun r => key r = key x) = some y →
      (upsertList x l).filterMap f = l.filterMap f := by
    intro l
    induction l with
    | nil => intro hl; simp at hl
    | cons z zs ih =>
        intro hl
        unfold upsertList
        split
        next he =>
          rw [List.find?_cons_of_pos (by simpa using he)] at hl
          rw [Option.some.inj hl, List.filterMap_cons, List.filterMap_cons, hf]
        next he =>
          rw [List.find?_cons_of_neg (by simpa using he)] at hl
          rw [List.filterMap_cons, List.filterMap_cons, ih hl]
  exact key_list T.rows h

/-! ## §4. A list of writes. -/

/-- Apply the writes `rs`, the newest first in the list. -/
def upsertAll (T : Table ν) (rs : List ν) : Table ν := rs.foldr (fun r U => U.upsert r) T

@[simp] theorem upsertAll_nil (T : Table ν) : T.upsertAll [] = T := rfl

@[simp] theorem upsertAll_cons (T : Table ν) (r : ν) (rs : List ν) :
    T.upsertAll (r :: rs) = (T.upsertAll rs).upsert r := rfl

theorem lookup_upsertAll (T : Table ν) (rs : List ν) (k : κ) :
    (T.upsertAll rs).lookup k = (rs.find? (fun r => key r = k)).or (T.lookup k) := by
  induction rs with
  | nil => rfl
  | cons r rs ih =>
      rw [upsertAll_cons, lookup_upsert, ih]
      by_cases h : key r = k
      · simp [h]
      · simp [h, Ne.symm h]

/-- **A list of writes changes a sum by the new rows minus the replaced ones.** -/
theorem sum_upsertAll {A : Type} [AddCommGroup A] (T : Table ν) (f : ν → A) {rs : List ν}
    (h : (rs.map key).Nodup) :
    (T.upsertAll rs).sum f
      = T.sum f - (rs.map fun r => T.weight f (key r)).sum + (rs.map f).sum := by
  induction rs with
  | nil => simp
  | cons r rs ih =>
      rw [List.map_cons, List.nodup_cons] at h
      have hother : (T.upsertAll rs).weight f (key r) = T.weight f (key r) := by
        have hnone : rs.find? (fun r' => key r' = key r) = none := by
          rw [List.find?_eq_none]
          intro r' hr' hc
          exact h.1 (List.mem_map.mpr ⟨r', hr', of_decide_eq_true hc⟩)
        unfold weight
        rw [lookup_upsertAll, hnone]
        rfl
      rw [upsertAll_cons, sum_upsert, ih h.2, hother]
      simp only [List.map_cons, List.sum_cons]
      abel

end Table

end Nimbus.Lib
