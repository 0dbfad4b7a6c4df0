/-
  Nimbus.Lib.Expiring
  ───────────────────
  **KEYED STORES WHOSE ENTRIES LAPSE.**

  An entry may have a deadline: it is there up to and including that moment and
  gone after it, whether or not anything removes it.  What a read finds depends
  on the clock, so the clock is an argument of every read.

    • `get?`, `put`, `erase`
    • `entry_put_self`, `entry_erase_self`, … — the entries after each;
    • `get?_of_entry`                         — what a read finds of an entry;
    • `view`                                  — the entries under some keys, read
                                                as values of another type.
-/
import Mathlib.Logic.Function.Basic
import Mathlib.Tactic.Basic

namespace Nimbus.Lib

/-- A store; an entry without deadline stays. -/
structure Expiring (κ ν : Type) where
  entry : κ → Option (ν × Option Int)

namespace Expiring

variable {κ ν : Type}

/-- A deadline that has not passed. -/
def live (now : Int) : Option Int → Bool
  | none => true
  | some deadline => decide (now ≤ deadline)

@[simp] theorem live_some (now deadline : Int) :
    live now (some deadline) = decide (now ≤ deadline) := rfl

def empty : Expiring κ ν := ⟨fun _ => none⟩

/-- What is found at `now`. -/
def get? (s : Expiring κ ν) (now : Int) (k : κ) : Option ν :=
  match s.entry k with
  | none => none
  | some (v, deadline) => if live now deadline then some v else none

@[simp] theorem get?_empty (now : Int) (k : κ) : (empty : Expiring κ ν).get? now k = none := rfl

theorem get?_of_entry {s : Expiring κ ν} {now : Int} {k : κ} {v : ν} {deadline : Option Int}
    (h : s.entry k = some (v, deadline)) :
    s.get? now k = if live now deadline then some v else none := by
  unfold get?
  rw [h]

theorem get?_of_none {s : Expiring κ ν} {now : Int} {k : κ} (h : s.entry k = none) :
    s.get? now k = none := by
  unfold get?
  rw [h]

/-- A read looks at the one entry. -/
theorem get?_congr {s s' : Expiring κ ν} {k : κ} (h : s.entry k = s'.entry k) (now : Int) :
    s.get? now k = s'.get? now k := by
  unfold get?
  rw [h]

variable [DecidableEq κ]

def put (s : Expiring κ ν) (k : κ) (v : ν) (deadline : Option Int) : Expiring κ ν :=
  ⟨Function.update s.entry k (some (v, deadline))⟩

def erase (s : Expiring κ ν) (k : κ) : Expiring κ ν := ⟨Function.update s.entry k none⟩

@[simp] theorem entry_put_self (s : Expiring κ ν) (k : κ) (v : ν) (deadline : Option Int) :
    (s.put k v deadline).entry k = some (v, deadline) := Function.update_self ..

theorem entry_put_of_ne (s : Expiring κ ν) {k k' : κ} (v : ν) (deadline : Option Int)
    (h : k' ≠ k) : (s.put k v deadline).entry k' = s.entry k' := Function.update_of_ne h ..

@[simp] theorem entry_erase_self (s : Expiring κ ν) (k : κ) : (s.erase k).entry k = none :=
  Function.update_self ..

theorem entry_erase_of_ne (s : Expiring κ ν) {k k' : κ} (h : k' ≠ k) :
    (s.erase k).entry k' = s.entry k' := Function.update_of_ne h ..

theorem get?_put_self (s : Expiring κ ν) (now : Int) (k : κ) (v : ν) (deadline : Option Int) :
    (s.put k v deadline).get? now k = if live now deadline then some v else none :=
  get?_of_entry (entry_put_self s k v deadline)

@[simp] theorem get?_erase_self (s : Expiring κ ν) (now : Int) (k : κ) :
    (s.erase k).get? now k = none := get?_of_none (entry_erase_self s k)

/-! ## §2. Views. -/

section View

variable {μ : Type} {p : κ → Bool} {f : ν → Option μ} {s : Expiring κ ν} {k : κ} {v : ν}
  {deadline : Option Int}

omit [DecidableEq κ] in
/-- The entries under the keys of `p`, as `f` reads their values. -/
def view (p : κ → Bool) (f : ν → Option μ) (s : Expiring κ ν) : Expiring κ μ :=
  ⟨fun k => if p k then (s.entry k).bind fun e => (f e.1).map fun w => (w, e.2) else none⟩

omit [DecidableEq κ] in
theorem entry_view (hp : p k = true) :
    (s.view p f).entry k = (s.entry k).bind fun e => (f e.1).map fun w => (w, e.2) := if_pos hp

omit [DecidableEq κ] in
/-- A read through a view. -/
theorem get?_view (now : Int) (hp : p k = true) :
    (s.view p f).get? now k = (s.get? now k).bind f := by
  unfold get?
  rw [entry_view hp]
  cases s.entry k with
  | none => rfl
  | some e =>
      cases hf : f e.1 with
      | none =>
          show (match (f e.1).map fun w => (w, e.2) with
            | none => none
            | some (v, deadline) => if live now deadline then some v else none) = _
          rw [hf]
          show none = (if live now e.2 then some e.1 else none).bind f
          split
          next => exact hf.symm
          next => rfl
      | some w =>
          show (match (f e.1).map fun w => (w, e.2) with
            | none => none
            | some (v, deadline) => if live now deadline then some v else none) = _
          rw [hf]
          show (if live now e.2 then some w else none) = (if live now e.2 then some e.1 else none).bind f
          split
          next => exact hf.symm
          next => rfl

theorem view_put {w : μ} (hp : p k = true) (hf : f v = some w) :
    (s.put k v deadline).view p f = (s.view p f).put k w deadline := by
  refine congrArg Expiring.mk (funext fun k' => ?_)
  show (if p k' then (Function.update s.entry k (some (v, deadline)) k').bind _ else none)
    = Function.update (s.view p f).entry k (some (w, deadline)) k'
  by_cases hk : k' = k
  · subst hk
    rw [Function.update_self, Function.update_self, if_pos hp]
    show (f v).map (fun w => (w, deadline)) = _
    rw [hf]
    rfl
  · rw [Function.update_of_ne hk, Function.update_of_ne hk]
    rfl

theorem view_erase (hp : p k = true) : (s.erase k).view p f = (s.view p f).erase k := by
  refine congrArg Expiring.mk (funext fun k' => ?_)
  show (if p k' then (Function.update s.entry k none k').bind _ else none)
    = Function.update (s.view p f).entry k none k'
  by_cases hk : k' = k
  · subst hk
    rw [Function.update_self, Function.update_self, if_pos hp]
    rfl
  · rw [Function.update_of_ne hk, Function.update_of_ne hk]
    rfl

/-- A write under another key does not show. -/
theorem view_put_other (hp : p k = false) : (s.put k v deadline).view p f = s.view p f := by
  refine congrArg Expiring.mk (funext fun k' => ?_)
  show (if p k' then (Function.update s.entry k (some (v, deadline)) k').bind _ else none) = _
  by_cases hk : k' = k
  · subst hk
    rw [if_neg (by rw [hp]; decide), if_neg (by rw [hp]; decide)]
  · rw [Function.update_of_ne hk]

theorem view_erase_other (hp : p k = false) : (s.erase k).view p f = s.view p f := by
  refine congrArg Expiring.mk (funext fun k' => ?_)
  show (if p k' then (Function.update s.entry k none k').bind _ else none) = _
  by_cases hk : k' = k
  · subst hk
    rw [if_neg (by rw [hp]; decide), if_neg (by rw [hp]; decide)]
  · rw [Function.update_of_ne hk]

end View

end Expiring

end Nimbus.Lib
