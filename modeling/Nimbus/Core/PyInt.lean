/-
  Nimbus.Core.PyInt
  ─────────────────
  **`int` OF A TEXT.**

  Blanks around, a sign, and decimal digits of any script with single underscores
  between them; no more than 4300 digits.  Which characters are digits, and of
  which value, is a parameter.

    • `literal`, `ofText`
    • `ofText_zero_iff` — **it is zero exactly when all its digits are.**
-/
import Nimbus.Core.Uuid
import Mathlib.Data.Nat.Digits.Defs

namespace Nimbus.PyInt

/-- The value of a decimal digit: `unicodedata.decimal`. -/
abbrev Digit := Char → Option Nat

/-- The digits of ASCII. -/
def asciiDigit : Digit := fun c => if c.isDigit then some (c.toNat - 48) else none

/-- Digits with single underscores between them; `under` says whether an
underscore may come next. -/
def digits (digit : Digit) (under : Bool) : List Char → Option (List Nat)
  | [] => if under then some [] else none
  | c :: cs =>
      if c = '_' then (if under then digits digit false cs else none)
      else (digit c).bind fun d => (digits digit true cs).map (d :: ·)

/-- Whether there is a minus sign, and the digits. -/
def literal (digit : Digit) (s : List Char) : Option (Bool × List Nat) :=
  match Uuid.strip Uuid.isIntSpace s with
  | '-' :: cs => (digits digit false cs).map fun ds => (true, ds)
  | '+' :: cs => (digits digit false cs).map fun ds => (false, ds)
  | cs => (digits digit false cs).map fun ds => (false, ds)

/-- `sys.get_int_max_str_digits()` -/
def maxStrDigits : Nat := 4300

/-- `int(s)`; `none` where Python raises `ValueError`. -/
def ofText (digit : Digit) (s : List Char) : Option Int :=
  match literal digit s with
  | none => none
  | some (negative, ds) =>
      if ds.length ≤ maxStrDigits then
        some (if negative then -(Nat.ofDigits 10 ds.reverse : Int) else Nat.ofDigits 10 ds.reverse)
      else none

/-- A literal that is read, with these digits. -/
def Reads (digit : Digit) (s : List Char) (ds : List Nat) : Prop :=
  (∃ negative, literal digit s = some (negative, ds)) ∧ ds.length ≤ maxStrDigits

theorem ofDigits_eq_zero_iff {b : Nat} (hb : b ≠ 0) (ds : List Nat) :
    Nat.ofDigits b ds = 0 ↔ ∀ d ∈ ds, d = 0 := by
  induction ds with
  | nil => simp
  | cons d ds ih =>
      rw [Nat.ofDigits_cons, Nat.add_eq_zero_iff, Nat.mul_eq_zero, ih]
      simp [hb]

/-- A text is read as an integer exactly when it is a literal. -/
theorem ofText_some_iff {digit : Digit} {s : List Char} :
    (∃ n, ofText digit s = some n) ↔ ∃ ds, Reads digit s ds := by
  unfold ofText Reads
  cases hl : literal digit s with
  | none =>
      refine iff_of_false (fun ⟨_, h⟩ => nomatch h) ?_
      rintro ⟨_, ⟨_, h⟩, _⟩
      cases h
  | some x =>
      obtain ⟨negative, ds⟩ := x
      by_cases hmax : ds.length ≤ maxStrDigits
      · exact iff_of_true ⟨_, if_pos hmax⟩ ⟨ds, ⟨negative, rfl⟩, hmax⟩
      · refine iff_of_false ?_ ?_
        · rintro ⟨n, h⟩
          dsimp only at h
          rw [if_neg hmax] at h
          cases h
        · rintro ⟨ds', ⟨negative', h⟩, hmax'⟩
          obtain ⟨rfl, rfl⟩ := Prod.mk.inj (Option.some.inj h)
          exact hmax hmax'

/-- **It is zero exactly when all its digits are.** -/
theorem ofText_zero_iff {digit : Digit} {s : List Char} :
    ofText digit s = some 0 ↔ ∃ ds, Reads digit s ds ∧ ∀ d ∈ ds, d = 0 := by
  unfold ofText Reads
  cases hl : literal digit s with
  | none =>
      refine iff_of_false (fun h => nomatch h) ?_
      rintro ⟨_, ⟨⟨_, h⟩, _⟩, _⟩
      cases h
  | some x =>
      obtain ⟨negative, ds⟩ := x
      -- the value is zero when every digit is
      have hvalue : (if negative then -(Nat.ofDigits 10 ds.reverse : Int)
          else Nat.ofDigits 10 ds.reverse) = 0 ↔ ∀ d ∈ ds, d = 0 := by
        have hzero := ofDigits_eq_zero_iff (b := 10) (by decide) ds.reverse
        simp only [List.mem_reverse] at hzero
        rw [← hzero]
        cases negative <;> simp <;> norm_cast
      by_cases hmax : ds.length ≤ maxStrDigits
      · dsimp only
        rw [if_pos hmax, Option.some.injEq, hvalue]
        constructor
        · intro hall
          exact ⟨ds, ⟨⟨negative, rfl⟩, hmax⟩, hall⟩
        · rintro ⟨ds', ⟨⟨negative', h⟩, -⟩, hall⟩
          obtain ⟨rfl, rfl⟩ := Prod.mk.inj (Option.some.inj h)
          exact hall
      · -- more digits than `int` takes
        refine iff_of_false ?_ ?_
        · dsimp only
          rw [if_neg hmax]
          exact fun h => nomatch h
        · rintro ⟨ds', ⟨⟨negative', h⟩, hmax'⟩, -⟩
          obtain ⟨rfl, rfl⟩ := Prod.mk.inj (Option.some.inj h)
          exact hmax hmax'

end Nimbus.PyInt
