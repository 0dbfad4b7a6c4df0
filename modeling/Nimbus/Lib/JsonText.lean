/-
  Nimbus.Lib.JsonText
  ───────────────────
  **JSON STRING LITERALS ARE A PREFIX CODE.**

  A string literal in ASCII-only JSON: quotes, backslashes and control
  characters get their short escapes, every other character outside the
  printable ASCII range becomes `\uXXXX`, one outside the basic plane a pair of
  surrogates.  The text between the quotes can be read back without knowing
  where it ends, whatever follows it.

    • `escapeChar`, `escape`, `quoted` — the encoder;
    • `decodeOne`       — reads one character back from the front;
    • `quoted_append_inj` — two literals followed by any text are equal only
                          if the strings and the rests are.
-/
import Mathlib.Data.List.Basic
import Mathlib.Tactic.Basic

namespace Nimbus.Lib.JsonText

/-! ## §1. The encoder. -/

/-- The characters JSON treats specially. -/
def quote : Char := '\u0022'
def backslash : Char := '\u005c'

/-- A lower-case hexadecimal digit. -/
def hexDigit (d : Nat) : Char := if d < 10 then Char.ofNat (48 + d) else Char.ofNat (87 + d)

/-- Its value. -/
def hexValue (c : Char) : Nat := if c.toNat < 58 then c.toNat - 48 else c.toNat - 87

/-- Four hexadecimal digits. -/
def hex4 (n : Nat) : List Char :=
  [hexDigit (n / 4096 % 16), hexDigit (n / 256 % 16), hexDigit (n / 16 % 16), hexDigit (n % 16)]

/-- `\uXXXX`. -/
def unicodeEscape (n : Nat) : List Char := backslash :: 'u' :: hex4 n

/-- The letter of the short escape of a character that has one. -/
def shortEscape (c : Char) : Option Char :=
  if c = quote then some quote
  else if c = backslash then some backslash
  else if c.toNat = 10 then some 'n'
  else if c.toNat = 13 then some 'r'
  else if c.toNat = 9 then some 't'
  else if c.toNat = 12 then some 'f'
  else if c.toNat = 8 then some 'b'
  else none

/-- One character inside a literal. -/
def escapeChar (c : Char) : List Char :=
  match shortEscape c with
  | some e => [backslash, e]
  | none =>
      if 32 ≤ c.toNat ∧ c.toNat < 127 then [c]
      else if c.toNat < 65536 then unicodeEscape c.toNat
      else unicodeEscape (55296 + (c.toNat - 65536) / 1024)
        ++ unicodeEscape (56320 + (c.toNat - 65536) % 1024)

/-- The characters of a string inside a literal. -/
def escape (s : List Char) : List Char := s.flatMap escapeChar

/-- The literal. -/
def quoted (s : List Char) : List Char := quote :: (escape s ++ [quote])

/-! ## §2. Reading one character back. -/

/-- The value of four hexadecimal digits. -/
def unhex4 (a b c d : Char) : Nat :=
  hexValue a * 4096 + hexValue b * 256 + hexValue c * 16 + hexValue d

/-- The character a short escape stands for. -/
def shortUnescape (e : Char) : Char :=
  if e = 'n' then Char.ofNat 10
  else if e = 'r' then Char.ofNat 13
  else if e = 't' then Char.ofNat 9
  else if e = 'f' then Char.ofNat 12
  else if e = 'b' then Char.ofNat 8
  else e

/-- A `\uXXXX` escape with code unit `n`, the text after it being `r`: a high
surrogate takes the low one with it. -/
def decodeUnit (n : Nat) (r : List Char) : Option (Char × List Char) :=
  if 55296 ≤ n ∧ n < 56320 then
    match r with
    | _ :: _ :: e :: f :: g :: h :: r' =>
        some (Char.ofNat (65536 + (n - 55296) * 1024 + (unhex4 e f g h - 56320)), r')
    | _ => none
  else some (Char.ofNat n, r)

/-- Read one character from the front of a literal's text. -/
def decodeOne : List Char → Option (Char × List Char)
  | [] => none
  | x :: r =>
      if x = backslash then
        match r with
        | [] => none
        | y :: r =>
            if y = 'u' then
              match r with
              | a :: b :: c :: d :: r => decodeUnit (unhex4 a b c d) r
              | _ => none
            else some (shortUnescape y, r)
      else some (x, r)

theorem hexValue_hexDigit {d : Nat} (h : d < 16) : hexValue (hexDigit d) = d := by
  have key : ∀ k : Fin 16, hexValue (hexDigit k) = k := by decide
  exact key ⟨d, h⟩

theorem unhex4_hex4 {n : Nat} (h : n < 65536) :
    unhex4 (hexDigit (n / 4096 % 16)) (hexDigit (n / 256 % 16)) (hexDigit (n / 16 % 16))
      (hexDigit (n % 16)) = n := by
  unfold unhex4
  rw [hexValue_hexDigit (Nat.mod_lt _ (by decide)), hexValue_hexDigit (Nat.mod_lt _ (by decide)),
    hexValue_hexDigit (Nat.mod_lt _ (by decide)), hexValue_hexDigit (Nat.mod_lt _ (by decide))]
  omega

theorem decodeOne_unicodeEscape {n : Nat} (h : n < 65536) (r : List Char) :
    decodeOne (unicodeEscape n ++ r) = decodeUnit n r := by
  have hu := unhex4_hex4 h
  simp only [unicodeEscape, hex4, List.cons_append, List.nil_append, decodeOne, ↓reduceIte, hu]

theorem decodeUnit_plain {n : Nat} (h : ¬ (55296 ≤ n ∧ n < 56320)) (r : List Char) :
    decodeUnit n r = some (Char.ofNat n, r) := by
  unfold decodeUnit
  rw [if_neg h]

theorem decodeUnit_pair {n m : Nat} (h : 55296 ≤ n) (h' : n < 56320) (hm : m < 65536)
    (r : List Char) :
    decodeUnit n (unicodeEscape m ++ r)
      = some (Char.ofNat (65536 + (n - 55296) * 1024 + (m - 56320)), r) := by
  have hu := unhex4_hex4 hm
  unfold decodeUnit
  rw [if_pos ⟨h, h'⟩]
  simp only [unicodeEscape, hex4, List.cons_append, List.nil_append, hu]

/-- The short escapes come back. -/
theorem shortUnescape_shortEscape {c e : Char} (h : shortEscape c = some e) :
    e ≠ 'u' ∧ shortUnescape e = c := by
  have back : ∀ {n : Nat}, c.toNat = n → Char.ofNat n = c := by
    intro n hn
    rw [← hn, Char.ofNat_toNat]
  unfold shortEscape at h
  split_ifs at h with h₁ h₂ h₃ h₄ h₅ h₆ h₇ <;> obtain rfl := Option.some.inj h
  · subst h₁; decide
  · subst h₂; decide
  · exact ⟨by decide, back h₃⟩
  · exact ⟨by decide, back h₄⟩
  · exact ⟨by decide, back h₅⟩
  · exact ⟨by decide, back h₆⟩
  · exact ⟨by decide, back h₇⟩

theorem char_not_surrogate (c : Char) : c.toNat < 55296 ∨ 57343 < c.toNat := by
  rcases c.valid with h | h
  · exact Or.inl h
  · exact Or.inr h.1

theorem char_lt (c : Char) : c.toNat < 1114112 := by
  rcases c.valid with h | h
  · exact Nat.lt_trans h (by decide)
  · exact h.2

/-- **One character is read back, whatever follows.** -/
theorem decodeOne_escapeChar (c : Char) (r : List Char) :
    decodeOne (escapeChar c ++ r) = some (c, r) := by
  have hlt := char_lt c
  have hns := char_not_surrogate c
  unfold escapeChar
  split
  next e he =>
    obtain ⟨hu, hback⟩ := shortUnescape_shortEscape he
    simp only [List.cons_append, List.nil_append, decodeOne, ↓reduceIte, if_neg hu, hback]
  next hnone =>
    split_ifs with hp hb
    · have hne : c ≠ backslash := by
        rintro rfl
        exact absurd hnone (by decide)
      simp only [List.cons_append, List.nil_append, decodeOne, if_neg hne]
    · rw [decodeOne_unicodeEscape hb, decodeUnit_plain (by omega), Char.ofNat_toNat]
    · -- a pair of surrogates: the second escape is read as four digits
      rw [List.append_assoc, decodeOne_unicodeEscape (by omega),
        decodeUnit_pair (by omega) (by omega) (by omega)]
      rw [show 65536 + (55296 + (c.toNat - 65536) / 1024 - 55296) * 1024
          + (56320 + (c.toNat - 65536) % 1024 - 56320) = c.toNat by omega, Char.ofNat_toNat]

/-! ## §3. The code is prefix-free. -/

/-- The text of a character never begins with the closing quote. -/
theorem escapeChar_ne_quote (c : Char) (r r' : List Char) :
    escapeChar c ++ r ≠ quote :: r' := by
  intro h
  have hdec := decodeOne_escapeChar c r
  rw [h] at hdec
  have hq : decodeOne (quote :: r') = some (quote, r') := by
    simp only [decodeOne, if_neg (show quote ≠ backslash by decide)]
  rw [hq] at hdec
  obtain ⟨rfl, -⟩ := Prod.mk.inj (Option.some.inj hdec)
  have hb : (escapeChar quote ++ r).head? = some backslash := rfl
  rw [h] at hb
  exact absurd (Option.some.inj hb) (by decide)

theorem escape_append_inj : ∀ {s₁ s₂ r₁ r₂ : List Char},
    escape s₁ ++ quote :: r₁ = escape s₂ ++ quote :: r₂ → s₁ = s₂ ∧ r₁ = r₂ := by
  intro s₁
  induction s₁ with
  | nil =>
      intro s₂ r₁ r₂ h
      cases s₂ with
      | nil => exact ⟨rfl, (List.cons.inj h).2⟩
      | cons c s₂ =>
          simp only [escape, List.flatMap_cons, List.append_assoc] at h
          exact absurd h.symm (escapeChar_ne_quote c _ _)
  | cons c s₁ ih =>
      intro s₂ r₁ r₂ h
      cases s₂ with
      | nil =>
          simp only [escape, List.flatMap_cons, List.append_assoc] at h
          exact absurd h (escapeChar_ne_quote c _ _)
      | cons d s₂ =>
          simp only [escape, List.flatMap_cons, List.append_assoc] at h
          have hdec := congrArg decodeOne h
          rw [decodeOne_escapeChar, decodeOne_escapeChar] at hdec
          obtain ⟨rfl, hrest⟩ := Prod.mk.inj (Option.some.inj hdec)
          obtain ⟨rfl, hr⟩ := ih hrest
          exact ⟨rfl, hr⟩

/-- **A literal followed by any text determines the string and the text.** -/
theorem quoted_append_inj {s₁ s₂ r₁ r₂ : List Char}
    (h : quoted s₁ ++ r₁ = quoted s₂ ++ r₂) : s₁ = s₂ ∧ r₁ = r₂ := by
  simp only [quoted, List.cons_append, List.append_assoc, List.nil_append, List.cons.injEq,
    true_and] at h
  exact escape_append_inj h

end Nimbus.Lib.JsonText
