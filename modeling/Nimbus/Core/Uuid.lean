/-
  Nimbus.Core.Uuid
  ────────────────
  **UUIDS AND THEIR TEXT FORMS.**

  Python's `uuid.UUID` as far as the services use it: the canonical text
  `str(u)`, the 32 digits `u.hex`, and `uuid.UUID(text)`, which strips
  `urn:`/`uuid:`, braces and hyphens and hands 32 characters to `int(·, 16)`,
  digits of any script among them.  Pydantic reads fewer texts than that.

    • `Uuid.str`, `Uuid.hex`, `Uuid.parse`
    • `Uuid.validate`                — what pydantic reads;
    • `parse_str`, `validate_str`    — `UUID(str(u)) = u`;
    • `str_injective`, `hex_injective` — so ids and lock tokens are as
                                       distinct as the values they stand for.
-/
import Nimbus.Lib.JsonText
import Mathlib.Algebra.Group.Nat.Defs

namespace Nimbus

open Lib.JsonText (hexDigit)

/-- A 128-bit identifier. -/
structure Uuid where
  val : Nat
  lt : val < 2 ^ 128
deriving DecidableEq

namespace Uuid

/-- The identifier with the low 128 bits of `n`. -/
def ofNat (n : Nat) : Uuid := ⟨n % 2 ^ 128, Nat.mod_lt _ (by decide)⟩

@[ext] theorem ext {u v : Uuid} (h : u.val = v.val) : u = v := by
  cases u
  cases v
  cases h
  rfl

/-! ## §1. Writing. -/

/-- The low `k` hexadecimal digits of `n`. -/
def hexDigits (n : Nat) : Nat → List Char
  | 0 => []
  | k + 1 => hexDigits (n / 16) k ++ [hexDigit (n % 16)]

/-- `u.hex`. -/
def hex (u : Uuid) : String := String.ofList (hexDigits u.val 32)

/-- Hyphens after the 8th, 12th, 16th and 20th digit. -/
def hyphenate (ds : List Char) : List Char :=
  ds.take 8 ++ '-' :: ((ds.drop 8).take 4 ++ '-' :: ((ds.drop 12).take 4
    ++ '-' :: ((ds.drop 16).take 4 ++ '-' :: ds.drop 20)))

/-- `str(u)`. -/
def str (u : Uuid) : String := String.ofList (hyphenate (hexDigits u.val 32))

/-! ## §2. Reading. -/

/-- `s.replace(pat, '')`, where `skip` characters of a match are still to go. -/
def dropSubstr (pat : List Char) (skip : Nat) : List Char → List Char
  | [] => []
  | c :: cs =>
      match skip with
      | k + 1 => dropSubstr pat k cs
      | 0 =>
          if pat.isPrefixOf (c :: cs) then dropSubstr pat (pat.length - 1) cs
          else c :: dropSubstr pat 0 cs

/-- `s.strip(chars)` for the characters satisfying `p`. -/
def strip (p : Char → Bool) (s : List Char) : List Char :=
  (((s.dropWhile p).reverse).dropWhile p).reverse

def isBrace (c : Char) : Bool := c = '\x7b' || c = '\x7d'

/-- `str.isspace`: what `str.strip` strips. -/
def isSpace (c : Char) : Bool :=
  (9 ≤ c.toNat && c.toNat ≤ 13) || (28 ≤ c.toNat && c.toNat ≤ 32)
    || [133, 160, 5760, 8232, 8233, 8239, 8287, 12288].contains c.toNat
    || (8192 ≤ c.toNat && c.toNat ≤ 8202)

/-- What `int` strips: not the four separators of ASCII. -/
def isIntSpace (c : Char) : Bool := isSpace c && !(28 ≤ c.toNat && c.toNat ≤ 31)

/-- The decimal digits of all scripts: each of these zeros is followed by the other
nine digits of its script. -/
def decimalZeros : List Nat :=
  [48, 1632, 1776, 1984, 2406, 2534, 2662, 2790, 2918, 3046, 3174, 3302, 3430, 3558, 3664, 3792,
    3872, 4160, 4240, 6112, 6160, 6470, 6608, 6784, 6800, 6992, 7088, 7232, 7248, 42528, 43216,
    43264, 43472, 43504, 43600, 44016, 65296, 66720, 68912, 69734, 69872, 69942, 70096, 70384,
    70736, 70864, 71248, 71360, 71472, 71904, 72016, 72784, 73040, 73120, 73552, 92768, 92864,
    93008, 120782, 120792, 120802, 120812, 120822, 123200, 123632, 124144, 125264, 130032]

/-- `unicodedata.decimal(c)`, in Unicode 15. -/
def decimal (c : Char) : Option Nat :=
  (decimalZeros.find? fun z => z ≤ c.toNat ∧ c.toNat ≤ z + 9).map (c.toNat - ·)

/-- `int` reads a decimal digit of any script as that of ASCII. -/
def asciiDigit (c : Char) : Char :=
  match decimal c with
  | some d => Char.ofNat (48 + d)
  | none => c

/-- The value of a hexadecimal digit of either case, in ASCII. -/
def digitValue (c : Char) : Option Nat :=
  if 48 ≤ c.toNat ∧ c.toNat ≤ 57 then some (c.toNat - 48)
  else if 97 ≤ c.toNat ∧ c.toNat ≤ 102 then some (c.toNat - 87)
  else if 65 ≤ c.toNat ∧ c.toNat ≤ 70 then some (c.toNat - 55)
  else none

/-- Digits of an `int` literal with single underscores between them; `under`
says whether an underscore may come next. -/
def digits16 (under : Bool) (acc : Nat) : List Char → Option Nat
  | [] => if under then some acc else none
  | c :: cs =>
      if c = '_' then (if under then digits16 false acc cs else none)
      else (digitValue c).bind fun d => digits16 true (16 * acc + d) cs

/-- The digits of an `int(·, 16)` literal, after its optional prefix `0x` or `0x_`. -/
def unprefixed (s : List Char) : Option Nat :=
  match s with
  | '0' :: x :: cs =>
      if x = 'x' ∨ x = 'X' then
        match cs with
        | '_' :: ds => digits16 false 0 ds
        | ds => digits16 false 0 ds
      else digits16 false 0 s
  | _ => digits16 false 0 s

/-- `int(s, 16)`: surrounding blanks and a sign are allowed. -/
def int16 (s : List Char) : Option Nat :=
  match strip isIntSpace (s.map asciiDigit) with
  | '+' :: cs => unprefixed cs
  | cs => unprefixed cs

/-- `uuid.UUID(s)`; `none` where Python raises `ValueError`. -/
def parse (s : String) : Option Uuid :=
  let stripped := strip isBrace (dropSubstr "uuid:".toList 0 (dropSubstr "urn:".toList 0 s.toList))
  let digits := stripped.filter (· ≠ '-')
  if digits.length = 32 then
    (int16 digits).bind fun n => if h : n < 2 ^ 128 then some ⟨n, h⟩ else none
  else none

/-- The 32 digits of a UUID. -/
def ofHex (ds : List Char) : Option Uuid :=
  if ds.length = 32 ∧ ds.all (fun c => (digitValue c).isSome) = true then
    (digits16 false 0 ds).bind fun n => if h : n < 2 ^ 128 then some ⟨n, h⟩ else none
  else none

/-- The 32 digits with their hyphens. -/
def ofHyphenated (s : List Char) : Option Uuid :=
  if hyphenate (s.filter (· ≠ '-')) = s then ofHex (s.filter (· ≠ '-')) else none

/-- The UUID texts that pydantic takes: 32 digits, or with hyphens in their places, so
also in braces or as a URN. -/
def validate (s : String) : Option Uuid :=
  match s.toList.length with
  | 32 => ofHex s.toList
  | 36 => ofHyphenated s.toList
  | 38 =>
      if s.toList.head? = some '\x7b' ∧ s.toList.getLast? = some '\x7d' then
        ofHyphenated (s.toList.drop 1).dropLast
      else none
  | 45 =>
      if "urn:uuid:".toList.isPrefixOf s.toList then ofHyphenated (s.toList.drop 9) else none
  | _ => none

/-! ## §3. What is written is read back. -/

/-- The characters of `u.hex`. -/
def Plain (c : Char) : Prop := ∃ d, d < 16 ∧ c = hexDigit d

theorem plain_of_mem_hexDigits {c : Char} : ∀ {k n : Nat}, c ∈ hexDigits n k → Plain c := by
  intro k
  induction k with
  | zero => intro n h; cases h
  | succ k ih =>
      intro n h
      rcases List.mem_append.mp h with h | h
      · exact ih h
      · exact ⟨n % 16, Nat.mod_lt _ (by decide), List.mem_singleton.mp h⟩

/-- A digit is none of the characters the reader looks for. -/
theorem Plain.ne {c : Char} (h : Plain c) :
    isBrace c = false ∧ isIntSpace c = false ∧ c ∉ ['-', ':', '_', '+', 'x', 'X'] := by
  obtain ⟨d, hd, rfl⟩ := h
  have key : ∀ k : Fin 16, isBrace (hexDigit k) = false ∧ isIntSpace (hexDigit k) = false
      ∧ hexDigit k ∉ ['-', ':', '_', '+', 'x', 'X'] := by decide
  exact key ⟨d, hd⟩

theorem digitValue_hexDigit {d : Nat} (h : d < 16) : digitValue (hexDigit d) = some d := by
  have key : ∀ k : Fin 16, digitValue (hexDigit k) = some k.val := by decide
  exact key ⟨d, h⟩

theorem length_hexDigits (n k : Nat) : (hexDigits n k).length = k := by
  induction k generalizing n with
  | zero => rfl
  | succ k ih => simp [hexDigits, ih]

theorem length_hyphenate {ds : List Char} (h : ds.length = 32) : (hyphenate ds).length = 36 := by
  unfold hyphenate
  simp only [List.length_append, List.length_cons, List.length_take, List.length_drop, h]
  omega

/-- The canonical text has 36 characters. -/
theorem length_str (u : Uuid) : u.str.length = 36 := by
  unfold str
  rw [String.length_ofList]
  exact length_hyphenate (length_hexDigits _ _)

/-- Reading `k` digits of `n` shifts the accumulator by `k` digits. -/
theorem digits16_hexDigits (k : Nat) : ∀ (n acc : Nat) (under : Bool) (r : List Char),
    digits16 under acc (hexDigits n k ++ r)
      = digits16 (under || decide (0 < k)) (16 ^ k * acc + n % 16 ^ k) r := by
  induction k with
  | zero => intro n acc under r; simp [hexDigits, Nat.mod_one]
  | succ k ih =>
      intro n acc under r
      have hd : n % 16 < 16 := Nat.mod_lt _ (by decide)
      have hne : hexDigit (n % 16) ≠ '_' := by
        intro h
        exact (Plain.ne ⟨n % 16, hd, rfl⟩).2.2 (by simp [h])
      rw [hexDigits, List.append_assoc, ih]
      simp only [List.cons_append, List.nil_append, digits16, if_neg hne, digitValue_hexDigit hd,
        Option.bind_some, Nat.zero_lt_succ, decide_true, Bool.or_true]
      have hmod : n % 16 ^ (k + 1) = n % 16 + 16 * (n / 16 % 16 ^ k) := by
        rw [Nat.pow_succ', Nat.mod_mul]
      rw [hmod, Nat.pow_succ']
      congr 1
      rw [Nat.mul_add, Nat.mul_assoc, Nat.add_assoc, Nat.add_comm (n % 16)]

theorem dropSubstr_of_not_mem {pat s : List Char} {x : Char} (hx : x ∈ pat) (hs : x ∉ s) :
    dropSubstr pat 0 s = s := by
  induction s with
  | nil => rfl
  | cons c cs ih =>
      rw [List.mem_cons, not_or] at hs
      have hnot : ¬ pat.isPrefixOf (c :: cs) = true := by
        intro h
        have hmem := (List.isPrefixOf_iff_prefix.mp h).subset hx
        rcases List.mem_cons.mp hmem with h | h
        · exact hs.1 h
        · exact hs.2 h
      simp only [dropSubstr, hnot, ih hs.2, Bool.false_eq_true, if_false]

theorem dropWhile_of_forall {p : Char → Bool} {s : List Char} (h : ∀ c ∈ s, p c = false) :
    s.dropWhile p = s := by
  cases s with
  | nil => rfl
  | cons c cs => simp [h c List.mem_cons_self]

theorem strip_of_forall {p : Char → Bool} {s : List Char} (h : ∀ c ∈ s, p c = false) :
    strip p s = s := by
  unfold strip
  rw [dropWhile_of_forall h, dropWhile_of_forall (fun c hc => h c (List.mem_reverse.mp hc)),
    List.reverse_reverse]

theorem asciiDigit_of_plain {c : Char} (h : Plain c) : asciiDigit c = c := by
  obtain ⟨d, hd, rfl⟩ := h
  have key : ∀ k : Fin 16, asciiDigit (hexDigit k) = hexDigit k := by decide
  exact key ⟨d, hd⟩

theorem int16_of_plain {ds : List Char} (h : ∀ c ∈ ds, Plain c) :
    int16 ds = digits16 false 0 ds := by
  have hx : ∀ {x : Char}, x ∈ ds → x ≠ '+' ∧ ¬ (x = 'x' ∨ x = 'X') := by
    intro x hm
    have hn := (h x hm).ne.2.2
    simp only [List.mem_cons, not_or] at hn
    exact ⟨hn.2.2.2.1, fun hor => hor.elim hn.2.2.2.2.1 hn.2.2.2.2.2.1⟩
  have hascii : ds.map asciiDigit = ds := by
    rw [List.map_congr_left fun c hc => asciiDigit_of_plain (h c hc), List.map_id']
  have hstrip : strip isIntSpace ds = ds := strip_of_forall fun c hc => (h c hc).ne.2.1
  have hpre : unprefixed ds = digits16 false 0 ds := by
    unfold unprefixed
    split
    next x cs => rw [if_neg (hx (by simp)).2]
    next => rfl
  unfold int16
  rw [hascii, hstrip]
  split
  next cs => exact absurd rfl (hx List.mem_cons_self).1
  next => exact hpre

theorem mem_hyphenate {ds : List Char} {c : Char} (h : c ∈ hyphenate ds) : c ∈ ds ∨ c = '-' := by
  simp only [hyphenate, List.mem_append, List.mem_cons] at h
  rcases h with h | h | h | h | h | h | h | h | h
  · exact Or.inl (List.mem_of_mem_take h)
  · exact Or.inr h
  · exact Or.inl (List.mem_of_mem_drop (List.mem_of_mem_take h))
  · exact Or.inr h
  · exact Or.inl (List.mem_of_mem_drop (List.mem_of_mem_take h))
  · exact Or.inr h
  · exact Or.inl (List.mem_of_mem_drop (List.mem_of_mem_take h))
  · exact Or.inr h
  · exact Or.inl (List.mem_of_mem_drop h)

/-- Dropping the hyphens again. -/
theorem filter_hyphenate {ds : List Char} (h : ∀ c ∈ ds, c ≠ '-') :
    (hyphenate ds).filter (· ≠ '-') = ds := by
  have keep : ∀ {l : List Char}, (∀ c ∈ l, c ∈ ds) → l.filter (· ≠ '-') = l := by
    intro l hl
    rw [List.filter_eq_self]
    intro c hc
    simpa using h c (hl c hc)
  have hyphen : ∀ l : List Char, ('-' :: l).filter (· ≠ '-') = l.filter (· ≠ '-') := by
    intro l
    simp
  rw [hyphenate, List.filter_append, hyphen, List.filter_append, hyphen, List.filter_append,
    hyphen, List.filter_append, hyphen,
    keep fun c hc => List.mem_of_mem_take hc,
    keep fun c hc => List.mem_of_mem_drop (List.mem_of_mem_take hc),
    keep fun c hc => List.mem_of_mem_drop (List.mem_of_mem_take hc),
    keep fun c hc => List.mem_of_mem_drop (List.mem_of_mem_take hc),
    keep fun c hc => List.mem_of_mem_drop hc]
  have chunk : ∀ m k, (ds.drop m).take k ++ ds.drop (m + k) = ds.drop m := by
    intro m k
    rw [← List.drop_drop, List.take_append_drop]
  rw [chunk 16 4, chunk 12 4, chunk 8 4, List.take_append_drop]

theorem plain_hexDigits (u : Uuid) : ∀ c ∈ hexDigits u.val 32, Plain c :=
  fun _ hc => plain_of_mem_hexDigits hc

/-- Dropping the hyphens of the canonical text. -/
theorem filter_str (u : Uuid) :
    (hyphenate (hexDigits u.val 32)).filter (· ≠ '-') = hexDigits u.val 32 := by
  apply filter_hyphenate
  intro c hc he
  have hne := (plain_hexDigits u c hc).ne.2.2
  rw [he] at hne
  exact hne List.mem_cons_self

theorem digits16_str (u : Uuid) : digits16 false 0 (hexDigits u.val 32) = some u.val := by
  have h := digits16_hexDigits 32 u.val 0 false []
  rw [List.append_nil] at h
  rw [h, Nat.mod_eq_of_lt (Nat.lt_of_lt_of_eq u.lt (by decide))]
  simp [digits16]

/-- **`uuid.UUID(str(u)) == u`.** -/
theorem parse_str (u : Uuid) : parse u.str = some u := by
  have hbrace : ∀ c ∈ hyphenate (hexDigits u.val 32), isBrace c = false := by
    intro c hc
    rcases mem_hyphenate hc with h | rfl
    · exact (plain_hexDigits u c h).ne.1
    · decide
  have hcolon : ':' ∉ hyphenate (hexDigits u.val 32) := by
    intro hc
    rcases mem_hyphenate hc with h | h
    · exact (plain_hexDigits u _ h).ne.2.2 (by simp)
    · exact absurd h (by decide)
  have hread : int16 (hexDigits u.val 32) = some u.val := by
    rw [int16_of_plain (plain_hexDigits u), digits16_str]
  -- nothing of what the reader looks for occurs in the text
  have hstripped : strip isBrace (dropSubstr "uuid:".toList 0 (dropSubstr "urn:".toList 0
      u.str.toList)) = hyphenate (hexDigits u.val 32) := by
    have hurn : ':' ∈ "urn:".toList := by decide
    have huuid : ':' ∈ "uuid:".toList := by decide
    have htext : u.str.toList = hyphenate (hexDigits u.val 32) := String.toList_ofList
    rw [htext, dropSubstr_of_not_mem hurn hcolon,
      dropSubstr_of_not_mem huuid hcolon, strip_of_forall hbrace]
  unfold parse
  simp only [hstripped, filter_str, length_hexDigits, hread, Option.bind_some, dif_pos u.lt, if_true]

/-- The digits of every script are read. -/
example : ['１', '٣', 'ａ'].map (fun c => parse (String.ofList (List.replicate 32 c)))
    = [some (ofNat 0x11111111111111111111111111111111),
      some (ofNat 0x33333333333333333333333333333333), none] := by
  decide +kernel

/-- **Pydantic takes the canonical text too.** -/
theorem validate_str (u : Uuid) : validate u.str = some u := by
  have htext : u.str.toList = hyphenate (hexDigits u.val 32) := String.toList_ofList
  have hlength : u.str.toList.length = 36 := by
    rw [htext]
    exact length_hyphenate (length_hexDigits _ _)
  have hdigits : (hexDigits u.val 32).all (fun c => (digitValue c).isSome) = true := by
    rw [List.all_eq_true]
    intro c hc
    obtain ⟨d, hd, rfl⟩ := plain_hexDigits u c hc
    rw [digitValue_hexDigit hd]
    rfl
  unfold validate
  rw [hlength, htext]
  show ofHyphenated (hyphenate (hexDigits u.val 32)) = some u
  unfold ofHyphenated ofHex
  rw [filter_str, if_pos rfl, if_pos ⟨length_hexDigits _ _, hdigits⟩, digits16_str]
  exact dif_pos u.lt

theorem str_injective : Function.Injective str := by
  intro u v h
  have hp := parse_str u
  rw [h, parse_str v] at hp
  exact (Option.some.inj hp).symm

/-- Distinct values have distinct digits, so distinct lock tokens. -/
theorem hex_injective : Function.Injective hex := by
  intro u v h
  have hd := String.ofList_injective h
  apply str_injective
  unfold str
  rw [hd]

end Uuid

end Nimbus
