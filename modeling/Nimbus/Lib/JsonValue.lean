/-
  Nimbus.Lib.JsonValue
  ────────────────────
  **TEXTS OF JSON VALUES ARE A PREFIX CODE.**

  The text an encoder writes for a JSON value: a token (a number, `true`,
  `false`, `null`), a string literal, or the parts of a list or object with
  `", "` between them in brackets.  A token alone does not say where it ends;
  but in an array or object something other than a token follows, so the parts
  can be told apart.

    • `separated`, `entry`       — the parts of a list, a member of an object;
    • `Value`                    — the texts of values;
    • `Follow`                   — what a token cannot go on with;
    • `separated_append_inj`     — parts that can be read back one by one can
                                   be read back as a sequence;
    • `Value.append_inj`         — **a value can be read back from the front of
                                   a text**;
    • `array_inj`, `object_inj`  — an array determines its elements, an object
                                   its members.
-/
import Nimbus.Lib.JsonText
import Mathlib.Tactic.Basic

namespace Nimbus.Lib.JsonText

/-! ## §1. The texts. -/

/-- The parts with `", "` between them. -/
def separated (parts : List (List Char)) : List Char := List.intercalate ", ".toList parts

/-- One member of an object. -/
def entry (m : List Char × List Char) : List Char := quoted m.1 ++ ": ".toList ++ m.2

/-- The characters of numbers and of `true`, `false` and `null`. -/
def isTokenChar (c : Char) : Bool :=
  c.isAlphanum || decide (c = '+') || decide (c = '-') || decide (c = '.')

/-- The text of a value. -/
inductive Value : List Char → Prop where
  | token {t : List Char} (hne : t ≠ []) (h : ∀ c ∈ t, isTokenChar c = true) : Value t
  | literal (s : List Char) : Value (quoted s)
  | array {ts : List (List Char)} (h : ∀ t ∈ ts, Value t) : Value ('[' :: (separated ts ++ [']']))
  | object {ms : List (List Char × List Char)} (h : ∀ m ∈ ms, Value m.2) :
      Value ('\x7b' :: (separated (ms.map entry) ++ ['\x7d']))

/-- The text does not go on with a token. -/
def Follow (r : List Char) : Prop := ∀ c, r.head? = some c → isTokenChar c = false

theorem follow_cons {c : Char} (h : isTokenChar c = false) (r : List Char) : Follow (c :: r) := by
  intro d hd
  obtain rfl := Option.some.inj hd
  exact h

/-! ## §2. Sequences. -/

/-- `t` can be told from the texts `P` at the front of a text. -/
def Reads (P : List Char → Prop) (t : List Char) : Prop :=
  ∀ {t' r r' : List Char}, P t' → Follow r → Follow r' → t ++ r = t' ++ r' → t = t' ∧ r = r'

/-- The parts after the first one. -/
def tailText (parts : List (List Char)) : List Char := parts.flatMap fun t => ',' :: ' ' :: t

theorem separated_cons (t : List Char) (parts : List (List Char)) :
    separated (t :: parts) = t ++ tailText parts := by
  induction parts generalizing t with
  | nil =>
      show List.intercalate ", ".toList [t] = t ++ []
      rw [List.intercalate_singleton, List.append_nil]
  | cons u parts ih =>
      show List.intercalate ", ".toList (t :: u :: parts) = _
      rw [List.intercalate_cons_cons]
      show t ++ [',', ' '] ++ separated (u :: parts) = t ++ (',' :: ' ' :: u ++ tailText parts)
      rw [ih, List.append_assoc]
      rfl

section Sequence

variable {P : List Char → Prop} {close : Char}

/-- What comes after a part is a comma or the closing bracket. -/
theorem follow_tailText (hclose : isTokenChar close = false) (parts : List (List Char))
    (r : List Char) : Follow (tailText parts ++ close :: r) := by
  cases parts with
  | nil => exact follow_cons hclose r
  | cons t parts => exact follow_cons (by decide) _

theorem tailText_append_inj (hclose : isTokenChar close = false) (hcomma : close ≠ ',')
    {ts : List (List Char)} : ∀ {ts' : List (List Char)} {r r' : List Char},
      (∀ t ∈ ts, Reads P t) → (∀ t ∈ ts', P t) →
      tailText ts ++ close :: r = tailText ts' ++ close :: r' → ts = ts' ∧ r = r' := by
  induction ts with
  | nil =>
      intro ts' r r' _ _ h
      cases ts' with
      | nil => exact ⟨rfl, (List.cons.inj h).2⟩
      | cons t' ts' => exact absurd (List.cons.inj h).1 hcomma
  | cons t ts ih =>
      intro ts' r r' hread hP h
      cases ts' with
      | nil => exact absurd (List.cons.inj h).1.symm hcomma
      | cons t' ts' =>
          -- the comma and the blank, the part, and what follows it
          have hparts : t ++ (tailText ts ++ close :: r) = t' ++ (tailText ts' ++ close :: r') := by
            have hcons : ',' :: ' ' :: (t ++ tailText ts) ++ close :: r
                = ',' :: ' ' :: (t' ++ tailText ts') ++ close :: r' := h
            have htail := (List.cons.inj (List.cons.inj hcons).2).2
            rw [← List.append_assoc, ← List.append_assoc]
            exact htail
          obtain ⟨rfl, hrest⟩ := hread t List.mem_cons_self (hP t' List.mem_cons_self)
            (follow_tailText hclose ts r) (follow_tailText hclose ts' r') hparts
          obtain ⟨rfl, hr⟩ := ih (fun u hu => hread u (List.mem_cons_of_mem _ hu))
            (fun u hu => hP u (List.mem_cons_of_mem _ hu)) hrest
          exact ⟨rfl, hr⟩

/-- **A sequence of parts is read back part by part**, none of them beginning
with the closing bracket. -/
theorem separated_append_inj (hclose : isTokenChar close = false) (hcomma : close ≠ ',')
    (hhead : ∀ t, P t → ∃ c s, t = c :: s ∧ c ≠ close)
    {ts ts' : List (List Char)} {r r' : List Char} (hread : ∀ t ∈ ts, P t ∧ Reads P t)
    (hP : ∀ t ∈ ts', P t) (h : separated ts ++ close :: r = separated ts' ++ close :: r') :
    ts = ts' ∧ r = r' := by
  cases ts with
  | nil =>
      cases ts' with
      | nil => exact ⟨rfl, (List.cons.inj h).2⟩
      | cons t' ts' =>
          -- an element does not begin with the closing bracket
          obtain ⟨c, s, rfl, hc⟩ := hhead t' (hP t' List.mem_cons_self)
          rw [separated_cons] at h
          exact absurd (List.cons.inj h).1.symm hc
  | cons t ts =>
      have hfirst := hread t List.mem_cons_self
      cases ts' with
      | nil =>
          obtain ⟨c, s, rfl, hc⟩ := hhead t hfirst.1
          rw [separated_cons] at h
          exact absurd (List.cons.inj h).1 hc
      | cons t' ts' =>
          rw [separated_cons, separated_cons, List.append_assoc, List.append_assoc] at h
          -- the first element is read off both texts, and then the tails
          obtain ⟨rfl, hrest⟩ := hfirst.2 (hP t' List.mem_cons_self)
            (follow_tailText hclose ts r) (follow_tailText hclose ts' r') h
          obtain ⟨rfl, hr⟩ := tailText_append_inj hclose hcomma
            (fun u hu => (hread u (List.mem_cons_of_mem _ hu)).2)
            (fun u hu => hP u (List.mem_cons_of_mem _ hu)) hrest
          exact ⟨rfl, hr⟩

end Sequence

/-! ## §3. Values. -/

/-- How the text of a value begins. -/
theorem Value.head {t : List Char} (h : Value t) : ∃ c s, t = c :: s ∧ c ≠ ']' ∧ c ≠ '\x7d' := by
  cases h with
  | token hne h =>
      cases t with
      | nil => exact absurd rfl hne
      | cons c s =>
          have hc := h c List.mem_cons_self
          refine ⟨c, s, rfl, ?_, ?_⟩
          · rintro rfl
            exact absurd hc (by decide)
          · rintro rfl
            exact absurd hc (by decide)
  | literal s => exact ⟨quote, _, rfl, by decide, by decide⟩
  | array h => exact ⟨'[', _, rfl, by decide, by decide⟩
  | object h => exact ⟨'\x7b', _, rfl, by decide, by decide⟩

theorem token_append_inj {t : List Char} : ∀ {t' r r' : List Char},
    (∀ c ∈ t, isTokenChar c = true) → (∀ c ∈ t', isTokenChar c = true) → Follow r → Follow r' →
      t ++ r = t' ++ r' → t = t' ∧ r = r' := by
  induction t with
  | nil =>
      intro t' r r' _ ht' hr _ h
      cases t' with
      | nil => exact ⟨rfl, h⟩
      | cons c t' =>
          -- `r` would go on with a token
          have hc := hr c (by rw [show r = c :: t' ++ r' from h]; rfl)
          exact absurd ((ht' c List.mem_cons_self).symm.trans hc) (by decide)
  | cons c t ih =>
      intro t' r r' ht ht' hr hr' h
      cases t' with
      | nil =>
          have hc := hr' c (by rw [show r' = c :: t ++ r from h.symm]; rfl)
          exact absurd ((ht c List.mem_cons_self).symm.trans hc) (by decide)
      | cons c' t' =>
          obtain ⟨rfl, hrest⟩ := List.cons.inj h
          obtain ⟨rfl, hr⟩ := ih (fun d hd => ht d (List.mem_cons_of_mem _ hd))
            (fun d hd => ht' d (List.mem_cons_of_mem _ hd)) hr hr' hrest
          exact ⟨rfl, hr⟩

/-- A token is no literal, array or object. -/
theorem token_head_ne {t r s : List Char} {c : Char} (hne : t ≠ [])
    (h : ∀ d ∈ t, isTokenChar d = true) (hc : isTokenChar c = false) : t ++ r ≠ c :: s := by
  intro heq
  cases t with
  | nil => exact hne rfl
  | cons d t =>
      obtain ⟨rfl, -⟩ := List.cons.inj heq
      exact absurd ((h d List.mem_cons_self).symm.trans hc) (by decide)

/-- The text of a member. -/
def Member (part : List Char) : Prop := ∃ m : List Char × List Char, part = entry m ∧ Value m.2

theorem Member.head {part : List Char} (h : Member part) : ∃ c s, part = c :: s ∧ c ≠ '\x7d' := by
  obtain ⟨m, rfl, -⟩ := h
  exact ⟨quote, _, rfl, by decide⟩

theorem entry_inj {m m' : List Char × List Char} (h : entry m = entry m') : m = m' := by
  unfold entry at h
  rw [List.append_assoc, List.append_assoc] at h
  obtain ⟨hk, hrest⟩ := quoted_append_inj h
  exact Prod.ext hk (List.append_cancel_left hrest)

/-- A member can be read back if its value can. -/
theorem reads_entry {m : List Char × List Char} (h : Reads Value m.2) : Reads Member (entry m) := by
  intro t' r r' ht' hr hr' heq
  obtain ⟨m', rfl, hm'⟩ := ht'
  unfold entry at heq
  rw [List.append_assoc, List.append_assoc, List.append_assoc, List.append_assoc] at heq
  obtain ⟨hk, hrest⟩ := quoted_append_inj heq
  obtain ⟨hv, hrr⟩ := h hm' hr hr' (List.append_cancel_left hrest)
  exact ⟨congrArg entry (Prod.ext hk hv), hrr⟩

/-- Elements up to the closing bracket. -/
theorem elements_append_inj {ts ts' : List (List Char)} {r r' : List Char}
    (hread : ∀ t ∈ ts, Value t ∧ Reads Value t) (h' : ∀ t ∈ ts', Value t)
    (heq : separated ts ++ ']' :: r = separated ts' ++ ']' :: r') : ts = ts' ∧ r = r' := by
  refine separated_append_inj (by decide) (by decide) (fun t ht => ?_) hread h' heq
  obtain ⟨c, s, hc, hne, -⟩ := Value.head ht
  exact ⟨c, s, hc, hne⟩

/-- Members up to the closing brace. -/
theorem members_append_inj {ms ms' : List (List Char × List Char)} {r r' : List Char}
    (hread : ∀ m ∈ ms, Value m.2 ∧ Reads Value m.2) (h' : ∀ m ∈ ms', Value m.2)
    (heq : separated (ms.map entry) ++ '\x7d' :: r = separated (ms'.map entry) ++ '\x7d' :: r') :
    ms = ms' ∧ r = r' := by
  have hfirst : ∀ part ∈ ms.map entry, Member part ∧ Reads Member part := by
    intro part hpart
    obtain ⟨m, hm, rfl⟩ := List.mem_map.mp hpart
    exact ⟨⟨m, rfl, (hread m hm).1⟩, reads_entry (hread m hm).2⟩
  have hsecond : ∀ part ∈ ms'.map entry, Member part := by
    intro part hpart
    obtain ⟨m, hm, rfl⟩ := List.mem_map.mp hpart
    exact ⟨m, rfl, h' m hm⟩
  obtain ⟨hms, hr⟩ := separated_append_inj (by decide) (by decide) (fun _ ht => Member.head ht)
    hfirst hsecond heq
  exact ⟨List.map_injective_iff.mpr (fun _ _ => entry_inj) hms, hr⟩

/-- The text inside brackets, and what comes after it. -/
theorem inside {b : Char} {l l' r r' : List Char} {c : Char}
    (h : b :: (l ++ [c]) ++ r = b :: (l' ++ [c]) ++ r') : l ++ c :: r = l' ++ c :: r' := by
  have hinner : l ++ [c] ++ r = l' ++ [c] ++ r' := (List.cons.inj h).2
  rw [List.append_assoc, List.append_assoc] at hinner
  exact hinner

/-- **A value is read back from the front of a text**, whatever follows, so long
as it does not go on with a token. -/
theorem Value.append_inj {t : List Char} (h : Value t) : Reads Value t := by
  -- induction on the value; the other one is of the same kind, or begins with
  -- another character
  induction h with
  | token hne h =>
      intro t' r r' ht' hr hr' heq
      cases ht' with
      | token hne' h' => exact token_append_inj h h' hr hr' heq
      | literal s => exact absurd heq (token_head_ne hne h (by decide))
      | array h' => exact absurd heq (token_head_ne hne h (by decide))
      | object h' => exact absurd heq (token_head_ne hne h (by decide))
  | literal s =>
      intro t' r r' ht' hr hr' heq
      cases ht' with
      | token hne' h' => exact absurd heq.symm (token_head_ne hne' h' (by decide))
      | literal s' =>
          obtain ⟨rfl, hrest⟩ := quoted_append_inj heq
          exact ⟨rfl, hrest⟩
      | array h' => exact absurd (List.cons.inj heq).1 (by decide)
      | object h' => exact absurd (List.cons.inj heq).1 (by decide)
  | array h ih =>
      intro t' r r' ht' hr hr' heq
      cases ht' with
      | token hne' h' => exact absurd heq.symm (token_head_ne hne' h' (by decide))
      | literal s' => exact absurd (List.cons.inj heq).1 (by decide)
      | array h' =>
          obtain ⟨rfl, hrest⟩ := elements_append_inj (fun t ht => ⟨h t ht, ih t ht⟩) h' (inside heq)
          exact ⟨rfl, hrest⟩
      | object h' => exact absurd (List.cons.inj heq).1 (by decide)
  | object h ih =>
      intro t' r r' ht' hr hr' heq
      cases ht' with
      | token hne' h' => exact absurd heq.symm (token_head_ne hne' h' (by decide))
      | literal s' => exact absurd (List.cons.inj heq).1 (by decide)
      | array h' => exact absurd (List.cons.inj heq).1 (by decide)
      | object h' =>
          obtain ⟨rfl, hrest⟩ := members_append_inj (fun m hm => ⟨h m hm, ih m hm⟩) h' (inside heq)
          exact ⟨rfl, hrest⟩

/-- **An array determines its elements.** -/
theorem array_inj {ts ts' : List (List Char)} (h : ∀ t ∈ ts, Value t) (h' : ∀ t ∈ ts', Value t)
    (heq : separated ts ++ [']'] = separated ts' ++ [']']) : ts = ts' :=
  (elements_append_inj (fun t ht => ⟨h t ht, (h t ht).append_inj⟩) h' heq).1

/-- **An object determines its members.** -/
theorem object_inj {ms ms' : List (List Char × List Char)} (h : ∀ m ∈ ms, Value m.2)
    (h' : ∀ m ∈ ms', Value m.2)
    (heq : separated (ms.map entry) ++ ['\x7d'] = separated (ms'.map entry) ++ ['\x7d']) :
    ms = ms' :=
  (members_append_inj (fun m hm => ⟨h m hm, (h m hm).append_inj⟩) h' heq).1

end Nimbus.Lib.JsonText
