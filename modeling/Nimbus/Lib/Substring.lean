/-
  Nimbus.Lib.Substring
  ────────────────────
  **WORDS IN A TEXT THAT IS PUT TOGETHER FROM PIECES.**

  A word that has none of the separators cannot lie across one: it occurs in the
  text exactly when it occurs in one of the pieces.

    • `occurs`       — the search, and what it decides;
    • `infix_append_cons`, `infix_spell` — words and separators.
-/
import Mathlib.Data.List.Infix

namespace Nimbus.Lib

variable {α : Type} [DecidableEq α]

/-- The word occurs in the text. -/
def occurs (word text : List α) : Bool := text.tails.any fun rest => word.isPrefixOf rest

theorem occurs_iff {word text : List α} : occurs word text = true ↔ word <:+: text := by
  unfold occurs
  rw [List.any_eq_true, List.infix_iff_prefix_suffix]
  constructor
  · rintro ⟨rest, hrest, hp⟩
    exact ⟨rest, List.isPrefixOf_iff_prefix.mp hp, (List.mem_tails rest text).mp hrest⟩
  · rintro ⟨rest, hp, hrest⟩
    exact ⟨rest, (List.mem_tails rest text).mpr hrest, List.isPrefixOf_iff_prefix.mpr hp⟩

omit [DecidableEq α] in
/-- **A word without the separator lies on one side of it.** -/
theorem infix_append_cons {word before after : List α} {sep : α} (h : sep ∉ word) :
    word <:+: before ++ sep :: after ↔ word <:+: before ∨ word <:+: after := by
  rw [List.infix_append_iff]
  constructor
  · rintro (hb | ha | ⟨l, r, rfl, hl, hr⟩)
    · exact Or.inl hb
    · rcases List.infix_cons_iff.mp ha with hp | ha
      · -- a prefix of the rest is empty, or begins with the separator
        cases word with
        | nil => exact Or.inl List.nil_infix
        | cons c word =>
            obtain ⟨rfl, -⟩ := List.cons_prefix_cons.mp hp
            exact absurd List.mem_cons_self h
      · exact Or.inr ha
    · cases r with
      | nil =>
          rw [List.append_nil]
          exact Or.inl hl.isInfix
      | cons c r =>
          obtain ⟨rfl, -⟩ := List.cons_prefix_cons.mp hr
          exact absurd (List.mem_append_right l List.mem_cons_self) h
  · rintro (hb | ha)
    · exact Or.inl hb
    · exact Or.inr (Or.inl (List.infix_cons ha))

/-- A first piece, and further ones, each after its separator. -/
def spell (first : List α) (rest : List (α × List α)) : List α :=
  first ++ rest.flatMap fun x => x.1 :: x.2

omit [DecidableEq α] in
theorem infix_spell {word : List α} : ∀ {first : List α} {rest : List (α × List α)},
    (∀ x ∈ rest, x.1 ∉ word) →
      (word <:+: spell first rest ↔ word <:+: first ∨ ∃ x ∈ rest, word <:+: x.2) := by
  intro first rest
  induction rest generalizing first with
  | nil =>
      intro _
      simp [spell]
  | cons x rest ih =>
      intro h
      have hrest : word <:+: spell x.2 rest ↔ word <:+: x.2 ∨ ∃ y ∈ rest, word <:+: y.2 :=
        ih fun y hy => h y (List.mem_cons_of_mem _ hy)
      have hcut : spell first (x :: rest) = first ++ x.1 :: spell x.2 rest := by
        simp [spell]
      rw [hcut, infix_append_cons (h x List.mem_cons_self), hrest, List.exists_mem_cons_iff]

end Nimbus.Lib
