/-
  Nimbus.Lib.Spans
  ────────────────
  **SPANS OF A GROWING LOG.**

  Some entries of a log open a span and some close it.  A property of all
  spans is kept up as the log grows at its end, so each of them comes with the
  lemma that says what one more entry asks for.

    • `Since`    — what has come since an opening, nothing having closed it;
    • `Within`   — a property of every stretch after an opening;
    • `ClosedBy` — a relation between an opening and the entry that closes it.
-/
import Mathlib.Data.List.Basic
import Mathlib.Tactic.Basic

namespace Nimbus.Lib

variable {α : Type} {opens closes : α → Prop} {log : List α}

/-- The log ends with the opening `a` and then `span`, in which nothing closes. -/
def Since (opens closes : α → Prop) (log : List α) (a : α) (span : List α) : Prop :=
  opens a ∧ (∀ n ∈ span, ¬ closes n) ∧ ∃ before, log = before ++ a :: span

/-- Every stretch after an opening, nothing in it closing, is good. -/
def Within (opens closes : α → Prop) (Good : α → List α → Prop) (log : List α) : Prop :=
  ∀ before a span after, log = before ++ a :: (span ++ after) → opens a →
    (∀ n ∈ span, ¬ closes n) → Good a span

/-- Every opening is in relation to the first entry after it that closes. -/
def ClosedBy (opens closes : α → Prop) (P : α → α → Prop) (log : List α) : Prop :=
  ∀ before a span b after, log = before ++ a :: (span ++ b :: after) → opens a →
    (∀ n ∈ span, ¬ closes n) → closes b → P a b

theorem not_since_nil {a : α} {span : List α} : ¬ Since opens closes [] a span := by
  rintro ⟨-, -, before, h⟩
  simp at h

/-- A log that ends the same ends in the same entry. -/
theorem snoc_eq_append {n : α} {l m : List α} (h : log ++ [n] = l ++ m) (hm : m ≠ []) :
    ∃ m', m = m' ++ [n] ∧ log = l ++ m' := by
  rcases List.eq_nil_or_concat m with rfl | ⟨m', x, rfl⟩
  · exact absurd rfl hm
  · rw [List.concat_eq_append, ← List.append_assoc] at h
    obtain ⟨hlog, hx⟩ := List.append_inj' h rfl
    obtain rfl := List.singleton_inj.mp hx
    exact ⟨m', List.concat_eq_append, hlog⟩

/-- **One more entry** opens a new span, or goes on with an open one. -/
theorem since_snoc {n a : α} {span : List α} :
    Since opens closes (log ++ [n]) a span
      ↔ (opens n ∧ a = n ∧ span = [])
        ∨ ∃ s, Since opens closes log a s ∧ ¬ closes n ∧ span = s ++ [n] := by
  constructor
  · rintro ⟨ha, hspan, before, h⟩
    obtain ⟨m', hm, hlog⟩ := snoc_eq_append h (List.cons_ne_nil _ _)
    cases m' with
    | nil =>
        -- the new entry is the opening
        simp only [List.nil_append, List.cons.injEq] at hm
        obtain ⟨rfl, rfl⟩ := hm
        exact Or.inl ⟨ha, rfl, rfl⟩
    | cons x s =>
        -- the opening came before, and the new entry does not close it
        simp only [List.cons_append, List.cons.injEq] at hm
        obtain ⟨rfl, rfl⟩ := hm
        refine Or.inr ⟨s, ⟨ha, fun m hm => ?_, before, hlog⟩, ?_, rfl⟩
        · exact hspan m (List.mem_append_left _ hm)
        · exact hspan n (List.mem_append_right _ (List.mem_singleton_self n))
  · intro h
    rcases h with ⟨hn, rfl, rfl⟩ | ⟨s, ⟨ha, hs, before, rfl⟩, hn, rfl⟩
    · exact ⟨hn, fun m hm => (nomatch hm), log, rfl⟩
    · refine ⟨ha, fun m hm => ?_, before, by simp⟩
      rcases List.mem_append.mp hm with hm | hm
      · exact hs m hm
      · rw [List.mem_singleton.mp hm]
        exact hn

/-- An entry that opens nothing goes on with what is open. -/
theorem Since.of_snoc {n a : α} {span : List α} (h : Since opens closes (log ++ [n]) a span)
    (hn : ¬ opens n) : ¬ closes n ∧ ∃ s, Since opens closes log a s ∧ span = s ++ [n] := by
  rcases since_snoc.mp h with ⟨ho, -, -⟩ | ⟨s, hs, hc, hspan⟩
  · exact absurd ho hn
  · exact ⟨hc, s, hs, hspan⟩

/-- Nothing open stays so after an entry that opens nothing. -/
theorem not_since_snoc {n : α} (h : ∀ a span, ¬ Since opens closes log a span) (hn : ¬ opens n) :
    ∀ a span, ¬ Since opens closes (log ++ [n]) a span := by
  intro a span hs
  obtain ⟨-, s, hs, -⟩ := hs.of_snoc hn
  exact h a s hs

/-- Nothing is open after an entry that closes and opens nothing. -/
theorem not_since_of_closes {n : α} (hc : closes n) (hn : ¬ opens n) :
    ∀ a span, ¬ Since opens closes (log ++ [n]) a span :=
  fun _ _ hs => (hs.of_snoc hn).1 hc

theorem within_nil {Good : α → List α → Prop} : Within opens closes Good [] := by
  intro before a span after h
  simp at h

/-- **One more entry** asks for what is open then to be good. -/
theorem within_snoc {Good : α → List α → Prop} {n : α} :
    Within opens closes Good (log ++ [n])
      ↔ Within opens closes Good log
        ∧ ∀ a span, Since opens closes (log ++ [n]) a span → Good a span := by
  constructor
  · intro h
    refine ⟨fun before a span after heq ha hspan => ?_, fun a span hs => ?_⟩
    · exact h before a span (after ++ [n]) (by rw [heq]; simp) ha hspan
    · obtain ⟨ha, hspan, before, heq⟩ := hs
      exact h before a span [] (by rw [heq]; simp) ha hspan
  · rintro ⟨hold, hnew⟩ before a span after heq ha hspan
    rcases List.eq_nil_or_concat after with rfl | ⟨after', x, rfl⟩
    · exact hnew a span ⟨ha, hspan, before, by rw [heq]; simp⟩
    · rw [List.concat_eq_append, ← List.append_assoc, ← List.cons_append, ← List.append_assoc] at heq
      obtain ⟨hlog, -⟩ := List.append_inj' heq rfl
      exact hold before a span after' hlog ha hspan

theorem closedBy_nil {P : α → α → Prop} : ClosedBy opens closes P [] := by
  intro before a span b after h
  simp at h

/-- **One more entry**, if it closes, is to be in relation to what was open. -/
theorem closedBy_snoc {P : α → α → Prop} {n : α} :
    ClosedBy opens closes P (log ++ [n])
      ↔ ClosedBy opens closes P log
        ∧ (closes n → ∀ a span, Since opens closes log a span → P a n) := by
  constructor
  · intro h
    refine ⟨fun before a span b after heq ha hspan hb => ?_, fun hn a span hs => ?_⟩
    · exact h before a span b (after ++ [n]) (by rw [heq]; simp) ha hspan hb
    · obtain ⟨ha, hspan, before, heq⟩ := hs
      exact h before a span n [] (by rw [heq]; simp) ha hspan hn
  · rintro ⟨hold, hnew⟩ before a span b after heq ha hspan hb
    rcases List.eq_nil_or_concat after with rfl | ⟨after', x, rfl⟩
    · -- the closing entry is the new one
      have heq' : log ++ [n] = (before ++ a :: span) ++ [b] := by rw [heq]; simp
      obtain ⟨hlog, hn⟩ := List.append_inj' heq' rfl
      obtain rfl := List.singleton_inj.mp hn
      exact hnew hb a span ⟨ha, hspan, before, hlog⟩
    · have heq' : log ++ [n] = (before ++ a :: (span ++ b :: after')) ++ [x] := by
        rw [heq, List.concat_eq_append]
        simp
      obtain ⟨hlog, -⟩ := List.append_inj' heq' rfl
      exact hold before a span b after' hlog ha hspan hb

end Nimbus.Lib
