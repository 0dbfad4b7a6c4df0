/-
  Nimbus.Lib.Potential
  ────────────────────
  **POTENTIALS OF LABELLED MACHINES.**

  The amortised argument: where every step pays for what it does out of a
  potential, up to a credit it is given, a whole run has paid no more than the
  first potential and its credits.  With a cost of one for each step of some
  kind this is a termination argument.

    • `total`          — a quantity added up over the enabled steps of a run;
    • `total_potential` — **the potential rule**;
    • `exists_drained` — from every state that is not done, a state with less
                         potential can be reached: then a state that is done
                         can be.
-/
import Nimbus.Lib.Machine
import Mathlib.Algebra.Order.Monoid.Defs
import Mathlib.Algebra.Order.Group.Unbundled.Int
import Mathlib.Data.Int.Order.Basic
import Mathlib.Tactic.Abel
import Mathlib.Algebra.Group.Basic
import Mathlib.Algebra.Group.Hom.Defs

namespace Nimbus.Lib.Machine

variable {σ α A : Type} (M : Machine σ α)

/-! ## §1. Totals. -/

section Total

variable [AddCommMonoid A]

/-- What the step `a` adds: nothing where it is not enabled. -/
def amount (f : σ → α → A) (s : σ) (a : α) : A :=
  match M.step s a with
  | none => 0
  | some _ => f s a

/-- The quantity `f`, added up over the enabled steps of a run. -/
def total (f : σ → α → A) (s : σ) : List α → A
  | [] => 0
  | a :: as => M.amount f s a + total f (M.next s a) as

theorem amount_of_step {f : σ → α → A} {s s' : σ} {a : α} (h : M.step s a = some s') :
    M.amount f s a = f s a := by
  unfold amount
  rw [h]

theorem amount_of_none {f : σ → α → A} {s : σ} {a : α} (h : M.step s a = none) :
    M.amount f s a = 0 := by
  unfold amount
  rw [h]

/-- The total of an image is the image of the total. -/
theorem total_map {B : Type} [AddCommMonoid B] (g : A →+ B) (f : σ → α → A) :
    ∀ (as : List α) (s : σ), M.total (fun s a => g (f s a)) s as = g (M.total f s as) := by
  intro as
  induction as with
  | nil => intro s; exact (map_zero g).symm
  | cons a as ih =>
      intro s
      have hone : M.amount (fun s a => g (f s a)) s a = g (M.amount f s a) := by
        unfold amount
        split
        next => exact (map_zero g).symm
        next => rfl
      show M.amount (fun s a => g (f s a)) s a + M.total (fun s a => g (f s a)) (M.next s a) as
        = g (M.amount f s a + M.total f (M.next s a) as)
      rw [hone, ih, map_add]

end Total

/-! ## §2. The potential rule. -/

section Potential

variable [AddCommMonoid A] [PartialOrder A] [IsOrderedAddMonoid A]

/-- **The potential rule.**  If under an invariant every step pays its cost out of
the potential and its credit, so does every run. -/
theorem total_potential {I : σ → Prop} {cost credit : σ → α → A} (potential : σ → A)
    (hinv : ∀ s a s', I s → M.step s a = some s' → I s')
    (hpay : ∀ s a s', I s → M.step s a = some s' →
      cost s a + potential s' ≤ potential s + credit s a) :
    ∀ (as : List α) (s : σ), I s →
      M.total cost s as + potential (M.run s as) ≤ potential s + M.total credit s as := by
  intro as
  induction as with
  | nil =>
      intro s _
      show 0 + potential s ≤ potential s + 0
      rw [zero_add, add_zero]
  | cons a as ih =>
      intro s hs
      show M.amount cost s a + M.total cost (M.next s a) as + potential (M.run (M.next s a) as)
        ≤ potential s + (M.amount credit s a + M.total credit (M.next s a) as)
      rcases M.next_cases s a with ⟨s', hstep, hnext⟩ | ⟨hstep, hnext⟩
      · rw [M.amount_of_step hstep, M.amount_of_step hstep, hnext, add_assoc]
        have hrest := ih s' (hinv s a s' hs hstep)
        calc cost s a + (M.total cost s' as + potential (M.run s' as))
            ≤ cost s a + (potential s' + M.total credit s' as) := add_le_add_right hrest _
          _ = cost s a + potential s' + M.total credit s' as := (add_assoc _ _ _).symm
          _ ≤ potential s + credit s a + M.total credit s' as :=
              add_le_add_left (hpay s a s' hs hstep) _
          _ = potential s + (credit s a + M.total credit s' as) := add_assoc _ _ _
      · rw [M.amount_of_none hstep, M.amount_of_none hstep, hnext, zero_add, zero_add]
        exact ih s hs

end Potential

/-! ## §3. Draining. -/

/-- **The draining rule.**  If a state that is not done can always be taken to one
with less potential by a run within `C`, every state can be taken to one that is
done by a run within `C`. -/
theorem exists_drained {I : σ → Prop} {C : σ → α → Prop} (Done : σ → Prop) (potential : σ → Nat)
    (hround : ∀ s, I s → ¬ Done s → ∃ as, M.Along C s as ∧ I (M.run s as)
      ∧ potential (M.run s as) < potential s) :
    ∀ s, I s → ∃ as, M.Along C s as ∧ Done (M.run s as) := by
  intro s
  induction hn : potential s using Nat.strong_induction_on generalizing s with
  | _ n ih =>
      intro hs
      by_cases hdone : Done s
      · exact ⟨[], trivial, hdone⟩
      · obtain ⟨as, halong, hinv, hless⟩ := hround s hs hdone
        obtain ⟨bs, hbs, hend⟩ := ih _ (hn ▸ hless) _ rfl hinv
        refine ⟨as ++ bs, M.along_append.mpr ⟨halong, hbs⟩, ?_⟩
        rw [M.run_append]
        exact hend

end Nimbus.Lib.Machine
