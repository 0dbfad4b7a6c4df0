/-
  Nimbus.Lib.Noninterference
  ──────────────────────────
  **SYSTEMS THAT ANSWER, AND THE PARTS THEY ARE MADE OF.**

  A reactive system answers every input from its state.  A part of it is a system
  of its own that some of the inputs belong to.  Where a relation between the two
  states is kept by the part's own inputs, with the same answers, and by all the
  others without the part moving at all, the part is answered in every run of
  the whole as if it were alone: the unwinding argument.

    • `answers`, `after` — a run;
    • `Separates`        — the unwinding conditions, for one input;
    • `separate`         — **the part's answers, in every run;**
    • `Orderly`          — a run in which every input suits those before it;
    • `same_answers`     — **what two systems answer alike for one such input, they
                           answer alike in every such run.**
-/
import Mathlib.Data.List.Basic
import Mathlib.Tactic.Basic

namespace Nimbus.Lib

/-- A system that answers inputs of `ι` with `ω`. -/
structure Reactive (σ ι ω : Type) where
  respond : σ → ι → ω × σ

namespace Reactive

variable {σ τ ι κ ω ψ : Type}

/-! ## §1. Runs. -/

/-- What each input of a run is answered. -/
def answers (f : Reactive σ ι ω) : σ → List ι → List (ι × ω)
  | _, [] => []
  | s, i :: is => (i, (f.respond s i).1) :: answers f (f.respond s i).2 is

/-- The state after a run. -/
def after (f : Reactive σ ι ω) : σ → List ι → σ
  | s, [] => s
  | s, i :: is => after f (f.respond s i).2 is

/-! ## §2. Parts. -/

/-- **The unwinding conditions.**  `mine` says which inputs belong to the part `g`,
and as what; `read` which answers of the whole are answers of the part. -/
structure Separates (f : Reactive σ ι ω) (g : Reactive τ κ ψ) (mine : ι → Option κ)
    (read : ω → Option ψ) (R : σ → τ → Prop) : Prop where
  own : ∀ s t i j, R s t → mine i = some j →
    read (f.respond s i).1 = some (g.respond t j).1 ∧ R (f.respond s i).2 (g.respond t j).2
  other : ∀ s t i, R s t → mine i = none → R (f.respond s i).2 t

/-- What the part's own inputs are answered in a run of the whole. -/
def share (mine : ι → Option κ) (read : ω → Option ψ) (run : List (ι × ω)) : List (κ × ψ) :=
  run.filterMap fun x => (mine x.1).bind fun j => (read x.2).map fun a => (j, a)

/-- **Noninterference**: in every run of the whole, the part is answered what it is
answered alone, and the states stay related. -/
theorem Separates.separate {f : Reactive σ ι ω} {g : Reactive τ κ ψ} {mine : ι → Option κ}
    {read : ω → Option ψ} {R : σ → τ → Prop} (h : Separates f g mine read R) (is : List ι) :
    ∀ (s : σ) (t : τ), R s t →
      share mine read (f.answers s is) = g.answers t (is.filterMap mine)
      ∧ R (f.after s is) (g.after t (is.filterMap mine)) := by
  unfold share
  induction is with
  | nil => intro s t hst; exact ⟨rfl, hst⟩
  | cons i is ih =>
      intro s t hst
      show List.filterMap _ ((i, (f.respond s i).1) :: f.answers (f.respond s i).2 is) = _
        ∧ R (f.after (f.respond s i).2 is) _
      rw [List.filterMap_cons, List.filterMap_cons]
      cases hi : mine i with
      | none => exact ih _ _ (h.other s t i hst hi)
      | some j =>
          -- the part moves along, with the same answer
          obtain ⟨hsame, hnext⟩ := h.own s t i j hst hi
          obtain ⟨hrest, hend⟩ := ih _ _ hnext
          refine ⟨?_, hend⟩
          rw [Option.bind_some, hsame]
          show (j, (g.respond t j).1) :: _
            = (j, (g.respond t j).1) :: g.answers (g.respond t j).2 (is.filterMap mine)
          rw [hrest]

/-! ## §3. Two systems with the same answers. -/

/-- Every input of `is` suits the inputs before it, `past` to begin with. -/
def Orderly (suits : List ι → ι → Prop) : List ι → List ι → Prop
  | _, [] => True
  | past, i :: is => suits past i ∧ Orderly suits (past ++ [i]) is

instance Orderly.decidable {suits : List ι → ι → Prop} [∀ past i, Decidable (suits past i)]
    (past : List ι) : (is : List ι) → Decidable (Orderly suits past is)
  | [] => isTrue trivial
  | i :: is =>
      haveI : Decidable (Orderly suits (past ++ [i]) is) := Orderly.decidable (past ++ [i]) is
      inferInstanceAs (Decidable (suits past i ∧ Orderly suits (past ++ [i]) is))

/-- **The simulation rule**: a relation between the states of two systems, after
the same inputs, that one suitable input keeps, with the same answer. -/
theorem same_answers {f : Reactive σ ι ω} {g : Reactive τ ι ω} {suits : List ι → ι → Prop}
    {R : List ι → σ → τ → Prop}
    (h : ∀ past s t i, R past s t → suits past i →
      (f.respond s i).1 = (g.respond t i).1 ∧ R (past ++ [i]) (f.respond s i).2 (g.respond t i).2)
    (is : List ι) :
    ∀ (past : List ι) (s : σ) (t : τ), R past s t → Orderly suits past is →
      f.answers s is = g.answers t is := by
  induction is with
  | nil => intro past s t _ _; rfl
  | cons i is ih =>
      intro past s t hst horderly
      obtain ⟨hsuits, hrest⟩ := horderly
      obtain ⟨hanswer, hnext⟩ := h past s t i hst hsuits
      show (i, (f.respond s i).1) :: f.answers (f.respond s i).2 is
        = (i, (g.respond t i).1) :: g.answers (g.respond t i).2 is
      rw [hanswer, ih _ _ _ hnext hrest]

end Reactive

end Nimbus.Lib
