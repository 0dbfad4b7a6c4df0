/-
  Nimbus.Lib.Machine
  ──────────────────
  **LABELLED MACHINES AND THEIR RUNS.**

  A machine is a partial step function on an explicit state: `none` says that
  the action is not enabled.  `next` makes it total (a disabled action leaves
  the state alone), so EVERY list of actions is a run and a theorem about all
  runs is a theorem about all action lists.

    • `run`, `trace`  — the last state of a run, all states of a run;
    • `exec`          — the last state of a run in which no action is disabled;
    • `Along`         — what every (state, action) pair of a run satisfies;
    • `run_invariant` — an invariant kept by every enabled step;
    • `trace_forall_iff_along` — a property of states that each step keeps
      EXACTLY when the step meets a condition holds in every state of a run
      exactly when every step of the run meets the condition;
    • `history`, `history_invariant` — the values an observation takes, without
      immediate repetitions;
    • `Preceded` — every entry of a log that needs a cause comes after one;
    • `FirstBefore` — one entry of a log first occurs before another one does.
-/
import Mathlib.Data.List.Basic
import Mathlib.Data.List.Induction
import Mathlib.Tactic.Basic

namespace Nimbus.Lib

/-- A labelled machine: `step s a = none` when `a` is not enabled in `s`. -/
structure Machine (σ α : Type) where
  step : σ → α → Option σ

namespace Machine

variable {σ α β : Type} (M : Machine σ α)

/-! ## §1. Runs. -/

/-- One step, where an action that is not enabled changes nothing. -/
def next (s : σ) (a : α) : σ := (M.step s a).getD s

/-- The state a run ends in. -/
def run (s : σ) (as : List α) : σ := as.foldl M.next s

/-- All states a run visits, the first one included. -/
def trace (s : σ) : List α → List σ
  | [] => [s]
  | a :: as => s :: trace (M.next s a) as

/-- `P` holds of every step of the run: of the state before it and its action. -/
def Along (P : σ → α → Prop) (s : σ) : List α → Prop
  | [] => True
  | a :: as => P s a ∧ Along P (M.next s a) as

@[simp] theorem run_nil (s : σ) : M.run s [] = s := rfl

@[simp] theorem run_cons (s : σ) (a : α) (as : List α) :
    M.run s (a :: as) = M.run (M.next s a) as := rfl

theorem run_append (s : σ) (as bs : List α) :
    M.run s (as ++ bs) = M.run (M.run s as) bs := by
  simp [run, List.foldl_append]

theorem next_of_step {s s' : σ} {a : α} (h : M.step s a = some s') :
    M.next s a = s' := by
  simp [next, h]

theorem next_of_none {s : σ} {a : α} (h : M.step s a = none) :
    M.next s a = s := by
  simp [next, h]

/-- A step is either enabled, or leaves the state alone. -/
theorem next_cases (s : σ) (a : α) :
    (∃ s', M.step s a = some s' ∧ M.next s a = s')
      ∨ (M.step s a = none ∧ M.next s a = s) := by
  cases h : M.step s a with
  | none => exact Or.inr ⟨rfl, M.next_of_none h⟩
  | some s' => exact Or.inl ⟨s', rfl, M.next_of_step h⟩

theorem start_mem_trace (s : σ) (as : List α) : s ∈ M.trace s as := by
  cases as with
  | nil => exact List.mem_singleton.mpr rfl
  | cons a as => exact List.mem_cons_self

theorem run_mem_trace (s : σ) (as : List α) : M.run s as ∈ M.trace s as := by
  induction as generalizing s with
  | nil => exact List.mem_singleton.mpr rfl
  | cons a as ih => exact List.mem_cons_of_mem _ (ih (M.next s a))

theorem mem_trace_append {s s' : σ} {as bs : List α} :
    s' ∈ M.trace s (as ++ bs) ↔ s' ∈ M.trace s as ∨ s' ∈ M.trace (M.run s as) bs := by
  induction as generalizing s with
  | nil =>
      show s' ∈ M.trace s bs ↔ s' ∈ [s] ∨ s' ∈ M.trace s bs
      rw [List.mem_singleton]
      constructor
      · intro h
        exact Or.inr h
      · intro h
        rcases h with rfl | h
        · exact M.start_mem_trace s' bs
        · exact h
  | cons a as ih =>
      show s' ∈ s :: M.trace (M.next s a) (as ++ bs) ↔ s' ∈ s :: M.trace (M.next s a) as ∨ _
      rw [List.mem_cons, List.mem_cons, ih, or_assoc]
      exact Iff.rfl

/-- A condition on steps that can be decided can be decided along a run. -/
instance Along.decidable {P : σ → α → Prop} [∀ s a, Decidable (P s a)] (s : σ) :
    (as : List α) → Decidable (M.Along P s as)
  | [] => isTrue trivial
  | a :: as =>
      haveI := Along.decidable (P := P) (M.next s a) as
      inferInstanceAs (Decidable (P s a ∧ M.Along P (M.next s a) as))

/-- The state after all actions, none of which may be disabled. -/
def exec (s : σ) (as : List α) : Option σ := as.foldlM M.step s

theorem exec_snoc (s : σ) (as : List α) (a : α) :
    M.exec s (as ++ [a]) = (M.exec s as).bind fun s' => M.step s' a := by
  unfold exec
  rw [List.foldlM_append]
  show (as.foldlM M.step s).bind (fun s' => (M.step s' a).bind some) = _
  simp

/-- **What every executed action keeps**, of the actions so far and the state. -/
theorem exec_invariant {I : List α → σ → Prop} {s : σ} (h₀ : I [] s)
    (hstep : ∀ as s' a s'', I as s' → M.step s' a = some s'' → I (as ++ [a]) s'') :
    ∀ (as : List α) (s' : σ), M.exec s as = some s' → I as s' := by
  intro as
  induction as using List.reverseRecOn with
  | nil =>
      intro s' h
      obtain rfl := Option.some.inj h
      exact h₀
  | append_singleton as a ih =>
      intro s' h
      rw [exec_snoc] at h
      obtain ⟨s₁, h₁, hlast⟩ := Option.bind_eq_some_iff.mp h
      exact hstep as s₁ a s' (ih s₁ h₁) hlast

/-! ## §2. Invariants. -/

/-- **The invariant rule**: what every enabled step keeps, every run keeps. -/
theorem run_invariant {I : σ → Prop}
    (hstep : ∀ s a s', I s → M.step s a = some s' → I s') :
    ∀ (as : List α) (s : σ), I s → I (M.run s as) := by
  intro as
  induction as with
  | nil => intro s h; exact h
  | cons a as ih =>
      intro s h
      apply ih
      rcases M.next_cases s a with ⟨s', hs, hn⟩ | ⟨-, hn⟩
      · rw [hn]; exact hstep s a s' h hs
      · rw [hn]; exact h

/-- The invariant rule, for every state on the way. -/
theorem trace_invariant {I : σ → Prop}
    (hstep : ∀ s a s', I s → M.step s a = some s' → I s') :
    ∀ (as : List α) (s : σ), I s → ∀ s' ∈ M.trace s as, I s' := by
  intro as
  induction as with
  | nil =>
      intro s h s' hs'
      rw [List.mem_singleton.mp hs']
      exact h
  | cons a as ih =>
      intro s h s' hs'
      rcases List.mem_cons.mp hs' with rfl | hs'
      · exact h
      · exact ih _ (M.run_invariant hstep [a] s h) s' hs'

/-- **The exact run rule.**  If, under an invariant, each step keeps `G` exactly
when it meets `C`, then a run stays within `G` exactly when all its steps meet
`C`. -/
theorem trace_forall_iff_along {I G : σ → Prop} {C : σ → α → Prop}
    (hinv : ∀ s a s', I s → M.step s a = some s' → I s')
    (hgood : ∀ s a, I s → G s → (G (M.next s a) ↔ C s a)) :
    ∀ (as : List α) (s : σ), I s → G s →
      ((∀ s' ∈ M.trace s as, G s') ↔ M.Along C s as) := by
  intro as
  induction as with
  | nil =>
      intro s _ hg
      refine ⟨fun _ => trivial, fun _ s' hs' => ?_⟩
      rw [List.mem_singleton.mp hs']
      exact hg
  | cons a as ih =>
      intro s hi hg
      -- the induction is on the actions; `I` goes along, and `G` comes with the condition
      have hi' : I (M.next s a) := M.run_invariant hinv [a] s hi
      constructor
      · intro h
        have hg' : G (M.next s a) :=
          h _ (List.mem_cons_of_mem _ (M.start_mem_trace _ as))
        refine ⟨(hgood s a hi hg).mp hg', (ih _ hi' hg').mp fun s' hs' => ?_⟩
        exact h s' (List.mem_cons_of_mem _ hs')
      · rintro ⟨hc, hrest⟩ s' hs'
        have hg' : G (M.next s a) := (hgood s a hi hg).mpr hc
        rcases List.mem_cons.mp hs' with rfl | hs'
        · exact hg
        · exact (ih _ hi' hg').mpr hrest s' hs'

/-- Where a step that breaks the condition breaks the property, the condition
holds along every run with the property. -/
theorem along_of_trace {G : σ → Prop} {C : σ → α → Prop} (h : ∀ s a, G (M.next s a) → C s a) :
    ∀ (as : List α) (s : σ), (∀ s' ∈ M.trace s as, G s') → M.Along C s as := by
  intro as
  induction as with
  | nil => intro s _; trivial
  | cons a as ih =>
      intro s hg
      refine ⟨h s a ?_, ih _ fun s' hs' => hg s' (List.mem_cons_of_mem _ hs')⟩
      exact hg _ (List.mem_cons_of_mem _ (M.start_mem_trace _ as))

/-- `Along` under a weaker condition. -/
theorem Along.mono {P Q : σ → α → Prop} (h : ∀ s a, P s a → Q s a) :
    ∀ {as : List α} {s : σ}, M.Along P s as → M.Along Q s as := by
  intro as
  induction as with
  | nil => intro s _; trivial
  | cons a as ih => intro s hp; exact ⟨h s a hp.1, ih hp.2⟩

/-- An invariant that needs a condition on every step. -/
theorem run_invariant_along {I : σ → Prop} {C : σ → α → Prop}
    (hstep : ∀ s a s', I s → C s a → M.step s a = some s' → I s') :
    ∀ (as : List α) (s : σ), I s → M.Along C s as → ∀ s' ∈ M.trace s as, I s' := by
  intro as
  induction as with
  | nil =>
      intro s h _ s' hs'
      rw [List.mem_singleton.mp hs']
      exact h
  | cons a as ih =>
      rintro s h ⟨hc, hrest⟩ s' hs'
      rcases List.mem_cons.mp hs' with rfl | hs'
      · exact h
      · refine ih _ ?_ hrest s' hs'
        rcases M.next_cases s a with ⟨t, ht, hn⟩ | ⟨-, hn⟩
        · rw [hn]; exact hstep s a t h hc ht
        · rw [hn]; exact h

/-- What an invariant gives at every step that meets a condition, it gives along
every run whose steps all do. -/
theorem Along.of_invariant {I : σ → Prop} {C D : σ → α → Prop}
    (hstep : ∀ s a s', I s → C s a → M.step s a = some s' → I s')
    (hgood : ∀ s a, I s → C s a → D s a) :
    ∀ {as : List α} {s : σ}, I s → M.Along C s as → M.Along D s as := by
  intro as
  induction as with
  | nil => intro s _ _; trivial
  | cons a as ih =>
      rintro s h ⟨hc, hrest⟩
      refine ⟨hgood s a h hc, ih ?_ hrest⟩
      rcases M.next_cases s a with ⟨s', hs', hn⟩ | ⟨-, hn⟩
      · rw [hn]; exact hstep s a s' h hc hs'
      · rw [hn]; exact h

theorem along_append {P : σ → α → Prop} {s : σ} {as bs : List α} :
    M.Along P s (as ++ bs) ↔ M.Along P s as ∧ M.Along P (M.run s as) bs := by
  induction as generalizing s with
  | nil => exact (and_iff_right trivial).symm
  | cons a as ih =>
      show P s a ∧ M.Along P (M.next s a) (as ++ bs) ↔ (P s a ∧ M.Along P (M.next s a) as) ∧ _
      rw [ih, and_assoc]
      exact Iff.rfl

/-! ## §3. Histories of an observation. -/

section History

variable [DecidableEq β] {f : σ → Option β}

/-- A history after one more observation: nothing is recorded where nothing is
seen, or what was recorded last. -/
def record (h : List β) : Option β → List β
  | none => h
  | some b => if h.getLast? = some b then h else h ++ [b]

/-- The values the observation `f` takes along a list of states, without
immediate repetitions. -/
def history (f : σ → Option β) (ss : List σ) : List β := ss.foldl (fun h s => record h (f s)) []

theorem record_same {h : List β} {o : Option β} (hlast : h.getLast? = o) : record h o = h := by
  cases o with
  | none => rfl
  | some b => exact if_pos hlast

theorem record_new {h : List β} {b : β} (hlast : h.getLast? ≠ some b) :
    record h (some b) = h ++ [b] := if_neg hlast

/-- **The history rule.**  A relation `I` between the recorded history and the
state that is kept by every step holds of the history of every run. -/
theorem history_invariant {I : List β → σ → Prop} (hlast : ∀ h s, I h s → h.getLast? = f s)
    (hstep : ∀ h s a s', I h s → M.step s a = some s' → I (record h (f s')) s')
    (as : List α) (s : σ) (h₀ : I (record [] (f s)) s) :
    I (history f (M.trace s as)) (M.run s as) := by
  have general : ∀ (as : List α) (s : σ) (h : List β), I (record h (f s)) s →
      I ((M.trace s as).foldl (fun h s => record h (f s)) h) (M.run s as) := by
    intro as
    induction as with
    | nil => intro s h hs; exact hs
    | cons a as ih =>
        intro s h hs
        refine ih (M.next s a) (record h (f s)) ?_
        rcases M.next_cases s a with ⟨s', hs', hn⟩ | ⟨-, hn⟩
        · rw [hn]
          exact hstep _ s a s' hs hs'
        · rw [hn, record_same (hlast _ s hs)]
          exact hs
  exact general as s [] h₀

/-- A history begins with what is seen first. -/
theorem history_start {b : β} (s : σ) (hs : f s = some b) (as : List α) :
    ∃ rest, history f (M.trace s as) = b :: rest := by
  -- a history that has begun keeps its beginning
  have hgrow : ∀ (ss : List σ) (h : List β),
      ∃ rest, ss.foldl (fun h s => record h (f s)) (b :: h) = b :: rest := by
    intro ss
    induction ss with
    | nil => intro h; exact ⟨h, rfl⟩
    | cons s ss ih =>
        intro h
        rw [List.foldl_cons]
        unfold record
        split
        next => exact ih h
        next =>
          split
          next => exact ih h
          next => exact ih _
  have hfirst : record [] (f s) = [b] := by
    rw [hs]
    rfl
  cases as with
  | nil =>
      refine ⟨[], ?_⟩
      exact hfirst
  | cons a as =>
      show ∃ rest, (M.trace (M.next s a) as).foldl _ (record [] (f s)) = _
      rw [hfirst]
      exact hgrow _ []

end History

end Machine

/-! ## §4. Logs. -/

/-- Every entry of the log that needs a cause has one before it. -/
def Preceded {α : Type} (needs : α → Prop) (cause : α → α → Prop) (log : List α) : Prop :=
  ∀ before a after, log = before ++ a :: after → needs a → ∃ b ∈ before, cause b a

section Preceded

variable {α : Type} {needs : α → Prop} {cause cause' : α → α → Prop} {log : List α}

theorem preceded_nil : Preceded needs cause [] := by
  intro before a after h
  exact absurd h.symm (List.append_ne_nil_of_right_ne_nil _ (List.cons_ne_nil _ _))

/-- One more entry. -/
theorem preceded_snoc {a : α} :
    Preceded needs cause (log ++ [a])
      ↔ Preceded needs cause log ∧ (needs a → ∃ b ∈ log, cause b a) := by
  constructor
  · intro h
    refine ⟨fun before b after heq => ?_, h log a [] rfl⟩
    refine h before b (after ++ [a]) ?_
    rw [heq, List.append_assoc, List.cons_append]
  · intro h before b after heq hneeds
    -- the entry is the new one, or one of the log
    rcases List.eq_nil_or_concat after with rfl | ⟨rest, c, rfl⟩
    · obtain ⟨hlog, hb⟩ := List.append_inj' heq rfl
      obtain rfl := List.singleton_inj.mp hb
      rw [← hlog]
      exact h.2 hneeds
    · rw [List.concat_eq_append, ← List.cons_append, ← List.append_assoc] at heq
      obtain ⟨hlog, -⟩ := List.append_inj' heq rfl
      exact h.1 before b rest hlog hneeds

/-- Other causes that are enough where the log has the first ones. -/
theorem Preceded.imp (h : Preceded needs cause log)
    (himp : ∀ a ∈ log, ∀ b ∈ log, needs a → cause b a → cause' b a) :
    Preceded needs cause' log := by
  intro before a after heq hneeds
  obtain ⟨b, hb, hc⟩ := h before a after heq hneeds
  subst heq
  exact ⟨b, hb, himp a (List.mem_append_right _ List.mem_cons_self) b
    (List.mem_append_left _ hb) hneeds hc⟩

end Preceded

/-- If both `a` and `b` occur in the log, `a` does so first. -/
def FirstBefore {α : Type} [DecidableEq α] (a b : α) (log : List α) : Prop :=
  a ∈ log → b ∈ log → log.idxOf a < log.idxOf b

section FirstBefore

variable {α : Type} [DecidableEq α] {a b c : α} {log : List α}

instance : Decidable (FirstBefore a b log) :=
  inferInstanceAs (Decidable (a ∈ log → b ∈ log → log.idxOf a < log.idxOf b))

theorem firstBefore_of_notMem (hb : b ∉ log) : FirstBefore a b log :=
  fun _ hb' => absurd hb' hb

/-- **One more entry keeps the order** unless it is the first `a`, and comes
after `b`. -/
theorem FirstBefore.snoc (h : FirstBefore a b log) (hne : a ≠ b)
    (hc : c = a → b ∈ log → a ∈ log) : FirstBefore a b (log ++ [c]) := by
  intro ha hb
  by_cases hb' : b ∈ log
  · have ha' : a ∈ log := by
      rcases List.mem_append.mp ha with ha | ha
      · exact ha
      · exact hc (List.mem_singleton.mp ha).symm hb'
    rw [List.idxOf_append_of_mem ha', List.idxOf_append_of_mem hb']
    exact h ha' hb'
  · -- `b` is the new entry
    have hcb : b = c := by
      rcases List.mem_append.mp hb with hb | hb
      · exact absurd hb hb'
      · exact List.mem_singleton.mp hb
    have ha' : a ∈ log := by
      rcases List.mem_append.mp ha with ha | ha
      · exact ha
      · exact absurd ((List.mem_singleton.mp ha).trans hcb.symm) hne
    have hlt : log.idxOf a < log.length := List.idxOf_lt_length_of_mem ha'
    rw [List.idxOf_append_of_mem ha', List.idxOf_append_of_notMem hb']
    omega

end FirstBefore

end Nimbus.Lib
