/-
  Nimbus.Lib.Paths
  ────────────────
  **ONE PROGRAM'S OPERATIONS, AMONG EVERYTHING ELSE THAT HAPPENS.**

  A program of `Nimbus.Lib.Prog` is executed operation by operation, each in the
  state that the others have made by then.  Its path has these states and what
  the environment chose for each operation, so that a statement about one call
  can speak of the moment of any of its operations.

    • `Path`          — the path of a program, complete or not;
    • `path_call`     — the first operation of a path;
    • `path_handle`   — a path through `handle` is one through each part;
    • `alone`         — the path of a program that nobody meets;
    • `Contract.path` — **every call of a pool takes a path**, whatever else the
                        pool does.
-/
import Nimbus.Lib.Pool

namespace Nimbus.Lib

/-- One operation: the state it meets, and the environment's choice. -/
structure Move (σ χ : Type) where
  state : σ
  choice : χ

namespace Prog

variable {Op : Type} {Ans : Op → Type} {ε α β σ χ : Type}

/-- Where a program runs: what its operations do, and what the others can make
of the state between two of them. -/
structure Among (Op : Type) (Ans : Op → Type) (ε σ χ : Type) where
  exec : χ → (op : Op) → σ → Option (Except ε (Ans op) × σ)
  others : σ → σ → Prop

/-! ## §1. Paths. -/

/-- From the state `s` the operations `ms` of `p` leave the program `q` and the
state `s'`. -/
def Path (E : Among Op Ans ε σ χ) : Prog Op Ans ε α → σ → List (Move σ χ) → Prog Op Ans ε α → σ →
    Prop
  | p, s, [], q, s' => q = p ∧ s' = s
  | .ret _, _, _ :: _, _, _ => False
  | .call op k, s, m :: ms, q, s' => E.others s m.state ∧ ∃ r s₁,
      E.exec m.choice op m.state = some (r, s₁) ∧ Path E (k r) s₁ ms q s'

variable {E : Among Op Ans ε σ χ}

theorem path_nil (p : Prog Op Ans ε α) (s : σ) : Path E p s [] p s := by
  cases p with
  | ret r => exact ⟨rfl, rfl⟩
  | call op k => exact ⟨rfl, rfl⟩

theorem path_of_nil {p q : Prog Op Ans ε α} {s s' : σ} (h : Path E p s [] q s') :
    q = p ∧ s' = s := by
  cases p with
  | ret r => exact h
  | call op k => exact h

/-- A program that has ended does nothing. -/
theorem path_ret {r r' : Except ε α} {s s' : σ} {ms : List (Move σ χ)}
    (h : Path E (.ret r) s ms (.ret r') s') : ms = [] ∧ r' = r ∧ s' = s := by
  cases ms with
  | nil => exact ⟨rfl, Prog.ret.inj h.1, h.2⟩
  | cons m ms => exact h.elim

/-- **The first operation of a complete path.** -/
theorem path_call {op : Op} {k : Except ε (Ans op) → Prog Op Ans ε α} {s s' : σ}
    {ms : List (Move σ χ)} {r : Except ε α} (h : Path E (.call op k) s ms (.ret r) s') :
    ∃ m rest a s₁, ms = m :: rest ∧ E.others s m.state
      ∧ E.exec m.choice op m.state = some (a, s₁) ∧ Path E (k a) s₁ rest (.ret r) s' := by
  cases ms with
  | nil => cases h.1
  | cons m rest =>
      obtain ⟨ho, a, s₁, he, hrest⟩ := h
      exact ⟨m, rest, a, s₁, rfl, ho, he, hrest⟩

/-- **A path through `handle`** goes to an outcome of the first part, and on
from there. -/
theorem path_handle {k : Except ε α → Prog Op Ans ε β} {r : Except ε β} {s' : σ} :
    ∀ {ms : List (Move σ χ)} {p : Prog Op Ans ε α} {s : σ},
      Path E (p.handle k) s ms (.ret r) s' → ∃ ms₁ ms₂ r₁ s₁, ms = ms₁ ++ ms₂
        ∧ Path E p s ms₁ (.ret r₁) s₁ ∧ Path E (k r₁) s₁ ms₂ (.ret r) s' := by
  intro ms
  induction ms with
  | nil =>
      intro p s h
      cases p with
      | ret r₁ => exact ⟨[], [], r₁, s, rfl, path_nil _ s, h⟩
      | call op c => cases h.1
  | cons m ms ih =>
      intro p s h
      cases p with
      | ret r₁ => exact ⟨[], m :: ms, r₁, s, rfl, path_nil _ s, h⟩
      | call op c =>
          obtain ⟨ho, a, s₁, he, hrest⟩ := h
          obtain ⟨ms₁, ms₂, r₁, s₂, rfl, h₁, h₂⟩ := ih hrest
          exact ⟨m :: ms₁, ms₂, r₁, s₂, rfl, ⟨ho, a, s₁, he, h₁⟩, h₂⟩

/-- Back from the parts to `handle`. -/
theorem path_then {k : Except ε α → Prog Op Ans ε β} {r₁ : Except ε α} {r : Except ε β}
    {s₁ s' : σ} {ms₂ : List (Move σ χ)} (h₂ : Path E (k r₁) s₁ ms₂ (.ret r) s') :
    ∀ {ms₁ : List (Move σ χ)} {p : Prog Op Ans ε α} {s : σ}, Path E p s ms₁ (.ret r₁) s₁ →
      Path E (p.handle k) s (ms₁ ++ ms₂) (.ret r) s' := by
  intro ms₁
  induction ms₁ with
  | nil =>
      intro p s h
      obtain ⟨rfl, rfl⟩ := path_of_nil h
      exact h₂
  | cons m ms₁ ih =>
      intro p s h
      cases p with
      | ret r₀ => exact h.elim
      | call op c =>
          obtain ⟨ho, a, s₃, he, hrest⟩ := h
          exact ⟨ho, a, s₃, he, ih hrest⟩

/-- The program among nobody: the environment's choices are given, and the
states are those it leaves itself. -/
def alone (E : Among Op Ans ε σ χ) : List χ → Prog Op Ans ε α → σ →
    Option (List (Move σ χ) × Prog Op Ans ε α × σ)
  | [], p, s => some ([], p, s)
  | _ :: _, .ret _, _ => none
  | c :: cs, .call op k, s =>
      match E.exec c op s with
      | none => none
      | some (r, s₁) => (alone E cs (k r) s₁).map fun x => (⟨s, c⟩ :: x.1, x.2)

/-- That is a path, where the others may do nothing. -/
theorem path_alone (ho : ∀ s, E.others s s) : ∀ {cs : List χ} {p q : Prog Op Ans ε α} {s s' : σ}
    {ms : List (Move σ χ)}, alone E cs p s = some (ms, q, s') → Path E p s ms q s' := by
  intro cs
  induction cs with
  | nil =>
      intro p q s s' ms h
      cases h
      exact path_nil p s
  | cons c cs ih =>
      intro p q s s' ms h
      cases p with
      | ret r => cases h
      | call op k =>
          unfold alone at h
          split at h
          next => cases h
          next r s₁ he =>
            obtain ⟨⟨ms', x⟩, hrest, heq⟩ := Option.map_eq_some_iff.mp h
            cases heq
            exact ⟨ho s, r, s₁, he, ih hrest⟩

/-- Two paths, and what the others do between them. -/
theorem path_append {q : Prog Op Ans ε α} {r : Except ε α} {s₁ s₂ s' : σ} {ms' : List (Move σ χ)}
    (htrans : ∀ {a b c}, E.others a b → E.others b c → E.others a c) (ho : E.others s₁ s₂)
    (h' : Path E q s₂ ms' (.ret r) s') (hne : ms' ≠ []) : ∀ {ms : List (Move σ χ)}
      {p : Prog Op Ans ε α} {s : σ}, Path E p s ms q s₁ → Path E p s (ms ++ ms') (.ret r) s' := by
  intro ms
  induction ms with
  | nil =>
      intro p s h
      obtain ⟨rfl, rfl⟩ := path_of_nil h
      cases ms' with
      | nil => exact absurd rfl hne
      | cons m ms' =>
          cases q with
          | ret r => exact h'.elim
          | call op k =>
              obtain ⟨ho', hrest⟩ := h'
              exact ⟨htrans ho ho', hrest⟩
  | cons m ms ih =>
      intro p s h
      cases p with
      | ret r => exact h.elim
      | call op k =>
          obtain ⟨ho', a, s₃, he, hrest⟩ := h
          exact ⟨ho', a, s₃, he, ih hrest⟩

/-- One more operation. -/
theorem path_snoc {op : Op} {k : Except ε (Ans op) → Prog Op Ans ε α} {a : Except ε (Ans op)}
    {s₁ s₂ : σ} {m : Move σ χ} (ho : E.others s₁ m.state)
    (he : E.exec m.choice op m.state = some (a, s₂)) : ∀ {ms : List (Move σ χ)}
      {p : Prog Op Ans ε α} {s : σ}, Path E p s ms (.call op k) s₁ →
        Path E p s (ms ++ [m]) (k a) s₂ := by
  intro ms
  induction ms with
  | nil =>
      intro p s h
      obtain ⟨rfl, rfl⟩ := path_of_nil h
      exact ⟨ho, a, s₂, he, path_nil _ _⟩
  | cons m' ms ih =>
      intro p s h
      cases p with
      | ret r => exact h.elim
      | call op' k' =>
          obtain ⟨ho', a', s', he', hrest⟩ := h
          exact ⟨ho', a', s', he', ih hrest⟩

end Prog

/-! ## §2. The calls of a pool. -/

namespace Contract

variable {Call Op : Type} {Ans : Op → Type} {ε Out σ τ χ View : Type} [DecidableEq τ]
variable {S : System Call Op Ans ε Out σ τ χ} (K : Contract S View)

/-- A session among the others, who leave its own view alone. -/
def among (t : τ) : Prog.Among Op Ans ε σ χ :=
  ⟨fun c op s => S.exec c t op s, fun s s' => K.view t s' = K.view t s⟩

/-- Every open call has taken a path from where it was started. -/
def Travelled (P : Pool Call Op Ans ε Out σ τ) : Prop :=
  ∀ t th, P.thread t = some th → ∃ s ms s', Prog.Path (K.among t) (S.body th.call) (S.enter t s) ms
    th.prog s' ∧ K.view t P.shared = K.view t s'

/-- **Every call of a run takes a path**: its operations are executed in states
that the others have made, without touching its own view. -/
theorem path {s : σ} (h : K.inv s) (as : List (Action τ Call χ)) :
    K.Travelled ((Pool.machine S).run (Pool.init s) as) := by
  have hinv := (Pool.machine S).run_invariant (I := fun P => K.Holds P ∧ K.Travelled P) ?_ as
    (Pool.init s) ⟨K.holds_init h, fun _ _ ht => nomatch ht⟩
  · exact hinv.2
  · rintro P a P' ⟨hP, hT⟩ hstep
    refine ⟨K.act_holds hP hstep, ?_⟩
    -- the other sessions keep their views; the one that moves goes one step on
    have hother : ∀ {u : τ} {x : Option (Thread Call Op Ans ε Out)} {s' : σ},
        (∀ t, t ≠ u → K.view t s' = K.view t P.shared) →
        (∀ th, x = some th → ∃ s ms s₁, Prog.Path (K.among u) (S.body th.call) (S.enter u s) ms
          th.prog s₁ ∧ K.view u s' = K.view u s₁) →
        ∀ t th, Function.update P.thread u x t = some th → ∃ s ms s₁,
          Prog.Path (K.among t) (S.body th.call) (S.enter t s) ms th.prog s₁
            ∧ K.view t s' = K.view t s₁ := by
      intro u x s' hview hx t th ht
      by_cases htu : t = u
      · subst htu
        rw [Function.update_self] at ht
        exact hx th ht
      · rw [Function.update_of_ne htu] at ht
        obtain ⟨s, ms, s₁, hpath, hsame⟩ := hT t th ht
        exact ⟨s, ms, s₁, hpath, (hview t htu).trans hsame⟩
    rcases Pool.act_cases hstep with ⟨t, call, -, -, rfl⟩ | ⟨t, c, call, op, k, r, s', -, ht, he, rfl⟩ |
      ⟨t, c, call, r, s', -, ht, hm, hc, rfl⟩ | ⟨t, th, -, -, rfl⟩
    · refine hother (fun u hu => K.enter_view hu hP.inv) fun th hth => ?_
      obtain rfl := Option.some.inj hth
      exact ⟨P.shared, [], _, Prog.path_nil _ _, rfl⟩
    · refine hother (fun u hu => K.exec_view hu hP.inv he) fun th hth => ?_
      obtain rfl := Option.some.inj hth
      obtain ⟨s, ms, s₁, hpath, hsame⟩ := hT t _ ht
      exact ⟨s, ms ++ [⟨P.shared, c⟩], s', Prog.path_snoc hsame he hpath, rfl⟩
    · exact hother (fun u hu => K.commit_view hu hP.inv hc) fun th hth => nomatch hth
    · exact hother (fun u hu => K.rollback_view hu hP.inv) fun th hth => nomatch hth

end Contract

end Nimbus.Lib
