/-
  Nimbus.Lib.Prog
  ───────────────
  **EFFECTFUL PROGRAMS WITH EXCEPTIONS, AND HOW TO VERIFY ONE AMONG MANY.**

  A program of type `Prog Op Ans ε α` either has ended, with a value or an
  exception, or waits for the answer of one operation.  The answer may itself
  be an exception, so `try`/`except`/`finally` around an operation are plain
  functions on programs.  What an operation does is left to a semantics
  `exec`, given apart: the same program runs alone, or one operation at a time
  between the operations of other programs.

    • `handle` — run a program, then continue on its outcome; `bind`,
                 `tryCatch` and `finally` are cases of it;
    • `eval`   — a program run alone;
    • `wlp`    — what must hold for every operation of a program to be allowed
                 and every outcome to satisfy a postcondition WHATEVER the
                 others do, stated on the part of the state that only the
                 program's own session can change (its local view): so a
                 program is verified as if it ran alone;
    • `wlp_handle`, `wlp_bind`, `wlp_finally` — the rules proofs use;
    • `Yields` — what a program returns, whatever it is answered;
    • `embed`  — a program among more operations.
-/
import Mathlib.Tactic.Basic

namespace Nimbus.Lib

/-- A program over the operations `Op`, answered in `Ans`, raising `ε`. -/
inductive Prog (Op : Type) (Ans : Op → Type) (ε α : Type) : Type
  | ret (r : Except ε α)
  | call (op : Op) (k : Except ε (Ans op) → Prog Op Ans ε α)

namespace Prog

variable {Op : Type} {Ans : Op → Type} {ε α β : Type}

/-! ## §1. Sequencing and exceptions. -/

/-- Run `p`, then continue on its outcome, value or exception. -/
def handle (p : Prog Op Ans ε α) (k : Except ε α → Prog Op Ans ε β) : Prog Op Ans ε β :=
  match p with
  | .ret r => k r
  | .call op c => .call op (fun r => (c r).handle k)

/-- Continue on a value; an exception goes on to the caller. -/
def onOk (f : α → Prog Op Ans ε β) : Except ε α → Prog Op Ans ε β
  | .ok a => f a
  | .error e => .ret (.error e)

instance : Monad (Prog Op Ans ε) where
  pure a := .ret (.ok a)
  bind p f := p.handle (onOk f)

instance : MonadExceptOf ε (Prog Op Ans ε) where
  throw e := .ret (.error e)
  tryCatch p h := p.handle fun
    | .ok a => .ret (.ok a)
    | .error e => h e

/-- Lift a computation that may raise. -/
def lift (r : Except ε α) : Prog Op Ans ε α := .ret r

/-- Change the value a program returns. -/
def map (f : α → β) (p : Prog Op Ans ε α) : Prog Op Ans ε β := p.handle fun r => .ret (r.map f)

/-- `try: p finally: fin`.  An exception of `fin` replaces the outcome of `p`. -/
def finally_ (p : Prog Op Ans ε α) (fin : Prog Op Ans ε β) : Prog Op Ans ε α :=
  p.handle fun r => fin.handle fun
    | .ok _ => .ret r
    | .error e => .ret (.error e)

@[simp] theorem pure_eq (a : α) : (pure a : Prog Op Ans ε α) = .ret (.ok a) := rfl

@[simp] theorem throw_eq (e : ε) : (throw e : Prog Op Ans ε α) = .ret (.error e) := rfl

@[simp] theorem bind_eq (p : Prog Op Ans ε α) (f : α → Prog Op Ans ε β) :
    (p >>= f) = p.handle (onOk f) := rfl

@[simp] theorem handle_ret (r : Except ε α) (k : Except ε α → Prog Op Ans ε β) :
    (Prog.ret r : Prog Op Ans ε α).handle k = k r := rfl

@[simp] theorem handle_call (op : Op) (c : Except ε (Ans op) → Prog Op Ans ε α)
    (k : Except ε α → Prog Op Ans ε β) :
    (Prog.call op c).handle k = .call op (fun r => (c r).handle k) := rfl

/-- The outcome of a program that has ended. -/
def outcome? : Prog Op Ans ε α → Option (Except ε α)
  | .ret r => some r
  | .call _ _ => none

/-- The program has ended. -/
def ended (p : Prog Op Ans ε α) : Bool := p.outcome?.isSome

@[simp] theorem outcome?_ret (r : Except ε α) :
    (Prog.ret r : Prog Op Ans ε α).outcome? = some r := rfl

/-- The program run alone, on operations that always answer: its outcome and
the state it leaves. -/
def eval {σ : Type} (exec : (op : Op) → σ → Except ε (Ans op) × σ) :
    Prog Op Ans ε α → σ → Except ε α × σ
  | .ret r, s => (r, s)
  | .call op k, s => (k (exec op s).1).eval exec (exec op s).2

@[simp] theorem eval_ret {σ : Type} (exec : (op : Op) → σ → Except ε (Ans op) × σ)
    (r : Except ε α) (s : σ) : (Prog.ret r : Prog Op Ans ε α).eval exec s = (r, s) := rfl

@[simp] theorem eval_call {σ : Type} (exec : (op : Op) → σ → Except ε (Ans op) × σ) (op : Op)
    (k : Except ε (Ans op) → Prog Op Ans ε α) (s : σ) :
    (Prog.call op k).eval exec s = (k (exec op s).1).eval exec (exec op s).2 := rfl

/-- The second part runs on the outcome and the state of the first. -/
theorem eval_handle {σ : Type} (exec : (op : Op) → σ → Except ε (Ans op) × σ)
    (p : Prog Op Ans ε α) (k : Except ε α → Prog Op Ans ε β) (s : σ) :
    (p.handle k).eval exec s = (k (p.eval exec s).1).eval exec (p.eval exec s).2 := by
  induction p generalizing s with
  | ret r => rfl
  | call op c ih => exact ih (exec op s).1 (exec op s).2

theorem eval_map {σ : Type} (exec : (op : Op) → σ → Except ε (Ans op) × σ)
    (f : α → β) (p : Prog Op Ans ε α) (s : σ) :
    (p.map f).eval exec s = ((p.eval exec s).1.map f, (p.eval exec s).2) :=
  eval_handle exec p (fun r => .ret (r.map f)) s

/-- A first part that returns. -/
theorem eval_bind_ok {σ : Type} {exec : (op : Op) → σ → Except ε (Ans op) × σ} {p : Prog Op Ans ε α}
    {s s' : σ} {a : α} (h : p.eval exec s = (.ok a, s')) (f : α → Prog Op Ans ε β) :
    (p >>= f).eval exec s = (f a).eval exec s' := by
  rw [bind_eq, eval_handle, h]
  rfl

/-- A first part that raises. -/
theorem eval_bind_error {σ : Type} {exec : (op : Op) → σ → Except ε (Ans op) × σ}
    {p : Prog Op Ans ε α} {s s' : σ} {e : ε} (h : p.eval exec s = (.error e, s'))
    (f : α → Prog Op Ans ε β) : (p >>= f).eval exec s = (.error e, s') := by
  rw [bind_eq, eval_handle, h]
  exact eval_ret exec _ s'

theorem eval_tryCatch_ok {σ : Type} {exec : (op : Op) → σ → Except ε (Ans op) × σ}
    {p : Prog Op Ans ε α} {s s' : σ} {a : α} (h : p.eval exec s = (.ok a, s'))
    (c : ε → Prog Op Ans ε α) : (tryCatch p c).eval exec s = (.ok a, s') := by
  refine (eval_handle exec p _ s).trans ?_
  rw [h]
  rfl

/-- The handler runs in the state that the exception has left. -/
theorem eval_tryCatch_error {σ : Type} {exec : (op : Op) → σ → Except ε (Ans op) × σ}
    {p : Prog Op Ans ε α} {s s' : σ} {e : ε} (h : p.eval exec s = (.error e, s'))
    (c : ε → Prog Op Ans ε α) : (tryCatch p c).eval exec s = (c e).eval exec s' := by
  refine (eval_handle exec p _ s).trans ?_
  rw [h]

/-- The state that a `finally` leaves. -/
theorem eval_finally {σ : Type} (exec : (op : Op) → σ → Except ε (Ans op) × σ)
    (p : Prog Op Ans ε α) (fin : Prog Op Ans ε β) (s : σ) :
    (finally_ p fin).eval exec s
      = ((fin.eval exec (p.eval exec s).2).1.bind fun _ => (p.eval exec s).1,
        (fin.eval exec (p.eval exec s).2).2) := by
  unfold finally_
  rw [eval_handle, eval_handle]
  cases (fin.eval exec (p.eval exec s).2).1 with
  | ok _ => rfl
  | error _ => rfl

/-! ## §2. Reasoning from a local view. -/

/-- What a program is verified against: `exec` runs one operation of its
session on the shared state, `inv` holds of every shared state, `view` is the
part of it that no other session can change, and `allowed` is what an operation
asks of that part so as to keep `inv`. -/
structure Setting (Op : Type) (Ans : Op → Type) (ε σ χ View : Type) where
  exec : χ → (op : Op) → σ → Option (Except ε (Ans op) × σ)
  inv : σ → Prop
  view : σ → View
  allowed : Op → View → Prop

/-- The same, where an operation is possible only under the guard `g`. -/
def Setting.restrict {σ χ View : Type} (E : Setting Op Ans ε σ χ View) (g : χ → Op → σ → Bool) :
    Setting Op Ans ε σ χ View :=
  { E with exec := fun c op s => if g c op s then E.exec c op s else none }

theorem Setting.restrict_exec {σ χ View : Type} (E : Setting Op Ans ε σ χ View)
    {g : χ → Op → σ → Bool} {c : χ} {op : Op} {s : σ} {x : Except ε (Ans op) × σ}
    (h : (E.restrict g).exec c op s = some x) : g c op s = true ∧ E.exec c op s = some x := by
  have hif : (if g c op s then E.exec c op s else none) = some x := h
  split at hif
  next hg => exact ⟨hg, hif⟩
  next => cases hif

section Wlp

variable {σ χ View : Type} (E : Setting Op Ans ε σ χ View)

/-- `wlp p l`: whenever the local view is `l`, and whatever the others have
made of the rest, each operation of `p` is allowed, `L` holds at every point,
and an outcome of `p` satisfies `Q`. -/
def wlp (L : View → Prop) (Q : Except ε α → View → Prop) : Prog Op Ans ε α → View → Prop
  | .ret r, l => L l ∧ Q r l
  | .call op k, l => L l ∧ E.allowed op l ∧ ∀ c s r s', E.inv s → E.view s = l →
      E.exec c op s = some (r, s') → wlp L Q (k r) (E.view s')

variable {E} {L : View → Prop}

/-- What holds at every point holds now. -/
theorem wlp_loc {Q : Except ε α → View → Prop} {p : Prog Op Ans ε α} {l : View}
    (h : wlp E L Q p l) : L l := by
  cases p with
  | ret r => exact h.1
  | call op k => exact h.1

/-- A weaker postcondition. -/
theorem wlp_mono {Q Q' : Except ε α → View → Prop} (hQ : ∀ r l, Q r l → Q' r l) :
    ∀ {p : Prog Op Ans ε α} {l : View}, wlp E L Q p l → wlp E L Q' p l := by
  intro p
  induction p with
  | ret r =>
      intro l h
      exact ⟨h.1, hQ r l h.2⟩
  | call op k ih =>
      intro l h
      obtain ⟨hl, ha, hk⟩ := h
      exact ⟨hl, ha, fun c s r s' hi hv he => ih r (hk c s r s' hi hv he)⟩

/-- Less at every point. -/
theorem wlp_mono_along {L' : View → Prop} {Q : Except ε α → View → Prop}
    (hL : ∀ l, L l → L' l) : ∀ {p : Prog Op Ans ε α} {l : View},
      wlp E L Q p l → wlp E L' Q p l := by
  intro p
  induction p with
  | ret r =>
      intro l h
      exact ⟨hL l h.1, h.2⟩
  | call op k ih =>
      intro l h
      obtain ⟨hl, ha, hk⟩ := h
      exact ⟨hL l hl, ha, fun c s r s' hi hv he => ih r (hk c s r s' hi hv he)⟩

/-- **Where fewer operations are possible**, what has been verified still holds. -/
theorem wlp_restrict {Q : Except ε α → View → Prop} (g : χ → Op → σ → Bool) :
    ∀ {p : Prog Op Ans ε α} {l : View}, wlp E L Q p l → wlp (E.restrict g) L Q p l := by
  intro p
  induction p with
  | ret r => exact fun h => h
  | call op k ih =>
      intro l h
      obtain ⟨hl, ha, hk⟩ := h
      exact ⟨hl, ha, fun c s r s' hi hv he => ih r (hk c s r s' hi hv (E.restrict_exec he).2)⟩

/-- Two postconditions at once. -/
theorem wlp_and {Q R : Except ε α → View → Prop} : ∀ {p : Prog Op Ans ε α} {l : View},
    wlp E L Q p l → wlp E L R p l → wlp E L (fun r l' => Q r l' ∧ R r l') p l := by
  intro p
  induction p with
  | ret r =>
      intro l hQ hR
      exact ⟨hQ.1, hQ.2, hR.2⟩
  | call op k ih =>
      intro l hQ hR
      refine ⟨hQ.1, hQ.2.1, fun c s r s' hi hv he => ?_⟩
      exact ih r (hQ.2.2 c s r s' hi hv he) (hR.2.2 c s r s' hi hv he)

/-- **Sequencing on the outcome.** -/
theorem wlp_handle {Q : Except ε β → View → Prop} {R : Except ε α → View → Prop}
    {k : Except ε α → Prog Op Ans ε β} (hk : ∀ r l, L l → R r l → wlp E L Q (k r) l) :
    ∀ {p : Prog Op Ans ε α} {l : View}, wlp E L R p l → wlp E L Q (p.handle k) l := by
  intro p
  induction p with
  | ret r =>
      intro l h
      exact hk r l h.1 h.2
  | call op c ih =>
      intro l h
      obtain ⟨hl, ha, hstep⟩ := h
      exact ⟨hl, ha, fun ch s r s' hi hv he => ih r (hstep ch s r s' hi hv he)⟩

/-- **Sequencing on a value**: an exception of the first part passes through. -/
theorem wlp_bind {Q : Except ε β → View → Prop} {R : Except ε α → View → Prop}
    {f : α → Prog Op Ans ε β} {p : Prog Op Ans ε α} {l : View} (hp : wlp E L R p l)
    (herr : ∀ e l, R (.error e) l → Q (.error e) l)
    (hok : ∀ a l, L l → R (.ok a) l → wlp E L Q (f a) l) : wlp E L Q (p >>= f) l := by
  refine wlp_handle (fun r l' hl hr => ?_) hp
  cases r with
  | ok a => exact hok a l' hl hr
  | error e => exact ⟨hl, herr e l' hr⟩

theorem wlp_map {R : Except ε α → View → Prop} {f : α → β} {p : Prog Op Ans ε α} {l : View}
    (hp : wlp E L R p l) : wlp E L (fun r l' => ∃ x, r = x.map f ∧ R x l') (p.map f) l := by
  refine wlp_handle (fun r l' hl hr => ?_) hp
  exact ⟨hl, r, rfl, hr⟩

/-- **`try`/`finally`**: the outcome is that of the first part, unless the
second raises. -/
theorem wlp_finally {Q R : Except ε α → View → Prop} {S : View → Except ε β → View → Prop}
    {p : Prog Op Ans ε α} {fin : Prog Op Ans ε β} {l : View} (hp : wlp E L R p l)
    (hfin : ∀ r l, L l → R r l → wlp E L (S l) fin l)
    (hok : ∀ r l b l', R r l → S l (.ok b) l' → Q r l')
    (herr : ∀ r l e l', R r l → S l (.error e) l' → Q (.error e) l') :
    wlp E L Q (finally_ p fin) l := by
  refine wlp_handle (fun r l₁ hl hr => ?_) hp
  refine wlp_handle (fun r' l₂ hl' hs => ?_) (hfin r l₁ hl hr)
  cases r' with
  | ok b => exact ⟨hl', hok r l₁ b l₂ hr hs⟩
  | error e => exact ⟨hl', herr r l₁ e l₂ hr hs⟩

end Wlp

/-! ## §3. Whatever it is answered. -/

section Yields

variable {R : β → Prop} {S : α → Prop}

/-- Every value that `p` can return satisfies `R`. -/
def Yields (R : α → Prop) : Prog Op Ans ε α → Prop
  | .ret (.ok a) => R a
  | .ret (.error _) => True
  | .call _ k => ∀ r, Yields R (k r)

theorem yields_any (p : Prog Op Ans ε α) : Yields (fun _ => True) p := by
  induction p with
  | ret r =>
      cases r with
      | ok a => trivial
      | error e => trivial
  | call op k ih => exact ih

theorem yields_handle {k : Except ε α → Prog Op Ans ε β}
    (hk : ∀ r, (∀ a, r = .ok a → S a) → Yields R (k r)) :
    ∀ {p : Prog Op Ans ε α}, Yields S p → Yields R (p.handle k) := by
  intro p
  induction p with
  | ret r =>
      intro h
      refine hk r fun a ha => ?_
      subst ha
      exact h
  | call op c ih =>
      intro h r
      exact ih r (h r)

theorem yields_bind {f : α → Prog Op Ans ε β} (hf : ∀ a, S a → Yields R (f a))
    {p : Prog Op Ans ε α} (h : Yields S p) : Yields R (p >>= f) := by
  refine yields_handle (fun r hr => ?_) h
  cases r with
  | ok a => exact hf a (hr a rfl)
  | error e => trivial

/-- Where nothing has to be known of the first part. -/
theorem yields_then {f : α → Prog Op Ans ε β} (hf : ∀ a, Yields R (f a)) (p : Prog Op Ans ε α) :
    Yields R (p >>= f) := yields_bind (fun a _ => hf a) (yields_any p)

theorem yields_map {f : α → β} {p : Prog Op Ans ε α} (h : Yields (fun a => R (f a)) p) :
    Yields R (p.map f) := by
  refine yields_handle (fun r hr => ?_) h
  cases r with
  | ok a => exact hr a rfl
  | error e => trivial

end Yields

/-! ## §4. Among more operations. -/

section Embed

variable {Op' : Type} {Ans' : Op' → Type}

/-- The program, each operation `op` of it being `f op` there. -/
def embed (f : Op → Op') (g : ∀ op, Ans' (f op) → Ans op) : Prog Op Ans ε α → Prog Op' Ans' ε α
  | .ret r => .ret r
  | .call op k => .call (f op) (fun r => (k (r.map (g op))).embed f g)

/-- **What has been verified holds among more operations.** -/
theorem wlp_embed {σ χ View : Type} {f : Op → Op'} {g : ∀ op, Ans' (f op) → Ans op}
    {E : Setting Op Ans ε σ χ View} {E' : Setting Op' Ans' ε σ χ View} {L : View → Prop}
    {Q : Except ε α → View → Prop} (hview : E'.view = E.view) (hinv : ∀ s, E'.inv s → E.inv s)
    (hallowed : ∀ op l, E.allowed op l → E'.allowed (f op) l)
    (hexec : ∀ {c op s r s'}, E'.exec c (f op) s = some (r, s') →
      E.exec c op s = some (r.map (g op), s')) :
    ∀ {p : Prog Op Ans ε α} {l : View}, wlp E L Q p l → wlp E' L Q (p.embed f g) l := by
  intro p
  induction p with
  | ret r => exact fun h => h
  | call op k ih =>
      intro l h
      obtain ⟨hl, ha, hk⟩ := h
      refine ⟨hl, hallowed op l ha, fun c s r s' hi hv he => ih _ ?_⟩
      rw [hview] at hv ⊢
      exact hk c s _ s' (hinv s hi) hv (hexec he)

end Embed

end Prog

end Nimbus.Lib
