/-
  Nimbus.Core.Steps
  ─────────────────
  **A SERVICE, STEP BY STEP.**

  A complete path of one service call in a session `t`, from any state of the
  world and of the session.  Between its operations the others may do anything
  to the world but to what is the session's own.

    • `Runs`                    — such a path, and its outcome;
    • `runs_op`, `runs_next`    — one operation;
    • `runs_bind`, `runs_handle`, `runs_finally` — programs put together;
    • `found`, `exec_select`    — what a SELECT answers.
-/
import Nimbus.Core.DatabaseLaws
import Nimbus.Lib.Paths

namespace Nimbus

open Lib Lib.Prog

variable {τ : Type} [DecidableEq τ]

/-- The moves of a session. -/
abbrev Moves (τ : Type) := List (Move (World τ) Choice)

/-- A session among the others. -/
def World.among (t : τ) : Among Op Ans Exn (World τ) Choice :=
  ⟨fun c op w => exec c t op w, fun w w' => w'.local t = w.local t⟩

/-- The service `p`, called in the session `t`, takes the path `ms` and ends
with `r`. -/
def Runs {α : Type} (t : τ) (p : Svc α) (w : World τ) (ms : Moves τ) (r : Except Exn α)
    (w' : World τ) : Prop := Path (World.among t) p w ms (.ret r) w'

variable {α β : Type} {t : τ} {w w' : World τ} {ms : Moves τ}

/-! ## §1. Programs. -/

theorem runs_ret {r₀ r : Except Exn α} (h : Runs t (.ret r₀) w ms r w') :
    ms = [] ∧ r = r₀ ∧ w' = w := path_ret h

/-- One operation. -/
theorem runs_op {op : Op} {r : Except Exn (Ans op)} (h : Runs t (.call op .ret) w ms r w') :
    ∃ m, ms = [m] ∧ m.state.local t = w.local t ∧ exec m.choice t op m.state = some (r, w') := by
  obtain ⟨m, rest, a, w₁, rfl, ho, he, hrest⟩ := path_call h
  obtain ⟨rfl, rfl, rfl⟩ := path_ret hrest
  exact ⟨m, rfl, ho, he⟩

theorem runs_handle {p : Svc α} {k : Except Exn α → Svc β} {r : Except Exn β}
    (h : Runs t (p.handle k) w ms r w') : ∃ ms₁ ms₂ r₁ w₁, ms = ms₁ ++ ms₂
      ∧ Runs t p w ms₁ r₁ w₁ ∧ Runs t (k r₁) w₁ ms₂ r w' := path_handle h

/-- The path of a call whose result is changed. -/
theorem runs_map {p : Svc α} {f : α → β} {r : Except Exn β} (h : Runs t (p.map f) w ms r w') :
    ∃ r₁, Runs t p w ms r₁ w' ∧ r = r₁.map f := by
  obtain ⟨ms₁, ms₂, r₁, w₁, rfl, h₁, h₂⟩ := runs_handle h
  obtain ⟨rfl, rfl, rfl⟩ := runs_ret h₂
  rw [List.append_nil]
  exact ⟨r₁, h₁, rfl⟩

/-- A path that the others interrupt once. -/
theorem runs_interrupted {p q : Svc α} {r : Except Exn α} {w₁ w₂ : World τ} {ms' : Moves τ}
    (h : Path (World.among t) p w ms q w₁) (ho : w₂.local t = w₁.local t)
    (h' : Runs t q w₂ ms' r w') (hne : ms' ≠ []) : Runs t p w (ms ++ ms') r w' :=
  path_append (E := World.among t) (fun {_ _ _} h₁ h₂ => Eq.trans h₂ h₁) ho h' hne h

/-- An exception of the first part is the outcome. -/
theorem runs_bind {p : Svc α} {f : α → Svc β} {r : Except Exn β} (h : Runs t (p >>= f) w ms r w') :
    (∃ ms₁ ms₂ a w₁, ms = ms₁ ++ ms₂ ∧ Runs t p w ms₁ (.ok a) w₁ ∧ Runs t (f a) w₁ ms₂ r w')
      ∨ ∃ e, r = .error e ∧ Runs t p w ms (.error e) w' := by
  obtain ⟨ms₁, ms₂, r₁, w₁, rfl, h₁, h₂⟩ := runs_handle h
  cases r₁ with
  | ok a => exact Or.inl ⟨ms₁, ms₂, a, w₁, rfl, h₁, h₂⟩
  | error e =>
      obtain ⟨rfl, rfl, rfl⟩ := runs_ret h₂
      refine Or.inr ⟨e, rfl, ?_⟩
      rw [List.append_nil]
      exact h₁

/-- The paths of two parts, one after the other. -/
theorem runs_then {p : Svc α} {f : α → Svc β} {a : α} {r : Except Exn β} {w₁ : World τ}
    {ms₁ ms₂ : Moves τ} (h₁ : Runs t p w ms₁ (.ok a) w₁) (h₂ : Runs t (f a) w₁ ms₂ r w') :
    Runs t (p >>= f) w (ms₁ ++ ms₂) r w' := by
  have hnext : Path (World.among t) (onOk f (.ok a)) w₁ ms₂ (.ret r) w' := h₂
  exact path_then hnext h₁

/-- **An operation, and on from its answer.** -/
theorem runs_next {op : Op} {f : Ans op → Svc α} {r : Except Exn α}
    (h : Runs t (Prog.call op .ret >>= f) w ms r w') : ∃ m rest r₀ w₁, ms = m :: rest
      ∧ m.state.local t = w.local t ∧ exec m.choice t op m.state = some (r₀, w₁)
      ∧ ((∃ a, r₀ = .ok a ∧ Runs t (f a) w₁ rest r w')
        ∨ ∃ e, r₀ = .error e ∧ rest = [] ∧ r = .error e ∧ w' = w₁) := by
  obtain ⟨m, rest, r₀, w₁, rfl, ho, he, hrest⟩ := path_call h
  cases r₀ with
  | ok a => exact ⟨m, rest, .ok a, w₁, rfl, ho, he, Or.inl ⟨a, rfl, hrest⟩⟩
  | error e =>
      obtain ⟨rfl, rfl, rfl⟩ := path_ret hrest
      exact ⟨m, [], .error e, w', rfl, ho, he, Or.inr ⟨e, rfl, rfl, rfl, rfl⟩⟩

/-- `try`/`finally`: both parts run, and an exception of the second counts. -/
theorem runs_finally {p : Svc α} {fin : Svc β} {r : Except Exn α}
    (h : Runs t (finally_ p fin) w ms r w') : ∃ ms₁ ms₂ r₁ w₁ r₂, ms = ms₁ ++ ms₂
      ∧ Runs t p w ms₁ r₁ w₁ ∧ Runs t fin w₁ ms₂ r₂ w'
      ∧ ((∃ b, r₂ = .ok b ∧ r = r₁) ∨ ∃ e, r₂ = .error e ∧ r = .error e) := by
  obtain ⟨ms₁, rest, r₁, w₁, rfl, h₁, h⟩ := runs_handle h
  obtain ⟨ms₂, ms₃, r₂, w₂, rfl, h₂, h₃⟩ := runs_handle h
  cases r₂ with
  | ok b =>
      obtain ⟨rfl, rfl, rfl⟩ := runs_ret h₃
      exact ⟨ms₁, ms₂, _, w₁, .ok b, by rw [List.append_nil], h₁, h₂, Or.inl ⟨b, rfl, rfl⟩⟩
  | error e =>
      obtain ⟨rfl, rfl, rfl⟩ := runs_ret h₃
      exact ⟨ms₁, ms₂, _, w₁, .error e, by rw [List.append_nil], h₁, h₂, Or.inr ⟨e, rfl, rfl⟩⟩

/-- It raises unless both parts return. -/
theorem raises_of_finally {r r₁ : Except Exn α} {r₂ : Except Exn β}
    (h : (∃ b, r₂ = .ok b ∧ r = r₁) ∨ ∃ e, r₂ = .error e ∧ r = .error e) :
    (∃ e, r = .error e) ↔ ¬ ((∃ a, r₁ = .ok a) ∧ ¬ ∃ e, r₂ = .error e) := by
  rcases h with ⟨b, rfl, rfl⟩ | ⟨e, rfl, rfl⟩
  · cases r with
    | ok a =>
        refine iff_of_false (fun ⟨_, hc⟩ => nomatch hc) (fun hc => hc ⟨⟨a, rfl⟩, ?_⟩)
        exact fun ⟨_, he⟩ => nomatch he
    | error e => exact iff_of_true ⟨e, rfl⟩ (fun ⟨⟨_, ha⟩, _⟩ => nomatch ha)
  · exact iff_of_true ⟨e, rfl⟩ (fun hc => hc.2 ⟨e, rfl⟩)

/-! ## §2. Operations. -/

/-- The object that a SELECT by primary key answers with: the one the session
has loaded, if it has, whatever the row has become. -/
def World.found (w : World τ) (t : τ) (k : RowKey) : Option Row :=
  (w.store.view t k).map fun row => ((w.session t).objs k).getD row

/-- The session after a SELECT that found a row. -/
def Session.load (s : Session) (k : RowKey) (obj : Row) : Session :=
  { s with objs := Function.update s.objs k (some obj) }

/-- **What a SELECT does**: it fails, finds no row, or answers with the object,
which is then loaded. -/
theorem exec_select {c : Choice} {k : RowKey} {forUpdate : Bool} {r : Except Exn (Option Row)}
    (h : exec c t (.select k forUpdate) w = some (r, w')) :
    (∃ f, c.fault = some f ∧ r = .error f.exn ∧ w' = w)
      ∨ (c.fault = none ∧ w.found t k = none ∧ r = .ok none ∧ w' = w)
      ∨ ∃ obj, c.fault = none ∧ w.found t k = some obj ∧ r = .ok (some obj)
          ∧ w'.session t = (w.session t).load k obj := by
  unfold exec at h
  cases hf : c.fault with
  | some f =>
      rw [hf] at h
      obtain ⟨rfl, rfl⟩ := Prod.mk.inj (Option.some.inj h)
      exact Or.inl ⟨f, rfl, rfl, rfl⟩
  | none =>
      rw [hf] at h
      obtain ⟨⟨row, w₁⟩, hs, heq⟩ := Option.map_eq_some_iff.mp h
      obtain ⟨rfl, rfl⟩ := Prod.mk.inj heq
      unfold World.found
      rcases select_cases hs with ⟨hv, rfl, rfl⟩ | ⟨row', store, hv, rfl, -, rfl⟩
      · exact Or.inr (Or.inl ⟨rfl, by rw [hv]; rfl, rfl, rfl⟩)
      · exact Or.inr (Or.inr ⟨_, rfl, by rw [hv]; rfl, rfl, World.setSession_self ..⟩)

/-- A SELECT that locks nothing leaves the store alone. -/
theorem exec_select_store {c : Choice} {k : RowKey} {r : Except Exn (Option Row)}
    (h : exec c t (.select k false) w = some (r, w')) : w'.store = w.store := by
  simp only [exec] at h
  split at h
  next f _ =>
    obtain ⟨-, rfl⟩ := Prod.mk.inj (Option.some.inj h)
    rfl
  next =>
    obtain ⟨⟨row, w₁⟩, hs, heq⟩ := Option.map_eq_some_iff.mp h
    obtain ⟨-, rfl⟩ := Prod.mk.inj heq
    rcases select_cases hs with ⟨-, -, rfl⟩ | ⟨row', store, -, -, hstore, rfl⟩
    · rfl
    · exact hstore

/-- A new UUID. -/
theorem exec_uuid4 {c : Choice} {r : Except Exn Uuid} (h : exec c t .uuid4 w = some (r, w')) :
    r = .ok c.uuid ∧ w'.session t = w.session t := by
  simp only [exec] at h
  split at h
  next => cases h
  next =>
    obtain ⟨rfl, rfl⟩ := Prod.mk.inj (Option.some.inj h)
    exact ⟨rfl, rfl⟩

/-- Others may commit a row that the session has not locked. -/
theorem local_of_commit {T : Table Row}
    (hT : ∀ k, w.store.owner k = some t → T.lookup k = w.base.lookup k) :
    ({ w with store := { w.store with base := T } } : World τ).local t = w.local t := by
  have hpart : ({ w.store with base := T } : TxStore Row τ).part t = w.store.part t :=
    TxStore.part_congr rfl (fun _ => Iff.rfl) hT
  unfold World.local
  rw [hpart]

/-- The sessions are the same where the views are. -/
theorem session_of_local {m : World τ} (h : m.local t = w.local t) : m.session t = w.session t :=
  congrArg Local.session h

theorem writes_of_local {m : World τ} (h : m.local t = w.local t) :
    m.store.writes t = w.store.writes t :=
  congrArg (fun l => l.part.writes) h

end Nimbus
