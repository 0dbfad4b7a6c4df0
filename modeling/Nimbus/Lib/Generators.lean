/-
  Nimbus.Lib.Generators
  ─────────────────────
  **ASYNC GENERATORS, AND WHAT A WITH-BLOCK OVER ONE DOES.**

  A generator runs as a program does, but it can also stop at a `yield` and wait
  to be resumed: by the next step of a loop, or with an exception thrown in.  A
  with-block over a generator runs it up to its `yield`, then the body, and then
  resumes it with what has become of the body.

    • `Gen.next`, `Gen.close`  — one step of a generator; `aclose()`;
    • `Gen.forYield`           — `async for y in g: yield y`;
    • `withBlock`              — `async with asynccontextmanager(g)() as y: …`;
    • `withBlock_forYield_ok`    — where the body returns, the wrapper changes nothing;
    • `withBlock_forYield_error` — **where it raises, the wrapped generator is left
                                   where it was: nothing after its `yield` runs.**
-/
import Nimbus.Lib.Prog

namespace Nimbus.Lib

/-- An async generator of `Y` over the operations `Op`, raising `ε`. -/
inductive Gen (Op : Type) (Ans : Op → Type) (ε Y : Type) : Type
  | done
  | fail (e : ε)
  | call (op : Op) (k : Except ε (Ans op) → Gen Op Ans ε Y)
  -- resumed with nothing, or with an exception thrown in
  | yield (y : Y) (resume : Option ε → Gen Op Ans ε Y)

namespace Gen

variable {Op : Type} {Ans : Op → Type} {ε Y α : Type}

/-! ## §1. Running a generator. -/

/-- A part of a generator that has no `yield`, and what comes after it. -/
def ofProg (p : Prog Op Ans ε α) (k : Except ε α → Gen Op Ans ε Y) : Gen Op Ans ε Y :=
  match p with
  | .ret r => k r
  | .call op c => .call op fun r => ofProg (c r) k

/-- `return`, or the exception that the last part has raised. -/
def ending : Except ε α → Gen Op Ans ε Y
  | .ok _ => .done
  | .error e => .fail e

/-- `anext(g)`: on to the next `yield`, or to the end. -/
def next : Gen Op Ans ε Y → Prog Op Ans ε (Option (Y × (Option ε → Gen Op Ans ε Y)))
  | .done => .ret (.ok none)
  | .fail e => .ret (.error e)
  | .call op k => .call op fun r => (k r).next
  | .yield y resume => .ret (.ok (some (y, resume)))

/-- `async for y in g: yield y`.  An exception that is thrown in at the inner
`yield` comes out of the loop: `g` is not told. -/
def forYield : Gen Op Ans ε Y → Gen Op Ans ε Y
  | .done => .done
  | .fail e => .fail e
  | .call op k => .call op fun r => (k r).forYield
  | .yield y resume => .yield y fun
      | none => (resume none).forYield
      | some e => .fail e

/-- What a step of the wrapper has come to, given what the step of `g` has. -/
def wrapped : Option (Y × (Option ε → Gen Op Ans ε Y)) → Option (Y × (Option ε → Gen Op Ans ε Y)) :=
  Option.map fun stop => (stop.1, fun
    | none => (stop.2 none).forYield
    | some e => .fail e)

theorem next_forYield (g : Gen Op Ans ε Y) : g.forYield.next = g.next.map wrapped := by
  induction g with
  | done => rfl
  | fail e => rfl
  | call op k ih =>
      show Prog.call op (fun r => (k r).forYield.next) = Prog.call op fun r => (k r).next.map wrapped
      rw [show (fun r => (k r).forYield.next) = fun r => (k r).next.map wrapped from funext ih]
  | yield y resume ih => rfl

theorem next_ofProg (p : Prog Op Ans ε α) (k : Except ε α → Gen Op Ans ε Y) :
    (ofProg p k).next = p.handle fun r => (k r).next := by
  induction p with
  | ret r => rfl
  | call op c ih =>
      show Prog.call op (fun r => (ofProg (c r) k).next) = _
      rw [show (fun r => (ofProg (c r) k).next) = fun r => (c r).handle fun r => (k r).next
        from funext ih]
      rfl

/-- The last part of a generator runs as a program does. -/
theorem next_ofProg_ending (p : Prog Op Ans ε α) :
    (ofProg p ending : Gen Op Ans ε Y).next = p.map fun _ => none := by
  rw [next_ofProg]
  show p.handle _ = p.handle _
  refine congrArg p.handle (funext fun r => ?_)
  cases r with
  | ok _ => rfl
  | error _ => rfl

/-! ## §2. With-blocks. -/

/-- The exceptions that the interpreter and `contextlib` raise themselves. -/
structure Interpreter (ε : Type) where
  generator_exit : ε
  /-- The exceptions that end a closed generator quietly. -/
  exits : ε → Bool
  ignored_exit : ε
  didnt_yield : ε
  didnt_stop : ε
  didnt_stop_after_athrow : ε

/-- `g.aclose()` of a generator at a `yield`. -/
def close (I : Interpreter ε) (resume : Option ε → Gen Op Ans ε Y) : Prog Op Ans ε Unit :=
  (resume (some I.generator_exit)).next.handle fun
    | .ok none => .ret (.ok ())
    | .ok (some _) => .ret (.error I.ignored_exit)
    | .error e => .ret (if I.exits e then .ok () else .error e)

/-- `raise e`, and close the generator at last. -/
def raiseClosing (I : Interpreter ε) (e : ε) (resume : Option ε → Gen Op Ans ε Y) :
    Prog Op Ans ε (Option α) :=
  Prog.finally_ (.ret (.error e)) (close I resume)

/-- `__aexit__`: the generator is resumed with what has become of the body.
`none` is the value of a body whose exception is suppressed. -/
def aexit (I : Interpreter ε) (resume : Option ε → Gen Op Ans ε Y) :
    Except ε α → Prog Op Ans ε (Option α)
  | .ok a => (resume none).next.handle fun
      | .ok none => .ret (.ok (some a))
      | .ok (some stop) => raiseClosing I I.didnt_stop stop.2
      | .error e => .ret (.error e)
  | .error e => (resume (some e)).next.handle fun
      | .ok none => .ret (.ok none)
      | .ok (some stop) => raiseClosing I I.didnt_stop_after_athrow stop.2
      | .error e' => .ret (.error e')

/-- `async with asynccontextmanager(g)() as y: body y`. -/
def withBlock (I : Interpreter ε) (g : Gen Op Ans ε Y) (body : Y → Prog Op Ans ε α) :
    Prog Op Ans ε (Option α) :=
  g.next.handle fun
    | .ok (some stop) => (body stop.1).handle (aexit I stop.2)
    | .ok none => .ret (.error I.didnt_yield)
    | .error e => .ret (.error e)

/-- What is thrown in for an outcome of the body. -/
def thrown : Except ε α → Option ε
  | .ok _ => none
  | .error e => some e

/-- A generator that does not yield again runs to its end, whatever is thrown in. -/
theorem aexit_state {σ : Type} (exec : (op : Op) → σ → Except ε (Ans op) × σ) (I : Interpreter ε)
    (rest : Option ε → Prog Op Ans ε Unit) (r : Except ε α) (s : σ) :
    ((aexit I (fun e => (ofProg (rest e) ending : Gen Op Ans ε Y)) r).eval exec s).2
      = ((rest (thrown r)).eval exec s).2 := by
  -- whatever the generator's end is, nothing runs after it
  cases r with
  | ok a =>
      show (((ofProg (rest none) ending).next.handle _).eval exec s).2 = _
      rw [next_ofProg_ending, Prog.eval_handle, Prog.eval_map]
      cases hend : ((rest none).eval exec s).1 with
      | ok _ => rfl
      | error _ => rfl
  | error e =>
      show (((ofProg (rest (some e)) ending).next.handle _).eval exec s).2 = _
      rw [next_ofProg_ending, Prog.eval_handle, Prog.eval_map]
      cases hend : ((rest (some e)).eval exec s).1 with
      | ok _ => rfl
      | error _ => rfl

/-! ## §3. What a wrapper does to a with-block. -/

section Wrapped

variable {σ : Type} (exec : (op : Op) → σ → Except ε (Ans op) × σ) (I : Interpreter ε)
  {g : Gen Op Ans ε Y} {body : Y → Prog Op Ans ε α} {y : Y}
  {resume : Option ε → Gen Op Ans ε Y} {s s₁ s₂ : σ}

/-- A with-block whose generator gets to a `yield`. -/
theorem eval_withBlock (hnext : g.next.eval exec s = (.ok (some (y, resume)), s₁)) :
    (withBlock I g body).eval exec s = ((body y).handle (aexit I resume)).eval exec s₁ := by
  unfold withBlock
  rw [Prog.eval_handle, hnext]

/-- **The body has raised**: the exception goes on, and the state is as the body
has left it. -/
theorem withBlock_forYield_error (hnext : g.next.eval exec s = (.ok (some (y, resume)), s₁))
    {e : ε} (hbody : (body y).eval exec s₁ = (.error e, s₂)) :
    (withBlock I g.forYield body).eval exec s = (.error e, s₂) := by
  have hwrapped : g.forYield.next.eval exec s = (.ok (wrapped (some (y, resume))), s₁) := by
    rw [next_forYield, Prog.eval_map, hnext]
    rfl
  rw [eval_withBlock exec I hwrapped, Prog.eval_handle, hbody]
  rfl

/-- **The body has returned**: the generator is resumed as without the wrapper. -/
theorem withBlock_forYield_ok (hnext : g.next.eval exec s = (.ok (some (y, resume)), s₁))
    {a : α} (hbody : (body y).eval exec s₁ = (.ok a, s₂)) {r : Except ε Unit} {s₃ : σ}
    (hrest : (resume none).next.eval exec s₂ = (r.map fun _ => none, s₃)) :
    (withBlock I g.forYield body).eval exec s = (r.map fun _ => some a, s₃)
      ∧ (withBlock I g body).eval exec s = (r.map fun _ => some a, s₃) := by
  have hwrapped : g.forYield.next.eval exec s = (.ok (wrapped (some (y, resume))), s₁) := by
    rw [next_forYield, Prog.eval_map, hnext]
    rfl
  -- the wrapped generator goes on as the inner one does
  have hrest' : (resume none).forYield.next.eval exec s₂ = (r.map fun _ => none, s₃) := by
    rw [next_forYield, Prog.eval_map, hrest]
    cases r with
    | ok _ => rfl
    | error _ => rfl
  constructor
  · -- over the wrapped generator, and over the generator itself
    rw [eval_withBlock exec I hwrapped, Prog.eval_handle, hbody]
    show ((resume none).forYield.next.handle _).eval exec s₂ = _
    rw [Prog.eval_handle, hrest']
    cases r with
    | ok _ => rfl
    | error _ => rfl
  · rw [eval_withBlock exec I hnext, Prog.eval_handle, hbody]
    show ((resume none).next.handle _).eval exec s₂ = _
    rw [Prog.eval_handle, hrest]
    cases r with
    | ok _ => rfl
    | error _ => rfl

end Wrapped

end Gen

end Nimbus.Lib
