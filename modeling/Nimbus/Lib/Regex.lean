/-
  Nimbus.Lib.Regex
  ────────────────
  **REGULAR EXPRESSIONS WITH GROUPS, MATCHED BY BACKTRACKING.**

  A pattern is tried at the beginning of a text; its repetitions and options are
  greedy and give back what they took when the rest does not match.  `ways` lists
  everything that can be matched in the order in which it is tried, so that the
  match is the first of them.

    • `Re`, `Re.ways`, `Re.find`
    • `flatMap_spans`       — where the rest cannot begin with the class, a
                              repetition of it gives nothing back;
    • `head?_flatMap_spans` — where the rest always matches, it takes all it can.
-/
import Mathlib.Data.List.TakeWhile
import Mathlib.Tactic.Basic

namespace Nimbus.Lib

/-- A pattern. -/
inductive Re where
  /-- This very text. -/
  | lit (text : List Char)
  /-- `[…]+`, a class being given by its characters. -/
  | plus (p : Char → Bool)
  | seq (r s : Re)
  /-- `r?` -/
  | opt (r : Re)
  /-- `(?P<name>r)` -/
  | group (name : String) (r : Re)

namespace Re

/-- The texts of the groups that took part in a match. -/
abbrev Groups := List (String × List Char)

/-! ## §1. Matching. -/

/-- The rest of a text after a literal. -/
def afterLit : List Char → List Char → Option (List Char)
  | [], x => some x
  | _ :: _, [] => none
  | c :: cs, d :: x => if c = d then afterLit cs x else none

/-- What a repetition of a class can take, and what is left: the longest first. -/
def spans (p : Char → Bool) : List Char → List (List Char × List Char)
  | [] => []
  | c :: x =>
      if p c then (spans p x).map (fun wy => (c :: wy.1, wy.2)) ++ [([c], x)] else []

/-- Every way to match at the beginning of a text, in the order of trying: the
groups, and what is left of the text. -/
def ways : Re → List Char → List (Groups × List Char)
  | .lit text, x => (afterLit text x).toList.map fun y => ([], y)
  | .plus p, x => (spans p x).map fun wy => ([], wy.2)
  | .seq r s, x => (ways r x).flatMap fun gy => (ways s gy.2).map fun hz => (gy.1 ++ hz.1, hz.2)
  | .opt r, x => ways r x ++ [([], x)]
  | .group name r, x =>
      (ways r x).map fun gy => ((name, x.take (x.length - gy.2.length)) :: gy.1, gy.2)

/-- `re.match`: the groups of the first way. -/
def find (r : Re) (x : List Char) : Option Groups := ((r.ways x).head?).map Prod.fst

/-- `match.group(name)`. -/
def groupOf (groups : Groups) (name : String) : Option (List Char) :=
  (groups.find? fun g => g.1 = name).map Prod.snd

/-! ## §2. Literals. -/

theorem afterLit_append (text x : List Char) : afterLit text (text ++ x) = some x := by
  induction text with
  | nil => rfl
  | cons c cs ih =>
      rw [List.cons_append]
      unfold afterLit
      rw [if_pos rfl]
      exact ih

theorem eq_append_of_afterLit : ∀ {text x y : List Char}, afterLit text x = some y →
    x = text ++ y := by
  intro text
  induction text with
  | nil =>
      intro x y h
      exact Option.some.inj h
  | cons c cs ih =>
      intro x y h
      cases x with
      | nil => cases h
      | cons d x =>
          unfold afterLit at h
          split at h
          next hcd =>
            rw [hcd, List.cons_append, ih h]
          next => cases h

theorem afterLit_of_ne {c d : Char} {cs x : List Char} (h : c ≠ d) :
    afterLit (c :: cs) (d :: x) = none := if_neg h

theorem ways_lit (text x : List Char) : (Re.lit text).ways (text ++ x) = [([], x)] := by
  show (afterLit text (text ++ x)).toList.map _ = _
  rw [afterLit_append]
  rfl

theorem ways_lit_none {text x : List Char} (h : afterLit text x = none) :
    (Re.lit text).ways x = [] := by
  show (afterLit text x).toList.map _ = _
  rw [h]
  rfl

/-! ## §3. Repetitions. -/

section Spans

variable {p : Char → Bool} {α : Type}

/-- Nothing can be taken. -/
theorem spans_of_takeWhile_nil {x : List Char} (h : x.takeWhile p = []) : spans p x = [] := by
  cases x with
  | nil => rfl
  | cons c x =>
      unfold spans
      by_cases hc : p c = true
      · rw [List.takeWhile_cons_of_pos hc] at h
        cases h
      · rw [if_neg hc]

theorem spans_cons {c : Char} {x : List Char} (hc : p c = true) :
    spans p (c :: x) = (spans p x).map (fun wy => (c :: wy.1, wy.2)) ++ [([c], x)] := if_pos hc

theorem dropWhile_of_takeWhile_nil {x : List Char} (h : x.takeWhile p = []) :
    x.dropWhile p = x := by
  have happ := List.takeWhile_append_dropWhile (p := p) (l := x)
  rw [h] at happ
  exact happ

/-- The class stops after its first character. -/
theorem flatMap_spans_single {c : Char} {x : List Char} {f : List Char × List Char → List α}
    (hc : p c = true) (hx : x.takeWhile p = []) :
    (spans p (c :: x)).flatMap f = f (c :: x.takeWhile p, x.dropWhile p) := by
  rw [spans_cons hc, spans_of_takeWhile_nil hx, hx, dropWhile_of_takeWhile_nil hx]
  exact List.append_nil _

/-- The class goes on: longer spans come first, and its first character alone is
tried last. -/
theorem flatMap_spans_cons {c : Char} {x : List Char} {f : List Char × List Char → List α}
    (hc : p c = true) : (spans p (c :: x)).flatMap f
      = (spans p x).flatMap (fun wy => f (c :: wy.1, wy.2)) ++ f ([c], x) := by
  rw [spans_cons hc, List.flatMap_append, List.flatMap_map]
  congr 1
  exact List.append_nil _

theorem head_of_takeWhile_ne_nil {c : Char} {x : List Char} (h : (c :: x).takeWhile p ≠ []) :
    p c = true := by
  by_cases hc : p c = true
  · exact hc
  · rw [List.takeWhile_cons_of_neg hc] at h
    exact absurd rfl h

/-- **A repetition gives nothing back** to a rest that cannot begin with a
character of its class. -/
theorem flatMap_spans : ∀ {x : List Char} {f : List Char × List Char → List α},
    (∀ w c y, p c = true → f (w, c :: y) = []) → x.takeWhile p ≠ [] →
    (spans p x).flatMap f = f (x.takeWhile p, x.dropWhile p) := by
  intro x
  induction x with
  | nil =>
      intro f _ hne
      exact absurd rfl hne
  | cons c x ih =>
      intro f hf hne
      have hc : p c = true := head_of_takeWhile_ne_nil hne
      rw [List.takeWhile_cons_of_pos hc, List.dropWhile_cons_of_pos hc]
      by_cases hx : x.takeWhile p = []
      · exact flatMap_spans_single hc hx
      · -- the class goes on, so that nothing matches after `c` alone
        have hstop : f ([c], x) = [] := by
          cases x with
          | nil => exact absurd rfl hx
          | cons d x => exact hf [c] d x (head_of_takeWhile_ne_nil hx)
        rw [flatMap_spans_cons hc, hstop, List.append_nil]
        exact ih (f := fun wy => f (c :: wy.1, wy.2)) (fun w d y hd => hf (c :: w) d y hd) hx

/-- **A repetition takes all it can** where the rest matches in any case. -/
theorem head?_flatMap_spans : ∀ {x : List Char} {f : List Char × List Char → List α},
    (∀ wy, f wy ≠ []) → x.takeWhile p ≠ [] →
    ((spans p x).flatMap f).head? = (f (x.takeWhile p, x.dropWhile p)).head? := by
  intro x
  induction x with
  | nil =>
      intro f _ hne
      exact absurd rfl hne
  | cons c x ih =>
      intro f hf hne
      have hc : p c = true := head_of_takeWhile_ne_nil hne
      rw [List.takeWhile_cons_of_pos hc, List.dropWhile_cons_of_pos hc]
      by_cases hx : x.takeWhile p = []
      · exact congrArg List.head? (flatMap_spans_single hc hx)
      · rw [flatMap_spans_cons hc, List.head?_append,
          ih (f := fun wy => f (c :: wy.1, wy.2)) (fun wy => hf _) hx]
        -- what comes after has a first way
        obtain ⟨a, ha⟩ := Option.isSome_iff_exists.mp
          (List.isSome_head?.mpr (hf (c :: x.takeWhile p, x.dropWhile p)))
        rw [ha]
        rfl

end Spans

/-! ## §4. A piece of a pattern, and the rest of it. -/

section Then

variable {k r s : Re} {p : Char → Bool} {name : String}

/-- Put a group before the groups of a way. -/
def named (name : String) (w : List Char) (gy : Groups × List Char) : Groups × List Char :=
  ((name, w) :: gy.1, gy.2)

theorem ways_assoc (x : List Char) :
    (Re.seq (.seq r s) k).ways x = (Re.seq r (.seq s k)).ways x := by
  simp only [ways, List.flatMap_assoc, List.flatMap_map, List.map_flatMap, List.map_map,
    Function.comp_def, List.append_assoc]

theorem ways_lit_then (text x : List Char) :
    (Re.seq (.lit text) k).ways (text ++ x) = k.ways x := by
  show ((Re.lit text).ways (text ++ x)).flatMap _ = _
  rw [ways_lit]
  show (k.ways x).map _ ++ [] = _
  rw [List.append_nil]
  exact List.map_id _

theorem ways_lit_then_none {text x : List Char} (h : afterLit text x = none) :
    (Re.seq (.lit text) k).ways x = [] := by
  show ((Re.lit text).ways x).flatMap _ = _
  rw [ways_lit_none h]
  rfl

/-- An option is tried first, and then left out. -/
theorem ways_opt_then (x : List Char) :
    (Re.seq (.opt r) k).ways x = (Re.seq r k).ways x ++ k.ways x := by
  show (r.ways x ++ [([], x)]).flatMap _ = _
  rw [List.flatMap_append]
  congr 1
  show (k.ways x).map _ ++ [] = _
  rw [List.append_nil]
  exact List.map_id _

theorem ways_group_lit_then (text x : List Char) :
    (Re.seq (.group name (.lit text)) k).ways (text ++ x)
      = (k.ways x).map (named name text) := by
  show (((Re.lit text).ways (text ++ x)).map _).flatMap _ = _
  rw [ways_lit]
  show (k.ways x).map _ ++ [] = _
  rw [List.append_nil]
  simp only [List.length_append, Nat.add_sub_cancel, List.take_left']
  rfl

theorem ways_group_lit_then_none {text x : List Char} (h : afterLit text x = none) :
    (Re.seq (.group name (.lit text)) k).ways x = [] := by
  show (((Re.lit text).ways x).map _).flatMap _ = _
  rw [ways_lit_none h]
  rfl

theorem ways_class (x : List Char) : (Re.seq (.group name (.plus p)) k).ways x
    = (spans p x).flatMap fun wy =>
        (k.ways wy.2).map (named name (x.take (x.length - wy.2.length))) := by
  simp only [ways, List.map_map, List.flatMap_map]
  rfl

/-- What a repetition takes: the characters of the class, up to the first other one. -/
structure Takes (p : Char → Bool) (w y : List Char) : Prop where
  ne : w ≠ []
  all : ∀ c ∈ w, p c = true
  stop : ∀ c ∈ y.head?, p c = false

theorem Takes.takeWhile {w y : List Char} (h : Takes p w y) : (w ++ y).takeWhile p = w := by
  rw [List.takeWhile_append_of_pos h.all]
  cases y with
  | nil => exact List.append_nil w
  | cons d y =>
      have hd : ¬ p d = true := by simp [h.stop d rfl]
      rw [List.takeWhile_cons_of_neg hd, List.append_nil]

theorem Takes.dropWhile {w y : List Char} (h : Takes p w y) : (w ++ y).dropWhile p = y := by
  rw [List.dropWhile_append_of_pos h.all]
  cases y with
  | nil => rfl
  | cons d y =>
      have hd : ¬ p d = true := by simp [h.stop d rfl]
      exact List.dropWhile_cons_of_neg hd

/-- What is left does not begin with the class. -/
theorem stop_dropWhile (p : Char → Bool) (x : List Char) :
    ∀ c ∈ (x.dropWhile p).head?, p c = false := by
  intro c hc
  have hhead := List.head?_dropWhile_not p x
  rw [show (x.dropWhile p).head? = some c from hc] at hhead
  exact hhead

/-- Every text that begins with the class is taken so. -/
theorem takes_of_takeWhile {x : List Char} (h : x.takeWhile p ≠ []) :
    Takes p (x.takeWhile p) (x.dropWhile p) :=
  ⟨h, fun _ hc => List.mem_takeWhile_imp hc, stop_dropWhile p x⟩

/-- A group that a rest which cannot begin with the class comes after. -/
theorem ways_class_then {w y : List Char} (h : Takes p w y)
    (hk : ∀ c z, p c = true → k.ways (c :: z) = []) :
    (Re.seq (.group name (.plus p)) k).ways (w ++ y) = (k.ways y).map (named name w) := by
  rw [ways_class, flatMap_spans (fun _ c z hc => by rw [hk c z hc]; rfl) (by rw [h.takeWhile]; exact h.ne),
    h.takeWhile, h.dropWhile]
  simp

/-- A group that a rest which always matches comes after. -/
theorem head?_ways_class_then {w y : List Char} (h : Takes p w y) (hk : ∀ z, k.ways z ≠ []) :
    ((Re.seq (.group name (.plus p)) k).ways (w ++ y)).head?
      = ((k.ways y).head?).map (named name w) := by
  rw [ways_class, head?_flatMap_spans (fun _ hc => hk _ (List.map_eq_nil_iff.mp hc))
    (by rw [h.takeWhile]; exact h.ne), h.takeWhile, h.dropWhile]
  simp

/-- A group at the end of a pattern. -/
theorem head?_ways_class {w y : List Char} (h : Takes p w y) :
    ((Re.group name (.plus p)).ways (w ++ y)).head? = some ([(name, w)], y) := by
  have hways : (Re.group name (.plus p)).ways (w ++ y) = (spans p (w ++ y)).flatMap fun wy =>
      [([(name, (w ++ y).take ((w ++ y).length - wy.2.length))], wy.2)] := by
    simp only [ways, List.map_map]
    rw [List.map_eq_flatMap]
    rfl
  rw [hways, head?_flatMap_spans (fun _ => List.cons_ne_nil _ _)
    (by rw [h.takeWhile]; exact h.ne), h.takeWhile, h.dropWhile]
  simp

theorem ways_class_none {x : List Char} (h : x.takeWhile p = []) :
    (Re.seq (.group name (.plus p)) k).ways x = [] := by
  rw [ways_class, spans_of_takeWhile_nil h]
  rfl

end Then

end Re

end Nimbus.Lib
