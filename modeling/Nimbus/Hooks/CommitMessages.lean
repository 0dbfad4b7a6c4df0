/-
  Nimbus.Hooks.CommitMessages
  ───────────────────────────
  **THE COMMIT-MESSAGE HOOK AND ITS DOCUMENTED GRAMMAR.**

  The hook drops comment lines, lets merges and the like pass, and checks the rest
  with `CONVENTIONAL_RE` and a few rules of its own.  The documented format has an
  optional `!` before the colon; the expression has a mandatory one.

    • `conventionalRe`, `checkSubject`, `main` — the hook;
    • `Header`, `Conforms`  — the grammar of docs/COMMIT_MESSAGES.md;
    • `find_text`           — what the expression finds in a first line;
    • `main_iff`            — **the hook accepts the grammar exactly for messages
                              that it does not also accept without a `!`.**
-/
import Nimbus.Lib.Regex
import Nimbus.Lib.Substring
import Nimbus.Core.Uuid
import Mathlib.Data.List.Sort

namespace Nimbus.CommitMessages

open Lib Lib.Re

/-! ## §1. The message. -/

/-- What Python knows of the case of letters: `c.isupper()` and `c.upper()`. -/
structure Casing where
  isUpper : Char → Bool
  upper : Char → List Char

/-- The ends of lines of `str.splitlines`. -/
def isLineEnd (c : Char) : Bool :=
  [10, 11, 12, 13, 28, 29, 30, 133, 8232, 8233].contains c.toNat

/-- `text.splitlines()`, where `line` has been read of the line, backwards. -/
def splitlines (line : List Char) : List Char → List (List Char)
  | [] => if line = [] then [] else [line.reverse]
  | '\r' :: '\n' :: cs => line.reverse :: splitlines [] cs
  | c :: cs => if isLineEnd c then line.reverse :: splitlines [] cs else splitlines (c :: line) cs

/-- The message without its comment lines. -/
def cleaned (raw : List Char) : List Char :=
  let lines := (splitlines [] raw).filter fun line =>
    (line.dropWhile Uuid.isSpace).head? ≠ some '#'
  Uuid.strip Uuid.isSpace (List.intercalate ['\n'] lines)

/-- Messages that pass through unchanged. -/
def passesThrough (message : List Char) : Bool :=
  ["Merge ", "Revert ", "fixup!", "squash!"].any fun start => start.toList.isPrefixOf message

/-! ## §2. The options. -/

/-- The words of a comma-separated list. -/
def words (arg : String) : List (List Char) :=
  ((arg.toList.splitOn ',').map (Uuid.strip Uuid.isSpace)).filter (· ≠ [])

/-- `[a-z]` -/
def isLower (c : Char) : Bool := 'a' ≤ c && c ≤ 'z'

/-- `[a-z0-9_-]` -/
def isScope (c : Char) : Bool := isLower c || ('0' ≤ c && c ≤ '9') || c = '_' || c = '-'

/-- `--types` and `--scopes`: lists of words such as those of the documentation,
lower-case words and lower-case names. -/
structure Options where
  types : String
  scopes : String
  types_lower : ∀ t ∈ words types, ∀ c ∈ t, isLower c = true
  scopes_lower : ∀ s ∈ words scopes, ∀ c ∈ s, isScope c = true

/-- `DEFAULT_TYPES`. -/
def defaultTypes : List String :=
  ["feat", "fix", "perf", "refactor", "test", "docs", "build", "ci", "chore", "revert", "style"]

/-- `DEFAULT_SCOPES`. -/
def defaultScopes : List String :=
  ["orders", "inventory", "payments", "notifications", "admin", "gateway", "core", "deps",
    "precommit", "docker", "ci", "api", "models", "readme", "env"]

/-- The hook's own options. -/
def Options.default : Options where
  types := String.intercalate "," (defaultTypes.insertionSort (· ≤ ·))
  scopes := String.intercalate "," (defaultScopes.insertionSort (· ≤ ·))
  types_lower := by
    have h : ((words (String.intercalate "," (defaultTypes.insertionSort (· ≤ ·)))).all
        fun t => t.all isLower) = true := by decide +kernel
    simpa using h
  scopes_lower := by
    have h : ((words (String.intercalate "," (defaultScopes.insertionSort (· ≤ ·)))).all
        fun s => s.all isScope) = true := by decide +kernel
    simpa using h

/-! ## §3. The hook. -/

/-- `[^\n]` -/
def notNewline (c : Char) : Bool := c ≠ '\n'

/-- `CONVENTIONAL_RE`: its `!` has no `?` after it. -/
def conventionalRe : Re :=
  .seq (.group "type" (.plus isLower))
  (.seq (.opt (.seq (.lit ['(']) (.seq (.group "scope" (.plus isScope)) (.lit [')']))))
  (.seq (.group "breaking" (.lit ['!']))
  (.seq (.lit [':', ' '])
  (.seq (.group "subject" (.plus notNewline))
  (.opt (.seq (.lit ['\n', '\n']) (.group "body" (.plus fun _ => true))))))))

/-- What the hook complains about, with the values that it shows. -/
inductive Problem where
  | format
  | typeNotAllowed (type : List Char)
  | scopeNotAllowed (scope : List Char)
  | subjectEmpty
  | subjectUpper (first : Char)
  | subjectPeriod
  | subjectTooLong (length : Nat)
  | breakingWithoutSection
deriving DecidableEq

/-- `_check_subject`. -/
def checkSubject (casing : Casing) (text : List Char) : List Problem :=
  match text with
  | [] => [.subjectEmpty]
  | c :: _ =>
      (if casing.isUpper c then [.subjectUpper c] else [])
      ++ (if text.getLast? = some '.' then [.subjectPeriod] else [])
      ++ (if 72 < text.length then [.subjectTooLong text.length] else [])

/-- `"BREAKING CHANGE" in body.upper()`. -/
def announces (casing : Casing) (body : List Char) : Bool :=
  occurs "BREAKING CHANGE".toList (body.flatMap casing.upper)

/-- The errors that `main` collects. -/
def problems (casing : Casing) (options : Options) (message : List Char) : List Problem :=
  match conventionalRe.find message with
  | none => [.format]
  | some groups =>
      let commit_type := (groupOf groups "type").getD []
      let commit_scope := groupOf groups "scope"
      let commit_breaking := (groupOf groups "breaking").getD [] ≠ []
      let commit_subject := (groupOf groups "subject").getD []
      let commit_body := (groupOf groups "body").getD []
      (if commit_type ∈ words options.types then [] else [.typeNotAllowed commit_type])
      ++ (match commit_scope with
        | none => []
        | some scope => if scope ∈ words options.scopes then [] else [.scopeNotAllowed scope])
      ++ checkSubject casing commit_subject
      ++ (if commit_breaking ∧ announces casing commit_body = false then [.breakingWithoutSection]
        else [])

/-- `main`, of the text of the message file, if there is one: the exit code. -/
def main (casing : Casing) (options : Options) (file : Option (List Char)) : Nat :=
  match file with
  | none => 1
  | some raw =>
      if cleaned raw = [] then 1
      else if passesThrough (cleaned raw) then 0
      else if problems casing options (cleaned raw) = [] then 0 else 1

/-! ## §4. The grammar. -/

/-- The parts of a first line. -/
structure Header where
  type : List Char
  scope : Option (List Char)
  breaking : Bool
  subject : List Char

namespace Header

/-- `(<scope>)`, or nothing. -/
def scopeText (h : Header) : List Char :=
  match h.scope with
  | none => []
  | some scope => '(' :: scope ++ [')']

/-- `<type>(<scope>)<!>: <subject>` -/
def text (h : Header) : List Char :=
  h.type ++ (h.scopeText ++ ((if h.breaking then ['!'] else []) ++ (':' :: ' ' :: h.subject)))

end Header

/-- The first line of a message. -/
def firstLine (message : List Char) : List Char := message.takeWhile notNewline

/-- The text after a blank line. -/
def afterBlank : List Char → List Char
  | '\n' :: '\n' :: rest => rest
  | _ => []

/-- What comes after a blank line that follows the first line. -/
def body (message : List Char) : List Char := afterBlank (message.dropWhile notNewline)

/-- The rules for a first line, and for the body where the line has a `!`. -/
structure Rules (casing : Casing) (options : Options) (h : Header) (body : List Char) : Prop where
  type : h.type ∈ words options.types
  scope : ∀ scope, h.scope = some scope → scope ∈ words options.scopes
  nonempty : h.subject ≠ []
  lowercase : ∀ c, h.subject.head? = some c → casing.isUpper c = false
  period : h.subject.getLast? ≠ some '.'
  length : h.subject.length ≤ 72
  section_ : h.breaking = true → announces casing body = true

/-- **The documented grammar**: the first line has the format, and keeps the rules. -/
def Conforms (casing : Casing) (options : Options) (message : List Char) : Prop :=
  ∃ h : Header, h.text = firstLine message ∧ Rules casing options h (body message)

/-- The message conforms with a first line that has no `!`. -/
def ConformsPlainly (casing : Casing) (options : Options) (message : List Char) : Prop :=
  ∃ h : Header, h.text = firstLine message ∧ Rules casing options h (body message)
    ∧ h.breaking = false

/-! ## §5. What the expression finds. -/

/-- The expression from the body on, from the `!` on, and after the type. -/
def bodyRe : Re := .opt (.seq (.lit ['\n', '\n']) (.group "body" (.plus fun _ => true)))

def subjectRe : Re := .seq (.group "subject" (.plus notNewline)) bodyRe

def breakingRe : Re := .seq (.group "breaking" (.lit ['!'])) (.seq (.lit [':', ' ']) subjectRe)

def scopeRe : Re := .seq (.lit ['(']) (.seq (.group "scope" (.plus isScope)) (.lit [')']))

theorem conventionalRe_eq : conventionalRe
    = .seq (.group "type" (.plus isLower)) (.seq (.opt scopeRe) breakingRe) := rfl

/-- Type and scope are words of their classes, and the subject is one line. -/
structure Tokens (h : Header) : Prop where
  type_ne : h.type ≠ []
  type : ∀ c ∈ h.type, isLower c = true
  scope_ne : ∀ scope, h.scope = some scope → scope ≠ []
  scope : ∀ scope, h.scope = some scope → ∀ c ∈ scope, isScope c = true
  subject_ne : h.subject ≠ []
  subject : ∀ c ∈ h.subject, notNewline c = true

/-- The text ends, or the line does. -/
def LineEnds (tail : List Char) : Prop := ∀ c ∈ tail.head?, notNewline c = false

/-- The groups that a header with a `!` leaves. -/
def Header.groups (h : Header) (tail : List Char) : Groups :=
  ("type", h.type) :: ((h.scope.toList.map fun scope => ("scope", scope))
    ++ ("breaking", ['!']) :: ("subject", h.subject)
      :: if afterBlank tail = [] then [] else [("body", afterBlank tail)])

theorem isLower_ne {c d : Char} (h : isLower c = true) (hd : isLower d = false) : c ≠ d := by
  rintro rfl
  rw [hd] at h
  cases h

theorem isScope_ne {c d : Char} (h : isScope c = true) (hd : isScope d = false) : c ≠ d := by
  rintro rfl
  rw [hd] at h
  cases h

/-- An expression that begins with another character than the text. -/
theorem scopeRe_then_none {c : Char} {z : List Char} {k : Re} (h : c ≠ '(') :
    (Re.seq scopeRe k).ways (c :: z) = [] := by
  unfold scopeRe
  rw [ways_assoc]
  exact ways_lit_then_none (afterLit_of_ne (Ne.symm h))

theorem breakingRe_none {c : Char} {z : List Char} (h : c ≠ '!') : breakingRe.ways (c :: z) = [] :=
  ways_group_lit_then_none (afterLit_of_ne (Ne.symm h))

theorem bodyRe_ne (z : List Char) : bodyRe.ways z ≠ [] :=
  List.append_ne_nil_of_right_ne_nil _ (List.cons_ne_nil _ _)

/-- **The body** is everything after a blank line. -/
theorem find_body (tail : List Char) : ∃ rest, (bodyRe.ways tail).head?
    = some ((if afterBlank tail = [] then [] else [("body", afterBlank tail)]), rest) := by
  unfold bodyRe
  have hopt : ∀ r : Re, (Re.opt r).ways tail = r.ways tail ++ [([], tail)] := fun _ => rfl
  rw [hopt]
  by_cases hb : afterBlank tail = []
  · -- no blank line, or nothing after it
    refine ⟨tail, ?_⟩
    rw [if_pos hb]
    have hnone : (Re.seq (.lit ['\n', '\n']) (.group "body" (.plus fun _ => true))).ways tail
        = [] := by
      cases hlit : afterLit ['\n', '\n'] tail with
      | none => exact ways_lit_then_none hlit
      | some rest =>
          obtain rfl := eq_append_of_afterLit hlit
          rw [ways_lit_then]
          obtain rfl : rest = [] := hb
          rfl
    rw [hnone]
    rfl
  · rw [if_neg hb]
    obtain ⟨rest, rfl⟩ : ∃ rest, tail = ['\n', '\n'] ++ rest := by
      unfold afterBlank at hb
      split at hb
      next rest => exact ⟨rest, rfl⟩
      next => exact absurd rfl hb
    refine ⟨[], ?_⟩
    rw [ways_lit_then]
    have htakes : Takes (fun _ => true) rest [] := ⟨hb, fun _ _ => rfl, fun _ hc => nomatch hc⟩
    have hhead : ((Re.group "body" (.plus fun _ => true)).ways (rest ++ [])).head?
        = some ([("body", rest)], []) := head?_ways_class htakes
    rw [List.append_nil] at hhead
    rw [List.head?_append, hhead]
    rfl

/-- From the `!` on. -/
theorem find_breaking {subject tail : List Char} (hne : subject ≠ [])
    (hall : ∀ c ∈ subject, notNewline c = true) (htail : LineEnds tail) :
    ∃ rest, (breakingRe.ways ('!' :: ':' :: ' ' :: (subject ++ tail))).head?
      = some (("breaking", ['!']) :: ("subject", subject)
          :: (if afterBlank tail = [] then [] else [("body", afterBlank tail)]), rest) := by
  obtain ⟨rest, hbody⟩ := find_body tail
  -- the subject takes the line, and the body is tried on the rest
  have hsubject : (subjectRe.ways (subject ++ tail)).head?
      = ((bodyRe.ways tail).head?).map (named "subject" subject) :=
    head?_ways_class_then ⟨hne, hall, htail⟩ bodyRe_ne
  -- before it the literals, which match in one way
  have hcolon : (Re.seq (.lit [':', ' ']) subjectRe).ways ([':', ' '] ++ (subject ++ tail))
      = subjectRe.ways (subject ++ tail) := ways_lit_then _ _
  have hbang : breakingRe.ways (['!'] ++ (':' :: ' ' :: (subject ++ tail)))
      = ((Re.seq (.lit [':', ' ']) subjectRe).ways (':' :: ' ' :: (subject ++ tail))).map
          (named "breaking" ['!']) := ways_group_lit_then _ _
  refine ⟨rest, ?_⟩
  show (breakingRe.ways (['!'] ++ (':' :: ' ' :: (subject ++ tail)))).head? = _
  rw [hbang, List.head?_map]
  show Option.map _ ((Re.seq (.lit [':', ' ']) subjectRe).ways ([':', ' '] ++ (subject ++ tail))).head?
    = _
  rw [hcolon, hsubject, hbody]
  rfl

/-- From the scope on, where a `!` or a colon comes after it. -/
theorem ways_scope {h : Header} (ht : Tokens h) {c : Char} {z : List Char} (hc : c ≠ '(') :
    (Re.seq (.opt scopeRe) breakingRe).ways (h.scopeText ++ c :: z)
      = (breakingRe.ways (c :: z)).map fun gy =>
          ((h.scope.toList.map fun scope => ("scope", scope)) ++ gy.1, gy.2) := by
  rw [ways_opt_then]
  unfold Header.scopeText
  cases hs : h.scope with
  | none =>
      show (Re.seq scopeRe breakingRe).ways (c :: z) ++ _ = _
      rw [scopeRe_then_none hc]
      exact (List.map_id _).symm
  | some scope =>
      -- a scope ends at its closing parenthesis
      have hstop : Takes isScope scope (')' :: c :: z) :=
        ⟨ht.scope_ne scope hs, ht.scope scope hs, fun d hd => by
          obtain rfl := Option.some.inj hd
          rfl⟩
      have hparen : ∀ d y, isScope d = true → (Re.seq (.lit [')']) breakingRe).ways (d :: y) = [] :=
        fun d y hd => ways_lit_then_none (afterLit_of_ne (isScope_ne hd rfl).symm)
      -- the parentheses match in one way; without the scope the `(` does not match
      have htext : ('(' :: scope ++ [')']) ++ c :: z = ['('] ++ (scope ++ ')' :: c :: z) := by simp
      have hafter : (Re.seq (.lit [')']) breakingRe).ways ([')'] ++ c :: z)
          = breakingRe.ways (c :: z) := ways_lit_then _ _
      show (Re.seq scopeRe breakingRe).ways (('(' :: scope ++ [')']) ++ c :: z)
        ++ breakingRe.ways ('(' :: _) = _
      rw [breakingRe_none (by decide), List.append_nil, htext]
      unfold scopeRe
      rw [ways_assoc, ways_lit_then, ways_assoc, ways_class_then hstop hparen]
      show ((Re.seq (.lit [')']) breakingRe).ways ([')'] ++ c :: z)).map _ = _
      rw [hafter]
      rfl

/-- What comes after the type begins with no letter of it. -/
theorem ways_afterType_none {c : Char} {z : List Char} (hc : isLower c = true) :
    (Re.seq (.opt scopeRe) breakingRe).ways (c :: z) = [] := by
  rw [ways_opt_then, scopeRe_then_none (isLower_ne hc rfl), breakingRe_none (isLower_ne hc rfl)]
  rfl

/-- **What the expression finds in a first line**: the parts of a header that has
a `!`, and nothing in one that has none. -/
theorem find_text {h : Header} (ht : Tokens h) {tail : List Char} (htail : LineEnds tail) :
    conventionalRe.find (h.text ++ tail) = if h.breaking then some (h.groups tail) else none := by
  -- the type ends at a parenthesis, at the `!` or at the colon
  have hstop : ∀ {c : Char} {z : List Char}, isLower c = false →
      Takes isLower h.type (h.scopeText ++ c :: z) := fun {c z} hc => by
    refine ⟨ht.type_ne, ht.type, fun d hd => ?_⟩
    unfold Header.scopeText at hd
    cases hs : h.scope with
    | none =>
        rw [hs] at hd
        obtain rfl := Option.some.inj hd
        exact hc
    | some scope =>
        rw [hs] at hd
        obtain rfl := Option.some.inj hd
        rfl
  have hways : ∀ {c : Char} {z : List Char}, isLower c = false → c ≠ '(' →
      conventionalRe.ways (h.type ++ (h.scopeText ++ c :: z))
        = ((breakingRe.ways (c :: z)).map fun gy =>
            ((h.scope.toList.map fun scope => ("scope", scope)) ++ gy.1, gy.2)).map
              (named "type" h.type) := fun {c z} hc hc' => by
    rw [conventionalRe_eq, ways_class_then (hstop hc) (fun _ _ => ways_afterType_none),
      ways_scope ht hc']
  unfold Re.find Header.text
  cases hb : h.breaking with
  | true =>
      obtain ⟨rest, hfind⟩ := find_breaking ht.subject_ne ht.subject htail
      -- with a `!` the rest of the expression finds the subject and the body
      have htext : (h.type ++ (h.scopeText ++ (['!'] ++ (':' :: ' ' :: h.subject)))) ++ tail
          = h.type ++ (h.scopeText ++ '!' :: ':' :: ' ' :: (h.subject ++ tail)) := by simp
      simp only [if_true]
      rw [htext, hways rfl (by decide), List.head?_map, List.head?_map, hfind]
      rfl
  | false =>
      -- without one there is no way on
      have htext : (h.type ++ (h.scopeText ++ ([] ++ (':' :: ' ' :: h.subject)))) ++ tail
          = h.type ++ (h.scopeText ++ ':' :: ' ' :: (h.subject ++ tail)) := by simp
      simp only [Bool.false_eq_true, if_false]
      rw [htext, hways rfl (by decide), breakingRe_none (by decide)]
      rfl

/-! A text in which it finds something has a header with a `!`. -/

theorem breakingRe_some {z : List Char} (h : breakingRe.ways z ≠ []) :
    ∃ subject tail, z = '!' :: ':' :: ' ' :: (subject ++ tail) ∧ subject ≠ []
      ∧ (∀ c ∈ subject, notNewline c = true) ∧ LineEnds tail := by
  cases hbang : afterLit ['!'] z with
  | none => exact absurd (ways_group_lit_then_none hbang) h
  | some z₁ =>
      obtain rfl := eq_append_of_afterLit hbang
      have hbreaking : breakingRe.ways (['!'] ++ z₁)
          = ((Re.seq (.lit [':', ' ']) subjectRe).ways z₁).map (named "breaking" ['!']) :=
        ways_group_lit_then _ _
      rw [hbreaking] at h
      have h₁ : (Re.seq (.lit [':', ' ']) subjectRe).ways z₁ ≠ [] :=
        fun hnil => h (List.map_eq_nil_iff.mpr hnil)
      cases hcolon : afterLit [':', ' '] z₁ with
      | none => exact absurd (ways_lit_then_none hcolon) h₁
      | some z₂ =>
          obtain rfl := eq_append_of_afterLit hcolon
          rw [ways_lit_then] at h₁
          -- the subject has a character at least
          have hne : z₂.takeWhile notNewline ≠ [] := fun hnil => h₁ (ways_class_none hnil)
          obtain ⟨-, hall, hstop⟩ := takes_of_takeWhile hne
          refine ⟨z₂.takeWhile notNewline, z₂.dropWhile notNewline, ?_, hne, hall, hstop⟩
          rw [List.takeWhile_append_dropWhile]
          rfl

theorem scopeRe_some {z : List Char} (h : (Re.seq scopeRe breakingRe).ways z ≠ []) :
    ∃ scope rest, z = '(' :: scope ++ ')' :: rest ∧ scope ≠ []
      ∧ (∀ c ∈ scope, isScope c = true) ∧ breakingRe.ways rest ≠ [] := by
  unfold scopeRe at h
  rw [ways_assoc] at h
  cases hopen : afterLit ['('] z with
  | none => exact absurd (ways_lit_then_none hopen) h
  | some z₁ =>
      obtain rfl := eq_append_of_afterLit hopen
      rw [ways_lit_then, ways_assoc] at h
      -- the scope takes all of its class, and the parenthesis comes next
      have hne : z₁.takeWhile isScope ≠ [] := fun hnil => h (ways_class_none hnil)
      have htakes := takes_of_takeWhile hne
      have hsplit : z₁.takeWhile isScope ++ z₁.dropWhile isScope = z₁ :=
        List.takeWhile_append_dropWhile
      rw [← hsplit, ways_class_then htakes
        (fun d y hd => ways_lit_then_none (afterLit_of_ne (isScope_ne hd rfl).symm))] at h
      have h₁ : (Re.seq (.lit [')']) breakingRe).ways (z₁.dropWhile isScope) ≠ [] :=
        fun hnil => h (List.map_eq_nil_iff.mpr hnil)
      cases hclose : afterLit [')'] (z₁.dropWhile isScope) with
      | none => exact absurd (ways_lit_then_none hclose) h₁
      | some rest =>
          have heq := eq_append_of_afterLit hclose
          rw [heq, ways_lit_then] at h₁
          refine ⟨z₁.takeWhile isScope, rest, ?_, hne, htakes.all, h₁⟩
          rw [heq] at hsplit
          show '(' :: z₁ = '(' :: (z₁.takeWhile isScope ++ ')' :: rest)
          exact congrArg (List.cons '(') hsplit.symm

theorem header_of_find {message : List Char} {groups : Groups}
    (h : conventionalRe.find message = some groups) :
    ∃ header : Header, ∃ tail, Tokens header ∧ header.breaking = true ∧ LineEnds tail
      ∧ message = header.text ++ tail := by
  have hways : conventionalRe.ways message ≠ [] := by
    intro hnil
    unfold Re.find at h
    rw [hnil] at h
    cases h
  rw [conventionalRe_eq] at hways
  have hne : message.takeWhile isLower ≠ [] := fun hnil => hways (ways_class_none hnil)
  have htakes := takes_of_takeWhile hne
  have hsplit : message.takeWhile isLower ++ message.dropWhile isLower = message :=
    List.takeWhile_append_dropWhile
  rw [← hsplit, ways_class_then htakes (fun _ _ => ways_afterType_none)] at hways
  have hafter : (Re.seq (.opt scopeRe) breakingRe).ways (message.dropWhile isLower) ≠ [] :=
    fun hnil => hways (List.map_eq_nil_iff.mpr hnil)
  rw [ways_opt_then] at hafter
  by_cases hscope : (Re.seq scopeRe breakingRe).ways (message.dropWhile isLower) = []
  · -- the scope is left out
    rw [hscope, List.nil_append] at hafter
    obtain ⟨subject, tail, heq, hsne, hall, htail⟩ := breakingRe_some hafter
    refine ⟨⟨message.takeWhile isLower, none, true, subject⟩, tail,
      ⟨hne, htakes.all, fun _ hs => (nomatch hs), fun _ hs => (nomatch hs), hsne, hall⟩, rfl,
      htail, ?_⟩
    rw [heq] at hsplit
    refine hsplit.symm.trans ?_
    simp [Header.text, Header.scopeText]
  · obtain ⟨scope, rest, heq, hscne, hscall, hrest⟩ := scopeRe_some hscope
    obtain ⟨subject, tail, rfl, hsne, hall, htail⟩ := breakingRe_some hrest
    refine ⟨⟨message.takeWhile isLower, some scope, true, subject⟩, tail,
      ⟨hne, htakes.all, fun s hs => ?_, fun s hs => ?_, hsne, hall⟩, rfl, htail, ?_⟩
    · obtain rfl := Option.some.inj hs
      exact hscne
    · obtain rfl := Option.some.inj hs
      exact hscall
    · rw [heq] at hsplit
      refine hsplit.symm.trans ?_
      simp [Header.text, Header.scopeText]

/-! ## §6. Which headers the hook accepts. -/

variable {casing : Casing} {options : Options}

@[simp] theorem groupOf_type (h : Header) (tail : List Char) :
    groupOf (h.groups tail) "type" = some h.type := rfl

@[simp] theorem groupOf_scope (h : Header) (tail : List Char) :
    groupOf (h.groups tail) "scope" = h.scope := by
  unfold Header.groups
  cases h.scope with
  | none => split <;> rfl
  | some scope => rfl

@[simp] theorem groupOf_breaking (h : Header) (tail : List Char) :
    groupOf (h.groups tail) "breaking" = some ['!'] := by
  unfold Header.groups
  cases h.scope with
  | none => rfl
  | some scope => rfl

@[simp] theorem groupOf_subject (h : Header) (tail : List Char) :
    groupOf (h.groups tail) "subject" = some h.subject := by
  unfold Header.groups
  cases h.scope with
  | none => rfl
  | some scope => rfl

/-- `match.group("body") or ""` -/
theorem groupOf_body (h : Header) (tail : List Char) :
    (groupOf (h.groups tail) "body").getD [] = afterBlank tail := by
  unfold Header.groups
  by_cases hb : afterBlank tail = []
  · rw [if_pos hb, hb]
    cases h.scope with
    | none => rfl
    | some scope => rfl
  · rw [if_neg hb]
    cases h.scope with
    | none => rfl
    | some scope => rfl

theorem checkSubject_nil_iff (text : List Char) : checkSubject casing text = []
    ↔ text ≠ [] ∧ (∀ c, text.head? = some c → casing.isUpper c = false)
      ∧ text.getLast? ≠ some '.' ∧ text.length ≤ 72 := by
  cases text with
  | nil => simp [checkSubject]
  | cons c cs => simp [checkSubject]

/-- A complaint unless `p`, and one if `p`. -/
theorem complaint_nil_iff {p : Prop} [Decidable p] {x : Problem} :
    (if p then [] else [x]) = [] ↔ p := by
  by_cases hp : p <;> simp [hp]

theorem objection_nil_iff {p : Prop} [Decidable p] {x : Problem} :
    (if p then [x] else []) = [] ↔ ¬ p := by
  by_cases hp : p <;> simp [hp]

/-- The hook has nothing to complain about in a header with a `!` exactly when it
keeps the rules. -/
theorem problems_nil_iff {h : Header} (ht : Tokens h) (hb : h.breaking = true)
    {tail : List Char} (htail : LineEnds tail) :
    problems casing options (h.text ++ tail) = [] ↔ Rules casing options h (afterBlank tail) := by
  unfold problems
  rw [find_text ht htail, if_pos hb]
  simp only [List.append_eq_nil_iff, complaint_nil_iff, objection_nil_iff, checkSubject_nil_iff]
  simp only [groupOf_type, groupOf_scope, groupOf_breaking, groupOf_subject, groupOf_body,
    Option.getD_some]
  -- a header without a scope has nothing to be checked
  have hscope : (match h.scope with
      | none => []
      | some scope => if scope ∈ words options.scopes then [] else [Problem.scopeNotAllowed scope]) = []
      ↔ ∀ scope, h.scope = some scope → scope ∈ words options.scopes := by
    cases h.scope with
    | none => simp
    | some scope => simp
  rw [hscope]
  constructor
  · rintro ⟨⟨⟨htype, hsc⟩, hne, hlow, hdot, hlen⟩, hsec⟩
    refine ⟨htype, hsc, hne, hlow, hdot, hlen, fun _ => ?_⟩
    simpa using hsec
  · intro hr
    refine ⟨⟨⟨hr.type, hr.scope⟩, hr.nonempty, hr.lowercase, hr.period, hr.length⟩, ?_⟩
    simp [hr.section_ hb]

/-! ## §7. The hook against the grammar. -/

theorem notNewline_of_lower {c : Char} (h : isLower c = true) : notNewline c = true := by
  simp [notNewline, isLower_ne h (d := '\n') rfl]

theorem notNewline_of_scope {c : Char} (h : isScope c = true) : notNewline c = true := by
  simp [notNewline, isScope_ne h (d := '\n') rfl]

/-- A header is one line. -/
theorem text_notNewline {h : Header} (ht : Tokens h) : ∀ c ∈ h.text, notNewline c = true := by
  intro c hc
  unfold Header.text at hc
  simp only [List.mem_append, List.mem_cons] at hc
  rcases hc with hc | hc | hc | rfl | rfl | hc
  · exact notNewline_of_lower (ht.type c hc)
  · unfold Header.scopeText at hc
    cases hs : h.scope with
    | none =>
        rw [hs] at hc
        cases hc
    | some scope =>
        rw [hs] at hc
        simp only [List.mem_append, List.mem_cons, List.not_mem_nil, or_false] at hc
        rcases hc with (rfl | hc) | rfl
        · rfl
        · exact notNewline_of_scope (ht.scope scope hs c hc)
        · rfl
  · split at hc
    next =>
      obtain rfl := List.mem_singleton.mp hc
      rfl
    next => cases hc
  · rfl
  · rfl
  · exact ht.subject c hc

theorem firstLine_text {h : Header} (ht : Tokens h) {tail : List Char} (htail : LineEnds tail) :
    firstLine (h.text ++ tail) = h.text ∧ body (h.text ++ tail) = afterBlank tail := by
  have hne : h.text ≠ [] := List.append_ne_nil_of_left_ne_nil ht.type_ne _
  have htakes : Takes notNewline h.text tail := ⟨hne, text_notNewline ht, htail⟩
  refine ⟨htakes.takeWhile, ?_⟩
  unfold body
  rw [htakes.dropWhile]

/-- A header that keeps the rules has words of the expression's classes. -/
theorem tokens_of_rules {h : Header} {text : List Char} (hr : Rules casing options h text)
    {message : List Char} (hline : h.text = firstLine message) : Tokens h := by
  have hword : ∀ {arg : String} {w : List Char}, w ∈ words arg → w ≠ [] := fun {arg w} hw => by
    simpa using (List.mem_filter.mp hw).2
  refine ⟨hword hr.type, options.types_lower _ hr.type, fun s hs => hword (hr.scope s hs),
    fun s hs => options.scopes_lower _ (hr.scope s hs), hr.nonempty, fun c hc => ?_⟩
  have hmem : c ∈ firstLine message := by
    rw [← hline]
    unfold Header.text
    simp [hc]
  exact List.mem_takeWhile_imp hmem

/-- A message is its first line and what comes after it. -/
theorem firstLine_append (message : List Char) :
    firstLine message ++ message.dropWhile notNewline = message := List.takeWhile_append_dropWhile

theorem lineEnds_dropWhile (message : List Char) : LineEnds (message.dropWhile notNewline) :=
  stop_dropWhile notNewline message

/-- **The hook accepts the messages that conform with a `!`.** -/
theorem problems_nil_iff_conforms (message : List Char) :
    problems casing options message = []
      ↔ ∃ h : Header, h.text = firstLine message ∧ Rules casing options h (body message)
        ∧ h.breaking = true := by
  constructor
  · intro hnil
    cases hfind : conventionalRe.find message with
    | none =>
        -- where the expression finds nothing there is a complaint
        unfold problems at hnil
        rw [hfind] at hnil
        cases hnil
    | some groups =>
        obtain ⟨h, tail, ht, hb, htail, rfl⟩ := header_of_find hfind
        obtain ⟨hline, hbody⟩ := firstLine_text ht htail
        refine ⟨h, hline.symm, ?_, hb⟩
        rw [hbody]
        exact (problems_nil_iff ht hb htail).mp hnil
  · rintro ⟨h, hline, hr, hb⟩
    -- what keeps the rules is made of tokens
    have hnil := (problems_nil_iff (tokens_of_rules hr hline) hb (lineEnds_dropWhile message)).mpr hr
    rw [hline, firstLine_append] at hnil
    exact hnil

/-- It refuses those that conform without one. -/
theorem problems_of_plain {message : List Char} (h : ConformsPlainly casing options message) :
    problems casing options message ≠ [] := by
  obtain ⟨h, hline, hr, hb⟩ := h
  have hfind := find_text (tokens_of_rules hr hline) (lineEnds_dropWhile message)
  rw [hline, firstLine_append, hb] at hfind
  unfold problems
  rw [hfind]
  exact List.cons_ne_nil _ _

theorem main_eq_zero_iff {raw : List Char} (hne : cleaned raw ≠ [])
    (hpass : passesThrough (cleaned raw) = false) :
    main casing options (some raw) = 0 ↔ problems casing options (cleaned raw) = [] := by
  unfold main
  simp [hne, hpass]

/-- **Where the hook accepts exactly the documented grammar**: a message that is
neither empty nor passed through is accepted if and only if it conforms, if and
only if it does not conform without a `!`. -/
theorem main_iff (casing : Casing) (options : Options) (raw : List Char) (hne : cleaned raw ≠ [])
    (hpass : passesThrough (cleaned raw) = false) :
    (main casing options (some raw) = 0 ↔ Conforms casing options (cleaned raw))
      ↔ ¬ ConformsPlainly casing options (cleaned raw) := by
  rw [main_eq_zero_iff hne hpass]
  constructor
  · intro hiff hplain
    obtain ⟨h, hline, hr, -⟩ := id hplain
    exact problems_of_plain hplain (hiff.mpr ⟨h, hline, hr⟩)
  · intro hplain
    rw [problems_nil_iff_conforms]
    constructor
    · rintro ⟨h, hline, hr, -⟩
      exact ⟨h, hline, hr⟩
    · rintro ⟨h, hline, hr⟩
      cases hb : h.breaking with
      | true => exact ⟨h, hline, hr, hb⟩
      | false => exact absurd ⟨h, hline, hr, hb⟩ hplain

/-- The case of ASCII letters. -/
def asciiCasing : Casing := ⟨Char.isUpper, fun c => [c.toUpper]⟩

/-- The first example of the documentation. -/
def documented : List Char := "feat(orders): add idempotency key support\n".toList

/-- It conforms, and is refused. -/
theorem main_refuses_documented : ¬ ∀ (casing : Casing) (options : Options) (raw : List Char),
    cleaned raw ≠ [] → passesThrough (cleaned raw) = false →
    (main casing options (some raw) = 0 ↔ Conforms casing options (cleaned raw)) := by
  intro h
  have hiff := h asciiCasing Options.default documented (by decide +kernel) (by decide +kernel)
  have hconforms : Conforms asciiCasing Options.default (cleaned documented) := by
    refine ⟨⟨"feat".toList, some "orders".toList, false, "add idempotency key support".toList⟩,
      by decide +kernel, by decide +kernel, ?_, by decide, ?_, by decide, by decide, ?_⟩
    · intro scope hs
      obtain rfl := Option.some.inj hs
      decide +kernel
    · intro c hc
      obtain rfl := Option.some.inj hc
      decide
    · intro hb
      cases hb
  have hrefused : main asciiCasing Options.default (some documented) = 1 := by decide +kernel
  exact absurd (hiff.mpr hconforms) (by rw [hrefused]; decide)

theorem main_iff_documented :
    (main asciiCasing Options.default (some documented) = 0
        ↔ Conforms asciiCasing Options.default (cleaned documented))
      ↔ ¬ ConformsPlainly asciiCasing Options.default (cleaned documented) :=
  main_iff asciiCasing Options.default documented (by decide +kernel) (by decide +kernel)

end Nimbus.CommitMessages
