/-
  Nimbus.Core.DriverErrors
  ────────────────────────
  **WHAT `get_session` CLASSIFIES A DRIVER ERROR BY.**

  An OperationalError becomes a DatabaseLockError when its text has "lock" or
  "timeout" in it, and a DatabaseConnectionError otherwise.  But the text that
  SQLAlchemy gives has the statement and its parameters after the driver's own
  message: a SKU, a name or a column decides as well.

    • `DriverError.str`     — `str(exc)`;
    • `mentions_str`        — a word occurs in it when it occurs in one of its parts;
    • `DriverError.Decided`, `DriverError.Suspect` — what the driver's message,
                              and what the caller's data, decide;
    • `classification_iff`  — **two runs with one driver error: when they raise
                              the same class.**
-/
import Nimbus.Core.ErrorResponses
import Nimbus.Lib.Substring

namespace Nimbus

open Lib

/-! ## §1. The text of a driver error. -/

/-- What SQLAlchemy knows of a failed statement: the driver's message, the SQL
text, and its parameters as they are printed.  Both may be absent, for an error
outside a statement or a statement without parameters. -/
structure DriverError where
  driver : String
  statement : Option String
  params : Option String

namespace DriverError

/-- The line that an optional part makes. -/
def line (label : String) : Option String → String
  | none => ""
  | some text => "\n[" ++ label ++ ": " ++ text ++ "]"

/-- `str(exc)`; the parameters are printed with the statement only. -/
def str (e : DriverError) : String :=
  e.driver ++ line "SQL" e.statement ++ line "parameters" (e.statement.bind fun _ => e.params)
    ++ "\n(Background on this error at: https://sqlalche.me/e/20/e3q8)"

/-- The exception that reaches `get_session`. -/
def exn (e : DriverError) : Exn := ⟨.operationalError, e.str, []⟩

/-- The text speaks of a lock or a timeout. -/
def mentions (text : String) : Bool := inLower "lock" text || inLower "timeout" text

/-- The driver's own message decides. -/
def Decided (e : DriverError) : Prop := mentions e.driver = true

/-- The SQL text, or a parameter printed with it, speaks of a lock or a timeout. -/
def Suspect (e : DriverError) : Prop :=
  ∃ statement, e.statement = some statement
    ∧ (mentions statement = true ∨ ∃ params, e.params = some params ∧ mentions params = true)

/-! ## §2. Words in the text. -/

/-- The pieces of a line, in lower case, each after its separator. -/
def pieces (label : List Char) : Option String → List (Char × List Char)
  | none => []
  | some text => [('\n', []), ('[', label), (':', []), (' ', text.toList.map lowerChar), (']', [])]

/-- The last line, in lower case. -/
def background : List (Char × List Char) :=
  [('\n', []), ('(', "background on this error at".toList), (':', []),
    (' ', "https".toList), (':', "//sqlalche.me/e/20/e3q8)".toList)]

theorem lower_line (label : String) (part : Option String) :
    (line label part).toList.map lowerChar
      = (pieces (label.toList.map lowerChar) part).flatMap fun x => x.1 :: x.2 := by
  cases part with
  | none => rfl
  | some text =>
      have hopen : "\n[".toList.map lowerChar = ['\n', '['] := by decide
      have hcolon : ": ".toList.map lowerChar = [':', ' '] := by decide
      have hclose : "]".toList.map lowerChar = [']'] := by decide
      simp only [line, pieces, String.toList_append, List.map_append, hopen, hcolon, hclose]
      simp

/-- The whole text, in lower case. -/
theorem lower_str (e : DriverError) :
    e.str.toList.map lowerChar = spell (e.driver.toList.map lowerChar)
      (pieces "sql".toList e.statement
        ++ (pieces "parameters".toList (e.statement.bind fun _ => e.params) ++ background)) := by
  have hsql : "SQL".toList.map lowerChar = "sql".toList := by decide
  have hparams : "parameters".toList.map lowerChar = "parameters".toList := by decide
  have hlast : "\n(Background on this error at: https://sqlalche.me/e/20/e3q8)".toList.map lowerChar
      = background.flatMap fun x => x.1 :: x.2 := by decide
  unfold str spell
  rw [String.toList_append, String.toList_append, String.toList_append, List.map_append,
    List.map_append, List.map_append, lower_line, lower_line, hsql, hparams, hlast,
    List.flatMap_append, List.flatMap_append, List.append_assoc, List.append_assoc]

/-- A word of the search. -/
structure Searched (word : List Char) : Prop where
  separators : ∀ sep ∈ ['\n', '[', ':', ' ', ']', '('], sep ∉ word
  fixed : ∀ piece ∈ ["sql".toList, "parameters".toList, "background on this error at".toList,
    "https".toList, "//sqlalche.me/e/20/e3q8)".toList, []], ¬ word <:+: piece

theorem searched_lock : Searched "lock".toList :=
  ⟨by simp, by decide +kernel⟩

theorem searched_timeout : Searched "timeout".toList :=
  ⟨by simp, by decide +kernel⟩

/-- In a line only the part can have the word. -/
theorem infix_pieces {word : List Char} (h : Searched word) {label : List Char}
    (hlabel : label = "sql".toList ∨ label = "parameters".toList) (part : Option String) :
    (∀ x ∈ pieces label part, x.1 ∉ word)
      ∧ ((∃ x ∈ pieces label part, word <:+: x.2)
        ↔ ∃ text, part = some text ∧ word <:+: text.toList.map lowerChar) := by
  have hno : ¬ word <:+: label := h.fixed label (by rcases hlabel with rfl | rfl <;> simp)
  have hnil : ¬ word <:+: [] := h.fixed [] (by simp)
  have hsep := h.separators
  cases part with
  | none => simp [pieces]
  | some text =>
      simp only [pieces, List.mem_cons, List.not_mem_nil, or_false, forall_eq_or_imp, forall_eq,
        exists_eq_or_imp, exists_eq_left, Option.some.injEq] at hsep ⊢
      obtain ⟨hline, hopen, hcolon, hspace, hclose, -⟩ := hsep
      refine ⟨⟨hline, hopen, hcolon, hspace, hclose⟩, ?_⟩
      simp only [hno, hnil, or_false, false_or, exists_eq_left']

theorem occurs_str {word : List Char} (h : Searched word) (e : DriverError) :
    occurs word (e.str.toList.map lowerChar) = true
      ↔ occurs word (e.driver.toList.map lowerChar) = true
        ∨ ∃ statement, e.statement = some statement
          ∧ (occurs word (statement.toList.map lowerChar) = true
            ∨ ∃ params, e.params = some params
              ∧ occurs word (params.toList.map lowerChar) = true) := by
  obtain ⟨hsql, hinsql⟩ := infix_pieces h (Or.inl rfl) e.statement
  obtain ⟨hparams, hinparams⟩ := infix_pieces h (Or.inr rfl) (e.statement.bind fun _ => e.params)
  have hfixed := h.fixed
  -- the link to the documentation has none of the words
  have hbackground : (∀ x ∈ background, x.1 ∉ word) ∧ ¬ ∃ x ∈ background, word <:+: x.2 := by
    have hsep := h.separators
    simp only [background, List.mem_cons, List.not_mem_nil, or_false, forall_eq_or_imp, forall_eq,
      exists_eq_or_imp, exists_eq_left] at hsep hfixed ⊢
    obtain ⟨hline, -, hcolon, hspace, -, hround⟩ := hsep
    obtain ⟨-, -, hback, hhttps, hpage, hnil⟩ := hfixed
    refine ⟨⟨hline, hround, hcolon, hspace, hcolon⟩, ?_⟩
    rintro (hc | hc | hc | hc | hc)
    · exact hnil hc
    · exact hback hc
    · exact hnil hc
    · exact hhttps hc
    · exact hpage hc
  -- no separator has a character of the word, so it lies within one piece
  simp only [occurs_iff]
  rw [lower_str, infix_spell]
  · simp only [List.mem_append, or_and_right, exists_or, hinsql, hinparams, hbackground.2, or_false]
    cases e.statement with
    | none => simp
    | some statement => simp
  · intro x hx
    rcases List.mem_append.mp hx with hx | hx
    · exact hsql x hx
    · rcases List.mem_append.mp hx with hx | hx
      · exact hparams x hx
      · exact hbackground.1 x hx

/-- **The text speaks of a lock or a timeout** when the driver does, or the data
it was given. -/
theorem mentions_str (e : DriverError) : mentions e.str = true ↔ e.Decided ∨ e.Suspect := by
  have hword : ∀ (word : String) (text : String),
      inLower word text = occurs word.toList (text.toList.map lowerChar) := fun _ _ => rfl
  unfold Decided Suspect mentions
  simp only [Bool.or_eq_true, hword, occurs_str searched_lock, occurs_str searched_timeout]
  constructor
  · rintro ((hd | ⟨st, hst, hs | ⟨ps, hps, hp⟩⟩) | (hd | ⟨st, hst, hs | ⟨ps, hps, hp⟩⟩))
    · exact Or.inl (Or.inl hd)
    · exact Or.inr ⟨st, hst, Or.inl (Or.inl hs)⟩
    · exact Or.inr ⟨st, hst, Or.inr ⟨ps, hps, Or.inl hp⟩⟩
    · exact Or.inl (Or.inr hd)
    · exact Or.inr ⟨st, hst, Or.inl (Or.inr hs)⟩
    · exact Or.inr ⟨st, hst, Or.inr ⟨ps, hps, Or.inr hp⟩⟩
  · rintro ((hd | hd) | ⟨st, hst, (hs | hs) | ⟨ps, hps, hp | hp⟩⟩)
    · exact Or.inl (Or.inl hd)
    · exact Or.inr (Or.inl hd)
    · exact Or.inl (Or.inr ⟨st, hst, Or.inl hs⟩)
    · exact Or.inr (Or.inr ⟨st, hst, Or.inl hs⟩)
    · exact Or.inl (Or.inr ⟨st, hst, Or.inr ⟨ps, hps, hp⟩⟩)
    · exact Or.inr (Or.inr ⟨st, hst, Or.inr ⟨ps, hps, hp⟩⟩)

end DriverError

/-! ## §3. The class. -/

/-- What an OperationalError becomes. -/
theorem translated_exn (target_schema : String) (e : DriverError) :
    (translated target_schema e.exn).cls
      = if DriverError.mentions e.str then .databaseLockError else .databaseConnectionError := by
  have hop : e.exn.isA .operationalError = true := rfl
  unfold translated
  rw [if_pos hop]
  show (if DriverError.mentions e.str = true then _ else _ : Exn).cls = _
  split
  next => rfl
  next => rfl

theorem translated_cls_iff (target_schema : String) (e e' : DriverError) :
    (translated target_schema e.exn).cls = (translated target_schema e'.exn).cls
      ↔ (e.Decided ∨ e.Suspect ↔ e'.Decided ∨ e'.Suspect) := by
  rw [translated_exn, translated_exn, ← e.mentions_str, ← e'.mentions_str]
  cases DriverError.mentions e.str <;> cases DriverError.mentions e'.str <;> simp

/-- **Two runs with one driver error**, and whatever SQL text and parameters:
`get_session` raises the same class exactly when the driver's message decides, or
the data of both runs are suspect, or of neither.  Where the rollback raises, that
exception goes out in both. -/
theorem classification_iff (target_schema : String) (rollback : Option Exn) (driver : String)
    (statement statement' params params' : Option String) :
    (translate target_schema rollback (DriverError.mk driver statement params).exn).cls
        = (translate target_schema rollback (DriverError.mk driver statement' params').exn).cls
      ↔ (rollback = none → DriverError.mentions driver = true
        ∨ ((DriverError.mk driver statement params).Suspect
          ↔ (DriverError.mk driver statement' params').Suspect)) := by
  cases rollback with
  -- the rollback fails first
  | some exc => exact iff_of_true rfl fun hc => (nomatch hc)
  | none =>
      refine (translated_cls_iff target_schema _ _).trans ?_
      have hdecided : ∀ s p, (DriverError.mk driver s p).Decided ↔ DriverError.mentions driver = true :=
        fun _ _ => Iff.rfl
      rw [hdecided, hdecided]
      -- from here on a matter of three propositions
      generalize (DriverError.mk driver statement params).Suspect = suspect
      generalize (DriverError.mk driver statement' params').Suspect = suspect'
      generalize (DriverError.mentions driver = true) = decided
      constructor
      · intro hiff _
        by_cases hd : decided
        · exact Or.inl hd
        · exact Or.inr ⟨fun hs => (hiff.mp (Or.inr hs)).resolve_left hd,
            fun hs => (hiff.mpr (Or.inr hs)).resolve_left hd⟩
      · intro hcond
        rcases hcond rfl with hd | hs
        · exact iff_of_true (Or.inl hd) (Or.inl hd)
        · rw [hs]

/-- The connection is lost while a padlock is looked up, or a key ring. -/
def lostConnection (sku : String) : DriverError where
  driver := "(asyncpg.exceptions.ConnectionDoesNotExistError) connection was closed"
  statement := some "SELECT stock.id FROM inventory.stock WHERE stock.sku = $1::VARCHAR"
  params := some ("('" ++ sku ++ "',)")

/-- The padlock makes it a lock error. -/
theorem classification_fails :
    ¬ ∀ (target_schema driver : String) (statement statement' params params' : Option String),
        (translate target_schema none (DriverError.mk driver statement params).exn).cls
          = (translate target_schema none (DriverError.mk driver statement' params').exn).cls := by
  intro h
  have heq := h "inventory" (lostConnection "").driver (lostConnection "").statement
    (lostConnection "").statement (lostConnection "padlock").params (lostConnection "keyring").params
  have hlock : DriverError.mentions (lostConnection "padlock").str = true :=
    (DriverError.mentions_str _).mpr (Or.inr ⟨_, rfl, Or.inr ⟨_, rfl, by decide +kernel⟩⟩)
  have hplain : DriverError.mentions (lostConnection "keyring").str = false := by
    refine Bool.eq_false_iff.mpr fun hc => ?_
    rcases (DriverError.mentions_str _).mp hc with hdriver | ⟨statement, hst, hs | ⟨params, hps, hp⟩⟩
    · exact absurd hdriver (by unfold DriverError.Decided; decide +kernel)
    · obtain rfl := Option.some.inj hst
      exact absurd hs (by decide +kernel)
    · obtain rfl := Option.some.inj hps
      exact absurd hp (by decide +kernel)
  have hcls : (translated "inventory" (lostConnection "padlock").exn).cls
      = (translated "inventory" (lostConnection "keyring").exn).cls := heq
  rw [translated_exn, translated_exn, hlock, hplain] at hcls
  cases hcls

end Nimbus
