/-
  Nimbus.Core.TestIsolation
  ─────────────────────────
  **TWO GUARDS OF THE TEST URLS, AND WHERE THE INNER ONE IS WEAKER.**

  `guard_test_isolation` looks at the environment from outside, and
  `Settings.assert_test_isolation` at the settings that were read from it; the
  second is to run the same checks as the first.  But it knows six of the nine
  host substrings only, and it sees DATABASE_URL and REDIS_URL where they are set.

    • `guardTestIsolation`, `Settings.build`, `assertTestIsolation`
    • `urlErrors_rule_iff`, `assertUrl_ok_iff` — what either guard refuses;
    • `guards_iff` — **the inner guard refuses what the outer one does, exactly
                     where no URL is hidden from it and no host is named "prod".**
-/
import Nimbus.Core.Urls
import Nimbus.Lib.Substring

namespace Nimbus.TestIsolation

open Lib (occurs)
open Urls (ParseResult NetlocCheck urlparse before)

/-! ## §1. The environment and the settings. -/

/-- The environment variables, in their order. -/
structure Environ where
  vars : List (String × String)
  nodup : (vars.map Prod.fst).Nodup

/-- The two URLs. -/
inductive Which where
  | database
  | redis

/-- The name the guards report a URL under. -/
def Which.name : Which → String
  | .database => "TEST_DATABASE_URL"
  | .redis => "TEST_REDIS_URL"

/-- `env_vars.get(name)`. -/
def Environ.get (env : Environ) (name : String) : Option String := dictGet env.vars name

/-- `env_vars.get(name, "")` of a test URL. -/
def Environ.testUrl (env : Environ) (w : Which) : String := (env.get w.name).getD ""

/-- What the settings know under a name: case does not matter, and of two
spellings the later one counts. -/
def Environ.folded (env : Environ) (name : String) : Option String :=
  (env.vars.filter fun kv => String.ofList (kv.1.toList.map lowerChar) = name).getLast?.map Prod.snd

/-- `Settings`, as far as the guard reads them. -/
structure Settings where
  environment : String
  database_url : String
  redis_url : String
deriving DecidableEq

def Settings.url (s : Settings) : Which → String
  | .database => s.database_url
  | .redis => s.redis_url

/-- `Settings()`: the first alias that is set is read; nothing where a field is
missing or no environment is named. -/
def Settings.build (env : Environ) : Option Settings := do
  let environment := (env.folded "environment").getD "development"
  let database_url ← (env.folded "database_url").or (env.folded "test_database_url")
  let redis_url ← (env.folded "redis_url").or (env.folded "test_redis_url")
  if environment ∈ ["development", "staging", "production", "test"] then
    some ⟨environment, database_url, redis_url⟩
  else none

/-! ## §2. The guards. -/

/-- What a guard reports, with the values that it shows. -/
inductive Violation where
  | productionVar (name value : String)
  | notSet (name : String)
  | invalidUrl (name url reason : String)
  | forbiddenHost (name url forbidden : String)
  | databaseName (url db_name : String)
  | databaseScheme (url scheme : String)
  | redisDb (url : String)
  | redisScheme (url scheme : String)
deriving DecidableEq

/-- The host, database name and Redis database rules. -/
def Violation.isRule : Violation → Bool
  | .forbiddenHost .. | .databaseName .. | .redisDb .. => true
  | _ => false

/-- `(parsed.hostname or "").lower()`. -/
def host (parsed : ParseResult) : List Char := (parsed.hostname.getD []).map lowerChar

/-- `parsed.path.lstrip("/").split("?")[0]`. -/
def pathName (parsed : ParseResult) : List Char := before '?' (parsed.path.dropWhile (· == '/'))

/-- `… or "0"`. -/
def dbSegment (parsed : ParseResult) : List Char :=
  if pathName parsed = [] then ['0'] else pathName parsed

/-- `Settings._PROD_HOST_SUBSTRINGS`. -/
def prodHostSubstrings : List String :=
  ["rds.amazonaws.com", "amazonaws.com", "azure.com", "windows.net", "confluent.cloud",
    "memorystore.googleapis.com"]

/-- `_PROD_HOST_FORBIDDEN_SUBSTRINGS` of `check_env`. -/
def prodHostForbiddenSubstrings : List String :=
  ["rds.amazonaws.com", "amazonaws.com", "azure.com", "windows.net", "confluent.cloud",
    "memorystore.googleapis.com", "prod-", "-prod.", ".prod."]

/-- `forbidden in host`. -/
def inHost (parsed : ParseResult) (forbidden : String) : Bool := occurs forbidden.toList (host parsed)

/-- `"test" in db_name.lower()`. -/
def namesTest (parsed : ParseResult) : Bool :=
  occurs "test".toList ((pathName parsed).map lowerChar)

variable (check : NetlocCheck)

/-- One turn of the loop in `assert_test_isolation`. -/
def assertUrl (w : Which) (url : String) : Except Violation Unit :=
  match urlparse check url with
  | .error reason => .error (.invalidUrl w.name url reason)
  | .ok parsed =>
      match prodHostSubstrings.find? (inHost parsed) with
      | some forbidden => .error (.forbiddenHost w.name url forbidden)
      | none => match w with
          | .database =>
              if namesTest parsed then .ok ()
              else .error (.databaseName url (String.ofList (pathName parsed)))
          | .redis => if dbSegment parsed = ['0'] then .error (.redisDb url) else .ok ()

/-- `assert_test_isolation`. -/
def assertTestIsolation (s : Settings) : Except Violation Unit :=
  if s.environment = "test" then
    match assertUrl check .database s.database_url with
    | .error v => .error v
    | .ok _ => assertUrl check .redis s.redis_url
  else .ok ()

/-- The schemes that a test URL may have. -/
def Which.schemes : Which → List String
  | .database => ["postgresql", "postgresql+asyncpg", "postgres"]
  | .redis => ["redis", "rediss"]

/-- One turn of the loop in `guard_test_isolation`. -/
def urlErrors (w : Which) (url : String) : List Violation :=
  if url = "" then []
  else match urlparse check url with
    | .error reason => [.invalidUrl w.name url reason]
    | .ok parsed =>
        let scheme := String.ofList (parsed.scheme.map lowerChar)
        (prodHostForbiddenSubstrings.filter (inHost parsed)).map (.forbiddenHost w.name url)
          ++ match w with
            | .database =>
                (if namesTest parsed then []
                  else [.databaseName url (String.ofList (pathName parsed))])
                ++ if scheme ∈ w.schemes then [] else [.databaseScheme url scheme]
            | .redis =>
                (if dbSegment parsed = ['0'] then [.redisDb url] else [])
                ++ if scheme ∈ w.schemes then [] else [.redisScheme url scheme]

/-- `guard_test_isolation`: the errors for which it exits. -/
def guardTestIsolation (env : Environ) (env_name : String) : List Violation :=
  if env_name ≠ "test" then []
  else
    (["DATABASE_URL", "REDIS_URL", "KAFKA_BOOTSTRAP_SERVERS"].filterMap fun prod_var =>
      match env.get prod_var with
      | none | some "" => none
      | some value => some (.productionVar prod_var value))
    ++ (if env.testUrl .database = "" then [.notSet "TEST_DATABASE_URL"] else [])
    ++ (if env.testUrl .redis = "" then [.notSet "TEST_REDIS_URL"] else [])
    ++ urlErrors check .database (env.testUrl .database)
    ++ urlErrors check .redis (env.testUrl .redis)

/-! ## §3. What they refuse. -/

/-- The substrings that only the outer guard knows. -/
def prodNames : List String := ["prod-", "-prod.", ".prod."]

theorem prodHostForbiddenSubstrings_eq :
    prodHostForbiddenSubstrings = prodHostSubstrings ++ prodNames := rfl

/-- The host of a managed service. -/
def Managed (parsed : ParseResult) : Prop := ∃ f ∈ prodHostSubstrings, inHost parsed f = true

/-- A host that is named as a production host. -/
def ProdNamed (parsed : ParseResult) : Prop := ∃ f ∈ prodNames, inHost parsed f = true

/-- No test database, or the Redis database 0. -/
def BadTarget (parsed : ParseResult) : Which → Prop
  | .database => namesTest parsed = false
  | .redis => dbSegment parsed = ['0']

/-- The inner guard lets the URL pass. -/
def Accepted (w : Which) (url : String) : Prop :=
  ∃ parsed, urlparse check url = .ok parsed ∧ ¬ Managed parsed ∧ ¬ BadTarget parsed w

/-- The URL has a host named as a production host. -/
def NamesProd (url : String) : Prop := ∃ parsed, urlparse check url = .ok parsed ∧ ProdNamed parsed

/-- The URL breaks one of the outer guard's host, database name or Redis rules. -/
def Breaks (w : Which) (url : String) : Prop :=
  url ≠ "" ∧ ∃ parsed, urlparse check url = .ok parsed
    ∧ (Managed parsed ∨ ProdNamed parsed ∨ BadTarget parsed w)

variable {check}

theorem find?_managed_iff (parsed : ParseResult) :
    prodHostSubstrings.find? (inHost parsed) = none ↔ ¬ Managed parsed := by
  rw [List.find?_eq_none]
  constructor
  · intro h hm
    obtain ⟨f, hf, hin⟩ := hm
    exact h f hf hin
  · intro h f hf hin
    exact h ⟨f, hf, hin⟩

theorem assertUrl_ok_iff (w : Which) (url : String) :
    assertUrl check w url = .ok () ↔ Accepted check w url := by
  unfold assertUrl Accepted
  cases hparse : urlparse check url with
  | error reason =>
      refine iff_of_false (fun hc => nomatch hc) fun hc => ?_
      obtain ⟨parsed, hok, -⟩ := hc
      cases hok
  | ok parsed =>
      simp only [Except.ok.injEq, exists_eq_left']
      -- a substring that is found is one of the managed names
      cases hfind : prodHostSubstrings.find? (inHost parsed) with
      | some forbidden =>
          refine iff_of_false (fun hc => nomatch hc) fun hc => ?_
          exact nomatch hfind.symm.trans ((find?_managed_iff parsed).mpr hc.1)
      | none =>
          rw [and_iff_right ((find?_managed_iff parsed).mp hfind)]
          -- the rule of the URL itself
          cases w with
          | database =>
              unfold BadTarget
              cases hname : namesTest parsed with
              | true => simp
              | false => simp
          | redis =>
              unfold BadTarget
              by_cases hdb : dbSegment parsed = ['0']
              · simp [hdb]
              · simp [hdb]

/-- An empty URL names no database, and the Redis database 0. -/
theorem not_accepted_empty (w : Which) : ¬ Accepted check w "" := by
  intro h
  obtain ⟨parsed, hparse, -, htarget⟩ := h
  have hname : pathName parsed = [] := by
    unfold pathName
    rw [Urls.urlparse_empty hparse]
    rfl
  cases w with
  | database =>
      refine htarget ?_
      show occurs "test".toList ((pathName parsed).map lowerChar) = false
      rw [hname]
      decide
  | redis =>
      refine htarget ?_
      show (if pathName parsed = [] then _ else _) = _
      rw [if_pos hname]

theorem assertTestIsolation_ok_iff (s : Settings) (h : s.environment = "test") :
    assertTestIsolation check s = .ok () ↔ ∀ w, Accepted check w (s.url w) := by
  have hboth : assertTestIsolation check s = .ok ()
      ↔ assertUrl check .database s.database_url = .ok ()
        ∧ assertUrl check .redis s.redis_url = .ok () := by
    unfold assertTestIsolation
    rw [if_pos h]
    cases assertUrl check .database s.database_url with
    | error v => exact iff_of_false (fun hc => nomatch hc) fun hc => nomatch hc.1
    | ok _ => exact (and_iff_right rfl).symm
  rw [hboth, assertUrl_ok_iff, assertUrl_ok_iff]
  constructor
  · intro h w
    cases w with
    | database => exact h.1
    | redis => exact h.2
  · intro h
    exact ⟨h .database, h .redis⟩

/-- Some error of the list is one of a rule. -/
def HasRule (errors : List Violation) : Prop := ∃ v ∈ errors, v.isRule = true

@[simp] theorem hasRule_nil : ¬ HasRule [] := by
  intro h
  obtain ⟨v, hv, -⟩ := h
  cases hv

@[simp] theorem hasRule_singleton (v : Violation) : HasRule [v] ↔ v.isRule = true := by
  simp [HasRule]

@[simp] theorem hasRule_append (errors errors' : List Violation) :
    HasRule (errors ++ errors') ↔ HasRule errors ∨ HasRule errors' := by
  unfold HasRule
  simp only [List.mem_append, or_and_right, exists_or]

/-- An error that is reported or not. -/
@[simp] theorem hasRule_ite {p : Prop} [Decidable p] (errors errors' : List Violation) :
    HasRule (if p then errors else errors') ↔ (p ∧ HasRule errors) ∨ (¬ p ∧ HasRule errors') := by
  by_cases hp : p <;> simp [hp]

theorem hasRule_hosts (parsed : ParseResult) (name url : String) :
    HasRule ((prodHostForbiddenSubstrings.filter (inHost parsed)).map (.forbiddenHost name url))
      ↔ Managed parsed ∨ ProdNamed parsed := by
  unfold HasRule Managed ProdNamed
  rw [prodHostForbiddenSubstrings_eq]
  constructor
  · intro h
    obtain ⟨v, hv, -⟩ := h
    obtain ⟨f, hf, -⟩ := List.mem_map.mp hv
    obtain ⟨hmem, hin⟩ := List.mem_filter.mp hf
    rcases List.mem_append.mp hmem with hm | hp
    · exact Or.inl ⟨f, hm, hin⟩
    · exact Or.inr ⟨f, hp, hin⟩
  · intro h
    obtain ⟨f, hmem, hin⟩ : ∃ f ∈ prodHostSubstrings ++ prodNames, inHost parsed f = true := by
      rcases h with ⟨f, hm, hin⟩ | ⟨f, hp, hin⟩
      · exact ⟨f, List.mem_append_left _ hm, hin⟩
      · exact ⟨f, List.mem_append_right _ hp, hin⟩
    exact ⟨_, List.mem_map_of_mem (List.mem_filter.mpr ⟨hmem, hin⟩), rfl⟩

/-- **The rules of the outer guard.** -/
theorem urlErrors_rule_iff (w : Which) (url : String) :
    HasRule (urlErrors check w url) ↔ Breaks check w url := by
  unfold urlErrors Breaks
  by_cases hurl : url = ""
  · rw [if_pos hurl]
    exact iff_of_false hasRule_nil fun hc => hc.1 hurl
  · rw [if_neg hurl, and_iff_right hurl]
    cases hparse : urlparse check url with
    | error reason => simp [Violation.isRule]
    | ok parsed =>
        cases w with
        | database => simp [hasRule_hosts, Violation.isRule, BadTarget, or_assoc]
        | redis => simp [hasRule_hosts, Violation.isRule, BadTarget, or_assoc]

/-- **Why the outer guard exits**: the other errors are of no rule. -/
theorem guard_rule_iff (env : Environ) :
    HasRule (guardTestIsolation check env "test") ↔ ∃ w, Breaks check w (env.testUrl w) := by
  -- what is reported of the production variables breaks no rule of a URL
  have hproduction : ∀ names : List String, ¬ HasRule (names.filterMap fun prod_var =>
      match env.get prod_var with
      | none | some "" => none
      | some value => some (.productionVar prod_var value)) := by
    intro names hc
    obtain ⟨v, hv, hrule⟩ := hc
    obtain ⟨name, -, hname⟩ := List.mem_filterMap.mp hv
    split at hname
    next => cases hname
    next => cases hname
    next =>
        obtain rfl := Option.some.inj hname
        cases hrule
  have heither : (∃ w, Breaks check w (env.testUrl w))
      ↔ Breaks check .database (env.testUrl .database) ∨ Breaks check .redis (env.testUrl .redis) := by
    constructor
    · intro h
      obtain ⟨w, hw⟩ := h
      cases w with
      | database => exact Or.inl hw
      | redis => exact Or.inr hw
    · intro h
      rcases h with h | h
      · exact ⟨.database, h⟩
      · exact ⟨.redis, h⟩
  unfold guardTestIsolation
  rw [if_neg (by decide), heither]
  simp [hproduction, Violation.isRule, urlErrors_rule_iff]

/-! ## §4. The two guards. -/

variable (check)

/-- The inner guard refuses an environment that the outer one does, because of a
rule. -/
def Agrees (env : Environ) : Prop :=
  HasRule (guardTestIsolation check env "test") →
    ∀ s, Settings.build env = some s → s.environment = "test" →
      ∃ v, assertTestIsolation check s = .error v

/-- Where the settings read the test URL itself, its host is not named as a
production host; where another variable is read in its place, the test URL breaks
no rule at all. -/
def Seen (env : Environ) (s : Settings) (w : Which) : Prop :=
  (s.url w = env.testUrl w → ¬ NamesProd check (env.testUrl w))
    ∧ (s.url w ≠ env.testUrl w → ¬ Breaks check w (env.testUrl w))

/-- **Where the guards agree.**  Whatever the environment is: exactly if, for
settings whose URLs the inner guard accepts, nothing about the test URLs is hidden
from it. -/
theorem guards_iff (env : Environ) :
    Agrees check env
      ↔ ∀ s, Settings.build env = some s → s.environment = "test" →
          (∀ w, Accepted check w (s.url w)) → ∀ w, Seen check env s w := by
  unfold Agrees
  rw [guard_rule_iff]
  constructor
  · intro h s hbuild htest haccepted w
    have hno : ¬ ∃ w, Breaks check w (env.testUrl w) := by
      intro hbreaks
      obtain ⟨v, hv⟩ := h hbreaks s hbuild htest
      exact nomatch hv.symm.trans ((assertTestIsolation_ok_iff s htest).mpr haccepted)
    refine ⟨fun hsame hprod => hno ⟨w, ?_⟩, fun _ hbreaks => hno ⟨w, hbreaks⟩⟩
    obtain ⟨parsed, hparse, hp⟩ := hprod
    refine ⟨fun hempty => ?_, parsed, hparse, Or.inr (Or.inl hp)⟩
    have hread := haccepted w
    rw [hsame, hempty] at hread
    exact not_accepted_empty w hread
  · intro h hbreaks s hbuild htest
    obtain ⟨w, hurl, parsed, hparse, hrule⟩ := hbreaks
    cases hassert : assertTestIsolation check s with
    | error v => exact ⟨v, rfl⟩
    | ok _ =>
        have haccepted := (assertTestIsolation_ok_iff s htest).mp hassert
        obtain ⟨hread, hhidden⟩ := h s hbuild htest haccepted w
        by_cases hsame : s.url w = env.testUrl w
        · -- the same URL: it can only be the name of the host
          obtain ⟨parsed', hparse', hmanaged, htarget⟩ := haccepted w
          rw [hsame, hparse] at hparse'
          obtain rfl := Except.ok.inj hparse'
          rcases hrule with hm | hp | ht
          · exact absurd hm hmanaged
          · exact absurd ⟨parsed, hparse, hp⟩ (hread hsame)
          · exact absurd ht htarget
        · exact absurd ⟨hurl, parsed, hparse, hrule⟩ (hhidden hsame)

/-- A test database on a production host. -/
def prodHost : Environ where
  vars := [("ENVIRONMENT", "test"),
    ("TEST_DATABASE_URL", "postgresql+asyncpg://nimbus@db-prod.internal:5432/nimbus_test"),
    ("TEST_REDIS_URL", "redis://127.0.0.1:6379/1")]
  nodup := by decide

/-- The outer guard exits, the inner one lets it pass. -/
theorem guards_differ : ¬ ∀ (check : NetlocCheck) (env : Environ), Agrees check env := by
  intro h
  have hrule : HasRule (guardTestIsolation (fun _ => none) prodHost "test") :=
    List.any_eq_true.mp (by decide +kernel)
  have hbuild : Settings.build prodHost = some ⟨"test",
      "postgresql+asyncpg://nimbus@db-prod.internal:5432/nimbus_test", "redis://127.0.0.1:6379/1"⟩ := by
    decide +kernel
  have hpass : assertTestIsolation (fun _ => none) ⟨"test",
      "postgresql+asyncpg://nimbus@db-prod.internal:5432/nimbus_test", "redis://127.0.0.1:6379/1"⟩
        = .ok () := by
    decide +kernel
  obtain ⟨v, hv⟩ := h _ prodHost hrule _ hbuild rfl
  exact nomatch hv.symm.trans hpass

end Nimbus.TestIsolation
