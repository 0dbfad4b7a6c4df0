/-
  Nimbus.Modules.Security
  ───────────────────────
  **ACCESS AND REFRESH TOKENS.**

  A token is the signed dict of its claims.  Signing is a parameter (`Jwt`):
  what was encoded is decoded, and the configured checks are made on it, in the
  order PyJWT makes them.  Clock readings are rationals, claims JSON values;
  `int` of a float, `str` of anything but a string and the digits of other scripts
  are parameters too.

    • `buildPayload`, `createAccessToken`, `createRefreshToken`
    • `verify`, `decode`, `decodeAccessToken`, `decodeRefreshToken`
    • `Compatible`   — extra claims that leave the standard ones as they are read;
    • `verify_ok`    — **when the configured checks pass**;
    • `roundTrip_iff` — **a token behaves as its kind promises exactly when its
                       extra claims are compatible.**
-/
import Nimbus.Core.Exceptions
import Nimbus.Core.PyInt
import Mathlib.Data.Rat.Floor

namespace Nimbus.Security

/-! ## §1. Minting. -/

/-- The settings for tokens. -/
structure Settings where
  jwt_issuer : String
  jwt_audience : String
  jwt_access_token_ttl_seconds : Int
  jwt_refresh_token_ttl_seconds : Int

inductive TokenType where
  | access
  | refresh
deriving DecidableEq

def TokenType.value : TokenType → String
  | .access => "access"
  | .refresh => "refresh"

/-- The claims of a token. -/
abbrev Claims := List (String × Json)

/-- A dict of extra claims: no key twice. -/
structure ExtraClaims where
  items : Claims
  nodup : (items.map Prod.fst).Nodup

/-- The claims `_build_payload` starts from; `now` is `int(time.time())`. -/
def standardClaims (s : Settings) (now : Int) (jti subject : String) (token_type : TokenType)
    (ttl_seconds : Int) : Claims :=
  [("sub", .str subject), ("typ", .str token_type.value), ("iat", .int now), ("nbf", .int now),
    ("exp", .int (now + ttl_seconds)), ("jti", .str jti), ("iss", .str s.jwt_issuer),
    ("aud", .str s.jwt_audience)]

/-- `_build_payload`. -/
def buildPayload (s : Settings) (clock : ℚ) (jti subject : String) (token_type : TokenType)
    (ttl_seconds : Int) (extra : ExtraClaims) : Claims :=
  dictUpdate (standardClaims s ⌊clock⌋ jti subject token_type ttl_seconds) extra.items

/-! ## §2. Reading a claim. -/

/-- What the modelled Python needs to know of floats, of `str` and of the digits of
other scripts: `int` of the float a text denotes, `str` of a value that is no
string, and the value of a decimal digit. -/
structure Conversions where
  intOfFloat : String → Except Exn Int
  strOf : Json → String
  digit : PyInt.Digit

/-- `int(claim)`. -/
def intOf (conv : Conversions) : Json → Except Exn Int
  | .int n => .ok n
  | .bool b => .ok (if b then 1 else 0)
  | .float text => conv.intOfFloat text
  | .str text =>
      match PyInt.ofText conv.digit text.toList with
      | some n => .ok n
      | none => .error ⟨.valueError, "invalid literal for int() with base 10", []⟩
  | _ => .error ⟨.typeError, "int() argument must be a string, a bytes-like object or a real number", []⟩

/-- `str(claim)`. -/
def strOf (conv : Conversions) : Json → String
  | .str text => text
  | j => conv.strOf j

/-! ## §3. The configured checks. -/

/-- How `jwt.decode` fails: an error of its own, by the `except` clause that
takes it, or an exception it lets through. -/
inductive JwtFault where
  | expiredSignature
  | invalidAudience
  | invalidIssuer
  | invalidToken
  | through (exc : Exn)

/-- A time claim, which has to be an integer. -/
def timeClaim (conv : Conversions) (j : Json) : Except JwtFault Int :=
  match intOf conv j with
  | .ok n => .ok n
  | .error exc => if exc.isA .valueError then .error .invalidToken else .error (.through exc)

/-- `options["require"]`. -/
def requiredClaims : List String := ["sub", "typ", "iat", "exp", "jti", "iss", "aud"]

/-- The claim is there and not null. -/
def present (claims : Claims) (k : String) : Bool :=
  match dictGet claims k with
  | some .null => false
  | some _ => true
  | none => false

def checkRequired (claims : Claims) : Except JwtFault Unit :=
  if requiredClaims.all (present claims) then .ok () else .error .invalidToken

/-- `iat` and `nbf` must not lie in the future. -/
def checkNotBefore (conv : Conversions) (now : ℚ) (claim : Option Json) : Except JwtFault Unit :=
  match claim with
  | none => .ok ()
  | some j =>
      match timeClaim conv j with
      | .error fault => .error fault
      | .ok n => if now < n then .error .invalidToken else .ok ()

def checkExpiry (conv : Conversions) (now : ℚ) (claim : Option Json) : Except JwtFault Unit :=
  match claim with
  | none => .ok ()
  | some j =>
      match timeClaim conv j with
      | .error fault => .error fault
      | .ok n => if (n : ℚ) ≤ now then .error .expiredSignature else .ok ()

def checkIssuer (s : Settings) (claim : Option Json) : Except JwtFault Unit :=
  match claim with
  | some (.str iss) => if iss = s.jwt_issuer then .ok () else .error .invalidIssuer
  | some _ => .error .invalidIssuer
  | none => .error .invalidToken

/-- The strings of a list of strings. -/
def stringsOf : List Json → Option (List String)
  | [] => some []
  | .str a :: xs => (stringsOf xs).map (a :: ·)
  | _ :: _ => none

/-- `bool(claim)`. -/
def truthy : Json → Bool
  | .null => false
  | .bool b => b
  | .int n => decide (n ≠ 0)
  | .float text => decide (text ≠ "0.0" ∧ text ≠ "-0.0")
  | .str text => decide (text ≠ "")
  | .arr xs => !xs.isEmpty
  | .obj fields => !fields.isEmpty

def checkAudience (s : Settings) (claim : Option Json) : Except JwtFault Unit :=
  match claim with
  | none => .error .invalidToken
  | some j =>
      -- an empty audience counts as a missing one
      if truthy j = false then .error .invalidToken
      else match j with
        | .str aud => if aud = s.jwt_audience then .ok () else .error .invalidAudience
        | .arr xs =>
            match stringsOf xs with
            | some auds => if s.jwt_audience ∈ auds then .ok () else .error .invalidAudience
            | none => .error .invalidAudience
        | _ => .error .invalidAudience

/-- `sub` and `jti` must be strings. -/
def checkString (claim : Option Json) : Except JwtFault Unit :=
  match claim with
  | some (.str _) => .ok ()
  | some _ => .error .invalidToken
  | none => .ok ()

/-- The checks of `jwt.decode`, in their order. -/
def verify (s : Settings) (conv : Conversions) (now : ℚ) (claims : Claims) :
    Except JwtFault Unit := do
  checkRequired claims
  checkNotBefore conv now (dictGet claims "iat")
  checkNotBefore conv now (dictGet claims "nbf")
  checkExpiry conv now (dictGet claims "exp")
  checkIssuer s (dictGet claims "iss")
  checkAudience s (dictGet claims "aud")
  checkString (dictGet claims "sub")
  checkString (dictGet claims "jti")

/-- `jwt.encode` and `jwt.decode` with the key and options of this module. -/
structure Jwt (s : Settings) (conv : Conversions) (Token : Type) where
  encode : Claims → Except Exn Token
  decode : ℚ → Token → Except JwtFault Claims
  /-- What was encoded is decoded, if it passes the checks. -/
  decode_encode : ∀ {claims : Claims} {token : Token}, encode claims = .ok token →
    ∀ now, decode now token = (verify s conv now claims).map fun _ => claims

/-! ## §4. Tokens. -/

/-- `TokenClaims`. -/
structure TokenClaims where
  subject : String
  token_type : TokenType
  issued_at : Int
  expires_at : Int
  jti : String
  issuer : String
  audience : String
  raw : Claims

def tokenError (msg : String) : Exn := ⟨.tokenError, msg, []⟩

/-- What `_decode` raises for a failure of `jwt.decode`. -/
def JwtFault.exn : JwtFault → Exn
  | .expiredSignature => tokenError "Token has expired."
  | .invalidAudience => tokenError "Token audience is invalid."
  | .invalidIssuer => tokenError "Token issuer is invalid."
  | .invalidToken => tokenError "Token is invalid."
  | .through exc => exc

/-- The `typ` claim as a token type; lists and dicts cannot be looked up. -/
def typeOf : Option Json → Except Exn TokenType
  | some (.str "access") => .ok .access
  | some (.str "refresh") => .ok .refresh
  | some (.arr _) => .error ⟨.typeError, "unhashable type: 'list'", []⟩
  | some (.obj _) => .error ⟨.typeError, "unhashable type: 'dict'", []⟩
  | _ => .error (tokenError "Token type claim is missing or malformed.")

/-- `except (KeyError, ValueError)` around the reading of a claim. -/
def missingClaims {α : Type} (r : Except Exn α) : Except Exn α :=
  match r with
  | .ok a => .ok a
  | .error exc =>
      if exc.isA .valueError then .error (tokenError "Token is missing required claims.")
      else .error exc

/-- A claim that has to be there. -/
def claim (claims : Claims) (k : String) : Except Exn Json :=
  match dictGet claims k with
  | some j => .ok j
  | none => .error (tokenError "Token is missing required claims.")

/-- `TokenClaims(...)` from decoded claims. -/
def readClaims (conv : Conversions) (token_type : TokenType) (claims : Claims) :
    Except Exn TokenClaims := do
  let sub ← claim claims "sub"
  let iat ← claim claims "iat"
  let issued_at ← missingClaims (intOf conv iat)
  let exp ← claim claims "exp"
  let expires_at ← missingClaims (intOf conv exp)
  let jti ← claim claims "jti"
  let iss ← claim claims "iss"
  let aud ← claim claims "aud"
  return ⟨strOf conv sub, token_type, issued_at, expires_at, strOf conv jti, strOf conv iss,
    strOf conv aud, claims⟩

section Tokens

variable {s : Settings} {conv : Conversions} {Token : Type} (jwt : Jwt s conv Token)

/-- `_decode`. -/
def decode (expected_type : TokenType) (now : ℚ) (token : Token) : Except Exn TokenClaims :=
  match jwt.decode now token with
  | .error fault => .error fault.exn
  | .ok decoded => do
      let token_type ← typeOf (dictGet decoded "typ")
      if token_type = expected_type then readClaims conv token_type decoded
      else throw (tokenError ("Expected " ++ expected_type.value ++ " token, got '"
        ++ token_type.value ++ "'."))

/-- `decode_access_token`. -/
def decodeAccessToken (now : ℚ) (token : Token) : Except Exn TokenClaims :=
  decode jwt .access now token

/-- `decode_refresh_token`. -/
def decodeRefreshToken (now : ℚ) (token : Token) : Except Exn TokenClaims :=
  decode jwt .refresh now token

/-- The common body of the two minting functions. -/
def createToken (token_type : TokenType) (default_ttl : Int) (clock : ℚ) (jti subject : String)
    (ttl_seconds : Option Int) (extra : ExtraClaims) : Except Exn Token :=
  let ttl := ttl_seconds.getD default_ttl
  if ttl ≤ 0 then .error ⟨.valueError, "ttl_seconds must be > 0", []⟩
  else jwt.encode (buildPayload s clock jti subject token_type ttl extra)

/-- `create_access_token`. -/
def createAccessToken (clock : ℚ) (jti subject : String) (ttl_seconds : Option Int)
    (extra_claims : ExtraClaims) : Except Exn Token :=
  createToken jwt .access s.jwt_access_token_ttl_seconds clock jti subject ttl_seconds extra_claims

/-- `create_refresh_token`. -/
def createRefreshToken (clock : ℚ) (jti subject : String) (ttl_seconds : Option Int)
    (extra_claims : ExtraClaims) : Except Exn Token :=
  createToken jwt .refresh s.jwt_refresh_token_ttl_seconds clock jti subject ttl_seconds extra_claims

end Tokens

/-! ## §5. When the checks pass. -/

/-- `aud` names the configured audience. -/
def HasAudience (s : Settings) : Json → Prop
  | .str aud => aud ≠ "" ∧ aud = s.jwt_audience
  | .arr xs => ∃ auds, stringsOf xs = some auds ∧ s.jwt_audience ∈ auds
  | _ => False

section Checks

variable {s : Settings} {conv : Conversions} {now : ℚ} {claims : Claims} {j : Json}

theorem timeClaim_ok {n : Int} : timeClaim conv j = .ok n ↔ intOf conv j = .ok n := by
  unfold timeClaim
  cases intOf conv j with
  | ok m =>
      show (Except.ok m : Except JwtFault Int) = .ok n ↔ (Except.ok m : Except Exn Int) = .ok n
      rw [Except.ok.injEq, Except.ok.injEq]
  | error exc =>
      refine iff_of_false (fun hc => ?_) (fun hc => (nomatch hc))
      dsimp only at hc
      split_ifs at hc

theorem checkNotBefore_ok :
    checkNotBefore conv now (some j) = .ok () ↔ ∃ n : Int, intOf conv j = .ok n ∧ (n : ℚ) ≤ now := by
  have hstep : checkNotBefore conv now (some j) = .ok ()
      ↔ ∃ n : Int, timeClaim conv j = .ok n ∧ (n : ℚ) ≤ now := by
    cases ht : timeClaim conv j with
    | error fault => simp [checkNotBefore, ht]
    | ok n =>
        by_cases h : now < n
        · simp [checkNotBefore, ht, h]
        · simp [checkNotBefore, ht, h, not_lt.mp h]
  rw [hstep]
  exact exists_congr fun n => and_congr_left fun _ => timeClaim_ok

theorem checkExpiry_ok :
    checkExpiry conv now (some j) = .ok () ↔ ∃ n : Int, intOf conv j = .ok n ∧ now < n := by
  have hstep : checkExpiry conv now (some j) = .ok ()
      ↔ ∃ n : Int, timeClaim conv j = .ok n ∧ now < n := by
    cases ht : timeClaim conv j with
    | error fault => simp [checkExpiry, ht]
    | ok n =>
        by_cases h : (n : ℚ) ≤ now
        · simp [checkExpiry, ht, h]
        · simp [checkExpiry, ht, h, not_le.mp h]
  rw [hstep]
  exact exists_congr fun n => and_congr_left fun _ => timeClaim_ok

/-- A token past its expiry. -/
theorem checkExpiry_expired {n : Int} (hn : intOf conv j = .ok n) (h : (n : ℚ) ≤ now) :
    checkExpiry conv now (some j) = .error .expiredSignature := by
  have ht : timeClaim conv j = .ok n := timeClaim_ok.mpr hn
  simp [checkExpiry, ht, h]

theorem checkIssuer_ok : checkIssuer s (some j) = .ok () ↔ j = .str s.jwt_issuer := by
  cases j with
  | str iss =>
      show (if iss = s.jwt_issuer then _ else _) = _ ↔ _
      rw [Json.str.injEq]
      split
      next h => exact iff_of_true rfl h
      next h => exact iff_of_false (fun hc => (nomatch hc)) h
  | _ => exact iff_of_false (fun hc => (nomatch hc)) (fun hc => (nomatch hc))

theorem checkString_ok : checkString (some j) = .ok () ↔ ∃ text, j = .str text := by
  cases j with
  | str text => exact iff_of_true rfl ⟨text, rfl⟩
  | _ => exact iff_of_false (fun hc => (nomatch hc)) (fun hc => hc.elim fun _ h => (nomatch h))

theorem checkAudience_ok : checkAudience s (some j) = .ok () ↔ HasAudience s j := by
  unfold checkAudience
  cases j with
  | str aud =>
      show (if truthy (.str aud) = false then _ else if aud = s.jwt_audience then _ else _) = _
        ↔ aud ≠ "" ∧ aud = s.jwt_audience
      -- the empty text is refused as missing before it is compared
      by_cases he : aud = ""
      · simp [truthy, he]
      · by_cases ha : aud = s.jwt_audience
        · simp [truthy, ha ▸ he, ha]
        · simp [truthy, he, ha]
  | arr xs =>
      show _ ↔ ∃ auds, stringsOf xs = some auds ∧ s.jwt_audience ∈ auds
      cases xs with
      | nil => simp [truthy, stringsOf]
      | cons x xs =>
          cases hs : stringsOf (x :: xs) with
          | none => simp [truthy, hs]
          | some auds => simp [truthy, hs]
  | null => exact iff_of_false (fun hc => (nomatch hc)) id
  | bool b => cases b <;> exact iff_of_false (fun hc => (nomatch hc)) id
  | int n =>
      refine iff_of_false (fun hc => ?_) id
      dsimp only at hc
      split_ifs at hc
  | float text =>
      refine iff_of_false (fun hc => ?_) id
      dsimp only at hc
      split_ifs at hc
  | obj fields =>
      refine iff_of_false (fun hc => ?_) id
      dsimp only at hc
      split_ifs at hc

/-- Two checks in a row. -/
theorem seq_ok {x y : Except JwtFault Unit} : (do x; y) = .ok () ↔ x = .ok () ∧ y = .ok () := by
  cases x with
  | error fault => exact iff_of_false (fun hc => (nomatch hc)) (fun hc => (nomatch hc.1))
  | ok u => exact (and_iff_right rfl).symm

theorem verify_ok : verify s conv now claims = .ok ()
    ↔ checkRequired claims = .ok () ∧ checkNotBefore conv now (dictGet claims "iat") = .ok ()
      ∧ checkNotBefore conv now (dictGet claims "nbf") = .ok ()
      ∧ checkExpiry conv now (dictGet claims "exp") = .ok ()
      ∧ checkIssuer s (dictGet claims "iss") = .ok ()
      ∧ checkAudience s (dictGet claims "aud") = .ok ()
      ∧ checkString (dictGet claims "sub") = .ok ()
      ∧ checkString (dictGet claims "jti") = .ok () := by
  unfold verify
  rw [seq_ok, seq_ok, seq_ok, seq_ok, seq_ok, seq_ok, seq_ok]

end Checks

/-! ## §6. Reading a token. -/

section Reading

variable {s : Settings} {conv : Conversions} {Token : Type} {jwt : Jwt s conv Token}
  {claims : Claims} {token : Token} {expected_type : TokenType} {now : ℚ} {c : TokenClaims}

theorem except_bind_ok {ε α β : Type} {x : Except ε α} {f : α → Except ε β} {b : β} :
    (x >>= f) = .ok b ↔ ∃ a, x = .ok a ∧ f a = .ok b := by
  cases x with
  | error e =>
      refine iff_of_false (fun hc => (nomatch hc)) fun hc => ?_
      obtain ⟨a, ha, -⟩ := hc
      exact (nomatch ha)
  | ok a =>
      constructor
      · intro h
        exact ⟨a, rfl, h⟩
      · intro h
        obtain ⟨a', ha, hf⟩ := h
        rw [Except.ok.inj ha]
        exact hf

theorem typeOf_ok {claim : Option Json} {token_type : TokenType} :
    typeOf claim = .ok token_type ↔ claim = some (.str token_type.value) := by
  constructor
  · intro h
    unfold typeOf at h
    split at h
    next =>
      obtain rfl := Except.ok.inj h
      rfl
    next =>
      obtain rfl := Except.ok.inj h
      rfl
    all_goals exact (nomatch h)
  · intro h
    rw [h]
    cases token_type <;> rfl

theorem claim_ok {k : String} {j : Json} : claim claims k = .ok j ↔ dictGet claims k = some j := by
  unfold claim
  cases dictGet claims k with
  | none => exact iff_of_false (fun hc => (nomatch hc)) (fun hc => (nomatch hc))
  | some j' => exact ⟨fun h => congrArg some (Except.ok.inj h), fun h => congrArg Except.ok (Option.some.inj h)⟩

theorem missingClaims_ok {α : Type} {r : Except Exn α} {a : α} :
    missingClaims r = .ok a ↔ r = .ok a := by
  unfold missingClaims
  cases r with
  | ok a' => exact Iff.rfl
  | error exc =>
      refine iff_of_false (fun hc => ?_) (fun hc => (nomatch hc))
      dsimp only at hc
      split_ifs at hc

/-- What is read from decoded claims. -/
theorem readClaims_ok : readClaims conv expected_type claims = .ok c ↔
    ∃ sub iat exp jti iss aud, dictGet claims "sub" = some sub ∧ dictGet claims "iat" = some iat
      ∧ dictGet claims "exp" = some exp ∧ dictGet claims "jti" = some jti
      ∧ dictGet claims "iss" = some iss ∧ dictGet claims "aud" = some aud
      ∧ intOf conv iat = .ok c.issued_at ∧ intOf conv exp = .ok c.expires_at
      ∧ c = ⟨strOf conv sub, expected_type, c.issued_at, c.expires_at, strOf conv jti,
          strOf conv iss, strOf conv aud, claims⟩ := by
  unfold readClaims
  constructor
  · intro h
    -- one bind for each claim read, in the order of the constructor's arguments
    obtain ⟨sub, hsub, h⟩ := except_bind_ok.mp h
    obtain ⟨iat, hiat, h⟩ := except_bind_ok.mp h
    obtain ⟨issued, hissued, h⟩ := except_bind_ok.mp h
    obtain ⟨exp, hexp, h⟩ := except_bind_ok.mp h
    obtain ⟨expires, hexpires, h⟩ := except_bind_ok.mp h
    obtain ⟨jti, hjti, h⟩ := except_bind_ok.mp h
    obtain ⟨iss, hiss, h⟩ := except_bind_ok.mp h
    obtain ⟨aud, haud, h⟩ := except_bind_ok.mp h
    obtain rfl := Except.ok.inj h
    exact ⟨sub, iat, exp, jti, iss, aud, claim_ok.mp hsub, claim_ok.mp hiat, claim_ok.mp hexp,
      claim_ok.mp hjti, claim_ok.mp hiss, claim_ok.mp haud, missingClaims_ok.mp hissued,
      missingClaims_ok.mp hexpires, rfl⟩
  · intro h
    obtain ⟨sub, iat, exp, jti, iss, aud, hsub, hiat, hexp, hjti, hiss, haud, hissued, hexpires, hc⟩ := h
    rw [hc]
    exact except_bind_ok.mpr ⟨sub, claim_ok.mpr hsub, except_bind_ok.mpr ⟨iat, claim_ok.mpr hiat,
      except_bind_ok.mpr ⟨c.issued_at, missingClaims_ok.mpr hissued,
      except_bind_ok.mpr ⟨exp, claim_ok.mpr hexp,
      except_bind_ok.mpr ⟨c.expires_at, missingClaims_ok.mpr hexpires,
      except_bind_ok.mpr ⟨jti, claim_ok.mpr hjti, except_bind_ok.mpr ⟨iss, claim_ok.mpr hiss,
      except_bind_ok.mpr ⟨aud, claim_ok.mpr haud, rfl⟩⟩⟩⟩⟩⟩⟩⟩

/-- **When a token is accepted**: the checks pass, its type is the expected one,
and its claims can be read. -/
theorem decode_ok (h : jwt.encode claims = .ok token) :
    decode jwt expected_type now token = .ok c ↔ verify s conv now claims = .ok ()
      ∧ dictGet claims "typ" = some (.str expected_type.value)
      ∧ readClaims conv expected_type claims = .ok c := by
  unfold decode
  rw [jwt.decode_encode h now]
  -- the library's checks come first: no claim is read of a token that it refuses
  cases hv : verify s conv now claims with
  | error fault => exact iff_of_false (fun hc => (nomatch hc)) (fun hc => (nomatch hc.1))
  | ok u =>
      show (typeOf (dictGet claims "typ") >>= _) = _ ↔ _
      rw [except_bind_ok]
      constructor
      · intro hd
        obtain ⟨token_type, htype, hread⟩ := hd
        by_cases he : token_type = expected_type
        · subst he
          rw [if_pos rfl] at hread
          exact ⟨rfl, typeOf_ok.mp htype, hread⟩
        · rw [if_neg he] at hread
          exact (nomatch hread)
      · intro hd
        refine ⟨expected_type, typeOf_ok.mpr hd.2.1, ?_⟩
        rw [if_pos rfl]
        exact hd.2.2

end Reading

/-! ## §7. Round trips. -/

section RoundTrip

variable {s : Settings} {conv : Conversions} {Token : Type}

/-- What a minted token owes: until it expires it is accepted with what it was
minted for, from then on it is refused, and as the other kind it never is
accepted. -/
structure RoundTrip (accept other : ℚ → Token → Except Exn TokenClaims) (token_type : TokenType)
    (subject : String) (clock : ℚ) (ttl : Int) (token : Token) : Prop where
  accepted : ∀ now : ℚ, clock ≤ now → now < ((⌊clock⌋ + ttl : Int) : ℚ) →
    ∃ c, accept now token = .ok c ∧ c.subject = subject ∧ c.token_type = token_type
      ∧ c.issued_at = ⌊clock⌋ ∧ c.expires_at = ⌊clock⌋ + ttl
  expired : ∀ now : ℚ, ((⌊clock⌋ + ttl : Int) : ℚ) ≤ now →
    ∃ exc, accept now token = .error exc ∧ exc.cls = .tokenError
  separate : ∀ now c, other now token ≠ .ok c

/-- Claims that are read as the standard ones are. -/
structure Kept (s : Settings) (conv : Conversions) (subject : String) (token_type : TokenType)
    (t ttl : Int) (claims : Claims) : Prop where
  sub : ∃ j, dictGet claims "sub" = some j ∧ j = .str subject
  typ : ∃ j, dictGet claims "typ" = some j ∧ j = .str token_type.value
  iat : ∃ j, dictGet claims "iat" = some j ∧ intOf conv j = .ok t
  nbf : ∃ j, dictGet claims "nbf" = some j ∧ ∃ n ≤ t, intOf conv j = .ok n
  exp : ∃ j, dictGet claims "exp" = some j ∧ intOf conv j = .ok (t + ttl)
  jti : ∃ j, dictGet claims "jti" = some j ∧ ∃ text, j = .str text
  iss : ∃ j, dictGet claims "iss" = some j ∧ j = .str s.jwt_issuer
  aud : ∃ j, dictGet claims "aud" = some j ∧ HasAudience s j

/-- A time is a rational between two integers. -/
theorem floor_facts {clock now : ℚ} (h : clock ≤ now) {n : Int} (hn : n ≤ ⌊clock⌋) : (n : ℚ) ≤ now :=
  (Int.le_floor.mp hn).trans h

theorem present_of_get {claims : Claims} {k : String} {j : Json} (h : dictGet claims k = some j)
    (hj : j ≠ .null) : present claims k = true := by
  unfold present
  rw [h]
  cases j with
  | null => exact absurd rfl hj
  | _ => rfl

theorem intOf_ne_null {j : Json} {n : Int} (h : intOf conv j = .ok n) : j ≠ .null := by
  intro hc
  rw [hc] at h
  exact (nomatch h)

section Kept

variable {subject : String} {token_type : TokenType} {clock now : ℚ} {t ttl : Int} {claims : Claims}

theorem Kept.required (h : Kept s conv subject token_type t ttl claims) :
    checkRequired claims = .ok () := by
  obtain ⟨⟨_, hsub, rfl⟩, ⟨_, htyp, rfl⟩, ⟨iat, hiat, hiat'⟩, -, ⟨exp, hexp, hexp'⟩,
    ⟨_, hjti, _, rfl⟩, ⟨_, hiss, rfl⟩, aud, haud, haud'⟩ := h
  have hne : aud ≠ .null := fun hc => by rw [hc] at haud'; exact haud'.elim
  unfold checkRequired
  rw [if_pos]
  simp only [requiredClaims, List.all_cons, List.all_nil, Bool.and_true, Bool.and_eq_true]
  exact ⟨present_of_get hsub (nofun), present_of_get htyp (nofun),
    present_of_get hiat (intOf_ne_null hiat'), present_of_get hexp (intOf_ne_null hexp'),
    present_of_get hjti (nofun), present_of_get hiss (nofun), present_of_get haud hne⟩

/-- Before their expiry such claims pass the checks. -/
theorem Kept.verified (h : Kept s conv subject token_type ⌊clock⌋ ttl claims) (hnow : clock ≤ now)
    (hexp : now < ((⌊clock⌋ + ttl : Int) : ℚ)) : verify s conv now claims = .ok () := by
  have hrequired := h.required
  obtain ⟨⟨_, hsub, rfl⟩, -, ⟨iat, hiat, hiat'⟩, ⟨nbf, hnbf, n, hn, hnbf'⟩, ⟨exp, hexp', hexp''⟩,
    ⟨_, hjti, _, rfl⟩, ⟨_, hiss, rfl⟩, aud, haud, haud'⟩ := h
  rw [verify_ok, hiat, hnbf, hexp', hiss, haud, hsub, hjti]
  exact ⟨hrequired, checkNotBefore_ok.mpr ⟨_, hiat', floor_facts hnow le_rfl⟩,
    checkNotBefore_ok.mpr ⟨n, hnbf', floor_facts hnow hn⟩, checkExpiry_ok.mpr ⟨_, hexp'', hexp⟩,
    checkIssuer_ok.mpr rfl, checkAudience_ok.mpr haud', checkString_ok.mpr ⟨_, rfl⟩,
    checkString_ok.mpr ⟨_, rfl⟩⟩

/-- From then on the signature counts as expired. -/
theorem Kept.verify_expired (h : Kept s conv subject token_type ⌊clock⌋ ttl claims) (httl : 0 < ttl)
    (hexp : ((⌊clock⌋ + ttl : Int) : ℚ) ≤ now) :
    verify s conv now claims = .error .expiredSignature := by
  have hrequired := h.required
  have hnow : ∀ n ≤ ⌊clock⌋, (n : ℚ) ≤ now := by
    intro n hn
    have hlt : (n : ℚ) ≤ ((⌊clock⌋ + ttl : Int) : ℚ) := Int.cast_le.mpr (by omega)
    exact hlt.trans hexp
  obtain ⟨-, -, ⟨iat, hiat, hiat'⟩, ⟨nbf, hnbf, n, hn, hnbf'⟩, ⟨exp, hexp', hexp''⟩, -, -, -⟩ := h
  have hiat_ok : checkNotBefore conv now (some iat) = .ok () :=
    checkNotBefore_ok.mpr ⟨_, hiat', hnow _ le_rfl⟩
  have hnbf_ok : checkNotBefore conv now (some nbf) = .ok () :=
    checkNotBefore_ok.mpr ⟨n, hnbf', hnow n hn⟩
  unfold verify
  rw [hrequired, hiat, hnbf, hexp', hiat_ok, hnbf_ok, checkExpiry_expired hexp'' hexp]
  rfl

/-- A token that is accepted at its minting, with what it was minted for, has
such claims. -/
theorem Kept.of_accepted {c : TokenClaims} {nbf : Json} (hnbf : dictGet claims "nbf" = some nbf)
    (hverify : verify s conv clock claims = .ok ())
    (htyp : dictGet claims "typ" = some (.str token_type.value))
    (hread : readClaims conv token_type claims = .ok c) (hissued : c.issued_at = ⌊clock⌋)
    (hexpires : c.expires_at = ⌊clock⌋ + ttl) :
    Kept s conv c.subject token_type ⌊clock⌋ ttl claims := by
  obtain ⟨-, -, hnbf', -, hiss, haud, hsub, hjti⟩ := verify_ok.mp hverify
  obtain ⟨sub, iat, exp, jti, iss, aud, gsub, giat, gexp, gjti, giss, gaud, hiat, hexp, hc⟩ :=
    readClaims_ok.mp hread
  -- both halves read the same claims, so each check is about the value that was read
  rw [gsub] at hsub
  rw [gjti] at hjti
  rw [giss] at hiss
  rw [gaud] at haud
  rw [hnbf] at hnbf'
  obtain ⟨text, rfl⟩ := checkString_ok.mp hsub
  obtain ⟨n, hn, hle⟩ := checkNotBefore_ok.mp hnbf'
  refine ⟨⟨_, gsub, ?_⟩, ⟨_, htyp, rfl⟩, ⟨iat, giat, hissued ▸ hiat⟩,
    ⟨nbf, hnbf, n, Int.le_floor.mpr hle, hn⟩, ⟨exp, gexp, hexpires ▸ hexp⟩,
    ⟨jti, gjti, checkString_ok.mp hjti⟩, ⟨iss, giss, checkIssuer_ok.mp hiss⟩,
    ⟨aud, gaud, checkAudience_ok.mp haud⟩⟩
  rw [hc]
  rfl

end Kept

/-- **A round trip is a matter of the claims.** -/
theorem roundTrip_kept {jwt : Jwt s conv Token} {claims : Claims} {token : Token}
    (henc : jwt.encode claims = .ok token) {nbf : Json} (hnbf : dictGet claims "nbf" = some nbf)
    {token_type other : TokenType} (hother : other ≠ token_type) {subject : String} {clock : ℚ}
    {ttl : Int} (httl : 0 < ttl) :
    RoundTrip (decode jwt token_type) (decode jwt other) token_type subject clock ttl token
      ↔ Kept s conv subject token_type ⌊clock⌋ ttl claims := by
  constructor
  · intro h
    -- the minting itself is before the expiry
    have hmint : clock < ((⌊clock⌋ + ttl : Int) : ℚ) := by
      have hfloor : clock < ((⌊clock⌋ + 1 : Int) : ℚ) := by
        rw [Int.cast_add, Int.cast_one]
        exact Int.lt_floor_add_one clock
      have hle : ((⌊clock⌋ + 1 : Int) : ℚ) ≤ ((⌊clock⌋ + ttl : Int) : ℚ) := Int.cast_le.mpr (by omega)
      exact hfloor.trans_le hle
    obtain ⟨c, hdec, rfl, -, hissued, hexpires⟩ := h.accepted clock le_rfl hmint
    obtain ⟨hverify, htyp, hread⟩ := (decode_ok henc).mp hdec
    exact Kept.of_accepted hnbf hverify htyp hread hissued hexpires
  · intro h
    refine ⟨fun now hnow hexp => ?_, fun now hexp => ?_, fun now c hc => ?_⟩
    · obtain ⟨_, gsub, rfl⟩ := h.sub
      obtain ⟨_, gtyp, rfl⟩ := h.typ
      obtain ⟨iat, giat, hiat⟩ := h.iat
      obtain ⟨exp, gexp, hexp'⟩ := h.exp
      obtain ⟨jti, gjti, -⟩ := h.jti
      obtain ⟨iss, giss, -⟩ := h.iss
      obtain ⟨aud, gaud, -⟩ := h.aud
      refine ⟨⟨subject, token_type, ⌊clock⌋, ⌊clock⌋ + ttl, strOf conv jti, strOf conv iss,
        strOf conv aud, claims⟩, (decode_ok henc).mpr ⟨h.verified hnow hexp, gtyp, ?_⟩,
        rfl, rfl, rfl, rfl⟩
      exact readClaims_ok.mpr ⟨_, iat, exp, jti, iss, aud, gsub, giat, gexp, gjti, giss, gaud,
        hiat, hexp', rfl⟩
    · refine ⟨tokenError "Token has expired.", ?_, rfl⟩
      unfold decode
      rw [jwt.decode_encode henc now, h.verify_expired httl hexp]
      rfl
    · -- the type claim names one kind only
      obtain ⟨-, htyp, -⟩ := (decode_ok henc).mp hc
      obtain ⟨_, gtyp, rfl⟩ := h.typ
      rw [gtyp] at htyp
      have hvalue : token_type.value = other.value := Json.str.inj (Option.some.inj htyp)
      cases token_type <;> cases other <;> first | exact hother rfl | exact absurd hvalue (by decide)

/-! ## §8. Extra claims. -/

/-- Extra claims that leave the standard ones as they are read: where one of
them has the name of a standard claim, its value says the same. -/
structure Compatible (s : Settings) (conv : Conversions) (subject : String)
    (token_type : TokenType) (t ttl : Int) (extra : ExtraClaims) : Prop where
  sub : ∀ j, dictGet extra.items "sub" = some j → j = .str subject
  typ : ∀ j, dictGet extra.items "typ" = some j → j = .str token_type.value
  iat : ∀ j, dictGet extra.items "iat" = some j → intOf conv j = .ok t
  nbf : ∀ j, dictGet extra.items "nbf" = some j → ∃ n ≤ t, intOf conv j = .ok n
  exp : ∀ j, dictGet extra.items "exp" = some j → intOf conv j = .ok (t + ttl)
  jti : ∀ j, dictGet extra.items "jti" = some j → ∃ text, j = .str text
  iss : ∀ j, dictGet extra.items "iss" = some j → j = .str s.jwt_issuer
  aud : HasAudience s ((dictGet extra.items "aud").getD (.str s.jwt_audience))

/-- A claim after the extra ones: the extra one, if there is one. -/
theorem dictGet_buildPayload (clock : ℚ) (jti subject : String) (token_type : TokenType) (ttl : Int)
    (extra : ExtraClaims) (k : String) :
    dictGet (buildPayload s clock jti subject token_type ttl extra) k
      = (dictGet extra.items k).or
          (dictGet (standardClaims s ⌊clock⌋ jti subject token_type ttl) k) := by
  unfold buildPayload
  rw [dictGet_dictUpdate, dictGet_reverse extra.nodup]

/-- A claim with a standard value that is fine is fine unless an extra one is not. -/
theorem overridden {o : Option Json} {b : Json} (P : Json → Prop) (hb : P b) :
    (∃ j, o.or (some b) = some j ∧ P j) ↔ ∀ j, o = some j → P j := by
  cases o with
  | none => exact iff_of_true ⟨b, rfl, hb⟩ fun j hj => (nomatch hj)
  | some j =>
      constructor
      · intro h j' hj'
        obtain ⟨j'', hj'', hp⟩ := h
        obtain rfl := Option.some.inj hj'
        rw [Option.some.inj hj'']
        exact hp
      · intro h
        exact ⟨j, rfl, h j rfl⟩

theorem kept_iff_compatible {clock : ℚ} (jti : String) {subject : String} {token_type : TokenType} {ttl : Int}
    {extra : ExtraClaims} :
    Kept s conv subject token_type ⌊clock⌋ ttl
        (buildPayload s clock jti subject token_type ttl extra)
      ↔ Compatible s conv subject token_type ⌊clock⌋ ttl extra := by
  have hget := dictGet_buildPayload (s := s) clock jti subject token_type ttl extra
  -- the audience may be a list, so the default is tested by `HasAudience` and not by equality
  have haud : ∀ o : Option Json, (∃ j, o.or (some (.str s.jwt_audience)) = some j ∧ HasAudience s j)
      ↔ HasAudience s (o.getD (.str s.jwt_audience)) := by
    intro o
    cases o <;> simp
  constructor
  · intro h
    -- a claim reads as it should exactly when no extra claim replaces it by one that does not
    obtain ⟨hsub, htyp, hiat, hnbf, hexp, hjti, hiss, haud'⟩ := h
    rw [hget] at hsub htyp hiat hnbf hexp hjti hiss haud'
    exact ⟨(overridden (· = .str subject) rfl).mp hsub,
      (overridden (· = .str token_type.value) rfl).mp htyp,
      (overridden (intOf conv · = .ok ⌊clock⌋) rfl).mp hiat,
      (overridden (fun j => ∃ n ≤ ⌊clock⌋, intOf conv j = .ok n) ⟨_, le_rfl, rfl⟩).mp hnbf,
      (overridden (intOf conv · = .ok (⌊clock⌋ + ttl)) rfl).mp hexp,
      (overridden (fun j => ∃ text, j = .str text) ⟨_, rfl⟩).mp hjti,
      (overridden (· = .str s.jwt_issuer) rfl).mp hiss, (haud _).mp haud'⟩
  · intro h
    constructor
    · rw [hget]
      exact (overridden (· = .str subject) rfl).mpr h.sub
    · rw [hget]
      exact (overridden (· = .str token_type.value) rfl).mpr h.typ
    · rw [hget]
      exact (overridden (intOf conv · = .ok ⌊clock⌋) rfl).mpr h.iat
    · rw [hget]
      exact (overridden (fun j => ∃ n ≤ ⌊clock⌋, intOf conv j = .ok n) ⟨_, le_rfl, rfl⟩).mpr h.nbf
    · rw [hget]
      exact (overridden (intOf conv · = .ok (⌊clock⌋ + ttl)) rfl).mpr h.exp
    · rw [hget]
      exact (overridden (fun j => ∃ text, j = .str text) ⟨_, rfl⟩).mpr h.jti
    · rw [hget]
      exact (overridden (· = .str s.jwt_issuer) rfl).mpr h.iss
    · rw [hget]
      exact (haud _).mpr h.aud

/-- A minted token of either kind. -/
theorem createToken_roundTrip {jwt : Jwt s conv Token} {token_type other : TokenType}
    (hother : other ≠ token_type) {default_ttl : Int} {clock : ℚ} {jti subject : String}
    {ttl_seconds : Option Int} {extra : ExtraClaims} {token : Token}
    (h : createToken jwt token_type default_ttl clock jti subject ttl_seconds extra = .ok token) :
    RoundTrip (decode jwt token_type) (decode jwt other) token_type subject clock
        (ttl_seconds.getD default_ttl) token
      ↔ Compatible s conv subject token_type ⌊clock⌋ (ttl_seconds.getD default_ttl) extra := by
  unfold createToken at h
  by_cases httl : ttl_seconds.getD default_ttl ≤ 0
  · simp only [if_pos httl] at h
    exact (nomatch h)
  · simp only [if_neg httl] at h
    -- `nbf` is always there: the payload sets it before the extra claims are merged in
    have hnbf : ∃ nbf, dictGet (buildPayload s clock jti subject token_type
        (ttl_seconds.getD default_ttl) extra) "nbf" = some nbf := by
      rw [dictGet_buildPayload]
      cases dictGet extra.items "nbf" with
      | none => exact ⟨_, rfl⟩
      | some nbf => exact ⟨nbf, rfl⟩
    obtain ⟨nbf, hnbf⟩ := hnbf
    rw [← kept_iff_compatible jti]
    exact roundTrip_kept h hnbf hother (by omega)

/-- **Every minted token keeps its promise** exactly when the extra claims leave
the standard ones as they are read. -/
theorem roundTrip_iff (jwt : Jwt s conv Token) (clock : ℚ) (jti subject : String)
    (ttl_seconds : Option Int) (extra_claims : ExtraClaims) (token : Token) :
    (createAccessToken jwt clock jti subject ttl_seconds extra_claims = .ok token →
      (RoundTrip (decodeAccessToken jwt) (decodeRefreshToken jwt) .access subject clock
          (ttl_seconds.getD s.jwt_access_token_ttl_seconds) token
        ↔ Compatible s conv subject .access ⌊clock⌋
            (ttl_seconds.getD s.jwt_access_token_ttl_seconds) extra_claims))
    ∧ (createRefreshToken jwt clock jti subject ttl_seconds extra_claims = .ok token →
      (RoundTrip (decodeRefreshToken jwt) (decodeAccessToken jwt) .refresh subject clock
          (ttl_seconds.getD s.jwt_refresh_token_ttl_seconds) token
        ↔ Compatible s conv subject .refresh ⌊clock⌋
            (ttl_seconds.getD s.jwt_refresh_token_ttl_seconds) extra_claims)) :=
  ⟨fun h => createToken_roundTrip (by decide) h, fun h => createToken_roundTrip (by decide) h⟩

end RoundTrip

/-! ### An extra claim named `typ`. -/

/-- The settings of the application. -/
def nimbusTokens : Settings := ⟨"nimbus", "nimbus-api", 900, 604800⟩

/-- No float and no `str` of a list comes up below. -/
def noFloats : Conversions :=
  ⟨fun _ => .error ⟨.valueError, "", []⟩, fun _ => "", PyInt.asciiDigit⟩

/-- Signing that hands the claims over as they are. -/
def plainJwt : Jwt nimbusTokens noFloats Claims where
  encode claims :=
    match dictGet claims "iss" with
    | some (.str _) | none => .ok claims
    | some _ => .error ⟨.typeError, "Issuer (iss) must be a string.", []⟩
  decode now token := (verify nimbusTokens noFloats now token).map fun _ => token
  decode_encode := by
    intro claims token h now
    have htoken : token = claims := by
      split at h
      next => exact (Except.ok.inj h).symm
      next => exact (Except.ok.inj h).symm
      next => exact (nomatch h)
    rw [htoken]

/-- The extra claim. -/
def typRefresh : ExtraClaims := ⟨[("typ", .str "refresh")], List.nodup_singleton _⟩

/-- The claims of an access token minted with it. -/
def typRefreshToken : Claims :=
  buildPayload nimbusTokens 1700000000 "5f0c" "user-1" .access 900 typRefresh

theorem typRefreshToken_kept :
    Kept nimbusTokens noFloats "user-1" .refresh ⌊(1700000000 : ℚ)⌋ 900 typRefreshToken :=
  ⟨⟨_, rfl, rfl⟩, ⟨_, rfl, rfl⟩, ⟨_, rfl, rfl⟩, ⟨_, rfl, _, le_rfl, rfl⟩, ⟨_, rfl, rfl⟩,
    ⟨_, rfl, _, rfl⟩, ⟨_, rfl, rfl⟩, ⟨_, rfl, by decide, rfl⟩⟩

/-- `create_access_token` mints a token that `decode_refresh_token` accepts. -/
theorem roundTrip_fails :
    createAccessToken plainJwt 1700000000 "5f0c" "user-1" none typRefresh = .ok typRefreshToken
      ∧ (∃ c, decodeRefreshToken plainJwt 1700000000 typRefreshToken = .ok c ∧ c.subject = "user-1")
      ∧ ¬ RoundTrip (decodeAccessToken plainJwt) (decodeRefreshToken plainJwt) .access "user-1"
          1700000000 900 typRefreshToken := by
  have hmint : createAccessToken plainJwt 1700000000 "5f0c" "user-1" none typRefresh
      = .ok typRefreshToken := rfl
  have henc : plainJwt.encode typRefreshToken = .ok typRefreshToken := rfl
  have hnbf : dictGet typRefreshToken "nbf" = some (.int ⌊(1700000000 : ℚ)⌋) := rfl
  have hother : TokenType.access ≠ .refresh := by decide
  have hrefresh := (roundTrip_kept henc hnbf hother (by decide)).mpr typRefreshToken_kept
  obtain ⟨c, hc, hsub, -⟩ := hrefresh.accepted 1700000000 le_rfl (by norm_num)
  exact ⟨hmint, ⟨c, hc, hsub⟩, fun h => h.separate _ _ hc⟩

theorem roundTrip_iff_typRefresh :
    (RoundTrip (decodeAccessToken plainJwt) (decodeRefreshToken plainJwt) .access "user-1"
        1700000000 900 typRefreshToken
      ↔ Compatible nimbusTokens noFloats "user-1" .access ⌊(1700000000 : ℚ)⌋ 900 typRefresh)
    ∧ (RoundTrip (decodeRefreshToken plainJwt) (decodeAccessToken plainJwt) .refresh "user-1"
        1700000000 604800
        (buildPayload nimbusTokens 1700000000 "5f0c" "user-1" .refresh 604800 typRefresh)
      ↔ Compatible nimbusTokens noFloats "user-1" .refresh ⌊(1700000000 : ℚ)⌋ 604800 typRefresh) :=
  ⟨(roundTrip_iff plainJwt 1700000000 "5f0c" "user-1" none typRefresh typRefreshToken).1 rfl,
    (roundTrip_iff plainJwt 1700000000 "5f0c" "user-1" none typRefresh _).2 rfl⟩

end Nimbus.Security
