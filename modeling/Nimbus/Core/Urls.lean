/-
  Nimbus.Core.Urls
  ────────────────
  **URLS, AS `urllib.parse` READS THEM.**

  Texts are lists of characters here.  Two checks of the host are left to a
  parameter: that what stands in brackets is an IPv6 address, and that no
  character of it turns into a separator under NFKC normalisation.

    • `urlsplit`, `urlparse`
    • `ParseResult.hostname` — the host, in lower case.
-/
import Nimbus.Core.ErrorResponses

namespace Nimbus.Urls

/-! ## §1. Parts of a text. -/

/-- `s.partition(c)[0]`. -/
def before (c : Char) (s : List Char) : List Char := s.takeWhile (· != c)

/-- `s.partition(c)[2]`. -/
def after (c : Char) (s : List Char) : List Char := (s.dropWhile (· != c)).drop 1

/-- `s.rpartition(c)[2]`. -/
def afterLast (c : Char) (s : List Char) : List Char := (s.reverse.takeWhile (· != c)).reverse

/-! ## §2. Parsing. -/

structure ParseResult where
  scheme : List Char
  netloc : List Char
  path : List Char
  params : List Char
  query : List Char
  fragment : List Char

/-- What is refused of a host: the message of the ValueError. -/
abbrev NetlocCheck := List Char → Option String

/-- The scheme, if there is one, and what comes after it. -/
def splitScheme (url : List Char) : List Char × List Char :=
  match before ':' url with
  | [] => ([], url)
  | c :: rest =>
      if ':' ∈ url ∧ c.isAlpha ∧ (c :: rest).all fun c => c.isAlphanum || c ∈ ['+', '-', '.'] then
        ((c :: rest).map Char.toLower, after ':' url)
      else ([], url)

/-- `_splitnetloc`, where there is a netloc. -/
def splitNetloc : List Char → List Char × List Char
  | '/' :: '/' :: url =>
      (url.takeWhile fun c => c ∉ ['/', '?', '#'], url.dropWhile fun c => c ∉ ['/', '?', '#'])
  | url => ([], url)

/-- `urlsplit`. -/
def urlsplit (check : NetlocCheck) (url : List Char) : Except String ParseResult :=
  -- leading control characters and spaces, and all tabs and ends of lines
  let url := (url.dropWhile (· ≤ ' ')).filter fun c => c ∉ ['\t', '\r', '\n']
  let (scheme, url) := splitScheme url
  let (netloc, url) := splitNetloc url
  if ('[' ∈ netloc ∧ ']' ∉ netloc) ∨ (']' ∈ netloc ∧ '[' ∉ netloc) then .error "Invalid IPv6 URL"
  else match check netloc with
    | some msg => .error msg
    | none => .ok {
        scheme := scheme
        netloc := netloc
        path := before '?' (before '#' url)
        params := []
        query := after '?' (before '#' url)
        fragment := after '#' url }

/-- The schemes whose paths have parameters. -/
def usesParams : List String :=
  ["", "ftp", "hdl", "prospero", "http", "imap", "https", "shttp", "rtsp", "rtsps", "rtspu", "sip",
    "sips", "mms", "sftp", "tel"]

/-- `_splitparams`: the parameters of the last segment. -/
def splitParams (path : List Char) : List Char × List Char :=
  let last := afterLast '/' path
  if ';' ∈ last then (path.take (path.length - last.length) ++ before ';' last, after ';' last)
  else (path, [])

/-- `urlparse`. -/
def urlparse (check : NetlocCheck) (url : String) : Except String ParseResult :=
  match urlsplit check url.toList with
  | .error msg => .error msg
  | .ok r =>
      if String.ofList r.scheme ∈ usesParams then
        .ok { r with path := (splitParams r.path).1, params := (splitParams r.path).2 }
      else .ok r

/-- `hostname`: None for an empty host; a zone keeps its case. -/
def ParseResult.hostname (parsed : ParseResult) : Option (List Char) :=
  let hostinfo := afterLast '@' parsed.netloc
  let host := if '[' ∈ hostinfo then before ']' (after '[' hostinfo) else before ':' hostinfo
  if host = [] then none
  else some ((before '%' host).map lowerChar ++ host.dropWhile (· != '%'))

/-- The empty text has an empty path. -/
theorem urlparse_empty {check : NetlocCheck} {parsed : ParseResult}
    (h : urlparse check "" = .ok parsed) : parsed.path = [] := by
  have hsplit : urlsplit check "".toList = (match check [] with
      | some msg => .error msg
      | none => .ok ⟨[], [], [], [], [], []⟩) := rfl
  unfold urlparse at h
  rw [hsplit] at h
  cases hc : check [] with
  | some msg =>
      rw [hc] at h
      cases h
  | none =>
      rw [hc] at h
      obtain rfl := Except.ok.inj h
      rfl

/-- The URL of the test database. -/
example : (urlparse (fun _ => none) "postgresql+asyncpg://u:p@Db.LOCAL:5432/nimbus_test?a=b").map
    (fun r => (String.ofList r.scheme, r.hostname.map String.ofList, String.ofList r.path))
      = .ok ("postgresql+asyncpg", some "db.local", "/nimbus_test") := by
  decide +kernel

end Nimbus.Urls
