import Mathlib

/-! Go's `net/url` as far as the dataway endpoint uses it: `ParseRequestURI` for the base URL and
for dynamic URLs, `Parse` (through `http.NewRequest`) for every request URL, and
`Query().Encode()` for the query string that every category URL carries. A Go string is a byte
string; a Lean `String` here stands for the Go string whose bytes are its characters, and each
function scans it character by character where Go scans it byte by byte. The string helpers
`infixOf`, `cut` and `cutLast` are `strings.Contains`, `strings.Cut` and `strings.LastIndex`
at one character. -/

namespace LeanDataway.NetUrl

instance exceptDecidableEq {ε α : Type} [DecidableEq ε] [DecidableEq α] :
    DecidableEq (Except ε α)
  | .error a, .error b => decidable_of_iff (a = b) (by simp)
  | .ok a, .ok b => decidable_of_iff (a = b) (by simp)
  | .error _, .ok _ => isFalse fun h => Except.noConfusion h
  | .ok _, .error _ => isFalse fun h => Except.noConfusion h

def infixOf (sub : List Char) : List Char → Bool
  | [] => sub.isEmpty
  | c :: s => sub.isPrefixOf (c :: s) || infixOf sub s

def containsText (s sub : String) : Bool := infixOf sub.data s.data

def cut (sep : Char) (s : List Char) : List Char × List Char × Bool :=
  match s.span (· != sep) with
  | (before, []) => (before, [], false)
  | (before, _ :: after) => (before, after, true)

def cutLast (sep : Char) (s : List Char) : Option (List Char × List Char) :=
  match cut sep s.reverse with
  | (_, _, false) => none
  | (after, before, true) => some (before.reverse, after.reverse)

inductive Encoding
  | path | pathSegment | host | zone | userPassword | queryComponent | fragment
  deriving DecidableEq, Repr

/-- The sub-delimiters, with `:`, `[`, `]`, `<`, `>` and the double quote, that a host holds
unescaped. -/
def hostChars : List Char :=
  ['!', '$', '&', Char.ofNat 39, '(', ')', '*', '+', ',', ';', '=', ':', '[', ']', '<', '>',
    Char.ofNat 34]

def reservedChars : List Char := ['$', '&', '+', ',', '/', ':', ';', '=', '?', '@']

/-- Whether `c` is escaped in component `mode` (`shouldEscape`, RFC 3986). -/
def shouldEscape (c : Char) (mode : Encoding) : Bool :=
  if c.isAlphanum then false
  else if (mode == .host || mode == .zone) && hostChars.contains c then false
  else if ['-', '_', '.', '~'].contains c then false
  else if reservedChars.contains c then
    match mode with
    | .path => c == '?'
    | .pathSegment => c == '/' || c == ';' || c == ',' || c == '?'
    | .userPassword => c == '@' || c == '/' || c == '?' || c == ':'
    | .queryComponent => true
    | .fragment => false
    | .host | .zone => true
  else !(mode == .fragment && ['!', '(', ')', '*'].contains c)

/-- The value of a hexadecimal digit (`ishex`, `unhex`). -/
def unhex (c : Char) : Option Nat :=
  if '0' ≤ c ∧ c ≤ '9' then some (c.toNat - 48)
  else if 'a' ≤ c ∧ c ≤ 'f' then some (c.toNat - 87)
  else if 'A' ≤ c ∧ c ≤ 'F' then some (c.toNat - 55)
  else none

def lowerhex (n : Nat) : Char := "0123456789abcdef".data.getD n '0'

/-- `strconv.IsPrint`, exact up to U+00FF; every character above is taken as printable. -/
def isPrint (c : Char) : Bool :=
  if c.toNat ≤ 255 then (32 ≤ c.toNat && c.toNat ≤ 126) || (161 ≤ c.toNat && c.toNat != 173)
  else true

/-- One character as `strconv.Quote` writes it (`appendEscapedRune`): the quote and the
backslash backslashed, a printable character as it is, a C escape, `\x` for another control
character, `\u` or `\U` for any other. -/
def quoteChar (c : Char) : List Char :=
  if c = Char.ofNat 34 ∨ c = Char.ofNat 92 then [Char.ofNat 92, c]
  else if isPrint c then [c]
  else if c.toNat = 7 then [Char.ofNat 92, 'a']
  else if c.toNat = 8 then [Char.ofNat 92, 'b']
  else if c.toNat = 12 then [Char.ofNat 92, 'f']
  else if c.toNat = 10 then [Char.ofNat 92, 'n']
  else if c.toNat = 13 then [Char.ofNat 92, 'r']
  else if c.toNat = 9 then [Char.ofNat 92, 't']
  else if c.toNat = 11 then [Char.ofNat 92, 'v']
  else if c.toNat < 32 ∨ c.toNat = 127 then
    [Char.ofNat 92, 'x', lowerhex (c.toNat / 16), lowerhex (c.toNat % 16)]
  else if c.toNat < 65536 then
    [Char.ofNat 92, 'u', lowerhex (c.toNat / 4096 % 16), lowerhex (c.toNat / 256 % 16),
      lowerhex (c.toNat / 16 % 16), lowerhex (c.toNat % 16)]
  else
    Char.ofNat 92 :: 'U' :: [28, 24, 20, 16, 12, 8, 4, 0].map fun k => lowerhex (c.toNat / 2 ^ k % 16)

/-- `strconv.Quote`, which `%q` applies to a string. -/
def quote (s : List Char) : String := String.mk (Char.ofNat 34 :: s.flatMap quoteChar ++ [Char.ofNat 34])

/-- Percent-decoding of a component (`unescape`). Go checks every escape first and decodes after;
both passes stop at the same first error, so one pass does both here. -/
def unescape (mode : Encoding) : List Char → Except String (List Char)
  | [] => .ok []
  | '%' :: a :: b :: rest =>
    match unhex a, unhex b with
    | some hi, some lo =>
      if mode == .host && hi < 8 && !(a == '2' && b == '5') then
        .error ("invalid URL escape " ++ quote ['%', a, b])
      else if mode == .zone && !(a == '2' && b == '5') && hi * 16 + lo != 32 &&
          shouldEscape (Char.ofNat (hi * 16 + lo)) .host then
        .error ("invalid URL escape " ++ quote ['%', a, b])
      else (Char.ofNat (hi * 16 + lo) :: ·) <$> unescape mode rest
    | _, _ => .error ("invalid URL escape " ++ quote ['%', a, b])
  | '%' :: rest => .error ("invalid URL escape " ++ quote ('%' :: rest))
  | '+' :: rest => ((if mode == .queryComponent then ' ' else '+') :: ·) <$> unescape mode rest
  | c :: rest =>
    if (mode == .host || mode == .zone) && c.toNat < 128 && shouldEscape c mode then
      .error ("invalid character " ++ quote [c] ++ " in host name")
    else (c :: ·) <$> unescape mode rest

def upperhex (n : Nat) : Char := "0123456789ABCDEF".data.getD n '0'

/-- Percent-encoding of one character (`escape`); a query component writes a space as `+`. -/
def escapeChar (mode : Encoding) (c : Char) : List Char :=
  if c == ' ' && mode == .queryComponent then ['+']
  else if shouldEscape c mode then ['%', upperhex (c.toNat / 16), upperhex (c.toNat % 16)]
  else [c]

def escape (mode : Encoding) (s : List Char) : List Char := s.flatMap (escapeChar mode)

/-- `getScheme`: the scheme before the first `:` when every character before it may stand in a
scheme; otherwise no scheme, and the whole text is the rest. -/
def getScheme (rawURL : List Char) : Except String (List Char × List Char) :=
  go [] rawURL
where
  go (scheme : List Char) : List Char → Except String (List Char × List Char)
    | [] => .ok ([], rawURL)
    | c :: rest =>
      if c.isAlpha then go (scheme ++ [c]) rest
      else if c.isDigit || c == '+' || c == '-' || c == '.' then
        if scheme.isEmpty then .ok ([], rawURL) else go (scheme ++ [c]) rest
      else if c == ':' then
        if scheme.isEmpty then .error "missing protocol scheme" else .ok (scheme, rest)
      else .ok ([], rawURL)

structure Userinfo where
  username : String
  password : Option String
  deriving DecidableEq, Repr

/-- The fields of Go's `url.URL` that parsing sets (`Opaque` is `opaquePart`). -/
structure URL where
  scheme : String := ""
  opaquePart : String := ""
  user : Option Userinfo := none
  host : String := ""
  path : String := ""
  rawPath : String := ""
  forceQuery : Bool := false
  rawQuery : String := ""
  fragment : String := ""
  rawFragment : String := ""
  deriving DecidableEq, Repr

def validOptionalPort : List Char → Bool
  | [] => true
  | ':' :: port => port.all Char.isDigit
  | _ => false

def splitAtZone : List Char → Option (List Char × List Char)
  | [] => none
  | '%' :: '2' :: '5' :: rest => some ([], '%' :: '2' :: '5' :: rest)
  | c :: rest => (splitAtZone rest).map fun (before, zone) => (c :: before, zone)

/-- `parseHost`: a bracketed IPv6 literal with an optional zone and port, or a name with an
optional port; `%` escapes in a host may only write bytes above 127 (or `%25`). -/
def parseHost (host : List Char) : Except String (List Char) :=
  match host with
  | '[' :: _ =>
    match cutLast ']' host with
    | none => .error "missing ']' in host"
    | some (literal, colonPort) =>
      if !validOptionalPort colonPort then
        .error ("invalid port " ++ quote colonPort ++ " after host")
      else match splitAtZone literal with
        | some (before, zone) => do
          let host1 ← unescape .host before
          let host2 ← unescape .zone zone
          let host3 ← unescape .host (']' :: colonPort)
          pure (host1 ++ host2 ++ host3)
        | none => unescape .host host
  | _ =>
    match cutLast ':' host with
    | some (_, port) =>
      if !validOptionalPort (':' :: port) then
        .error ("invalid port " ++ quote (':' :: port) ++ " after host")
      else unescape .host host
    | none => unescape .host host

def validUserinfo (s : List Char) : Bool :=
  s.all fun r => r.isAlphanum || "-._:~!$&()*+,;=%@".data.contains r || r == Char.ofNat 39

/-- `parseAuthority`: the user information before the last `@`, then the host. -/
def parseAuthority (authority : List Char) : Except String (Option Userinfo × List Char) :=
  match cutLast '@' authority with
  | none => (fun host => (none, host)) <$> parseHost authority
  | some (userinfo, hostPart) => do
    let host ← parseHost hostPart
    if !validUserinfo userinfo then throw "net/url: invalid userinfo"
    match cut ':' userinfo with
    | (_, _, false) =>
      let username ← unescape .userPassword userinfo
      pure (some ⟨String.mk username, none⟩, host)
    | (username, password, true) =>
      let username ← unescape .userPassword username
      let password ← unescape .userPassword password
      pure (some ⟨String.mk username, some (String.mk password)⟩, host)

/-- `setPath`: the decoded path, and the raw text when the default escaping would differ. -/
def setPath (u : URL) (p : List Char) : Except String URL :=
  (fun path =>
    { u with
      path := String.mk path
      rawPath := if escape .path path == p then "" else String.mk p }) <$> unescape .path p

/-- The query split of `parse`: a text whose only `?` is its last character forces an empty
query (`ForceQuery`); otherwise the query is what follows the first `?`. -/
def splitQuery (rest : List Char) : List Char × List Char × Bool :=
  if rest.getLast? == some '?' && rest.count '?' == 1 then (rest.dropLast, [], true)
  else match cut '?' rest with
    | (before, query, _) => (before, query, false)

/-- `parse` after the scheme: the query, an opaque rest, the authority and the path. -/
def parseAfterScheme (scheme rest0 : List Char) (viaRequest : Bool) : Except String URL :=
  match splitQuery rest0 with
  | (rest, rawQuery, forceQuery) =>
    let base : URL := { scheme := String.mk scheme, forceQuery := forceQuery, rawQuery := String.mk rawQuery }
    if rest.head? != some '/' && !scheme.isEmpty then .ok { base with opaquePart := String.mk rest }
    else if rest.head? != some '/' && viaRequest then .error "invalid URI for request"
    else if rest.head? != some '/' && (cut '/' rest).1.contains ':' then
      .error "first path segment in URL cannot contain colon"
    else if (!scheme.isEmpty || !viaRequest && !(['/', '/', '/'].isPrefixOf rest)) &&
        ['/', '/'].isPrefixOf rest then
      match (rest.drop 2).span (· != '/') with
      | (authority, path) =>
        match parseAuthority authority with
        | .error e => .error e
        | .ok (user, host) => setPath { base with user := user, host := String.mk host } path
    else setPath base rest

def isCTL (c : Char) : Bool := c.toNat < 32 || c.toNat == 127

/-- `parse`, shared by `Parse` and `ParseRequestURI`. -/
def parse (rawURL : List Char) (viaRequest : Bool) : Except String URL :=
  if rawURL.any isCTL then .error "net/url: invalid control character in URL"
  else if rawURL.isEmpty && viaRequest then .error "empty url"
  else if rawURL == ['*'] then .ok { path := "*" }
  else match getScheme rawURL with
    | .error e => .error e
    | .ok (scheme, rest) => parseAfterScheme (scheme.map Char.toLower) rest viaRequest

/-- The text of a `url.Error` of the operation `parse`. -/
def parseError (url : List Char) (e : String) : String := "parse " ++ quote url ++ ": " ++ e

/-- `url.ParseRequestURI`: an absolute URI or an absolute path, with no fragment cut off. -/
def parseRequestURI (rawURL : String) : Except String URL :=
  (parse rawURL.data true).mapError (parseError rawURL.data)

/-- `url.Parse`, which `http.NewRequest` applies to its URL: the fragment after the first `#`
is cut off before parsing. -/
def urlParse (rawURL : String) : Except String URL :=
  match cut '#' rawURL.data with
  | (u, frag, _) =>
    match parse u false with
    | .error e => .error (parseError u e)
    | .ok url =>
      if frag.isEmpty then .ok url
      else ((fun fragment =>
        { url with
          fragment := String.mk fragment
          rawFragment := if escape .fragment fragment == frag then "" else String.mk frag }) <$>
        unescape .fragment frag).mapError (parseError rawURL.data)

/-- `m[key] = append(m[key], value)` on `url.Values`, keys in first-insertion order. -/
def valuesAdd : List (String × List String) → String → String → List (String × List String)
  | [], key, value => [(key, [value])]
  | (k, vs) :: rest, key, value =>
    if k == key then (k, vs ++ [value]) :: rest else (k, vs) :: valuesAdd rest key value

/-- One turn of `ParseQuery`'s loop: a piece with a `;`, an empty piece and one whose key or
value does not decode are skipped; the others add their value under their key. -/
def parseQueryPiece (m : List (String × List String)) (piece : List Char) :
    List (String × List String) :=
  if piece.contains ';' || piece.isEmpty then m
  else match cut '=' piece with
    | (key, value, _) =>
      match unescape .queryComponent key, unescape .queryComponent value with
      | .ok k, .ok v => valuesAdd m (String.mk k) (String.mk v)
      | _, _ => m

/-- `ParseQuery` with its error dropped, as `URL.Query` does. -/
def parseQuery (query : List Char) : List (String × List String) :=
  (query.splitOn '&').foldl parseQueryPiece []

def URL.query (u : URL) : List (String × List String) := parseQuery u.rawQuery.data

/-- `Values.Get`: the first value of `key`, or the empty string. -/
def valuesGet (v : List (String × List String)) (key : String) : String :=
  match v.lookup key with
  | some (x :: _) => x
  | _ => ""

/-- Byte-wise order of Go strings (`sort.Strings`). -/
def lexLe : List Char → List Char → Bool
  | [], _ => true
  | _ :: _, [] => false
  | a :: as, b :: bs => a < b || (a == b && lexLe as bs)

/-- `Values.Encode`: `QueryEscape(k)=QueryEscape(v)` for every value, keys sorted, joined by `&`. -/
def encode (v : List (String × List String)) : String :=
  String.mk (['&'].intercalate ((v.insertionSort fun a b => lexLe a.1.data b.1.data).flatMap
    fun (k, vs) => vs.map fun x => escape .queryComponent k.data ++ '=' :: escape .queryComponent x.data))

end LeanDataway.NetUrl
