import Lineside.Number.Decimal
import Lineside.Text.Address

/-!
Uniform resource locators: a scheme, an authority with user, host and port, a path, a query and a
fragment, each of which may be missing. Bytes are written as a percent sign and two hexadecimal digits
where the character itself may not stand.
-/

namespace Lineside

namespace Url

inductive Part where
  | path
  | user
  | host
  | zone
  | fragment
  deriving DecidableEq, Repr

def isAlphanumeric (c : Char) : Bool :=
  Decimal.isDigit c || decide ('a' ≤ c ∧ c ≤ 'z') || decide ('A' ≤ c ∧ c ≤ 'Z')

def Part.allows (part : Part) (c : Char) : Bool :=
  isAlphanumeric c || "-_.~".toList.contains c ||
    match part with
    | .path => "$&+,/:;=@".toList.contains c
    | .user => "$&+,;=".toList.contains c
    | .host | .zone => "!$&'()*+,;=:[]<>\"".toList.contains c
    | .fragment => "$&+,/:;=?@!()*".toList.contains c

def escape (part : Part) (bytes : List UInt8) : List Char :=
  bytes.flatMap fun byte =>
    let c := Char.ofNat byte.toNat
    if part.allows c then [c] else '%' :: (Text.hex 2 byte.toNat).map Char.toUpper

def isEscaped (part : Part) (cs : List Char) : Bool :=
  cs.all fun c => "!$&'()*+,;=:@[]%".toList.contains c || part.allows c

end Url

inductive UrlProblem where
  | controlCharacter
  | noScheme
  | colonInFirstName
  | badEscape (bytes : List UInt8)
  | badHostCharacter (c : Char)
  | unclosedBracket
  | badLiteral
  | badAddress (reason : AddressError)
  | badPort (text : String)
  | badUser
  deriving DecidableEq, Repr

namespace UrlProblem

def message : UrlProblem → String
  | .controlCharacter => "net/url: invalid control character in URL"
  | .noScheme => "missing protocol scheme"
  | .colonInFirstName => "first path segment in URL cannot contain colon"
  | .badEscape bytes => "invalid URL escape " ++ Text.quotedBytes bytes
  | .badHostCharacter c => "invalid character " ++ Text.quoted c.toString ++ " in host name"
  | .unclosedBracket => "missing ']' in host"
  | .badLiteral => "invalid IP-literal"
  | .badAddress reason => "invalid host: " ++ reason.message
  | .badPort text => "invalid port " ++ Text.quoted text ++ " after host"
  | .badUser => "net/url: invalid userinfo"

end UrlProblem

structure UrlError where
  text : String
  problem : UrlProblem
  deriving DecidableEq, Repr

namespace UrlError

def message (error : UrlError) : String :=
  "parse " ++ Text.quoted error.text ++ ": " ++ error.problem.message

end UrlError

structure UrlUser where
  name : List UInt8
  password : Option (List UInt8) := none
  deriving DecidableEq, Repr

structure Url where
  scheme : String := ""
  /-- What follows a scheme without a slash. -/
  rootless : List Char := []
  user : Option UrlUser := none
  host : List UInt8 := []
  /-- There is no authority, not even an empty one. -/
  hostless : Bool := false
  path : List UInt8 := []
  writtenPath : List Char := []
  emptyQuery : Bool := false
  query : List Char := []
  fragment : List UInt8 := []
  writtenFragment : List Char := []
  deriving DecidableEq, Repr

namespace Url

def cut (mark : Char) (cs : List Char) : List Char × Option (List Char) :=
  (cs.takeWhile (· != mark), (cs.dropWhile (· != mark)).tail?)

def cutLast (mark : Char) (cs : List Char) : Option (List Char × List Char) :=
  let behind := (cs.reverse.takeWhile (· != mark)).reverse
  if behind.length = cs.length then none
  else some (cs.take (cs.length - behind.length - 1), mark :: behind)

def bytesOf (cs : List Char) : List UInt8 := cs.flatMap String.utf8EncodeChar

def byte? (high low : Char) : Option Nat := do
  return 16 * (← Decimal.digit? 16 high) + (← Decimal.digit? 16 low)

/-- The escape of a byte may stand in a part. A host may only escape what is not ASCII, and a zone
nothing else that may stand there itself. -/
def Part.allowsEscape (part : Part) (value : Nat) : Bool :=
  match part with
  | .host => decide (0x80 ≤ value) || value == '%'.toNat
  | .zone => value == '%'.toNat || value == ' '.toNat || part.allows (Char.ofNat value)
  | _ => true

def unescape (part : Part) : List Char → Except UrlProblem (List UInt8)
  | [] => .ok []
  | '%' :: high :: low :: rest =>
    match byte? high low with
    | none => .error (.badEscape ((bytesOf ('%' :: high :: low :: rest)).take 3))
    | some value =>
      if part.allowsEscape value then return value.toUInt8 :: (← unescape part rest)
      else .error (.badEscape (bytesOf ['%', high, low]))
  | c :: rest =>
    if c = '%' then .error (.badEscape ((bytesOf (c :: rest)).take 3))
    else if (part = .host ∨ part = .zone) ∧ c.toNat < 0x80 ∧ !part.allows c then .error (.badHostCharacter c)
    else return String.utf8EncodeChar c ++ (← unescape part rest)

/-- Splits a scheme off. What starts like none is left whole. -/
def splitScheme (cs : List Char) : Except UrlProblem (List Char × List Char) :=
  let inScheme (c : Char) : Bool := isAlphanumeric c || "+-.".toList.contains c
  match cs.dropWhile inScheme with
  | ':' :: rest =>
    match cs.takeWhile inScheme with
    | [] => .error .noScheme
    | first :: more =>
      if Decimal.isDigit first ∨ "+-.".toList.contains first then .ok ([], cs) else .ok (first :: more, rest)
  | _ => .ok ([], cs)

def isPort : List Char → Bool
  | [] => true
  | c :: rest => c == ':' && rest.all Decimal.isDigit

/-- The part of a host in brackets: an address of groups, behind which a zone may stand. -/
def readLiteral (cs : List Char) : Except UrlProblem (List UInt8) := do
  match cutLast ']' cs with
  | none => .error .unclosedBracket
  | some (before, behind) =>
    let port := behind.drop 1
    if !isPort port then .error (.badPort (String.ofList port))
    let name := before.drop 1
    let zone := (List.range name.length).find? fun count => "%25".toList.isPrefixOf (name.drop count)
    let address ← match zone with
      | some count => do
        let front ← unescape .host (name.take count)
        let back ← unescape .zone (name.drop count)
        pure (front ++ back)
      | none => unescape .host name
    match Address.kind address with
    | .error reason => .error (.badAddress reason)
    | .ok .octets => .error .badLiteral
    | .ok .groups => return bytesOf ['['] ++ address ++ bytesOf (']' :: port)

/-- The last colon of a host opens its port; on the web it is the first one. -/
def portOf (scheme : String) (cs : List Char) : List Char :=
  if scheme = "http" ∨ scheme = "https" then cs.dropWhile (· != ':')
  else ((cutLast ':' cs).map (·.2)).getD []

def readHost (scheme : String) (cs : List Char) : Except UrlProblem (List UInt8) :=
  match cutLast '[' cs with
  | some ([], _) => readLiteral cs
  | some _ => .error .badLiteral
  | none =>
    let port := portOf scheme cs
    if isPort port then unescape .host cs else .error (.badPort (String.ofList port))

def readUser (cs : List Char) : Except UrlProblem UrlUser := do
  let allowed (c : Char) : Bool := isAlphanumeric c || "-._:~!$&'()*+,;=%@".toList.contains c
  if !cs.all allowed then .error .badUser
  match cut ':' cs with
  | (name, none) => return { name := ← unescape .user name }
  | (name, some password) =>
    let name ← unescape .user name
    return { name, password := some (← unescape .user password) }

def readAuthority (scheme : String) (cs : List Char) : Except UrlProblem (Option UrlUser × List UInt8) := do
  match cutLast '@' cs with
  | none => return (none, ← readHost scheme cs)
  | some (user, host) =>
    let host ← readHost scheme (host.drop 1)
    return (some (← readUser user), host)

def readBody (cs : List Char) : Except UrlProblem Url := do
  if cs.any fun c => c.toNat < 0x20 ∨ c.toNat = 0x7f then .error .controlCharacter
  let (scheme, rest) ← splitScheme cs
  let (rest, query) := cut '?' rest
  let url : Url := {
    scheme := String.ofList (scheme.map Char.toLower)
    emptyQuery := query = some []
    query := query.getD [] }
  if rest.head? ≠ some '/' ∧ scheme ≠ [] then return { url with rootless := rest }
  if rest.head? ≠ some '/' ∧ (rest.takeWhile (· != '/')).contains ':' then .error .colonInFirstName
  match rest with
  | '/' :: '/' :: behind =>
    if scheme = [] ∧ behind.head? = some '/' then
      return { url with path := ← unescape .path rest, writtenPath := rest }
    let authority := behind.takeWhile (· != '/')
    let path := behind.dropWhile (· != '/')
    let (user, host) ← readAuthority url.scheme authority
    return { url with user, host, path := ← unescape .path path, writtenPath := path }
  | _ =>
    return {
      url with
      hostless := scheme ≠ [] ∧ rest.head? = some '/', path := ← unescape .path rest, writtenPath := rest }

def parse (text : String) : Except UrlError Url := do
  let (body, fragment) := cut '#' text.toList
  let url ← (readBody body).mapError fun problem => ⟨String.ofList body, problem⟩
  let written := fragment.getD []
  let fragment ← (unescape .fragment written).mapError fun problem => ⟨text, problem⟩
  return { url with fragment, writtenFragment := written }

def hostAndPort (url : Url) : List UInt8 × List UInt8 :=
  let behind := (url.host.reverse.takeWhile (· != Address.colon)).reverse
  let (host, port) :=
    if behind.length < url.host.length ∧ behind.all Address.isDigit then
      (url.host.take (url.host.length - behind.length - 1), behind)
    else (url.host, [])
  if host.head? = some '['.toUInt8 ∧ host.getLast? = some ']'.toUInt8 then (host.tail.dropLast, port)
  else (host, port)

/-- A path or fragment, as it was written where that needs no further escapes. -/
def shown (part : Part) (bytes : List UInt8) (written : List Char) : List Char :=
  if isEscaped part written then written else escape part bytes

def shownUser (user : UrlUser) : List Char :=
  escape .user user.name ++
    match user.password with
    | some password => ':' :: escape .user password
    | none => []

def shownAuthority (url : Url) : List Char :=
  if url.hostless ∧ url.host = [] ∧ url.user = none then []
  else if url.scheme = "" ∧ url.host = [] ∧ url.user = none then []
  else
    (if url.host ≠ [] ∨ url.path ≠ [] ∨ url.user ≠ none then ['/', '/'] else []) ++
      (match url.user with
        | some user => shownUser user ++ ['@']
        | none => []) ++
      escape .host url.host

def text (url : Url) : String :=
  let path := shown .path url.path url.writtenPath
  let body :=
    if url.rootless ≠ [] then url.rootless
    else url.shownAuthority ++
      (if path ≠ [] ∧ path.head? ≠ some '/' ∧ url.host ≠ [] then ['/'] else []) ++ path
  let query := if url.emptyQuery ∨ url.query ≠ [] then '?' :: url.query else []
  let fragment :=
    if url.fragment ≠ [] then '#' :: shown .fragment url.fragment url.writtenFragment else []
  url.scheme ++ ":" ++ String.ofList (body ++ query ++ fragment)

end Url

end Lineside
