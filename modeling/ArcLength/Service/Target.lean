/-!
# Request targets

A target names a place on the service by a path. It may have a scheme and an authority before the
path, a query and a fragment after it, and characters of the path may be escaped by their code in
hexadecimal. `Target.place` is the path that is left, without what does not count.
-/

namespace ArcLength.Service

/-- A target up to its query and fragment. -/
structure Target where
  scheme : List Char
  authority : List Char
  path : List Char
deriving DecidableEq, Repr

namespace Target

/-- A scheme before a colon at the front, and the text after the colon. The scheme may be empty. -/
def splitScheme (text : List Char) : List Char × List Char :=
  let scheme := text.takeWhile fun c => c.isAlphanum || c == '+' || c == '-' || c == '.'
  match text.drop scheme.length with
  | ':' :: rest => if scheme.head?.all Char.isAlpha then (scheme, rest) else ([], text)
  | _ => ([], text)

/-- An authority after two slashes at the front, empty if there is none, and the text after it. -/
def splitAuthority : List Char → List Char × List Char
  | '/' :: '/' :: rest => (rest.takeWhile (· != '/'), rest.dropWhile (· != '/'))
  | text => ([], text)

def ofText (text : List Char) : Target :=
  let (scheme, rest) := splitScheme (text.takeWhile fun c => c != '?' && c != '#')
  let (authority, path) := splitAuthority rest
  { scheme, authority, path }

/-- Whether the authority has neither a user nor a host nor a port. -/
def isAnonymous (t : Target) : Bool :=
  ["", ":", "@", "@:"].contains (String.ofList t.authority)

/-- Whether the authority has a host: after the user, and before the colon of the port. -/
def hasHost (t : Target) : Bool :=
  (t.authority.reverse.takeWhile (· != '@')).getLast?.any (· != ':')

/-- The names between the slashes, up to the slash that is met first. -/
def splitPath : List Char → List (List Char)
  | [] => [[]]
  | '/' :: rest => [] :: splitPath rest
  | c :: rest =>
    match splitPath rest with
    | [] => [[c]]
    | name :: names => (c :: name) :: names

/-- Walks up from the names walked, but not above the root. -/
def parent : List (List Char) → List (List Char)
  | [] => []
  | [name] => if name.isEmpty then [name] else []
  | _ :: names => names

/-- The names of a path with one dot left out and two dots taking the name before them away. The
first argument holds the names walked, the latest first. -/
def resolveDots (walked : List (List Char)) : List (List Char) → List (List Char)
  | [] => walked.reverse
  | ['.'] :: names => resolveDots walked names
  | ['.', '.'] :: names => resolveDots (parent walked) names
  | name :: names => resolveDots (name :: walked) names

def resolve (path : List Char) : List Char :=
  ['/'].intercalate (resolveDots [] (splitPath path))

/-- The path of a target before its escapes are read. Without both a scheme and a host it is taken
from the root of the service, and is resolved there once more. -/
def rawPath (t : Target) : List Char :=
  let path := if t.scheme.isEmpty && t.isAnonymous then t.path else resolve t.path
  if !t.scheme.isEmpty && t.hasHost then path
  else resolve ('/' :: path.dropWhile (· == '/'))

def hexadecimalValue? (c : Char) : Option Nat :=
  if c.isDigit then some (c.toNat - '0'.toNat)
  else if 'a' ≤ c && c ≤ 'f' then some (c.toNat - 'a'.toNat + 10)
  else if 'A' ≤ c && c ≤ 'F' then some (c.toNat - 'A'.toNat + 10)
  else none

/-- The ASCII character that two hexadecimal digits after a percent sign stand for. -/
def escaped? (high low : Char) : Option Char := do
  let code := 16 * (← hexadecimalValue? high) + (← hexadecimalValue? low)
  if code < 0x80 then some (Char.ofNat code) else none

/-- A text with its escapes read once. Escapes beyond ASCII stay; no place has such a name. -/
def unescape : List Char → List Char
  | '%' :: high :: low :: rest =>
    match escaped? high low with
    | some c => c :: unescape rest
    | none => '%' :: unescape (high :: low :: rest)
  | c :: rest => c :: unescape rest
  | [] => []
termination_by text => text.length

/-- A path without slashes at its end, and without a line feed before them. -/
def trimEnd (path : List Char) : List Char :=
  match path.reverse.dropWhile (· == '/') with
  | '\n' :: rest => rest.reverse
  | rest => rest.reverse

/-- The place that a target names. Escapes are read twice, on the way out and on arrival. -/
def place (target : String) : String :=
  String.ofList (trimEnd (unescape (unescape (ofText target.toList).rawPath)))

end Target

end ArcLength.Service
