/-
Request targets and URLs. A target is an absolute path (`/p?q`), an absolute URL (`http://a/p?q`), an authority alone
(`a:1`) or `*`. `Uri.parse` splits a text into these parts or says which rule it breaks; a fragment is dropped.
-/
import MachineGateway.Text.Utf8
import MachineGateway.Text.Split
import MachineGateway.Text.Decimal

namespace MachineGateway.Http

/-- which rule a text breaks -/
inductive UriError where
  | empty
  | tooLong
  | schemeTooLong
  | invalidCharacter
  | invalidAuthority
  | invalidFormat
  deriving DecidableEq, Repr

def UriError.message : UriError → String
  | .empty => "empty string"
  | .tooLong => "uri too long"
  | .schemeTooLong => "scheme too long"
  | .invalidCharacter => "invalid uri character"
  | .invalidAuthority => "invalid authority"
  | .invalidFormat => "invalid format"

structure Uri where
  scheme : Option String := none
  authority : Option String := none
  path : String
  query : Option String := none
  deriving DecidableEq, Repr, Inhabited

namespace Uri

/-- the largest length of a URI in bytes -/
def lengthLimit : Nat := 65534

/-- the largest length of a scheme -/
def schemeLimit : Nat := 64

def isSchemeChar (c : Char) : Bool := c.isAlphanum || c == '+' || c == '-' || c == '.'

/-- a character that an authority may hold, apart from `%` -/
def isAuthorityChar (c : Char) : Bool :=
  c.isAlphanum || "!$&'()*+,-.:;=@[]_~".toList.contains c

def endsAuthority (c : Char) : Bool := c == '/' || c == '?' || c == '#'

def isPathChar (c : Char) : Bool :=
  let n := c.toNat
  n == 0x21 || n == 0x22 || (0x24 ≤ n && n ≤ 0x3B) || n == 0x3D || (0x40 ≤ n && n ≤ 0x5F) || 0x61 ≤ n

def isQueryChar (c : Char) : Bool :=
  let n := c.toNat
  n == 0x21 || (0x24 ≤ n && n ≤ 0x3B) || n == 0x3D || 0x3F ≤ n

/-- what has been seen of an authority: colons of the port, brackets, and a percent sign outside the user part -/
structure Glimpse where
  colons : Nat := 0
  opened : Bool := false
  closed : Bool := false
  percent : Bool := false

/-- takes one more character of an authority -/
def Glimpse.step (g : Glimpse) (c : Char) : Except UriError Glimpse :=
  if c == ':' then
    if 8 ≤ g.colons then .error .invalidAuthority else .ok { g with colons := g.colons + 1 }
  else if c == '[' then
    if g.percent || g.opened then .error .invalidAuthority else .ok { g with opened := true }
  else if c == ']' then
    if !g.opened || g.closed then .error .invalidAuthority
    else .ok { g with closed := true, colons := 0, percent := false }
  else if c == '@' then .ok { g with colons := 0, percent := false }
  else if c == '%' then .ok { g with percent := true }
  else if isAuthorityChar c then .ok g
  else .error .invalidCharacter

def Glimpse.run (g : Glimpse) : List Char → Except UriError Glimpse
  | [] => .ok g
  | c :: cs =>
    match g.step c with
    | .error e => .error e
    | .ok g => g.run cs

def checkAuthority (cs : List Char) : Except UriError Unit :=
  match ({} : Glimpse).run cs with
  | .error e => .error e
  | .ok g =>
    if g.opened != g.closed || 1 < g.colons || g.percent || cs.getLast? == some '@' then .error .invalidAuthority
    else .ok ()

/-- a path and a query, up to a fragment -/
def parsePath (cs : List Char) : Except UriError (String × Option String) :=
  let path := cs.takeWhile fun c => c != '?' && c != '#'
  let rest := cs.dropWhile fun c => c != '?' && c != '#'
  let shown := if path.isEmpty then "/" else String.ofList path
  if !path.all isPathChar then .error .invalidCharacter
  else match rest with
    | '?' :: rest =>
      let query := rest.takeWhile (· != '#')
      if query.all isQueryChar then .ok (shown, some (String.ofList query)) else .error .invalidCharacter
    | _ => .ok (shown, none)

/-- what a text begins with: a scheme and what follows its `://`, if there is one -/
def splitScheme (cs : List Char) : Except UriError (Option (String × List Char)) :=
  let name := cs.takeWhile isSchemeChar
  match Text.after? "://".toList (cs.dropWhile isSchemeChar) with
  | none => .ok none
  | some rest =>
    let lower := String.ofList (name.map Char.toLower)
    if lower = "http" || lower = "https" then .ok (some (lower, rest))
    else if cs.length ≤ 3 then .ok none
    else if schemeLimit < name.length then .error .schemeTooLong
    else .ok (some (String.ofList name, rest))

/-- a URL or an authority alone -/
def parseFull (cs : List Char) : Except UriError Uri :=
  match splitScheme cs with
  | .error e => .error e
  | .ok found =>
    let rest := match found with | none => cs | some (_, rest) => rest
    let authority := rest.takeWhile fun c => !endsAuthority c
    let after := rest.dropWhile fun c => !endsAuthority c
    match checkAuthority authority, found with
    | .error e, _ => .error e
    | .ok _, none =>
      if after.isEmpty then .ok { authority := some (String.ofList authority), path := "" }
      else .error .invalidFormat
    | .ok _, some (scheme, _) =>
      if authority.isEmpty then .error .invalidFormat
      else match parsePath after with
        | .error e => .error e
        | .ok (path, query) => .ok ⟨some scheme, some (String.ofList authority), path, query⟩

/-- the parts of a target, or the first rule that it breaks -/
def parse (s : String) : Except UriError Uri :=
  let cs := s.toList
  if lengthLimit < (Utf8.encode s).length then .error .tooLong
  else match cs with
    | [] => .error .empty
    | ['*'] => .ok { path := "*" }
    | '/' :: _ =>
      match parsePath cs with
      | .error e => .error e
      | .ok (path, query) => .ok { path, query }
    | _ => parseFull cs

/-- path and query as one text -/
def pathAndQuery (u : Uri) : String :=
  match u.query with
  | none => u.path
  | some q => u.path ++ "?" ++ q

/-- what follows the last occurrence of a character -/
def afterLast? (sep : Char) (cs : List Char) : Option (List Char) :=
  if cs.contains sep then some (cs.reverse.takeWhile (· != sep)).reverse else none

/-- the host of an authority: without user part and port -/
def hostOf (authority : String) : String :=
  let cs := authority.toList
  let cs := (afterLast? '@' cs).getD cs
  match cs with
  | '[' :: _ => String.ofList (cs.takeWhile (· != ']') ++ [']'])
  | _ => String.ofList (cs.takeWhile (· != ':'))

/-- the port of an authority, if what follows its last colon is one -/
def portOf (authority : String) : Option Nat :=
  (afterLast? ':' authority.toList).bind (Text.number? Text.portLimit)

end Uri

end MachineGateway.Http
