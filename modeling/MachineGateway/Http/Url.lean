/-
Web addresses as a client reads them. Reading is forgiving: blanks around and line breaks inside are dropped,
backslashes count as slashes, characters that do not belong are escaped, and `.` and `..` are resolved. Only `http`
and `https` are known.
-/
import MachineGateway.Http.Headers
import MachineGateway.Net.Address
import MachineGateway.Text.Base64
import MachineGateway.Text.Percent

namespace MachineGateway.Http

structure Url where
  secure : Bool := false
  user : String := ""
  password : String := ""
  host : String
  /-- the port, unless it is the scheme's own -/
  port : Option Nat := none
  path : String := "/"
  query : Option String := none
  deriving DecidableEq, Repr, Inhabited

inductive UrlError where
  | invalid
  /-- the scheme is another one -/
  | foreign
  deriving DecidableEq, Repr

namespace Url

/-- a byte that is kept in every part: visible, and none of the quotes and angle brackets -/
def keptEverywhere (b : UInt8) : Bool := 0x20 < b && b < 0x7F && b != 0x22 && b != 0x3C && b != 0x3E && b != 0x23

def keptInPath (b : UInt8) : Bool :=
  keptEverywhere b && b != 0x3F && b != 0x5E && b != 0x60 && b != 0x7B && b != 0x7D

def keptInQuery (b : UInt8) : Bool := keptEverywhere b && b != 0x27

/-- a slash, of either kind -/
def isSlash (c : Char) : Bool := c == '/' || c == '\\'

/-- the text without blanks and controls around it and without tabs and line breaks in it -/
def clean (s : String) : List Char :=
  (Text.stripWhile (fun c => c.toNat ≤ 0x20) s.toList).filter fun c => c != '\t' && c != '\n' && c != '\r'

/-- whether a segment is `.` in one of its spellings -/
def isHere (s : List Char) : Bool := let t := s.map Char.toLower; t == ['.'] || t == "%2e".toList

/-- whether a segment is `..` in one of its spellings -/
def isUp (s : List Char) : Bool :=
  let t := s.map Char.toLower
  t == "..".toList || t == ".%2e".toList || t == "%2e.".toList || t == "%2e%2e".toList

/-- resolves `.` and `..`; the segments done so far stand last first -/
def resolve : (done : List (List Char)) → List (List Char) → List (List Char)
  | done, [] => done.reverse
  | done, [s] =>
    if isUp s then ([] :: done.drop 1).reverse else if isHere s then ([] :: done).reverse else (s :: done).reverse
  | done, s :: rest =>
    if isUp s then resolve (done.drop 1) rest else if isHere s then resolve done rest else resolve (s :: done) rest

/-- a path from its segments, each escaped as needed -/
def pathOf (segments : List (List Char)) : String :=
  "/" ++ "/".intercalate (segments.map fun s => Percent.encode keptInPath (Utf8.encodeChars s))

/-- the segments of a text between slashes -/
def segmentsOf (cs : List Char) : List (List Char) := Text.splitAt '/' (cs.map fun c => if c == '\\' then '/' else c)

/-- the path and the query of a text that goes on after the authority; `before` holds the segments it is relative to -/
def withTail (u : Url) (before : List (List Char)) (cs : List Char) : Url :=
  let cs := cs.takeWhile (· != '#')
  let (path, query) := Text.cutAt '?' cs
  let path := match path with | c :: r => if isSlash c then r else path | [] => []
  { u with path := pathOf (resolve before.reverse (segmentsOf path)),
           query := query.map fun q => Percent.encode keptInQuery (Utf8.encodeChars q) }

/-- a character that no host may hold -/
def isForbidden (c : Char) : Bool :=
  c.toNat ≤ 0x20 || 0x7E < c.toNat || " #/:<>?@[\\]^|%".toList.contains c

/-- the value of one part of a numeric host: decimal, octal after `0`, hexadecimal after `0x` -/
def hostNumber? (cs : List Char) : Option Nat :=
  match cs with
  | [] => none
  | '0' :: 'x' :: r => if r.all Net.isHexDigit then some (Net.hexNumber r) else none
  | '0' :: r =>
    if r.all fun c => '0' ≤ c && c ≤ '7' then some (r.foldl (fun n c => 8 * n + (c.toNat - 48)) 0) else none
  | _ => if cs.all Char.isDigit then some (Text.digitsValue cs) else none

/-- the address that a host of numbers stands for: the last number fills the parts that are missing -/
def numericHost? (parts : List (List Char)) : Option String := do
  let ns ← parts.mapM hostNumber?
  let last ← ns.getLast?
  let front := ns.dropLast
  if 3 < front.length || front.any (255 < ·) || Nat.pow 256 (4 - front.length) ≤ last then none
  else
    let value := front.foldl (fun n x => 256 * n + x) 0 * Nat.pow 256 (4 - front.length) + last
    some (Net.V4.text ⟨value / 16777216, value / 65536 % 256, value / 256 % 256, value % 256⟩)

/-- whether the last part of a host makes it numeric -/
def endsInNumber (parts : List (List Char)) : Bool :=
  match parts.getLast? with
  | none => false
  | some p => !p.isEmpty && (p.all Char.isDigit || (hostNumber? p).isSome)

/-- the host that a text names -/
def host? (cs : List Char) : Option String :=
  match cs with
  | '[' :: r => do
    let (groups, rest) ← Net.readV6 r
    if rest == [']'] then some ("[" ++ Net.shortGroups groups ++ "]") else none
  | _ => do
    let text ← Percent.decodeText? cs
    let lower := text.toList.map Char.toLower
    if lower.isEmpty || lower.any isForbidden then none
    else
      let parts := Text.splitAt '.' lower
      let parts := if parts.getLast? == some [] && 1 < parts.length then parts.dropLast else parts
      if endsInNumber parts then numericHost? parts else some (String.ofList lower)

/-- host and port of an authority without user part -/
def splitHost (cs : List Char) : List Char × List Char :=
  match cs with
  | '[' :: _ => (cs.takeWhile (· != ']') ++ (cs.dropWhile (· != ']')).take 1, (cs.dropWhile (· != ']')).drop 1)
  | _ => (cs.takeWhile (· != ':'), cs.dropWhile (· != ':'))

def authority (secure : Bool) (cs : List Char) : Except UrlError Url :=
  let parts := Text.splitAt '@' cs
  let place := parts.getLastD []
  let login := Text.joinWith '@' parts.dropLast
  let (user, password) := Text.cutAt ':' login
  let (hostPart, portPart) := splitHost place
  let port := match portPart with
    | [] | [':'] => some none
    | ':' :: ds => (Text.plainNumber? Text.portLimit ds).map some
    | _ => none
  match host? hostPart, port with
  | some host, some port =>
    .ok { secure, user := String.ofList user, password := String.ofList (password.getD []), host,
          port := if port == some (if secure then 443 else 80) then none else port }
  | _, _ => .error .invalid

/-- what follows a scheme and its colon -/
def absolute (secure : Bool) (cs : List Char) : Except UrlError Url :=
  let cs := cs.dropWhile isSlash
  let ends := fun c => isSlash c || c == '?' || c == '#'
  match authority secure (cs.takeWhile fun c => !ends c) with
  | .error e => .error e
  | .ok u => .ok (u.withTail [] (cs.dropWhile fun c => !ends c))

/-- a scheme in lower case and what follows its colon, if the text begins with one -/
def scheme? (cs : List Char) : Option (String × List Char) :=
  match cs with
  | c :: _ =>
    let name := cs.takeWhile fun c => c.isAlphanum || c == '+' || c == '-' || c == '.'
    if c.isAlpha then (Net.skip? ':' (cs.drop name.length)).map fun r => (String.ofList (name.map Char.toLower), r)
    else none
  | [] => none

/-- the address that a text gives on its own -/
def parse (s : String) : Except UrlError Url :=
  match scheme? (clean s) with
  | some ("http", r) => absolute false r
  | some ("https", r) => absolute true r
  | some _ => .error .foreign
  | none => .error .invalid

/-- the segments of a path without the last -/
def folder (u : Url) : List (List Char) := ((segmentsOf (u.path.toList.drop 1))).dropLast

/-- the address that a text gives where `u` is the present one -/
def join (u : Url) (s : String) : Except UrlError Url :=
  let cs := clean s
  let place : Url := { u with query := none }
  match scheme? cs with
  | some (name, r) =>
    if name = (if u.secure then "https" else "http") && !(r.take 1).any isSlash then
      .ok (place.withTail u.folder r)
    else if name = "http" then absolute false r
    else if name = "https" then absolute true r
    else .error .foreign
  | none =>
    match cs with
    | [] => .ok u
    | '#' :: _ => .ok u
    | '?' :: _ => .ok { place.withTail [] cs with path := u.path }
    | c :: r =>
      if isSlash c then
        if (r.take 1).any isSlash then absolute u.secure r else .ok (place.withTail [] cs)
      else .ok (place.withTail u.folder cs)

/-- host and port as they stand in a `host` header -/
def hostHeader (u : Url) : String :=
  match u.port with
  | none => u.host
  | some p => u.host ++ ":" ++ toString p

/-- path and query as they stand in a request line -/
def target (u : Url) : String :=
  match u.query with
  | none => u.path
  | some q => u.path ++ "?" ++ q

/-- the address without user part -/
def text (u : Url) : String := (if u.secure then "https://" else "http://") ++ u.hostHeader ++ u.target

/-- the `authorization` value for the user part, if there is one -/
def credentials? (u : Url) : Option String :=
  if u.user = "" && u.password = "" then none
  else
    let user := Percent.decode (Utf8.encode u.user)
    let password := Percent.decode (Utf8.encode u.password)
    some ("Basic " ++ String.ofList (Text.base64 (user ++ 0x3A :: password)))

end Url

end MachineGateway.Http
