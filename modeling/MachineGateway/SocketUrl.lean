/-
Socket URLs inside response bodies. A backend names itself by an authority that only the gateway can reach; where
such an authority stands in a socket URL (`ws://A`, `wss://A`, or a query parameter `ws=A`, `wss=A`) it is replaced
by the gateway's public host. `rewrite` does so for one authority in one pass from left to right; a URL that already
carries the path by which the public host extends the authority stays as it is.
-/
import MachineGateway.Text.Utf8
import MachineGateway.Text.Split
import MachineGateway.Text.Blank

namespace MachineGateway.SocketUrl

/-- what stands before an authority in a socket URL -/
inductive Opening where
  | secureUrl
  | plainUrl
  | secureParameter
  | plainParameter
  deriving DecidableEq, Repr

namespace Opening

/-- the openings in the order in which they are tried -/
def all : List Opening := [.secureUrl, .plainUrl, .secureParameter, .plainParameter]

def bytes : Opening → Bytes
  | .secureUrl => [0x77, 0x73, 0x73, 0x3A, 0x2F, 0x2F]
  | .plainUrl => [0x77, 0x73, 0x3A, 0x2F, 0x2F]
  | .secureParameter => [0x77, 0x73, 0x73, 0x3D]
  | .plainParameter => [0x77, 0x73, 0x3D]

end Opening

def isAlphanumeric (b : UInt8) : Bool :=
  (0x30 ≤ b && b ≤ 0x39) || (0x41 ≤ b && b ≤ 0x5A) || (0x61 ≤ b && b ≤ 0x7A)

/-- whether an opening may follow the byte before it: a scheme follows anything but a letter or digit, a parameter
follows one of `?`, `&` and `;`, and the beginning of the body allows both -/
def boundary (o : Opening) : (before : Option UInt8) → Bool
  | none => true
  | some b =>
    match o with
    | .secureUrl | .plainUrl => !isAlphanumeric b
    | .secureParameter | .plainParameter => b == 0x3F || b == 0x26 || b == 0x3B

/-- a byte that cannot go on an authority: white space or one of `/ " ' ? # & \ <` -/
def isTerminator (b : UInt8) : Bool :=
  b == 0x20 || b == 0x09 || b == 0x0A || b == 0x0C || b == 0x0D || b == 0x2F || b == 0x22 || b == 0x27 ||
    b == 0x3F || b == 0x23 || b == 0x26 || b == 0x5C || b == 0x3C

/-- whether an authority can end before these bytes -/
def authorityEnds : Bytes → Bool
  | [] => true
  | b :: _ => isTerminator b

/-- the path by which the public host goes on after the authority, if it does -/
def extension? (authority host : Bytes) : Option Bytes :=
  match Text.after? authority host with
  | some (0x2F :: path) => some (0x2F :: path)
  | _ => none

/-- whether the authority stands behind the opening here, is complete, and is not followed by the extension -/
def follows (authority : Bytes) (extension : Option Bytes) (o : Opening) (body : Bytes) : Bool :=
  match (Text.after? o.bytes body).bind (Text.after? authority) with
  | none => false
  | some rest =>
    !(match extension with | none => false | some e => Text.startsWith e rest) && authorityEnds rest

/-- the opening of a socket URL of the authority that begins here, if one does -/
def opening? (authority : Bytes) (extension : Option Bytes) (before : Option UInt8) (body : Bytes) :
    Option Opening :=
  Opening.all.find? fun o => boundary o before && follows authority extension o body

/-- copies the body, putting the host in the place of the authority wherever a socket URL of it begins; `skip` bytes
belong to a URL that has been dealt with -/
def scan (authority host : Bytes) (extension : Option Bytes) :
    (before : Option UInt8) → (skip : Nat) → Bytes → Bytes
  | _, _, [] => []
  | _, k + 1, b :: r => scan authority host extension (some b) k r
  | before, 0, b :: r =>
    match opening? authority extension before (b :: r) with
    | none => b :: scan authority host extension (some b) 0 r
    | some o =>
      o.bytes ++ host ++ scan authority host extension (some b) (o.bytes.length + authority.length - 1) r

/-- the body with the host in the place of one authority -/
def rewrite (authority host : Bytes) (body : Bytes) : Bytes :=
  if authority.isEmpty || authority == host then body
  else scan authority host (extension? authority host) none 0 body

/-- the body with the host in the place of each authority in turn -/
def rewriteAll (authorities : List Bytes) (host : Bytes) (body : Bytes) : Bytes :=
  authorities.foldl (fun b a => rewrite a host b) body

/-- the words that mark a content type as text with URLs in it -/
def textMarks : List String := ["json", "html", "xml", "text/", "javascript", "css"]

/-- whether a content type is text that may hold socket URLs -/
def isTextType (contentType : String) : Bool :=
  let t := (Text.lowerAscii contentType).toList
  textMarks.any fun m => Text.occurs m.toList t

end MachineGateway.SocketUrl
