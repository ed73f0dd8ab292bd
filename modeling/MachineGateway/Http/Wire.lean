/-
Messages as bytes on a connection. A head ends with an empty line; how the body ends is decided by the head alone. What
has arrived so far is read from the beginning each time, so that reading is a function of the bytes: it asks for
more, gives a message, or finds that the bytes can become none.
-/
import MachineGateway.Http.Message
import MachineGateway.Text.Hex

namespace MachineGateway.Http.Wire

/-- what can be said of the bytes that have arrived -/
inductive Arrived (α : Type) where
  | more
  | whole (a : α)
  | broken
  deriving DecidableEq, Repr

def lineFeed : UInt8 := 10

/-- the end of a line as it is written -/
def lineEnd : Bytes := [13, 10]

/-- a line without the carriage return at its end -/
def bare (line : Bytes) : Bytes := if line.getLast? = some 13 then line.dropLast else line

/-- the lines up to the first empty one, and what follows that -/
def headLines : (fuel : Nat) → Bytes → Option (List Bytes × Bytes)
  | 0, _ => none
  | fuel + 1, b =>
    match Text.cutAt lineFeed b with
    | (_, none) => none
    | (line, some rest) =>
      if (bare line).isEmpty then some ([], rest)
      else (headLines fuel rest).map fun r => (bare line :: r.1, r.2)

/-- the header field in a line -/
def field? (line : Bytes) : Option Field :=
  match Text.cutAt 58 line with
  | (name, some value) =>
    (visibleText? name).bind fun n => if n = "" || n.toList.contains ' ' then none else some (Headers.field n value)
  | _ => none

def fields? (lines : List Bytes) : Option Headers := (lines.mapM field?).map Headers.received

/-- the first line of a message in three parts, the last of which may hold spaces -/
def threeParts? (line : Bytes) : Option (String × String × String) :=
  match Text.cutAt 32 line with
  | (a, some rest) =>
    let (b, c) := Text.cutAt 32 rest
    match Utf8.decode? a, Utf8.decode? b with
    | some a, some b => some (a, b, Utf8.lossy (c.getD []))
    | _, _ => none
  | _ => none

/-- how a body ends -/
inductive Framing where
  | length (n : Nat)
  | chunked
  | toEnd
  deriving DecidableEq, Repr

/-- how the body of a message with these headers ends, if they do not contradict themselves; `open` is for a message
that gives no length -/
def framing? (byDefault : Framing) (h : Headers) : Option Framing :=
  match Headers.text? h "transfer-encoding", Headers.text? h "content-length" with
  | some t, _ => if Text.lowerAscii (Text.trim t) = "chunked" then some .chunked else none
  | none, some n => (Text.plainNumber? Text.wordLimit n.toList).map .length
  | none, none => some byDefault

/-- the length at the beginning of a chunk -/
def chunkLength? (line : Bytes) : Option Nat :=
  let digits := line.takeWhile fun b => (Text.hexValue? b).isSome
  if digits.isEmpty || 16 < digits.length then none
  else some (digits.foldl (fun n b => 16 * n + (Text.hexValue? b).getD 0) 0)

/-- a body in chunks; trailers are passed over -/
def chunks : (fuel : Nat) → Bytes → Arrived Bytes
  | 0, _ => .more
  | fuel + 1, b =>
    match Text.cutAt lineFeed b with
    | (_, none) => .more
    | (line, some rest) =>
      match chunkLength? line with
      | none => .broken
      | some 0 => if (headLines (rest.length + 1) rest).isSome then .whole [] else .more
      | some n =>
        match Text.cutAt lineFeed (rest.drop n) with
        | (_, none) => .more
        | (_, some after) =>
          match chunks fuel after with
          | .whole more => .whole (rest.take n ++ more)
          | .more => .more
          | .broken => .broken

/-- a body of which these bytes have arrived; `ended` says whether the connection has ended -/
def body (framing : Framing) (ended : Bool) (b : Bytes) : Arrived Bytes :=
  match framing with
  | .length n => if n ≤ b.length then .whole (b.take n) else .more
  | .chunked => chunks (b.length + 1) b
  | .toEnd => if ended then .whole b else .more

/-- a request of which these bytes have arrived -/
def request (b : Bytes) : Arrived Request :=
  match headLines (b.length + 1) b with
  | none => .more
  | some ([], _) => .broken
  | some (first :: lines, rest) =>
    match threeParts? first, fields? lines with
    | some (method, target, _), some headers =>
      match Uri.parse target, framing? (.length 0) headers with
      | .ok uri, some framing =>
        match body framing false rest with
        | .whole body => .whole ⟨method, uri, headers, body⟩
        | .more => .more
        | .broken => .broken
      | _, _ => .broken
    | _, _ => .broken

/-- how an exchange stands when these bytes have arrived from a head on; informational heads are passed over -/
def exchangeFrom? (method : String) (ended : Bool) : (fuel : Nat) → Bytes → Option Exchange
  | 0, _ => none
  | fuel + 1, b =>
    match headLines (b.length + 1) b with
    | none => if ended then some .noResponse else none
    | some ([], _) => some .noResponse
    | some (first :: lines, rest) =>
      match threeParts? first, fields? lines with
      | some (version, code, _), some headers =>
        match Text.plainNumber? 999 code.toList, framing? .toEnd headers with
        | some status, some framing =>
          if !version.startsWith "HTTP/1." then some .noResponse
          else if isInformational status then exchangeFrom? method ended fuel rest
          else if endsWithHead method status then some (.complete ⟨status, headers, []⟩)
          else match body framing ended rest with
            | .whole body => some (.complete ⟨status, headers, body⟩)
            | .broken => some .cutShort
            | .more => if ended then some .cutShort else none
        | _, _ => some .noResponse
      | _, _ => some .noResponse

/-- how an exchange stands when these bytes of the response have arrived; none while more is needed -/
def exchange? (method : String) (ended : Bool) (b : Bytes) : Option Exchange :=
  exchangeFrom? method ended (b.length + 1) b

def fieldLine (f : Field) : Bytes := Utf8.encode f.name ++ [58, 32] ++ f.value ++ lineEnd

/-- a message from its first line, its fields and its body; the connection ends after it -/
def message (first : String) (h : Headers) (body : Bytes) : Bytes :=
  Utf8.encode first ++ lineEnd ++ h.flatMap fieldLine ++ fieldLine (Headers.textField "connection" "close") ++
    lineEnd ++ body

def requestBytes (o : Outbound) : Bytes :=
  let h := Headers.without ("connection" :: Http.framing) o.sentHeaders
  message (o.method ++ " " ++ o.uri.pathAndQuery ++ " HTTP/1.1")
    (if o.body.isEmpty then h else h ++ [Headers.textField "content-length" (toString o.body.length)]) o.body

def responseBytes (r : Response) : Bytes :=
  message ("HTTP/1.1 " ++ statusText r.status) (Headers.without ["connection"] r.headers) r.body

end MachineGateway.Http.Wire
