/-
Reading JSON text. `Doc.ofBytes` never fails: what cannot be read becomes a flaw inside the document. A string
literal is looked at twice: `readString` for the text that it stands for, `passString` for its end alone, because a
literal without text (half a surrogate pair, bytes that are no characters) can still be passed over.
-/
import MachineGateway.Json.Doc
import MachineGateway.Text.Hex

namespace MachineGateway.Json

/-- white space between tokens -/
def isSpace (b : UInt8) : Bool := b == 0x20 || b == 0x0A || b == 0x0D || b == 0x09

/-- the text from the next token on -/
def skipSpace (s : Bytes) : Bytes := s.dropWhile isSpace

def isDigit (b : UInt8) : Bool := 0x30 ≤ b && b ≤ 0x39

/-- the byte that a one-letter escape stands for -/
def shortEscape? (b : UInt8) : Option UInt8 :=
  if b == 0x22 || b == 0x5C || b == 0x2F then some b
  else if b == 0x62 then some 0x08
  else if b == 0x66 then some 0x0C
  else if b == 0x6E then some 0x0A
  else if b == 0x72 then some 0x0D
  else if b == 0x74 then some 0x09
  else none

/-- the number that four hexadecimal digits stand for -/
def fourHex? (a b c d : UInt8) : Option Nat :=
  match Text.hexValue? a, Text.hexValue? b, Text.hexValue? c, Text.hexValue? d with
  | some w, some x, some y, some z => some (4096 * w + 256 * x + 16 * y + z)
  | _, _, _, _ => none

/-- the first half of a surrogate pair -/
def isHighHalf (n : Nat) : Bool := 0xD800 ≤ n && n < 0xDC00

def isLowHalf (n : Nat) : Bool := 0xDC00 ≤ n && n < 0xE000

/-- puts bytes in front of what a literal goes on with -/
def prepend (front : Bytes) (r : Except Flaw (Bytes × Bytes)) : Except Flaw (Bytes × Bytes) :=
  r.map fun p => (front ++ p.1, p.2)

/-- the bytes of a literal up to its closing quote, escapes replaced, and what follows the quote -/
def readString : Bytes → Except Flaw (Bytes × Bytes)
  | [] => .error .ended
  | x :: r =>
    if x == 0x22 then .ok ([], r)
    else if x == 0x5C then
      match r with
      | [] => .error .ended
      | e :: r =>
        if e == 0x75 then
          match r with
          | a :: b :: c :: d :: r =>
            match fourHex? a b c d with
            | none => .error .malformed
            | some n =>
              if isLowHalf n then .error .malformed
              else if isHighHalf n then
                match r with
                | [] => .error .ended
                | x :: r =>
                  if x == 0x5C then
                    match r with
                    | [] => .error .ended
                    | u :: r =>
                      if u == 0x75 then
                        match r with
                        | a :: b :: c :: d :: r =>
                          match fourHex? a b c d with
                          | none => .error .malformed
                          | some m =>
                            if isLowHalf m then
                              prepend (Utf8.encodeChar
                                (Char.ofNat ((n - 0xD800) * 1024 + (m - 0xDC00) + 0x10000))) (readString r)
                            else .error .malformed
                        | _ => .error .ended
                      else .error .malformed
                  else .error .malformed
              else prepend (Utf8.encodeChar (Char.ofNat n)) (readString r)
          | _ => .error .ended
        else
          match shortEscape? e with
          | some c => prepend [c] (readString r)
          | none => .error .malformed
    else if x < 0x20 then .error .malformed
    else prepend [x] (readString r)

/-- what follows a literal's closing quote, with escapes checked for their form alone -/
def passString : Bytes → Except Flaw Bytes
  | [] => .error .ended
  | x :: r =>
    if x == 0x22 then .ok r
    else if x == 0x5C then
      match r with
      | [] => .error .ended
      | e :: r =>
        if e == 0x75 then
          match r with
          | a :: b :: c :: d :: r => if (fourHex? a b c d).isSome then passString r else .error .malformed
          | _ => .error .ended
        else if (shortEscape? e).isSome then passString r
        else .error .malformed
    else if x < 0x20 then .error .malformed
    else passString r

/-- part of a document, and what follows it unless the text cannot even be passed there -/
abbrev Part (α : Type) := α × Option Bytes

/-- leaves a flaw that ends everything -/
def stop (f : Flaw) : Part Doc := (.broken f, none)

/-- the literal whose opening quote has been read -/
def stringPart (s : Bytes) : Part Doc :=
  match readString s, passString s with
  | .ok (raw, rest), _ =>
    match Utf8.decode? raw with
    | some t => (.text t, some rest)
    | none => (.flawed .malformed none, some rest)
  | .error f, .ok rest => (.flawed f none, some rest)
  | .error f, .error g => (.flawed f (some g), none)

/-- bytes that are ASCII, as characters -/
def asciiChars (b : Bytes) : List Char := b.map fun x => Char.ofNat x.toNat

/-- a flaw where a digit should stand: reading takes the end of the text for what it is, passing does not -/
def noDigit (rest : Bytes) : Part Doc :=
  (.flawed (if rest.isEmpty then .ended else .malformed) (some .malformed), none)

/-- the value of a numeral whose last byte has been read -/
def numeralPart (n : Numeral) (rest : Bytes) : Part Doc :=
  match n.value? with
  | some v => (.number v, some rest)
  | none => (.flawed .malformed none, some rest)

/-- the exponent of a numeral, if there is one -/
def exponentPart (n : Numeral) (s : Bytes) : Part Doc :=
  match s with
  | [] => numeralPart n s
  | e :: r =>
    if e == 0x65 || e == 0x45 then
      let (down, r) : Bool × Bytes := match r with
        | x :: r' => if x == 0x2B then (false, r') else if x == 0x2D then (true, r') else (false, r)
        | [] => (false, [])
      let digits := r.takeWhile isDigit
      if digits.isEmpty then noDigit r
      else numeralPart { n with exponent := some (down, asciiChars digits) } (r.dropWhile isDigit)
    else numeralPart n s

/-- the decimals of a numeral, if there are some, and its exponent -/
def fractionPart (n : Numeral) (s : Bytes) : Part Doc :=
  match s with
  | [] => numeralPart n s
  | p :: r =>
    if p == 0x2E then
      let digits := r.takeWhile isDigit
      if digits.isEmpty then noDigit r
      else exponentPart { n with fraction := asciiChars digits, pointed := true } (r.dropWhile isDigit)
    else exponentPart n s

/-- a number, from its sign or first digit on -/
def numberPart (s : Bytes) : Part Doc :=
  let (negative, s) : Bool × Bytes := match s with
    | x :: r => if x == 0x2D then (true, r) else (false, s)
    | [] => (false, [])
  match s with
  | [] => noDigit s
  | x :: r =>
    if x == 0x30 then
      match r with
      | y :: _ =>
        if isDigit y then stop .malformed else fractionPart ⟨negative, ['0'], [], none, false⟩ r
      | [] => fractionPart ⟨negative, ['0'], [], none, false⟩ r
    else if isDigit x then
      fractionPart ⟨negative, asciiChars (s.takeWhile isDigit), [], none, false⟩ (s.dropWhile isDigit)
    else noDigit s

/-- a member's name: whatever is no string literal is kept as it is, or is a flaw if it cannot be read -/
def namePart (part : Part Doc) (quoted : Bool) : Part Doc :=
  if quoted then part
  else match part.1 with
    | .flawed _ _ => stop .malformed
    | _ => part

/-- the rest of a word whose first letter told which it is -/
def wordPart (value : Doc) : (letters : List UInt8) → Bytes → Part Doc
  | [], s => (value, some s)
  | _ :: _, [] => stop .ended
  | c :: letters, x :: r => if c == x then wordPart value letters r else stop .malformed

mutual

/-- one value; the fuel bounds the nesting -/
def valuePart : (fuel : Nat) → Bytes → Part Doc
  | 0, _ => stop .malformed
  | fuel + 1, s =>
    match skipSpace s with
    | [] => stop .ended
    | x :: r =>
      if x == 0x22 then stringPart r
      else if x == 0x5B then
        let (items, cut, rest) := itemsPart fuel true r
        (.array items cut, rest)
      else if x == 0x7B then
        let (members, cut, rest) := membersPart fuel true r
        (.object members cut, rest)
      else if x == 0x2D || isDigit x then numberPart (x :: r)
      else if x == 0x6E then wordPart .null [0x75, 0x6C, 0x6C] r
      else if x == 0x74 then wordPart (.bool true) [0x72, 0x75, 0x65] r
      else if x == 0x66 then wordPart (.bool false) [0x61, 0x6C, 0x73, 0x65] r
      else stop .malformed

/-- the elements up to the closing bracket; `first` before the first of them -/
def itemsPart : (fuel : Nat) → (first : Bool) → Bytes → List Doc × Option Flaw × Option Bytes
  | 0, _, _ => ([], some .malformed, none)
  | fuel + 1, first, s =>
    match skipSpace s with
    | [] => ([], some .ended, none)
    | x :: r =>
      if x == 0x5D then ([], none, some r)
      else if !first && x != 0x2C then ([], some .malformed, none)
      else
        let (item, rest) := valuePart fuel (if first then x :: r else r)
        match rest with
        | none => ([item], none, none)
        | some rest =>
          let (items, cut, rest) := itemsPart fuel false rest
          (item :: items, cut, rest)

/-- the members up to the closing brace; `first` before the first of them -/
def membersPart : (fuel : Nat) → (first : Bool) → Bytes → List (Doc × Doc) × Option Flaw × Option Bytes
  | 0, _, _ => ([], some .malformed, none)
  | fuel + 1, first, s =>
    match skipSpace s with
    | [] => ([], some .ended, none)
    | x :: r =>
      if x == 0x7D then ([], none, some r)
      else if !first && x != 0x2C then ([], some .malformed, none)
      else
        let text := if first then x :: r else r
        let (name, rest) := namePart (valuePart fuel text) ((skipSpace text).head? == some 0x22)
        match rest with
        | none => ([(name, .broken .malformed)], none, none)
        | some rest =>
          match skipSpace rest with
          | [] => ([(name, .broken .ended)], none, none)
          | c :: rest =>
            if c != 0x3A then ([(name, .broken .malformed)], none, none)
            else
              let (value, rest) := valuePart fuel rest
              match rest with
              | none => ([(name, value)], none, none)
              | some rest =>
                let (members, cut, rest) := membersPart fuel false rest
                ((name, value) :: members, cut, rest)

end

/-- what is wrong after a whole document: only white space may follow -/
def trailing (rest : Bytes) : Option Flaw := if (skipSpace rest).isEmpty then none else some .malformed

/-- the document in a text, and what is wrong after it -/
def Doc.ofBytes (s : Bytes) : Doc × Option Flaw :=
  let (doc, rest) := valuePart (2 * s.length + 2) s
  (doc, rest.bind trailing)

end MachineGateway.Json
