/-
JSON values and how they are spelled. A value has its members in order and its numerals as they are written; keys may
be repeated. `Value.Spells` is the grammar: white space is free around tokens, each character of a literal may stand
for itself or be escaped, and a pair of escapes stands for a far character (`Letter`), so that no half of a pair is
left over. The grammar knows nothing of how texts are read.

`Value.doc` is the document that a value is read as. A numeral whose value is not finite becomes a flaw there that can
be passed over, so that nothing stops someone who does not look at a value (`Value.obstacle_doc`).
-/
import MachineGateway.Json.Read
import MachineGateway.Proofs.Text.Utf8

namespace MachineGateway.Json

/-- a JSON value -/
inductive Value where
  | null
  | bool (b : Bool)
  | number (n : Numeral)
  | text (s : String)
  | array (items : List Value)
  | object (members : List (String × Value))

/-! ## Tokens -/

/-- white space between tokens -/
def IsBlank (w : Bytes) : Prop := ∀ b ∈ w, b = 0x20 ∨ b = 0x09 ∨ b = 0x0A ∨ b = 0x0D

/-- the letters of the short escapes, and the characters that they stand for -/
def shortEscapes : List (Char × Char) :=
  [('"', '"'), ('\\', '\\'), ('/', '/'), ('b', '\x08'), ('f', '\x0C'), ('n', '\n'), ('r', '\r'), ('t', '\t')]

/-- the number that hexadecimal digits of either case stand for -/
def hexNumber? (digits : Bytes) : Option Nat :=
  (digits.mapM Text.hexValue?).map fun ds => ds.foldl (fun n d => 16 * n + d) 0

/-- four hexadecimal digits for a number -/
def IsHex (digits : Bytes) (n : Nat) : Prop := digits.length = 4 ∧ hexNumber? digits = some n

instance (digits : Bytes) (n : Nat) : Decidable (IsHex digits n) := inferInstanceAs (Decidable (_ ∧ _))

/-- what may stand for a character between quotes -/
inductive Letter : Char → Bytes → Prop
  | plain (c : Char) (hcontrol : 0x20 ≤ c.toNat) (hquote : c ≠ '"') (hslash : c ≠ '\\') : Letter c (Utf8.encodeChar c)
  | short (e c : Char) (h : (e, c) ∈ shortEscapes) : Letter c (Utf8.encodeChars ['\\', e])
  | unicode (c : Char) (digits : Bytes) (h : IsHex digits c.toNat) : Letter c (Utf8.encodeChars ['\\', 'u'] ++ digits)
  | pair (c : Char) (high low : Nat) (digits digits' : Bytes) (hhigh : 0xD800 ≤ high ∧ high < 0xDC00)
      (hlow : 0xDC00 ≤ low ∧ low < 0xE000) (hc : c.toNat = 0x10000 + (high - 0xD800) * 1024 + (low - 0xDC00))
      (h : IsHex digits high) (h' : IsHex digits' low) :
      Letter c (Utf8.encodeChars ['\\', 'u'] ++ digits ++ (Utf8.encodeChars ['\\', 'u'] ++ digits'))

/-- a literal for a text -/
def IsLiteral (text : String) (s : Bytes) : Prop :=
  ∃ letters : List Bytes, List.Forall₂ Letter text.toList letters ∧ s = 0x22 :: (letters.flatten ++ [0x22])

def IsDigits (ds : List Char) : Prop := ds ≠ [] ∧ ∀ c ∈ ds, c.isDigit = true

/-- the sign of an exponent: plus can be left out -/
inductive IsSign : (down : Bool) → List Char → Prop
  | none : IsSign false []
  | plus : IsSign false ['+']
  | minus : IsSign true ['-']

/-- an exponent, if there is one -/
inductive SpellsExponent : Option (Bool × List Char) → List Char → Prop
  | none : SpellsExponent none []
  | some (e : Char) (he : e = 'e' ∨ e = 'E') (down : Bool) (sign : List Char) (hsign : IsSign down sign)
      (ds : List Char) (hds : IsDigits ds) : SpellsExponent (some (down, ds)) (e :: (sign ++ ds))

/-- a number as it is written: no zero in front of other digits, digits behind a point and in an exponent -/
structure Numeral.Spells (n : Numeral) (s : Bytes) : Prop where
  whole : IsDigits n.whole
  lead : n.whole = ['0'] ∨ n.whole.head? ≠ some '0'
  fraction : if n.pointed then IsDigits n.fraction else n.fraction = []
  text : ∃ e, SpellsExponent n.exponent e ∧ s = Utf8.encodeChars ((if n.negative then ['-'] else []) ++
    (n.whole ++ ((if n.pointed then '.' :: n.fraction else []) ++ e)))

/-! ## Values -/

/-- a value and its text in an array, with the white space around it -/
structure Element where
  before : Bytes
  value : Value
  text : Bytes
  after : Bytes

/-- a member of an object: a literal for its name, and its value behind a colon -/
structure Member where
  before : Bytes
  name : String
  literal : Bytes
  between : Bytes
  element : Element

def Element.bytes (e : Element) : Bytes := e.before ++ e.text ++ e.after

def Member.bytes (m : Member) : Bytes := m.before ++ m.literal ++ m.between ++ 0x3A :: m.element.bytes

def Member.field (m : Member) : String × Value := (m.name, m.element.value)

/-- parts with commas between them -/
def commaed : List Bytes → Bytes
  | [] => []
  | p :: ps => p ++ ps.flatMap (0x2C :: ·)

structure Element.IsSpaced (e : Element) : Prop where
  before : IsBlank e.before
  after : IsBlank e.after

structure Member.IsSpaced (m : Member) : Prop where
  before : IsBlank m.before
  literal : IsLiteral m.name m.literal
  between : IsBlank m.between
  element : m.element.IsSpaced

/-- a text for a value -/
inductive Value.Spells : Value → Bytes → Prop
  | null : Spells .null (Utf8.encode "null")
  | bool (b : Bool) : Spells (.bool b) (Utf8.encode (if b then "true" else "false"))
  | number (n : Numeral) (s : Bytes) (h : n.Spells s) : Spells (.number n) s
  | text (t : String) (s : Bytes) (h : IsLiteral t s) : Spells (.text t) s
  | array (w : Bytes) (hw : IsBlank w) (es : List Element) (hspaced : ∀ e ∈ es, e.IsSpaced)
      (h : ∀ e ∈ es, Spells e.value e.text) :
      Spells (.array (es.map Element.value)) (0x5B :: (w ++ commaed (es.map Element.bytes) ++ [0x5D]))
  | object (w : Bytes) (hw : IsBlank w) (ms : List Member) (hspaced : ∀ m ∈ ms, m.IsSpaced)
      (h : ∀ m ∈ ms, Spells m.element.value m.element.text) :
      Spells (.object (ms.map Member.field)) (0x7B :: (w ++ commaed (ms.map Member.bytes) ++ [0x7D]))

/-- a whole JSON text for a value -/
def Value.IsText (v : Value) (s : Bytes) : Prop :=
  ∃ before text after, IsBlank before ∧ v.Spells text ∧ IsBlank after ∧ s = before ++ text ++ after

/-! ## Documents of values -/

/-- the document of a numeral: its value, or a flaw where that is not finite -/
def Numeral.doc (n : Numeral) : Doc :=
  match n.value? with
  | some x => .number x
  | none => .flawed .malformed none

mutual

/-- the document that a value is read as -/
def Value.doc : Value → Doc
  | .null => .null
  | .bool b => .bool b
  | .number n => n.doc
  | .text s => .text s
  | .array items => .array (docs items) none
  | .object members => .object (docMembers members) none

def Value.docs : List Value → List Doc
  | [] => []
  | v :: vs => v.doc :: docs vs

def Value.docMembers : List (String × Value) → List (Doc × Doc)
  | [] => []
  | m :: ms => docMember m :: docMembers ms

def Value.docMember : String × Value → Doc × Doc
  | (name, v) => (.text name, v.doc)

end

mutual

/-- nothing stops someone who does not look at a value -/
theorem Value.obstacle_doc : ∀ v : Value, v.doc.obstacle = none
  | .null => rfl
  | .bool _ => rfl
  | .number n => by
    rw [doc, Numeral.doc]
    cases n.value? <;> rfl
  | .text _ => rfl
  | .array items => by
    rw [doc, Doc.obstacle, obstacle_docs items]
    rfl
  | .object members => by
    rw [doc, Doc.obstacle, obstacle_docMembers members]
    rfl

theorem Value.obstacle_docs : ∀ vs : List Value, Doc.obstacleItems (docs vs) = none
  | [] => rfl
  | v :: vs => by
    rw [docs, Doc.obstacleItems, obstacle_doc v, obstacle_docs vs]
    rfl

theorem Value.obstacle_docMembers : ∀ ms : List (String × Value), Doc.obstacleMembers (docMembers ms) = none
  | [] => rfl
  | (name, v) :: ms => by
    rw [docMembers, docMember, Doc.obstacleMembers, Doc.obstacleMember, obstacle_doc v, obstacle_docMembers ms]
    rfl

end

end MachineGateway.Json
