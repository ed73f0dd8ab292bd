/-
Scalars: plain, between quotes, and as blocks of lines. A line break inside a plain or quoted scalar counts as a
space, and each empty line after it as a line break.
-/
import MachineGateway.Yaml.Line
import MachineGateway.Yaml.Node
import MachineGateway.Text.Utf8

namespace MachineGateway.Yaml

/-- a character that ends a plain scalar inside brackets -/
def isFlowMark (c : Char) : Bool := ",[]\x7b\x7d".toList.contains c

/-- whether a plain scalar may begin here -/
def startsPlain (flow : Bool) : List Char → Bool
  | [] => false
  | c :: r =>
    if c == '-' || c == '?' || c == ':' then
      (c == '-' || !flow) && r.head?.any (!isBlank ·)
    else !isBlank c && !",[]\x7b\x7d#&*!|>'\"%@\x60".toList.contains c

/-- the part of a line that belongs to a plain scalar, and what follows; `before` is the character before -/
def plainPart (flow : Bool) : (before : Char) → List Char → List Char × List Char
  | _, [] => ([], [])
  | before, c :: r =>
    let next := match r with
      | [] => true
      | x :: _ => isBlank x || (flow && isFlowMark x)
    if (c == '#' && isBlank before) || (c == ':' && next) || (flow && isFlowMark c) then ([], c :: r)
    else (c :: (plainPart flow c r).1, (plainPart flow c r).2)

/-- joins what follows a line break: a space, or a line break for each empty line -/
def fold (empties : Nat) : List Char := if empties = 0 then [' '] else List.replicate empties '\n'

/-- the lines without the first ones that satisfy `p`, and how many those were -/
def skipLines (p : Line → Bool) : List Line → Nat × List Line
  | [] => (0, [])
  | l :: ls => if p l then ((skipLines p ls).1 + 1, (skipLines p ls).2) else (0, l :: ls)

/-- goes on with a plain scalar on the lines below that are indented by more than `parent`; the lines that are left
begin with the rest of the line on which the scalar ends -/
def plainMore (flow : Bool) (parent : Int) : (fuel : Nat) → List Line → List Char × List Line
  | 0, ls => ([], Line.nothing :: ls)
  | fuel + 1, ls =>
    let (empties, rest) := skipLines (fun l => l.text.isEmpty || (parent < l.indent && l.isSpace)) ls
    match rest with
    | [] => ([], [Line.nothing])
    | l :: below =>
      let (part, after) := plainPart flow ' ' (skipBlanks l.text)
      if (l.indent : Int) ≤ parent || l.isBoundary || l.isEmpty || part.isEmpty then ([], Line.nothing :: rest)
      else if after.isEmpty then
        let (more, left) := plainMore flow parent fuel below
        (fold empties ++ cutBlanks part ++ more, left)
      else (fold empties ++ cutBlanks part, ⟨l.indent, after⟩ :: below)

/-- whether the text goes on with a colon right before a bracket, which a plain scalar between brackets may not -/
def colonAtMark : List Char → Bool
  | ':' :: x :: _ => isFlowMark x
  | _ => false

/-- a plain scalar from the first line on, and what is left -/
def plain (flow : Bool) (parent : Int) : List Line → Option (List Char × List Line)
  | [] => none
  | l :: ls =>
    let (part, after) := plainPart flow ' ' l.text
    if !startsPlain flow l.text || (flow && colonAtMark after) then none
    else if after.isEmpty then
      let (more, left) := plainMore flow parent (ls.length + 1) ls
      if flow && colonAtMark ((left.headD Line.nothing).text) then none else some (cutBlanks part ++ more, left)
    else some (cutBlanks part, ⟨l.indent, after⟩ :: ls)

/-- the character that a one-letter escape stands for -/
def escape? (c : Char) : Option Char :=
  [('0', '\x00'), ('a', '\x07'), ('b', '\x08'), ('t', '\t'), ('\t', '\t'), ('n', '\n'), ('v', '\x0b'), ('f', '\x0c'),
    ('r', '\r'), ('e', '\x1b'), (' ', ' '), ('"', '"'), ('/', '/'), ('\\', '\\'), ('N', '\x85'), ('_', '\xa0'),
    ('L', '\u2028'), ('P', '\u2029')].lookup c

/-- how many digits an escape by number has -/
def escapeWidth? (c : Char) : Option Nat :=
  if c == 'x' then some 2 else if c == 'u' then some 4 else if c == 'U' then some 8 else none

/-- the character of a number, if it has one -/
def charOf? (n : Nat) : Option Char := if n < 0xD800 || (0xE000 ≤ n && n < 0x110000) then some (Char.ofNat n) else none

/-- a quoted scalar after its opening quote: its text, the rest of the line where it ends, and the lines below; blanks
around a line break are dropped -/
def quoted (double : Bool) : (fuel : Nat) → List Char → List Line → Option (List Char × List Char × List Line)
  | 0, _, _ => none
  | fuel + 1, here, below =>
    let put (c : List Char) (rest : List Char) : Option (List Char × List Char × List Line) :=
      (quoted double fuel rest below).map fun r => (c ++ r.1, r.2)
    let lineBreak (glue : Nat → List Char) : Option (List Char × List Char × List Line) :=
      let (empties, rest) := skipLines Line.isSpace below
      match rest with
      | [] => none
      | l :: below =>
        if l.isBoundary then none
        else (quoted double fuel (skipBlanks l.text) below).map fun r => (glue empties ++ r.1, r.2)
    match here with
    | [] => lineBreak fold
    | c :: r =>
      if isBlank c && (skipBlanks r).isEmpty then lineBreak fold
      else if double then
        if c == '"' then some ([], r, below)
        else if c == '\\' then
          match r with
          | [] => lineBreak fun n => List.replicate n '\n'
          | e :: r =>
            match escape? e, escapeWidth? e with
            | some x, _ => put [x] r
            | none, some w =>
              if (r.take w).length = w then
                match (based? 16 (r.take w)).bind charOf? with
                | some x => put [x] (r.drop w)
                | none => none
              else none
            | none, none => none
        else put [c] r
      else if c == '\'' then
        match r with
        | '\'' :: r => put ['\''] r
        | _ => some ([], r, below)
      else put [c] r

/-- what becomes of the line breaks at the end of a block scalar -/
inductive Chomp where
  | strip
  | clip
  | keep
  deriving DecidableEq, Repr

/-- the header of a block scalar after its mark: what happens at the end, and the indentation if it is given -/
def blockHeader (cs : List Char) : Option (Chomp × Option Nat) :=
  let signs := cs.takeWhile fun c => !isBlank c && c != '#'
  let chomp := if signs.contains '+' then Chomp.keep else if signs.contains '-' then .strip else .clip
  let digits := signs.filter Char.isDigit
  let others := signs.filter fun c => !c.isDigit
  if !isOver (cs.drop signs.length) || 1 < digits.length || 1 < others.length || digits == ['0'] ||
      others.any (fun c => c != '+' && c != '-') then none
  else some (chomp, digits.head?.map fun c => c.toNat - 48)

/-- the lines of a block scalar indented by at least `indent`, as texts, and the lines below it -/
def blockLines (indent : Nat) : List Line → List (List Char) × List Line
  | [] => ([], [])
  | l :: ls =>
    if l.text.isEmpty || (indent ≤ l.indent && !(indent == 0 && l.isBoundary)) then
      let (more, below) := blockLines indent ls
      ((List.replicate (l.indent - indent) ' ' ++ l.text) :: more, below)
    else ([], l :: ls)

/-- joins the lines of a folded block: a single break between lines of text becomes a space -/
def foldLines : (pending : Nat) → (text : Bool) → List (List Char) → List Char
  | _, _, [] => []
  | pending, wasText, l :: ls =>
    if l.isEmpty then foldLines (pending + 1) wasText ls
    else
      let isText := !(l.head?.any isBlank)
      let glue :=
        if !wasText || !isText then List.replicate pending '\n'
        else if pending ≤ 1 then (if pending = 0 then [] else [' '])
        else List.replicate (pending - 1) '\n'
      glue ++ l ++ foldLines 1 isText ls

/-- the text of a block scalar -/
def blockText (folded : Bool) (chomp : Chomp) (lines : List (List Char)) : List Char :=
  let body := Text.dropEndWhile List.isEmpty lines
  let text := if folded then foldLines 0 false body else ['\n'].intercalate body
  if body.isEmpty then (if chomp = .keep then List.replicate lines.length '\n' else [])
  else match chomp with
    | .strip => text
    | .clip => text ++ ['\n']
    | .keep => text ++ List.replicate (lines.length - body.length + 1) '\n'

/-- the indentation of a block scalar on the lines below `parent`: the given one, or that of its first line -/
def blockIndent (parent : Int) (given : Option Nat) (ls : List Line) : Nat :=
  match given with
  | some n => (max parent 0).toNat + n
  | none =>
    let first := ((skipLines (·.text.isEmpty) ls).2.headD Line.nothing).indent
    max first (max (parent + 1) 1).toNat

/-- a block scalar after its mark, and the lines below it -/
def block (folded : Bool) (parent : Int) (header : List Char) (ls : List Line) : Option (List Char × List Line) :=
  (blockHeader header).map fun h =>
    let (lines, below) := blockLines (blockIndent parent h.2 ls) ls
    (blockText folded h.1 lines, below)

/-- the number of characters and lines -/
def size (ls : List Line) : Nat := ls.foldl (fun n l => n + l.text.length + 1) 0

/-- a quoted scalar after its opening quote, and what is left -/
def quotedLines (double : Bool) : List Line → Option (List Char × List Line)
  | [] => none
  | l :: ls => (quoted double (size (l :: ls) + 1) l.text ls).map fun r => (r.1, ⟨l.indent, r.2.1⟩ :: r.2.2)

end MachineGateway.Yaml
