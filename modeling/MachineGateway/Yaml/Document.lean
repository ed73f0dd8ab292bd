/-
A document from its lines. Indentation nests mappings and sequences; between brackets it does not count. What is
left of a line that has been read in part stands as a line of its own, indented by its column, in front of the lines
below. Every step takes something away, so fuel by the size of the text is enough.
-/
import MachineGateway.Yaml.Scalar

namespace MachineGateway.Yaml

/-- what stands before a value: its name, or an explicit type -/
inductive Property where
  | anchor (name : String)
  /-- a type other than that of nothing -/
  | tag
  | nullTag
  deriving DecidableEq, Repr

/-- a character of the name of an anchor -/
def isNameChar (c : Char) : Bool := c.isAlphanum || c == '-' || c == '_'

/-- a name, and what follows it -/
def name? (cs : List Char) : Option (String × List Char) :=
  let name := cs.takeWhile isNameChar
  let rest := cs.drop name.length
  if name.isEmpty || rest.head?.any (fun c => !isBlank c && !"?:,]\x7d%@\x60".toList.contains c) then none
  else some (String.ofList name, rest)

/-- the property at the beginning of a text, with what follows it, if there is one -/
def property? (flow : Bool) : List Char → Option (Property × List Char)
  | '&' :: cs => (name? cs).map fun r => (.anchor r.1, skipBlanks r.2)
  | '!' :: cs =>
    let tag := cs.takeWhile fun c => !isBlank c && !(flow && isFlowMark c)
    some (if String.ofList tag = "!null" then .nullTag else .tag, skipBlanks (cs.drop tag.length))
  | _ => none

/-- a value with a property -/
def Property.mark : Property → Node → Node
  | .anchor name, n => .anchored name n
  | .tag, .scalar t plain _ => .scalar t plain true
  | _, n => n

/-- the next place between brackets where something stands -/
def toToken : List Line → Option (List Line)
  | [] => none
  | l :: ls =>
    if l.isBoundary then none
    else if isOver l.text then toToken ls
    else some ({ l with text := skipBlanks l.text } :: ls)

/-- the place after one given character, if the character stands there -/
def mark? (c : Char) : List Line → Option (List Line)
  | { indent, text := x :: r } :: ls => if x == c then some (⟨indent, r⟩ :: ls) else none
  | _ => none

/-- whether one of two given characters stands here -/
def stands (a b : Char) : List Line → Bool
  | { indent := _, text := x :: _ } :: _ => x == a || x == b
  | _ => false

mutual

/-- a value between brackets -/
def flowNode : (fuel : Nat) → List Line → Option (Node × List Line)
  | 0, _ => none
  | fuel + 1, ls =>
    match toToken ls with
    | none | some [] => none
    | some (l :: ls) =>
      match property? true l.text with
      | some (p, rest) =>
        match toToken (⟨0, rest⟩ :: ls) with
        | none => none
        | some ls => if stands ',' ']' ls || stands ':' '\x7d' ls then some (p.mark .empty, ls)
          else (flowNode fuel ls).map fun r => (p.mark r.1, r.2)
      | none =>
        match l.text with
        | '[' :: r => (flowItems fuel (⟨0, r⟩ :: ls)).map fun r => (.sequence r.1, r.2)
        | '\x7b' :: r => (flowEntries fuel (⟨0, r⟩ :: ls)).map fun r => (.mapping r.1, r.2)
        | '"' :: r => (quotedLines true (⟨0, r⟩ :: ls)).map fun r => (.scalar (String.ofList r.1) false false, r.2)
        | '\'' :: r => (quotedLines false (⟨0, r⟩ :: ls)).map fun r => (.scalar (String.ofList r.1) false false, r.2)
        | '*' :: r => (name? r).map fun r => (.alias r.1, ⟨0, r.2⟩ :: ls)
        | _ => (plain true (-1) (l :: ls)).map fun r => (.scalar (String.ofList r.1) true false, r.2)

/-- the value after a colon between brackets, where nothing may stand -/
def flowValue : (fuel : Nat) → (close : Char) → List Line → Option (Node × List Line)
  | 0, _, _ => none
  | fuel + 1, close, ls =>
    match toToken ls with
    | none => none
    | some ls => if stands ',' close ls then some (.empty, ls) else flowNode fuel ls

/-- the elements of a sequence up to its closing bracket -/
def flowItems : (fuel : Nat) → List Line → Option (List Node × List Line)
  | 0, _ => none
  | fuel + 1, ls =>
    match toToken ls with
    | none => none
    | some ls =>
      match mark? ']' ls with
      | some ls => some ([], ls)
      | none =>
        match flowNode fuel ls with
        | none => none
        | some (n, ls) =>
          match flowPair fuel ']' n ls with
          | none => none
          | some (pair, ls) =>
            (flowNext fuel ls).map fun r =>
              ((match pair with | none => n | some v => .mapping [(n, v)]) :: r.1, r.2)

/-- what follows an element: a comma and more elements, or the closing bracket -/
def flowNext : (fuel : Nat) → List Line → Option (List Node × List Line)
  | 0, _ => none
  | fuel + 1, ls =>
    match mark? ',' ls with
    | some ls => flowItems fuel ls
    | none => (mark? ']' ls).map fun ls => ([], ls)

/-- the value after a key, if a colon follows the key -/
def flowPair : (fuel : Nat) → (close : Char) → (key : Node) → List Line → Option (Option Node × List Line)
  | 0, _, _, _ => none
  | fuel + 1, close, _, ls =>
    match toToken ls with
    | none => none
    | some ls =>
      match mark? ':' ls with
      | none => some (none, ls)
      | some ls =>
        match flowValue fuel close ls with
        | none => none
        | some (v, ls) => (toToken ls).map fun ls => (some v, ls)

/-- the entries of a mapping up to its closing bracket -/
def flowEntries : (fuel : Nat) → List Line → Option (List (Node × Node) × List Line)
  | 0, _ => none
  | fuel + 1, ls =>
    match toToken ls with
    | none => none
    | some ls =>
      match mark? '\x7d' ls with
      | some ls => some ([], ls)
      | none =>
        match flowNode fuel ls with
        | none => none
        | some (k, ls) =>
          match flowPair fuel '\x7d' k ls with
          | none => none
          | some (v, ls) =>
            let entry := (k, v.getD .empty)
            match mark? ',' ls with
            | some ls => (flowEntries fuel ls).map fun r => (entry :: r.1, r.2)
            | none => (mark? '\x7d' ls).map fun ls => ([entry], ls)

end

/-- the lines below, if nothing is left of the first one -/
def endLine : List Line → Option (List Line)
  | [] => some []
  | l :: ls => if isOver l.text then some ls else none

/-- the lines from the first one that is not empty -/
def dropEmpty (ls : List Line) : List Line := (skipLines Line.isEmpty ls).2

/-- what follows a dash that stands alone, as a line of its own -/
def Line.entry? (l : Line) : Option Line :=
  match l.text with
  | '-' :: r =>
    if r.isEmpty || r.head?.any isBlank then some ⟨l.indent + 1 + (r.takeWhile isBlank).length, skipBlanks r⟩ else none
  | _ => none

/-- a key on one line, with what follows its colon -/
def key? : List Char → Option (Node × List Char)
  | cs =>
    let found : Option (Node × List Char) := match cs with
      | '"' :: r => (quotedLines true [⟨0, r⟩]).map fun x => (.scalar (String.ofList x.1) false false, (x.2.headD .nothing).text)
      | '\'' :: r => (quotedLines false [⟨0, r⟩]).map fun x => (.scalar (String.ofList x.1) false false, (x.2.headD .nothing).text)
      | '*' :: r => (name? r).map fun x => (.alias x.1, x.2)
      | _ =>
        if startsPlain false cs then
          let (part, after) := plainPart false ' ' cs
          some (.scalar (String.ofList (cutBlanks part)) true false, after)
        else none
    match found with
    | none => none
    | some (k, after) =>
      match skipBlanks after with
      | ':' :: r => if r.isEmpty || r.head?.any isBlank then some (k, skipBlanks r) else none
      | _ => none

/-- a key on one line, possibly after properties -/
def entryKey? (cs : List Char) : Option (Node × List Char) :=
  match property? false cs with
  | some (p, rest) => (key? rest).map fun r => (p.mark r.1, r.2)
  | none => key? cs

mutual

/-- the value on the lines below that are indented by more than `parent`; where `level` holds, a sequence may stand
on the level of `parent` itself -/
def blockNode : (fuel : Nat) → (parent : Int) → (level : Bool) → List Line → Option (Node × List Line)
  | 0, _, _, _ => none
  | fuel + 1, parent, level, ls =>
    match dropEmpty ls with
    | [] => some (.empty, [])
    | l :: ls =>
      if l.isBoundary then some (.empty, l :: ls)
      else if parent < l.indent then nodeHere fuel parent (l :: ls)
      else if level && parent = l.indent && l.entry?.isSome then
        (blockItems fuel l.indent (l :: ls)).map fun r => (.sequence r.1, r.2)
      else some (.empty, l :: ls)

/-- the value that begins on the first line -/
def nodeHere : (fuel : Nat) → (parent : Int) → List Line → Option (Node × List Line)
  | 0, _, _ => none
  | _, _, [] => none
  | fuel + 1, parent, l :: ls =>
    if l.entry?.isSome then (blockItems fuel l.indent (l :: ls)).map fun r => (.sequence r.1, r.2)
    else if (entryKey? l.text).isSome then (blockEntries fuel l.indent (l :: ls)).map fun r => (.mapping r.1, r.2)
    else inline fuel parent false (l :: ls)

/-- the value on the rest of a line that belongs to `parent`, which may go on below -/
def inline : (fuel : Nat) → (parent : Int) → (level : Bool) → List Line → Option (Node × List Line)
  | 0, _, _, _ => none
  | _, _, _, [] => none
  | fuel + 1, parent, level, l :: ls =>
    match property? false l.text with
    | some (p, rest) =>
      (if isOver rest then blockNode fuel parent level ls else inline fuel parent level (⟨l.indent, rest⟩ :: ls)).map
        fun r => (p.mark r.1, r.2)
    | none =>
      match l.text with
      | '|' :: r => (block false parent r ls).map fun r => (.scalar (String.ofList r.1) false false, r.2)
      | '>' :: r => (block true parent r ls).map fun r => (.scalar (String.ofList r.1) false false, r.2)
      | '"' :: r =>
        (quotedLines true (⟨0, r⟩ :: ls)).bind fun r =>
          (endLine r.2).map fun ls => (.scalar (String.ofList r.1) false false, ls)
      | '\'' :: r =>
        (quotedLines false (⟨0, r⟩ :: ls)).bind fun r =>
          (endLine r.2).map fun ls => (.scalar (String.ofList r.1) false false, ls)
      | '*' :: r => (name? r).bind fun r => (endLine (⟨0, r.2⟩ :: ls)).map fun ls => (.alias r.1, ls)
      | c :: _ =>
        if c == '[' || c == '\x7b' then
          (flowNode fuel (l :: ls)).bind fun r => (endLine r.2).map fun ls => (r.1, ls)
        else
          (plain false parent (l :: ls)).bind fun r =>
            (endLine r.2).map fun ls => (.scalar (String.ofList r.1) true false, ls)
      | [] => none

/-- the elements of a sequence at an indentation -/
def blockItems : (fuel : Nat) → (indent : Nat) → List Line → Option (List Node × List Line)
  | 0, _, _ => none
  | fuel + 1, indent, ls =>
    match dropEmpty ls with
    | [] => some ([], [])
    | l :: ls =>
      if l.isBoundary || l.indent < indent then some ([], l :: ls)
      else if indent < l.indent then none
      else match l.entry? with
        | none => some ([], l :: ls)
        | some item =>
          match (if isOver item.text then blockNode fuel indent false ls else nodeHere fuel indent (item :: ls)) with
          | none => none
          | some (n, ls) => (blockItems fuel indent ls).map fun r => (n :: r.1, r.2)

/-- the entries of a mapping at an indentation -/
def blockEntries : (fuel : Nat) → (indent : Nat) → List Line → Option (List (Node × Node) × List Line)
  | 0, _, _ => none
  | fuel + 1, indent, ls =>
    match dropEmpty ls with
    | [] => some ([], [])
    | l :: ls =>
      if l.isBoundary || l.indent < indent then some ([], l :: ls)
      else if indent < l.indent then none
      else match entryKey? l.text with
        | none => none
        | some (k, rest) =>
          match (if isOver rest then blockNode fuel indent true ls else inline fuel indent true (⟨indent, rest⟩ :: ls)) with
          | none => none
          | some (v, ls) => (blockEntries fuel indent ls).map fun r => ((k, v) :: r.1, r.2)

end

/-- the lines after directives, if those are ones that every document may have -/
def dropDirectives : List Line → Option (List Line)
  | [] => some []
  | l :: ls =>
    if l.isEmpty || l.isMarker '.' then dropDirectives ls
    else if l.indent == 0 && l.text.head? == some '%' then
      if l.text.take 8 == "%YAML 1.".toList || l.text.take 5 == "%TAG ".toList then
        (dropDirectives ls).bind fun ls => if ls.any (·.isMarker '-') then some ls else none
      else none
    else some (l :: ls)

/-- whether no second document follows -/
def isEnd (ls : List Line) : Bool := ls.all fun l => l.isEmpty || l.isMarker '.'

/-- the value of the document in the lines -/
def document? (ls : List Line) : Option Node :=
  let fuel := 4 * size ls + 8
  match dropDirectives ls with
  | none => none
  | some ls =>
    let found := match ls with
      | l :: below =>
        if l.isMarker '-' then
          let rest := skipBlanks (l.text.drop 3)
          if isOver rest then blockNode fuel (-1) false below else inline fuel (-1) false (⟨0, rest⟩ :: below)
        else blockNode fuel (-1) false ls
      | [] => some (.empty, [])
    found.bind fun r => if isEnd r.2 then (r.1.settle []).map (·.1) else none

/-- the value in a text that holds at most one document -/
def Node.ofText? (s : String) : Option Node := (linesOf? s).bind document?

end MachineGateway.Yaml
