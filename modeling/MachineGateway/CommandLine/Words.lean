/-
The words of a command line. An option's value stands after an equals sign or is the next word that does not begin
with a dash; `--` ends the options. An option that waits for its value is settled by the word after the value, so
that a fault found on that word may come first.
-/
import MachineGateway.Settings.Flags
import MachineGateway.Text.Split

namespace MachineGateway.CommandLine

inductive Word where
  /-- two dashes alone -/
  | stop
  | long (name : String) (value : Option String)
  | short (letters : List Char)
  | plain (text : String)
  deriving DecidableEq, Repr

/-- the form of a word; a dash alone is plain -/
def Word.ofString (s : String) : Word :=
  match s.toList with
  | ['-', '-'] => .stop
  | '-' :: '-' :: r =>
    let (name, value) := Text.cutAt '=' r
    .long (String.ofList name) (value.map String.ofList)
  | '-' :: c :: r => .short (c :: r)
  | _ => .plain s

structure Progress where
  flags : Flags := {}
  /-- the options that have been set -/
  given : List Flag := []
  /-- the option that is still to be set, with its value if that has been read -/
  pending : Option (Flag × Option String) := none
  deriving DecidableEq, Repr

namespace Progress

def set (p : Progress) (flag : Flag) (value : String) : Except UsageError Progress :=
  if flag != .allowedOrigin && p.given.contains flag then .error .repeated
  else (p.flags.put flag value).map fun f => { p with flags := f, given := flag :: p.given }

/-- sets the option that is still to be set -/
def settle (p : Progress) : Except UsageError Progress :=
  match p.pending with
  | none => .ok p
  | some (_, none) => .error .missingValue
  | some (flag, some value) => { p with pending := none }.set flag value

/-- a word that asks for something other than a run -/
def ask (p : Progress) (what : UsageError) (value : Option String) : UsageError :=
  match value, p.settle with
  | some _, _ => .surplusValue
  | none, .error e => e
  | none, .ok _ => what

/-- reads a word with two dashes -/
def long (versioned : Bool) (p : Progress) (name : String) (value : Option String) : Except UsageError Progress :=
  match Flag.ofName? name, value with
  | some flag, some v => p.settle.bind fun p => p.set flag v
  | some flag, none => p.settle.map fun p => { p with pending := some (flag, none) }
  | none, _ =>
    if name = "help" then .error (p.ask .help value)
    else if versioned && name = "version" then .error (p.ask .version value)
    else .error .unknownArgument

/-- reads a word with one dash: none of its letters is an option -/
def short (versioned : Bool) (p : Progress) (letters : List Char) : UsageError :=
  if letters.head? = some 'h' then p.ask .help none
  else if versioned && letters.head? = some 'V' then p.ask .version none
  else .unknownArgument

/-- reads words up to the first one that belongs to no option -/
def read (versioned : Bool) : Progress → List String → Except UsageError (Progress × List String)
  | p, [] => .ok (p, [])
  | p, w :: ws =>
    match Word.ofString w with
    | .stop => if ws.isEmpty then .ok (p, []) else .error .unknownArgument
    | .long name value =>
      match p.long versioned name value with
      | .error e => .error e
      | .ok p => read versioned p ws
    | .short letters => .error (p.short versioned letters)
    | .plain s =>
      match p.pending with
      | some (flag, none) => read versioned { p with pending := some (flag, some s) } ws
      | _ => .ok (p, w :: ws)

/-- sets the options that the command line leaves open from the environment, in their order -/
def addVariables (environment : List (String × String)) : Progress → List Flag → Except UsageError Progress
  | p, [] => .ok p
  | p, flag :: more =>
    match flag.variableName?.bind fun name => environment.lookup name with
    | none => addVariables environment p more
    | some value =>
      if p.given.contains flag then addVariables environment p more
      else match p.set flag value with
        | .error e => .error e
        | .ok p => addVariables environment p more

def finish (environment : List (String × String)) (p : Progress) : Except UsageError Flags :=
  match p.settle with
  | .error e => .error e
  | .ok p => (addVariables environment p Flag.all).map (·.flags)

end Progress

/-- the options of a command line that holds nothing else -/
def flags (environment : List (String × String)) (words : List String) : Except UsageError Flags :=
  match Progress.read false {} words with
  | .error e => .error e
  | .ok (p, []) => p.finish environment
  | .ok (_, _ :: _) => .error .unknownArgument

end MachineGateway.CommandLine
