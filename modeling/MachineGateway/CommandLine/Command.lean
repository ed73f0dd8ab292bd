/-
What a command line asks for. Options come first, then a command, if there is one. A run is prepared in a fixed
order: the command line, the configuration file, the settings, the filter of the log; the first that fails decides
what is printed and with which status the program ends.
-/
import MachineGateway.CommandLine.LogFilter
import MachineGateway.CommandLine.Words
import MachineGateway.Gateway.Handling
import MachineGateway.Settings.Basic

namespace MachineGateway

inductive Command where
  | serve
  /-- resolves once and prints the backend -/
  | resolve (name : Option String)
  deriving DecidableEq, Repr

namespace CommandLine

/-- reads the words after `resolve`: at most one name -/
def resolveName : (ended : Bool) → (found : Option String) → List String → Except UsageError (Option String)
  | _, found, [] => .ok found
  | ended, found, w :: ws =>
    match if ended then .plain w else Word.ofString w with
    | .stop => resolveName true found ws
    | .plain s => if found.isSome then .error .unknownArgument else resolveName ended (some s) ws
    | .long "help" none => .error .help
    | .short ('h' :: _) => .error .help
    | .long "help" (some _) => .error .surplusValue
    | _ => .error .unknownArgument

def command : List String → Except UsageError Command
  | [] => .ok .serve
  | w :: ws =>
    if w = "resolve" then (resolveName false none ws).map .resolve
    else if w = "help" && (ws = [] || ws = ["resolve"] || ws = ["help"]) then .error .help
    else .error .unknownArgument

/-- the options and the command of a command line -/
def parse (environment : List (String × String)) (words : List String) : Except UsageError (Flags × Command) :=
  match Progress.read true {} words with
  | .error e => .error e
  | .ok (p, rest) =>
    match command rest, p.finish environment with
    | .error e, _ => .error e
    | .ok _, .error e => .error e
    | .ok c, .ok f => .ok (f, c)

end CommandLine

inductive Refusal where
  | usage (e : UsageError)
  | file (e : ConfigFile.LoadError)
  | listen (e : Settings.ListenError)
  | filter (f : LogFilter.Fault)
  deriving DecidableEq, Repr

/-- what a run of the program prints, and the status with which it ends -/
structure Printout where
  status : Nat := 0
  out : String := ""
  err : String := ""
  deriving DecidableEq, Repr, Inhabited

namespace Printout

/-- the printout of a failure, with its cause if that is told -/
def failure (message : String) (cause : Option String) : Printout where
  status := 1
  err := "Error: " ++ message ++ (match cause with | none => "" | some c => "\n\nCaused by:\n    " ++ c) ++ "\n"

def firstError (p : Printout) : String := String.ofList (Text.cutAt '\n' p.err.toList).1

end Printout

def programName : String := "vmgate"

def programVersion : String := "0.1.0"

/-- the usage of the program in one line for each option and command -/
def usageText : String :=
  "Usage: " ++ programName ++ " [OPTIONS] [COMMAND]\n\nCommands:\n  resolve [NAME]\n  help\n\nOptions:\n" ++
    String.join (Flag.all.map fun f => "      --" ++ f.name ++ " <VALUE>\n") ++ "  -h, --help\n  -V, --version\n"

namespace UsageError

def message : UsageError → String
  | .missingValue => "a value is required"
  | .badValue => "invalid value"
  | .unknownArgument => "unexpected argument"
  | .repeated => "the argument cannot be used multiple times"
  | .surplusValue => "unexpected value"
  | .help | .version => ""

def printout : UsageError → Printout
  | .help => { out := usageText }
  | .version => { out := programName ++ " " ++ programVersion ++ "\n" }
  | e => { status := 2, err := "error: " ++ e.message ++ "\n" }

end UsageError

def Refusal.printout : Refusal → Printout
  | .usage e => e.printout
  | .file e => .failure e.message none
  | .listen e => .failure e.message (some Settings.ListenError.cause)
  | .filter f => .failure f.message none

def loadFor (files : String → Option Bytes) (flags : Flags) : Except ConfigFile.LoadError ConfigFile :=
  match flags.config with
  | none => .ok {}
  | some name => ConfigFile.load name (files name)

def filterVariable : String := "RUST_LOG"

/-- what is wrong with the filter of the log: the environment's if it can be read, else the settings' -/
def filterFault? (environment : List (String × String)) (s : Settings) : Option LogFilter.Fault :=
  match environment.lookup filterVariable with
  | none => LogFilter.fault? s.logLevel
  | some v => if (LogFilter.fault? v).isNone then none else LogFilter.fault? s.logLevel

def prepare (environment : List (String × String)) (files : String → Option Bytes) (words : List String) :
    Except Refusal (Settings × Command) :=
  match CommandLine.parse environment words with
  | .error e => .error (.usage e)
  | .ok (flags, command) =>
    match loadFor files flags with
    | .error e => .error (.file e)
    | .ok config =>
      match Settings.resolve flags config.gateway with
      | .error e => .error (.listen e)
      | .ok s =>
        match filterFault? environment s with
        | some f => .error (.filter f)
        | none => .ok (s, command)

namespace Settings

def resolved (s : Settings) (b : Backend) : Printout where
  out :=
    "Machine:  " ++ b.machine.name ++ "\nStatus:   " ++ b.machine.status.name ++ "\nMapping:  " ++ b.mapping.tag ++
      " guest:" ++ b.mapping.internalPort ++ " host:" ++ b.mapping.externalPort ++ "\nDial:     " ++
      b.endpoint.text ++ " (" ++ s.dialing.mode.name ++ ")\n"

def resolveOnce (s : Settings) (listing : Except LookupError Listing) (name : Option String) : Printout :=
  match s.dialing.resolve listing name s.service.selector with
  | .ok b => s.resolved b
  | .error e => .failure ("Failed to resolve " ++ s.service.selector.text) (some e.message)

def gateway (s : Settings) : Gateway := ⟨s.gatewayConfig, s.dialing⟩

end Settings

end MachineGateway
