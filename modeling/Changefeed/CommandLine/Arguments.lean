/-!
# Arguments of the command

The command checks a configuration or replays a recording. The option for the path of the
configuration comes before the task and may be given once. An argument that starts with a hyphen is
an option, unless it is a lone hyphen or follows two hyphens.
-/

namespace Changefeed.CommandLine

inductive Task
  | check
  | replay (input : String)
deriving DecidableEq, Repr

structure Command where
  config : String
  task : Task
deriving DecidableEq, Repr

inductive Invocation
  | run (c : Command)
  | version
  | help
deriving DecidableEq, Repr

def defaultConfig : String := "relay.toml"

def isOption (arg : String) : Bool :=
  match arg.toList with
  | ['-'] => false
  | '-' :: _ => true
  | _ => false

def isValue (arg : String) : Bool := arg != "" && !isOption arg

/-- The two options that every part of the command knows; of short options written together the
first counts. -/
def asksForHelp (arg : String) : Bool := arg == "--help" || arg.toList.take 2 == ['-', 'h']

def asksForVersion (arg : String) : Bool := arg == "--version" || arg.toList.take 2 == ['-', 'V']

def attached? (arg : String) : Option String :=
  let cs := arg.toList
  let long := "--config=".toList
  if cs.take long.length == long then some (String.ofList (cs.drop long.length))
  else match cs with
    | '-' :: 'c' :: '=' :: value => some (String.ofList value)
    | '-' :: 'c' :: c :: value => some (String.ofList (c :: value))
    | _ => none

def parseCheck? (config : String) : List String → Option Invocation
  | [] | ["--"] => some (.run ⟨config, .check⟩)
  | arg :: _ => if asksForHelp arg then some .help else none

def parseAfterInput? (config input : String) : List String → Option Invocation
  | [] | ["--"] => some (.run ⟨config, .replay input⟩)
  | arg :: _ => if asksForHelp arg then some .help else none

def parseReplay? (config : String) : List String → Option Invocation
  | ["--", input] => if input = "" then none else some (.run ⟨config, .replay input⟩)
  | arg :: rest =>
    if asksForHelp arg then some .help
    else if isValue arg then parseAfterInput? config arg rest
    else none
  | [] => none

def isTask (arg : String) : Bool := arg == "check" || arg == "replay" || arg == "help"

def parseFrom? : Option String → List String → Option Invocation
  | _, [] => none
  | config, "check" :: rest => parseCheck? (config.getD defaultConfig) rest
  | config, "replay" :: rest => parseReplay? (config.getD defaultConfig) rest
  | _, "help" :: rest => if rest.length ≤ 1 && rest.all isTask then some .help else none
  | config, arg :: rest =>
    if asksForHelp arg then some .help
    else if asksForVersion arg then some .version
    else if config.isSome then none
    else if arg = "-c" ∨ arg = "--config" then
      match rest with
      | value :: rest => if isValue value then parseFrom? (some value) rest else none
      | [] => none
    else match attached? arg with
      | some value => if value = "" then none else parseFrom? (some value) rest
      | none => none

def parse? (args : List String) : Option Invocation := parseFrom? none args

end Changefeed.CommandLine
