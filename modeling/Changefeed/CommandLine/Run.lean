import Changefeed.CommandLine.Arguments
import Changefeed.CommandLine.Report
import Changefeed.CommandLine.Summary
import Changefeed.Config.EnvFile

/-!
# The command

Variables are loaded first, from the closest file that sets some. Then the configuration is read,
its references are resolved and it is validated, before the task is done. A replay writes every
message as a line to the standard output, and its totals to the standard error.
-/

namespace Changefeed.CommandLine

structure Surroundings where
  environment : Environment
  /-- The path and the text of the closest file with variables. -/
  variablesFile : Option (String × String)
  read : String → Option String
  firstId : Nat

structure Outcome where
  exitCode : Nat
  output : String
  errors : String
deriving DecidableEq, Repr

def Outcome.fail (f : Failure) : Outcome := ⟨1, "", report f.chain⟩

def version : String := "walrelay 0.1.0"

def usage : String := unlines [
  "Usage: walrelay [--config PATH] check",
  "       walrelay [--config PATH] replay INPUT",
  "",
  "  check    validate the configuration and print a summary",
  "  replay   replay recorded transactions through the filter to the standard output"]

/-- A variable that cannot be set stops the command without a report. -/
def Outcome.abort (name : String) : Outcome :=
  ⟨101, "", unlines ["the value of " ++ name ++ " holds a NUL character"]⟩

def loadVariables (s : Surroundings) : Except Outcome Environment :=
  match s.variablesFile with
  | none => .ok s.environment
  | some (path, text) =>
    match EnvFile.load s.environment text with
    | .ok env => .ok env
    | .error .malformed => .error (.fail (.loadVariables path))
    | .error (.nulInValue name) => .error (.abort name)

def loadConfig (read : String → Option String) (env : Environment) (path : String) :
    Except Failure Config :=
  match read path with
  | none => .error (.readConfig path)
  | some text =>
    match Config.read text with
    | .error _ => .error (.parseConfig path)
    | .ok c =>
      match c.resolve env with
      | (.error e, _) => .error (.resolveConfig path e)
      | (.ok (), c) =>
        match c.validate with
        | .error e => .error (.invalidConfig path e)
        | .ok () => .ok c

def totalsLine (s : ReplaySummary) : String :=
  "Replayed " ++ String.ofList (Digits.ofNat s.transactions) ++ " transaction(s), published " ++
    String.ofList (Digits.ofNat s.published) ++ " event(s)" ++
    if s.cancelled then " (interrupted)" else ""

def skipLines (skips : SkipCount) : List String :=
  if skips.counts.isEmpty then []
  else "Skipped by filter:" :: skips.counts.map fun (table, n) =>
    "  " ++ table ++ ": " ++ String.ofList (Digits.ofNat n)

def replay (c : Config) (text : String) (firstId : Nat) : Outcome :=
  match Recording.ofText? text with
  | none => .fail .parseRecording
  | some r =>
    let resources : Resources := ⟨.empty, .counting .empty, firstId⟩
    match Replay.run .lazy (LineWriter.publish .none) c r resources .new false with
    | (.error e, x) => { Outcome.fail (.replay e) with output := x.publisher.written }
    | (.ok s, x) =>
      ⟨0, x.publisher.written,
        unlines (totalsLine s :: skipLines x.session.resources.monitor.skips)⟩

def runTask (s : Surroundings) (path : String) (c : Config) : Task → Outcome
  | .check => ⟨0, unlines (summaryLines path c), ""⟩
  | .replay input =>
    match s.read input with
    | none => .fail (.readRecording input)
    | some text => replay c text s.firstId

def run (s : Surroundings) (args : List String) : Outcome :=
  match loadVariables s with
  | .error outcome => outcome
  | .ok env =>
    match parse? args with
    | none => ⟨2, "", usage⟩
    | some .help => ⟨0, usage, ""⟩
    | some .version => ⟨0, unlines [version], ""⟩
    | some (.run c) =>
      match loadConfig s.read env c.config with
      | .error f => .fail f
      | .ok config => runTask s c.config config c.task

end Changefeed.CommandLine
