import Changefeed.CommandLine.Run

/-!
# The program

Collects what the command needs from the system and prints what it answers.
-/

namespace Changefeed.CommandLine

def readFile? (path : String) : IO (Option String) := do
  try
    return some (← IO.FS.readFile path)
  catch _ => return none

def processVariables : IO Environment := do
  let text := (← readFile? "/proc/self/environ").getD ""
  return Keyed.ofList ((text.splitOn "\x00").filterMap fun entry =>
    match entry.splitOn "=" with
    | name :: part :: parts => some (name, "=".intercalate (part :: parts))
    | _ => none)

def closestVariables : Nat → List String → IO (Option (String × String))
  | 0, _ => return none
  | n + 1, directory => do
    let path := "/".intercalate (directory ++ [".env"])
    match ← readFile? path with
    | some text => return some (path, text)
    | none => closestVariables n directory.dropLast

def neededPaths (args : List String) : List String :=
  match parse? args with
  | some (.run ⟨config, .replay input⟩) => [config, input]
  | some (.run ⟨config, .check⟩) => [config]
  | _ => []

def surroundings (args : List String) : IO Surroundings := do
  let directory := (toString (← IO.currentDir)).splitOn "/"
  let bytes ← IO.getRandomBytes 16
  let texts ← (neededPaths args).mapM fun path => return (path, ← readFile? path)
  return {
    environment := ← processVariables
    variablesFile := ← closestVariables directory.length directory
    read := fun path => (texts.lookup path).join
    firstId := bytes.toList.foldl (fun n b => 256 * n + b.toNat) 0 }

end Changefeed.CommandLine

def main (args : List String) : IO UInt32 := do
  let outcome := Changefeed.CommandLine.run (← Changefeed.CommandLine.surroundings args) args
  IO.print outcome.output
  IO.eprint outcome.errors
  return UInt32.ofNat outcome.exitCode
