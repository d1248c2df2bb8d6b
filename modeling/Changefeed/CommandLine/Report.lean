import Changefeed.Recording.Replay

/-!
# Reports of errors

An error is reported with all its causes. The causes are numbered if there are several, and the
further lines of a text with several lines are indented as far as its first.
-/

namespace Changefeed.CommandLine

inductive Failure
  | loadVariables (path : String)
  | readConfig (path : String)
  | parseConfig (path : String)
  | resolveConfig (path : String) (cause : ConfigError)
  | invalidConfig (path : String) (cause : ConfigError)
  | readRecording (path : String)
  | parseRecording
  | replay (cause : ReplayError)
deriving DecidableEq, Repr

def Failure.chain : Failure → List String
  | .loadVariables path => ["Failed to load .env from " ++ path, "malformed line"]
  | .readConfig path => ["Failed to read config file: " ++ path]
  | .parseConfig path => ["Failed to parse " ++ path, "malformed configuration"]
  | .resolveConfig path cause =>
    ("Failed to resolve environment in " ++ path) :: cause.message?.toList
  | .invalidConfig path cause => ("Invalid config: " ++ path) :: cause.message?.toList
  | .readRecording path => ["Failed to read replay file: " ++ path]
  | .parseRecording => ["Failed to parse replay file", "malformed recording"]
  | .replay cause => cause.chain

def hang (indent text : String) : String := ("\n" ++ indent).intercalate (text.splitOn "\n")

def numberedCause (n : Nat) (text : String) : String :=
  let number := Digits.ofNat n
  String.ofList (List.replicate (5 - number.length) ' ' ++ number) ++ ": " ++ hang "       " text

def causes : List String → List String
  | [] => []
  | [text] => ["", "Caused by:", "    " ++ hang "    " text]
  | texts => "" :: "Caused by:" :: texts.mapIdx numberedCause

def report : List String → String
  | [] => ""
  | text :: rest => String.join ((("Error: " ++ text) :: causes rest).map (· ++ "\n"))

end Changefeed.CommandLine
