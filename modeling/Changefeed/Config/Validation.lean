import Changefeed.Action
import Changefeed.Config.Basic
import Changefeed.Config.Environment
import Changefeed.Config.Reference
import Changefeed.Filter
import Changefeed.Text.Blank

/-!
# Validity of a configuration

Every allowed action is the full name of one. Columns are restricted only for tables that are
listed, and every restricted column has at least one allowed value. The topic holds more than white
space, and the log level is one of five.
-/

namespace Changefeed

inductive ConfigError
  | malformed
  | invalidAction (table value : String)
  | emptyTopic
  | columnFilterWithoutTable (table : String)
  | emptyAllowedValues (table column : String)
  | invalidLogLevel (value : String)
  | missingVariable (name : String)
deriving DecidableEq, Repr

/-- The text of an error; a text that is no configuration is not described any further. -/
def ConfigError.message? : ConfigError → Option String
  | .malformed => none
  | .invalidAction table value =>
    some ("invalid action '" ++ value ++ "' for table '" ++ table
      ++ "': expected one of insert, update, delete, truncate")
  | .emptyTopic => some "publisher topic must not be empty"
  | .columnFilterWithoutTable table =>
    some ("column filter for table '" ++ table ++ "' has no matching entry in filter.tables")
  | .emptyAllowedValues table column =>
    some ("column filter '" ++ table ++ "." ++ column ++ "' has no allowed values")
  | .invalidLogLevel value =>
    some ("invalid log level '" ++ value ++ "': expected one of trace, debug, info, warn, error")
  | .missingVariable name => some ("environment variable '" ++ name ++ "' is not set")

namespace FilterSection

/-- Whether a text is the full name of an action. The letters that stand for actions elsewhere never
occur in events. -/
def isActionName (value : String) : Bool :=
  match ActionKind.ofText? value with
  | some kind => Ascii.sameWord kind.name.toList value.toList
  | none => false

def checkActions (table : String) (actions : List String) : Except ConfigError Unit :=
  match actions.find? (!isActionName ·) with
  | some value => .error (.invalidAction table value)
  | none => .ok ()

def lists (f : FilterSection) (table : String) : Bool := f.tables.any (Fold.same ·.1 table)

def checkColumns (f : FilterSection) (table : String) (columns : List (String × List String)) :
    Except ConfigError Unit :=
  if f.lists table then
    match columns.find? (·.2.isEmpty) with
    | some column => .error (.emptyAllowedValues table column.1)
    | none => .ok ()
  else .error (.columnFilterWithoutTable table)

def validate (f : FilterSection) : Except ConfigError Unit := do
  f.tables.forM fun t => checkActions t.1 t.2
  f.columns.forM fun t => f.checkColumns t.1 t.2

def toFilter (f : FilterSection) : Except ConfigError Filter := do
  f.validate
  return .ofSections f.tables f.columns

end FilterSection

namespace Config

def logLevels : List String := ["trace", "debug", "info", "warn", "error"]

def validatePublisher (p : PublisherSection) : Except ConfigError Unit :=
  if Blank.isBlankText p.topic then .error .emptyTopic else .ok ()

def validateLogger (l : LoggerSection) : Except ConfigError Unit :=
  if logLevels.any (fun name => Ascii.sameWord name.toList l.level.toList) then .ok ()
  else .error (.invalidLogLevel l.level)

def validate (c : Config) : Except ConfigError Unit := do
  c.listener.filter.validate
  validatePublisher c.publisher
  validateLogger c.logger

def read (s : String) : Except ConfigError Config :=
  match ofToml? s with
  | some c => .ok c
  | none => .error .malformed

def resolveText (env : Environment) (s : String) : Except ConfigError String :=
  match Reference.resolve env.value? s.toList with
  | .ok t => .ok (String.ofList t)
  | .error name => .error (.missingVariable name)

def withTopic (c : Config) (topic : String) : Config :=
  { c with publisher := { c.publisher with topic } }

def withTopicPrefix (c : Config) (topicPrefix : String) : Config :=
  { c with publisher := { c.publisher with topicPrefix } }

/-- Replaces the references in the publisher section. A topic that has been resolved stays so when
the beginning of the names cannot be. -/
def resolve (env : Environment) (c : Config) : Except ConfigError Unit × Config :=
  match resolveText env c.publisher.topic with
  | .error e => (.error e, c)
  | .ok topic =>
    match resolveText env c.publisher.topicPrefix with
    | .error e => (.error e, c.withTopic topic)
    | .ok topicPrefix => (.ok (), (c.withTopic topic).withTopicPrefix topicPrefix)

end Config
end Changefeed
