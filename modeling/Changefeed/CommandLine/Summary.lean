import Changefeed.Config.Basic

/-!
# The summary of a configuration

A check prints the topic, the listed tables with their actions and the rules for their columns, and
the names that tables have in topics, each kind in the order of the names.
-/

namespace Changefeed.CommandLine

def commaWords (words : List String) : String := ", ".intercalate words

def columnLine (column : String × List String) : String :=
  "    " ++ column.1 ++ " in [" ++ commaWords column.2 ++ "]"

def tableLine (table : String × List String) : String :=
  "  " ++ table.1 ++ ": " ++ commaWords table.2

/-- The line of a listed table, followed by the lines of the columns restricted under the same name.
-/
def tableLines (f : FilterSection) (table : String × List String) : List String :=
  tableLine table :: ((Keyed.find? table.1 f.columns).getD []).map columnLine

def filterLines (f : FilterSection) : List String :=
  if f.tables.isEmpty then ["  no tables allowed, every event will be dropped"]
  else f.tables.flatMap (tableLines f)

def topicLines (p : PublisherSection) : List String :=
  ("  topic: " ++ p.topic) ::
    if p.topicPrefix.isEmpty then [] else ["  topic prefix: " ++ p.topicPrefix]

def summaryLines (path : String) (c : Config) : List String :=
  (path ++ " is valid") :: topicLines c.publisher ++ filterLines c.listener.filter ++
    c.listener.topics.map fun (table, topic) => "  " ++ table ++ " -> " ++ topic

def unlines (lines : List String) : String := String.join (lines.map (· ++ "\n"))

end Changefeed.CommandLine
