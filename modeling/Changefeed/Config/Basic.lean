import Changefeed.Json.Record
import Changefeed.Toml.Reader

/-!
# Configuration

A configuration has three sections. The listener maps tables to names in topics and says which
changes pass the filter; the publisher has the base of all topics; the logger has a level. Only the
publisher and its topic have to be given.

The sections are records (`Json.fieldsWith?`), also where they are written in TOML. There a section
that is written as an array may have surplus items.
-/

namespace Changefeed

structure FilterSection where
  tables : List (String × List String)
  /-- The allowed values of restricted columns, under the table and then the column. -/
  columns : List (String × List (String × List String))
deriving DecidableEq, Repr

structure ListenerSection where
  topics : List (String × String)
  filter : FilterSection
deriving DecidableEq, Repr

structure PublisherSection where
  topic : String
  topicPrefix : String
deriving DecidableEq, Repr

structure LoggerSection where
  level : String
deriving DecidableEq, Repr

structure Config where
  listener : ListenerSection
  publisher : PublisherSection
  logger : LoggerSection
deriving DecidableEq, Repr

namespace FilterSection

def empty : FilterSection := ⟨[], []⟩

def words? : Json → Option (List String) := Json.list? Json.text?

def ofJson? (surplus : Json.Surplus) (j : Json) : Option FilterSection := do
  let [tables, columns] ← Json.fieldsWith? surplus ["tables", "column_filter"] j | none
  return {
    tables := ← Json.withDefault [] (Json.dictionary? words?) tables
    columns := ← Json.withDefault [] (Json.dictionary? (Json.dictionary? words?)) columns }

end FilterSection

namespace ListenerSection

def empty : ListenerSection := ⟨[], .empty⟩

def ofJson? (surplus : Json.Surplus) (j : Json) : Option ListenerSection := do
  let [topics, filter] ← Json.fieldsWith? surplus ["topics_map", "filter"] j | none
  return {
    topics := ← Json.withDefault [] (Json.dictionary? Json.text?) topics
    filter := ← Json.withDefault .empty (FilterSection.ofJson? surplus) filter }

end ListenerSection

namespace PublisherSection

def ofJson? (surplus : Json.Surplus) (j : Json) : Option PublisherSection := do
  let [topic, topicPrefix] ← Json.fieldsWith? surplus ["topic", "topic_prefix"] j | none
  return {
    topic := ← Json.required Json.text? topic
    topicPrefix := ← Json.withDefault "" Json.text? topicPrefix }

end PublisherSection

namespace LoggerSection

def normal : LoggerSection := ⟨"info"⟩

def ofJson? (surplus : Json.Surplus) (j : Json) : Option LoggerSection := do
  let [level] ← Json.fieldsWith? surplus ["level"] j | none
  return { level := ← Json.withDefault normal.level Json.text? level }

end LoggerSection

namespace Config

def ofJson? (surplus : Json.Surplus) (j : Json) : Option Config := do
  let [listener, publisher, logger] ←
    Json.fieldsWith? surplus ["listener", "publisher", "logger"] j | none
  return {
    listener := ← Json.withDefault .empty (ListenerSection.ofJson? surplus) listener
    publisher := ← Json.required (PublisherSection.ofJson? surplus) publisher
    logger := ← Json.withDefault .normal (LoggerSection.ofJson? surplus) logger }

def ofToml? (s : String) : Option Config := Toml.ofText? s >>= ofJson? .ignored

end Config
end Changefeed
