import Changefeed.Event
import Changefeed.Text.Fold

/-!
# The event filter

A filter has two tiers. The first allows actions per table; a table without an entry allows nothing.
The second restricts columns: a restricted column that occurs in the new row must render to one of
its allowed values, and a column that does not occur restricts nothing. Tables, columns, actions
and values are all compared without regard to case. Entries for one table are merged whatever the
case in which they name it; a column keeps the exact name under which it was restricted.
-/

namespace Changefeed

inductive Verdict
  | pass
  | skipTable
  | skipColumn (column value : String)
deriving DecidableEq, Repr

def Verdict.passed : Verdict → Bool
  | .pass => true
  | _ => false

abbrev ColumnRules := List (String × List String)

structure Filter where
  /-- The allowed actions under the fold of the table's name. -/
  tables : List (String × List String)
  /-- The restricted columns under the fold of the table's name. -/
  columns : List (String × ColumnRules)
deriving Repr

namespace Filter

def empty : Filter := ⟨[], []⟩

def allow (f : Filter) (table : String) (actions : List String) : Filter :=
  { f with tables := Keyed.alter (Fold.fold table) [] (· ++ actions) f.tables }

def withColumn (f : Filter) (table column : String) (values : List String) : Filter :=
  { f with
    columns := Keyed.alter (Fold.fold table) [] (Keyed.alter column [] (· ++ values)) f.columns }

def ofSections (tables : List (String × List String)) (columns : List (String × ColumnRules)) :
    Filter :=
  let f := tables.foldl (fun f t => f.allow t.1 t.2) empty
  columns.foldl (fun f t => t.2.foldl (fun f c => f.withColumn t.1 c.1 c.2) f) f

/-- The entry of a table. Keys are folds, so a hit under the name as it is needs no fold. -/
def underTable? {α : Type} (table : String) (entries : List (String × α)) : Option α :=
  (Keyed.find? table entries).or (Keyed.find? (Fold.fold table) entries)

def columnValue? (column : String) (row : Row) : Option Value :=
  (Keyed.find? column row).or ((row.find? fun p => Fold.same p.1 column).map (·.2))

def allows (f : Filter) (table action : String) : Bool :=
  match underTable? table f.tables with
  | some actions => Fold.elem action actions
  | none => false

def checkColumns (row : Row) : ColumnRules → Verdict
  | [] => .pass
  | (column, values) :: rules =>
    match columnValue? column row with
    | none => checkColumns row rules
    | some v =>
      if Fold.elem v.render values then checkColumns row rules
      else .skipColumn column v.render

def evaluate (f : Filter) (e : Event) : Verdict :=
  if f.allows e.table e.action then
    checkColumns e.data ((underTable? e.table f.columns).getD [])
  else .skipTable

end Filter
end Changefeed
