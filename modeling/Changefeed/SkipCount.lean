import Changefeed.Keyed

/-!
# Counting dropped events

For every table the number of events that the filter dropped, under the table's exact name. A
monitor is told of every dropped event; it counts them or ignores them.
-/

namespace Changefeed

structure SkipCount where
  counts : List (String × Nat)
deriving DecidableEq, Repr

namespace SkipCount

def empty : SkipCount := ⟨[]⟩

def get (c : SkipCount) (table : String) : Nat := (Keyed.find? table c.counts).getD 0

def increment (c : SkipCount) (table : String) : SkipCount :=
  ⟨Keyed.alter table 0 (· + 1) c.counts⟩

def total (c : SkipCount) : Nat := c.counts.foldl (fun n p => n + p.2) 0

theorem get_increment_self (c : SkipCount) (table : String) :
    (c.increment table).get table = c.get table + 1 := by
  simp [get, increment, Keyed.alter, Keyed.find?_insert_self]

theorem get_increment_of_ne (c : SkipCount) {table other : String} (h : table ≠ other) :
    (c.increment table).get other = c.get other := by
  simp [get, increment, Keyed.alter, Keyed.find?_insert_of_ne h]

end SkipCount

inductive Monitor
  | silent
  | counting (skips : SkipCount)
deriving DecidableEq, Repr

namespace Monitor

def note (m : Monitor) (table : String) : Monitor :=
  match m with
  | .silent => .silent
  | .counting skips => .counting (skips.increment table)

def skips : Monitor → SkipCount
  | .silent => .empty
  | .counting skips => skips

end Monitor
end Changefeed
