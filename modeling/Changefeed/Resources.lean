import Changefeed.Event.Pool
import Changefeed.SkipCount

/-!
# What passes share

All passes of a session take their events from one pool, report to one monitor, and number their
events from one source.
-/

namespace Changefeed

structure Resources where
  pool : Pool
  monitor : Monitor
  nextId : Nat
deriving Repr

namespace Resources

def draw (r : Resources) (a : Action) (time : Timestamp) : Event × Resources :=
  let (e, pool) := r.pool.acquire
  (e.fill (.version4 r.nextId) a time, { r with pool, nextId := r.nextId + 1 })

def release (r : Resources) (e : Event) : Resources := { r with pool := r.pool.release e }

def drop (r : Resources) (e : Event) : Resources :=
  { r with monitor := r.monitor.note e.table }.release e

end Resources
end Changefeed
