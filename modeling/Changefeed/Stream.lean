import Changefeed.Filter
import Changefeed.Resources

/-!
# The event stream of a transaction

A stream is a pass over the buffered actions together with a channel that has room for one event.
The pass makes an event of each action in turn, drops those that the filter refuses, and waits with
every other event until the channel is free. It ends after the last action, when it is cancelled, or
when nobody receives any more; an event that it still has in hand goes back to the pool.

`step` is one step of the pass, `settle` lets the pass go on until it waits or ends, and `receive`
takes the next event. A receiver does not run the pass as long as an event waits in the channel.
-/

namespace Changefeed

inductive Phase
  | taking
  /-- It has an event in hand that it wants to put into the channel. -/
  | sending (e : Event)
  | ended
deriving Repr

inductive Channel
  | free
  | full (e : Event)
  | closed
deriving Repr

structure Stream where
  filter : Filter
  time : Timestamp
  pending : List Action
  phase : Phase
  channel : Channel
  cancelled : Bool
deriving Repr

namespace Stream

def start (filter : Filter) (time : Timestamp) (actions : List Action) (cancelled : Bool) :
    Stream :=
  ⟨filter, time, actions, .taking, .free, cancelled⟩

def take (r : Resources) (s : Stream) : Resources × Stream :=
  match s.pending with
  | [] => (r, { s with phase := .ended })
  | a :: pending =>
    if s.cancelled then (r, { s with phase := .ended })
    else
      let (e, r) := r.draw a s.time
      if (s.filter.evaluate e).passed then (r, { s with pending, phase := .sending e })
      else (r.drop e, { s with pending })

/-- Tries to put the event in hand into the channel. A cancellation comes before a free channel. -/
def send? (r : Resources) (s : Stream) (e : Event) : Option (Resources × Stream) :=
  if s.cancelled then some (r.release e, { s with phase := .ended })
  else match s.channel with
    | .free => some (r, { s with phase := .taking, channel := .full e })
    | .full _ => none
    | .closed => some (r.release e, { s with phase := .ended })

def step? (r : Resources) (s : Stream) : Option (Resources × Stream) :=
  match s.phase with
  | .taking => some (s.take r)
  | .sending e => s.send? r e
  | .ended => none

def stepsLeft (s : Stream) : Nat :=
  3 * s.pending.length + match s.phase with
    | .taking => 1
    | .sending _ => 2
    | .ended => 0

theorem stepsLeft_step? {r r' : Resources} {s s' : Stream} (h : s.step? r = some (r', s')) :
    s'.stepsLeft < s.stepsLeft := by
  unfold step? at h
  split at h
  next hp =>
    simp only [Option.some.injEq] at h
    unfold take at h
    split at h
    next hn => obtain ⟨_, rfl⟩ := Prod.mk.inj h; simp [stepsLeft, hp]
    next a pending hn =>
      split at h
      · obtain ⟨_, rfl⟩ := Prod.mk.inj h; simp [stepsLeft, hp]
      · simp only at h
        split at h
        · obtain ⟨_, rfl⟩ := Prod.mk.inj h; simp [stepsLeft, hn]; omega
        · obtain ⟨_, rfl⟩ := Prod.mk.inj h; simp [stepsLeft, hp, hn]
  next e hp =>
    unfold send? at h
    split at h
    · obtain ⟨_, rfl⟩ := Prod.mk.inj (Option.some.inj h); simp [stepsLeft, hp]
    · split at h
      · obtain ⟨_, rfl⟩ := Prod.mk.inj (Option.some.inj h); simp [stepsLeft, hp]
      · simp at h
      · obtain ⟨_, rfl⟩ := Prod.mk.inj (Option.some.inj h); simp [stepsLeft, hp]
  next => simp at h

def settle (r : Resources) (s : Stream) : Resources × Stream :=
  match _h : s.step? r with
  | none => (r, s)
  | some (r', s') => settle r' s'
termination_by s.stepsLeft
decreasing_by exact stepsLeft_step? (by assumption)

def cancel (s : Stream) : Stream := { s with cancelled := true }

def poll? (s : Stream) : Option (Event × Stream) :=
  match s.channel with
  | .full e => some (e, { s with channel := .free })
  | _ => none

structure Received where
  event? : Option Event
  resources : Resources
  stream : Stream

def receive (r : Resources) (s : Stream) : Received :=
  match s.poll? with
  | some (e, s) => ⟨some e, r, s⟩
  | none =>
    let settled := s.settle r
    match settled.2.poll? with
    | some (e, s) => ⟨some e, settled.1, s⟩
    | none => ⟨none, settled.1, settled.2⟩

/-- Stops receiving. An event that waits in the channel is lost. -/
def close (s : Stream) : Stream := { s with channel := .closed }

/-- The number of events that can still be received at most. -/
def load (s : Stream) : Nat :=
  s.pending.length + (match s.phase with | .sending _ => 1 | _ => 0)
    + (match s.channel with | .full _ => 1 | _ => 0)

theorem load_step? {r r' : Resources} {s s' : Stream} (h : s.step? r = some (r', s')) :
    s'.load ≤ s.load := by
  unfold step? at h
  split at h
  next hp =>
    simp only [Option.some.injEq] at h
    unfold take at h
    split at h
    next hn => obtain ⟨_, rfl⟩ := Prod.mk.inj h; simp [load, hp]
    next a pending hn =>
      split at h
      · obtain ⟨_, rfl⟩ := Prod.mk.inj h; simp [load, hp]
      · simp only at h
        split at h
        · obtain ⟨_, rfl⟩ := Prod.mk.inj h; simp [load, hn]
        · obtain ⟨_, rfl⟩ := Prod.mk.inj h; simp [load, hp, hn]
  next e hp =>
    unfold send? at h
    split at h
    · obtain ⟨_, rfl⟩ := Prod.mk.inj (Option.some.inj h); simp [load, hp]
    · split at h
      next hc => obtain ⟨_, rfl⟩ := Prod.mk.inj (Option.some.inj h); simp [load, hp, hc]
      · simp at h
      next hc => obtain ⟨_, rfl⟩ := Prod.mk.inj (Option.some.inj h); simp [load, hp]
  next => simp at h

theorem load_settle (r : Resources) (s : Stream) : (s.settle r).2.load ≤ s.load := by
  fun_induction settle r s with
  | case1 => exact Nat.le_refl _
  | case2 r s r' s' h ih => exact Nat.le_trans ih (load_step? h)

theorem load_poll? {s s' : Stream} {e : Event} (h : s.poll? = some (e, s')) :
    s'.load < s.load := by
  unfold poll? at h
  split at h
  next hc => obtain ⟨_, rfl⟩ := Prod.mk.inj (Option.some.inj h); simp [load, hc]
  next => simp at h

theorem load_receive {r : Resources} {s : Stream} {e : Event}
    (h : (s.receive r).event? = some e) : (s.receive r).stream.load < s.load := by
  unfold receive at h ⊢
  split
  next hp => exact load_poll? hp
  next hp =>
    simp only [hp] at h ⊢
    split
    next hq => exact Nat.lt_of_lt_of_le (load_poll? hq) (load_settle r s)
    next hq => simp [hq] at h

end Stream
end Changefeed
