import Changefeed.Publisher
import Changefeed.Stream

/-!
# Relaying a stream

A relay receives the events of a stream one after the other, publishes each under its topic and
gives it back to the pool. It stops at the end of the stream or at the first event that cannot be
published, which is given back too.

Between the steps of a relay the pass may advance by itself, and the stream may be cancelled. A
schedule says when; it is asked before every receive and after every message that was handed to the
publisher. A pass that only runs when the relay waits for it has the lazy schedule.
-/

namespace Changefeed

/-- What may happen beside a relay. -/
inductive Move
  | advance
  | cancel
deriving DecidableEq, Repr

structure Moment where
  /-- The number of messages that were handed to the publisher. -/
  handed : Nat
  clock : Nat
deriving DecidableEq, Repr

def Moment.start : Moment := ⟨0, 0⟩

def Moment.next (m : Moment) : Moment := { m with clock := m.clock + 1 }

def Moment.hand (m : Moment) : Moment := { m with handed := m.handed + 1 }

abbrev Schedule := Moment → List Move

namespace Schedule

def lazy : Schedule := fun _ => []

/-- Cancels as soon as the message with a given number has been handed over. Messages are numbered
from one, so the number zero never cancels. -/
def cancelAfter (number : Nat) : Schedule := fun m =>
  if 0 < number ∧ number ≤ m.handed then [.cancel] else []

end Schedule

def Stream.advance (r : Resources) (s : Stream) : Resources × Stream := (s.step? r).getD (r, s)

def Stream.play (r : Resources) (s : Stream) : List Move → Resources × Stream
  | [] => (r, s)
  | .advance :: moves => let t := s.advance r; t.2.play t.1 moves
  | .cancel :: moves => s.cancel.play r moves

theorem Stream.load_play (r : Resources) (s : Stream) (moves : List Move) :
    (s.play r moves).2.load ≤ s.load := by
  induction moves generalizing r s with
  | nil => exact Nat.le_refl _
  | cons m moves ih =>
    cases m with
    | advance =>
      refine Nat.le_trans (ih ..) ?_
      unfold Stream.advance
      cases h : s.step? r with
      | none => exact Nat.le_refl _
      | some t => exact load_step? h
    | cancel => exact ih r s.cancel

structure Relay (σ : Type) where
  resources : Resources
  stream : Stream
  publisher : σ
  published : Nat
  moment : Moment

namespace Relay

variable {σ : Type}

def start (r : Resources) (s : Stream) (publisher : σ) (m : Moment) : Relay σ :=
  ⟨r, s, publisher, 0, m⟩

def play (schedule : Schedule) (x : Relay σ) : Relay σ :=
  let t := x.stream.play x.resources (schedule x.moment)
  { x with resources := t.1, stream := t.2, moment := x.moment.next }

def publishEvent (schedule : Schedule) (publish : Publish σ) (router : Router) (x : Relay σ)
    (e : Event) : Except PublishError Unit × Relay σ :=
  let (result, publisher) := publish x.publisher (router.message e)
  let x := play schedule { x with publisher, moment := x.moment.hand }
  (result, { x with resources := x.resources.release e })

inductive Round (σ : Type)
  | finished (x : Relay σ)
  | failed (error : PublishError) (x : Relay σ)
  | published (x : Relay σ)

def round (schedule : Schedule) (publish : Publish σ) (router : Router) (x : Relay σ) : Round σ :=
  let x := x.play schedule
  let received := x.stream.receive x.resources
  let x := { x with resources := received.resources, stream := received.stream }
  match received.event? with
  | none => .finished x
  | some e =>
    match x.publishEvent schedule publish router e with
    | (.error error, x) => .failed error x
    | (.ok (), x) => .published { x with published := x.published + 1 }

theorem load_publishEvent (schedule : Schedule) (publish : Publish σ) (router : Router)
    (x : Relay σ) (e : Event) :
    (x.publishEvent schedule publish router e).2.stream.load ≤ x.stream.load :=
  Stream.load_play ..

theorem load_round {schedule : Schedule} {publish : Publish σ} {router : Router} {x y : Relay σ}
    (h : x.round schedule publish router = .published y) : y.stream.load < x.stream.load := by
  have hplay : (x.play schedule).stream.load ≤ x.stream.load := Stream.load_play ..
  unfold round at h
  simp only at h
  split at h
  next => cases h
  next e he =>
    refine Nat.lt_of_lt_of_le ?_ hplay
    refine Nat.lt_of_le_of_lt ?_ (Stream.load_receive he)
    split at h
    next => cases h
    next z hz =>
      cases h
      have hload := load_publishEvent schedule publish router
        { x.play schedule with
          resources := ((x.play schedule).stream.receive (x.play schedule).resources).resources
          stream := ((x.play schedule).stream.receive (x.play schedule).resources).stream } e
      rw [hz] at hload
      exact hload

def run (schedule : Schedule) (publish : Publish σ) (router : Router) (x : Relay σ) :
    Except PublishError Unit × Relay σ :=
  match _h : x.round schedule publish router with
  | .finished x => (.ok (), { x with stream := x.stream.close })
  | .failed error x => (.error error, { x with stream := x.stream.close })
  | .published y => run schedule publish router y
termination_by x.stream.load
decreasing_by exact load_round (by assumption)

/-- What a relay has done so far, whoever feeds its receiver. -/
structure Tally (σ : Type) where
  pool : Pool
  publisher : σ
  published : Nat

/-- Relays the events of any receiver. Those behind an event that cannot be published are lost with
the receiver. -/
def all (publish : Publish σ) (router : Router) :
    List Event → Tally σ → Except PublishError Unit × Tally σ
  | [], x => (.ok (), x)
  | e :: events, x =>
    let (result, publisher) := publish x.publisher (router.message e)
    let x := { x with pool := x.pool.release e, publisher }
    match result with
    | .error error => (.error error, x)
    | .ok () => all publish router events { x with published := x.published + 1 }

end Relay
end Changefeed
