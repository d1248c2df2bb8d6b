import Changefeed.Relay
import Changefeed.Session

/-!
# A session and the consumer of its streams

At most one stream is open at a time; opening another closes it first. The consumer gives received
events back at once or keeps them, and gives the kept ones back in the order in which they came.
-/

namespace Changefeed

structure Consumer where
  session : Session
  stream : Option Stream
  /-- Received events that have not been given back, the earliest first. -/
  kept : List Event
deriving Repr

namespace Consumer

def new (resources : Resources) : Consumer := ⟨.new resources, none, []⟩

def withResources (c : Consumer) (resources : Resources) : Consumer :=
  { c with session := { c.session with resources } }

def settle (c : Consumer) : Consumer :=
  match c.stream with
  | none => c
  | some s =>
    let t := s.settle c.session.resources
    { c.withResources t.1 with stream := some t.2 }

def cancel (c : Consumer) : Consumer := { c with stream := c.stream.map .cancel }

def close (c : Consumer) : Consumer :=
  { { c with stream := c.stream.map .close }.settle with stream := none }

def openStream (c : Consumer) (filter : Filter) (cancelled : Bool) :
    Except SessionError Unit × Consumer :=
  let c := c.close
  match c.session.openStream filter cancelled with
  | .error e => (.error e, c)
  | .ok (s, session) => (.ok (), { c with session, stream := some s })

def dispose (c : Consumer) (keep : Bool) (e : Event) : Consumer :=
  if keep then { c with kept := c.kept ++ [e] } else c.withResources (c.session.resources.release e)

def releaseOldest? (c : Consumer) : Option Consumer :=
  match c.kept with
  | [] => none
  | e :: kept => some ({ c with kept }.withResources (c.session.resources.release e))

structure Batch where
  events : List Event
  ended : Bool
  consumer : Consumer

def receive (c : Consumer) (keep : Bool) : Nat → Batch
  | 0 => ⟨[], false, c⟩
  | limit + 1 =>
    match c.stream with
    | none => ⟨[], false, c⟩
    | some s =>
      let received := s.receive c.session.resources
      let c := c.withResources received.resources
      match received.event? with
      | none => ⟨[], true, { c with stream := none }⟩
      | some e =>
        let batch := ({ c with stream := some received.stream }.dispose keep e).receive keep limit
        { batch with events := e :: batch.events }

def receiveAll (c : Consumer) (keep : Bool) : Batch :=
  c.receive keep (c.stream.elim 0 fun s => s.load + 1)

/-- Relays the open stream and closes it; gives the number of events that were published. Without an
open stream there is nothing to relay. -/
def relay {σ : Type} (c : Consumer) (publish : Publish σ) (router : Router) (publisher : σ) :
    Except PublishError Nat × σ × Consumer :=
  match c.stream with
  | none => (.ok 0, publisher, c)
  | some s =>
    let (result, x) :=
      (Relay.start c.session.resources s publisher .start).run .lazy publish router
    let c := { c.withResources x.resources with stream := some x.stream }.close
    (result.map fun _ => x.published, x.publisher, c)

end Consumer
end Changefeed
