import Changefeed.Config.Validation
import Changefeed.Recording.Basic
import Changefeed.Relay
import Changefeed.Session

/-!
# Replaying a recording

The transactions of a recording are loaded into a session one after the other, and the stream of
each is relayed before the next one is loaded. A transaction that cannot be loaded, or that lacks a
commit time, ends the replay before any of its events is published; so does a message that cannot be
published. A cancellation is noticed before every transaction and by the stream that is being
relayed. It is no error; the summary says that it happened.
-/

namespace Changefeed

inductive LoadError
  | session (e : SessionError)
  | digits (text : String) (fault : HexFault)
  /-- A cell is marked as not unchanged. -/
  | falseMark
deriving DecidableEq, Repr

def LoadError.chain : LoadError → List String
  | .session e => [e.message]
  | .digits text fault => ["Invalid hex value: " ++ text, fault.message]
  | .falseMark => ["\"unchanged\" must be true when present"]

inductive ReplayError
  | config (e : ConfigError)
  | transaction (index : Nat) (cause : LoadError)
  | publish (index : Nat) (cause : PublishError)
deriving DecidableEq, Repr

def ReplayError.chain : ReplayError → List String
  | .config e => e.message?.toList
  | .transaction n cause => ("Transaction " ++ String.ofList (Digits.ofNat n)) :: cause.chain
  | .publish n cause =>
    ["Failed to publish transaction " ++ String.ofList (Digits.ofNat n), cause.message]

def RecordedCell.toCell : RecordedCell → Except LoadError Cell
  | .null => .ok .null
  | .text s => .ok (.text s)
  | .binary digits =>
    match Hex.decode digits with
    | .ok bytes => .ok (.binary bytes)
    | .error fault => .error (.digits digits fault)
  | .unchanged true => .ok .unchanged
  | .unchanged false => .error .falseMark

def RecordedCell.toCells : List RecordedCell → Except LoadError (List Cell)
  | [] => .ok []
  | c :: cells =>
    match c.toCell with
    | .error e => .error e
    | .ok x => (toCells cells).map (x :: ·)

def LoadError.ofSession {α : Type} : Except SessionError α → Except LoadError α
  | .ok x => .ok x
  | .error e => .error (.session e)

namespace Session

def load (s : Session) (a : RecordedAction) : Except LoadError Session := do
  let kind ← LoadError.ofSession (ActionKind.read a.kind)
  let old ← RecordedCell.toCells a.old
  let new ← RecordedCell.toCells a.new
  let action ← LoadError.ofSession (s.createAction a.relation kind old new)
  return s.push action

def loadAll (s : Session) : List RecordedAction → Except LoadError Session
  | [] => .ok s
  | a :: actions =>
    match s.load a with
    | .error e => .error e
    | .ok s => s.loadAll actions

/-- Begins a recorded transaction. Without a time only its number is known. -/
def beginRecorded (s : Session) (t : RecordedTransaction) : Session :=
  match t.beginTime with
  | some time => s.begin (t.xid.getD 0) (t.position.getD 0) time
  | none => { s with xid := t.xid }

def commitRecorded (s : Session) (t : RecordedTransaction) : Session :=
  match t.commitTime with
  | some time => s.commit (t.position.getD 0) time
  | none => s

def loadTransaction (s : Session) (t : RecordedTransaction) : Except LoadError Session :=
  ((s.beginRecorded t).loadAll t.actions).map (·.commitRecorded t)

def registerAll (s : Session) (relations : List (RelationId × Relation)) : Session :=
  relations.foldl (fun s r => s.register r.1 r.2) s

end Session

structure ReplaySummary where
  transactions : Nat
  published : Nat
  cancelled : Bool
deriving DecidableEq, Repr

structure Replay (σ : Type) where
  session : Session
  publisher : σ
  transactions : Nat
  published : Nat
  cancelled : Bool
  moment : Moment

namespace Replay

variable {σ : Type}

/-- Lets the schedule make its moves while no stream is open: only a cancellation has an effect. -/
def pause (schedule : Schedule) (x : Replay σ) : Replay σ :=
  { x with
    cancelled := x.cancelled || (schedule x.moment).contains .cancel
    moment := x.moment.next }

def relayLoaded (schedule : Schedule) (publish : Publish σ) (router : Router) (filter : Filter)
    (index : Nat) (x : Replay σ) : Except ReplayError Unit × Replay σ :=
  match x.session.openStream filter x.cancelled with
  | .error e => (.error (.transaction index (.session e)), x)
  | .ok (stream, session) =>
    let (result, y) :=
      (Relay.start session.resources stream x.publisher x.moment).run schedule publish router
    let x := { x with
      session := { session with resources := y.resources }
      publisher := y.publisher
      cancelled := y.stream.cancelled
      moment := y.moment }
    match result with
    | .error e => (.error (.publish index e), x)
    | .ok () =>
      (.ok (), { x with
        session := x.session.clear
        transactions := x.transactions + 1
        published := x.published + y.published })

def runAll (schedule : Schedule) (publish : Publish σ) (router : Router) (filter : Filter) :
    Nat → List RecordedTransaction → Replay σ → Except ReplayError Unit × Replay σ
  | _, [], x => (.ok (), x.pause schedule)
  | index, t :: rest, x =>
    let x := x.pause schedule
    if x.cancelled then (.ok (), x)
    else match x.session.loadTransaction t with
      | .error e => (.error (.transaction index e), x)
      | .ok session =>
        match relayLoaded schedule publish router filter index
            (({ x with session }).pause schedule) with
        | (.error e, x) => (.error e, x)
        | (.ok (), x) => runAll schedule publish router filter (index + 1) rest x

def summary (x : Replay σ) : ReplaySummary := ⟨x.transactions, x.published, x.cancelled⟩

def start (r : Recording) (resources : Resources) (publisher : σ) (cancelled : Bool) :
    Replay σ where
  session := (Session.new resources).registerAll r.relations
  publisher := publisher
  transactions := 0
  published := 0
  cancelled := cancelled
  moment := .start

def router (c : Config) : Router := ⟨c.publisher.topic, c.publisher.topicPrefix, c.listener.topics⟩

def run (schedule : Schedule) (publish : Publish σ) (c : Config) (r : Recording)
    (resources : Resources) (publisher : σ) (cancelled : Bool) :
    Except ReplayError ReplaySummary × Replay σ :=
  let x := start r resources publisher cancelled
  match c.listener.filter.toFilter with
  | .error e => (.error (.config e), x)
  | .ok filter =>
    let (result, x) := runAll schedule publish (router c) filter 0 r.transactions x
    (result.map fun _ => x.summary, x)

end Replay
end Changefeed
