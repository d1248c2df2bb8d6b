import Changefeed.Message

/-!
# Publishers

A publisher takes messages one after the other and has a state of its own, which changes even when
it fails. Two publishers are given. A recorder keeps the messages and can be told to refuse all
after a certain number. A line writer puts each message on a line, the topic and the payload with a
tab in between; each of its calls to the device can fail.
-/

namespace Changefeed

inductive PublishError
  | serialization (message : String)
  | broker (message : String)
  | io (message : String)
deriving DecidableEq, Repr

namespace PublishError

def message : PublishError → String
  | .serialization m => "serialization error: " ++ m
  | .broker m => "broker error: " ++ m
  | .io m => "io error: " ++ m

/-- A message that cannot be written will not be writable later either. -/
def isRetryable : PublishError → Bool
  | .serialization _ => false
  | .broker _ => true
  | .io _ => true

end PublishError

abbrev Publish (σ : Type) := σ → Message → Except PublishError Unit × σ

structure Recorder where
  messages : List Message
  /-- The number of messages that are accepted before all are refused, and the reason for it. -/
  refusal : Option (Nat × String)
deriving Repr

namespace Recorder

def new : Recorder := ⟨[], none⟩

def failingAfter (count : Nat) (reason : String) : Recorder := ⟨[], some (count, reason)⟩

def accept (r : Recorder) (m : Message) : Recorder := { r with messages := r.messages ++ [m] }

def publish : Publish Recorder := fun r m =>
  match r.refusal with
  | none => (.ok (), r.accept m)
  | some (count, reason) =>
    if count ≤ r.messages.length then (.error (.broker reason), r) else (.ok (), r.accept m)

def messagesFor (r : Recorder) (topic : String) : List Message :=
  r.messages.filter (·.topic == topic)

def clear (r : Recorder) : Recorder := { r with messages := [] }

def events? (r : Recorder) : Option (List Event) :=
  r.messages.mapM fun m => Event.ofPayload? m.payload

end Recorder

/-- The calls to a device that fail, counted from zero. -/
structure DeviceFaults where
  write : Nat → Bool
  flush : Nat → Bool

def DeviceFaults.none : DeviceFaults := ⟨fun _ => false, fun _ => false⟩

def DeviceFaults.atWrite (n : Nat) : DeviceFaults := ⟨fun i => i == n, fun _ => false⟩

structure LineWriter where
  written : String
  writes : Nat
  flushes : Nat
deriving Repr

namespace LineWriter

def new : LineWriter := ⟨"", 0, 0⟩

def fault : PublishError := .io "sink failed"

/-- Writes a text; a call that fails writes nothing, and the empty text needs no call. -/
def write (faults : DeviceFaults) (text : String) (w : LineWriter) :
    Except PublishError Unit × LineWriter :=
  if text.isEmpty then (.ok (), w)
  else if faults.write w.writes then (.error fault, { w with writes := w.writes + 1 })
  else (.ok (), { w with written := w.written ++ text, writes := w.writes + 1 })

def writeAll (faults : DeviceFaults) : List String → LineWriter →
    Except PublishError Unit × LineWriter
  | [], w => (.ok (), w)
  | text :: texts, w =>
    match w.write faults text with
    | (.ok (), w) => w.writeAll faults texts
    | failed => failed

def flush (faults : DeviceFaults) (w : LineWriter) : Except PublishError Unit × LineWriter :=
  (if faults.flush w.flushes then .error fault else .ok (), { w with flushes := w.flushes + 1 })

def pieces (m : Message) : List String := [m.topic, "\t", m.payload, "\n"]

def publish (faults : DeviceFaults) : Publish LineWriter := fun w m =>
  match w.writeAll faults (pieces m) with
  | (.ok (), w) => w.flush faults
  | failed => failed

end LineWriter
end Changefeed
