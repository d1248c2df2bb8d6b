import Changefeed.Proofs.Loading
import Mathlib.Data.List.Induction

/-!
# Calls on a session

What a session holds after any calls in any order is told by the calls alone: the commit time is
that of the last commit after the last `clear`, the relations are those that were registered, and
every row change that was pushed has been handed to a pass, has been discarded or is still there, in
the order in which they were pushed. Each call keeps this up (`Session.Follows.call`). Meanwhile
passes and receivers may do to the shared pool what they like.
-/

namespace Changefeed

namespace Session

inductive Call
  | register (id : RelationId) (r : Relation)
  | create (id : RelationId) (kind : ActionKind) (old new : List Cell)
  | push (a : Action)
  | begin (xid : TransactionId) (position : LogPosition) (time : Timestamp)
  | commit (position : LogPosition) (time : Timestamp)
  | clear
  | openStream (filter : Filter) (cancelled : Bool)
  /-- Not a call: others have changed what the session shares with them. -/
  | share (resources : Resources)

inductive Answer
  | done
  | created (result : Except SessionError Action)
  | opened (result : Except SessionError Stream)
  | cleared (discarded : List Action)

def Answer.actions : Answer → List Action
  | .opened (.ok stream) => stream.pending
  | .cleared discarded => discarded
  | _ => []

def call (s : Session) : Call → Session × Answer
  | .register id r => (s.register id r, .done)
  | .create id kind old new => (s, .created (s.createAction id kind old new))
  | .push a => (s.push a, .done)
  | .begin xid position time => (s.begin xid position time, .done)
  | .commit position time => (s.commit position time, .done)
  | .clear => (s.clear, .cleared s.actions)
  | .openStream filter cancelled =>
    match s.openStream filter cancelled with
    | .ok (stream, s) => (s, .opened (.ok stream))
    | .error e => (s, .opened (.error e))
  | .share resources => ({ s with resources }, .done)

def run (s : Session) (calls : List Call) : Session × List Answer :=
  calls.foldl (fun x c => ((x.1.call c).1, x.2 ++ [(x.1.call c).2])) (s, [])

theorem run_concat (s : Session) (calls : List Call) (c : Call) :
    s.run (calls ++ [c]) =
      (((s.run calls).1.call c).1, (s.run calls).2 ++ [((s.run calls).1.call c).2]) := by
  simp only [run, List.foldl_append, List.foldl_cons, List.foldl_nil]

namespace Call

def pushed : Call → List Action
  | .push a => [a]
  | _ => []

def registered : Call → List (RelationId × Relation)
  | .register id r => [(id, r)]
  | _ => []

def commitTime? : Call → Option Timestamp
  | .commit _ time => some time
  | _ => none

def isClear : Call → Bool
  | .clear => true
  | _ => false

end Call

def sinceClear (calls : List Call) : List Call :=
  (calls.reverse.takeWhile fun c => !c.isClear).reverse

def lastCommit? (calls : List Call) : Option Timestamp :=
  ((sinceClear calls).filterMap Call.commitTime?).getLast?

theorem sinceClear_concat (calls : List Call) (c : Call) :
    sinceClear (calls ++ [c]) = if c.isClear then [] else sinceClear calls ++ [c] := by
  cases hc : c.isClear <;> simp [sinceClear, hc]

theorem lastCommit?_concat (calls : List Call) (c : Call) : lastCommit? (calls ++ [c]) =
    if c.isClear then none else c.commitTime?.or (lastCommit? calls) := by
  rw [lastCommit?, sinceClear_concat]
  split
  next => rfl
  next =>
    rw [List.filterMap_append]
    cases hc : c.commitTime? <;> simp [hc, lastCommit?]

def registered (calls : List Call) : List (RelationId × Relation) := calls.flatMap Call.registered

theorem relations_registerAll (s : Session) (relations : List (RelationId × Relation)) :
    (s.registerAll relations).relations =
      relations.foldl (fun c r => c.update r.1 r.2) s.relations := by
  induction relations generalizing s with
  | nil => rfl
  | cons p relations ih => exact ih (s.register p.1 p.2)

theorem call_openStream (s : Session) (filter : Filter) (cancelled : Bool) :
    s.call (.openStream filter cancelled) = match s.commitTime with
      | none => (s, .opened (.error .missingCommitTime))
      | some time =>
        ({ s with actions := [] }, .opened (.ok (.start filter time s.actions cancelled))) := by
  cases htime : s.commitTime <;> simp [call, openStream, htime]

theorem commitTime_call (s : Session) (c : Call) :
    (s.call c).1.commitTime = if c.isClear then none else c.commitTime?.or s.commitTime := by
  cases c with
  | openStream filter cancelled =>
    rw [call_openStream]
    cases htime : s.commitTime <;> simp [htime, Call.isClear, Call.commitTime?]
  | _ => rfl

theorem relations_call (s : Session) (c : Call) :
    (s.call c).1.relations = c.registered.foldl (fun c r => c.update r.1 r.2) s.relations := by
  cases c with
  | openStream filter cancelled =>
    rw [call_openStream]
    cases s.commitTime <;> rfl
  | _ => rfl

theorem actions_call (s : Session) (c : Call) :
    (s.call c).2.actions ++ (s.call c).1.actions = s.actions ++ c.pushed := by
  cases c with
  | openStream filter cancelled =>
    rw [call_openStream]
    cases s.commitTime <;> simp [Answer.actions, Stream.start, Call.pushed]
  | clear => simp [call, Session.clear, Answer.actions, Call.pushed]
  | push a => rfl
  | _ => exact (List.append_nil _).symm

structure Follows (calls : List Call) (x : Session × List Answer) : Prop where
  commitTime : x.1.commitTime = lastCommit? calls
  relations : x.1.relations = (registered calls).foldl (fun c r => c.update r.1 r.2) .empty
  conserved : x.2.flatMap Answer.actions ++ x.1.actions = calls.flatMap Call.pushed

theorem Follows.call {calls : List Call} {x : Session × List Answer} (h : Follows calls x)
    (c : Call) : Follows (calls ++ [c]) ((x.1.call c).1, x.2 ++ [(x.1.call c).2]) where
  commitTime := by rw [commitTime_call, lastCommit?_concat, h.commitTime]
  relations := by simp [relations_call, registered, h.relations]
  conserved := by
    simp only [List.flatMap_append, List.flatMap_singleton, List.append_assoc, actions_call]
    rw [← List.append_assoc, h.conserved]

theorem Follows.get? {calls : List Call} {x : Session × List Answer} (h : Follows calls x)
    (id : RelationId) : x.1.relations.get? id = lastRelation (registered calls) id := by
  have hlast := (Session.new x.1.resources).get?_registerAll (registered calls) id
  rw [relations_registerAll] at hlast
  rw [h.relations]
  exact hlast.trans Option.or_none

end Session
end Changefeed
