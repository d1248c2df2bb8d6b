import Changefeed.Proofs.ReplaySteps

/-!
# The messages that a publisher is handed

A publisher that also keeps what it is handed is as good as the one that it is made of: a relay and
a replay do the same with both. What it has kept in the end are the messages that a replay hands to
its publisher (`Replay.offered`), accepted or not.
-/

namespace Changefeed

variable {σ : Type}

namespace Publish

def logged (publish : Publish σ) : Publish (σ × List Message) := fun p m =>
  ((publish p.1 m).1, (publish p.1 m).2, p.2 ++ [m])

theorem logged_all {publish : Publish σ} {messages : List Message} {p : σ} (log : List Message)
    (h : (publish.all messages.dropLast p).1 = .ok ()) :
    publish.logged.all messages (p, log) =
      ((publish.all messages p).1, (publish.all messages p).2, log ++ messages) := by
  induction messages generalizing p log with
  | nil => simp [all]
  | cons m messages ih =>
    cases hp : publish p m with
    | mk result p' =>
      have hlogged : publish.logged (p, log) m = (result, p', log ++ [m]) := by simp [logged, hp]
      cases messages with
      | nil => cases result <;> simp [all, hlogged, hp]
      | cons m' messages =>
        cases result with
        | error error => simp [all, hp] at h
        | ok =>
          have hrest := ih (log ++ [m]) (p := p') (by simpa [all, hp] using h)
          rw [all, hlogged]
          simp only [hrest]
          simp [all, hp]

theorem all_unlogged (publish : Publish σ) (messages : List Message) (p : σ × List Message) :
    publish.all messages p.1 =
      ((publish.logged.all messages p).1, (publish.logged.all messages p).2.1) := by
  induction messages generalizing p with
  | nil => rfl
  | cons m messages ih =>
    obtain ⟨p, log⟩ := p
    cases hp : publish p m with
    | mk result p' =>
      have hlogged : publish.logged (p, log) m = (result, p', log ++ [m]) := by simp [logged, hp]
      cases result with
      | error error => simp [all, hlogged, hp]
      | ok => simpa [all, hlogged, hp] using ih (p', log ++ [m])

end Publish

namespace Relay

variable (schedule : Schedule) (publish : Publish σ) (router : Router)

def unlogged (x : Relay (σ × List Message)) : Relay σ :=
  ⟨x.resources, x.stream, x.publisher.1, x.published, x.moment⟩

def Round.unlogged : Round (σ × List Message) → Round σ
  | .finished x => .finished x.unlogged
  | .failed error x => .failed error x.unlogged
  | .published x => .published x.unlogged

theorem round_unlogged (x : Relay (σ × List Message)) :
    x.unlogged.round schedule publish router =
      (x.round schedule publish.logged router).unlogged := by
  simp only [round, play, unlogged]
  split
  next => rfl
  next e he =>
    simp only [publishEvent, play, Publish.logged]
    cases (publish x.publisher.1 (router.message e)).1 <;> rfl

theorem run_unlogged (x : Relay (σ × List Message)) :
    x.unlogged.run schedule publish router =
      ((x.run schedule publish.logged router).1,
        (x.run schedule publish.logged router).2.unlogged) := by
  fun_induction Relay.run schedule publish.logged router x with
  | case1 x y hy =>
    have hround := round_unlogged schedule publish router x
    rw [hy] at hround
    rw [Relay.run, hround]
    rfl
  | case2 x error y hy =>
    have hround := round_unlogged schedule publish router x
    rw [hy] at hround
    rw [Relay.run, hround]
    rfl
  | case3 x y hy ih =>
    have hround := round_unlogged schedule publish router x
    rw [hy] at hround
    rw [Relay.run, hround]
    exact ih

end Relay

namespace Replay

def unlogged (x : Replay (σ × List Message)) : Replay σ :=
  ⟨x.session, x.publisher.1, x.transactions, x.published, x.cancelled, x.moment⟩

variable (schedule : Schedule) (publish : Publish σ)

theorem relayLoaded_unlogged (router : Router) (filter : Filter) (index : Nat)
    (x : Replay (σ × List Message)) :
    relayLoaded schedule publish router filter index x.unlogged =
      ((relayLoaded schedule publish.logged router filter index x).1,
        (relayLoaded schedule publish.logged router filter index x).2.unlogged) := by
  unfold relayLoaded
  simp only [unlogged]
  cases hopen : x.session.openStream filter x.cancelled with
  | error e => rfl
  | ok opened =>
    obtain ⟨stream, session⟩ := opened
    have hrun := Relay.run_unlogged schedule publish router
      (Relay.start session.resources stream x.publisher x.moment)
    simp only [Relay.unlogged, Relay.start] at hrun
    simp only [Relay.start, hrun]
    split <;> rfl

theorem runAll_unlogged (router : Router) (filter : Filter) (index : Nat)
    (transactions : List RecordedTransaction) (x : Replay (σ × List Message)) :
    runAll schedule publish router filter index transactions x.unlogged =
      ((runAll schedule publish.logged router filter index transactions x).1,
        (runAll schedule publish.logged router filter index transactions x).2.unlogged) := by
  induction transactions generalizing index x with
  | nil => rfl
  | cons t rest ih =>
    cases hc : (x.pause schedule).cancelled with
    | true =>
      rw [runAll_of_cancelled schedule _ router filter hc,
        runAll_of_cancelled (x := x.unlogged) schedule _ router filter hc]
      rfl
    | false =>
      cases ht : x.session.loadTransaction t with
      | error e =>
        rw [runAll_of_error schedule _ router filter hc ht,
          runAll_of_error (x := x.unlogged) schedule _ router filter hc ht]
        rfl
      | ok session =>
        have hrelay := relayLoaded_unlogged schedule publish router filter index
          (x.loaded schedule session)
        rw [runAll_of_loaded schedule _ router filter hc ht,
          runAll_of_loaded (x := x.unlogged) schedule _ router filter hc ht,
          show x.unlogged.loaded schedule session = (x.loaded schedule session).unlogged from rfl,
          hrelay]
        generalize relayLoaded schedule publish.logged router filter index
          (x.loaded schedule session) = relayed
        obtain ⟨(e | ok), y⟩ := relayed
        · rfl
        · exact ih (index + 1) y

/-- The messages that a replay hands to the publisher. -/
def offered (c : Config) (r : Recording) (resources : Resources) (publisher : σ)
    (cancelled : Bool) : List Message :=
  (run schedule publish.logged c r resources (publisher, []) cancelled).2.publisher.2

theorem run_unlogged (c : Config) (r : Recording) (resources : Resources) (publisher : σ)
    (cancelled : Bool) :
    run schedule publish c r resources publisher cancelled =
      ((run schedule publish.logged c r resources (publisher, []) cancelled).1,
        (run schedule publish.logged c r resources (publisher, []) cancelled).2.unlogged) := by
  unfold run
  have hstart : start r resources publisher cancelled =
      (start r resources (publisher, ([] : List Message)) cancelled).unlogged := rfl
  rw [hstart]
  cases c.listener.filter.toFilter with
  | error e => rfl
  | ok filter =>
    dsimp only
    rw [runAll_unlogged]
    rfl

end Replay
end Changefeed
