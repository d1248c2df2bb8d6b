import Changefeed.Proofs.Extent
import Changefeed.Proofs.Loading

/-!
# The steps of a replay

What a replay does with the next transaction, case by case, and the moments at which it asks its
schedule. The token of a replay is cancelled in the end if it was so from the start or if the
schedule cancels it at one of these moments, of which there is one for every tick of the clock.
-/

namespace Changefeed

def Schedule.cancelsAt (schedule : Schedule) (m : Moment) : Bool := (schedule m).contains .cancel

theorem Schedule.any_cancelsAt {schedule : Schedule} {ms : List Moment} :
    ms.any schedule.cancelsAt = true ↔ ∃ m ∈ ms, .cancel ∈ schedule m := by
  simp [cancelsAt]

/-- From one moment to another the schedule is asked once at every tick. -/
structure Moment.Covers (ms : List Moment) (m m' : Moment) : Prop where
  clocks : ms.map (·.clock) = List.range' m.clock ms.length
  last : m'.clock = m.clock + ms.length

theorem Moment.covers_next (m : Moment) : Covers [m] m m.next := ⟨rfl, rfl⟩

theorem Moment.Covers.append {ms ms' : List Moment} {m m' m'' : Moment} (h : Covers ms m m')
    (h' : Covers ms' m' m'') : Covers (ms ++ ms') m m'' := by
  refine ⟨?_, ?_⟩
  · rw [List.map_append, h.clocks, h'.clocks, h.last, List.length_append, ← List.range'_append_1]
  · rw [h'.last, h.last, List.length_append, Nat.add_assoc]

namespace Stream

theorem cancelled_play (r : Resources) (s : Stream) (moves : List Move) :
    (s.play r moves).2.cancelled = (s.cancelled || moves.contains .cancel) := by
  induction moves generalizing r s with
  | nil => simp [play]
  | cons m moves ih =>
    cases m with
    | advance =>
      have hadvance : (s.advance r).2.cancelled = s.cancelled := by
        unfold advance
        cases hs : s.step? r with
        | none => rfl
        | some t => exact (Step.of_step? hs).cancelled_eq
      rw [play, ih, hadvance]
      simp
    | cancel =>
      rw [play, ih]
      simp [cancel]

theorem cancelled_settle (r : Resources) (s : Stream) :
    (s.settle r).2.cancelled = s.cancelled := by
  fun_induction settle r s with
  | case1 => rfl
  | case2 r s r' s' hs ih => exact ih.trans (Step.of_step? hs).cancelled_eq

theorem cancelled_receive (r : Resources) (s : Stream) :
    (s.receive r).stream.cancelled = s.cancelled := by
  unfold receive
  split
  next e s' hp =>
    obtain ⟨-, rfl⟩ := poll?_eq_some_iff.1 hp
    rfl
  next =>
    dsimp only
    split
    next e s' hp =>
      obtain ⟨-, rfl⟩ := poll?_eq_some_iff.1 hp
      exact cancelled_settle r s
    next => exact cancelled_settle r s

end Stream

namespace Relay

variable {σ : Type} (schedule : Schedule) (publish : Publish σ) (router : Router)

def moments (x : Relay σ) : List Moment :=
  match _h : x.round schedule publish router with
  | .finished _ => [x.moment]
  | .failed _ _ => [x.moment, x.moment.next.hand]
  | .published y => x.moment :: x.moment.next.hand :: moments y
termination_by x.stream.load
decreasing_by exact load_round (by assumption)

structure Asked (ms : List Moment) (x y : Relay σ) : Prop where
  cancelled : y.stream.cancelled = (x.stream.cancelled || ms.any schedule.cancelsAt)
  covers : Moment.Covers ms x.moment y.moment

variable {schedule publish router}

theorem Asked.trans {ms ms' : List Moment} {x y z : Relay σ} (h : Asked schedule ms x y)
    (h' : Asked schedule ms' y z) : Asked schedule (ms ++ ms') x z :=
  ⟨by rw [h'.cancelled, h.cancelled, List.any_append, Bool.or_assoc], h.covers.append h'.covers⟩

theorem asked_play (x : Relay σ) : Asked schedule [x.moment] x (x.play schedule) :=
  ⟨by simp [play, Stream.cancelled_play, Schedule.cancelsAt], x.moment.covers_next⟩

theorem asked_publishEvent (schedule : Schedule) (publish : Publish σ) (router : Router)
    (x : Relay σ) (e : Event) : Asked schedule [x.moment.hand] x
    (x.publishEvent schedule publish router e).2 :=
  ⟨by simp [publishEvent, play, Stream.cancelled_play, Schedule.cancelsAt],
    ⟨rfl, rfl⟩⟩

def AskedRound (schedule : Schedule) (x : Relay σ) : Round σ → Prop
  | .finished y => Asked schedule [x.moment] x y
  | .failed _ y => Asked schedule [x.moment, x.moment.next.hand] x y
  | .published y => Asked schedule [x.moment, x.moment.next.hand] x y

theorem asked_round (schedule : Schedule) (publish : Publish σ) (router : Router) (x : Relay σ) :
    AskedRound schedule x (x.round schedule publish router) := by
  let z := x.play schedule
  let z' : Relay σ := { z with
    resources := (z.stream.receive z.resources).resources
    stream := (z.stream.receive z.resources).stream }
  have hplay : Asked schedule [x.moment] x z := asked_play x
  have hreceived : Asked schedule [x.moment] x z' :=
    ⟨(Stream.cancelled_receive ..).trans hplay.cancelled, hplay.covers⟩
  unfold round
  simp only
  split
  next => exact hreceived
  next e he =>
    have hpublished := hreceived.trans
      (asked_publishEvent schedule publish router z' e)
    split
    next error y hy =>
      simp only [z', z, hy] at hpublished
      exact hpublished
    next y hy =>
      simp only [z', z, hy] at hpublished
      exact ⟨hpublished.cancelled, hpublished.covers⟩

theorem asked_run (schedule : Schedule) (publish : Publish σ) (router : Router) (x : Relay σ) :
    Asked schedule (x.moments schedule publish router) x (x.run schedule publish router).2 := by
  fun_induction Relay.run schedule publish router x with
  | case1 x y hy =>
    have hround := asked_round schedule publish router x
    rw [hy] at hround
    rw [moments, hy]
    exact ⟨hround.cancelled, hround.covers⟩
  | case2 x error y hy =>
    have hround := asked_round schedule publish router x
    rw [hy] at hround
    rw [moments, hy]
    exact ⟨hround.cancelled, hround.covers⟩
  | case3 x y hy ih =>
    have hround := asked_round schedule publish router x
    rw [hy] at hround
    rw [moments, hy]
    exact hround.trans ih

end Relay

namespace Replay

variable {σ : Type} (schedule : Schedule) (publish : Publish σ) (router : Router) (filter : Filter)

def loaded (x : Replay σ) (session : Session) : Replay σ :=
  ({ x.pause schedule with session }).pause schedule

theorem runAll_of_cancelled {x : Replay σ} (hc : (x.pause schedule).cancelled = true)
    (index : Nat) (transactions : List RecordedTransaction) :
    runAll schedule publish router filter index transactions x = (.ok (), x.pause schedule) := by
  cases transactions with
  | nil => rfl
  | cons t rest => simp [runAll, hc]

theorem runAll_of_error {x : Replay σ} (hc : (x.pause schedule).cancelled = false)
    {t : RecordedTransaction} {e : LoadError} (ht : x.session.loadTransaction t = .error e)
    (index : Nat) (rest : List RecordedTransaction) :
    runAll schedule publish router filter index (t :: rest) x =
      (.error (.transaction index e), x.pause schedule) := by
  have ht' : (x.pause schedule).session.loadTransaction t = .error e := ht
  simp [runAll, hc, ht']

theorem runAll_of_loaded {x : Replay σ} (hc : (x.pause schedule).cancelled = false)
    {t : RecordedTransaction} {session : Session} (ht : x.session.loadTransaction t = .ok session)
    (index : Nat) (rest : List RecordedTransaction) :
    runAll schedule publish router filter index (t :: rest) x =
      match relayLoaded schedule publish router filter index (x.loaded schedule session) with
      | (.error e, y) => (.error e, y)
      | (.ok (), y) => runAll schedule publish router filter (index + 1) rest y := by
  have ht' : (x.pause schedule).session.loadTransaction t = .ok session := ht
  simp only [runAll]
  rw [if_neg (by simp [hc]), ht']
  rfl

def relayMoments (x : Replay σ) : List Moment :=
  match x.session.openStream filter x.cancelled with
  | .error _ => []
  | .ok (stream, session) =>
    (Relay.start session.resources stream x.publisher x.moment).moments schedule publish router

def momentsAll : Nat → List RecordedTransaction → Replay σ → List Moment
  | _, [], x => [x.moment]
  | index, t :: rest, x =>
    if (x.pause schedule).cancelled then [x.moment]
    else match x.session.loadTransaction t with
      | .error _ => [x.moment]
      | .ok session =>
        let y := x.loaded schedule session
        x.moment :: x.moment.next :: relayMoments schedule publish router filter y ++
          match relayLoaded schedule publish router filter index y with
          | (.error _, _) => []
          | (.ok (), z) => momentsAll (index + 1) rest z

def moments (c : Config) (r : Recording) (resources : Resources) (publisher : σ)
    (cancelled : Bool) : List Moment :=
  match c.listener.filter.toFilter with
  | .error _ => []
  | .ok filter =>
    momentsAll schedule publish (Replay.router c) filter 0 r.transactions
      (start r resources publisher cancelled)

structure Asked (ms : List Moment) (x y : Replay σ) : Prop where
  cancelled : y.cancelled = (x.cancelled || ms.any schedule.cancelsAt)
  covers : Moment.Covers ms x.moment y.moment

variable {schedule publish router filter}

theorem Asked.trans {ms ms' : List Moment} {x y z : Replay σ} (h : Asked schedule ms x y)
    (h' : Asked schedule ms' y z) : Asked schedule (ms ++ ms') x z :=
  ⟨by rw [h'.cancelled, h.cancelled, List.any_append, Bool.or_assoc], h.covers.append h'.covers⟩

theorem Asked.uncancelled {ms : List Moment} {x y : Replay σ} (h : Asked schedule ms x y)
    (hm : ¬ schedule.Cancels) : y.cancelled = x.cancelled := by
  have hnone : ms.any schedule.cancelsAt = false := by
    rw [← Bool.not_eq_true, Schedule.any_cancelsAt]
    rintro ⟨m, -, hcancel⟩
    exact hm ⟨m, hcancel⟩
  rw [h.cancelled, hnone, Bool.or_false]

theorem asked_pause (x : Replay σ) : Asked schedule [x.moment] x (x.pause schedule) :=
  ⟨by simp [pause, Schedule.cancelsAt], x.moment.covers_next⟩

theorem asked_loaded (x : Replay σ) (session : Session) :
    Asked schedule [x.moment, x.moment.next] x (x.loaded schedule session) := by
  have hpause : Asked schedule [x.moment] x (x.pause schedule) := asked_pause x
  have hsession : Asked schedule [x.moment] x { x.pause schedule with session } :=
    ⟨hpause.cancelled, hpause.covers⟩
  exact hsession.trans (asked_pause { x.pause schedule with session })

variable (schedule publish router filter)

theorem asked_relayLoaded (index : Nat) (x : Replay σ) :
    Asked schedule (relayMoments schedule publish router filter x) x
      (relayLoaded schedule publish router filter index x).2 := by
  unfold relayMoments relayLoaded
  cases hopen : x.session.openStream filter x.cancelled with
  | error e => exact ⟨by simp, rfl, rfl⟩
  | ok opened =>
    obtain ⟨stream, session⟩ := opened
    have hcancelled : stream.cancelled = x.cancelled := by
      unfold Session.openStream at hopen
      split at hopen
      next => cases hopen
      next => cases hopen; rfl
    have hrun := Relay.asked_run schedule publish router
      (Relay.start session.resources stream x.publisher x.moment)
    have hany := hrun.cancelled
    simp only [Relay.start, hcancelled] at hany
    dsimp only
    split
    next => exact ⟨hany, hrun.covers⟩
    next => exact ⟨hany, hrun.covers⟩

theorem asked_runAll (index : Nat) (transactions : List RecordedTransaction) (x : Replay σ) :
    Asked schedule (momentsAll schedule publish router filter index transactions x) x
      (runAll schedule publish router filter index transactions x).2 := by
  induction transactions generalizing index x with
  | nil => exact asked_pause x
  | cons t rest ih =>
    cases hc : (x.pause schedule).cancelled with
    | true =>
      rw [runAll_of_cancelled schedule publish router filter hc, momentsAll, if_pos hc]
      exact asked_pause x
    | false =>
      cases ht : x.session.loadTransaction t with
      | error e =>
        rw [runAll_of_error schedule publish router filter hc ht, momentsAll]
        simpa [hc, ht] using asked_pause x
      | ok session =>
        have hrelay := (asked_loaded x session).trans
          (asked_relayLoaded schedule publish router filter index (x.loaded schedule session))
        rw [runAll_of_loaded schedule publish router filter hc ht, momentsAll]
        simp only [hc, ht]
        generalize relayLoaded schedule publish router filter index (x.loaded schedule session) =
          relayed at hrelay
        obtain ⟨(e | ok), y⟩ := relayed
        · simpa using hrelay
        · simpa using hrelay.trans (ih (index + 1) y)

/-- What a replay has done with a transaction that it has loaded and relayed. -/
structure Relayed (publish : Publish σ) (router : Router) (filter : Filter) (time : Timestamp)
    (actions taken : List Action) (given : List Event) (result : Except PublishError Unit)
    (x y : Replay σ) : Prop extends
    Relay.Extent publish router filter time actions taken given result x.session.resources
      y.session.resources x.publisher y.publisher y.cancelled where
  relations : y.session.relations = x.session.relations
  counts : result = .ok () → y.session.Idle ∧ y.transactions = x.transactions + 1 ∧
    y.published = x.published + given.length

theorem relayLoaded_relayed {x : Replay σ} (hblank : x.session.resources.pool.Blank)
    {session : Session} (hresources : session.resources = x.session.resources)
    (hrelations : session.relations = x.session.relations) {time : Timestamp}
    (htime : session.commitTime = some time) (index : Nat) :
    ∃ taken given result y,
      relayLoaded schedule publish router filter index (x.loaded schedule session) =
        (result.mapError (.publish index), y) ∧
      Relayed publish router filter time session.actions taken given result x y := by
  let z := x.loaded schedule session
  have hz : z.session.resources = x.session.resources := hresources
  let s := Stream.start filter time session.actions z.cancelled
  obtain ⟨result, y, hrun⟩ : ∃ result y,
      (Relay.start z.session.resources s z.publisher z.moment).run schedule publish router =
        (result, y) := ⟨_, _, rfl⟩
  obtain ⟨taken, given, hextent, hcount⟩ := Relay.extent (hz ▸ hblank) hrun
  rw [hz] at hextent
  have hopen : z.session.openStream filter z.cancelled =
      .ok (s, { z.session with actions := [] }) := by
    simp [Session.openStream, z, loaded, pause, htime, s]
  let w : Replay σ := { z with
    session := { z.session with resources := y.resources, actions := [] }
    publisher := y.publisher
    cancelled := y.stream.cancelled
    moment := y.moment }
  cases result with
  | error error =>
    refine ⟨taken, given, .error error, w, ?_, { hextent with
      relations := hrelations
      counts := by simp }⟩
    simp only [relayLoaded, z, hopen, hrun]
    rfl
  | ok =>
    refine ⟨taken, given, .ok (), { w with
      session := w.session.clear
      transactions := z.transactions + 1
      published := z.published + y.published }, ?_, { hextent with
      relations := hrelations
      counts := fun hok => ⟨⟨rfl, rfl⟩, rfl, congrArg (x.published + ·) (hcount hok)⟩ }⟩
    simp only [relayLoaded, z, hopen, hrun]
    rfl

end Replay
end Changefeed
