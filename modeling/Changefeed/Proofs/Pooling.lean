import Changefeed.Proofs.Traffic

/-!
# A pool that nobody can see

Beside the passes that share a pool stands an engine without one, which makes every event from a
blank event. Both do the same: whoever has rewritten an event, and on whichever way it came back,
nothing of it is left in the events that are made later.
-/

namespace Changefeed

def Phase.anonymous : Phase → Phase
  | .sending e => .sending e.anonymous
  | p => p

def Channel.anonymous : Channel → Channel
  | .full e => .full e.anonymous
  | c => c

namespace Stream

def anonymous (s : Stream) : Stream :=
  { s with phase := s.phase.anonymous, channel := s.channel.anonymous }

def freshStep? (m : Monitor) (s : Stream) : Option (Monitor × Stream) :=
  match s.phase with
  | .taking =>
    match s.pending with
    | [] => some (m, { s with phase := .ended })
    | a :: pending =>
      if s.cancelled then some (m, { s with phase := .ended })
      else if s.filter.passes s.time a then
        some (m, { s with pending, phase := .sending (a.event s.time) })
      else some (m.note a.table, { s with pending })
  | .sending e =>
    if s.cancelled then some (m, { s with phase := .ended })
    else match s.channel with
      | .free => some (m, { s with phase := .taking, channel := .full e })
      | .full _ => none
      | .closed => some (m, { s with phase := .ended })
  | .ended => none

def freshMade (s : Stream) : List (Event × Verdict) :=
  (s.next?.map fun a => (a.event s.time, s.filter.evaluate (a.event s.time))).toList

theorem freshStep?_anonymous {r : Resources} (h : r.pool.Blank) (s : Stream) :
    s.anonymous.freshStep? r.monitor =
      (s.step? r).map fun (r', s') => (r'.monitor, s'.anonymous) := by
  cases hs : s.step? r with
  | none =>
    rcases eq_of_step?_eq_none hs with hp | ⟨e, waits, hp, hc, hfull⟩
    · simp [freshStep?, anonymous, Phase.anonymous, hp]
    · simp [freshStep?, anonymous, Phase.anonymous, Channel.anonymous, hp, hc, hfull]
  | some t =>
    obtain ⟨r', s'⟩ := t
    have hdraw := fun a => Resources.draw_event h a s.time
    cases Step.of_step? hs with
    | exhaust hp hn => simp [freshStep?, anonymous, Phase.anonymous, hp, hn]
    | halt hp hn hc => simp [freshStep?, anonymous, Phase.anonymous, hp, hn, hc]
    | @hold a rest hp hn hc hf =>
      rw [hdraw] at hf
      have hpass : s.filter.passes s.time a = true := hf
      have hmonitor : (r.draw a s.time).2.monitor = r.monitor := rfl
      have hevent : (r.draw a s.time).1.anonymous = a.event s.time := by
        rw [hdraw]
        rfl
      simp [freshStep?, anonymous, Phase.anonymous, hp, hn, hc, hpass, hevent, hmonitor]
    | @skip a rest hp hn hc hf =>
      rw [hdraw] at hf
      have hrefused : s.filter.passes s.time a = false := hf
      have htable : (r.draw a s.time).1.table = a.table := by
        rw [hdraw]
        rfl
      have hmonitor : ((r.draw a s.time).2.drop (r.draw a s.time).1).monitor =
          r.monitor.note a.table := congrArg r.monitor.note htable
      simp [freshStep?, anonymous, Phase.anonymous, hp, hn, hc, hrefused, hmonitor]
    | withdraw hp hc => simp [freshStep?, anonymous, Phase.anonymous, hp, hc, Resources.release]
    | send hp hc hfree =>
      simp [freshStep?, anonymous, Phase.anonymous, Channel.anonymous, hp, hc, hfree]
    | desert hp hc hclosed =>
      simp [freshStep?, anonymous, Phase.anonymous, Channel.anonymous, hp, hc, hclosed,
        Resources.release]

theorem freshMade_anonymous {r : Resources} (h : r.pool.Blank) (s : Stream) :
    s.anonymous.freshMade = (s.made r).map fun (e, v) => (e.anonymous, v) := by
  have hnext : s.anonymous.next? = s.next? := by
    cases hp : s.phase <;> simp [next?, anonymous, Phase.anonymous, hp]
  unfold freshMade made
  rw [hnext]
  cases s.next? with
  | none => rfl
  | some a =>
    simp only [Option.map_some, Option.toList_some, List.map_cons, List.map_nil]
    rw [Resources.draw_event h]
    rfl

theorem inHand_anonymous (s : Stream) : s.anonymous.inHand = s.inHand.map Event.anonymous := by
  cases hp : s.phase <;> simp [inHand, anonymous, Phase.anonymous, hp]

theorem waiting_anonymous (s : Stream) : s.anonymous.waiting = s.waiting.map Event.anonymous := by
  cases hc : s.channel <;> simp [waiting, anonymous, Channel.anonymous, hc]

theorem ending?_anonymous (s : Stream) : s.anonymous.ending? = s.ending? := by
  cases hp : s.phase <;> cases hc : s.channel <;>
    simp [ending?, anonymous, Phase.anonymous, Channel.anonymous, hp, hc]

theorem poll?_anonymous (s : Stream) :
    s.anonymous.poll? = s.poll?.map fun (e, s') => (e.anonymous, s'.anonymous) := by
  cases hc : s.channel <;> simp [poll?, anonymous, Channel.anonymous, hc]

end Stream

namespace Delivery

def anonymous (d : Delivery) : Delivery where
  stream := d.stream.anonymous
  judged := d.judged.map fun (e, v) => (e.anonymous, v)
  received := d.received.map Event.anonymous
  destroyed := d.destroyed.map Event.anonymous
  withdrawn := d.withdrawn.map Event.anonymous
  ending := d.ending

def freshAct (m : Monitor) (d : Delivery) : Turn → Monitor × Delivery
  | .step =>
    match d.stream.freshStep? m with
    | some (m', s) => (m', d.record d.stream.freshMade s)
    | none => (m, d)
  | .receive => (m, d.receive)
  | .cancel => (m, d.cancel)
  | .drop => (m, d.drop)

theorem record_anonymous (d : Delivery) (made : List (Event × Verdict)) (s : Stream) :
    d.anonymous.record (made.map fun (e, v) => (e.anonymous, v)) s.anonymous =
      (d.record made s).anonymous := by
  simp only [record, anonymous, Stream.ending?_anonymous, Stream.inHand_anonymous,
    List.map_append, Delivery.mk.injEq, true_and, List.append_cancel_left_eq, and_true]
  split <;> rfl

theorem receive_anonymous (d : Delivery) : d.anonymous.receive = d.receive.anonymous := by
  have hpoll : d.anonymous.stream.poll? = _ := d.stream.poll?_anonymous
  unfold receive
  rw [hpoll]
  cases d.stream.poll? with
  | none => rfl
  | some t => simp [anonymous]

theorem drop_anonymous (d : Delivery) : d.anonymous.drop = d.drop.anonymous := by
  have hwaiting : d.anonymous.stream.waiting = _ := d.stream.waiting_anonymous
  unfold drop
  rw [hwaiting]
  simp [anonymous, Stream.close, Stream.anonymous, Channel.anonymous]

theorem freshAct_anonymous {r : Resources} (h : r.pool.Blank) (d : Delivery) (t : Turn) :
    d.anonymous.freshAct r.monitor t = ((d.act r t).1.monitor, (d.act r t).2.anonymous) := by
  cases t with
  | step =>
    have hstep : d.anonymous.stream.freshStep? r.monitor = _ := d.stream.freshStep?_anonymous h
    have hmade : d.anonymous.stream.freshMade = _ := d.stream.freshMade_anonymous h
    simp only [freshAct, act, hstep, hmade]
    cases d.stream.step? r with
    | none => rfl
    | some t => simp only [Option.map_some, record_anonymous]
  | receive => simp only [freshAct, act, receive_anonymous]
  | cancel => rfl
  | drop => simp only [freshAct, act, drop_anonymous]

theorem act_blank {r : Resources} (h : r.pool.Blank) (d : Delivery) (t : Turn) :
    (d.act r t).1.pool.Blank := by
  cases t with
  | step =>
    simp only [act]
    split
    next r' s hs => exact (Stream.Step.of_step? hs).blank h
    next => exact h
  | receive => exact h
  | cancel => exact h
  | drop => exact h

end Delivery

namespace Traffic

/-- The same passes without a pool. What holders do is nothing to them. -/
def freshMove (x : Monitor × List Delivery) : Move → Monitor × List Delivery
  | .start filter time actions cancelled =>
    (x.1, x.2 ++ [.start (.start filter time actions cancelled)])
  | .turn i t =>
    match x.2[i]? with
    | none => x
    | some d => ((d.freshAct x.1 t).1, x.2.set i (d.freshAct x.1 t).2)
  | _ => x

def freshRun (x : Monitor × List Delivery) (moves : List Move) : Monitor × List Delivery :=
  moves.foldl freshMove x

def seen (x : Traffic) : Monitor × List Delivery :=
  (x.resources.monitor, x.deliveries.map Delivery.anonymous)

structure Clean (x : Traffic) : Prop where
  free : x.resources.pool.Blank
  drawn : ∀ e ∈ x.drawn, e = .blank

theorem clean_start (count : Nat) (monitor : Monitor) (nextId : Nat) :
    (start count monitor nextId).Clean :=
  ⟨Pool.blank_withCapacity count, by simp [start]⟩

theorem Clean.move {x : Traffic} (h : x.Clean) (m : Move) : (x.move m).Clean := by
  have hacquire := (Pool.Blank.acquire h.free).1
  cases m with
  | start => exact ⟨h.free, h.drawn⟩
  | turn i t =>
    simp only [Traffic.move]
    split
    next => exact h
    next d hd =>
      refine ⟨d.act_blank h.free t, fun e he => ?_⟩
      rcases List.mem_append.1 he with he | he
      · exact h.drawn e he
      · cases t with
        | step =>
          simp only [Delivery.drawn, hacquire] at he
          cases hn : d.stream.next? <;> simp_all
        | _ => simp [Delivery.drawn] at he
  | acquire =>
    refine ⟨(Pool.Blank.acquire h.free).2, fun e he => ?_⟩
    rcases List.mem_append.1 he with he | he
    · exact h.drawn e he
    · rw [List.mem_singleton.1 he]
      exact hacquire
  | rewrite => exact ⟨h.free, h.drawn⟩
  | release j =>
    simp only [Traffic.move]
    split
    next => exact h
    next e he => exact ⟨Resources.release_blank h.free e, h.drawn⟩

theorem seen_move {x : Traffic} (h : x.Clean) (m : Move) :
    (x.move m).seen = freshMove x.seen m := by
  cases m with
  | start => simp [move, freshMove, seen]; rfl
  | turn i t =>
    simp only [move, freshMove, seen, List.getElem?_map]
    cases hd : x.deliveries[i]? with
    | none => rfl
    | some d => simp [Delivery.freshAct_anonymous h.free, List.map_set]
  | acquire => rfl
  | rewrite => rfl
  | release j =>
    simp only [move]
    split <;> rfl

theorem clean_run {x : Traffic} (h : x.Clean) (moves : List Move) :
    (x.run moves).Clean ∧ (x.run moves).seen = freshRun x.seen moves := by
  induction moves generalizing x with
  | nil => exact ⟨h, rfl⟩
  | cons m moves ih =>
    obtain ⟨hclean, hseen⟩ := ih (h.move m)
    refine ⟨hclean, hseen.trans ?_⟩
    rw [seen_move h]
    rfl

/-- The pool gives blank events only, and the passes do what they would do without a pool, whatever
holders make of their events. A relay, whether it succeeds or fails, is part of such a history. -/
theorem pool_unobservable (count : Nat) (monitor : Monitor) (nextId : Nat) (moves : List Move) :
    let x := run (start count monitor nextId) moves
    (∀ e ∈ x.resources.pool.free, e = .blank) ∧ (∀ e ∈ x.drawn, e = .blank) ∧
      x.seen = freshRun (monitor, []) moves ∧
      ∀ (σ : Type) (publish : Publish σ) (router : Router) (schedule : Schedule) (publisher : σ)
        (moment : Moment) (i : Nat) (d : Delivery), x.deliveries[i]? = some d →
        let y := (Relay.start x.resources d.stream publisher moment).run schedule publish router
        (∀ e ∈ y.2.resources.pool.free, e = .blank) ∧
          ∃ more d' given, (x.run more).resources = y.2.resources ∧
            (x.run more).deliveries = x.deliveries.set i d' ∧ d'.stream = y.2.stream ∧
            (x.run more).held = x.held ∧ d'.received = d.received ++ given ∧
            publish.all (given.map router.message) publisher = (y.1, y.2.publisher) ∧
            (x.run more).seen = freshRun (monitor, []) (moves ++ more) := by
  intro x
  have hstart := clean_start count monitor nextId
  obtain ⟨hclean, hseen⟩ := clean_run hstart moves
  refine ⟨hclean.free, hclean.drawn, hseen, ?_⟩
  intro σ publish router schedule publisher moment i d hi y
  obtain ⟨more, d', given, hresources, hrest⟩ :=
    relay_within hi publish router schedule publisher moment
  have hmore : (x.run more).Clean := (clean_run hclean more).1
  refine ⟨?_, more, d', given, hresources, ?_⟩
  · rw [← hresources]
    exact hmore.free
  · obtain ⟨hdeliveries, hstream, hheld, hreceived, hall⟩ := hrest
    refine ⟨hdeliveries, hstream, hheld, hreceived, hall, ?_⟩
    rw [← run_append]
    exact (clean_run hstart (moves ++ more)).2

end Traffic
end Changefeed
