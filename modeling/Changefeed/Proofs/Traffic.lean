import Changefeed.Proofs.Relaying

/-!
# Passes that share a pool

Any number of passes on one pool, their receivers, and holders who take events from the pool,
rewrite the events that they hold and give them back, in any order of their moves (`Traffic`). The
received events are held until they are given back. A relay of one of the streams is a part of such
a history.
-/

namespace Changefeed

namespace Delivery

def drawn (r : Resources) (d : Delivery) : Turn → List Event
  | .step => (d.stream.next?.map fun _ => r.pool.acquire.1).toList
  | _ => []

def delivered (d : Delivery) : Turn → List Event
  | .receive => d.stream.waiting
  | _ => []

end Delivery

structure Traffic where
  resources : Resources
  deliveries : List Delivery
  held : List Event
  drawn : List Event

namespace Traffic

def start (count : Nat) (monitor : Monitor) (nextId : Nat) : Traffic :=
  ⟨⟨.withCapacity count, monitor, nextId⟩, [], [], []⟩

inductive Move
  | start (filter : Filter) (time : Timestamp) (actions : List Action) (cancelled : Bool)
  | turn (i : Nat) (t : Delivery.Turn)
  | acquire
  /-- A holder makes of the event that it holds what it likes. -/
  | rewrite (j : Nat) (e : Event)
  | release (j : Nat)

/-- A move of a pass or of an event that there is not changes nothing. -/
def move (x : Traffic) : Move → Traffic
  | .start filter time actions cancelled =>
    { x with deliveries := x.deliveries ++ [.start (.start filter time actions cancelled)] }
  | .turn i t =>
    match x.deliveries[i]? with
    | none => x
    | some d =>
      { resources := (d.act x.resources t).1
        deliveries := x.deliveries.set i (d.act x.resources t).2
        held := d.delivered t ++ x.held
        drawn := x.drawn ++ d.drawn x.resources t }
  | .acquire =>
    let (e, pool) := x.resources.pool.acquire
    { x with
      resources := { x.resources with pool }
      held := e :: x.held
      drawn := x.drawn ++ [e] }
  | .rewrite j e => { x with held := x.held.set j e }
  | .release j =>
    match x.held[j]? with
    | none => x
    | some e => { x with resources := x.resources.release e, held := x.held.eraseIdx j }

def run (x : Traffic) (moves : List Move) : Traffic := moves.foldl move x

theorem run_append (x : Traffic) (moves more : List Move) :
    x.run (moves ++ more) = (x.run moves).run more :=
  List.foldl_append

theorem run_concat (x : Traffic) (moves : List Move) (m : Move) :
    x.run (moves ++ [m]) = (x.run moves).move m :=
  run_append x moves [m]

theorem move_turn {x : Traffic} {ds : List Delivery} {i : Nat} {d : Delivery}
    (hd : x.deliveries = ds.set i d) (hi : i < ds.length) (t : Delivery.Turn) :
    x.move (.turn i t) =
      { resources := (d.act x.resources t).1
        deliveries := ds.set i (d.act x.resources t).2
        held := d.delivered t ++ x.held
        drawn := x.drawn ++ d.drawn x.resources t } := by
  simp [move, hd, hi]

structure Reached (x₀ : Traffic) (i : Nat) (d₀ : Delivery) (r : Resources) (s : Stream)
    (held : Option Event) (given : List Event) (x : Traffic) (d : Delivery) : Prop where
  resources : x.resources = r
  deliveries : x.deliveries = x₀.deliveries.set i d
  stream : d.stream = s
  received : d.received = d₀.received ++ given
  held : x.held = held.toList ++ x₀.held

theorem reached_of_course {mayCancel : Prop} {x₀ : Traffic} {i : Nat} {d₀ : Delivery}
    {r : Resources} {s : Stream} {held : Option Event} {given : List Event}
    (hi : x₀.deliveries[i]? = some d₀)
    (h : Stream.Course mayCancel x₀.resources d₀.stream r s held given) :
    ∃ moves d, Reached x₀ i d₀ r s held given (x₀.run moves) d := by
  obtain ⟨hlt, hget⟩ := List.getElem?_eq_some_iff.1 hi
  induction h with
  | start =>
    refine ⟨[], d₀, rfl, ?_, rfl, by simp, rfl⟩
    rw [← hget, List.set_getElem_self]
    rfl
  | @step r r' s s' held given h hs ih =>
    obtain ⟨moves, d, rfl, hd, rfl, hreceived, hheld⟩ := ih
    refine ⟨moves ++ [.turn i .step], d.record (d.stream.made (x₀.run moves).resources) s', ?_⟩
    rw [run_concat, move_turn hd hlt]
    simp only [Delivery.act, hs.step?_eq]
    exact ⟨rfl, rfl, rfl, hreceived, hheld⟩
  | cancel h hm ih =>
    obtain ⟨moves, d, rfl, hd, rfl, hreceived, hheld⟩ := ih
    refine ⟨moves ++ [.turn i .cancel], d.cancel, ?_⟩
    rw [run_concat, move_turn hd hlt]
    exact ⟨rfl, rfl, rfl, hreceived, hheld⟩
  | @receive r s s' e given h hp ih =>
    obtain ⟨moves, d, rfl, hd, rfl, hreceived, hheld⟩ := ih
    refine ⟨moves ++ [.turn i .receive], d.receive, ?_⟩
    rw [run_concat, move_turn hd hlt]
    refine ⟨rfl, rfl, ?_, ?_, ?_⟩
    · simp [Delivery.receive, hp]
    · simp [Delivery.receive, hp, hreceived]
    · simp [Delivery.delivered, Stream.waiting_of_poll? hp, hheld]
  | release h ih =>
    obtain ⟨moves, d, rfl, hd, rfl, hreceived, hheld⟩ := ih
    -- A relay holds one event at a time, the one that was received last.
    refine ⟨moves ++ [.release 0], d, ?_⟩
    rw [run_concat]
    simp only [move, hheld, Option.toList_some, List.cons_append, List.getElem?_cons_zero]
    exact ⟨rfl, hd, rfl, hreceived, rfl⟩

/-- A relay is a part of the history, and at its end it drops the receiver. -/
theorem relay_within {σ : Type} {x : Traffic} {i : Nat} {d : Delivery}
    (hi : x.deliveries[i]? = some d) (publish : Publish σ) (router : Router) (schedule : Schedule)
    (publisher : σ) (moment : Moment) :
    let y := (Relay.start x.resources d.stream publisher moment).run schedule publish router
    ∃ more d' given, (x.run more).resources = y.2.resources ∧
      (x.run more).deliveries = x.deliveries.set i d' ∧ d'.stream = y.2.stream ∧
      (x.run more).held = x.held ∧ d'.received = d.received ++ given ∧
      publish.all (given.map router.message) publisher = (y.1, y.2.publisher) := by
  intro y
  have hreached : (Relay.start x.resources d.stream publisher moment).Reached schedule
    x.resources d.stream [] := .start
  obtain ⟨given, ⟨s, hcourse, hclose, -⟩, hall, -⟩ := Relay.outcome publish router hreached
  obtain ⟨more, d', hresources, hdeliveries, rfl, hreceived, hheld⟩ := reached_of_course hi hcourse
  obtain ⟨hlt, -⟩ := List.getElem?_eq_some_iff.1 hi
  refine ⟨more ++ [.turn i .drop], d'.drop, given, ?_⟩
  rw [run_concat, move_turn hdeliveries hlt]
  exact ⟨hresources, rfl, hclose.symm, hheld, hreceived, hall⟩

end Traffic
end Changefeed
