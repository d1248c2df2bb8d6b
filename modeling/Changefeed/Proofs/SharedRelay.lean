import Changefeed.Proofs.Conservation

/-!
# Relays among others

A relay works on one of the streams while all the others go on: it receives an event, publishes it,
gives it back, and leaves at the end of the stream or after the first message that is refused
(`Traffic.Relaying`). Anything can happen between two of its actions, save that nobody else receives
from its stream. A relay that has the pool to itself is a case of this.
-/

namespace Changefeed

inductive Errand
  | receive
  | publish (e : Event)
  | giveBack (e : Event) (result : Except PublishError Unit)
  | leave (result : Except PublishError Unit)
  | gone (result : Except PublishError Unit)

namespace Errand

def hand : Errand → List Event
  | .publish e => [e]
  | .giveBack e _ => [e]
  | _ => []

def after : Except PublishError Unit → Errand
  | .ok () => .receive
  | .error error => .leave (.error error)

@[simp] theorem hand_after (result : Except PublishError Unit) : (after result).hand = [] := by
  cases result <;> rfl

end Errand

namespace Traffic

variable {σ : Type}

def Move.ofReceiver (i : Nat) : Move → Prop
  | .turn j .receive => j = i
  | .turn j .drop => j = i
  | _ => False

/-- The traffic and the publisher while a relay receives from stream `i`, with the events that it
has received so far. The event in its hand does not stand among those that others hold. -/
inductive Relaying (publish : Publish σ) (router : Router) (i : Nat) (x₀ : Traffic) (p₀ : σ) :
    Traffic → σ → Errand → List Event → Prop
  | start : Relaying publish router i x₀ p₀ x₀ p₀ .receive []
  | others {x : Traffic} {p : σ} {a : Errand} {given : List Event}
    (h : Relaying publish router i x₀ p₀ x p a given) (m : Move) (hm : ¬ m.ofReceiver i) :
    Relaying publish router i x₀ p₀ (x.move m) p a given
  | receive {x : Traffic} {p : σ} {d : Delivery} {s : Stream} {e : Event} {given : List Event}
    (h : Relaying publish router i x₀ p₀ x p .receive given) (hd : x.deliveries[i]? = some d)
    (hp : d.stream.poll? = some (e, s)) :
    Relaying publish router i x₀ p₀ { x.move (.turn i .receive) with held := x.held } p
      (.publish e) (given ++ [e])
  | publish {x : Traffic} {p p' : σ} {e : Event} {result : Except PublishError Unit}
    {given : List Event} (h : Relaying publish router i x₀ p₀ x p (.publish e) given)
    (hp : publish p (router.message e) = (result, p')) :
    Relaying publish router i x₀ p₀ x p' (.giveBack e result) given
  | giveBack {x : Traffic} {p : σ} {e : Event} {result : Except PublishError Unit}
    {given : List Event} (h : Relaying publish router i x₀ p₀ x p (.giveBack e result) given) :
    Relaying publish router i x₀ p₀ { x with resources := x.resources.release e } p
      (.after result) given
  | finish {x : Traffic} {p : σ} {d : Delivery} {given : List Event}
    (h : Relaying publish router i x₀ p₀ x p .receive given) (hd : x.deliveries[i]? = some d)
    (hend : d.AtEnd) : Relaying publish router i x₀ p₀ x p (.leave (.ok ())) given
  | leave {x : Traffic} {p : σ} {result : Except PublishError Unit} {given : List Event}
    (h : Relaying publish router i x₀ p₀ x p (.leave result) given) :
    Relaying publish router i x₀ p₀ (x.move (.turn i .drop)) p (.gone result) given

section Relaying

variable {publish : Publish σ} {router : Router} {i : Nat} {x₀ x : Traffic} {p₀ p : σ}
  {a : Errand} {given : List Event}

theorem Relaying.accounted (h : Relaying publish router i x₀ p₀ x p a given)
    (h₀ : x₀.Accounted 0) : x.Accounted a.hand.length := by
  induction h with
  | start => exact h₀
  | others h m hm ih => exact ih.move m
  | receive h hd hp ih =>
    obtain ⟨hlacks, hcoherent⟩ := ih.turn hd .receive
    rw [Delivery.delivered, Stream.waiting_of_poll? hp] at hlacks
    simp only [Traffic.move, hd]
    refine ⟨?_, hcoherent⟩
    simpa [Errand.hand, Nat.add_assoc, Nat.add_comm, Nat.add_left_comm] using hlacks
  | publish h hp ih => exact ih
  | @giveBack x p e result given h ih =>
    rw [Errand.hand_after]
    exact ⟨ih.lacks.release e, ih.coherent⟩
  | finish h hd hend ih => exact ih
  | leave h ih => exact ih.move _

/-- At most one event is missing on account of a relay whose pass has ended. -/
theorem Relaying.missing_le (h : Relaying publish router i x₀ p₀ x p a given)
    (h₀ : x₀.Accounted 0) (ha : a.hand = []) {d : Delivery} (hd : x.deliveries[i]? = some d)
    (hended : d.stream.phase = .ended) :
    x.resources.pool.allocated ≤
      x.resources.pool.available + lent (x.deliveries.eraseIdx i) + x.held.length + 1 := by
  have hx := h.accounted h₀
  have hlacks := hx.lacks
  have hlent := (hx.coherent d (List.mem_of_getElem? hd)).lent_le hended
  rw [lent_eraseIdx hd] at hlacks
  simp only [Pool.Lacks, ha, List.length_nil] at hlacks
  omega

structure Alone (x₀ : Traffic) (i : Nat) (r : Resources) (s : Stream) (x : Traffic)
    (d : Delivery) : Prop where
  resources : x.resources = r
  deliveries : x.deliveries = x₀.deliveries.set i d
  stream : d.stream = s
  held : x.held = x₀.held

variable {r : Resources} {s : Stream} {d d₀ : Delivery}

theorem Alone.get (h : Alone x₀ i r s x d) (hi : i < x₀.deliveries.length) :
    x.deliveries[i]? = some d := by
  rw [h.deliveries, List.getElem?_set_self hi]

theorem Alone.turn (h : Alone x₀ i r s x d) (hi : i < x₀.deliveries.length) (t : Delivery.Turn) :
    x.move (.turn i t) =
      { resources := (d.act r t).1
        deliveries := x₀.deliveries.set i (d.act r t).2
        held := d.delivered t ++ x₀.held
        drawn := x.drawn ++ d.drawn r t } := by
  rw [move_turn h.deliveries hi, h.resources, h.held]

theorem alone_start (hi : x₀.deliveries[i]? = some d₀) :
    Alone x₀ i x₀.resources d₀.stream x₀ d₀ := by
  obtain ⟨hlt, hget⟩ := List.getElem?_eq_some_iff.1 hi
  refine ⟨rfl, ?_, rfl, rfl⟩
  rw [← hget, List.set_getElem_self]

def Stands (publish : Publish σ) (router : Router) (i : Nat) (x₀ : Traffic) (p₀ : σ)
    (r : Resources) (s : Stream) (a : Errand) (p : σ) (given : List Event) : Prop :=
  ∃ x d, Alone x₀ i r s x d ∧ Relaying publish router i x₀ p₀ x p a given

theorem Stands.step {r' : Resources} {s' : Stream} (h : Stands publish router i x₀ p₀ r s a p given)
    (hi : i < x₀.deliveries.length) (hs : Stream.Step r s r' s') :
    Stands publish router i x₀ p₀ r' s' a p given := by
  obtain ⟨x, d, halone, hrelaying⟩ := h
  obtain rfl := halone.stream
  refine ⟨x.move (.turn i .step), d.record (d.stream.made r) s', ?_, hrelaying.others _ nofun⟩
  rw [halone.turn hi]
  simp only [Delivery.act, hs.step?_eq]
  exact ⟨rfl, rfl, rfl, rfl⟩

theorem Stands.cancel (h : Stands publish router i x₀ p₀ r s a p given)
    (hi : i < x₀.deliveries.length) :
    Stands publish router i x₀ p₀ r s.cancel a p given := by
  obtain ⟨x, d, halone, hrelaying⟩ := h
  obtain rfl := halone.stream
  refine ⟨x.move (.turn i .cancel), d.cancel, ?_, hrelaying.others _ nofun⟩
  rw [halone.turn hi]
  exact ⟨rfl, rfl, rfl, rfl⟩

theorem Stands.receive {s' : Stream} {e : Event}
    (h : Stands publish router i x₀ p₀ r s .receive p given)
    (hi : i < x₀.deliveries.length) (hp : s.poll? = some (e, s')) :
    Stands publish router i x₀ p₀ r s' (.publish e) p (given ++ [e]) := by
  obtain ⟨x, d, halone, hrelaying⟩ := h
  obtain rfl := halone.stream
  refine ⟨_, d.receive, ?_, hrelaying.receive (halone.get hi) hp⟩
  rw [halone.turn hi]
  exact ⟨rfl, rfl, by simp [Delivery.receive, hp], halone.held⟩

theorem Stands.giveBack {e : Event} {result : Except PublishError Unit} {p' : σ}
    (h : Stands publish router i x₀ p₀ r s (.publish e) p given)
    (hp : publish p (router.message e) = (result, p')) :
    Stands publish router i x₀ p₀ (r.release e) s (.after result) p' given := by
  obtain ⟨x, d, halone, hrelaying⟩ := h
  refine ⟨_, d, ?_, (hrelaying.publish hp).giveBack⟩
  exact ⟨by rw [halone.resources], halone.deliveries, halone.stream, halone.held⟩

theorem stands_of_course {mayCancel : Prop} {held : Option Event}
    (hi : x₀.deliveries[i]? = some d₀)
    (h : Stream.Course mayCancel x₀.resources d₀.stream r s held given) :
    match held with
    | none => ∀ result p, publish.all (given.map router.message) p₀ = (result, p) →
        (publish.all (given.map router.message).dropLast p₀).1 = .ok () →
        Stands publish router i x₀ p₀ r s (.after result) p given
    | some e => ∃ before, given = before ++ [e] ∧ ∀ p,
        publish.all (before.map router.message) p₀ = (.ok (), p) →
        Stands publish router i x₀ p₀ r s (.publish e) p given := by
  have hlt : i < x₀.deliveries.length := (List.getElem?_eq_some_iff.1 hi).1
  induction h with
  | start =>
    intro result p hall _
    cases hall
    exact ⟨x₀, d₀, alone_start hi, .start⟩
  | @step r r' s s' held given h hs ih =>
    cases held with
    | none => exact fun result p hall hlast => (ih result p hall hlast).step hlt hs
    | some e =>
      obtain ⟨before, rfl, ih⟩ := ih
      exact ⟨before, rfl, fun p hall => (ih p hall).step hlt hs⟩
  | @cancel r s held given h hm ih =>
    cases held with
    | none => exact fun result p hall hlast => (ih result p hall hlast).cancel hlt
    | some e =>
      obtain ⟨before, rfl, ih⟩ := ih
      exact ⟨before, rfl, fun p hall => (ih p hall).cancel hlt⟩
  | receive h hp ih =>
    exact ⟨_, rfl, fun p hall => (ih (.ok ()) p hall (Publish.all_dropLast hall)).receive hlt hp⟩
  | @release r s e given h ih =>
    obtain ⟨before, rfl, ih⟩ := ih
    intro result p hall hlast
    rw [List.map_append, List.map_singleton, List.dropLast_concat] at hlast
    -- All messages but the last were accepted, and the last is the one that is in hand.
    obtain ⟨p', hbefore⟩ : ∃ p', publish.all (before.map router.message) p₀ = (.ok (), p') :=
      ⟨_, Prod.ext hlast rfl⟩
    rw [List.map_append, Publish.all_append hbefore] at hall
    refine (ih p' hbefore).giveBack ?_
    simp only [List.map_singleton, Publish.all] at hall
    rcases hp : publish p' (router.message e) with ⟨(error | ok), q⟩ <;> simpa [hp] using hall

end Relaying

theorem relaying_run {x : Traffic} {i : Nat} {d : Delivery} (hi : x.deliveries[i]? = some d)
    (hopen : d.stream.channel ≠ .closed) (publish : Publish σ) (router : Router)
    (schedule : Schedule) (publisher : σ) (moment : Moment) :
    let y := (Relay.start x.resources d.stream publisher moment).run schedule publish router
    ∃ x' d' given,
      Relaying publish router i x publisher x' y.2.publisher (.gone y.1) given ∧
      Alone x i y.2.resources y.2.stream x' d' := by
  intro y
  have hlt : i < x.deliveries.length := (List.getElem?_eq_some_iff.1 hi).1
  have hreached : (Relay.start x.resources d.stream publisher moment).Reached schedule
    x.resources d.stream [] := .start
  obtain ⟨given, ⟨s, hcourse, hclose, hended⟩, hall, -, hlast⟩ :=
    Relay.outcome publish router hreached
  obtain ⟨x', d', halone, hrelaying⟩ := stands_of_course hi hcourse y.1 y.2.publisher hall hlast
  obtain rfl := halone.stream
  have hleave : Relaying publish router i x publisher x' y.2.publisher (.leave y.1) given := by
    rcases hy : y.1 with error | ok
    · rw [hy] at hrelaying
      exact hrelaying
    · rw [hy] at hrelaying
      obtain ⟨hphase, hwaiting⟩ := hended hy
      have hstill : d'.stream.channel ≠ .closed := hcourse.open hopen
      refine hrelaying.finish (halone.get hlt) ⟨hphase, ?_⟩
      cases hc : d'.stream.channel with
      | free => rfl
      | full e => simp [Stream.waiting, hc] at hwaiting
      | closed => exact absurd hc hstill
  refine ⟨_, d'.drop, given, hleave.leave, ?_⟩
  rw [halone.turn hlt]
  exact ⟨rfl, rfl, hclose.symm, rfl⟩

/-- Whatever the passes, their receivers, the holders and the relays do, every event of the pool is
accounted for. When all streams have been read to their ends and nobody holds an event, all events
are back; a relay that fails costs the pool one event at most, once its pass has ended. -/
theorem pool_conserved (count : Nat) (monitor : Monitor) (nextId : Nat) (moves : List Move) :
    let x := run (start count monitor nextId) moves
    x.resources.pool.allocated = x.resources.pool.available +
        (x.deliveries.flatMap (·.stream.inHand)).length +
        (x.deliveries.flatMap (·.stream.waiting)).length + x.held.length +
        (x.deliveries.flatMap (·.destroyed)).length ∧
      (∀ d ∈ x.deliveries,
        d.destroyed.length ≤ 1 ∧ (d.destroyed ≠ [] → d.stream.channel = .closed)) ∧
      ((∀ i < x.deliveries.length, ∃ before after d, moves = before ++ after ∧
          (run (start count monitor nextId) before).deliveries[i]? = some d ∧ d.AtEnd) →
        x.held = [] → x.resources.pool.available = x.resources.pool.allocated) ∧
      ∀ (σ : Type) (publish : Publish σ) (router : Router) (publisher : σ) (i : Nat),
        (∀ x' p a given, Relaying publish router i x publisher x' p a given →
          x'.resources.pool.allocated = x'.resources.pool.available +
              (x'.deliveries.flatMap (·.stream.inHand)).length +
              (x'.deliveries.flatMap (·.stream.waiting)).length +
              (x'.held.length + a.hand.length) + (x'.deliveries.flatMap (·.destroyed)).length ∧
          ∀ error d, a = .gone (.error error) → x'.deliveries[i]? = some d →
            d.stream.phase = .ended →
            x'.resources.pool.allocated ≤ x'.resources.pool.available +
              lent (x'.deliveries.eraseIdx i) + x'.held.length + 1) ∧
        ∀ (schedule : Schedule) (moment : Moment) (d : Delivery), x.deliveries[i]? = some d →
          d.stream.channel ≠ .closed →
          let y := (Relay.start x.resources d.stream publisher moment).run schedule publish router
          ∃ x' d' given,
            Relaying publish router i x publisher x' y.2.publisher (.gone y.1) given ∧
            Alone x i y.2.resources y.2.stream x' d' := by
  intro x
  have hx : x.Accounted 0 := (accounted_start count monitor nextId).run moves
  refine ⟨?_, fun d hd => ?_, fun hread hheld => ?_, fun σ publish router publisher i =>
    ⟨fun x' p a given h => ⟨?_, fun error d ha hd hended => ?_⟩,
      fun schedule moment d hi hopen => ?_⟩⟩
  · have hlacks := hx.lacks
    rw [lent_eq, Pool.Lacks] at hlacks
    omega
  · exact ⟨(hx.coherent d hd).destroyed_length, (hx.coherent d hd).closed_of_destroyed⟩
  · -- A stream that has been read to its end has kept nothing of the pool since then.
    have hsettled : ∀ d ∈ x.deliveries, d.Settled := by
      intro d hd
      obtain ⟨i, hi, rfl⟩ := List.getElem_of_mem hd
      obtain ⟨before, after, d', rfl, hd', hend⟩ := hread i hi
      have hbefore := (accounted_start count monitor nextId).run before
      obtain ⟨d'', hd'', hs⟩ := settled_run hd'
        (hend.settled (hbefore.coherent d' (List.mem_of_getElem? hd'))) after
      rw [← run_append] at hd''
      obtain ⟨_, rfl⟩ := List.getElem?_eq_some_iff.1 hd''
      exact hs
    have hlacks := hx.lacks
    rw [lent_of_settled hsettled, hheld, Pool.Lacks, List.length_nil] at hlacks
    omega
  · have hlacks := (h.accounted hx).lacks
    rw [lent_eq, Pool.Lacks] at hlacks
    omega
  · subst ha
    exact h.missing_le hx rfl hd hended
  · exact relaying_run hi hopen publish router schedule publisher moment

end Traffic
end Changefeed
