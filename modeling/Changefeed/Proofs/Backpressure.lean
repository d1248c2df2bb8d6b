import Changefeed.Proofs.ReplayRuns

/-!
# How far a pool grows

A pass takes an event from the pool only when the one before it has gone into the channel, and the
pool makes a new event only when none waits in it. So the pool grows no further than the receiver
lets it: if passes run one after another and `h` received events are held at most, then `h + 1`
events at most are elsewhere when the next one is taken. A replay holds one event at a time.
-/

namespace Changefeed

namespace Pool

theorem Lacks.allocated_acquire {p : Pool} {n : Nat} (h : p.Lacks n) :
    p.acquire.2.allocated ≤ max p.allocated (n + 1) := by
  obtain ⟨free, allocated⟩ := p
  cases free with
  | nil =>
    -- All that were made are elsewhere, so there are `n` of them.
    obtain rfl : allocated = n := by simpa [Lacks, available] using h
    exact Nat.le_max_right _ _
  | cons e free => exact Nat.le_max_left _ _

end Pool

namespace Stream

/-- A pass that takes an event has none in hand, but one may wait in its channel. -/
theorem Step.allocated_le {r r' : Resources} {s s' : Stream} {n : Nat} (h : Step r s r' s')
    (hr : r.pool.Lacks (n + s.inside)) :
    r'.pool.allocated ≤ max r.pool.allocated (n + s.waiting.length + 1) := by
  cases h with
  | hold hp hn hc hf =>
    rw [inside_of_taking hp] at hr
    exact hr.allocated_acquire
  | skip hp hn hc hf =>
    rw [inside_of_taking hp] at hr
    exact hr.allocated_acquire
  | _ => exact Nat.le_max_left _ _

theorem Course.allocated_le {mayCancel : Prop} {r₀ r : Resources} {s₀ s : Stream}
    {held : Option Event} {given : List Event} (h : Course mayCancel r₀ s₀ r s held given)
    (h₀ : r₀.pool.Lacks s₀.inside) : r.pool.allocated ≤ max r₀.pool.allocated 3 := by
  induction h with
  | start => exact Nat.le_max_left _ _
  | @step r r' s s' held given h hs ih =>
    have hlacks : r.pool.Lacks (held.toList.length + s.inside) := by
      simpa using h.lacks (n := 0) (by simpa using h₀)
    have hstep := hs.allocated_le hlacks
    have hwaiting := s.waiting_length_le
    have hheld : held.toList.length ≤ 1 := by cases held <;> simp
    omega
  | cancel h hm ih => exact ih
  | receive h hp ih => exact ih
  | release h ih => exact ih

end Stream

namespace Delivery

theorem Coherent.lent_le_two {d : Delivery} (h : d.Coherent) : d.lent ≤ 2 := by
  have houtside := h.waiting_destroyed_le
  have hhand : d.stream.inHand.length ≤ 1 := by
    unfold Stream.inHand
    split <;> simp
  simp only [lent, Stream.inside]
  omega

theorem Coherent.act_allocated_le {r : Resources} {d : Delivery} {n : Nat} (hd : d.Coherent)
    (h : r.pool.Lacks (n + d.lent)) (t : Turn) :
    (d.act r t).1.pool.allocated ≤ max r.pool.allocated (n + 2) := by
  cases t with
  | step =>
    simp only [act]
    split
    next r' s hs =>
      have hlacks : r.pool.Lacks (n + d.destroyed.length + d.stream.inside) := by
        simpa [lent, Nat.add_assoc, Nat.add_comm, Nat.add_left_comm] using h
      have hstep := (Stream.Step.of_step? hs).allocated_le hlacks
      have houtside := hd.waiting_destroyed_le
      dsimp only
      omega
    next => exact Nat.le_max_left _ _
  | _ => exact Nat.le_max_left _ _

theorem Settled.act_resources {d : Delivery} (h : d.Settled) (r : Resources) (t : Turn) :
    (d.act r t).1 = r := by
  cases t with
  | step =>
    have hnone : d.stream.step? r = none := by simp [Stream.step?, h.ended]
    simp [Delivery.act, hnone]
  | _ => rfl

end Delivery

namespace Traffic

def Permits (x : Traffic) : Move → Prop
  | .start .. => ∀ d ∈ x.deliveries, d.Settled
  | _ => True

/-- The passes run one after another, and there are never more than `h` events held. -/
def Serial (h : Nat) (x : Traffic) : List Move → Prop
  | [] => True
  | m :: moves => x.Permits m ∧ (x.move m).held.length ≤ h ∧ Serial h (x.move m) moves

def Rested (x : Traffic) : Prop :=
  ∀ i d, i + 1 < x.deliveries.length → x.deliveries[i]? = some d → d.Settled

theorem length_deliveries_move (x : Traffic) (m : Move) :
    (x.move m).deliveries.length = x.deliveries.length + m.opened?.toList.length := by
  have hrun : (x.move m).deliveries.length = _ := length_deliveries_run x [m]
  cases h : m.opened? <;> simpa [h] using hrun

theorem Rested.move {x : Traffic} (h : x.Rested) {m : Move} (hm : x.Permits m) :
    (x.move m).Rested := by
  intro i d hi hd
  rw [length_deliveries_move] at hi
  -- It was there before the move, and it had settled then.
  obtain ⟨d₀, hd₀, hsettled⟩ : ∃ d₀, x.deliveries[i]? = some d₀ ∧ d₀.Settled := by
    cases m with
    | start =>
      have hlt : i < x.deliveries.length := Nat.lt_of_succ_lt_succ hi
      exact ⟨_, List.getElem?_eq_getElem hlt, hm _ (List.getElem_mem hlt)⟩
    | _ =>
      have hlt : i < x.deliveries.length := Nat.lt_of_succ_lt hi
      exact ⟨_, List.getElem?_eq_getElem hlt, h i _ hi (List.getElem?_eq_getElem hlt)⟩
  obtain ⟨d', hd', hsettled'⟩ := settled_move hd₀ hsettled m
  obtain rfl : d' = d := by simpa [hd'] using hd
  exact hsettled'

theorem Rested.lent_eq {x : Traffic} (h : x.Rested) {i : Nat} {d : Delivery}
    (hd : x.deliveries[i]? = some d) (hi : x.deliveries.length ≤ i + 1) :
    lent x.deliveries = d.lent := by
  have hlast : i < x.deliveries.length := (List.getElem?_eq_some_iff.1 hd).1
  have hothers : lent (x.deliveries.eraseIdx i) = 0 := by
    apply lent_of_settled
    intro d' hd'
    obtain ⟨j, hj, hget⟩ := List.mem_eraseIdx_iff_getElem?.1 hd'
    have hlt : j < x.deliveries.length := (List.getElem?_eq_some_iff.1 hget).1
    exact h j d' (by omega) hget
  rw [lent_eraseIdx hd, hothers, Nat.zero_add]

theorem Rested.lent_le {x : Traffic} (h : x.Rested) (hx : ∀ d ∈ x.deliveries, d.Coherent) :
    lent x.deliveries ≤ 2 := by
  cases hd : x.deliveries[x.deliveries.length - 1]? with
  | none =>
    have hnil : x.deliveries = [] := by
      rw [List.getElem?_eq_none_iff] at hd
      exact List.eq_nil_of_length_eq_zero (by omega)
    simp [hnil, lent]
  | some d =>
    rw [h.lent_eq hd (by omega)]
    exact (hx d (List.mem_of_getElem? hd)).lent_le_two

structure Bounded (count h : Nat) (x : Traffic) : Prop where
  accounted : x.Accounted 0
  rested : x.Rested
  held : x.held.length ≤ h
  allocated : x.resources.pool.allocated ≤ max count (h + 2)

theorem bounded_start (count h : Nat) (monitor : Monitor) (nextId : Nat) :
    (start count monitor nextId).Bounded count h where
  accounted := accounted_start count monitor nextId
  rested := by simp [Rested, start]
  held := Nat.zero_le h
  allocated := Nat.le_max_left _ _

theorem Bounded.allocated_turn {count h : Nat} {x : Traffic} (hx : x.Bounded count h) {i : Nat}
    {d : Delivery} (hd : x.deliveries[i]? = some d) (t : Delivery.Turn) :
    (d.act x.resources t).1.pool.allocated ≤ max count (h + 2) := by
  have hallocated := hx.allocated
  by_cases hi : i + 1 < x.deliveries.length
  · rw [(hx.rested i d hi hd).act_resources]
    exact hallocated
  · have hcoherent := hx.accounted.coherent d (List.mem_of_getElem? hd)
    have hlacks := hx.accounted.lacks
    rw [hx.rested.lent_eq hd (by omega)] at hlacks
    have hact := hcoherent.act_allocated_le (n := x.held.length)
      (by simpa [Nat.add_comm] using hlacks) t
    have hheld := hx.held
    omega

theorem Bounded.allocated_move {count h : Nat} {x : Traffic} (hx : x.Bounded count h) {m : Move}
    (hheld : (x.move m).held.length ≤ h) :
    (x.move m).resources.pool.allocated ≤ max count (h + 2) := by
  have hallocated := hx.allocated
  cases m with
  | start => exact hallocated
  | turn i t =>
    simp only [Traffic.move]
    split
    next => exact hallocated
    next d hd => exact hx.allocated_turn hd t
  | acquire =>
    have hlent := hx.rested.lent_le hx.accounted.coherent
    have hacquire := hx.accounted.lacks.allocated_acquire
    simp only [Traffic.move, List.length_cons] at hheld ⊢
    omega
  | rewrite => exact hallocated
  | release j =>
    simp only [Traffic.move]
    split
    next => exact hallocated
    next => exact hallocated

theorem Bounded.move {count h : Nat} {x : Traffic} (hx : x.Bounded count h) {m : Move}
    (hm : x.Permits m) (hheld : (x.move m).held.length ≤ h) : (x.move m).Bounded count h where
  accounted := hx.accounted.move m
  rested := hx.rested.move hm
  held := hheld
  allocated := hx.allocated_move hheld

theorem Bounded.run {count h : Nat} {x : Traffic} (hx : x.Bounded count h) {moves : List Move}
    (hmoves : Serial h x moves) : (x.run moves).Bounded count h := by
  induction moves generalizing x with
  | nil => exact hx
  | cons m moves ih =>
    obtain ⟨hm, hheld, hrest⟩ := hmoves
    exact ih (hx.move hm hheld) hrest

end Traffic

namespace Relay

variable {σ : Type}

theorem allocated_run (schedule : Schedule) (publish : Publish σ) (router : Router) {r : Resources}
    (hr : r.pool.Lacks 0) (filter : Filter) (time : Timestamp) (actions : List Action)
    (cancelled : Bool) (publisher : σ) (moment : Moment) :
    let y := (start r (.start filter time actions cancelled) publisher moment).run schedule publish
      router
    y.2.resources.pool.allocated ≤ max r.pool.allocated 3 ∧
      (y.1 = .ok () → y.2.resources.pool.Lacks 0) := by
  intro y
  have hreached : (start r (.start filter time actions cancelled) publisher moment).Reached schedule
    r (.start filter time actions cancelled) [] := .start
  obtain ⟨given, ⟨s, hcourse, -, hended⟩, -⟩ := outcome publish router hreached
  refine ⟨hcourse.allocated_le hr, fun hok => ?_⟩
  obtain ⟨hphase, hwaiting⟩ := hended hok
  have hlacks := hcourse.lacks (n := 0) hr
  rw [Stream.inside_of_ended hphase, hwaiting] at hlacks
  exact hlacks

end Relay

namespace Session

theorem knows_self (s : Session) : s.Knows s.relations.entries.reverse := by
  intro id
  rw [lastRelation, List.reverse_reverse]
  rfl

theorem resources_loadTransaction {s s' : Session} {t : RecordedTransaction}
    (h : s.loadTransaction t = .ok s') : s'.resources = s.resources := by
  have hload := toOption_loadTransaction s.knows_self t
  rw [h] at hload
  obtain ⟨more, -, rfl⟩ := Option.map_eq_some_iff.1 hload.symm
  exact (commitRecorded_beginRecorded s t more).1

end Session

namespace Replay

variable {σ : Type} (schedule : Schedule) (publish : Publish σ) (router : Router) (filter : Filter)

theorem allocated_relayLoaded (index : Nat) {x : Replay σ}
    (hx : x.session.resources.pool.Lacks 0) :
    let y := relayLoaded schedule publish router filter index x
    y.2.session.resources.pool.allocated ≤ max x.session.resources.pool.allocated 3 ∧
      (y.1 = .ok () → y.2.session.resources.pool.Lacks 0) := by
  unfold relayLoaded Session.openStream
  cases htime : x.session.commitTime with
  | none => exact ⟨Nat.le_max_left _ _, nofun⟩
  | some time =>
    obtain ⟨hle, hlacks⟩ := Relay.allocated_run schedule publish router hx filter time
      x.session.actions x.cancelled x.publisher x.moment
    dsimp only
    split
    next hresult => exact ⟨hle, nofun⟩
    next hresult => exact ⟨hle, fun _ => hlacks hresult⟩

theorem allocated_runAll (index : Nat) (transactions : List RecordedTransaction) {x : Replay σ}
    (hx : x.session.resources.pool.Lacks 0) :
    let y := runAll schedule publish router filter index transactions x
    y.2.session.resources.pool.allocated ≤ max x.session.resources.pool.allocated 3 := by
  induction transactions generalizing index x with
  | nil => exact Nat.le_max_left _ _
  | cons t rest ih =>
    cases hc : (x.pause schedule).cancelled with
    | true =>
      rw [runAll_of_cancelled schedule publish router filter hc]
      exact Nat.le_max_left _ _
    | false =>
      cases ht : x.session.loadTransaction t with
      | error e =>
        rw [runAll_of_error schedule publish router filter hc ht]
        exact Nat.le_max_left _ _
      | ok session =>
        have hresources : (x.loaded schedule session).session.resources = x.session.resources :=
          Session.resources_loadTransaction ht
        have hrelay := allocated_relayLoaded schedule publish router filter index
          (x := x.loaded schedule session) (by rwa [hresources])
        rw [hresources] at hrelay
        rw [runAll_of_loaded schedule publish router filter hc ht]
        generalize relayLoaded schedule publish router filter index (x.loaded schedule session) =
          relayed at hrelay
        obtain ⟨(e | ok), y⟩ := relayed
        · exact hrelay.1
        · have hrest := ih (index + 1) (x := y) (hrelay.2 rfl)
          exact Nat.le_trans hrest (Nat.max_le.2 ⟨hrelay.1, Nat.le_max_right _ _⟩)

theorem allocated_run (c : Config) (r : Recording) (monitor : Monitor) (nextId : Nat)
    (publisher : σ) (cancelled : Bool) :
    (run schedule publish c r ⟨.empty, monitor, nextId⟩ publisher
      cancelled).2.session.resources.pool.allocated ≤ 3 := by
  have hempty : (start r ⟨.empty, monitor, nextId⟩ publisher cancelled).session.resources.pool =
    .empty := by rw [resources_start]
  have hlacks : Pool.empty.Lacks 0 := Pool.lacks_withCapacity 0
  cases hfilter : c.listener.filter.toFilter with
  | error e => simp [run, hfilter, Pool.empty]
  | ok filter =>
    have hall := allocated_runAll schedule publish (router c) filter 0 r.transactions
      (x := start r ⟨.empty, monitor, nextId⟩ publisher cancelled) (by rwa [hempty])
    rw [run_of_toFilter schedule publish publisher cancelled hfilter]
    rw [hempty] at hall
    exact hall

end Replay

namespace Traffic

/-- However many actions there are, the pool grows no further than what is held and two events with
the pass: the one in its channel and the one in hand. A replay holds one event at a time, so three
events will do for it. -/
theorem allocated_le_of_serial (count h : Nat) (monitor : Monitor) (nextId : Nat)
    {moves : List Move} (hmoves : Serial h (start count monitor nextId) moves) :
    (run (start count monitor nextId) moves).resources.pool.allocated ≤ max count (h + 2) ∧
      ∀ (σ : Type) (schedule : Schedule) (publish : Publish σ) (c : Config) (r : Recording)
        (publisher : σ) (cancelled : Bool),
        (Replay.run schedule publish c r ⟨.empty, monitor, nextId⟩ publisher
          cancelled).2.session.resources.pool.allocated ≤ 3 := by
  refine ⟨((bounded_start count h monitor nextId).run hmoves).allocated, ?_⟩
  intro σ schedule publish c r publisher cancelled
  exact Replay.allocated_run schedule publish c r monitor nextId publisher cancelled

/-- One event is received and held, and the pass goes on until it has to wait. -/
def aheadMoves : List Move :=
  [.start (.ofSections [("users", ["insert"])] []) .epoch (.replicate 3 Replay.smallInsert) false,
    .turn 0 .step, .turn 0 .step, .turn 0 .receive, .turn 0 .step, .turn 0 .step, .turn 0 .step]

theorem allocated_eq_ahead :
    Serial 1 (start 0 .silent 0) aheadMoves ∧
      (run (start 0 .silent 0) aheadMoves).resources.pool.allocated = max 0 (1 + 2) := by
  have hmoves : Serial 1 (start 0 .silent 0) aheadMoves := by
    simp only [aheadMoves, Serial, Permits, and_true, true_and]
    refine ⟨by simp [start], ?_⟩
    decide +kernel
  refine ⟨hmoves, Nat.le_antisymm (allocated_le_of_serial 0 1 .silent 0 hmoves).1 ?_⟩
  decide +kernel

end Traffic
end Changefeed
