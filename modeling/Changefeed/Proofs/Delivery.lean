import Changefeed.Proofs.StreamSteps

/-!
# Delivery by one pass

A pass, its channel and a receiver, in any order of their turns: the pass makes a step, the receiver
takes what waits in the channel, the pass is cancelled, the receiver is dropped. Others use the same
pool in between. Whatever the order, what has been received, what waits in the channel and what the
pass has in hand are together the events of a first part of the actions, each once and in their
order, and the monitor knows of the rest of that part.
-/

namespace Changefeed

namespace Pool

/-- What others do to a pool: they take an event, or give one back, whatever it holds. -/
inductive Use
  | acquire
  | release (e : Event)

def use (p : Pool) : Use → Pool
  | .acquire => p.acquire.2
  | .release e => p.release e

def useAll (p : Pool) (uses : List Use) : Pool := uses.foldl use p

theorem Blank.use {p : Pool} (h : p.Blank) (u : Use) : (p.use u).Blank := by
  cases u with
  | acquire => exact h.acquire.2
  | release e => exact h.release e

theorem Blank.useAll {p : Pool} (h : p.Blank) (uses : List Use) : (p.useAll uses).Blank := by
  induction uses generalizing p with
  | nil => exact h
  | cons u uses ih => exact ih (h.use u)

end Pool

structure Delivery where
  stream : Stream
  /-- The events that the pass has made so far, with the verdicts on them. -/
  judged : List (Event × Verdict)
  received : List Event
  /-- What was in the channel when the receiver was dropped. -/
  destroyed : List Event
  withdrawn : List Event
  ending : Option Ending

namespace Delivery

def start (s : Stream) : Delivery := ⟨s, [], [], [], [], none⟩

inductive Turn
  | step
  | receive
  | cancel
  | drop
deriving DecidableEq, Repr

def record (d : Delivery) (made : List (Event × Verdict)) (s : Stream) : Delivery :=
  { d with
    stream := s
    judged := d.judged ++ made
    withdrawn := d.withdrawn ++ if d.stream.ending?.isSome then d.stream.inHand else []
    ending := d.ending.or d.stream.ending? }

def receive (d : Delivery) : Delivery :=
  match d.stream.poll? with
  | some (e, s) => { d with stream := s, received := d.received ++ [e] }
  | none => d

def cancel (d : Delivery) : Delivery := { d with stream := d.stream.cancel }

def drop (d : Delivery) : Delivery :=
  { d with stream := d.stream.close, destroyed := d.destroyed ++ d.stream.waiting }

/-- A turn that cannot be taken changes nothing. -/
def act (r : Resources) (d : Delivery) : Turn → Resources × Delivery
  | .step =>
    match d.stream.step? r with
    | some (r', s) => (r', d.record (d.stream.made r) s)
    | none => (r, d)
  | .receive => (r, d.receive)
  | .cancel => (r, d.cancel)
  | .drop => (r, d.drop)

inductive Move
  | turn (t : Turn)
  | use (u : Pool.Use)

def move (x : Resources × Delivery) : Move → Resources × Delivery
  | .turn t => x.2.act x.1 t
  | .use u => ({ x.1 with pool := x.1.pool.use u }, x.2)

def run (x : Resources × Delivery) (moves : List Move) : Resources × Delivery :=
  moves.foldl move x

theorem run_concat (x : Resources × Delivery) (moves : List Move) (m : Move) :
    run x (moves ++ [m]) = move (run x moves) m :=
  List.foldl_append

theorem run_induction {P : Resources × Delivery → Prop}
    (hstep : ∀ r d r' s, P (r, d) → Stream.Step r d.stream r' s →
      P (r', d.record (d.stream.made r) s))
    (hreceive : ∀ r d, P (r, d) → P (r, d.receive)) (hcancel : ∀ r d, P (r, d) → P (r, d.cancel))
    (hdrop : ∀ r d, P (r, d) → P (r, d.drop))
    (huse : ∀ r d u, P (r, d) → P ({ r with pool := r.pool.use u }, d))
    {x : Resources × Delivery} (hx : P x) (moves : List Move) : P (run x moves) := by
  induction moves generalizing x with
  | nil => exact hx
  | cons m moves ih =>
    refine ih ?_
    obtain ⟨r, d⟩ := x
    cases m with
    | use u => exact huse r d u hx
    | turn t =>
      cases t with
      | step =>
        simp only [move, act]
        split
        next r' s hs => exact hstep r d r' s hx (.of_step? hs)
        next => exact hx
      | receive => exact hreceive r d hx
      | cancel => exact hcancel r d hx
      | drop => exact hdrop r d hx

structure Coherent (d : Delivery) : Prop where
  destroyed_length : d.destroyed.length ≤ 1
  withdrawn_length : d.withdrawn.length ≤ 1
  closed_of_destroyed : d.destroyed ≠ [] → d.stream.channel = .closed
  ended_iff : d.stream.phase = .ended ↔ d.ending.isSome
  running : d.ending = none → d.withdrawn = []
  exhausted : d.ending = some .exhausted → d.stream.pending = [] ∧ d.withdrawn = []
  cancelled : d.ending = some .cancelled → d.stream.cancelled = true
  deserted : d.ending = some .deserted → d.stream.channel = .closed

theorem coherent_start (filter : Filter) (time : Timestamp) (actions : List Action)
    (cancelled : Bool) : Coherent (start (.start filter time actions cancelled)) := by
  constructor <;> simp [start, Stream.start]

theorem Coherent.ending_eq_none {d : Delivery} (h : d.Coherent) (hp : d.stream.phase ≠ .ended) :
    d.ending = none := by
  rw [ne_eq, h.ended_iff] at hp
  simpa using hp

theorem Coherent.destroyed_eq_nil {d : Delivery} (h : d.Coherent)
    (ho : d.stream.channel ≠ .closed) : d.destroyed = [] :=
  Classical.byContradiction fun hne => ho (h.closed_of_destroyed hne)

theorem Coherent.record {r r' : Resources} {d : Delivery} {s : Stream} (h : d.Coherent)
    (hs : Stream.Step r d.stream r' s) (made : List (Event × Verdict)) :
    (d.record made s).Coherent := by
  have hnone : d.ending = none := by
    apply h.ending_eq_none
    cases hs <;> simp_all
  have hwithdrawn := h.running hnone
  have hdestroyed := h.closed_of_destroyed
  constructor
  case destroyed_length => exact h.destroyed_length
  all_goals
    cases hs <;>
      simp_all [Delivery.record, Stream.ending?, Stream.inHand]

theorem Coherent.receive {d : Delivery} (h : d.Coherent) : d.receive.Coherent := by
  unfold Delivery.receive Stream.poll?
  cases hc : d.stream.channel with
  | full e =>
    obtain ⟨hd, hw, hclosed, hended, hrunning, hexhausted, hcancelled, hdeserted⟩ := h
    constructor <;> simp_all
  | free => exact h
  | closed => exact h

theorem Coherent.cancel {d : Delivery} (h : d.Coherent) : d.cancel.Coherent :=
  { h with cancelled := fun _ => rfl }

theorem Coherent.drop {d : Delivery} (h : d.Coherent) : d.drop.Coherent := by
  refine { h with
    destroyed_length := ?_
    closed_of_destroyed := fun _ => rfl
    deserted := fun _ => rfl }
  by_cases hd : d.destroyed = []
  · cases hc : d.stream.channel <;> simp [Delivery.drop, hd, Stream.waiting, hc]
  · simpa [Delivery.drop, Stream.waiting, h.closed_of_destroyed hd] using h.destroyed_length

def events (d : Delivery) : List Event :=
  d.received ++ d.destroyed ++ d.stream.waiting ++ d.withdrawn ++ d.stream.inHand

theorem events_receive {d : Delivery} (h : d.Coherent) : d.receive.events = d.events := by
  unfold Delivery.receive
  split
  next e s hp =>
    obtain ⟨hfull, rfl⟩ := Stream.poll?_eq_some_iff.1 hp
    have hdestroyed := h.destroyed_eq_nil (by simp [hfull])
    simp [events, Stream.waiting, Stream.inHand, hfull, hdestroyed]
  next => rfl

theorem events_drop (d : Delivery) : d.drop.events = d.events := by
  simp [events, Delivery.drop, Stream.close, Stream.waiting, Stream.inHand]

theorem events_record {r r' : Resources} {d : Delivery} {s : Stream} (h : d.Coherent)
    (hs : Stream.Step r d.stream r' s) (made : List (Event × Verdict)) :
    (d.record made s).events = d.events ++ d.stream.kept r := by
  -- An event that is sent moves past what was withdrawn, which is nothing while the pass runs.
  have hwithdrawn : d.withdrawn = [] := by
    refine h.running (h.ending_eq_none ?_)
    cases hs <;> simp_all
  cases hs <;>
    simp_all [events, Delivery.record, Stream.ending?, Stream.inHand, Stream.waiting, Stream.kept,
      Stream.made, Stream.next?]

/-- What has become of the events of the actions that have been taken, the first ones of all. -/
structure Account (filter : Filter) (time : Timestamp) (monitor : Monitor)
    (actions taken : List Action) (r : Resources) (d : Delivery) : Prop where
  filter_eq : d.stream.filter = filter
  time_eq : d.stream.time = time
  blank : r.pool.Blank
  split : actions = taken ++ d.stream.pending
  events : d.events.map Event.anonymous = filter.emitted time taken
  noted : r.monitor = monitor.noteAll (filter.dropped time taken)

section Account

variable {filter : Filter} {time : Timestamp} {monitor : Monitor} {actions taken : List Action}
  {r r' : Resources} {d : Delivery} {s : Stream}

theorem account_start (hblank : r.pool.Blank) (cancelled : Bool) :
    Account filter time r.monitor actions [] r (start (.start filter time actions cancelled)) :=
  ⟨rfl, rfl, hblank, rfl, rfl, rfl⟩

theorem Account.record (h : Account filter time monitor actions taken r d) (hd : d.Coherent)
    (hs : Stream.Step r d.stream r' s) (made : List (Event × Verdict)) :
    ∃ taken', Account filter time monitor actions taken' r' (d.record made s) := by
  obtain ⟨hfilter, htime, hblank, hsplit, hevents, hnoted⟩ := h
  have hrecord := events_record hd hs made
  have hfilter' : s.filter = filter := hs.filter_eq.trans hfilter
  have htime' : s.time = time := hs.time_eq.trans htime
  rcases hs.judges with ⟨hkept, hpending, -, hmonitor⟩ | ⟨a, hpending, -, hkept, hmonitor⟩
  · refine ⟨taken, hfilter', htime', hs.blank hblank, ?_, ?_, hmonitor.trans hnoted⟩
    · rw [hsplit, ← hpending]
      rfl
    · rw [hrecord, hkept, List.append_nil, hevents]
  · have hverdict : (filter.evaluate (Event.blank.fill (.version4 r.nextId) a time)).passed =
        filter.passes time a := rfl
    rw [htime, hfilter, Resources.draw_event hblank, hverdict] at hkept hmonitor
    refine ⟨taken ++ [a], hfilter', htime', hs.blank hblank, ?_, ?_, ?_⟩
    · rw [hsplit, hpending, List.append_cons]
      rfl
    · rw [hrecord, hkept, List.map_append, hevents, Filter.emitted_append, Filter.emitted_singleton]
      by_cases hpass : filter.passes time a = true
      · rw [if_pos hpass, if_pos hpass]
        rfl
      · rw [if_neg hpass, if_neg hpass]
        rfl
    · rw [hmonitor, Filter.dropped_append, Filter.dropped_singleton, Monitor.noteAll_append,
        ← hnoted]
      by_cases hpass : filter.passes time a = true
      · rw [if_pos hpass, if_pos hpass]
        rfl
      · rw [if_neg hpass, if_neg hpass]
        rfl

theorem Account.receive (h : Account filter time monitor actions taken r d) (hd : d.Coherent) :
    Account filter time monitor actions taken r d.receive := by
  have hevents : d.receive.events.map Event.anonymous = filter.emitted time taken := by
    rw [events_receive hd, h.events]
  unfold Delivery.receive at hevents ⊢
  cases hp : d.stream.poll? with
  | none => exact h
  | some polled =>
    obtain ⟨e, s⟩ := polled
    obtain ⟨-, rfl⟩ := Stream.poll?_eq_some_iff.1 hp
    rw [hp] at hevents
    exact { h with events := hevents }

theorem Account.drop (h : Account filter time monitor actions taken r d) :
    Account filter time monitor actions taken r d.drop :=
  { h with events := by rw [events_drop, h.events] }

theorem Account.complete (h : Account filter time monitor actions taken r d) (hd : d.Coherent)
    (hended : d.stream.phase = .ended) (hc : d.stream.cancelled = false)
    (ho : d.stream.channel ≠ .closed) :
    taken = actions ∧ d.destroyed = [] ∧ d.withdrawn = [] := by
  have hdestroyed := hd.destroyed_eq_nil ho
  obtain ⟨ending, he⟩ := Option.isSome_iff_exists.1 (hd.ended_iff.1 hended)
  cases ending with
  | exhausted =>
    obtain ⟨hpending, hwithdrawn⟩ := hd.exhausted he
    refine ⟨?_, hdestroyed, hwithdrawn⟩
    rw [h.split, hpending, List.append_nil]
  | cancelled =>
    have hcancelled := hd.cancelled he
    rw [hc] at hcancelled
    cases hcancelled
  | deserted => exact absurd (hd.deserted he) ho

end Account

theorem account_run {r : Resources} (hblank : r.pool.Blank) (filter : Filter) (time : Timestamp)
    (actions : List Action) (cancelled : Bool) (moves : List Move) :
    (run (r, start (.start filter time actions cancelled)) moves).2.Coherent ∧
      ∃ taken, Account filter time r.monitor actions taken
        (run (r, start (.start filter time actions cancelled)) moves).1
        (run (r, start (.start filter time actions cancelled)) moves).2 := by
  -- The first part of the actions grows with the run, so it stands inside the invariant.
  refine run_induction (P := fun x => x.2.Coherent ∧
    ∃ taken, Account filter time r.monitor actions taken x.1 x.2) ?_ ?_ ?_ ?_ ?_ ?_ moves
  · intro r d r' s hrd hs
    obtain ⟨hd, taken, h⟩ := hrd
    exact ⟨hd.record hs _, h.record hd hs _⟩
  · intro r d hrd
    obtain ⟨hd, taken, h⟩ := hrd
    exact ⟨hd.receive, taken, h.receive hd⟩
  · intro r d hrd
    obtain ⟨hd, taken, h⟩ := hrd
    exact ⟨hd.cancel, taken, { h with }⟩
  · intro r d hrd
    obtain ⟨hd, taken, h⟩ := hrd
    exact ⟨hd.drop, taken, h.drop⟩
  · intro r d u hrd
    obtain ⟨hd, taken, h⟩ := hrd
    exact ⟨hd, taken, { h with blank := h.blank.use u }⟩
  · exact ⟨coherent_start filter time actions cancelled, [], account_start hblank cancelled⟩

/-- There is a number `k` of actions that have been taken. Their events that pass the filter are the
ones received, the one in the channel and the one in hand, save that a dropped receiver takes the
one in the channel with it and that a cancelled or deserted pass keeps back the one it had in hand.
-/
theorem run_accounts (count : Nat) (uses : List Pool.Use) (monitor : Monitor) (nextId : Nat)
    (filter : Filter) (time : Timestamp) (actions : List Action) (cancelled : Bool)
    (moves : List Move) :
    let x := run (⟨(Pool.withCapacity count).useAll uses, monitor, nextId⟩,
      start (.start filter time actions cancelled)) moves
    let d := x.2
    ∃ k ≤ actions.length,
      d.stream.pending = actions.drop k ∧
      (d.received ++ d.destroyed ++ d.stream.waiting ++ d.withdrawn ++ d.stream.inHand).map
        Event.anonymous = filter.emitted time (actions.take k) ∧
      (d.destroyed.length ≤ 1 ∧ (d.destroyed ≠ [] → d.stream.channel = .closed)) ∧
      (d.withdrawn.length ≤ 1 ∧
        (d.withdrawn ≠ [] → d.ending = some .cancelled ∨ d.ending = some .deserted)) ∧
      x.1.monitor = monitor.noteAll (filter.dropped time (actions.take k)) ∧
      (∀ skips, monitor = .counting skips → ∀ table, x.1.monitor.skips.get table =
        skips.get table + (filter.dropped time (actions.take k)).count table) ∧
      (d.stream.phase = .ended ↔ d.ending.isSome) ∧
      (d.ending = some .exhausted → k = actions.length) ∧
      (d.stream.phase = .ended → d.stream.cancelled = false → d.stream.channel ≠ .closed →
        k = actions.length) ∧
      (d.ending = some .cancelled → d.stream.cancelled = true) ∧
      (d.ending = some .deserted → d.stream.channel = .closed) := by
  intro x d
  let r : Resources := ⟨(Pool.withCapacity count).useAll uses, monitor, nextId⟩
  have hblank : r.pool.Blank := (Pool.blank_withCapacity count).useAll uses
  have hx : d.Coherent ∧ ∃ taken, Account filter time monitor actions taken x.1 d :=
    account_run hblank filter time actions cancelled moves
  obtain ⟨hd, taken, h⟩ := hx
  have hdrop : d.stream.pending = actions.drop taken.length := by
    rw [h.split, List.drop_left]
  have htake : actions.take taken.length = taken := by
    rw [h.split, List.take_left]
  have hle : taken.length ≤ actions.length := by
    rw [h.split, List.length_append]
    omega
  refine ⟨taken.length, hle, hdrop, ?_, ⟨hd.destroyed_length, hd.closed_of_destroyed⟩,
    ⟨hd.withdrawn_length, fun hne => ?_⟩, ?_, ?_, hd.ended_iff, fun he => ?_,
    fun hended hc ho => ?_, hd.cancelled, hd.deserted⟩
  · rw [htake]
    exact h.events
  · cases he : d.ending with
    | none => exact absurd (hd.running he) hne
    | some ending =>
      cases ending with
      | exhausted => exact absurd (hd.exhausted he).2 hne
      | cancelled => exact .inl rfl
      | deserted => exact .inr rfl
  · rw [htake]
    exact h.noted
  · intro skips hskips table
    subst hskips
    rw [htake, h.noted, Monitor.get_noteAll_counting]
  · have hpending := congrArg List.length hdrop
    rw [(hd.exhausted he).1, List.length_nil, List.length_drop] at hpending
    omega
  · rw [(h.complete hd hended hc ho).1]

end Delivery
end Changefeed
