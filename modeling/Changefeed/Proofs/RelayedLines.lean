import Changefeed.Proofs.LineWriting
import Changefeed.Proofs.Replaying

/-!
# The lines of a relay

A relay hands its events over up to the first that is refused (`Relay.all_hands`). When they are
written as lines, the output is a first part of all their lines. It can be cut into topics and
payloads again, and it has a line for each event that was published and at most one more, whoever
feeds the relay (`Relay.all_lines`). What it receives of a stream does not depend on its publisher:
a round takes the next event of a feed (`Relay.round_eq`), and the events of the feed are relayed
like any others (`Relay.run_eq_all`, `Relay.run_lines`).
-/

namespace Changefeed

/-- A stream with all that it is received in, but without a publisher. -/
structure Feed where
  resources : Resources
  stream : Stream
  moment : Moment

namespace Feed

variable (schedule : Schedule)

def next (a : Feed) : Option Event × Feed :=
  let t := a.stream.play a.resources (schedule a.moment)
  let received := t.2.receive t.1
  match received.event? with
  | none => (none, ⟨received.resources, received.stream, a.moment.next⟩)
  | some e =>
    let handed := a.moment.next.hand
    let u := received.stream.play received.resources (schedule handed)
    (some e, ⟨u.1.release e, u.2, handed.next⟩)

theorem load_next {a b : Feed} {e : Event} (h : a.next schedule = (some e, b)) :
    b.stream.load < a.stream.load := by
  unfold next at h
  dsimp only at h
  split at h
  next => cases h
  next he =>
    obtain ⟨-, rfl⟩ := Prod.mk.inj h
    exact Nat.lt_of_le_of_lt (Stream.load_play ..)
      (Nat.lt_of_lt_of_le (Stream.load_receive he) (Stream.load_play ..))

def events (a : Feed) : List Event :=
  match _h : a.next schedule with
  | (none, _) => []
  | (some e, b) => e :: events b
termination_by a.stream.load
decreasing_by exact load_next schedule (by assumption)

theorem events_of_none {a b : Feed} (h : a.next schedule = (none, b)) : a.events schedule = [] := by
  rw [events, h]

theorem events_of_some {a b : Feed} {e : Event} (h : a.next schedule = (some e, b)) :
    a.events schedule = e :: b.events schedule := by
  rw [events, h]

section Course

variable {schedule} {r₀ : Resources} {s₀ : Stream} {given : List Event} {a b : Feed}

theorem course_next_some {e : Event}
    (h : Stream.Course schedule.Cancels r₀ s₀ a.resources a.stream none given)
    (hnext : a.next schedule = (some e, b)) :
    Stream.Course schedule.Cancels r₀ s₀ b.resources b.stream none (given ++ [e]) := by
  let t := a.stream.play a.resources (schedule a.moment)
  have hplay : Stream.Course schedule.Cancels r₀ s₀ t.1 t.2 none given :=
    h.play fun hm => ⟨a.moment, hm⟩
  unfold next at hnext
  dsimp only at hnext
  split at hnext
  next => cases hnext
  next e' he =>
    obtain ⟨hsome, rfl⟩ := Prod.mk.inj hnext
    obtain rfl := Option.some.inj hsome
    exact ((hplay.received he).play fun hm => ⟨_, hm⟩).release

theorem course_next_none
    (h : Stream.Course schedule.Cancels r₀ s₀ a.resources a.stream none given)
    (hnext : a.next schedule = (none, b)) :
    Stream.Course schedule.Cancels r₀ s₀ b.resources b.stream none given ∧
      b.stream.phase = .ended ∧ b.stream.waiting = [] := by
  let t := a.stream.play a.resources (schedule a.moment)
  have hplay : Stream.Course schedule.Cancels r₀ s₀ t.1 t.2 none given :=
    h.play fun hm => ⟨a.moment, hm⟩
  unfold next at hnext
  dsimp only at hnext
  split at hnext
  next he =>
    obtain ⟨-, rfl⟩ := Prod.mk.inj hnext
    exact hplay.finished he
  next => cases hnext

theorem course_events
    (h : Stream.Course schedule.Cancels r₀ s₀ a.resources a.stream none given) :
    ∃ r s, Stream.Course schedule.Cancels r₀ s₀ r s none (given ++ a.events schedule) ∧
      s.phase = .ended ∧ s.waiting = [] := by
  fun_induction Feed.events schedule a generalizing given with
  | case1 a b hnext =>
    obtain ⟨hcourse, hended⟩ := course_next_none h hnext
    exact ⟨b.resources, b.stream, by rwa [List.append_nil], hended⟩
  | case2 a e b hnext ih =>
    obtain ⟨r, s, hcourse, hended⟩ := ih (course_next_some h hnext)
    exact ⟨r, s, by rwa [List.append_cons], hended⟩

end Course

theorem events_start (hschedule : ¬ schedule.Cancels) {r : Resources} (hblank : r.pool.Blank)
    (filter : Filter) (time : Timestamp) (actions : List Action) (m : Moment) :
    events schedule ⟨r, .start filter time actions false, m⟩ =
      filter.numbered time r.nextId actions := by
  have hstart : Stream.Course schedule.Cancels r (.start filter time actions false) r
    (.start filter time actions false) none [] := .start
  obtain ⟨r', s, hcourse, hended, hwaiting⟩ :=
    course_events (a := ⟨r, .start filter time actions false, m⟩) hstart
  obtain ⟨taken, kept, -, hgiven, -, -, -, hwhole⟩ := hcourse.taken hblank
  obtain ⟨rfl, rfl⟩ := hwhole hended (hcourse.cancelled_eq hschedule)
  simpa [hwaiting] using hgiven

end Feed

namespace Publish

variable {σ : Type} {publish : Publish σ} {m : Message} {messages : List Message} {p q : σ}

theorem all_dropLast_cons_iff (h : publish p m = (.ok (), q)) :
    (publish.all (m :: messages).dropLast p).1 = .ok () ↔
      (publish.all messages.dropLast q).1 = .ok () := by
  cases messages with
  | nil => exact iff_of_true rfl rfl
  | cons m' messages => rw [List.dropLast_cons_cons, all, h]

theorem eq_nil_of_all_dropLast {error : PublishError} (h : publish p m = (.error error, q))
    (hlast : (publish.all (m :: messages).dropLast p).1 = .ok ()) : messages = [] := by
  cases messages with
  | nil => rfl
  | cons m' messages =>
    rw [List.dropLast_cons_cons, all, h] at hlast
    cases hlast

end Publish

namespace Relay

variable {σ : Type} {schedule : Schedule} {publish : Publish σ} {router : Router}

def feed (x : Relay σ) : Feed := ⟨x.resources, x.stream, x.moment⟩

def fed (publisher : σ) (published : Nat) (a : Feed) : Relay σ :=
  ⟨a.resources, a.stream, publisher, published, a.moment⟩

theorem round_eq (x : Relay σ) : x.round schedule publish router =
    match x.feed.next schedule with
    | (none, a) => .finished (fed x.publisher x.published a)
    | (some e, a) =>
      match publish x.publisher (router.message e) with
      | (.error error, p) => .failed error (fed p x.published a)
      | (.ok (), p) => .published (fed p (x.published + 1) a) := by
  let t := x.stream.play x.resources (schedule x.moment)
  cases he : (t.2.receive t.1).event? with
  | none => simp only [round, play, Feed.next, feed, he, t, fed]
  | some e =>
    simp only [round, play, Feed.next, feed, he, t, publishEvent, fed]
    cases publish x.publisher (router.message e) with
    | mk result p => cases result <;> rfl

theorem round_finished {x y : Relay σ} (h : x.round schedule publish router = .finished y) :
    ∃ a, x.feed.next schedule = (none, a) ∧ y = fed x.publisher x.published a := by
  rw [round_eq] at h
  split at h
  next a hnext =>
    cases h
    exact ⟨a, hnext, rfl⟩
  next => split at h <;> cases h

theorem round_failed {x y : Relay σ} {error : PublishError}
    (h : x.round schedule publish router = .failed error y) :
    ∃ e a p, x.feed.next schedule = (some e, a) ∧
      publish x.publisher (router.message e) = (.error error, p) ∧ y = fed p x.published a := by
  rw [round_eq] at h
  split at h
  next => cases h
  next e a hnext =>
    split at h
    next error' p hp =>
      cases h
      exact ⟨e, a, p, hnext, hp, rfl⟩
    next => cases h

theorem round_published {x y : Relay σ} (h : x.round schedule publish router = .published y) :
    ∃ e a p, x.feed.next schedule = (some e, a) ∧
      publish x.publisher (router.message e) = (.ok (), p) ∧ y = fed p (x.published + 1) a := by
  rw [round_eq] at h
  split at h
  next => cases h
  next e a hnext =>
    split at h
    next => cases h
    next p hp =>
      cases h
      exact ⟨e, a, p, hnext, hp, rfl⟩

/-- The events that a relay hands over, all of them or up to the first that is refused. It gives all
of these back. -/
structure Hands (publish : Publish σ) (router : Router) (events : List Event) (x y : Tally σ)
    (result : Except PublishError Unit) (given : List Event) : Prop where
  gives : given <+: events
  handed : publish.all (given.map router.message) x.publisher = (result, y.publisher)
  last : (publish.all (given.map router.message).dropLast x.publisher).1 = .ok ()
  whole : result = .ok () → given = events ∧ y.published = x.published + given.length
  refused : result ≠ .ok () → y.published + 1 = x.published + given.length
  released : y.pool = given.foldl Pool.release x.pool

theorem all_hands (publish : Publish σ) (router : Router) (events : List Event) (x : Tally σ) :
    ∃ given, Hands publish router events x (all publish router events x).2
      (all publish router events x).1 given := by
  induction events generalizing x with
  | nil =>
    exact ⟨[], List.nil_prefix, rfl, rfl, fun _ => ⟨rfl, rfl⟩, fun hne => absurd rfl hne, rfl⟩
  | cons e events ih =>
    rcases hp : publish x.publisher (router.message e) with ⟨(error | ok), p⟩
    · simp only [all, hp]
      refine ⟨[e], (List.prefix_cons_inj e).2 List.nil_prefix, ?_, rfl, (fun hok => by cases hok),
        fun _ => rfl, rfl⟩
      rw [List.map_singleton, Publish.all, hp]
    · simp only [all, hp]
      obtain ⟨given, hgives, hhanded, hlast, hwhole, hrefused, hreleased⟩ :=
        ih ⟨x.pool.release e, p, x.published + 1⟩
      refine ⟨e :: given, (List.prefix_cons_inj e).2 hgives, ?_, ?_, fun hok => ?_, fun hne => ?_,
        hreleased⟩
      · rw [List.map_cons, Publish.all, hp]
        exact hhanded
      · exact (Publish.all_dropLast_cons_iff hp).2 hlast
      · obtain ⟨rfl, hcount⟩ := hwhole hok
        refine ⟨rfl, ?_⟩
        rw [hcount, List.length_cons]
        exact Nat.add_right_comm ..
      · rw [hrefused hne, List.length_cons]
        exact Nat.add_right_comm ..

theorem Hands.accepted {events given : List Event} {x y : Tally σ}
    {result : Except PublishError Unit} (h : Hands publish router events x y result given) :
    (publish.all ((events.take (y.published - x.published)).map router.message)
      x.publisher).1 = .ok () := by
  obtain ⟨rest, rfl⟩ := h.gives
  cases result with
  | ok =>
    rw [(h.whole rfl).2, Nat.add_sub_cancel_left, List.take_left, h.handed]
  | error error =>
    have hcount := h.refused fun hok => by cases hok
    have hone : y.published - x.published = given.length - 1 := by omega
    rw [hone, List.take_append_of_le_length (Nat.sub_le ..), ← List.dropLast_eq_take,
      List.map_dropLast]
    exact h.last

theorem available_foldl_release (given : List Event) (p : Pool) :
    (given.foldl Pool.release p).available = p.available + given.length := by
  induction given generalizing p with
  | nil => rfl
  | cons e given ih =>
    rw [List.foldl_cons, ih, List.length_cons]
    exact Nat.add_right_comm ..

/-- An event that was refused is given back too, but not those behind it. -/
theorem available_all (publish : Publish σ) (router : Router) (events : List Event)
    (x : Tally σ) :
    let y := all publish router events x
    (y.1 = .ok () → y.2.pool.available = x.pool.available + events.length) ∧
      (y.1 ≠ .ok () →
        y.2.pool.available + x.published = x.pool.available + y.2.published + 1) := by
  intro y
  obtain ⟨given, h⟩ := all_hands publish router events x
  have havailable : y.2.pool.available = x.pool.available + given.length := by
    rw [h.released, available_foldl_release]
  refine ⟨fun hok => ?_, fun hne => ?_⟩
  · rw [havailable, (h.whole hok).1]
  · have hrefused : y.2.published + 1 = x.published + given.length := h.refused hne
    omega

theorem run_eq_all (x : Relay σ) (pool : Pool) : ∃ pool',
    all publish router (x.feed.events schedule) ⟨pool, x.publisher, x.published⟩ =
      ((x.run schedule publish router).1, ⟨pool', (x.run schedule publish router).2.publisher,
        (x.run schedule publish router).2.published⟩) := by
  fun_induction Relay.run schedule publish router x generalizing pool with
  | case1 x y hy =>
    obtain ⟨a, hnext, rfl⟩ := round_finished hy
    rw [Feed.events_of_none _ hnext]
    exact ⟨pool, rfl⟩
  | case2 x error y hy =>
    obtain ⟨e, a, p, hnext, hp, rfl⟩ := round_failed hy
    rw [Feed.events_of_some _ hnext]
    exact ⟨pool.release e, by simp only [all, hp, fed]⟩
  | case3 x y hy ih =>
    obtain ⟨e, a, p, hnext, hp, rfl⟩ := round_published hy
    obtain ⟨pool', hall⟩ := ih (pool.release e)
    refine ⟨pool', ?_⟩
    rw [Feed.events_of_some _ hnext, ← hall]
    simp only [all, hp]
    rfl

end Relay

namespace LineWriter

variable (faults : DeviceFaults)

theorem all_leaves {messages : List Message} (hlines : ∀ m ∈ messages, '\n' ∉ m.line)
    {w w' : LineWriter} {result : Except PublishError Unit}
    (hall : Publish.all (publish faults) messages w = (result, w'))
    (hlast : (Publish.all (publish faults) messages.dropLast w).1 = .ok ()) :
    ∃ left k, Leaves faults w w' result left ∧ left <+: messages.flatMap Message.wholeLine ∧
      Lines.complete left = (messages.take k).map Message.line ∧
      k ≤ messages.length ∧ messages.length ≤ k + 1 ∧
      (result = .ok () → left = messages.flatMap Message.wholeLine ∧ k = messages.length) := by
  induction messages generalizing w with
  | nil =>
    obtain ⟨rfl, rfl⟩ := Prod.mk.inj hall
    exact ⟨[], 0, leaves_refl faults w, List.nil_prefix, Lines.complete_of_notMem List.not_mem_nil,
      Nat.le_refl _, Nat.zero_le _, fun _ => ⟨rfl, rfl⟩⟩
  | cons m messages ih =>
    obtain ⟨hm, hlines⟩ := List.forall_mem_cons.1 hlines
    rw [Publish.all] at hall
    rcases hpublish : publish faults w m with ⟨(error | ok), w₁⟩
    · -- Nothing is handed over after a failure, so this message is the last.
      rw [hpublish] at hall
      obtain ⟨rfl, rfl⟩ := Prod.mk.inj hall
      obtain rfl := Publish.eq_nil_of_all_dropLast hpublish hlast
      have hone : [m].flatMap Message.wholeLine = m.wholeLine := List.flatMap_singleton ..
      have hleft := publish_leaves faults w m
      rw [hpublish] at hleft
      rcases hleft with hleaves | ⟨herror, left, hinit, hleaves⟩
      · refine ⟨m.wholeLine, 1, hleaves, hone ▸ List.prefix_rfl, ?_, Nat.le_refl _, Nat.le_succ _,
          fun hok => by cases hok⟩
        rw [Message.wholeLine, Lines.complete_line hm]
        rfl
      · obtain rfl := Except.error.inj herror
        refine ⟨left, 0, hleaves, ?_, ?_, Nat.zero_le _, Nat.le_refl _,
          fun hok => by cases hok⟩
        · rw [hone]
          exact hinit.trans (List.prefix_append ..)
        · exact Lines.complete_of_notMem fun hmem => hm (hinit.subset hmem)
    · rw [hpublish] at hall
      have hfirst := publish_of_ok faults (congrArg Prod.fst hpublish)
      rw [hpublish] at hfirst
      have hlast' := (Publish.all_dropLast_cons_iff hpublish).1 hlast
      obtain ⟨left, k, hleaves, hinit, hcomplete, hle, hge, hwhole⟩ := ih hlines hall hlast'
      refine ⟨m.wholeLine ++ left, k + 1, hfirst.trans hleaves, ?_, ?_, Nat.succ_le_succ hle,
        Nat.succ_le_succ hge, fun hok => ?_⟩
      · rw [List.flatMap_cons]
        exact (List.prefix_append_right_inj _).2 hinit
      · rw [Message.wholeLine, List.append_assoc, List.singleton_append, Lines.complete_line hm,
          hcomplete]
        rfl
      · obtain ⟨rfl, rfl⟩ := hwhole hok
        exact ⟨rfl, rfl⟩

end LineWriter

namespace Relay

theorem all_leaves (faults : DeviceFaults) {router : Router} {events : List Event}
    (hlines : ∀ e ∈ events, '\n' ∉ (router.message e).line) (x : Tally LineWriter) :
    let y := all (LineWriter.publish faults) router events x
    ∃ given text k, Hands (LineWriter.publish faults) router events x y.2 y.1 given ∧
      LineWriter.Leaves faults x.publisher y.2.publisher y.1 text ∧
      text <+: given.flatMap (fun e => (router.message e).wholeLine) ∧
      Lines.complete text = ((given.take k).map router.message).map Message.line ∧
      k ≤ given.length ∧ given.length ≤ k + 1 ∧
      (y.1 = .ok () → text = given.flatMap (fun e => (router.message e).wholeLine) ∧
        k = given.length) := by
  intro y
  obtain ⟨given, hhands⟩ := all_hands (LineWriter.publish faults) router events x
  have hgiven : ∀ m ∈ given.map router.message, '\n' ∉ m.line := by
    intro m hm
    obtain ⟨e, he, rfl⟩ := List.mem_map.1 hm
    exact hlines e (hhands.gives.subset he)
  obtain ⟨text, k, hleaves, hinit, hcomplete, hle, hge, hall⟩ :=
    LineWriter.all_leaves faults hgiven hhands.handed hhands.last
  rw [List.flatMap_map] at hinit hall
  rw [List.length_map] at hle hge hall
  rw [← List.map_take] at hcomplete
  exact ⟨given, text, k, hhands, hleaves, hinit, hcomplete, hle, hge, hall⟩

structure Written (faults : DeviceFaults) (router : Router) (events : List Event)
    (w : LineWriter) (result : Except PublishError Unit) (y : Tally LineWriter)
    (text : List Char) : Prop where
  written : y.publisher.written.toList = w.written.toList ++ text
  lines : text <+: events.flatMap fun e => (router.message e).wholeLine
  cut : (Lines.complete text).map Lines.cut <+:
    events.map fun e => ((router.topicFor e).toList, e.payload.toList)
  accepted : (Publish.all (LineWriter.publish faults)
    ((events.take y.published).map router.message) w).1 = .ok ()
  counted : y.published ≤ (Lines.complete text).length ∧
    (Lines.complete text).length ≤ y.published + 1
  spared : result = .ok () ∧ y.published = (Lines.complete text).length ↔
    faults.Spares w y.publisher
  whole : result = .ok () → text = events.flatMap fun e => (router.message e).wholeLine

/-- It does not matter who feeds the receiver. -/
theorem all_lines (faults : DeviceFaults) (router : Router) {events : List Event}
    (htopics : ∀ e ∈ events,
      '\t' ∉ (router.topicFor e).toList ∧ '\n' ∉ (router.topicFor e).toList)
    (pool : Pool) (w : LineWriter) :
    let y := all (LineWriter.publish faults) router events ⟨pool, w, 0⟩
    ∃ text, Written faults router events w y.1 y.2 text := by
  intro y
  have hlines : ∀ e ∈ events, '\n' ∉ (router.message e).line :=
    fun e he => Message.newline_notMem_line (htopics e he).2 e
  obtain ⟨given, text, k, hhands, hleaves, hinit, hcomplete, hle, hge, hall⟩ :=
    all_leaves faults hlines ⟨pool, w, 0⟩
  have hgives : given <+: events := hhands.gives
  have hlength : (Lines.complete text).length = k := by
    rw [hcomplete, List.length_map, List.length_map, List.length_take_of_le hle]
  have hcut : (Lines.complete text).map Lines.cut =
      (given.take k).map fun e => ((router.topicFor e).toList, e.payload.toList) := by
    rw [hcomplete, Lines.map_cut_line, List.map_map]
    · rfl
    · intro m hm
      obtain ⟨e, he, rfl⟩ := List.mem_map.1 hm
      exact (htopics e (hgives.subset (List.mem_of_mem_take he))).1
  have hpublished : y.1 = .ok () → y.2.published = k := fun hok => by
    rw [(hhands.whole hok).2, (hall hok).2]
    exact Nat.zero_add _
  refine ⟨text, hleaves.written, ?_, ?_, hhands.accepted, ?_, ?_, ?_⟩
  · obtain ⟨rest, hrest⟩ := hgives
    rw [← hrest, List.flatMap_append]
    exact hinit.trans (List.prefix_append ..)
  · rw [hcut]
    exact ((List.take_prefix k given).trans hgives).map _
  · rw [hlength]
    by_cases hok : y.1 = .ok ()
    · rw [hpublished hok]
      exact ⟨Nat.le_refl _, Nat.le_succ _⟩
    · have hrefused : y.2.published + 1 = 0 + given.length := hhands.refused hok
      omega
  · have hok_iff : y.1 = .ok () ↔ faults.Spares w y.2.publisher := hleaves.ok_iff
    rw [hlength, ← hok_iff]
    exact ⟨And.left, fun hok => ⟨hok, hpublished hok⟩⟩
  · intro hok
    rw [(hall hok).1, (hhands.whole hok).1]

/-- Whichever calls to the device fail, the output is the lines of the first events, of the last
perhaps a part, and the lines in it with an end are the topics and the payloads of these events. -/
theorem run_lines (schedule : Schedule) (faults : DeviceFaults) (router : Router) (r : Resources)
    (s : Stream) (moment : Moment) (w : LineWriter)
    (htopics : ∀ e ∈ Feed.events schedule ⟨r, s, moment⟩,
      '\t' ∉ (router.topicFor e).toList ∧ '\n' ∉ (router.topicFor e).toList) :
    let y := (start r s w moment).run schedule (LineWriter.publish faults) router
    let events := Feed.events schedule ⟨r, s, moment⟩
    ∃ text, y.2.publisher.written.toList = w.written.toList ++ text ∧
      text <+: events.flatMap (fun e => (router.message e).wholeLine) ∧
      (Lines.complete text).map Lines.cut <+:
        events.map (fun e => ((router.topicFor e).toList, e.payload.toList)) ∧
      (∀ e ∈ events, ∀ b ∈ e.payload.toUTF8.data, 0x20 ≤ b) ∧
      (Publish.all (LineWriter.publish faults)
        ((events.take y.2.published).map router.message) w).1 = .ok () ∧
      (y.2.published ≤ (Lines.complete text).length ∧
        (Lines.complete text).length ≤ y.2.published + 1) ∧
      (y.1 = .ok () ∧ y.2.published = (Lines.complete text).length ↔
        faults.Spares w y.2.publisher) ∧
      (y.1 = .ok () → text = events.flatMap fun e => (router.message e).wholeLine) := by
  intro y events
  obtain ⟨pool, hall⟩ : ∃ pool, all (LineWriter.publish faults) router events ⟨.empty, w, 0⟩ =
      (y.1, ⟨pool, y.2.publisher, y.2.published⟩) := run_eq_all (start r s w moment) .empty
  obtain ⟨text, h⟩ := all_lines faults router htopics .empty w
  rw [hall] at h
  exact ⟨text, h.written, h.lines, h.cut, fun e _ => e.noControls_payload.le_of_mem_toUTF8,
    h.accepted, h.counted, h.spared, h.whole⟩

/-- Of two events, the tab of the second cannot be written. -/
theorem run_lines_torn :
    let s := Stream.start (.ofSections [("users", ["insert"])] []) .epoch
      (.replicate 2 Replay.smallInsert) false
    let router : Router := ⟨"wal", "", []⟩
    let events := Feed.events .lazy ⟨⟨.empty, .silent, 0⟩, s, .start⟩
    let y := (start ⟨.empty, .silent, 0⟩ s .new .start).run .lazy
      (LineWriter.publish (.atWrite 5)) router
    (∀ e ∈ events, '\t' ∉ (router.topicFor e).toList ∧ '\n' ∉ (router.topicFor e).toList) ∧
      ∃ text, y.2.publisher.written.toList = text ∧
        text <+: events.flatMap (fun e => (router.message e).wholeLine) ∧
        (Lines.complete text).map Lines.cut <+:
          events.map (fun e => ((router.topicFor e).toList, e.payload.toList)) ∧
        y.2.published ≤ (Lines.complete text).length ∧
        (y.1 = .ok () ∧ y.2.published = (Lines.complete text).length ↔
          (DeviceFaults.atWrite 5).Spares .new y.2.publisher) := by
  intro s router events y
  have hevents : events = (Filter.ofSections [("users", ["insert"])] []).numbered .epoch 0
      (.replicate 2 Replay.smallInsert) :=
    Feed.events_start .lazy Schedule.not_cancels_lazy (Pool.blank_withCapacity 0) ..
  have htopics : ∀ e ∈ events,
      '\t' ∉ (router.topicFor e).toList ∧ '\n' ∉ (router.topicFor e).toList := by
    rw [hevents]
    decide +kernel
  obtain ⟨text, hwritten, hinit, hcut, -, -, hcount, hok, -⟩ :=
    run_lines .lazy (.atWrite 5) router ⟨.empty, .silent, 0⟩ s .start .new htopics
  exact ⟨htopics, text, hwritten, hinit, hcut, hcount.1, hok⟩

end Relay
end Changefeed
