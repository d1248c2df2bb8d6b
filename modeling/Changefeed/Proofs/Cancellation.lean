import Changefeed.Proofs.Conservation

/-!
# A pass that is cancelled

From the moment at which a pass is cancelled it does one thing at most: it gives the event that it
has in hand back to the pool and ends. So the receiver gets what is in the channel already and
nothing else, and what it has got in the end is a first part of what an undisturbed pass delivers.
-/

namespace Changefeed

namespace Stream

theorem Step.of_cancelled {r r' : Resources} {s s' : Stream} (h : Step r s r' s')
    (hc : s.cancelled = true) : s' = { s with phase := .ended } ∧
      r' = { r with pool := r.pool.useAll (s.inHand.map .release) } := by
  cases h with
  | exhaust hp hn => simp [inHand, hp, Pool.useAll]
  | halt hp hn hc => simp [inHand, hp, Pool.useAll]
  | hold hp hn hrunning hf => simp [hc] at hrunning
  | skip hp hn hrunning hf => simp [hc] at hrunning
  | withdraw hp hc => simp [inHand, hp, Pool.useAll, Pool.use, Resources.release]
  | send hp hrunning hfree => simp [hc] at hrunning
  | desert hp hrunning hclosed => simp [hc] at hrunning

theorem made_of_cancelled {s : Stream} (hc : s.cancelled = true) (r : Resources) :
    s.made r = [] := by
  cases hp : s.phase <;> simp [made, next?, hp, hc]

end Stream

namespace Delivery

def Move.use? : Move → Option Pool.Use
  | .use u => some u
  | .turn _ => none

/-- What has happened between `x` and `y` to a pass that was cancelled before, while others have
done `uses` to the pool. -/
structure Halted (x y : Resources × Delivery) (uses : List Pool.Use) : Prop where
  cancelled : y.2.stream.cancelled = true
  pending : y.2.stream.pending = x.2.stream.pending
  judged : y.2.judged = x.2.judged
  events : y.2.received ++ y.2.destroyed ++ y.2.stream.waiting =
    x.2.received ++ x.2.destroyed ++ x.2.stream.waiting
  received : ∃ more, more <+: x.2.stream.waiting ∧ y.2.received = x.2.received ++ more
  resources : ∃ early late returned, uses = early ++ late ∧
    returned ++ y.2.stream.inHand = x.2.stream.inHand ∧
    y.1 = { x.1 with pool := x.1.pool.useAll (early ++ returned.map .release ++ late) }

theorem halted_refl {x : Resources × Delivery} (hc : x.2.stream.cancelled = true) :
    Halted x x [] :=
  ⟨hc, rfl, rfl, rfl, ⟨[], List.nil_prefix, by simp⟩, ⟨[], [], [], rfl, rfl, rfl⟩⟩

section Halted

variable {r r' : Resources} {d : Delivery} {s : Stream} {y : Resources × Delivery}
  {uses : List Pool.Use}

theorem Halted.use {u : Pool.Use} (h : Halted ({ r with pool := r.pool.use u }, d) y uses) :
    Halted (r, d) y (u :: uses) := by
  obtain ⟨early, late, returned, rfl, hhand, hy⟩ := h.resources
  exact { h with resources := ⟨u :: early, late, returned, rfl, hhand, hy⟩ }

theorem Halted.step (h : Halted (r', d.record (d.stream.made r) s) y uses)
    (hs : Stream.Step r d.stream r' s) (hc : d.stream.cancelled = true) : Halted (r, d) y uses := by
  obtain ⟨rfl, rfl⟩ := hs.of_cancelled hc
  obtain ⟨early, late, returned, rfl, hhand, hy⟩ := h.resources
  obtain ⟨rfl, hnothing⟩ := List.append_eq_nil_iff.1 hhand
  exact {
    cancelled := h.cancelled
    pending := h.pending
    judged := by simpa [record, Stream.made_of_cancelled hc] using h.judged
    events := h.events
    received := h.received
    resources := by
      refine ⟨[], early ++ late, d.stream.inHand, rfl, by rw [hnothing, List.append_nil], ?_⟩
      simpa [Pool.useAll] using hy }

theorem Halted.receive (h : Halted (r, d.receive) y uses) (hd : d.Coherent) :
    Halted (r, d) y uses := by
  unfold Delivery.receive at h
  split at h
  next e s hp =>
    have hwaiting := Stream.waiting_of_poll? hp
    obtain ⟨hfull, rfl⟩ := Stream.poll?_eq_some_iff.1 hp
    have hdestroyed := hd.destroyed_eq_nil (by simp [hfull])
    obtain ⟨more, hmore, hreceived⟩ := h.received
    obtain rfl : more = [] := by simpa [Stream.waiting] using hmore
    refine { h with events := ?_, received := ⟨[e], by simp [hwaiting], by simpa using hreceived⟩ }
    rw [h.events]
    simp [Stream.waiting, hfull, hdestroyed]
  next => exact h

theorem Halted.drop (h : Halted (r, d.drop) y uses) : Halted (r, d) y uses := by
  obtain ⟨more, hmore, hreceived⟩ := h.received
  obtain rfl : more = [] := by simpa [Delivery.drop, Stream.close, Stream.waiting] using hmore
  refine { h with events := ?_, received := ⟨[], List.nil_prefix, hreceived⟩ }
  rw [h.events]
  simp [Delivery.drop, Stream.close, Stream.waiting]

end Halted

theorem cancelled_move {x : Resources × Delivery} (hc : x.2.stream.cancelled = true) (m : Move) :
    (move x m).2.stream.cancelled = true := by
  cases m with
  | use u => exact hc
  | turn t =>
    cases t with
    | step =>
      simp only [move, act]
      split
      next r' s hs =>
        exact (Stream.Step.of_step? hs).cancelled_eq.trans hc
      next => exact hc
    | receive =>
      simp only [move, act, receive]
      split
      next e s hp =>
        obtain ⟨-, rfl⟩ := Stream.poll?_eq_some_iff.1 hp
        exact hc
      next => exact hc
    | cancel => rfl
    | drop => exact hc

theorem coherent_move {x : Resources × Delivery} (hd : x.2.Coherent) (m : Move) :
    (move x m).2.Coherent := by
  cases m with
  | use u => exact hd
  | turn t => exact act_coherent hd x.1 t

theorem Halted.move {x y : Resources × Delivery} {m : Move} {uses : List Pool.Use}
    (hd : x.2.Coherent) (hc : x.2.stream.cancelled = true) (h : Halted (move x m) y uses) :
    Halted x y (m.use?.toList ++ uses) := by
  cases m with
  | use u => exact h.use
  | turn t =>
    cases t with
    | step =>
      simp only [Delivery.move, act] at h
      split at h
      next r' s hs => exact h.step (.of_step? hs) hc
      next => exact h
    | receive => exact h.receive hd
    | cancel => exact { h with }
    | drop => exact h.drop

theorem halted_run {x : Resources × Delivery} (hd : x.2.Coherent)
    (hc : x.2.stream.cancelled = true) (moves : List Move) :
    Halted x (run x moves) (moves.filterMap Move.use?) := by
  induction moves generalizing x with
  | nil => exact halted_refl hc
  | cons m moves ih =>
    have hrest := ih (coherent_move hd m) (cancelled_move hc m)
    have hmove := hrest.move hd hc
    cases m <;> exact hmove

theorem ended_run {x : Resources × Delivery} (hc : x.2.stream.cancelled = true)
    (moves : List Move) (h : x.2.stream.phase = .ended ∨ .turn .step ∈ moves) :
    (run x moves).2.stream.phase = .ended := by
  induction moves generalizing x with
  | nil => exact h.resolve_right nofun
  | cons m moves ih =>
    refine ih (cancelled_move hc m) ?_
    cases m with
    | use u => exact h.imp id fun hm => by simpa using hm
    | turn t =>
      cases t with
      | step =>
        left
        simp only [move, act]
        split
        next r' s hs => simp [record, ((Stream.Step.of_step? hs).of_cancelled hc).1]
        next hs =>
          rcases Stream.eq_of_step?_eq_none hs with hp | ⟨e, waits, hp, hrunning, -⟩
          · exact hp
          · simp [hc] at hrunning
      | receive =>
        refine h.imp (fun hp => ?_) fun hm => by simpa using hm
        simp only [move, act, receive]
        split
        next e s hq =>
          obtain ⟨-, rfl⟩ := Stream.poll?_eq_some_iff.1 hq
          exact hp
        next => exact hp
      | cancel => exact h.imp id fun hm => by simpa using hm
      | drop => exact h.imp id fun hm => by simpa using hm

def Undisturbed (moves : List Move) : Prop := .turn .cancel ∉ moves ∧ .turn .drop ∉ moves

theorem undisturbed_run {x : Resources × Delivery} {moves : List Move} (hm : Undisturbed moves)
    (ho : x.2.stream.channel ≠ .closed) :
    (run x moves).2.stream.cancelled = x.2.stream.cancelled ∧
      (run x moves).2.stream.channel ≠ .closed := by
  induction moves generalizing x with
  | nil => exact ⟨rfl, ho⟩
  | cons m moves ih =>
    obtain ⟨hcancel, hdrop⟩ := hm
    rw [List.mem_cons, not_or] at hcancel hdrop
    obtain ⟨hm₁, hcancel⟩ := hcancel
    obtain ⟨hm₂, hdrop⟩ := hdrop
    suffices hmove : (move x m).2.stream.cancelled = x.2.stream.cancelled ∧
        (move x m).2.stream.channel ≠ .closed by
      obtain ⟨hc, ho⟩ := ih ⟨hcancel, hdrop⟩ hmove.2
      exact ⟨hc.trans hmove.1, ho⟩
    cases m with
    | use u => exact ⟨rfl, ho⟩
    | turn t =>
      cases t with
      | step =>
        simp only [move, act]
        split
        next r' s hs =>
          have hstep := Stream.Step.of_step? hs
          exact ⟨hstep.cancelled_eq, hstep.open ho⟩
        next => exact ⟨rfl, ho⟩
      | receive =>
        simp only [move, act, receive]
        split
        next e s hp =>
          obtain ⟨-, rfl⟩ := Stream.poll?_eq_some_iff.1 hp
          exact ⟨rfl, by simp⟩
        next => exact ⟨rfl, ho⟩
      | cancel => exact absurd rfl hm₁
      | drop => exact absurd rfl hm₂

theorem delivered_run {r : Resources} (hblank : r.pool.Blank) (filter : Filter) (time : Timestamp)
    (actions : List Action) {moves : List Move} (hm : Undisturbed moves)
    (hend : (run (r, start (.start filter time actions false)) moves).2.AtEnd) :
    (run (r, start (.start filter time actions false)) moves).2.received.map Event.anonymous =
      filter.emitted time actions := by
  obtain ⟨hc, ho⟩ := undisturbed_run (x := (r, start (.start filter time actions false))) hm nofun
  obtain ⟨hd, taken, h⟩ := account_run hblank filter time actions false moves
  obtain ⟨rfl, hdestroyed, hwithdrawn⟩ := h.complete hd hend.1 hc ho
  have hevents := h.events
  simpa [events, hdestroyed, hwithdrawn, Stream.waiting, hend.2, Stream.inHand, hend.1]
    using hevents

theorem exists_atEnd {x : Resources × Delivery} (ho : x.2.stream.channel ≠ .closed) :
    ∃ moves, Undisturbed moves ∧ (run x moves).2.AtEnd := by
  -- With every step there is less to do, and with every receive one event less in the channel.
  induction h : 2 * x.2.stream.stepsLeft + x.2.stream.waiting.length using Nat.strongRecOn
    generalizing x with
  | ind n ih =>
    subst h
    suffices hmove : x.2.AtEnd ∨ ∃ m, (m = .turn .step ∨ m = .turn .receive) ∧
        (move x m).2.stream.channel ≠ .closed ∧
        2 * (move x m).2.stream.stepsLeft + (move x m).2.stream.waiting.length <
          2 * x.2.stream.stepsLeft + x.2.stream.waiting.length by
      rcases hmove with hend | ⟨m, hm, hopen, hless⟩
      · exact ⟨[], ⟨List.not_mem_nil, List.not_mem_nil⟩, hend⟩
      · obtain ⟨moves, ⟨hcancel, hdrop⟩, hend⟩ := ih _ hless hopen rfl
        refine ⟨m :: moves, ⟨?_, ?_⟩, hend⟩
        · rcases hm with rfl | rfl <;> simpa using hcancel
        · rcases hm with rfl | rfl <;> simpa using hdrop
    cases hs : x.2.stream.step? x.1 with
    | some t =>
      obtain ⟨r', s⟩ := t
      have hless := Stream.stepsLeft_step? hs
      have hwaiting := s.waiting_length_le
      have hmove : move x (.turn .step) = (r', x.2.record (x.2.stream.made x.1) s) := by
        simp [move, act, hs]
      refine .inr ⟨.turn .step, .inl rfl, ?_, ?_⟩
      · rw [hmove]
        exact (Stream.Step.of_step? hs).open ho
      · rw [hmove]
        simp only [record]
        omega
    | none =>
      cases hc : x.2.stream.channel with
      | closed => exact absurd hc ho
      | free =>
        rcases Stream.eq_of_step?_eq_none hs with hp | ⟨e, waits, hp, -, hfull⟩
        · exact .inl ⟨hp, hc⟩
        · simp [hc] at hfull
      | full e =>
        have hmove : (move x (.turn .receive)).2.stream = { x.2.stream with channel := .free } := by
          simp [move, act, receive, Stream.poll?, hc]
        refine .inr ⟨.turn .receive, .inr rfl, ?_, ?_⟩
        · rw [hmove]
          simp
        · rw [hmove]
          simp [Stream.waiting, Stream.stepsLeft, hc]

/-- After a cancellation the pass takes no event, notes nothing and puts nothing into the channel.
It gives back the event that it has in hand before a receiver can see the end, at its next step.
What is received in the end is a first part of what the pass delivers when nobody cancels it. -/
theorem run_cancelled (count : Nat) (uses : List Pool.Use) (monitor : Monitor) (nextId : Nat)
    (filter : Filter) (time : Timestamp) (actions : List Action) (cancelled : Bool)
    (before after : List Move) :
    let r : Resources := ⟨(Pool.withCapacity count).useAll uses, monitor, nextId⟩
    let x := run (r, start (.start filter time actions cancelled)) before
    let y := run x (.turn .cancel :: after)
    (∃ early late returned, after.filterMap Move.use? = early ++ late ∧
        returned ++ y.2.stream.inHand = x.2.stream.inHand ∧
        (y.2.stream.phase = .ended → returned = x.2.stream.inHand) ∧
        y.1 = { x.1 with pool := x.1.pool.useAll (early ++ returned.map .release ++ late) }) ∧
      y.2.judged = x.2.judged ∧ y.2.stream.pending = x.2.stream.pending ∧
      y.1.monitor = x.1.monitor ∧
      y.2.received ++ y.2.destroyed ++ y.2.stream.waiting =
        x.2.received ++ x.2.destroyed ++ x.2.stream.waiting ∧
      (∃ more, more <+: x.2.stream.waiting ∧ more.length ≤ 1 ∧
        y.2.received = x.2.received ++ more) ∧
      (.turn .step ∈ after → y.2.stream.phase = .ended) ∧
      y.2.received.map Event.anonymous <+: filter.emitted time actions ∧
      (∃ moves, Undisturbed moves ∧
        (run (r, start (.start filter time actions false)) moves).2.AtEnd) ∧
      ∀ moves, Undisturbed moves →
        let z := run (r, start (.start filter time actions false)) moves
        z.2.AtEnd → z.2.received.map Event.anonymous = filter.emitted time actions := by
  intro r x y
  have hblank : r.pool.Blank := (Pool.blank_withCapacity count).useAll uses
  obtain ⟨hd, -⟩ := account_run hblank filter time actions cancelled before
  have hhalted : Halted (x.1, x.2.cancel) y (after.filterMap Move.use?) :=
    halted_run (x := (x.1, x.2.cancel)) hd.cancel rfl after
  obtain ⟨early, late, returned, huses, hhand, hresources⟩ := hhalted.resources
  obtain ⟨more, hmore, hreceived⟩ := hhalted.received
  refine ⟨⟨early, late, returned, huses, hhand, fun hended => ?_, hresources⟩, hhalted.judged,
    hhalted.pending, by rw [hresources], hhalted.events, ⟨more, hmore, ?_, hreceived⟩, fun hm => ?_,
    ?_, exists_atEnd nofun, fun moves hm hend => delivered_run hblank filter time actions hm hend⟩
  · have hempty : y.2.stream.inHand = [] := by simp [Stream.inHand, hended]
    rw [hempty, List.append_nil] at hhand
    exact hhand
  · exact Nat.le_trans hmore.length_le x.2.cancel.stream.waiting_length_le
  · exact ended_run (x := (x.1, x.2.cancel)) rfl after (.inr hm)
  · have hy : y = run (r, start (.start filter time actions cancelled))
        (before ++ .turn .cancel :: after) := List.foldl_append.symm
    obtain ⟨-, taken, h⟩ := account_run hblank filter time actions cancelled
      (before ++ .turn .cancel :: after)
    rw [← hy] at h
    have hfirst : filter.emitted time taken <+: filter.emitted time actions := by
      rw [h.split, Filter.emitted_append]
      exact List.prefix_append _ _
    refine List.IsPrefix.trans ?_ hfirst
    rw [← h.events]
    simp [events]

end Delivery
end Changefeed
