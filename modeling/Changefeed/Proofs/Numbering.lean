import Changefeed.Proofs.Conservation

/-!
# The events of a pass with their identifiers

A pass numbers the events that it makes in the order of its actions, dropped events included. So a
relay that has its stream to itself knows each event to the last field: what it has received, what
waits for it and what the pass keeps back are the numbered events of the actions that were taken.
-/

namespace Changefeed

namespace Filter

variable (f : Filter) (time : Timestamp)

/-- The events of the actions that pass, when the first action has the number `n`. -/
def numbered : Nat → List Action → List Event
  | _, [] => []
  | n, a :: actions =>
    (if f.passes time a then [Event.blank.fill (.version4 n) a time] else []) ++
      numbered (n + 1) actions

theorem numbered_append (n : Nat) (as bs : List Action) :
    f.numbered time n (as ++ bs) = f.numbered time n as ++ f.numbered time (n + as.length) bs := by
  induction as generalizing n with
  | nil => rfl
  | cons a as ih =>
    rw [List.cons_append, numbered, numbered, ih, List.append_assoc, List.length_cons]
    congr 3
    omega

theorem numbered_singleton (n : Nat) (a : Action) : f.numbered time n [a] =
    if f.passes time a then [Event.blank.fill (.version4 n) a time] else [] := by
  simp [numbered]

theorem numbered_anonymous (n : Nat) (actions : List Action) :
    (f.numbered time n actions).map Event.anonymous = f.emitted time actions := by
  induction actions generalizing n with
  | nil => rfl
  | cons a actions ih =>
    have hcons : f.emitted time (a :: actions) = f.emitted time [a] ++ f.emitted time actions :=
      emitted_append f time [a] actions
    rw [numbered, List.map_append, ih, hcons, emitted_singleton]
    congr 1
    by_cases hpass : f.passes time a = true
    · rw [if_pos hpass, if_pos hpass]
      rfl
    · rw [if_neg hpass, if_neg hpass]
      rfl

theorem numbered_prefix {as bs : List Action} (h : as <+: bs) (n : Nat) :
    f.numbered time n as <+: f.numbered time n bs := by
  obtain ⟨cs, rfl⟩ := h
  rw [numbered_append]
  exact List.prefix_append _ _

theorem dropped_prefix {as bs : List Action} (h : as <+: bs) :
    f.dropped time as <+: f.dropped time bs := by
  obtain ⟨cs, rfl⟩ := h
  rw [dropped_append]
  exact List.prefix_append _ _

end Filter

namespace Delivery

structure Numbered (filter : Filter) (time : Timestamp) (n : Nat) (taken : List Action)
    (r : Resources) (d : Delivery) : Prop where
  next : r.nextId = n + taken.length
  events : d.events = filter.numbered time n taken

section Numbered

variable {filter : Filter} {time : Timestamp} {monitor : Monitor} {actions taken : List Action}
  {r r' : Resources} {d : Delivery} {s : Stream} {n : Nat}

theorem Numbered.record (h : Numbered filter time n taken r d)
    (hacc : Account filter time monitor actions taken r d) (hd : d.Coherent)
    (hs : Stream.Step r d.stream r' s) (made : List (Event × Verdict)) :
    ∃ taken', actions = taken' ++ s.pending ∧
      Numbered filter time n taken' r' (d.record made s) := by
  obtain ⟨hnext, hevents⟩ := h
  have hrecord := events_record hd hs made
  rcases hs.judges with ⟨hkept, hpending, hnext', -⟩ | ⟨a, hpending, hnext', hkept, -⟩
  · refine ⟨taken, by rw [hpending, hacc.split], by rw [hnext', hnext], ?_⟩
    rw [hrecord, hkept, List.append_nil, hevents]
  · refine ⟨taken ++ [a], ?_, ?_, ?_⟩
    · rw [hacc.split, hpending, List.append_assoc, List.singleton_append]
    · rw [hnext', hnext, List.length_append, List.length_singleton, Nat.add_assoc]
    · rw [hacc.time_eq, hacc.filter_eq, Resources.draw_event hacc.blank, hnext] at hkept
      rw [hrecord, hkept, hevents, Filter.numbered_append, Filter.numbered_singleton]
      rfl

end Numbered

theorem numbered_run {r : Resources} (hblank : r.pool.Blank) (filter : Filter) (time : Timestamp)
    (actions : List Action) (cancelled : Bool) (moves : List Move) :
    let x := run (r, start (.start filter time actions cancelled)) moves
    x.2.Coherent ∧ ∃ taken, Account filter time r.monitor actions taken x.1 x.2 ∧
      Numbered filter time r.nextId taken x.1 x.2 := by
  refine run_induction (P := fun x => x.2.Coherent ∧
    ∃ taken, Account filter time r.monitor actions taken x.1 x.2 ∧
      Numbered filter time r.nextId taken x.1 x.2) ?_ ?_ ?_ ?_ ?_ ?_ moves
  · intro r d r' s hrd hs
    obtain ⟨hd, taken, h, hn⟩ := hrd
    obtain ⟨taken₁, h₁⟩ := h.record hd hs (d.stream.made r)
    obtain ⟨taken₂, hsplit, h₂⟩ := hn.record h hd hs (d.stream.made r)
    -- What is pending says how many actions have been taken.
    obtain rfl : taken₁ = taken₂ := List.append_cancel_right (h₁.split.symm.trans hsplit)
    exact ⟨hd.record hs _, taken₁, h₁, h₂⟩
  · intro r d hrd
    obtain ⟨hd, taken, h, hn⟩ := hrd
    exact ⟨hd.receive, taken, h.receive hd, hn.next, (events_receive hd).trans hn.events⟩
  · intro r d hrd
    obtain ⟨hd, taken, h, hn⟩ := hrd
    exact ⟨hd.cancel, taken, { h with }, hn.next, hn.events⟩
  · intro r d hrd
    obtain ⟨hd, taken, h, hn⟩ := hrd
    exact ⟨hd.drop, taken, h.drop, hn.next, (events_drop d).trans hn.events⟩
  · intro r d u hrd
    obtain ⟨hd, taken, h, hn⟩ := hrd
    exact ⟨hd, taken, { h with blank := h.blank.use u }, hn.next, hn.events⟩
  · exact ⟨coherent_start filter time actions cancelled, [], account_start hblank cancelled, rfl,
      rfl⟩

end Delivery

namespace Stream

variable {mayCancel : Prop} {r₀ r : Resources} {s₀ s : Stream} {held : Option Event}
  {given : List Event}

/-- What a relay has received, what waits for it and what the pass keeps back are the events of the
actions that were taken; if nothing comes in between, these are all in the end. -/
theorem Course.taken {filter : Filter} {time : Timestamp} {actions : List Action} {cancelled : Bool}
    (h : Course mayCancel r₀ (.start filter time actions cancelled) r s held given)
    (hblank : r₀.pool.Blank) :
    ∃ taken kept, taken <+: actions ∧
      given ++ s.waiting ++ kept = filter.numbered time r₀.nextId taken ∧
      r.nextId = r₀.nextId + taken.length ∧ r.pool.Blank ∧
      r.monitor = r₀.monitor.noteAll (filter.dropped time taken) ∧
      (s.phase = .ended → s.cancelled = false → taken = actions ∧ kept = []) := by
  let d₀ : Delivery := .start (.start filter time actions cancelled)
  have hopen : s.channel ≠ .closed := h.open nofun
  obtain ⟨moves, d, hrun, rfl, hreceived, hdestroyed⟩ :=
    Course.delivery (show Course _ _ d₀.stream .. from h)
  obtain ⟨hd, taken, haccount, hnext, hevents⟩ :=
    Delivery.numbered_run hblank filter time actions cancelled moves
  rw [hrun] at hd haccount hnext hevents
  dsimp only at hd haccount hnext hevents
  refine ⟨taken, d.withdrawn ++ d.stream.inHand, ⟨d.stream.pending, haccount.split.symm⟩, ?_, hnext,
    haccount.blank, haccount.noted, fun hended hc => ?_⟩
  · have hgiven : d.received = given := by simpa [d₀, Delivery.start] using hreceived
    have hnone : d.destroyed = [] := hdestroyed
    rw [← hevents]
    simp [Delivery.events, hgiven, hnone]
  · obtain ⟨htaken, -, hwithdrawn⟩ := haccount.complete hd hended hc hopen
    exact ⟨htaken, by simp [hwithdrawn, inHand, hended]⟩

theorem Course.lacks {n : Nat} (h : Course mayCancel r₀ s₀ r s held given)
    (h₀ : r₀.pool.Lacks (n + s₀.inside)) :
    r.pool.Lacks (n + held.toList.length + s.inside) := by
  induction h with
  | start => exact h₀
  | step h hs ih => exact hs.lacks ih
  | cancel h hm ih => exact ih
  | receive h hp ih =>
    rw [inside_poll? hp] at ih
    simpa [Nat.add_assoc, Nat.add_comm, Nat.add_left_comm] using ih
  | @release r s e given h ih =>
    have hheld : r.pool.Lacks (n + s.inside + 1) := by
      simpa [Nat.add_assoc, Nat.add_comm, Nat.add_left_comm] using ih
    exact hheld.release e

end Stream
end Changefeed
