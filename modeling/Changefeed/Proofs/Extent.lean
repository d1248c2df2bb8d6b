import Changefeed.Proofs.Numbering

/-!
# How far a relay gets

A relay of a stream of its own that may be cancelled, with a publisher that may refuse a message
(`Relay.Extent`). The events that it receives are a first part of those of its transaction, and so
those of several relays are the events of whole transactions, up to a last one of which there is a
first part (`Reaches`). What a relay does to the pool is a part of the traffic in which each
receiver gives back what it has received (`Traffic.Leads`).
-/

namespace Changefeed

/-- Some of the first lists as they are, the last one of them perhaps cut short. -/
inductive Reaches {α : Type} : List (List α) → List (List α) → Prop
  | none (wholes : List (List α)) : Reaches wholes []
  | part {part whole : List α} (h : part <+: whole) (wholes : List (List α)) :
    Reaches (whole :: wholes) [part]
  | whole (whole : List α) {wholes parts : List (List α)} (h : Reaches wholes parts) :
    Reaches (whole :: wholes) (whole :: parts)

namespace Reaches

variable {α : Type} {wholes parts : List (List α)}

theorem flatten_prefix (h : Reaches wholes parts) : parts.flatten <+: wholes.flatten := by
  induction h with
  | none => exact List.nil_prefix
  | part h wholes => simpa using h.trans (List.prefix_append _ _)
  | whole _ _ ih => simpa using ih

theorem take (h : Reaches wholes parts) : Reaches (wholes.take parts.length) parts := by
  induction h with
  | none => exact .none _
  | part h wholes => exact .part h _
  | whole w _ ih => exact .whole w ih

theorem dropLast (h : Reaches wholes parts) : parts.dropLast = wholes.take (parts.length - 1) := by
  induction h with
  | none => rfl
  | part h wholes => rfl
  | @whole w wholes parts h ih =>
    cases parts with
    | nil => rfl
    | cons p parts => simpa using ih

end Reaches

namespace Filter

def parts (f : Filter) : Nat → List (Timestamp × List Action) → List (List Event)
  | _, [] => []
  | n, (time, actions) :: rest => f.numbered time n actions :: f.parts (n + actions.length) rest

theorem length_parts (f : Filter) (n : Nat) (sound : List (Timestamp × List Action)) :
    (f.parts n sound).length = sound.length := by
  induction sound generalizing n with
  | nil => rfl
  | cons t rest ih => simp [parts, ih]

def droppedAll (f : Filter) (sound : List (Timestamp × List Action)) : List (List String) :=
  sound.map fun t => f.dropped t.1 t.2

end Filter

namespace Traffic

def Move.opened? : Move → Option (Timestamp × List Action)
  | .start _ time actions _ => some (time, actions)
  | _ => none

theorem length_deliveries_run (x : Traffic) (moves : List Move) :
    (x.run moves).deliveries.length =
      x.deliveries.length + (moves.filterMap Move.opened?).length := by
  induction moves generalizing x with
  | nil => rfl
  | cons m moves ih =>
    have hrun : x.run (m :: moves) = (x.move m).run moves := rfl
    rw [hrun, ih]
    cases m with
    | start filter time actions cancelled =>
      have hopened : (Move.start filter time actions cancelled).opened? =
        some (time, actions) := rfl
      simp [Traffic.move, hopened, Nat.add_comm, Nat.add_left_comm]
    | turn i t =>
      have hopened : (Move.turn i t).opened? = none := rfl
      simp only [Traffic.move, List.filterMap_cons, hopened]
      split <;> simp
    | acquire => rfl
    | rewrite j e => rfl
    | release j =>
      have hopened : (Move.release j).opened? = none := rfl
      simp only [Traffic.move, List.filterMap_cons, hopened]
      split <;> rfl

/-- In the midst of any traffic the passes `opened` and their receivers can bring the pool from `r`
to `r'`, with `parts` received and none of it held any more. -/
def Leads (r r' : Resources) (opened : List (Timestamp × List Action))
    (parts : List (List Event)) : Prop :=
  ∀ x : Traffic, x.resources = r → ∃ moves, (x.run moves).resources = r' ∧
    (x.run moves).held = x.held ∧ moves.filterMap Move.opened? = opened ∧
    (x.run moves).deliveries.map (·.received) = x.deliveries.map (·.received) ++ parts

theorem leads_refl (r : Resources) : Leads r r [] [] :=
  fun _ hx => ⟨[], hx, rfl, rfl, (List.append_nil _).symm⟩

theorem Leads.trans {r r' r'' : Resources} {opened opened' : List (Timestamp × List Action)}
    {parts parts' : List (List Event)} (h : Leads r r' opened parts)
    (h' : Leads r' r'' opened' parts') : Leads r r'' (opened ++ opened') (parts ++ parts') := by
  intro x hx
  obtain ⟨moves, hr, hheld, hopened, hparts⟩ := h x hx
  obtain ⟨moves', hr', hheld', hopened', hparts'⟩ := h' (x.run moves) hr
  refine ⟨moves ++ moves', ?_⟩
  rw [run_append, List.filterMap_append]
  refine ⟨hr', hheld'.trans hheld, ?_, ?_⟩
  · rw [hopened, hopened']
  · rw [hparts', hparts, List.append_assoc]

theorem leads_of_course {mayCancel : Prop} {r r' : Resources} {s : Stream} {filter : Filter}
    {time : Timestamp} {actions : List Action} {cancelled : Bool} {given : List Event}
    (h : Stream.Course mayCancel r (.start filter time actions cancelled) r' s none given) :
    Leads r r' [(time, actions)] [given] := by
  rintro x rfl
  let x₁ := x.move (.start filter time actions cancelled)
  have hdeliveries : x₁.deliveries =
      x.deliveries ++ [.start (.start filter time actions cancelled)] := rfl
  have hlt : x.deliveries.length < x₁.deliveries.length := by simp [hdeliveries]
  have hi : x₁.deliveries[x.deliveries.length]? =
      some (.start (.start filter time actions cancelled)) := by simp [hdeliveries]
  have hcourse : Stream.Course mayCancel x₁.resources (.start filter time actions cancelled) r' s
    none given := h
  obtain ⟨moves, d, hreached⟩ := reached_of_course hi hcourse
  have hlength := length_deliveries_run x₁ moves
  rw [hreached.deliveries, List.length_set] at hlength
  have hnone : moves.filterMap Move.opened? = [] := List.eq_nil_of_length_eq_zero (by omega)
  refine ⟨.start filter time actions cancelled :: moves ++ [.turn x.deliveries.length .drop], ?_⟩
  have hrun : x.run (.start filter time actions cancelled :: moves ++
      [.turn x.deliveries.length .drop]) =
      (x₁.run moves).move (.turn x.deliveries.length .drop) := run_concat x₁ moves _
  rw [hrun, move_turn hreached.deliveries hlt]
  refine ⟨hreached.resources, hreached.held, ?_, ?_⟩
  · simp [Move.opened?, hnone]
  · have hreceived : d.received = given := hreached.received
    simp [hdeliveries, Delivery.act, Delivery.drop, hreceived]

end Traffic

namespace Relay

variable {σ : Type}

/-- What a relay has done to the resources `r` and the publisher `p`: the events `given` were
received, and the actions `taken` were looked at. -/
structure Extent (publish : Publish σ) (router : Router) (filter : Filter) (time : Timestamp)
    (actions taken : List Action) (given : List Event) (result : Except PublishError Unit)
    (r r' : Resources) (p p' : σ) (cancelled : Bool) : Prop where
  takes : taken <+: actions
  gives : given <+: filter.numbered time r.nextId taken
  handed : publish.all (given.map router.message) p = (result, p')
  last : (publish.all (given.map router.message).dropLast p).1 = .ok ()
  noted : r'.monitor = r.monitor.noteAll (filter.dropped time taken)
  blank : r'.pool.Blank
  leads : Traffic.Leads r r' [(time, actions)] [given]
  missing : r.pool.Lacks 0 → ∃ n ≤ 2, r'.pool.Lacks n ∧ (result = .ok () → n = 0)
  whole : result = .ok () → cancelled = false → taken = actions ∧
    given = filter.numbered time r.nextId actions ∧ r'.nextId = r.nextId + actions.length

theorem extent {schedule : Schedule} {publish : Publish σ} {router : Router} {r : Resources}
    (hblank : r.pool.Blank) {filter : Filter} {time : Timestamp} {actions : List Action}
    {cancelled : Bool} {publisher : σ} {moment : Moment} {result : Except PublishError Unit}
    {y : Relay σ} (hrun : (start r (.start filter time actions cancelled) publisher moment).run
      schedule publish router = (result, y)) :
    ∃ taken given, Extent publish router filter time actions taken given result r y.resources
        publisher y.publisher y.stream.cancelled ∧
      (result = .ok () → y.published = given.length) := by
  have hreached : (start r (.start filter time actions cancelled) publisher moment).Reached schedule
    r (.start filter time actions cancelled) [] := .start
  have houtcome := outcome publish router hreached
  rw [hrun] at houtcome
  obtain ⟨given, ⟨s, hcourse, hclose, hended⟩, hall, hcount, hlast⟩ := houtcome
  obtain ⟨taken, kept, htaken, hgiven, hnext, hblank', hnoted, hwhole⟩ := hcourse.taken hblank
  refine ⟨taken, given, ⟨htaken, ?_, hall, hlast, hnoted, hblank', Traffic.leads_of_course hcourse,
    fun hlacks => ?_, fun hok hc => ?_⟩, fun hok => ?_⟩
  · rw [← hgiven, List.nil_append, List.append_assoc]
    exact List.prefix_append _ _
  · -- The pass has an event in hand and one in its channel at most, and none when all went well.
    refine ⟨s.inside, s.inside_le, by simpa using hcourse.lacks (n := 0) hlacks, fun hok => ?_⟩
    obtain ⟨hphase, hwaiting⟩ := hended hok
    rw [Stream.inside_of_ended hphase, hwaiting]
    rfl
  · dsimp only at hclose
    rw [hclose] at hc
    obtain ⟨hphase, hwaiting⟩ := hended hok
    obtain ⟨rfl, rfl⟩ := hwhole hphase hc
    exact ⟨rfl, by simpa [hwaiting] using hgiven, hnext⟩
  · exact (hcount hok).trans (Nat.zero_add _)

end Relay
end Changefeed
