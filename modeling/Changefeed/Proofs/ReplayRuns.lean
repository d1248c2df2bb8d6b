import Changefeed.Proofs.Extent
import Changefeed.Proofs.Offering
import Changefeed.Proofs.Replaying

/-!
# How far a replay gets

A replay of transactions without a flaw, with any schedule and any publisher. It ends at the end of
the recording, after a cancellation, or with the first message that is refused. The transactions
that it has started are then relayed as a whole, save the last one, of which a first part is.
-/

namespace Changefeed

namespace Replay

variable {σ : Type} {schedule : Schedule} {publish : Publish σ} {router : Router}
  {filter : Filter} {relations : List (RelationId × Relation)}

/-- What a replay has done with transactions of which `parts` were received and `counted` were
counted, transaction by transaction. -/
structure Replayed (publish : Publish σ) (router : Router) (filter : Filter)
    (sound : List (Timestamp × List Action)) (parts : List (List Event))
    (counted : List (List String)) (result : Except PublishError Unit) (x y : Replay σ) :
    Prop where
  reached : Reaches (filter.parts x.session.resources.nextId sound) parts
  dropped : Reaches (filter.droppedAll sound) counted
  length : counted.length = parts.length
  handed : publish.all (parts.flatten.map router.message) x.publisher = (result, y.publisher)
  last : (publish.all (parts.flatten.map router.message).dropLast x.publisher).1 = .ok ()
  before : (publish.all (parts.dropLast.flatten.map router.message) x.publisher).1 = .ok ()
  noted : y.session.resources.monitor = x.session.resources.monitor.noteAll counted.flatten
  leads : Traffic.Leads x.session.resources y.session.resources (sound.take parts.length) parts
  missing : x.session.resources.pool.Lacks 0 → ∃ n ≤ 2, y.session.resources.pool.Lacks n ∧
    (result = .ok () → n = 0)
  counts : result = .ok () → y.transactions = x.transactions + parts.length ∧
    y.published = x.published + parts.flatten.length
  whole : result = .ok () → y.cancelled = false →
    parts = filter.parts x.session.resources.nextId sound ∧ counted = filter.droppedAll sound

theorem replayed_pause (x : Replay σ) {sound : List (Timestamp × List Action)}
    (h : (x.pause schedule).cancelled = false → sound = []) :
    Replayed publish router filter sound [] [] (.ok ()) x (x.pause schedule) where
  reached := .none _
  dropped := .none _
  length := rfl
  handed := rfl
  last := rfl
  before := rfl
  noted := rfl
  leads := Traffic.leads_refl _
  missing := fun hlacks => ⟨0, Nat.zero_le _, hlacks, fun _ => rfl⟩
  counts := fun _ => ⟨rfl, rfl⟩
  whole := by
    rintro - hc
    rw [h hc]
    exact ⟨rfl, rfl⟩

section Relayed

variable {time : Timestamp} {actions taken : List Action} {given : List Event} {x y z : Replay σ}
  {sound : List (Timestamp × List Action)}

theorem Relayed.replayed {error : PublishError}
    (h : Relayed publish router filter time actions taken given (.error error) x y) :
    Replayed publish router filter ((time, actions) :: sound) [given] [filter.dropped time taken]
      (.error error) x y where
  reached := .part (h.gives.trans (filter.numbered_prefix time h.takes _)) _
  dropped := .part (filter.dropped_prefix time h.takes) _
  length := rfl
  handed := by simpa using h.handed
  last := by simpa using h.last
  before := rfl
  noted := by simpa using h.noted
  leads := h.leads
  missing := h.missing
  counts := nofun
  whole := nofun

theorem Relayed.cons {parts : List (List Event)} {counted : List (List String)}
    {result : Except PublishError Unit}
    (h : Relayed publish router filter time actions taken given (.ok ()) x y)
    (h' : Replayed publish router filter sound parts counted result y z)
    (hc : y.cancelled = true → parts = [] ∧ z.cancelled = true) :
    Replayed publish router filter ((time, actions) :: sound) (given :: parts)
      (filter.dropped time taken :: counted) result x z := by
  obtain ⟨-, htransactions, hpublished⟩ := h.counts rfl
  have hlast := Publish.all_dropLast_append h.handed h'.last
  have hbefore : (publish.all ((given :: parts).dropLast.flatten.map router.message)
      x.publisher).1 = .ok () := by
    cases parts with
    | nil => rfl
    | cons part parts =>
      rw [List.dropLast_cons_cons, List.flatten_cons, List.map_append, Publish.all_append h.handed]
      exact h'.before
  -- A transaction is cut short only by a cancellation, and none is started after that.
  have hreached : Reaches (filter.parts x.session.resources.nextId ((time, actions) :: sound))
        (given :: parts) ∧
      Reaches (filter.droppedAll ((time, actions) :: sound))
        (filter.dropped time taken :: counted) := by
    cases hy : y.cancelled with
    | true =>
      obtain ⟨rfl, -⟩ := hc hy
      obtain rfl := List.eq_nil_of_length_eq_zero h'.length
      exact ⟨.part (h.gives.trans (filter.numbered_prefix time h.takes _)) _,
        .part (filter.dropped_prefix time h.takes) _⟩
    | false =>
      obtain ⟨rfl, rfl, hnext⟩ := h.whole rfl hy
      have hreached := h'.reached
      rw [hnext] at hreached
      exact ⟨.whole _ hreached, .whole _ h'.dropped⟩
  refine ⟨hreached.1, hreached.2, by simp [h'.length], ?_, ?_, hbefore, ?_,
    h.leads.trans h'.leads, fun hlacks => ?_, fun hok => ?_, fun hok hz => ?_⟩
  · rw [List.flatten_cons, List.map_append, Publish.all_append h.handed]
    exact h'.handed
  · rw [List.flatten_cons, List.map_append]
    exact hlast
  · rw [h'.noted, h.noted, List.flatten_cons, Monitor.noteAll_append]
  · obtain ⟨n, -, hlacks', hn⟩ := h.missing hlacks
    obtain rfl := hn rfl
    exact h'.missing hlacks'
  · obtain ⟨htransactions', hpublished'⟩ := h'.counts hok
    rw [htransactions', htransactions, hpublished', hpublished]
    simp only [List.length_cons, List.flatten_cons, List.length_append]
    omega
  · cases hy : y.cancelled with
    | true => simp [(hc hy).2] at hz
    | false =>
      obtain ⟨rfl, rfl, hnext⟩ := h.whole rfl hy
      obtain ⟨hparts, hcounted⟩ := h'.whole hok hz
      rw [hnext] at hparts
      rw [hparts, hcounted]
      exact ⟨rfl, rfl⟩

end Relayed

structure Rested (relations : List (RelationId × Relation)) (x : Replay σ) : Prop where
  knows : x.session.Knows relations
  idle : x.session.Idle
  blank : x.session.resources.pool.Blank

variable (schedule publish router filter)

theorem runAll_replayed {x : Replay σ} (hx : x.Rested relations)
    {transactions : List RecordedTransaction} {sound : List (Timestamp × List Action)}
    (hread : transactions.map (·.read? relations) = sound.map some) (index : Nat) :
    let y := runAll schedule publish router filter index transactions x
    ∃ parts counted result,
      y.1 = result.mapError (.publish (index + parts.length - 1)) ∧
      (x.cancelled = true → parts = [] ∧ y.2.cancelled = true) ∧
      Replayed publish router filter sound parts counted result x y.2 := by
  induction transactions generalizing x sound index with
  | nil =>
    obtain rfl : sound = [] := by simpa using hread
    refine ⟨[], [], .ok (), rfl, fun hc => ⟨rfl, ?_⟩, replayed_pause x fun _ => rfl⟩
    simp [runAll, pause, hc]
  | cons t rest ih =>
    cases sound with
    | nil => simp at hread
    | cons meant sound =>
      obtain ⟨time, actions⟩ := meant
      obtain ⟨ht, hrest⟩ := List.cons.inj hread
      cases hc : (x.pause schedule).cancelled with
      | true =>
        rw [runAll_of_cancelled schedule publish router filter hc]
        refine ⟨[], [], .ok (), rfl, fun _ => ⟨rfl, hc⟩, replayed_pause x ?_⟩
        simp [hc]
      | false =>
        have hx' : x.cancelled = true → False := by
          intro h
          simp [pause, h] at hc
        obtain ⟨session, hload, hresources, hrelations, htime, rfl⟩ :=
          Session.loadTransaction_of_read hx.knows hx.idle ht
        obtain ⟨taken, given, result, y, hrelay, hrelayed⟩ := relayLoaded_relayed schedule publish
          router filter hx.blank hresources hrelations htime index
        rw [runAll_of_loaded schedule publish router filter hc hload, hrelay]
        cases result with
        | error error =>
          exact ⟨[given], [filter.dropped time taken], .error error, rfl, fun h => (hx' h).elim,
            hrelayed.replayed⟩
        | ok =>
          have hy : y.Rested relations := by
            refine ⟨fun id => ?_, (hrelayed.counts rfl).1, hrelayed.blank⟩
            rw [hrelayed.relations]
            exact hx.knows id
          obtain ⟨parts, counted, result, hresult, hstop, hreplayed⟩ := ih hy hrest (index + 1)
          refine ⟨given :: parts, filter.dropped time taken :: counted, result, ?_,
            fun h => (hx' h).elim, hrelayed.cons hreplayed hstop⟩
          rw [List.length_cons, ← Nat.add_assoc, Nat.add_right_comm]
          exact hresult

variable {schedule publish router filter}

theorem Replayed.unlogged {sound : List (Timestamp × List Action)} {parts : List (List Event)}
    {counted : List (List String)} {result : Except PublishError Unit}
    {x y : Replay (σ × List Message)}
    (h : Replayed publish.logged router filter sound parts counted result x y) :
    Replayed publish router filter sound parts counted result x.unlogged y.unlogged ∧
      y.publisher.2 = x.publisher.2 ++ parts.flatten.map router.message := by
  have hhanded := Publish.all_unlogged publish (parts.flatten.map router.message) x.publisher
  have hlast := Publish.all_unlogged publish (parts.flatten.map router.message).dropLast x.publisher
  have hbefore := Publish.all_unlogged publish (parts.dropLast.flatten.map router.message)
    x.publisher
  rw [h.handed] at hhanded
  rw [h.last] at hlast
  rw [h.before] at hbefore
  have hlog := Publish.logged_all x.publisher.2 (congrArg Prod.fst hlast)
  rw [show (x.publisher.1, x.publisher.2) = x.publisher from rfl, h.handed] at hlog
  exact ⟨{ h with
    handed := hhanded
    last := congrArg Prod.fst hlast
    before := congrArg Prod.fst hbefore }, congrArg (·.2.2) hlog⟩

theorem rested_start (r : Recording) (monitor : Monitor) (nextId : Nat) (publisher : σ)
    (cancelled : Bool) :
    (start r ⟨.empty, monitor, nextId⟩ publisher cancelled).Rested r.relations := by
  have h := ready_start r monitor nextId publisher
  exact ⟨h.knows, h.idle, h.blank⟩

section Run

variable (schedule publish) {c : Config} {r : Recording} {sound : List (Timestamp × List Action)}
  (monitor : Monitor) (nextId : Nat) (publisher : σ) (cancelled : Bool)

theorem run_of_toFilter (hfilter : c.listener.filter.toFilter = .ok filter)
    (resources : Resources) :
    run schedule publish c r resources publisher cancelled =
      let y := runAll schedule publish (Replay.router c) filter 0 r.transactions
        (start r resources publisher cancelled)
      (y.1.map fun _ => y.2.summary, y.2) := by
  simp only [run, hfilter]

theorem run_replayed (hfilter : c.listener.filter.toFilter = .ok filter)
    (hread : r.transactions.map (·.read? r.relations) = sound.map some) :
    let y := run schedule publish c r ⟨.empty, monitor, nextId⟩ publisher cancelled
    ∃ parts counted result,
      offered schedule publish c r ⟨.empty, monitor, nextId⟩ publisher cancelled =
        parts.flatten.map (Replay.router c).message ∧
      Replayed publish (Replay.router c) filter sound parts counted result
        (start r ⟨.empty, monitor, nextId⟩ publisher cancelled) y.2 ∧
      y.1 = match result with
        | .ok () => .ok ⟨parts.length, parts.flatten.length, y.2.cancelled⟩
        | .error error => .error (.publish (parts.length - 1) error) := by
  intro y
  obtain ⟨parts, counted, result, hresult, -, hreplayed⟩ := runAll_replayed schedule publish.logged
    (Replay.router c) filter (rested_start r monitor nextId (publisher, []) cancelled) hread 0
  have hy : run schedule publish.logged c r ⟨.empty, monitor, nextId⟩ (publisher, []) cancelled =
      _ := run_of_toFilter schedule publish.logged _ _ hfilter _
  obtain ⟨hunlogged, hlog⟩ := hreplayed.unlogged
  rw [Nat.zero_add] at hresult
  refine ⟨parts, counted, result, ?_, ?_, ?_⟩
  · simp only [offered, hy]
    exact hlog
  · simp only [y, run_unlogged schedule publish, hy]
    exact hunlogged
  · simp only [y, run_unlogged schedule publish, hy, hresult]
    cases result with
    | error error => rfl
    | ok =>
      have hcounts := hreplayed.counts rfl
      simp only [start, Nat.zero_add] at hcounts
      rw [← hcounts.1, ← hcounts.2]
      rfl

theorem asked_run (hfilter : c.listener.filter.toFilter = .ok filter) :
    Asked schedule (moments schedule publish c r ⟨.empty, monitor, nextId⟩ publisher cancelled)
      (start r ⟨.empty, monitor, nextId⟩ publisher cancelled)
      (run schedule publish c r ⟨.empty, monitor, nextId⟩ publisher cancelled).2 := by
  rw [run_of_toFilter schedule publish publisher cancelled hfilter]
  simp only [moments, hfilter]
  exact asked_runAll schedule publish (Replay.router c) filter 0 r.transactions _

variable {schedule publish monitor nextId publisher}

theorem sound_of_run (hm : ¬ schedule.Cancels) (haccept : publish.Accepts publisher)
    {summary : ReplaySummary}
    (hok : (run schedule publish c r ⟨.empty, monitor, nextId⟩ publisher false).1 = .ok summary) :
    c.listener.filter.toFilter =
        .ok (.ofSections c.listener.filter.tables c.listener.filter.columns) ∧
      ∃ sound : List (Timestamp × List Action),
        r.transactions.map (·.read? r.relations) = sound.map some := by
  cases hfilter : c.listener.filter.toFilter with
  | error e => simp [run, hfilter] at hok
  | ok filter =>
    refine ⟨?_, ?_⟩
    · unfold FilterSection.toFilter at hfilter
      cases hv : c.listener.filter.validate with
      | error e =>
        rw [hv] at hfilter
        cases hfilter
      | ok =>
        rw [hv] at hfilter
        cases hfilter
        rfl
    · obtain ⟨sound, events, hmeaning, -, -, -, herror⟩ := runAll_spec publish (Replay.router c)
        filter hm (ready_start r monitor nextId publisher) haccept 0 r.transactions
      rw [run_of_toFilter schedule publish publisher false hfilter] at hok
      have hlength : r.transactions.length ≤ sound.length := by
        refine Nat.le_of_not_lt fun hlt => ?_
        obtain ⟨cause, hcause⟩ := herror hlt
        simp [hcause, Except.map] at hok
      refine ⟨sound, ?_⟩
      rw [← hmeaning.read, List.take_of_length_le hlength]

theorem run_whole (hfilter : c.listener.filter.toFilter = .ok filter)
    (hread : r.transactions.map (·.read? r.relations) = sound.map some)
    (hm : ¬ schedule.Cancels) (haccept : publish.Accepts publisher) :
    offered schedule publish c r ⟨.empty, monitor, nextId⟩ publisher false =
        (filter.parts nextId sound).flatten.map (Replay.router c).message ∧
      (run schedule publish c r ⟨.empty, monitor, nextId⟩ publisher false).1 =
        .ok ⟨sound.length, (filter.parts nextId sound).flatten.length, false⟩ := by
  obtain ⟨parts, counted, result, hoffered, hreplayed, hy⟩ :=
    run_replayed schedule publish monitor nextId publisher false hfilter hread
  have hc := (asked_run (r := r) schedule publish monitor nextId publisher false
    hfilter).uncancelled hm
  obtain rfl := haccept.result_eq hreplayed.handed
  obtain ⟨hparts, -⟩ := hreplayed.whole rfl hc
  rw [resources_start] at hparts
  subst hparts
  refine ⟨hoffered, ?_⟩
  rw [hy, hc, Filter.length_parts]
  rfl

end Run

def pairRecording : Recording :=
  { smallRecording with transactions := [smallTransaction, smallTransaction] }

end Replay
end Changefeed
