import Changefeed.Proofs.ReplayRuns

/-!
# Replays with a message that is refused

A recorder that refuses all messages after a certain number ends a replay with the first message
that it refuses. What it has recorded by then are the messages before that one, the error names the
transaction that the message belongs to, and the event is back in the pool.
-/

namespace Changefeed

theorem Recorder.publish_all_refusing {kept : List Message} {count : Nat} (reason : String)
    (h : kept.length ≤ count) (messages : List Message) :
    Publish.all Recorder.publish messages ⟨kept, some (count, reason)⟩ =
      (if kept.length + messages.length ≤ count then .ok () else .error (.broker reason),
        ⟨kept ++ messages.take (count - kept.length), some (count, reason)⟩) := by
  induction messages generalizing kept with
  | nil => simp [Publish.all, h]
  | cons m messages ih =>
    by_cases hfull : count ≤ kept.length
    · have hrefuse : Recorder.publish ⟨kept, some (count, reason)⟩ m =
          (.error (.broker reason), ⟨kept, some (count, reason)⟩) := by simp [publish, hfull]
      have hlength : ¬ kept.length + (m :: messages).length ≤ count := by
        rw [List.length_cons]
        omega
      rw [Publish.all, hrefuse, if_neg hlength, Nat.sub_eq_zero_of_le hfull]
      simp
    · have haccept : Recorder.publish ⟨kept, some (count, reason)⟩ m =
          (.ok (), ⟨kept ++ [m], some (count, reason)⟩) := by simp [publish, hfull, accept]
      have hlonger : (kept ++ [m]).length ≤ count := by
        rw [List.length_append, List.length_singleton]
        omega
      have hroom : count - kept.length = count - (kept ++ [m]).length + 1 := by
        rw [List.length_append, List.length_singleton]
        omega
      rw [Publish.all, haccept, hroom, List.take_succ_cons]
      dsimp only
      rw [ih hlonger]
      simp [Nat.add_comm, Nat.add_left_comm]

theorem Recorder.publish_all_failingAfter (count : Nat) (reason : String)
    (messages : List Message) :
    Publish.all Recorder.publish messages (.failingAfter count reason) =
      (if messages.length ≤ count then .ok () else .error (.broker reason),
        ⟨messages.take count, some (count, reason)⟩) := by
  have h := publish_all_refusing reason (show ([] : List Message).length ≤ count from Nat.zero_le _)
    messages
  rw [List.length_nil, Nat.zero_add, Nat.sub_zero, List.nil_append] at h
  exact h

theorem Recorder.length_le_of_dropLast {messages : List Message} {count : Nat} {reason : String}
    (h : (Publish.all Recorder.publish messages.dropLast (.failingAfter count reason)).1 = .ok ()) :
    messages.length ≤ count + 1 := by
  rw [publish_all_failingAfter, List.length_dropLast] at h
  refine Nat.le_of_not_lt fun hlt => ?_
  rw [if_neg (by omega)] at h
  cases h

namespace Replay

theorem Replayed.refused {router : Router} {filter : Filter}
    {sound : List (Timestamp × List Action)} {parts : List (List Event)}
    {counted : List (List String)} {result : Except PublishError Unit} {x y : Replay Recorder}
    (h : Replayed Recorder.publish router filter sound parts counted result x y) {count : Nat}
    {reason : String} (hx : x.publisher = .failingAfter count reason) (hc : y.cancelled = false) :
    let wholes := filter.parts x.session.resources.nextId sound
    let all := wholes.flatten.map router.message
    parts.flatten.map router.message = all.take (count + 1) ∧
      y.publisher.messages = all.take count ∧
      (all.length ≤ count → result = .ok () ∧ parts = wholes) ∧
      (count < all.length → result = .error (.broker reason) ∧
        (wholes.take (parts.length - 1)).flatten.length ≤ count ∧
        count < (wholes.take (parts.length - 1 + 1)).flatten.length) := by
  intro wholes all
  have hhanded := h.handed
  have hlast := h.last
  have hbefore := h.before
  rw [hx] at hhanded hlast hbefore
  rw [Recorder.publish_all_failingAfter] at hhanded hbefore
  obtain ⟨hresult, hpublisher⟩ := Prod.mk.inj hhanded
  have hprefix : parts.flatten.map router.message <+: all := h.reached.flatten_prefix.map _
  have hlength : (parts.flatten.map router.message).length ≤ count + 1 :=
    Recorder.length_le_of_dropLast hlast
  by_cases hfew : (parts.flatten.map router.message).length ≤ count
  · rw [if_pos hfew] at hresult
    obtain ⟨rfl, -⟩ := h.whole hresult.symm hc
    have hall : all.length ≤ count := hfew
    refine ⟨?_, ?_, fun _ => ⟨hresult.symm, rfl⟩, fun hlt => ?_⟩
    · rw [List.take_of_length_le (Nat.le_succ_of_le hall)]
    · rw [← hpublisher]
    · exact absurd hlt (Nat.not_lt.2 hall)
  · rw [if_neg hfew] at hresult
    have hexact : (parts.flatten.map router.message).length = count + 1 := by omega
    have htake : parts.flatten.map router.message = all.take (count + 1) := by
      rw [← hexact]
      exact List.prefix_iff_eq_take.1 hprefix
    refine ⟨htake, ?_, fun hall => ?_, fun _ => ⟨hresult.symm, ?_, ?_⟩⟩
    · rw [← hpublisher, htake, List.take_take, Nat.min_eq_left (Nat.le_succ count)]
    · have hle := hprefix.length_le
      omega
    · -- All transactions but the last started one were accepted.
      rw [← h.reached.dropLast]
      refine Nat.le_of_not_lt fun hlt => ?_
      rw [if_neg (by rw [List.length_map]; omega)] at hbefore
      cases hbefore
    · have hparts : parts.length - 1 + 1 = parts.length := by
        refine Nat.sub_add_cancel (List.length_pos_iff.2 ?_)
        rintro rfl
        simp at hexact
      have hle := h.reached.take.flatten_prefix.length_le
      rw [List.length_map] at hexact
      rw [hparts]
      exact Nat.lt_of_lt_of_le (by omega) hle

/-- A replay whose recorder refuses the message after `count` others stops at this message. -/
theorem run_refused {σ : Type} {accepting : Publish σ} {publisher : σ}
    (haccept : accepting.Accepts publisher) {calm schedule : Schedule} (hcalm : ¬ calm.Cancels)
    (hm : ¬ schedule.Cancels) {c : Config} {r : Recording} {monitor : Monitor} {nextId : Nat}
    {summary : ReplaySummary}
    (hok : (run calm accepting c r ⟨.empty, monitor, nextId⟩ publisher false).1 = .ok summary)
    (count : Nat) (reason : String) :
    let f := Filter.ofSections c.listener.filter.tables c.listener.filter.columns
    let refusing := Recorder.failingAfter count reason
    let all := offered calm accepting c r ⟨.empty, monitor, nextId⟩ publisher false
    let handed := offered schedule Recorder.publish c r ⟨.empty, monitor, nextId⟩ refusing false
    let y := run schedule Recorder.publish c r ⟨.empty, monitor, nextId⟩ refusing false
    ∃ (sound : List (Timestamp × List Action)) (moves : List Traffic.Move),
      y.2.publisher.messages = all.take count ∧
      handed = all.take (count + 1) ∧
      (all.length ≤ count → y.1 = .ok summary) ∧
      (count < all.length → ∃ index, y.1 = .error (.publish index (.broker reason)) ∧
        ((f.parts nextId sound).take index).flatten.length ≤ count ∧
        count < ((f.parts nextId sound).take (index + 1)).flatten.length) ∧
      r.transactions.map (·.read? r.relations) = sound.map some ∧
      all = (f.parts nextId sound).flatten.map (Replay.router c).message ∧
      let t := Traffic.run (.start 0 monitor nextId) moves
      t.resources = y.2.session.resources ∧ t.held = [] ∧
        handed = (t.deliveries.flatMap (·.received)).map (Replay.router c).message ∧
        y.2.session.resources.pool.allocated =
          y.2.session.resources.pool.available + Traffic.lent t.deliveries ∧
        Traffic.lent t.deliveries ≤ 2 := by
  intro f refusing all handed y
  obtain ⟨hfilter, sound, hread⟩ := sound_of_run hcalm haccept hok
  obtain ⟨hall, hsummary⟩ :
      all = (f.parts nextId sound).flatten.map (Replay.router c).message ∧ _ :=
    run_whole hfilter hread hcalm haccept
  obtain rfl : summary = _ := Except.ok.inj (hok.symm.trans hsummary)
  obtain ⟨parts, counted, result, hoffered, hreplayed, hy⟩ :=
    run_replayed schedule Recorder.publish monitor nextId refusing false hfilter hread
  have hhanded : handed = parts.flatten.map (Replay.router c).message := hoffered
  have hc := (asked_run (r := r) schedule Recorder.publish monitor nextId refusing false
    hfilter).uncancelled hm
  obtain ⟨htake, hmessages, hfew, hmany⟩ := hreplayed.refused rfl hc
  rw [resources_start] at htake hmessages hfew hmany
  obtain ⟨moves, hresources, hheld, -, hreceived⟩ :=
    hreplayed.leads (.start 0 monitor nextId) (resources_start ..).symm
  have hlacks : y.2.session.resources.pool.Lacks
      (Traffic.lent (Traffic.run (.start 0 monitor nextId) moves).deliveries) := by
    have h := ((Traffic.accounted_start 0 monitor nextId).run moves).lacks
    rw [hresources, hheld] at h
    exact h
  refine ⟨sound, moves, ?_, ?_, fun hle => ?_, fun hlt => ?_, hread, hall, hresources, hheld, ?_,
    ?_, ?_⟩
  · rw [hall]
    exact hmessages
  · rw [hhanded, hall]
    exact htake
  · rw [hall] at hle
    obtain ⟨rfl, rfl⟩ := hfew hle
    rw [Filter.length_parts, hc] at hy
    exact hy
  · rw [hall] at hlt
    obtain ⟨rfl, hbefore, hafter⟩ := hmany hlt
    exact ⟨parts.length - 1, hy, hbefore, hafter⟩
  · rw [List.flatMap_def, hreceived]
    exact hhanded
  · exact hlacks
  · have hempty : (start r ⟨.empty, monitor, nextId⟩ refusing false).session.resources.pool.Lacks
        0 := by
      rw [resources_start]
      exact Pool.lacks_withCapacity 0
    obtain ⟨n, hn, hmissing, -⟩ := hreplayed.missing hempty
    have hsame : n = Traffic.lent _ := Nat.add_left_cancel (hmissing.symm.trans hlacks)
    rwa [← hsame]

theorem run_refused_second :
    let y := run .lazy Recorder.publish smallConfig pairRecording ⟨.empty, .silent, 0⟩
      (.failingAfter 1 "full") false
    y.1 = .error (.publish 1 (.broker "full")) ∧ y.2.publisher.messages.length = 1 := by
  intro y
  let f := Filter.ofSections smallConfig.listener.filter.tables smallConfig.listener.filter.columns
  let meant : List (Timestamp × List Action) :=
    [(.epoch, [smallInsert, smallDelete]), (.epoch, [smallInsert, smallDelete])]
  have hread : pairRecording.transactions.map (·.read? pairRecording.relations) =
      meant.map some := by rfl
  have hlengths : (f.parts 0 meant).map List.length = [1, 1] := by decide +kernel
  have hok : (run .lazy Recorder.publish smallConfig pairRecording ⟨.empty, .silent, 0⟩ .new
      false).1 = _ := (run_whole rfl hread Schedule.not_cancels_lazy Recorder.accepts_new).2
  obtain ⟨sound, moves, hmessages, -, -, hmany, hsound, hall, -⟩ := run_refused Recorder.accepts_new
    Schedule.not_cancels_lazy Schedule.not_cancels_lazy hok 1 "full"
  obtain rfl : meant = sound :=
    (List.map_inj_right fun _ _ h => Option.some.inj h).1 (hread.symm.trans hsound)
  obtain ⟨p, _, hparts, hp, hrest⟩ := List.map_eq_cons_iff.1 hlengths
  obtain ⟨q, rfl, hq⟩ := List.map_eq_singleton_iff.1 hrest
  rw [hparts] at hall hmany
  have hlength := congrArg List.length hall
  simp only [List.flatten_cons, List.flatten_nil, List.append_nil, List.length_map,
    List.length_append, hp, hq] at hlength
  obtain ⟨index, hy, hbefore, hafter⟩ := hmany (by omega)
  -- The second message is the only one of the second transaction.
  obtain rfl : index = 1 := by
    rcases index with _ | _ | index
    · simp [hp] at hafter
    · rfl
    · simp [hp, hq] at hbefore
  refine ⟨hy, ?_⟩
  rw [show y.2.publisher.messages = _ from hmessages, List.length_take]
  omega

end Replay
end Changefeed
