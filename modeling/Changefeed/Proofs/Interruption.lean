import Changefeed.Proofs.ReplayRuns

/-!
# Replays that are cancelled

A replay that would come to a good end, and that is cancelled at any moment, comes to a good end
too. It has published a first part of the messages, those of whole transactions up to the one in
which the cancellation was noticed, and has counted the dropped row changes of these transactions
only.
-/

namespace Changefeed.Replay

/-- Wherever a replay is cancelled, its summary tells what was done: so many transactions were
started, each but the last was relayed as a whole, and nothing is known of the others. -/
theorem run_interrupted {σ : Type} {publish : Publish σ} {publisher : σ}
    (haccept : publish.Accepts publisher) {calm : Schedule} (hm : ¬ calm.Cancels)
    {c : Config} {r : Recording} {monitor : Monitor} {nextId : Nat} {summary : ReplaySummary}
    (hok : (run calm publish c r ⟨.empty, monitor, nextId⟩ publisher false).1 = .ok summary)
    {schedule : Schedule} {cancelled : Bool}
    (hcancel : cancelled = true ∨
      ∃ m ∈ moments schedule publish c r ⟨.empty, monitor, nextId⟩ publisher cancelled,
        .cancel ∈ schedule m) :
    let f := Filter.ofSections c.listener.filter.tables c.listener.filter.columns
    let all := offered calm publish c r ⟨.empty, monitor, nextId⟩ publisher false
    let handed := offered schedule publish c r ⟨.empty, monitor, nextId⟩ publisher cancelled
    let y := run schedule publish c r ⟨.empty, monitor, nextId⟩ publisher cancelled
    ∃ (sound : List (Timestamp × List Action)) (parts : List (List Event))
      (counted : List (List String)) (moves : List Traffic.Move),
      y.1 = .ok ⟨parts.length, handed.length, true⟩ ∧
      publish.all handed publisher = (.ok (), y.2.publisher) ∧
      handed <+: all ∧
      r.transactions.map (·.read? r.relations) = sound.map some ∧
      all = (f.parts nextId sound).flatten.map (Replay.router c).message ∧
      handed = parts.flatten.map (Replay.router c).message ∧
      Reaches (f.parts nextId sound) parts ∧
      Reaches (f.droppedAll sound) counted ∧
      counted.length = parts.length ∧
      y.2.session.resources.monitor = monitor.noteAll counted.flatten ∧
      (∀ skips, monitor = .counting skips → ∀ table,
        y.2.session.resources.monitor.skips.get table =
          skips.get table + counted.flatten.count table) ∧
      (moments schedule publish c r ⟨.empty, monitor, nextId⟩ publisher cancelled).map (·.clock) =
        List.range y.2.moment.clock ∧
      let t := Traffic.run (.start 0 monitor nextId) moves
      t.resources = y.2.session.resources ∧ t.held = [] ∧
        moves.filterMap Traffic.Move.opened? = sound.take parts.length ∧
        t.deliveries.map (·.received) = parts := by
  intro f all handed y
  obtain ⟨hfilter, sound, hread⟩ := sound_of_run hm haccept hok
  obtain ⟨hall, -⟩ : all = _ ∧ _ := run_whole hfilter hread hm haccept
  obtain ⟨parts, counted, result, hoffered, hreplayed, hy⟩ :=
    run_replayed schedule publish monitor nextId publisher cancelled hfilter hread
  have hhanded : handed = parts.flatten.map (Replay.router c).message := hoffered
  have hasked := asked_run (r := r) schedule publish monitor nextId publisher cancelled hfilter
  obtain rfl := haccept.result_eq hreplayed.handed
  have hcancelled : y.2.cancelled = true := by
    rw [hasked.cancelled, Bool.or_eq_true, Schedule.any_cancelsAt]
    exact hcancel
  have hmonitor : y.2.session.resources.monitor = monitor.noteAll counted.flatten := by
    rw [hreplayed.noted, resources_start]
  have hreached : Reaches (f.parts nextId sound) parts := by
    have h := hreplayed.reached
    rwa [resources_start] at h
  obtain ⟨moves, htraffic⟩ := hreplayed.leads (.start 0 monitor nextId) (resources_start ..).symm
  refine ⟨sound, parts, counted, moves, ?_, ?_, ?_, hread, hall, hhanded, hreached,
    hreplayed.dropped, hreplayed.length, hmonitor, ?_, ?_, htraffic⟩
  · have hlength : handed.length = parts.flatten.length := by rw [hhanded, List.length_map]
    rw [hlength, ← hcancelled]
    exact hy
  · rw [hhanded]
    exact hreplayed.handed
  · rw [hhanded, hall]
    exact hreached.flatten_prefix.map _
  · intro skips hskips table
    subst hskips
    rw [hmonitor, Monitor.get_noteAll_counting]
  · rw [hasked.covers.clocks, List.range_eq_range', hasked.covers.last]
    simp [start, Moment.start]

theorem run_interrupted_after_one :
    let resources : Resources := ⟨.empty, .counting .empty, 0⟩
    let y := run (.cancelAfter 1) Recorder.publish smallConfig pairRecording resources .new false
    ∃ n, y.1 = .ok ⟨n, 1, true⟩ ∧
      y.2.publisher.messages.length = 1 ∧
      y.2.publisher.messages <+:
        offered .lazy Recorder.publish smallConfig pairRecording resources .new false := by
  intro resources y
  have hread : pairRecording.transactions.map (·.read? pairRecording.relations) =
      [(.epoch, [smallInsert, smallDelete]), (.epoch, [smallInsert, smallDelete])].map some := by
    rfl
  obtain ⟨-, hok⟩ : _ ∧ (run .lazy Recorder.publish smallConfig pairRecording resources .new
      false).1 = _ := run_whole rfl hread Schedule.not_cancels_lazy Recorder.accepts_new
  have hcancel : ∃ m ∈ moments (.cancelAfter 1) Recorder.publish smallConfig pairRecording resources
      .new false, .cancel ∈ Schedule.cancelAfter 1 m := by decide +kernel
  have hhanded : (offered (.cancelAfter 1) Recorder.publish smallConfig pairRecording resources .new
      false).length = 1 := by decide +kernel
  obtain ⟨sound, parts, counted, moves, hy, hall, hprefix, -⟩ :=
    run_interrupted Recorder.accepts_new Schedule.not_cancels_lazy hok (.inr hcancel)
  rw [Recorder.publish_all rfl] at hall
  have hmessages : y.2.publisher.messages = _ := (congrArg (·.2.messages) hall).symm
  rw [hmessages]
  exact ⟨parts.length, hhanded ▸ hy, hhanded, hprefix⟩

end Changefeed.Replay
