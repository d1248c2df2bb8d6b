import Changefeed.Proofs.PayloadText
import Changefeed.Proofs.ReplaySteps

/-!
# What a replay publishes

A replay that nobody cancels, with a publisher that accepts every message, publishes what the
recording means: the events of the transactions before the first one with a flaw, those of each
transaction stamped with its own commit time. The monitor knows of all the other row changes of
these transactions, and the transaction with the flaw is named in the error.
-/

namespace Changefeed

theorem Recorder.publish_all {r : Recorder} (h : r.refusal = none) (messages : List Message) :
    Publish.all Recorder.publish messages r =
      (.ok (), { r with messages := r.messages ++ messages }) := by
  induction messages generalizing r with
  | nil => simp [Publish.all]
  | cons m messages ih =>
    have haccept : Recorder.publish r m = (.ok (), r.accept m) := by simp [publish, h]
    rw [Publish.all, haccept]
    simpa [accept] using ih (r := r.accept m) h

theorem Recorder.accepts_new : Publish.Accepts Recorder.publish .new := by
  intro messages
  rw [publish_all rfl]

structure Meaning (relations : List (RelationId × Relation))
    (transactions : List RecordedTransaction) (sound : List (Timestamp × List Action)) : Prop where
  read : (transactions.take sound.length).map (·.read? relations) = sound.map some
  flaw : ∀ t, transactions[sound.length]? = some t → t.Flaw relations

theorem meaning_nil (relations : List (RelationId × Relation)) : Meaning relations [] [] :=
  ⟨rfl, by simp⟩

theorem meaning_of_flaw {relations : List (RelationId × Relation)} {t : RecordedTransaction}
    (h : t.read? relations = none) (rest : List RecordedTransaction) :
    Meaning relations (t :: rest) [] := by
  refine ⟨rfl, fun t' ht => ?_⟩
  obtain rfl : t = t' := by simpa using ht
  exact RecordedTransaction.read?_eq_none_iff.1 h

theorem Meaning.cons {relations : List (RelationId × Relation)} {t : RecordedTransaction}
    {rest : List RecordedTransaction} {x : Timestamp × List Action}
    {sound : List (Timestamp × List Action)} (hx : t.read? relations = some x)
    (h : Meaning relations rest sound) : Meaning relations (t :: rest) (x :: sound) :=
  ⟨by simp [hx, h.read], by simpa using h.flaw⟩

namespace Replay

variable {σ : Type} {publish : Publish σ} {router : Router} {filter : Filter}
  {schedule : Schedule} {relations : List (RelationId × Relation)}

structure Ready (relations : List (RelationId × Relation)) (x : Replay σ) : Prop where
  knows : x.session.Knows relations
  idle : x.session.Idle
  blank : x.session.resources.pool.Blank
  uncancelled : x.cancelled = false

structure Progress (publish : Publish σ) (router : Router) (filter : Filter)
    (sound : List (Timestamp × List Action)) (events : List Event) (x y : Replay σ) : Prop where
  emitted : events.map Event.anonymous = sound.flatMap fun t => filter.emitted t.1 t.2
  handed : publish.all (events.map router.message) x.publisher = (.ok (), y.publisher)
  noted : y.session.resources.monitor =
    x.session.resources.monitor.noteAll (sound.flatMap fun t => filter.dropped t.1 t.2)
  transactions : y.transactions = x.transactions + sound.length
  published : y.published = x.published + events.length

theorem Progress.trans {sound more : List (Timestamp × List Action)} {events others : List Event}
    {x y z : Replay σ} (h : Progress publish router filter sound events x y)
    (h' : Progress publish router filter more others y z) :
    Progress publish router filter (sound ++ more) (events ++ others) x z where
  emitted := by rw [List.map_append, List.flatMap_append, h.emitted, h'.emitted]
  handed := by rw [List.map_append, Publish.all_append h.handed, h'.handed]
  noted := by rw [h'.noted, h.noted, List.flatMap_append, Monitor.noteAll_append]
  transactions := by rw [h'.transactions, h.transactions, List.length_append]; omega
  published := by rw [h'.published, h.published, List.length_append]; omega

theorem progress_refl {x y : Replay σ} (hp : y.publisher = x.publisher)
    (hm : y.session.resources.monitor = x.session.resources.monitor)
    (ht : y.transactions = x.transactions) (hc : y.published = x.published) :
    Progress publish router filter [] [] x y :=
  ⟨rfl, by simp [Publish.all, hp], hm, ht, hc⟩

theorem pause_eq (hm : ¬ schedule.Cancels) (x : Replay σ) :
    x.pause schedule = { x with moment := x.moment.next } := by
  have hmoves : .cancel ∉ schedule x.moment := fun h => hm ⟨_, h⟩
  simp [pause, hmoves]

variable (publish router filter)

/-- A transaction with a flaw ends the replay before any of its events is published. -/
theorem runAll_of_flaw (hm : ¬ schedule.Cancels) {x : Replay σ} (hx : x.Ready relations)
    {t : RecordedTransaction} (hread : t.read? relations = none) (index : Nat)
    (rest : List RecordedTransaction) :
    ∃ cause y, runAll schedule publish router filter index (t :: rest) x =
        (.error (.transaction index cause), y) ∧
      Progress publish router filter [] [] x y ∧ y.session.relations = x.session.relations := by
  have hc := hx.uncancelled
  cases hload : x.session.loadTransaction t with
  | error e =>
    refine ⟨e, { x with moment := x.moment.next }, ?_, progress_refl rfl rfl rfl rfl, rfl⟩
    simp [runAll, pause_eq hm, hc, hload]
  | ok s =>
    obtain ⟨hresources, hrelations, htime⟩ :=
      Session.commitTime_of_read hx.knows hx.idle hread hload
    -- The row changes could be read, but there is no commit time to open a stream with.
    refine ⟨.session .missingCommitTime,
      { x with session := s, moment := x.moment.next.next }, ?_, ?_, hrelations⟩
    · simp [runAll, pause_eq hm, hc, hload, relayLoaded, Session.openStream, htime]
    · exact progress_refl rfl (congrArg Resources.monitor hresources) rfl rfl

/-- A transaction without a flaw is published as a whole before the next one is loaded. -/
theorem runAll_of_read (hm : ¬ schedule.Cancels) {x : Replay σ} (hx : x.Ready relations)
    (haccept : publish.Accepts x.publisher) {t : RecordedTransaction} {time : Timestamp}
    {actions : List Action} (hread : t.read? relations = some (time, actions)) (index : Nat)
    (rest : List RecordedTransaction) :
    ∃ events y, runAll schedule publish router filter index (t :: rest) x =
        runAll schedule publish router filter (index + 1) rest y ∧
      Progress publish router filter [(time, actions)] events x y ∧ y.Ready relations := by
  have hc : (x.pause schedule).cancelled = false := by
    rw [pause_eq hm]
    exact hx.uncancelled
  obtain ⟨session, hload, hresources, hrelations, htime, rfl⟩ :=
    Session.loadTransaction_of_read hx.knows hx.idle hread
  obtain ⟨taken, events, result, y, hrelay, h⟩ := relayLoaded_relayed schedule publish router
    filter hx.blank hresources hrelations htime index
  obtain rfl := haccept.result_eq h.handed
  have hy : y.cancelled = false := by
    have hasked := (asked_loaded x session).trans
      (asked_relayLoaded schedule publish router filter index (x.loaded schedule session))
    rw [hrelay] at hasked
    exact (hasked.uncancelled hm).trans hx.uncancelled
  obtain ⟨rfl, hwhole, -⟩ := h.whole rfl hy
  obtain ⟨hidle, htransactions, hpublished⟩ := h.counts rfl
  refine ⟨events, y, ?_, ⟨?_, h.handed, ?_, htransactions, hpublished⟩, ?_, hidle, h.blank, hy⟩
  · rw [runAll_of_loaded schedule publish router filter hc hload, hrelay]
    rfl
  · rw [hwhole, Filter.numbered_anonymous, List.flatMap_singleton]
  · rw [List.flatMap_singleton]
    exact h.noted
  · intro id
    rw [h.relations]
    exact hx.knows id

theorem runAll_spec (hm : ¬ schedule.Cancels) {x : Replay σ} (hx : x.Ready relations)
    (haccept : publish.Accepts x.publisher) (index : Nat)
    (transactions : List RecordedTransaction) :
    let y := runAll schedule publish router filter index transactions x
    ∃ sound events, Meaning relations transactions sound ∧
      Progress publish router filter sound events x y.2 ∧ y.2.session.Knows relations ∧
      (sound.length = transactions.length → y.1 = .ok () ∧ y.2.cancelled = false) ∧
      (sound.length < transactions.length →
        ∃ cause, y.1 = .error (.transaction (index + sound.length) cause)) := by
  induction transactions generalizing x index with
  | nil =>
    refine ⟨[], [], meaning_nil relations, ?_⟩
    rw [runAll, pause_eq hm]
    exact ⟨progress_refl rfl rfl rfl rfl, hx.knows, fun _ => ⟨rfl, hx.uncancelled⟩, by simp⟩
  | cons t rest ih =>
    cases hread : t.read? relations with
    | none =>
      obtain ⟨cause, y, hrun, hprogress, hrelations⟩ :=
        runAll_of_flaw publish router filter hm hx hread index rest
      refine ⟨[], [], meaning_of_flaw hread rest, ?_⟩
      rw [hrun]
      refine ⟨hprogress, fun id => ?_, by simp, fun _ => ⟨cause, rfl⟩⟩
      rw [hrelations]
      exact hx.knows id
    | some meant =>
      obtain ⟨time, actions⟩ := meant
      obtain ⟨events, y, hrun, hprogress, hy⟩ :=
        runAll_of_read publish router filter hm hx haccept hread index rest
      obtain ⟨sound, others, hmeaning, hprogress', hknows, hok, herror⟩ :=
        ih hy (haccept.all hprogress.handed) (index + 1)
      refine ⟨(time, actions) :: sound, events ++ others, hmeaning.cons hread, ?_⟩
      rw [hrun]
      refine ⟨hprogress.trans hprogress', hknows, fun hl => hok ?_, fun hl => ?_⟩
      · simpa using hl
      · obtain ⟨cause, hcause⟩ := herror (by simpa using hl)
        refine ⟨cause, hcause.trans ?_⟩
        rw [List.length_cons, Nat.add_right_comm, Nat.add_assoc]

variable {publish}

@[simp] theorem resources_start (r : Recording) (resources : Resources) (publisher : σ)
    (cancelled : Bool) : (start r resources publisher cancelled).session.resources = resources := by
  rw [start, Session.registerAll_eq]
  rfl

theorem ready_start (r : Recording) (monitor : Monitor) (nextId : Nat) (publisher : σ) :
    (start r ⟨.empty, monitor, nextId⟩ publisher false).Ready r.relations := by
  refine ⟨Session.knows_registerAll _ r.relations, ?_, ?_, rfl⟩
  · rw [start, Session.registerAll_eq]
    exact ⟨rfl, rfl⟩
  · rw [resources_start]
    exact Pool.blank_empty

def smallConfig : Config where
  listener := ⟨[], ⟨[("users", ["insert"])], []⟩⟩
  publisher := ⟨"wal", ""⟩
  logger := ⟨"info"⟩

def smallTransaction : RecordedTransaction where
  xid := some 7
  position := none
  beginTime := none
  commitTime := some .epoch
  actions := [⟨1, "insert", [], [.text "ada"]⟩, ⟨1, "delete", [.text "ada"], []⟩]

/-- The second transaction was never committed. -/
def smallRecording : Recording where
  relations := [(1, ⟨"public", "users", [⟨"name", 25, -1, true⟩]⟩)]
  transactions := [smallTransaction, { smallTransaction with commitTime := none }]

def smallInsert : Action := ⟨"public", "users", .insert, [], [⟨"name", .str "ada", true⟩]⟩

def smallDelete : Action := ⟨"public", "users", .delete, [⟨"name", .str "ada", true⟩], []⟩

end Replay
end Changefeed
