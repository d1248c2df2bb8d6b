import Changefeed.Proofs.Delivery
import Changefeed.Relay

/-!
# What a relay does to a stream

Between its start and its end a relay brings a stream from state to state: the pass makes a step,
the stream is cancelled, the relay receives an event, or it gives the event that it holds back
(`Course`). The events that it receives are the ones that it hands to the publisher, up to the first
that is refused (`Publish.all`). At a good end the pass has ended and nothing waits in the channel.
-/

namespace Changefeed

def Publish.all {σ : Type} (publish : Publish σ) : List Message → σ → Except PublishError Unit × σ
  | [], p => (.ok (), p)
  | m :: messages, p =>
    match publish p m with
    | (.ok (), p) => publish.all messages p
    | failed => failed

theorem Publish.all_append {σ : Type} {publish : Publish σ} {messages : List Message} {p q : σ}
    (h : publish.all messages p = (.ok (), q)) (more : List Message) :
    publish.all (messages ++ more) p = publish.all more q := by
  induction messages generalizing p with
  | nil =>
    cases h
    rfl
  | cons m messages ih =>
    simp only [List.cons_append, Publish.all] at h ⊢
    cases hp : publish p m with
    | mk result p' =>
      cases result with
      | error e => simp [hp] at h
      | ok =>
        simp only [hp] at h ⊢
        exact ih h

theorem Publish.all_dropLast {σ : Type} {publish : Publish σ} {messages : List Message} {p q : σ}
    (h : publish.all messages p = (.ok (), q)) : (publish.all messages.dropLast p).1 = .ok () := by
  induction messages generalizing p with
  | nil => rfl
  | cons m messages ih =>
    simp only [all] at h
    cases hp : publish p m with
    | mk result p' =>
      cases result with
      | error e => simp [hp] at h
      | ok =>
        simp only [hp] at h
        cases messages with
        | nil => rfl
        | cons m' messages => simpa [all, hp] using ih h

theorem Publish.all_dropLast_append {σ : Type} {publish : Publish σ} {messages more : List Message}
    {p q : σ} (h : publish.all messages p = (.ok (), q))
    (hmore : (publish.all more.dropLast q).1 = .ok ()) :
    (publish.all (messages ++ more).dropLast p).1 = .ok () := by
  cases more with
  | nil =>
    rw [List.append_nil]
    exact all_dropLast h
  | cons m more =>
    rw [List.dropLast_append_cons, all_append h]
    exact hmore

def Publish.Accepts {σ : Type} (publish : Publish σ) (p : σ) : Prop :=
  ∀ messages, (publish.all messages p).1 = .ok ()

theorem Publish.Accepts.result_eq {σ : Type} {publish : Publish σ} {p q : σ}
    (h : publish.Accepts p) {messages : List Message} {result : Except PublishError Unit}
    (hq : publish.all messages p = (result, q)) : result = .ok () := by
  have hok := h messages
  rw [hq] at hok
  exact hok

theorem Publish.Accepts.all {σ : Type} {publish : Publish σ} {p q : σ} (h : publish.Accepts p)
    {messages : List Message} (hq : publish.all messages p = (.ok (), q)) :
    publish.Accepts q := by
  intro more
  rw [← all_append hq]
  exact h _

namespace Stream

/-- The states that a relay can bring a stream to, with the event that it holds and the events that
it has received so far. -/
inductive Course (mayCancel : Prop) (r₀ : Resources) (s₀ : Stream) :
    Resources → Stream → Option Event → List Event → Prop
  | start : Course mayCancel r₀ s₀ r₀ s₀ none []
  | step {r r' : Resources} {s s' : Stream} {held : Option Event} {given : List Event}
    (h : Course mayCancel r₀ s₀ r s held given) (hs : Step r s r' s') :
    Course mayCancel r₀ s₀ r' s' held given
  | cancel {r : Resources} {s : Stream} {held : Option Event} {given : List Event}
    (h : Course mayCancel r₀ s₀ r s held given) (hm : mayCancel) :
    Course mayCancel r₀ s₀ r s.cancel held given
  | receive {r : Resources} {s s' : Stream} {e : Event} {given : List Event}
    (h : Course mayCancel r₀ s₀ r s none given) (hp : s.poll? = some (e, s')) :
    Course mayCancel r₀ s₀ r s' (some e) (given ++ [e])
  | release {r : Resources} {s : Stream} {e : Event} {given : List Event}
    (h : Course mayCancel r₀ s₀ r s (some e) given) :
    Course mayCancel r₀ s₀ (r.release e) s none given

section Course

variable {mayCancel : Prop} {r₀ r : Resources} {s₀ s : Stream} {held : Option Event}
  {given : List Event}

theorem Course.settle (h : Course mayCancel r₀ s₀ r s held given) :
    Course mayCancel r₀ s₀ (s.settle r).1 (s.settle r).2 held given := by
  fun_induction Stream.settle r s with
  | case1 => exact h
  | case2 r s r' s' hs ih => exact ih (h.step (.of_step? hs))

theorem Course.play (h : Course mayCancel r₀ s₀ r s held given) {moves : List Move}
    (hm : .cancel ∈ moves → mayCancel) :
    Course mayCancel r₀ s₀ (s.play r moves).1 (s.play r moves).2 held given := by
  induction moves generalizing r s with
  | nil => exact h
  | cons m moves ih =>
    have hrest : .cancel ∈ moves → mayCancel := fun hc => hm (List.mem_cons_of_mem _ hc)
    cases m with
    | advance =>
      refine ih ?_ hrest
      unfold advance
      cases hs : s.step? r with
      | none => exact h
      | some t => exact h.step (.of_step? hs)
    | cancel => exact ih (h.cancel (hm List.mem_cons_self)) hrest

theorem Course.received (h : Course mayCancel r₀ s₀ r s none given) {e : Event}
    (he : (s.receive r).event? = some e) :
    Course mayCancel r₀ s₀ (s.receive r).resources (s.receive r).stream (some e)
      (given ++ [e]) := by
  unfold Stream.receive at he ⊢
  split
  next e' s' hp =>
    simp only [hp, Option.some.injEq] at he
    subst he
    exact h.receive hp
  next hp =>
    simp only [hp] at he ⊢
    split
    next e' s' hq =>
      simp only [hq, Option.some.injEq] at he
      subst he
      exact h.settle.receive hq
    next hq => simp [hq] at he

theorem step?_settle (r : Resources) (s : Stream) :
    (s.settle r).2.step? (s.settle r).1 = none := by
  fun_induction Stream.settle r s with
  | case1 r s hs => exact hs
  | case2 r s r' s' hs ih => exact ih

theorem Course.finished (h : Course mayCancel r₀ s₀ r s none given)
    (he : (s.receive r).event? = none) :
    Course mayCancel r₀ s₀ (s.receive r).resources (s.receive r).stream none given ∧
      (s.receive r).stream.phase = .ended ∧ (s.receive r).stream.waiting = [] := by
  unfold Stream.receive at he ⊢
  split
  next hp => simp [hp] at he
  next hp =>
    simp only [hp] at he ⊢
    split
    next hq => simp [hq] at he
    next hq =>
      have hempty : (s.settle r).2.waiting = [] := waiting_of_poll?_none hq
      refine ⟨h.settle, ?_, hempty⟩
      rcases eq_of_step?_eq_none (step?_settle r s) with hended | ⟨_, e, _, _, hfull⟩
      · exact hended
      · simp [waiting, hfull] at hempty

theorem Course.cancelled_eq (h : Course mayCancel r₀ s₀ r s held given) (hm : ¬ mayCancel) :
    s.cancelled = s₀.cancelled := by
  induction h with
  | start => rfl
  | step h hs ih => exact hs.cancelled_eq.trans ih
  | cancel h hc ih => exact absurd hc hm
  | receive h hp ih =>
    obtain ⟨_, rfl⟩ := poll?_eq_some_iff.1 hp
    exact ih
  | release h ih => exact ih

theorem Course.open (h : Course mayCancel r₀ s₀ r s held given) (ho : s₀.channel ≠ .closed) :
    s.channel ≠ .closed := by
  induction h with
  | start => exact ho
  | step h hs ih => exact hs.open ih
  | cancel h hc ih => exact ih
  | receive h hp ih =>
    obtain ⟨_, rfl⟩ := poll?_eq_some_iff.1 hp
    simp
  | release h ih => exact ih

theorem Course.delivery {d₀ : Delivery} (h : Course mayCancel r₀ d₀.stream r s held given) :
    ∃ moves d, Delivery.run (r₀, d₀) moves = (r, d) ∧ d.stream = s ∧
      d.received = d₀.received ++ given ∧ d.destroyed = d₀.destroyed := by
  induction h with
  | start => exact ⟨[], d₀, rfl, rfl, by simp, rfl⟩
  | @step r r' s s' held given h hs ih =>
    obtain ⟨moves, d, hrun, rfl, hreceived, hdestroyed⟩ := ih
    refine ⟨moves ++ [.turn .step], d.record (d.stream.made r) s', ?_, rfl, hreceived, hdestroyed⟩
    rw [Delivery.run_concat, hrun]
    simp [Delivery.move, Delivery.act, hs.step?_eq]
  | cancel h hm ih =>
    obtain ⟨moves, d, hrun, rfl, hreceived, hdestroyed⟩ := ih
    refine ⟨moves ++ [.turn .cancel], d.cancel, ?_, rfl, hreceived, hdestroyed⟩
    rw [Delivery.run_concat, hrun]
    rfl
  | @receive r s s' e given h hp ih =>
    obtain ⟨moves, d, hrun, rfl, hreceived, hdestroyed⟩ := ih
    refine ⟨moves ++ [.turn .receive], d.receive, ?_, ?_, ?_, ?_⟩
    · rw [Delivery.run_concat, hrun]
      rfl
    · simp [Delivery.receive, hp]
    · simp [Delivery.receive, hp, hreceived]
    · simp [Delivery.receive, hp, hdestroyed]
  | @release r s e given h ih =>
    obtain ⟨moves, d, hrun, rfl, hreceived, hdestroyed⟩ := ih
    refine ⟨moves ++ [.use (.release e)], d, ?_, rfl, hreceived, hdestroyed⟩
    rw [Delivery.run_concat, hrun]
    rfl

end Course
end Stream

def Schedule.Cancels (schedule : Schedule) : Prop := ∃ m, .cancel ∈ schedule m

theorem Schedule.not_cancels_lazy : ¬ Schedule.lazy.Cancels := by simp [Cancels, lazy]

namespace Relay

def Reached {σ : Type} (schedule : Schedule) (r₀ : Resources) (s₀ : Stream) (given : List Event)
    (x : Relay σ) : Prop :=
  Stream.Course schedule.Cancels r₀ s₀ x.resources x.stream none given

variable {σ : Type} {schedule : Schedule} {publish : Publish σ} {router : Router}

theorem handed {r₀ : Resources} {s₀ : Stream} {given : List Event} {x y : Relay σ} {e : Event}
    {result : Except PublishError Unit}
    (h : Stream.Course schedule.Cancels r₀ s₀ x.resources x.stream (some e) given)
    (hy : x.publishEvent schedule publish router e = (result, y)) :
    y.Reached schedule r₀ s₀ given ∧
      publish x.publisher (router.message e) = (result, y.publisher) ∧
      y.published = x.published := by
  obtain ⟨rfl, rfl⟩ := Prod.mk.inj hy
  exact ⟨(h.play fun hm => ⟨x.moment.hand, hm⟩).release, rfl, rfl⟩

def Rounded (schedule : Schedule) (publish : Publish σ) (router : Router) (r₀ : Resources)
    (s₀ : Stream) (before : List Event) (x : Relay σ) : Round σ → Prop
  | .finished y =>
    y.Reached schedule r₀ s₀ before ∧ y.stream.phase = .ended ∧ y.stream.waiting = [] ∧
      y.publisher = x.publisher ∧ y.published = x.published
  | .failed error y => ∃ e, y.Reached schedule r₀ s₀ (before ++ [e]) ∧
      publish x.publisher (router.message e) = (.error error, y.publisher)
  | .published y => ∃ e, y.Reached schedule r₀ s₀ (before ++ [e]) ∧
      publish x.publisher (router.message e) = (.ok (), y.publisher) ∧
      y.published = x.published + 1

theorem rounded (publish : Publish σ) (router : Router) {r₀ : Resources} {s₀ : Stream}
    {before : List Event} {x : Relay σ} (h : x.Reached schedule r₀ s₀ before) :
    Rounded schedule publish router r₀ s₀ before x (x.round schedule publish router) := by
  have hplay : (x.play schedule).Reached schedule r₀ s₀ before :=
    Stream.Course.play h fun hm => ⟨x.moment, hm⟩
  unfold round
  simp only
  split
  next he =>
    obtain ⟨hcourse, hended, hwaiting⟩ := Stream.Course.finished hplay he
    exact ⟨hcourse, hended, hwaiting, rfl, rfl⟩
  next e he =>
    have hreceived := Stream.Course.received hplay he
    split
    next error y hy =>
      obtain ⟨hreached, hpublish, _⟩ := handed hreceived hy
      exact ⟨e, hreached, hpublish⟩
    next y hy =>
      obtain ⟨hreached, hpublish, hpublished⟩ := handed hreceived hy
      exact ⟨e, hreached, hpublish, congrArg (· + 1) hpublished⟩

structure Outcome (schedule : Schedule) (publish : Publish σ) (router : Router) (r₀ : Resources)
    (s₀ : Stream) (before given : List Event) (x y : Relay σ)
    (result : Except PublishError Unit) : Prop where
  stream : ∃ s, Stream.Course schedule.Cancels r₀ s₀ y.resources s none (before ++ given) ∧
    y.stream = s.close ∧ (result = .ok () → s.phase = .ended ∧ s.waiting = [])
  publisher : publish.all (given.map router.message) x.publisher = (result, y.publisher)
  published : result = .ok () → y.published = x.published + given.length
  /-- After a message that is refused no other is handed over. -/
  last : (publish.all (given.map router.message).dropLast x.publisher).1 = .ok ()

theorem outcome (publish : Publish σ) (router : Router) {r₀ : Resources} {s₀ : Stream}
    {before : List Event} {x : Relay σ} (h : x.Reached schedule r₀ s₀ before) :
    ∃ given, Outcome schedule publish router r₀ s₀ before given x
      (x.run schedule publish router).2 (x.run schedule publish router).1 := by
  fun_induction Relay.run schedule publish router x generalizing before with
  | case1 x y hy =>
    have hround := rounded publish router h
    rw [hy] at hround
    obtain ⟨hreached, hended, hwaiting, hpublisher, hpublished⟩ := hround
    refine ⟨[], ⟨y.stream, ?_, rfl, fun _ => ⟨hended, hwaiting⟩⟩, ?_, fun _ => hpublished, rfl⟩
    · rw [List.append_nil]
      exact hreached
    · simp [Publish.all, hpublisher]
  | case2 x error y hy =>
    have hround := rounded publish router h
    rw [hy] at hround
    obtain ⟨e, hreached, hpublish⟩ := hround
    refine ⟨[e], ⟨y.stream, hreached, rfl, nofun⟩, ?_, nofun, rfl⟩
    simp [Publish.all, hpublish]
  | case3 x y hy ih =>
    have hround := rounded publish router h
    rw [hy] at hround
    obtain ⟨e, hreached, hpublish, hpublished⟩ := hround
    -- The event of this round comes before those of the rounds that follow.
    obtain ⟨given, ⟨s, hcourse, hclose, hended⟩, hall, hcount, hlast⟩ := ih hreached
    refine ⟨e :: given, ⟨s, ?_, hclose, hended⟩, ?_, fun hok => ?_, ?_⟩
    · rw [List.append_cons]
      exact hcourse
    · simp [Publish.all, hpublish, hall]
    · rw [hcount hok, hpublished, List.length_cons]
      omega
    · cases given with
      | nil => rfl
      | cons e' given => simpa [Publish.all, hpublish] using hlast

end Relay
end Changefeed
