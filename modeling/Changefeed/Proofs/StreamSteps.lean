import Changefeed.Stream

/-!
# The steps of a pass

What one step of a pass can do, said once (`Step`): it ends, it takes an action and drops or keeps
the event, or it disposes of the event in hand. Beside it stands what a whole pass has to do: the
events that the actions become (`Filter.emitted`) and the tables of those that the filter refuses
(`Filter.dropped`). Events are compared without their identifiers.
-/

namespace Changefeed

namespace Event

def anonymous (e : Event) : Event := { e with id := .nil }

end Event

/-- The event that an action becomes, without identifier. -/
def Action.event (a : Action) (time : Timestamp) : Event := Event.blank.fill .nil a time

namespace Filter

def passes (f : Filter) (time : Timestamp) (a : Action) : Bool :=
  (f.evaluate (a.event time)).passed

def emitted (f : Filter) (time : Timestamp) (actions : List Action) : List Event :=
  (actions.filter (f.passes time)).map (·.event time)

def dropped (f : Filter) (time : Timestamp) (actions : List Action) : List String :=
  (actions.filter (!f.passes time ·)).map (·.table)

theorem emitted_append (f : Filter) (time : Timestamp) (as bs : List Action) :
    f.emitted time (as ++ bs) = f.emitted time as ++ f.emitted time bs := by
  simp [emitted]

theorem dropped_append (f : Filter) (time : Timestamp) (as bs : List Action) :
    f.dropped time (as ++ bs) = f.dropped time as ++ f.dropped time bs := by
  simp [dropped]

theorem emitted_singleton (f : Filter) (time : Timestamp) (a : Action) :
    f.emitted time [a] = if f.passes time a then [a.event time] else [] := by
  by_cases h : f.passes time a = true <;> simp [emitted, h]

theorem dropped_singleton (f : Filter) (time : Timestamp) (a : Action) :
    f.dropped time [a] = if f.passes time a then [] else [a.table] := by
  by_cases h : f.passes time a = true <;> simp [dropped, h]

end Filter

def Monitor.noteAll (m : Monitor) (tables : List String) : Monitor := tables.foldl note m

theorem Monitor.noteAll_append (m : Monitor) (tables more : List String) :
    m.noteAll (tables ++ more) = (m.noteAll tables).noteAll more :=
  List.foldl_append

theorem Monitor.get_noteAll_counting (skips : SkipCount) (tables : List String)
    (table : String) : ((Monitor.counting skips).noteAll tables).skips.get table =
      skips.get table + tables.count table := by
  induction tables generalizing skips with
  | nil => simp [noteAll, Monitor.skips]
  | cons t tables ih =>
    have hstep : (Monitor.counting skips).noteAll (t :: tables) =
        (Monitor.counting (skips.increment t)).noteAll tables := rfl
    rw [hstep, ih]
    by_cases ht : t = table
    · subst ht
      rw [SkipCount.get_increment_self, List.count_cons_self]
      omega
    · rw [SkipCount.get_increment_of_ne _ ht, List.count_cons_of_ne ht]

namespace Resources

variable {r : Resources}

theorem draw_event (h : r.pool.Blank) (a : Action) (time : Timestamp) :
    (r.draw a time).1 = Event.blank.fill (.version4 r.nextId) a time := by
  simp only [draw, (Pool.Blank.acquire h).1]

theorem draw_blank (h : r.pool.Blank) (a : Action) (time : Timestamp) :
    (r.draw a time).2.pool.Blank :=
  (Pool.Blank.acquire h).2

theorem release_blank (h : r.pool.Blank) (e : Event) : (r.release e).pool.Blank :=
  Pool.Blank.release h e

theorem drop_blank (h : r.pool.Blank) (e : Event) : (r.drop e).pool.Blank :=
  Pool.Blank.release h e

end Resources

inductive Ending
  | exhausted
  | cancelled
  | deserted
deriving DecidableEq, Repr

namespace Stream

def inHand (s : Stream) : List Event :=
  match s.phase with
  | .sending e => [e]
  | _ => []

def waiting (s : Stream) : List Event :=
  match s.channel with
  | .full e => [e]
  | _ => []

theorem poll?_eq_some_iff {s s' : Stream} {e : Event} :
    s.poll? = some (e, s') ↔ s.channel = .full e ∧ { s with channel := .free } = s' := by
  unfold poll?
  cases hc : s.channel <;> simp

theorem waiting_of_poll? {s s' : Stream} {e : Event} (h : s.poll? = some (e, s')) :
    s.waiting = [e] := by
  simp [waiting, (poll?_eq_some_iff.1 h).1]

theorem waiting_of_poll?_none {s : Stream} (h : s.poll? = none) : s.waiting = [] := by
  unfold poll? at h
  cases hc : s.channel with
  | full e => simp [hc] at h
  | free => simp [waiting, hc]
  | closed => simp [waiting, hc]

def ending? (s : Stream) : Option Ending :=
  match s.phase with
  | .taking =>
    if s.pending.isEmpty then some .exhausted
    else if s.cancelled then some .cancelled
    else none
  | .sending _ =>
    if s.cancelled then some .cancelled
    else match s.channel with
      | .closed => some .deserted
      | _ => none
  | .ended => none

def next? (s : Stream) : Option Action :=
  match s.phase with
  | .taking => if s.cancelled then none else s.pending.head?
  | _ => none

def made (r : Resources) (s : Stream) : List (Event × Verdict) :=
  (s.next?.map fun a =>
    let e := (r.draw a s.time).1
    (e, s.filter.evaluate e)).toList

def kept (r : Resources) (s : Stream) : List Event :=
  ((s.made r).filter (·.2.passed)).map Prod.fst

/-- All that a step can do, with the conditions under which it does it. -/
inductive Step (r : Resources) (s : Stream) : Resources → Stream → Prop
  | exhaust (hp : s.phase = .taking) (hn : s.pending = []) :
    Step r s r { s with phase := .ended }
  | halt {a : Action} {rest : List Action} (hp : s.phase = .taking) (hn : s.pending = a :: rest)
    (hc : s.cancelled = true) : Step r s r { s with phase := .ended }
  | hold {a : Action} {rest : List Action} (hp : s.phase = .taking) (hn : s.pending = a :: rest)
    (hc : s.cancelled = false)
    (hf : (s.filter.evaluate (r.draw a s.time).1).passed = true) :
    Step r s (r.draw a s.time).2 { s with pending := rest, phase := .sending (r.draw a s.time).1 }
  | skip {a : Action} {rest : List Action} (hp : s.phase = .taking) (hn : s.pending = a :: rest)
    (hc : s.cancelled = false)
    (hf : (s.filter.evaluate (r.draw a s.time).1).passed = false) :
    Step r s ((r.draw a s.time).2.drop (r.draw a s.time).1) { s with pending := rest }
  | withdraw {e : Event} (hp : s.phase = .sending e) (hc : s.cancelled = true) :
    Step r s (r.release e) { s with phase := .ended }
  | send {e : Event} (hp : s.phase = .sending e) (hc : s.cancelled = false)
    (hfree : s.channel = .free) : Step r s r { s with phase := .taking, channel := .full e }
  | desert {e : Event} (hp : s.phase = .sending e) (hc : s.cancelled = false)
    (hclosed : s.channel = .closed) : Step r s (r.release e) { s with phase := .ended }

theorem Step.of_step? {r r' : Resources} {s s' : Stream} (h : s.step? r = some (r', s')) :
    Step r s r' s' := by
  unfold Stream.step? at h
  split at h
  next hp =>
    simp only [Option.some.injEq] at h
    unfold take at h
    split at h
    next hn =>
      cases h
      exact .exhaust hp hn
    next a rest hn =>
      cases hc : s.cancelled with
      | true =>
        rw [if_pos hc] at h
        cases h
        exact .halt hp hn hc
      | false =>
        rw [if_neg (by simp [hc])] at h
        dsimp only at h
        split at h
        next hf =>
          cases h
          exact .hold hp hn hc hf
        next hf =>
          cases h
          exact .skip hp hn hc (by simpa using hf)
  next e hp =>
    unfold send? at h
    cases hc : s.cancelled with
    | true =>
      rw [if_pos hc] at h
      cases h
      exact .withdraw hp hc
    | false =>
      rw [if_neg (by simp [hc])] at h
      split at h
      next hfree =>
        cases h
        exact .send hp hc hfree
      next => cases h
      next hclosed =>
        cases h
        exact .desert hp hc hclosed
  next => cases h

theorem Step.step?_eq {r r' : Resources} {s s' : Stream} (h : Step r s r' s') :
    s.step? r = some (r', s') := by
  cases h with
  | exhaust hp hn => simp [Stream.step?, hp, take, hn]
  | halt hp hn hc => simp [Stream.step?, hp, take, hn, hc]
  | hold hp hn hc hf => simp [Stream.step?, hp, take, hn, hc, hf]
  | skip hp hn hc hf => simp [Stream.step?, hp, take, hn, hc, hf]
  | withdraw hp hc => simp [Stream.step?, hp, send?, hc]
  | send hp hc hfree => simp [Stream.step?, hp, send?, hc, hfree]
  | desert hp hc hclosed => simp [Stream.step?, hp, send?, hc, hclosed]

theorem Step.blank {r r' : Resources} {s s' : Stream} (h : Step r s r' s') (hb : r.pool.Blank) :
    r'.pool.Blank := by
  have hdraw := fun a => Resources.draw_blank hb a s.time
  cases h with
  | @hold a rest => exact hdraw a
  | @skip a rest => exact Resources.drop_blank (hdraw a) (r.draw a s.time).1
  | @withdraw e => exact Resources.release_blank hb e
  | @desert e => exact Resources.release_blank hb e
  | _ => exact hb

theorem Step.filter_eq {r r' : Resources} {s s' : Stream} (h : Step r s r' s') :
    s'.filter = s.filter := by
  cases h <;> rfl

theorem Step.time_eq {r r' : Resources} {s s' : Stream} (h : Step r s r' s') :
    s'.time = s.time := by
  cases h <;> rfl

theorem Step.judges {r r' : Resources} {s s' : Stream} (h : Step r s r' s') :
    (s.kept r = [] ∧ s'.pending = s.pending ∧ r'.nextId = r.nextId ∧ r'.monitor = r.monitor) ∨
      ∃ a, s.pending = a :: s'.pending ∧ r'.nextId = r.nextId + 1 ∧
        let e := (r.draw a s.time).1
        (s.kept r = if (s.filter.evaluate e).passed then [e] else []) ∧
          r'.monitor =
            if (s.filter.evaluate e).passed then r.monitor else r.monitor.note e.table := by
  cases h with
  | exhaust hp hn => exact .inl ⟨by simp [kept, made, next?, hp, hn], rfl, rfl, rfl⟩
  | halt hp hn hc => exact .inl ⟨by simp [kept, made, next?, hp, hc], rfl, rfl, rfl⟩
  | @hold a rest hp hn hc hf =>
    exact .inr ⟨a, hn, rfl, by simp [kept, made, next?, hp, hn, hc, hf], (if_pos hf).symm⟩
  | @skip a rest hp hn hc hf =>
    refine .inr ⟨a, hn, rfl, by simp [kept, made, next?, hp, hn, hc, hf], ?_⟩
    rw [hf]
    rfl
  | withdraw hp hc => exact .inl ⟨by simp [kept, made, next?, hp], rfl, rfl, rfl⟩
  | send hp hc hfree => exact .inl ⟨by simp [kept, made, next?, hp], rfl, rfl, rfl⟩
  | desert hp hc hclosed => exact .inl ⟨by simp [kept, made, next?, hp], rfl, rfl, rfl⟩

theorem Step.cancelled_eq {r r' : Resources} {s s' : Stream} (h : Step r s r' s') :
    s'.cancelled = s.cancelled := by
  cases h <;> rfl

theorem Step.open {r r' : Resources} {s s' : Stream} (h : Step r s r' s')
    (ho : s.channel ≠ .closed) : s'.channel ≠ .closed := by
  cases h with
  | send hp hc hfree => simp
  | _ => exact ho

/-- A pass that makes no step has ended, or it waits with an event for the channel. -/
theorem eq_of_step?_eq_none {r : Resources} {s : Stream} (h : s.step? r = none) :
    s.phase = .ended ∨
      ∃ e waits, s.phase = .sending e ∧ s.cancelled = false ∧ s.channel = .full waits := by
  unfold Stream.step? at h
  split at h
  next => cases h
  next e hp =>
    unfold send? at h
    split at h
    next => cases h
    next hc =>
      split at h
      next => cases h
      next waits hfull => exact .inr ⟨e, waits, hp, by simpa using hc, hfull⟩
      next => cases h
  next hp => exact .inl hp

end Stream
end Changefeed
