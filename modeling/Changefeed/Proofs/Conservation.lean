import Changefeed.Proofs.Traffic

/-!
# No event is lost

Every event that was ever made for a pool waits in it, or one knows where it is: in the hand of a
pass, in a channel, with a holder, or destroyed together with a receiver. This is kept by every
move of the passes that share the pool, of their receivers and of the holders, and by the relays
that receive from a stream in the midst of all that (`Traffic.Relaying`).
-/

namespace Changefeed

namespace Pool

/-- So many of the events that were made for the pool are elsewhere. -/
def Lacks (p : Pool) (n : Nat) : Prop := p.allocated = p.available + n

theorem lacks_withCapacity (count : Nat) : (withCapacity count).Lacks 0 := by
  simp [Lacks, withCapacity, available]

theorem Lacks.acquire {p : Pool} {n : Nat} (h : p.Lacks n) : p.acquire.2.Lacks (n + 1) := by
  obtain ⟨free, allocated⟩ := p
  cases free with
  | nil => simpa [Lacks, available, Pool.acquire] using h
  | cons e free =>
    simp only [Lacks, available, List.length_cons] at h
    simp only [Lacks, available, Pool.acquire]
    omega

theorem Lacks.release {p : Pool} {n : Nat} (h : p.Lacks (n + 1)) (e : Event) :
    (p.release e).Lacks n := by
  simp only [Lacks, available] at h
  simp only [Lacks, available, Pool.release, List.length_cons]
  omega

end Pool

namespace Stream

def inside (s : Stream) : Nat := s.inHand.length + s.waiting.length

theorem inside_of_taking {s : Stream} (h : s.phase = .taking) : s.inside = s.waiting.length := by
  simp [inside, inHand, h]

theorem inside_of_sending {s : Stream} {e : Event} (h : s.phase = .sending e) :
    s.inside = s.waiting.length + 1 := by
  simp [inside, inHand, h, Nat.add_comm]

theorem inside_of_ended {s : Stream} (h : s.phase = .ended) : s.inside = s.waiting.length := by
  simp [inside, inHand, h]

theorem waiting_length_le (s : Stream) : s.waiting.length ≤ 1 := by
  unfold waiting
  split <;> simp

theorem inside_le (s : Stream) : s.inside ≤ 2 := by
  have hwaiting := s.waiting_length_le
  cases hp : s.phase with
  | taking =>
    rw [inside_of_taking hp]
    omega
  | sending e =>
    rw [inside_of_sending hp]
    omega
  | ended =>
    rw [inside_of_ended hp]
    omega

theorem Step.lacks {r r' : Resources} {s s' : Stream} {n : Nat} (h : Step r s r' s')
    (hr : r.pool.Lacks (n + s.inside)) : r'.pool.Lacks (n + s'.inside) := by
  cases h with
  | exhaust hp hn =>
    rw [inside_of_taking hp] at hr
    rw [inside_of_ended rfl]
    exact hr
  | halt hp hn hc =>
    rw [inside_of_taking hp] at hr
    rw [inside_of_ended rfl]
    exact hr
  | hold hp hn hc hf =>
    rw [inside_of_taking hp] at hr
    rw [inside_of_sending rfl]
    exact hr.acquire
  | @skip a rest hp hn hc hf =>
    rw [inside_of_taking hp] at hr
    rw [inside_of_taking (by exact hp)]
    exact hr.acquire.release (r.draw a s.time).1
  | @withdraw e hp hc =>
    rw [inside_of_sending hp] at hr
    rw [inside_of_ended rfl]
    exact hr.release e
  | send hp hc hfree =>
    rw [inside_of_sending hp] at hr
    rw [inside_of_taking rfl]
    simpa [waiting, hfree] using hr
  | @desert e hp hc hclosed =>
    rw [inside_of_sending hp] at hr
    rw [inside_of_ended rfl]
    exact hr.release e

theorem inside_poll? {s s' : Stream} {e : Event} (h : s.poll? = some (e, s')) :
    s.inside = s'.inside + 1 := by
  obtain ⟨hfull, rfl⟩ := poll?_eq_some_iff.1 h
  simp [inside, inHand, waiting, hfull]

end Stream

namespace Delivery

def lent (d : Delivery) : Nat := d.stream.inside + d.destroyed.length

theorem act_lacks {r : Resources} {d : Delivery} {n : Nat} (h : r.pool.Lacks (n + d.lent))
    (t : Turn) : (d.act r t).1.pool.Lacks (n + (d.act r t).2.lent + (d.delivered t).length) := by
  cases t with
  | step =>
    simp only [act]
    split
    next r' s hs =>
      have hinside : r.pool.Lacks (n + d.destroyed.length + d.stream.inside) := by
        simpa [lent, Nat.add_assoc, Nat.add_comm, Nat.add_left_comm] using h
      have hstep := (Stream.Step.of_step? hs).lacks hinside
      simpa [lent, record, delivered, Nat.add_assoc, Nat.add_comm, Nat.add_left_comm] using hstep
    next => simpa [delivered] using h
  | receive =>
    simp only [act, receive]
    split
    next e s hp =>
      have hinside := Stream.inside_poll? hp
      have hwaiting := Stream.waiting_of_poll? hp
      simp only [lent, hinside] at h
      simpa [lent, delivered, hwaiting, Nat.add_assoc, Nat.add_comm, Nat.add_left_comm] using h
    next hp => simpa [delivered, Stream.waiting_of_poll?_none hp] using h
  | cancel => exact h
  | drop =>
    -- What waits in the channel is counted among the destroyed events from now on.
    simpa [lent, act, drop, delivered, Stream.inside, Stream.close, Stream.inHand,
      Stream.waiting, Nat.add_assoc, Nat.add_comm, Nat.add_left_comm] using h

theorem act_coherent {d : Delivery} (h : d.Coherent) (r : Resources) (t : Turn) :
    (d.act r t).2.Coherent := by
  cases t with
  | step =>
    simp only [act]
    split
    next r' s hs => exact h.record (.of_step? hs) _
    next => exact h
  | receive => exact h.receive
  | cancel => exact h.cancel
  | drop => exact h.drop

def AtEnd (d : Delivery) : Prop := d.stream.phase = .ended ∧ d.stream.channel = .free

structure Settled (d : Delivery) : Prop where
  ended : d.stream.phase = .ended
  waiting : d.stream.waiting = []
  destroyed : d.destroyed = []

theorem AtEnd.settled {d : Delivery} (h : d.AtEnd) (hd : d.Coherent) : d.Settled := by
  exact ⟨h.1, by simp [Stream.waiting, h.2], hd.destroyed_eq_nil (by simp [h.2])⟩

theorem Settled.lent {d : Delivery} (h : d.Settled) : d.lent = 0 := by
  simp [Delivery.lent, Stream.inside_of_ended h.ended, h.waiting, h.destroyed]

theorem Settled.act {d : Delivery} (h : d.Settled) (r : Resources) (t : Turn) :
    (d.act r t).2.Settled := by
  have hwaiting := h.waiting
  cases t with
  | step =>
    have hnone : d.stream.step? r = none := by simp [Stream.step?, h.ended]
    simpa [Delivery.act, hnone] using h
  | receive =>
    simp only [Delivery.act, Delivery.receive]
    split
    next e s hp => simp [Stream.waiting_of_poll? hp] at hwaiting
    next => exact h
  | cancel => exact ⟨h.ended, h.waiting, h.destroyed⟩
  | drop =>
    refine ⟨h.ended, rfl, ?_⟩
    simp [Delivery.act, Delivery.drop, h.destroyed, hwaiting]

/-- What is destroyed was in the channel, and nothing comes into a channel that is closed. -/
theorem Coherent.waiting_destroyed_le {d : Delivery} (h : d.Coherent) :
    d.stream.waiting.length + d.destroyed.length ≤ 1 := by
  have hdestroyed := h.destroyed_length
  cases hc : d.stream.channel with
  | full e =>
    have hnone := h.destroyed_eq_nil (by simp [hc])
    simp [Stream.waiting, hc, hnone]
  | free => simpa [Stream.waiting, hc] using hdestroyed
  | closed => simpa [Stream.waiting, hc] using hdestroyed

theorem Coherent.lent_le {d : Delivery} (h : d.Coherent) (hended : d.stream.phase = .ended) :
    d.lent ≤ 1 := by
  rw [lent, Stream.inside_of_ended hended]
  exact h.waiting_destroyed_le

end Delivery

namespace Traffic

def lent : List Delivery → Nat
  | [] => 0
  | d :: ds => d.lent + lent ds

theorem lent_eq (ds : List Delivery) : lent ds =
    (ds.flatMap (·.stream.inHand)).length + (ds.flatMap (·.stream.waiting)).length +
      (ds.flatMap (·.destroyed)).length := by
  induction ds with
  | nil => rfl
  | cons d ds ih =>
    simp only [lent, Delivery.lent, Stream.inside, List.flatMap_cons, List.length_append, ih]
    omega

theorem lent_concat (ds : List Delivery) (d : Delivery) : lent (ds ++ [d]) = lent ds + d.lent := by
  simp only [lent_eq, List.flatMap_append, List.flatMap_singleton, List.length_append,
    Delivery.lent, Stream.inside]
  omega

theorem lent_set {ds : List Delivery} {i : Nat} {d : Delivery} (h : ds[i]? = some d)
    (d' : Delivery) : lent (ds.set i d') = lent (ds.eraseIdx i) + d'.lent := by
  induction ds generalizing i with
  | nil => simp at h
  | cons e ds ih =>
    cases i with
    | zero =>
      rw [List.set_cons_zero, List.eraseIdx_cons_zero, lent, Nat.add_comm]
    | succ i =>
      rw [List.set_cons_succ, List.eraseIdx_cons_succ, lent, lent, ih (by simpa using h),
        Nat.add_assoc]

theorem lent_eraseIdx {ds : List Delivery} {i : Nat} {d : Delivery} (h : ds[i]? = some d) :
    lent ds = lent (ds.eraseIdx i) + d.lent := by
  obtain ⟨hi, rfl⟩ := List.getElem?_eq_some_iff.1 h
  rw [← lent_set h, List.set_getElem_self]

structure Accounted (x : Traffic) (n : Nat) : Prop where
  lacks : x.resources.pool.Lacks (lent x.deliveries + x.held.length + n)
  coherent : ∀ d ∈ x.deliveries, d.Coherent

theorem accounted_start (count : Nat) (monitor : Monitor) (nextId : Nat) :
    (start count monitor nextId).Accounted 0 :=
  ⟨Pool.lacks_withCapacity count, by simp [start]⟩

theorem Accounted.turn {x : Traffic} {n i : Nat} {d : Delivery} (h : x.Accounted n)
    (hd : x.deliveries[i]? = some d) (t : Delivery.Turn) :
    (d.act x.resources t).1.pool.Lacks
        (lent (x.deliveries.set i (d.act x.resources t).2) + (d.delivered t).length +
          x.held.length + n) ∧
      ∀ d' ∈ x.deliveries.set i (d.act x.resources t).2, d'.Coherent := by
  refine ⟨?_, fun d' hd' => ?_⟩
  · have hx := h.lacks
    rw [lent_eraseIdx hd] at hx
    have hlacks : x.resources.pool.Lacks
        (lent (x.deliveries.eraseIdx i) + x.held.length + n + d.lent) := by
      simpa [Nat.add_assoc, Nat.add_comm, Nat.add_left_comm] using hx
    rw [lent_set hd]
    simpa [Nat.add_assoc, Nat.add_comm, Nat.add_left_comm] using Delivery.act_lacks hlacks t
  · rcases List.mem_or_eq_of_mem_set hd' with hd' | rfl
    · exact h.coherent d' hd'
    · exact Delivery.act_coherent (h.coherent d (List.mem_of_getElem? hd)) _ _

theorem Accounted.move {x : Traffic} {n : Nat} (h : x.Accounted n) (m : Move) :
    (x.move m).Accounted n := by
  have hlacks := h.lacks
  cases m with
  | start filter time actions cancelled =>
    refine ⟨?_, fun d hd => ?_⟩
    · have hnothing : (Delivery.start (.start filter time actions cancelled)).lent = 0 := rfl
      rw [Traffic.move, lent_concat, hnothing]
      exact hlacks
    · rcases List.mem_append.1 hd with hd | hd
      · exact h.coherent d hd
      · rw [List.mem_singleton.1 hd]
        exact Delivery.coherent_start filter time actions cancelled
  | turn i t =>
    simp only [Traffic.move]
    split
    next => exact h
    next d hd =>
      obtain ⟨hturn, hcoherent⟩ := h.turn hd t
      refine ⟨?_, hcoherent⟩
      simpa [Nat.add_assoc, Nat.add_comm, Nat.add_left_comm] using hturn
  | acquire =>
    refine ⟨?_, h.coherent⟩
    simpa [Traffic.move, Nat.add_assoc, Nat.add_comm, Nat.add_left_comm] using hlacks.acquire
  | rewrite j e => exact ⟨by simpa [Traffic.move] using hlacks, h.coherent⟩
  | release j =>
    simp only [Traffic.move]
    split
    next => exact h
    next e he =>
      refine ⟨?_, h.coherent⟩
      obtain ⟨hj, -⟩ := List.getElem?_eq_some_iff.1 he
      have hheld : x.held.length = (x.held.eraseIdx j).length + 1 := by
        rw [List.length_eraseIdx_of_lt hj]
        omega
      rw [hheld] at hlacks
      have hreturned : x.resources.pool.Lacks
          (lent x.deliveries + (x.held.eraseIdx j).length + n + 1) := by
        simpa [Nat.add_assoc, Nat.add_comm, Nat.add_left_comm] using hlacks
      exact hreturned.release e

theorem Accounted.run {x : Traffic} {n : Nat} (h : x.Accounted n) (moves : List Move) :
    (x.run moves).Accounted n := by
  induction moves generalizing x with
  | nil => exact h
  | cons m moves ih => exact ih (h.move m)

theorem settled_move {x : Traffic} {i : Nat} {d : Delivery} (hi : x.deliveries[i]? = some d)
    (hd : d.Settled) (m : Move) : ∃ d', (x.move m).deliveries[i]? = some d' ∧ d'.Settled := by
  have hlt : i < x.deliveries.length := (List.getElem?_eq_some_iff.1 hi).1
  cases m with
  | start => exact ⟨d, by rw [Traffic.move, List.getElem?_append_left hlt, hi], hd⟩
  | turn j t =>
    simp only [Traffic.move]
    split
    next => exact ⟨d, hi, hd⟩
    next dj hj =>
      by_cases hij : j = i
      · subst hij
        obtain rfl : dj = d := by simpa [hi] using hj.symm
        exact ⟨_, List.getElem?_set_self hlt, hd.act x.resources t⟩
      · exact ⟨d, by rw [List.getElem?_set_ne hij, hi], hd⟩
  | acquire => exact ⟨d, hi, hd⟩
  | rewrite => exact ⟨d, hi, hd⟩
  | release j =>
    simp only [Traffic.move]
    split
    next => exact ⟨d, hi, hd⟩
    next => exact ⟨d, hi, hd⟩

theorem settled_run {x : Traffic} {i : Nat} {d : Delivery} (hi : x.deliveries[i]? = some d)
    (hd : d.Settled) (moves : List Move) :
    ∃ d', (x.run moves).deliveries[i]? = some d' ∧ d'.Settled := by
  induction moves generalizing x d with
  | nil => exact ⟨d, hi, hd⟩
  | cons m moves ih =>
    obtain ⟨d', hi', hd'⟩ := settled_move hi hd m
    exact ih hi' hd'

theorem lent_of_settled {ds : List Delivery} (h : ∀ d ∈ ds, d.Settled) : lent ds = 0 := by
  induction ds with
  | nil => rfl
  | cons d ds ih =>
    have hd : d.lent = 0 := (h d List.mem_cons_self).lent
    have hds : lent ds = 0 := ih fun d' hd' => h d' (List.mem_cons_of_mem _ hd')
    rw [lent, hd, hds]

end Traffic
end Changefeed
