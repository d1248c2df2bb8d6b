import Changefeed.Event

/-!
# The pool of events

Events are reused: a pass takes a blank event from the pool and whoever receives the event gives it
back. An empty pool makes a new event, so a consumer that gives nothing back lets the pool grow.
Every event that waits in a pool is blank (`Pool.Blank`).
-/

namespace Changefeed

namespace Event

def reset (e : Event) : Event :=
  { e with
    id := .nil
    schema := ""
    table := ""
    action := ""
    data := []
    dataOld := []
    time := .epoch }

theorem reset_eq_blank (e : Event) : e.reset = blank := rfl

end Event

structure Pool where
  free : List Event
  /-- The number of events that were ever made for this pool. -/
  allocated : Nat
deriving Repr

namespace Pool

def empty : Pool := ⟨[], 0⟩

def withCapacity (count : Nat) : Pool := ⟨List.replicate count .blank, count⟩

def acquire (p : Pool) : Event × Pool :=
  match p.free with
  | e :: free => (e, ⟨free, p.allocated⟩)
  | [] => (.blank, ⟨[], p.allocated + 1⟩)

def release (p : Pool) (e : Event) : Pool := ⟨e.reset :: p.free, p.allocated⟩

def available (p : Pool) : Nat := p.free.length

def Blank (p : Pool) : Prop := ∀ e ∈ p.free, e = .blank

theorem blank_empty : empty.Blank := by simp [Blank, empty]

theorem blank_withCapacity (count : Nat) : (withCapacity count).Blank :=
  fun _ h => List.eq_of_mem_replicate h

theorem Blank.release {p : Pool} (h : p.Blank) (e : Event) : (p.release e).Blank := by
  intro x hx
  rcases List.mem_cons.1 hx with rfl | hx
  · exact e.reset_eq_blank
  · exact h x hx

theorem Blank.acquire {p : Pool} (h : p.Blank) : p.acquire.1 = .blank ∧ p.acquire.2.Blank := by
  obtain ⟨free, allocated⟩ := p
  cases free with
  | nil => exact ⟨rfl, by simp [Blank, Pool.acquire]⟩
  | cons e free => exact ⟨h e List.mem_cons_self, fun x hx => h x (List.mem_cons_of_mem _ hx)⟩

end Pool
end Changefeed
