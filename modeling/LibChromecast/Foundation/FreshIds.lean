import Mathlib.Data.Set.Basic
import Mathlib.Logic.Relation
import Mathlib.Order.Basic

/-!
# Names from one counter

Several tables draw their keys from one counter, some of the names drawn are
sent, and entries leave the tables in any order.  Whoever draws next draws a
name that is above the counter, so no name is ever in two tables and the names
on the wire are increasing.
-/

namespace Foundation

open Relation

structure FreshIds (ι ν : Type*) where
  counter : ν
  pending : ι → Set ν
  sent : List ν

namespace FreshIds

variable {ι ν : Type*} [Preorder ν]

inductive Step (state next : FreshIds ι ν) : Prop
  /-- A table draws a name, and maybe sends it. -/
  | draw (table : ι) (hlt : state.counter < next.counter)
      (hpending : ∀ other, ∀ name ∈ next.pending other,
        name ∈ state.pending other ∨
          (other = table ∧ name = next.counter))
      (hsent : next.sent = state.sent ∨
        next.sent = state.sent ++ [next.counter])
  /-- Entries leave the tables. -/
  | release (hcounter : next.counter = state.counter)
      (hpending : ∀ table, next.pending table ⊆ state.pending table)
      (hsent : next.sent = state.sent)

/-- What holds after a start at `floor` with empty tables. -/
structure Sound (floor : ν) (state : FreshIds ι ν) : Prop where
  floor_le : floor ≤ state.counter
  pending_le : ∀ table, ∀ name ∈ state.pending table, name ≤ state.counter
  unshared : ∀ {first second name}, name ∈ state.pending first →
    name ∈ state.pending second → first = second
  increasing : state.sent.Pairwise (· < ·)
  floor_lt : ∀ name ∈ state.sent, floor < name
  sent_le : ∀ name ∈ state.sent, name ≤ state.counter

variable {floor : ν} {state next : FreshIds ι ν}

theorem sound_start (floor : ν) :
    Sound floor (⟨floor, fun _ => ∅, []⟩ : FreshIds ι ν) where
  floor_le := le_refl floor
  pending_le _ name hname := absurd hname (Set.notMem_empty name)
  unshared hname := absurd hname (Set.notMem_empty _)
  increasing := List.Pairwise.nil
  floor_lt _ hname := absurd hname List.not_mem_nil
  sent_le _ hname := absurd hname List.not_mem_nil

/-- A name just drawn is in no table yet. -/
theorem Sound.fresh (h : state.Sound floor)
    (hlt : state.counter < next.counter) (table : ι) :
    next.counter ∉ state.pending table := by
  intro hname
  exact (hlt.trans_le (h.pending_le table _ hname)).false

theorem Sound.step (h : state.Sound floor) (hstep : Step state next) :
    next.Sound floor := by
  cases hstep with
  | release hcounter hpending hsent =>
      exact {
        floor_le := hcounter ▸ h.floor_le
        pending_le := fun table name hname =>
          hcounter ▸ h.pending_le table name (hpending table hname)
        unshared := fun hfirst hsecond =>
          h.unshared (hpending _ hfirst) (hpending _ hsecond)
        increasing := hsent ▸ h.increasing
        floor_lt := hsent ▸ h.floor_lt
        sent_le := by
          rw [hsent, hcounter]
          exact h.sent_le }
  | draw table hlt hpending hsent =>
      have hfresh := h.fresh hlt
      refine {
        floor_le := h.floor_le.trans hlt.le
        pending_le := ?_
        unshared := ?_
        increasing := ?_
        floor_lt := ?_
        sent_le := ?_ }
      · intro other name hname
        rcases hpending other name hname with hold | ⟨-, rfl⟩
        · exact (h.pending_le other name hold).trans hlt.le
        · exact le_refl _
      · intro first second name hfirst hsecond
        rcases hpending first name hfirst with hold | ⟨rfl, rfl⟩
        · rcases hpending second name hsecond with holder | ⟨-, rfl⟩
          · exact h.unshared hold holder
          · exact absurd hold (hfresh first)
        · rcases hpending second _ hsecond with holder | ⟨rfl, -⟩
          · exact absurd holder (hfresh second)
          · rfl
      · rcases hsent with hsame | hmore
        · exact hsame ▸ h.increasing
        · rw [hmore, List.pairwise_append]
          refine ⟨h.increasing, List.pairwise_singleton _ _, ?_⟩
          intro earlier hearlier later hlater
          rw [List.mem_singleton.mp hlater]
          exact (h.sent_le earlier hearlier).trans_lt hlt
      · rcases hsent with hsame | hmore
        · exact hsame ▸ h.floor_lt
        · rw [hmore, List.forall_mem_append, List.forall_mem_singleton]
          exact ⟨h.floor_lt, h.floor_le.trans_lt hlt⟩
      · have hold : ∀ name ∈ state.sent, name ≤ next.counter :=
          fun name hname => (h.sent_le name hname).trans hlt.le
        rcases hsent with hsame | hmore
        · exact hsame ▸ hold
        · rw [hmore, List.forall_mem_append, List.forall_mem_singleton]
          exact ⟨hold, le_refl _⟩

theorem Sound.steps (h : state.Sound floor)
    (hsteps : ReflTransGen Step state next) : next.Sound floor := by
  induction hsteps with
  | refl => exact h
  | tail _ hstep ih => exact ih.step hstep

theorem counter_le_of_step (hstep : Step state next) :
    state.counter ≤ next.counter := by
  cases hstep with
  | release hcounter => exact hcounter.ge
  | draw table hlt => exact hlt.le

theorem counter_le_of_steps (hsteps : ReflTransGen Step state next) :
    state.counter ≤ next.counter := by
  induction hsteps with
  | refl => exact le_refl _
  | tail _ hstep ih => exact ih.trans (counter_le_of_step hstep)

/-- A name that was drawn and is in no table any more never comes back. -/
theorem not_pending_of_step {table : ι} {name : ν}
    (hdrawn : name ≤ state.counter) (hgone : name ∉ state.pending table)
    (hstep : Step state next) : name ∉ next.pending table := by
  cases hstep with
  | release hcounter hpending hsent =>
      exact fun hname => hgone (hpending table hname)
  | draw other hlt hpending hsent =>
      intro hname
      rcases hpending table name hname with hold | ⟨-, rfl⟩
      · exact hgone hold
      · exact (hlt.trans_le hdrawn).false

theorem not_pending_of_steps {table : ι} {name : ν}
    (hdrawn : name ≤ state.counter) (hgone : name ∉ state.pending table)
    (hsteps : ReflTransGen Step state next) : name ∉ next.pending table := by
  induction hsteps with
  | refl => exact hgone
  | tail hbefore hstep ih =>
      exact not_pending_of_step (hdrawn.trans (counter_le_of_steps hbefore))
        ih hstep

end FreshIds

end Foundation
