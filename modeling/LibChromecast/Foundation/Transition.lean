import Mathlib.Data.List.Basic
import Mathlib.Tactic.Common

/-!
# Runs of a partial deterministic machine

A machine is a function `step : σ → ε → Option σ`: `none` says that the event
is not enabled in the state.  A run is the fold of `step` over a list of
events.  Nondeterminism of the environment lives in the events, so a property
of every interleaving is a property of every list.

Two predicates describe a run step by step.  `Along` asks a condition of every
(state, event) pair the run goes through, `Throughout` asks a property of every
state it reaches.  The rules at the end of the file connect them.
-/

namespace Foundation.Transition

variable {σ τ ε δ : Type*} {step : σ → ε → Option σ}

/-- The state after a list of events, or `none` as soon as one is refused. -/
def exec (step : σ → ε → Option σ) : σ → List ε → Option σ
  | state, [] => some state
  | state, event :: rest =>
      match step state event with
      | none => none
      | some next => exec step next rest

/-- Every step of the run from `state` meets `condition`. -/
def Along (step : σ → ε → Option σ) (condition : σ → ε → Prop) :
    σ → List ε → Prop
  | _, [] => True
  | state, event :: rest =>
      condition state event ∧
        ∀ next, step state event = some next →
          Along step condition next rest

/-- Every state of the run, the first one included, has `property`. -/
def Throughout (step : σ → ε → Option σ) (property : σ → Prop) :
    σ → List ε → Prop
  | state, [] => property state
  | state, event :: rest =>
      property state ∧
        ∀ next, step state event = some next →
          Throughout step property next rest

theorem along_cons {condition : σ → ε → Prop} {state : σ} {event : ε}
    {rest : List ε} :
    Along step condition state (event :: rest) ↔
      condition state event ∧
        match step state event with
        | none => True
        | some next => Along step condition next rest := by
  rw [Along]
  cases step state event <;> simp

theorem throughout_cons {property : σ → Prop} {state : σ} {event : ε}
    {rest : List ε} :
    Throughout step property state (event :: rest) ↔
      property state ∧
        match step state event with
        | none => True
        | some next => Throughout step property next rest := by
  rw [Throughout]
  cases step state event <;> simp

def decidableAlong {condition : σ → ε → Prop}
    [∀ state event, Decidable (condition state event)] :
    (state : σ) → (events : List ε) →
      Decidable (Along step condition state events)
  | _, [] => .isTrue trivial
  | state, event :: rest =>
      have : Decidable (match step state event with
          | none => True
          | some next => Along step condition next rest) :=
        match step state event with
        | none => .isTrue trivial
        | some next => decidableAlong next rest
      decidable_of_iff _ along_cons.symm

instance {condition : σ → ε → Prop}
    [∀ state event, Decidable (condition state event)] (state : σ)
    (events : List ε) : Decidable (Along step condition state events) :=
  decidableAlong state events

def decidableThroughout {property : σ → Prop}
    [∀ state, Decidable (property state)] :
    (state : σ) → (events : List ε) →
      Decidable (Throughout step property state events)
  | state, [] => inferInstanceAs (Decidable (property state))
  | state, event :: rest =>
      have : Decidable (match step state event with
          | none => True
          | some next => Throughout step property next rest) :=
        match step state event with
        | none => .isTrue trivial
        | some next => decidableThroughout next rest
      decidable_of_iff _ throughout_cons.symm

instance {property : σ → Prop} [∀ state, Decidable (property state)]
    (state : σ) (events : List ε) :
    Decidable (Throughout step property state events) :=
  decidableThroughout state events

@[simp] theorem exec_nil (state : σ) : exec step state [] = some state := rfl

theorem exec_cons (state : σ) (event : ε) (rest : List ε) :
    exec step state (event :: rest) =
      (step state event).bind fun next => exec step next rest := by
  rw [exec]
  cases step state event <;> rfl

theorem exec_singleton (state : σ) (event : ε) :
    exec step state [event] = step state event := by
  rw [exec_cons]
  cases step state event <;> rfl

theorem exec_cons_eq_some {state last : σ} {event : ε} {rest : List ε} :
    exec step state (event :: rest) = some last ↔
      ∃ next, step state event = some next ∧
        exec step next rest = some last := by
  rw [exec_cons, Option.bind_eq_some_iff]

theorem exec_append (state : σ) (before after : List ε) :
    exec step state (before ++ after) =
      (exec step state before).bind fun next => exec step next after := by
  induction before generalizing state with
  | nil => rfl
  | cons event rest ih =>
      rw [List.cons_append, exec_cons, exec_cons]
      cases step state event with
      | none => rfl
      | some next => exact ih next

theorem along_true (state : σ) (events : List ε) :
    Along step (fun _ _ => True) state events := by
  induction events generalizing state with
  | nil => trivial
  | cons event rest ih => exact ⟨trivial, fun next _ => ih next⟩

/-- A property which the steps that meet `condition` preserve holds at the end
of every run of such steps. -/
theorem exec_invariant_along {property : σ → Prop}
    {condition : σ → ε → Prop}
    (hstep : ∀ state event next, property state → condition state event →
      step state event = some next → property next)
    {state last : σ} {events : List ε} (hstart : property state)
    (halong : Along step condition state events)
    (hrun : exec step state events = some last) : property last := by
  induction events generalizing state with
  | nil =>
      cases hrun
      exact hstart
  | cons event rest ih =>
      obtain ⟨next, hnext, hrest⟩ := exec_cons_eq_some.mp hrun
      exact ih (hstep state event next hstart halong.1 hnext)
        (halong.2 next hnext) hrest

/-- A property which every step preserves holds at the end of every run. -/
theorem exec_invariant (property : σ → Prop)
    (hstep : ∀ state event next, property state →
      step state event = some next → property next)
    {state last : σ} {events : List ε} (hstart : property state)
    (hrun : exec step state events = some last) : property last :=
  exec_invariant_along
    (fun state event next hstate _ hnext =>
      hstep state event next hstate hnext)
    hstart (along_true state events) hrun

/-- A relation between two states which is reflexive, transitive and respected
by every step relates both ends of every run. -/
theorem exec_relation (relation : σ → σ → Prop)
    (hrefl : ∀ state, relation state state)
    (htrans : ∀ {a b c}, relation a b → relation b c → relation a c)
    (hstep : ∀ state event next, step state event = some next →
      relation state next)
    {state last : σ} {events : List ε}
    (hrun : exec step state events = some last) : relation state last := by
  induction events generalizing state with
  | nil =>
      cases hrun
      exact hrefl _
  | cons event rest ih =>
      obtain ⟨next, hnext, hrest⟩ := exec_cons_eq_some.mp hrun
      exact htrans (hstep state event next hnext) (ih hrest)

/-- The steps of a run in two parts. -/
theorem along_append {condition : σ → ε → Prop} {state : σ}
    {before after : List ε} :
    Along step condition state (before ++ after) ↔
      Along step condition state before ∧
        ∀ next, exec step state before = some next →
          Along step condition next after := by
  induction before generalizing state with
  | nil => simp [Along]
  | cons event rest ih =>
      rw [List.cons_append, Along, Along]
      constructor
      · rintro ⟨hevent, hrest⟩
        refine ⟨⟨hevent, fun next hnext => (ih.mp (hrest next hnext)).1⟩, ?_⟩
        intro last hlast
        obtain ⟨next, hnext, hmore⟩ := exec_cons_eq_some.mp hlast
        exact (ih.mp (hrest next hnext)).2 last hmore
      · rintro ⟨⟨hevent, hrest⟩, hafter⟩
        refine ⟨hevent, fun next hnext => ih.mpr ⟨hrest next hnext, ?_⟩⟩
        intro last hlast
        exact hafter last (exec_cons_eq_some.mpr ⟨next, hnext, hlast⟩)

theorem Along.and {first second : σ → ε → Prop} {state : σ}
    {events : List ε} (hfirst : Along step first state events)
    (hsecond : Along step second state events) :
    Along step (fun current event => first current event ∧
      second current event) state events := by
  induction events generalizing state with
  | nil => trivial
  | cons event rest ih =>
      exact ⟨⟨hfirst.1, hsecond.1⟩, fun next hnext =>
        ih (hfirst.2 next hnext) (hsecond.2 next hnext)⟩

/-- A condition which every state with an invariant meets, where the steps that
meet another condition keep the invariant. -/
theorem along_of_along {property : σ → Prop} {given condition : σ → ε → Prop}
    (hstep : ∀ state event next, property state → given state event →
      step state event = some next → property next)
    (hcondition : ∀ state event, property state → given state event →
      condition state event)
    {state : σ} {events : List ε} (hstart : property state)
    (halong : Along step given state events) :
    Along step condition state events := by
  induction events generalizing state with
  | nil => trivial
  | cons event rest ih =>
      exact ⟨hcondition state event hstart halong.1, fun next hnext =>
        ih (hstep state event next hstart halong.1 hnext)
          (halong.2 next hnext)⟩

theorem throughout_mono {strong weak : σ → Prop}
    (himp : ∀ state, strong state → weak state)
    {state : σ} {events : List ε}
    (hthrough : Throughout step strong state events) :
    Throughout step weak state events := by
  induction events generalizing state with
  | nil => exact himp _ hthrough
  | cons event rest ih =>
      exact ⟨himp _ hthrough.1,
        fun next hnext => ih (hthrough.2 next hnext)⟩

theorem Throughout.head {property : σ → Prop} {state : σ} {events : List ε}
    (h : Throughout step property state events) : property state := by
  cases events with
  | nil => exact h
  | cons event rest => exact h.1

theorem Throughout.last {property : σ → Prop} {state last : σ}
    {events : List ε} (h : Throughout step property state events)
    (hrun : exec step state events = some last) : property last := by
  induction events generalizing state with
  | nil =>
      cases hrun
      exact h
  | cons event rest ih =>
      obtain ⟨next, hnext, hrest⟩ := exec_cons_eq_some.mp hrun
      exact ih (h.2 next hnext) hrest

/-- A property which the steps meeting `condition` preserve holds throughout a
run whose steps all meet it. -/
theorem throughout_of_along {property : σ → Prop}
    {condition : σ → ε → Prop}
    (hstep : ∀ state event next, property state → condition state event →
      step state event = some next → property next)
    {state : σ} {events : List ε} (hstart : property state)
    (halong : Along step condition state events) :
    Throughout step property state events := by
  induction events generalizing state with
  | nil => exact hstart
  | cons event rest ih =>
      exact ⟨hstart, fun next hnext =>
        ih (hstep state event next hstart halong.1 hnext)
          (halong.2 next hnext)⟩

/-- If `condition` is exactly what a step needs to keep `property`, then a run
keeps it throughout exactly when every enabled step meets the condition.
`invariant` carries whatever else is known of the states of a run whose steps
meet `given`. -/
theorem throughout_iff_along_of_along {property : σ → Prop}
    (invariant : σ → Prop) {given condition : σ → ε → Prop}
    (hinvariant : ∀ state event next, invariant state → property state →
      given state event → step state event = some next → property next →
        invariant next)
    (hstep : ∀ state event next, invariant state → property state →
      step state event = some next →
        (property next ↔ condition state event))
    {state : σ} {events : List ε}
    (hstart : property state) (hinv : invariant state)
    (hgiven : Along step given state events) :
    Throughout step property state events ↔
      Along step
        (fun current event =>
          (step current event).isSome → condition current event)
        state events := by
  induction events generalizing state with
  | nil => exact ⟨fun _ => trivial, fun _ => hstart⟩
  | cons event rest ih =>
      have hnextInv : ∀ next, step state event = some next →
          property next → invariant next := fun next hnext hprop =>
        hinvariant state event next hinv hstart hgiven.1 hnext hprop
      constructor
      · intro hthrough
        refine ⟨fun hsome => ?_, fun next hnext => ?_⟩
        · obtain ⟨next, hnext⟩ := Option.isSome_iff_exists.mp hsome
          have hprop := (hthrough.2 next hnext).head
          exact (hstep state event next hinv hstart hnext).mp hprop
        · have hprop := (hthrough.2 next hnext).head
          exact (ih hprop (hnextInv next hnext hprop)
            (hgiven.2 next hnext)).mp (hthrough.2 next hnext)
      · intro halong
        refine ⟨hstart, fun next hnext => ?_⟩
        have hcond : condition state event :=
          halong.1 (by rw [hnext]; rfl)
        have hprop := (hstep state event next hinv hstart hnext).mpr hcond
        exact (ih hprop (hnextInv next hnext hprop)
          (hgiven.2 next hnext)).mpr (halong.2 next hnext)

theorem throughout_iff_along {property : σ → Prop} (invariant : σ → Prop)
    {condition : σ → ε → Prop}
    (hinvariant : ∀ state event next, invariant state → property state →
      step state event = some next → property next → invariant next)
    (hstep : ∀ state event next, invariant state → property state →
      step state event = some next →
        (property next ↔ condition state event))
    {state : σ} {events : List ε}
    (hstart : property state) (hinv : invariant state) :
    Throughout step property state events ↔
      Along step
        (fun current event =>
          (step current event).isSome → condition current event)
        state events :=
  throughout_iff_along_of_along invariant
    (fun state event next hinv hprop _ => hinvariant state event next hinv
      hprop)
    hstep hstart hinv (along_true state events)

/-! ## Projecting one machine onto another -/

/-- Every step of the first machine is a run of the second one between the
projected states. -/
def Simulates (step : σ → ε → Option σ) (abstractStep : τ → δ → Option τ)
    (project : σ → τ) : Prop :=
  ∀ state event next, step state event = some next →
    ∃ events, exec abstractStep (project state) events =
      some (project next)

theorem Simulates.exec {abstractStep : τ → δ → Option τ} {project : σ → τ}
    (hsim : Simulates step abstractStep project)
    {state last : σ} {events : List ε}
    (hrun : exec step state events = some last) :
    ∃ abstractEvents,
      Transition.exec abstractStep (project state) abstractEvents =
        some (project last) := by
  induction events generalizing state with
  | nil =>
      cases hrun
      exact ⟨[], rfl⟩
  | cons event rest ih =>
      obtain ⟨next, hnext, hrest⟩ := exec_cons_eq_some.mp hrun
      obtain ⟨before, hbefore⟩ := hsim state event next hnext
      obtain ⟨after, hafter⟩ := ih hrest
      refine ⟨before ++ after, ?_⟩
      rw [exec_append, hbefore, Option.bind_some, hafter]

end Foundation.Transition
