import LibChromecast.Foundation.Transition

/-!
# Outputs and components of a run

`outputs` collects what the steps of a run put out, in order.  A component of
a machine is another machine whose state can be read off the first one's and
whose events can be picked out of its events; a run of the whole is then a run
of the component, and what the whole promises of the component's steps holds
along it.
-/

namespace Foundation.Transition

variable {σ τ ε δ ω : Type*} {step : σ → ε → Option σ}
  {part : τ → δ → Option τ} {project : σ → τ} {select : ε → Option δ}

/-- What the enabled steps of a run put out, up to the first refused event. -/
def outputs (step : σ → ε → Option σ) (output : σ → ε → List ω) :
    σ → List ε → List ω
  | _, [] => []
  | state, event :: rest =>
      match step state event with
      | none => []
      | some next => output state event ++ outputs step output next rest

@[simp] theorem outputs_nil (output : σ → ε → List ω) (state : σ) :
    outputs step output state [] = [] := rfl

theorem outputs_cons_of_step {output : σ → ε → List ω} {state next : σ}
    {event : ε} {rest : List ε} (hstep : step state event = some next) :
    outputs step output state (event :: rest) =
      output state event ++ outputs step output next rest := by
  rw [outputs, hstep]

/-- The outputs of a run in two parts. -/
theorem outputs_append {output : σ → ε → List ω} {state middle : σ}
    {before after : List ε} (hrun : exec step state before = some middle) :
    outputs step output state (before ++ after) =
      outputs step output state before ++
        outputs step output middle after := by
  induction before generalizing state with
  | nil =>
      cases hrun
      rfl
  | cons event rest ih =>
      obtain ⟨next, hstep, hrest⟩ := exec_cons_eq_some.mp hrun
      rw [List.cons_append, outputs_cons_of_step hstep,
        outputs_cons_of_step hstep, ih hrest, List.append_assoc]

theorem along_of_forall {condition : σ → ε → Prop} {events : List ε}
    (hall : ∀ event ∈ events, ∀ state, condition state event) (state : σ) :
    Along step condition state events := by
  induction events generalizing state with
  | nil => trivial
  | cons event rest ih =>
      exact ⟨hall event (List.mem_cons_self ..) state, fun next _ =>
        ih (fun other hother => hall other (List.mem_cons_of_mem _ hother))
          next⟩

theorem Along.imp_of_mem {strong weak : σ → ε → Prop} {state : σ}
    {events : List ε} (halong : Along step strong state events)
    (himp : ∀ current, ∀ event ∈ events, strong current event →
      weak current event) : Along step weak state events := by
  induction events generalizing state with
  | nil => trivial
  | cons event rest ih =>
      exact ⟨himp state event (List.mem_cons_self ..) halong.1,
        fun next hstep => ih (halong.2 next hstep) fun current other hother =>
          himp current other (List.mem_cons_of_mem _ hother)⟩

theorem Along.imp {strong weak : σ → ε → Prop} {state : σ}
    {events : List ε} (halong : Along step strong state events)
    (himp : ∀ current event, strong current event → weak current event) :
    Along step weak state events :=
  halong.imp_of_mem fun current event _ => himp current event

/-- Each event of a run meets a condition the run keeps to, in the state in
which it comes. -/
theorem Along.exists_of_mem {condition : σ → ε → Prop} {state last : σ}
    {events : List ε} (halong : Along step condition state events)
    (hrun : exec step state events = some last) {event : ε}
    (hmem : event ∈ events) : ∃ current, condition current event := by
  induction events generalizing state with
  | nil => contradiction
  | cons first rest ih =>
      obtain ⟨next, hstep, hrest⟩ := exec_cons_eq_some.mp hrun
      rcases List.mem_cons.mp hmem with rfl | hlater
      · exact ⟨state, halong.1⟩
      · exact ih (halong.2 next hstep) hrest hlater

/-- `part` is what `project` shows of `step`: a selected event is an event of
the component, any other one leaves the component alone. -/
structure Component (step : σ → ε → Option σ) (part : τ → δ → Option τ)
    (project : σ → τ) (select : ε → Option δ) : Prop where
  moves : ∀ {state event next selected}, step state event = some next →
    select event = some selected →
      part (project state) selected = some (project next)
  stays : ∀ {state event next}, step state event = some next →
    select event = none → project next = project state

namespace Component

theorem exec (hpart : Component step part project select) {state last : σ}
    {events : List ε} (hrun : exec step state events = some last) :
    Transition.exec part (project state) (events.filterMap select) =
      some (project last) := by
  induction events generalizing state with
  | nil =>
      cases hrun
      rfl
  | cons event rest ih =>
      obtain ⟨next, hstep, hrest⟩ := exec_cons_eq_some.mp hrun
      cases hselect : select event with
      | none =>
          rw [List.filterMap_cons_none hselect, ← hpart.stays hstep hselect]
          exact ih hrest
      | some selected =>
          rw [List.filterMap_cons_some hselect, exec_cons_eq_some]
          exact ⟨project next, hpart.moves hstep hselect, ih hrest⟩

theorem along (hpart : Component step part project select)
    {condition : τ → δ → Prop} {state last : σ} {events : List ε}
    (hrun : Transition.exec step state events = some last)
    (halong : Along step (fun current event => ∀ selected,
      select event = some selected → condition (project current) selected)
      state events) :
    Along part condition (project state) (events.filterMap select) := by
  induction events generalizing state with
  | nil => trivial
  | cons event rest ih =>
      obtain ⟨next, hstep, hrest⟩ := exec_cons_eq_some.mp hrun
      have hlater := ih hrest (halong.2 next hstep)
      cases hselect : select event with
      | none =>
          rw [List.filterMap_cons_none hselect, ← hpart.stays hstep hselect]
          exact hlater
      | some selected =>
          rw [List.filterMap_cons_some hselect]
          refine ⟨halong.1 selected hselect, fun after hafter => ?_⟩
          rw [hpart.moves hstep hselect, Option.some.injEq] at hafter
          rw [← hafter]
          exact hlater

end Component

end Foundation.Transition
