import Mathlib.Data.List.Basic
import Mathlib.Tactic.Common

/-!
# Deadline timers

A timer with one expiry and any number of asynchronous waits.  A wait keeps
the deadline it was made for.  It is waiting until its deadline has passed;
then its handler is queued with success and can no longer be revoked.
Cancelling the timer queues the handlers of the waits which still wait with an
error.
-/

namespace Foundation

inductive WaitState where
  | waiting
  | expired
  | aborted
  | completed
deriving DecidableEq

structure Wait (τ : Type*) where
  deadline : τ
  state : WaitState
deriving DecidableEq

namespace Wait

variable {τ : Type*}

def cancel (wait : Wait τ) : Wait τ :=
  if wait.state = .waiting then { wait with state := .aborted } else wait

/-- The handler has still to run without error. -/
def Live (wait : Wait τ) : Prop :=
  wait.state = .waiting ∨ wait.state = .expired

instance (wait : Wait τ) : Decidable wait.Live :=
  inferInstanceAs (Decidable (_ ∨ _))

/-- The handler is queued, with or without error. -/
def Queued (wait : Wait τ) : Prop :=
  wait.state = .expired ∨ wait.state = .aborted

instance (wait : Wait τ) : Decidable wait.Queued :=
  inferInstanceAs (Decidable (_ ∨ _))

theorem cancel_state_ne_waiting (wait : Wait τ) :
    wait.cancel.state ≠ .waiting := by
  unfold cancel
  by_cases hwaiting : wait.state = .waiting
  · simp [hwaiting]
  · simp [hwaiting]

theorem cancel_of_ne_waiting {wait : Wait τ}
    (hwaiting : wait.state ≠ .waiting) : wait.cancel = wait := by
  rw [cancel, if_neg hwaiting]

theorem cancel_of_expired {wait : Wait τ}
    (hexpired : wait.cancel.state = .expired) : wait.cancel = wait := by
  unfold cancel at *
  by_cases hwaiting : wait.state = .waiting
  · simp [hwaiting] at hexpired
  · simp [hwaiting]

end Wait

structure DeadlineTimer (τ : Type*) where
  expiry : Option τ := none
  waits : List (Wait τ) := []

namespace DeadlineTimer

variable {τ : Type*}

def cancel (timer : DeadlineTimer τ) : DeadlineTimer τ :=
  { timer with waits := timer.waits.map Wait.cancel }

/-- Setting the expiry cancels the waits. -/
def expiresAt (expiry : τ) (timer : DeadlineTimer τ) : DeadlineTimer τ :=
  { timer.cancel with expiry := some expiry }

/-- Without an expiry there is nothing to wait for. -/
def asyncWait (timer : DeadlineTimer τ) : DeadlineTimer τ :=
  match timer.expiry with
  | none => timer
  | some deadline =>
      { timer with waits := timer.waits ++ [⟨deadline, .waiting⟩] }

def setState (index : ℕ) (state : WaitState) (timer : DeadlineTimer τ) :
    DeadlineTimer τ :=
  { timer with
    waits := timer.waits.modify index fun wait => { wait with state } }

/-- A wait whose deadline has passed. -/
def expire [LE τ] [DecidableLE τ] (now : τ) (index : ℕ)
    (timer : DeadlineTimer τ) : Option (DeadlineTimer τ) :=
  match timer.waits[index]? with
  | none => none
  | some wait =>
      if wait.state = .waiting ∧ wait.deadline ≤ now then
        some (timer.setState index .expired)
      else none

/-- A queued handler is taken to be run: whether it gets an error. -/
def complete (index : ℕ) (timer : DeadlineTimer τ) :
    Option (Bool × DeadlineTimer τ) :=
  match timer.waits[index]? with
  | none => none
  | some wait =>
      match wait.state with
      | .expired => some (false, timer.setState index .completed)
      | .aborted => some (true, timer.setState index .completed)
      | .waiting | .completed => none

/-! ## The waits after an operation -/

theorem mem_cancel {timer : DeadlineTimer τ} {wait : Wait τ} :
    wait ∈ timer.cancel.waits ↔ ∃ old ∈ timer.waits, old.cancel = wait :=
  List.mem_map

theorem mem_asyncWait_expiresAt {timer : DeadlineTimer τ} {expiry : τ}
    {wait : Wait τ} :
    wait ∈ (timer.expiresAt expiry).asyncWait.waits ↔
      wait ∈ timer.cancel.waits ∨ wait = ⟨expiry, .waiting⟩ := by
  rw [asyncWait, expiresAt]
  exact List.mem_append.trans (or_congr_right List.mem_singleton)

theorem waiting_of_cancel {timer : DeadlineTimer τ} {wait : Wait τ}
    (hmem : wait ∈ timer.cancel.waits) : wait.state ≠ .waiting := by
  obtain ⟨old, -, rfl⟩ := mem_cancel.mp hmem
  exact old.cancel_state_ne_waiting

theorem expired_of_cancel {timer : DeadlineTimer τ} {wait : Wait τ}
    (hmem : wait ∈ timer.cancel.waits) (hexpired : wait.state = .expired) :
    wait ∈ timer.waits := by
  obtain ⟨old, hold, rfl⟩ := mem_cancel.mp hmem
  rw [Wait.cancel_of_expired hexpired]
  exact hold

/-- Only the new wait is waiting. -/
theorem waiting_of_rearmed {timer : DeadlineTimer τ} {expiry : τ}
    {wait : Wait τ}
    (hmem : wait ∈ (timer.expiresAt expiry).asyncWait.waits)
    (hwaiting : wait.state = .waiting) : wait.deadline = expiry := by
  rcases mem_asyncWait_expiresAt.mp hmem with hold | rfl
  · exact absurd hwaiting (waiting_of_cancel hold)
  · rfl

/-- Rearming revokes no handler that is queued, and queues none with
success. -/
theorem expired_of_rearmed {timer : DeadlineTimer τ} {expiry : τ}
    {wait : Wait τ}
    (hmem : wait ∈ (timer.expiresAt expiry).asyncWait.waits)
    (hexpired : wait.state = .expired) : wait ∈ timer.waits := by
  rcases mem_asyncWait_expiresAt.mp hmem with hold | rfl
  · exact expired_of_cancel hold hexpired
  · cases hexpired

theorem mem_setState {timer : DeadlineTimer τ} {index : ℕ}
    {state : WaitState} {wait : Wait τ}
    (hmem : wait ∈ (timer.setState index state).waits) :
    wait ∈ timer.waits ∨
      ∃ old, timer.waits[index]? = some old ∧
        wait = { old with state } := by
  obtain ⟨position, hposition⟩ := List.mem_iff_getElem?.mp hmem
  rw [setState, List.getElem?_modify] at hposition
  obtain ⟨old, hold, hchange⟩ := Option.map_eq_some_iff.mp hposition
  by_cases hindex : index = position
  · subst hindex
    rw [if_pos rfl] at hchange
    exact Or.inr ⟨old, hold, hchange.symm⟩
  · rw [if_neg hindex] at hchange
    subst hchange
    exact Or.inl (List.mem_of_getElem? hold)

/-- The other waits stay. -/
theorem mem_setState_of_mem {timer : DeadlineTimer τ} {index : ℕ}
    {state : WaitState} {wait old : Wait τ} (hmem : wait ∈ timer.waits)
    (hold : timer.waits[index]? = some old) :
    wait ∈ (timer.setState index state).waits ∨
      (wait = old ∧
        { old with state } ∈ (timer.setState index state).waits) := by
  obtain ⟨position, hposition⟩ := List.mem_iff_getElem?.mp hmem
  by_cases hindex : index = position
  · subst hindex
    rw [hold, Option.some.injEq] at hposition
    have hthere : (timer.setState index state).waits[index]? =
        some { old with state } := by
      simp [setState, hold]
    exact Or.inr ⟨hposition.symm, List.mem_of_getElem? hthere⟩
  · have hthere : (timer.setState index state).waits[position]? =
        some wait := by
      simp [setState, hposition, hindex]
    exact Or.inl (List.mem_of_getElem? hthere)

theorem expire_eq_some [LE τ] [DecidableLE τ] {now : τ} {index : ℕ}
    {timer next : DeadlineTimer τ}
    (h : timer.expire now index = some next) :
    ∃ old, timer.waits[index]? = some old ∧ old.state = .waiting ∧
      old.deadline ≤ now ∧ next = timer.setState index .expired := by
  unfold expire at h
  cases hold : timer.waits[index]? with
  | none =>
      rw [hold] at h
      cases h
  | some old =>
      rw [hold] at h
      simp only [Option.ite_none_right_eq_some, Option.some.injEq] at h
      exact ⟨old, rfl, h.1.1, h.1.2, h.2.symm⟩

theorem complete_eq_some {index : ℕ} {aborted : Bool}
    {timer next : DeadlineTimer τ}
    (h : timer.complete index = some (aborted, next)) :
    ∃ old, timer.waits[index]? = some old ∧
      old.state = (if aborted then .aborted else .expired) ∧
      next = timer.setState index .completed := by
  unfold complete at h
  cases hold : timer.waits[index]? with
  | none =>
      rw [hold] at h
      cases h
  | some old =>
      rw [hold] at h
      cases hstate : old.state with
      | expired =>
          simp only [hstate] at h
          cases h
          exact ⟨old, rfl, hstate, rfl⟩
      | aborted =>
          simp only [hstate] at h
          cases h
          exact ⟨old, rfl, hstate, rfl⟩
      | waiting =>
          simp only [hstate] at h
          cases h
      | completed =>
          simp only [hstate] at h
          cases h

/-! ## At most one wait of a kind -/

/-- Two waits of the kind are one. -/
def AtMostOne (kind : Wait τ → Prop) (timer : DeadlineTimer τ) : Prop :=
  ∀ (i j : ℕ) (first second : Wait τ), timer.waits[i]? = some first →
    timer.waits[j]? = some second → kind first → kind second → i = j

theorem rearmed_cases {timer : DeadlineTimer τ} {expiry : τ} {index : ℕ}
    {wait : Wait τ}
    (h : (timer.expiresAt expiry).asyncWait.waits[index]? = some wait) :
    (∃ old, timer.waits[index]? = some old ∧ wait = old.cancel) ∨
      (index = timer.waits.length ∧ wait = ⟨expiry, .waiting⟩) := by
  have hwaits : (timer.expiresAt expiry).asyncWait.waits =
      timer.waits.map Wait.cancel ++ [⟨expiry, .waiting⟩] := rfl
  rw [hwaits, List.getElem?_append] at h
  split_ifs at h with hlt
  · rw [List.getElem?_map] at h
    obtain ⟨old, hold, rfl⟩ := Option.map_eq_some_iff.mp h
    exact Or.inl ⟨old, hold, rfl⟩
  · obtain ⟨hzero, hwait⟩ := List.getElem?_eq_some_iff.mp h
    rw [List.length_map] at hlt hzero
    rw [List.length_singleton] at hzero
    refine Or.inr ⟨by omega, ?_⟩
    rw [← hwait]
    simp

theorem setState_cases {timer : DeadlineTimer τ} {position index : ℕ}
    {state : WaitState} {wait : Wait τ}
    (h : (timer.setState position state).waits[index]? = some wait) :
    ∃ old, timer.waits[index]? = some old ∧
      ((index = position ∧ wait = { old with state }) ∨
        (index ≠ position ∧ wait = old)) := by
  rw [setState, List.getElem?_modify] at h
  obtain ⟨old, hold, hchange⟩ := Option.map_eq_some_iff.mp h
  refine ⟨old, hold, ?_⟩
  by_cases hindex : position = index
  · rw [if_pos hindex] at hchange
    exact Or.inl ⟨hindex.symm, hchange.symm⟩
  · rw [if_neg hindex] at hchange
    exact Or.inr ⟨fun heq => hindex heq.symm, hchange.symm⟩

theorem atMostOne_of_nil {kind : Wait τ → Prop} {timer : DeadlineTimer τ}
    (h : timer.waits = []) : timer.AtMostOne kind := by
  intro i j first second hfirst
  rw [h] at hfirst
  cases hfirst

theorem getElem?_rearmed {timer : DeadlineTimer τ} (expiry : τ) {index : ℕ}
    {wait : Wait τ} (h : timer.waits[index]? = some wait) :
    (timer.expiresAt expiry).asyncWait.waits[index]? = some wait.cancel := by
  have hwaits : (timer.expiresAt expiry).asyncWait.waits =
      timer.waits.map Wait.cancel ++ [⟨expiry, .waiting⟩] := rfl
  have hthere : (timer.waits.map Wait.cancel)[index]? =
      some wait.cancel := by
    rw [List.getElem?_map, h]
    rfl
  have hlt := (List.getElem?_eq_some_iff.mp hthere).1
  rw [hwaits, List.getElem?_append_left hlt, hthere]

theorem getElem?_rearmed_length (timer : DeadlineTimer τ) (expiry : τ) :
    (timer.expiresAt expiry).asyncWait.waits[timer.waits.length]? =
      some ⟨expiry, .waiting⟩ := by
  have hwaits : (timer.expiresAt expiry).asyncWait.waits =
      timer.waits.map Wait.cancel ++ [⟨expiry, .waiting⟩] := rfl
  rw [hwaits, List.getElem?_append_right (by simp)]
  simp

/-- Rearming cancels the wait there was. -/
theorem atMostOne_rearmed (timer : DeadlineTimer τ) (expiry : τ) :
    (timer.expiresAt expiry).asyncWait.AtMostOne
      fun wait => wait.state = .waiting := by
  have hlast : ∀ (index : ℕ) (wait : Wait τ),
      (timer.expiresAt expiry).asyncWait.waits[index]? = some wait →
        wait.state = .waiting → index = timer.waits.length := by
    intro index wait hwait hwaiting
    rcases rearmed_cases hwait with ⟨old, -, rfl⟩ | ⟨hindex, -⟩
    · exact absurd hwaiting old.cancel_state_ne_waiting
    · exact hindex
  intro i j first second hfirst hsecond hi hj
  exact (hlast i first hfirst hi).trans (hlast j second hsecond hj).symm

/-- A change of state that makes no wait one of the kind. -/
theorem AtMostOne.setState {kind : Wait τ → Prop} {timer : DeadlineTimer τ}
    (h : timer.AtMostOne kind) {position : ℕ} {state : WaitState}
    (hkind : ∀ old, timer.waits[position]? = some old →
      kind { old with state } → kind old) :
    (timer.setState position state).AtMostOne kind := by
  have hbefore : ∀ (index : ℕ) (wait : Wait τ),
      (timer.setState position state).waits[index]? = some wait →
        kind wait → ∃ old, timer.waits[index]? = some old ∧ kind old := by
    intro index wait hwait hthere
    obtain ⟨old, hold, ⟨rfl, rfl⟩ | ⟨-, rfl⟩⟩ := setState_cases hwait
    · exact ⟨old, hold, hkind old hold hthere⟩
    · exact ⟨wait, hold, hthere⟩
  intro i j first second hfirst hsecond hi hj
  obtain ⟨old, hold, hone⟩ := hbefore i first hfirst hi
  obtain ⟨other, hother, htwo⟩ := hbefore j second hsecond hj
  exact h i j old other hold hother hone htwo

/-! ## Waits that are over -/

/-- The wait at the position will not report success any more. -/
def Spent (timer : DeadlineTimer τ) (index : ℕ) : Prop :=
  ∃ wait, timer.waits[index]? = some wait ∧ ¬wait.Live

section Spent

variable {timer next : DeadlineTimer τ} {index position : ℕ}

theorem Spent.not_expired (h : timer.Spent index) {wait : Wait τ}
    (hwait : timer.waits[index]? = some wait) : wait.state ≠ .expired := by
  obtain ⟨found, hfound, hover⟩ := h
  rw [hfound, Option.some.injEq] at hwait
  subst hwait
  exact fun hexpired => hover (Or.inr hexpired)

/-- Cancelling ends every wait that is not queued with success. -/
theorem spent_cancel {wait : Wait τ} (hwait : timer.waits[index]? = some wait)
    (hexpired : wait.state ≠ .expired) : timer.cancel.Spent index := by
  refine ⟨wait.cancel, ?_, ?_⟩
  · rw [cancel, List.getElem?_map, hwait]
    rfl
  · rintro (hwaiting | hsuccess)
    · exact wait.cancel_state_ne_waiting hwaiting
    · rw [Wait.cancel_of_expired hsuccess] at hsuccess
      exact hexpired hsuccess

theorem Spent.cancel (h : timer.Spent index) : timer.cancel.Spent index := by
  obtain ⟨wait, hwait, -⟩ := id h
  exact spent_cancel hwait (h.not_expired hwait)

theorem Spent.rearmed (h : timer.Spent index) (expiry : τ) :
    (timer.expiresAt expiry).asyncWait.Spent index := by
  obtain ⟨wait, hwait, hover⟩ := h.cancel
  refine ⟨wait, ?_, hover⟩
  have hlt := (List.getElem?_eq_some_iff.mp hwait).1
  rw [← hwait]
  exact List.getElem?_append_left hlt

theorem getElem?_setState_of_ne {state : WaitState} (hne : position ≠ index) :
    (timer.setState position state).waits[index]? = timer.waits[index]? := by
  rw [setState, List.getElem?_modify_ne _ _ hne]

theorem Spent.expire [LE τ] [DecidableLE τ] {now : τ}
    (h : timer.Spent index) (hexpire : timer.expire now position = some next) :
    next.Spent index := by
  obtain ⟨wait, hwait, hover⟩ := h
  obtain ⟨old, hold, hwaiting, -, rfl⟩ := expire_eq_some hexpire
  have hne : position ≠ index := by
    rintro rfl
    rw [hwait, Option.some.injEq] at hold
    subst hold
    exact hover (Or.inl hwaiting)
  exact ⟨wait, (getElem?_setState_of_ne hne).trans hwait, hover⟩

theorem Spent.complete {error : Bool} (h : timer.Spent index)
    (hcomplete : timer.complete position = some (error, next)) :
    next.Spent index := by
  obtain ⟨wait, hwait, hover⟩ := h
  obtain ⟨old, hold, -, rfl⟩ := complete_eq_some hcomplete
  by_cases hposition : position = index
  · subst hposition
    refine ⟨{ wait with state := .completed }, ?_, by simp [Wait.Live]⟩
    simp [setState, hwait]
  · exact ⟨wait, (getElem?_setState_of_ne hposition).trans hwait, hover⟩

end Spent

@[simp] theorem length_cancel (timer : DeadlineTimer τ) :
    timer.cancel.waits.length = timer.waits.length :=
  List.length_map _

theorem length_rearmed (timer : DeadlineTimer τ) (expiry : τ) :
    (timer.expiresAt expiry).asyncWait.waits.length =
      timer.waits.length + 1 := by
  have hwaits : (timer.expiresAt expiry).asyncWait.waits =
      timer.waits.map Wait.cancel ++ [⟨expiry, .waiting⟩] := rfl
  rw [hwaits, List.length_append, List.length_map, List.length_singleton]

@[simp] theorem length_setState (timer : DeadlineTimer τ) (index : ℕ)
    (state : WaitState) :
    (timer.setState index state).waits.length = timer.waits.length :=
  List.length_modify _ _ _

end DeadlineTimer

end Foundation
