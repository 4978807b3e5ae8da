import LibChromecast.HeartbeatRestarts

/-!
# Stale receive timeouts

Rearming the receive timer cancels the wait there was, but does not revoke a
handler that is queued with success already.  The handler looks at nothing but
its error code, so it closes the connection also if a message was answered
between the expiry and the handler.
-/

namespace LibChromecast

open Foundation Foundation.Transition

namespace HeartbeatChannel

/-! ## The property -/

/-- `Start` is called, by the handler of the send timer as well, or a `PING` is
answered. -/
def Rearms (rapid : RapidJson) (channel : HeartbeatChannel) : Event → Prop
  | .start => True
  | .message payload sending => isPing rapid payload ∧ sending = .ok ()
  | .runSend index sending =>
      (∃ wait ∈ channel.heartbeatSendTimer.waits[index]?,
        wait.state = .expired) ∧ sending = .ok ()
  | _ => False

def FailsToAnswer (rapid : RapidJson) : Event → Prop
  | .message payload sending => isPing rapid payload ∧ sending ≠ .ok ()
  | _ => False

section Property

variable (rapid : RapidJson) (aborted : ErrorCode)

/-- A `Start` is made or a `PING` is processed.  Whether that is so of a `PING`
which could not be answered is `unanswered`. -/
def Serves (unanswered : Bool) (channel : HeartbeatChannel) (event : Event) :
    Prop :=
  channel.Rearms rapid event ∨
    (unanswered = true ∧ FailsToAnswer rapid event)

/-- The handler at the position would run without error, and call `Close`. -/
def CallsClose (channel : HeartbeatChannel) (index : ℕ) : Prop :=
  ∃ timer, channel.heartbeatReceiveTimer.complete index = some (false, timer)

/-- In this run the receive timer's wait at the position was armed, in the state
`armed`, with `middle` still to come. -/
def ArmedBefore (start : HeartbeatChannel) (events : List Event) (index : ℕ)
    (armed : HeartbeatChannel) (middle : List Event) : Prop :=
  ∃ before event channel, events = before ++ event :: middle ∧
    exec (step rapid aborted) start before = some channel ∧
    channel.step rapid aborted event = some armed ∧
    channel.heartbeatReceiveTimer.waits.length = index ∧
    armed.heartbeatReceiveTimer.waits.length = index + 1

/-- A handler of the receive timer calls `Close` only if nothing was served
since its wait was armed. -/
def ClosesUnserved (unanswered : Bool) (start : HeartbeatChannel)
    (events : List Event) : Prop :=
  ∀ before index closing rest last,
    events = before ++ .runReceive index closing :: rest →
    exec (step rapid aborted) start before = some last →
    last.CallsClose index →
    ∀ armed middle, ArmedBefore rapid aborted start before index armed middle →
      Along (step rapid aborted)
        (fun channel event => ¬channel.Serves rapid unanswered event)
        armed middle

/-- The timer is rearmed while no handler is queued with success.  A `PING`
that is not answered comes while nothing is armed, if it counts. -/
def Orderly (unanswered : Bool) (channel : HeartbeatChannel)
    (event : Event) : Prop :=
  (channel.Rearms rapid event →
    ∀ wait ∈ channel.heartbeatReceiveTimer.waits, wait.state ≠ .expired) ∧
  (unanswered = true → FailsToAnswer rapid event →
    ∀ wait ∈ channel.heartbeatReceiveTimer.waits, ¬wait.Live)

end Property

/-! ## The receive timer -/

section Steps

variable {rapid : RapidJson} {aborted : ErrorCode} {unanswered : Bool}
  {channel next last start : HeartbeatChannel} {event : Event} {index : ℕ}

theorem callsClose_iff :
    channel.CallsClose index ↔
      ∃ wait, channel.heartbeatReceiveTimer.waits[index]? = some wait ∧
        wait.state = .expired := by
  constructor
  · rintro ⟨timer, hcomplete⟩
    obtain ⟨wait, hwait, hstate, -⟩ :=
      DeadlineTimer.complete_eq_some hcomplete
    exact ⟨wait, hwait, hstate⟩
  · rintro ⟨wait, hwait, hexpired⟩
    refine ⟨channel.heartbeatReceiveTimer.setState index .completed, ?_⟩
    simp [DeadlineTimer.complete, hwait, hexpired]

/-- A handler that runs closes an open connection exactly if it calls
`Close`. -/
theorem connectionOpen_of_runReceive
    (hopen : channel.connectionOpen = true)
    (hstep : channel.step rapid aborted (.runReceive index (.ok ())) =
      some next) :
    next.connectionOpen = false ↔ channel.CallsClose index := by
  obtain ⟨⟨error, timer⟩, hcomplete, rfl⟩ :=
    Option.map_eq_some_iff.mp hstep
  cases error with
  | false => exact ⟨fun _ => ⟨timer, hcomplete⟩, fun _ => rfl⟩
  | true =>
      constructor
      · intro hclosed
        exact absurd (hopen.symm.trans hclosed) (by decide)
      · rintro ⟨other, hother⟩
        rw [hcomplete] at hother
        cases hother

/-- What a step can do to the receive timer. -/
theorem receiveTimer_cases
    (hstep : channel.step rapid aborted event = some next) :
    (channel.Rearms rapid event ∧ ∃ expiry, next.heartbeatReceiveTimer =
      (channel.heartbeatReceiveTimer.cancel.expiresAt expiry).asyncWait) ∨
    (¬channel.Rearms rapid event ∧
      (next.heartbeatReceiveTimer = channel.heartbeatReceiveTimer ∨
        ∃ index, channel.heartbeatReceiveTimer.expire channel.now index =
            some next.heartbeatReceiveTimer ∨
          ∃ error, channel.heartbeatReceiveTimer.complete index =
            some (error, next.heartbeatReceiveTimer))) := by
  cases event with
  | elapse duration => cases hstep; exact Or.inr ⟨id, Or.inl rfl⟩
  | start => cases hstep; exact Or.inl ⟨trivial, _, rfl⟩
  | message payload sending =>
      rw [step_message hstep]
      rcases onMessage_cases rapid channel payload sending with
        ⟨hnot, hsame⟩ | ⟨hping, hanswered⟩
      · rw [hsame]
        exact Or.inr ⟨hnot, Or.inl rfl⟩
      · rw [hanswered]
        exact Or.inl ⟨hping, _, rfl⟩
  | expireSend position =>
      obtain ⟨timer, -, rfl⟩ := Option.map_eq_some_iff.mp hstep
      exact Or.inr ⟨id, Or.inl rfl⟩
  | expireReceive position =>
      obtain ⟨timer, hexpire, rfl⟩ := Option.map_eq_some_iff.mp hstep
      exact Or.inr ⟨id, Or.inr ⟨position, Or.inl hexpire⟩⟩
  | runSend position sending =>
      obtain ⟨⟨error, timer⟩, hcomplete, rfl⟩ :=
        Option.map_eq_some_iff.mp hstep
      obtain ⟨old, hold, hstate, -⟩ :=
        DeadlineTimer.complete_eq_some hcomplete
      cases error with
      | true =>
          refine Or.inr ⟨?_, Or.inl rfl⟩
          rintro ⟨⟨wait, hwait, hexpired⟩, -⟩
          rw [Option.mem_def, hold, Option.some.injEq] at hwait
          subst hwait
          rw [hstate] at hexpired
          cases hexpired
      | false =>
          cases sending with
          | error fault =>
              refine Or.inr ⟨?_, Or.inl rfl⟩
              rintro ⟨-, hsent⟩
              cases hsent
          | ok _ => exact Or.inl ⟨⟨⟨old, hold, hstate⟩, rfl⟩, _, rfl⟩
  | runReceive position closing =>
      obtain ⟨⟨error, timer⟩, hcomplete, rfl⟩ :=
        Option.map_eq_some_iff.mp hstep
      refine Or.inr ⟨id, Or.inr ⟨position, Or.inr ⟨error, ?_⟩⟩⟩
      cases error <;> cases closing <;> exact hcomplete
  | close => cases hstep; exact Or.inr ⟨id, Or.inl rfl⟩

theorem receiveTimer_of_failsToAnswer (hfails : FailsToAnswer rapid event)
    (hstep : channel.step rapid aborted event = some next) :
    next.heartbeatReceiveTimer = channel.heartbeatReceiveTimer := by
  cases event with
  | message payload sending =>
      rw [step_message hstep]
      rcases onMessage_cases rapid channel payload sending with
        ⟨-, hsame⟩ | ⟨hping, -⟩
      · rw [hsame]
        rfl
      · exact absurd hping.2 hfails.2
  | _ => exact absurd hfails id

theorem length_step (hstep : channel.step rapid aborted event = some next) :
    channel.heartbeatReceiveTimer.waits.length ≤
        next.heartbeatReceiveTimer.waits.length ∧
      next.heartbeatReceiveTimer.waits.length ≤
        channel.heartbeatReceiveTimer.waits.length + 1 := by
  rcases receiveTimer_cases hstep with
    ⟨-, expiry, hnext⟩ | ⟨-, hnext | ⟨position, hnext | ⟨error, hnext⟩⟩⟩
  · rw [hnext, DeadlineTimer.length_rearmed, DeadlineTimer.length_cancel]
    omega
  · rw [hnext]
    omega
  · obtain ⟨old, -, -, -, hsame⟩ := DeadlineTimer.expire_eq_some hnext
    rw [hsame, DeadlineTimer.length_setState]
    omega
  · obtain ⟨old, -, -, hsame⟩ := DeadlineTimer.complete_eq_some hnext
    rw [hsame, DeadlineTimer.length_setState]
    omega

theorem spent_step (h : channel.heartbeatReceiveTimer.Spent index)
    (hstep : channel.step rapid aborted event = some next) :
    next.heartbeatReceiveTimer.Spent index := by
  rcases receiveTimer_cases hstep with
    ⟨-, expiry, hnext⟩ | ⟨-, hnext | ⟨position, hnext | ⟨error, hnext⟩⟩⟩
  · rw [hnext]
    exact h.cancel.rearmed expiry
  · rw [hnext]
    exact h
  · exact h.expire hnext
  · exact h.complete hnext

/-- An orderly step which serves something ends all waits there were. -/
theorem spent_of_serves (hlt :
      index < channel.heartbeatReceiveTimer.waits.length)
    (horderly : channel.Orderly rapid unanswered event)
    (hserves : channel.Serves rapid unanswered event)
    (hstep : channel.step rapid aborted event = some next) :
    next.heartbeatReceiveTimer.Spent index := by
  have hwait := List.getElem?_eq_getElem hlt
  have hmem := List.mem_of_getElem? hwait
  rcases hserves with hrearms | ⟨hcounts, hfails⟩
  · have hexpired := horderly.1 hrearms _ hmem
    rcases receiveTimer_cases hstep with ⟨-, expiry, hnext⟩ | ⟨hnot, -⟩
    · rw [hnext]
      exact (DeadlineTimer.spent_cancel hwait hexpired).rearmed expiry
    · exact absurd hrearms hnot
  · have hover := horderly.2 hcounts hfails _ hmem
    exact spent_step ⟨_, hwait, hover⟩ hstep

theorem not_callsClose_of_spent
    (h : channel.heartbeatReceiveTimer.Spent index) :
    ¬channel.CallsClose index := by
  intro hcloses
  obtain ⟨wait, hwait, hexpired⟩ := callsClose_iff.mp hcloses
  exact h.not_expired hwait hexpired

theorem along_of_orderly {events : List Event}
    (hlt : index < channel.heartbeatReceiveTimer.waits.length)
    (horderly : Along (step rapid aborted) (Orderly rapid unanswered) channel
      events)
    (hrun : exec (step rapid aborted) channel events = some last)
    (hcloses : last.CallsClose index) :
    Along (step rapid aborted)
      (fun channel event => ¬channel.Serves rapid unanswered event)
      channel events := by
  induction events generalizing channel with
  | nil => trivial
  | cons event rest ih =>
      obtain ⟨next, hstep, hrest⟩ := exec_cons_eq_some.mp hrun
      constructor
      · intro hserves
        have hspent := spent_of_serves hlt horderly.1 hserves hstep
        have hlast := exec_invariant
          (fun state : HeartbeatChannel =>
            state.heartbeatReceiveTimer.Spent index)
          (fun _ _ _ h hnext => spent_step h hnext) hspent hrest
        exact not_callsClose_of_spent hlast hcloses
      · intro other hother
        have hlonger := (length_step hother).1
        rw [hstep, Option.some.injEq] at hother
        subst hother
        exact ih (by omega) (horderly.2 next hstep) hrest

theorem closesUnserved_of_orderly {events : List Event}
    (horderly : Along (step rapid aborted) (Orderly rapid unanswered) start
      events) :
    ClosesUnserved rapid aborted unanswered start events := by
  rintro before index closing rest last rfl hrun hcloses armed middle
    ⟨first, event, channel, rfl, hfirst, hstep, hlength, harmed⟩
  obtain ⟨hbefore, -⟩ := along_append.mp horderly
  obtain ⟨-, hafter⟩ := along_append.mp hbefore
  have hmiddle := (hafter channel hfirst).2 armed hstep
  rw [exec_append, hfirst, Option.bind_some] at hrun
  obtain ⟨next, hnext, hrest⟩ := exec_cons_eq_some.mp hrun
  rw [hstep, Option.some.injEq] at hnext
  subst hnext
  exact along_of_orderly (by omega) hmiddle hrest hcloses

/-! ## Steps that are not orderly -/

/-- Every wait of a run was armed in it. -/
theorem exists_armedBefore {events : List Event}
    (hnew : start.heartbeatReceiveTimer.waits.length ≤ index)
    (hrun : exec (step rapid aborted) start events = some last)
    (hlt : index < last.heartbeatReceiveTimer.waits.length) :
    ∃ armed middle, ArmedBefore rapid aborted start events index armed middle ∧
      exec (step rapid aborted) armed middle = some last := by
  induction events generalizing start with
  | nil =>
      cases hrun
      omega
  | cons event rest ih =>
      obtain ⟨next, hstep, hrest⟩ := exec_cons_eq_some.mp hrun
      have hone := (length_step hstep).2
      by_cases hthere : index < next.heartbeatReceiveTimer.waits.length
      · exact ⟨next, rest, ⟨[], event, start, rfl, rfl, hstep, by omega,
          by omega⟩, hrest⟩
      · obtain ⟨armed, middle, ⟨before, arming, channel, hevents, hbefore,
          harming⟩, hlast⟩ := ih (by omega) hrest
        refine ⟨armed, middle, ⟨event :: before, arming, channel, ?_, ?_,
          harming⟩, hlast⟩
        · rw [hevents, List.cons_append]
        · exact exec_cons_eq_some.mpr ⟨next, hstep, hbefore⟩

theorem exists_callsClose_of_live {wait : Wait ℕ}
    (hwait : channel.heartbeatReceiveTimer.waits[index]? = some wait)
    (hlive : wait.Live) :
    ∃ more last, exec (step rapid aborted) channel more = some last ∧
      last.CallsClose index := by
  rcases hlive with hwaiting | hexpired
  · -- the deadline passes and the handler is queued
    let timer := channel.heartbeatReceiveTimer.setState index .expired
    let late := { channel with now := channel.now + wait.deadline }
    have hexpire : channel.heartbeatReceiveTimer.expire
        (channel.now + wait.deadline) index = some timer := by
      simp [DeadlineTimer.expire, hwait, hwaiting, timer]
    refine ⟨[.elapse wait.deadline, .expireReceive index],
      { late with heartbeatReceiveTimer := timer }, ?_, ?_⟩
    · rw [exec_cons, step, Option.bind_some, exec_singleton, step, hexpire]
      rfl
    · apply callsClose_iff.mpr
      refine ⟨{ wait with state := .expired }, ?_, rfl⟩
      simp [timer, DeadlineTimer.setState, hwait]
  · exact ⟨[], channel, rfl, callsClose_iff.mpr ⟨wait, hwait, hexpired⟩⟩

/-- After a step that is not orderly a wait from before it can call
`Close`. -/
theorem exists_callsClose (hnot : ¬channel.Orderly rapid unanswered event)
    (hstep : channel.step rapid aborted event = some next) :
    channel.Serves rapid unanswered event ∧
      ∃ index more last,
        index < channel.heartbeatReceiveTimer.waits.length ∧
        exec (step rapid aborted) next more = some last ∧
        last.CallsClose index := by
  unfold Orderly at hnot
  rw [not_and_or] at hnot
  rcases hnot with hnot | hnot
  · simp only [Classical.not_imp, not_forall, not_not] at hnot
    obtain ⟨hrearms, wait, hmem, hexpired⟩ := hnot
    obtain ⟨index, hwait⟩ := List.mem_iff_getElem?.mp hmem
    have hlt := (List.getElem?_eq_some_iff.mp hwait).1
    have hkept : wait.cancel = wait := by
      apply Wait.cancel_of_ne_waiting
      rw [hexpired]
      decide
    refine ⟨Or.inl hrearms, index, [], next, hlt, rfl, ?_⟩
    rcases receiveTimer_cases hstep with ⟨-, expiry, hnext⟩ | ⟨hother, -⟩
    · apply callsClose_iff.mpr
      refine ⟨wait, ?_, hexpired⟩
      have hcancelled :
          channel.heartbeatReceiveTimer.cancel.waits[index]? = some wait := by
        rw [DeadlineTimer.cancel, List.getElem?_map, hwait, Option.map_some,
          hkept]
      rw [hnext, DeadlineTimer.getElem?_rearmed expiry hcancelled, hkept]
    · exact absurd hrearms hother
  · simp only [Classical.not_imp, not_forall, not_not] at hnot
    obtain ⟨hcounts, hfails, wait, hmem, hlive⟩ := hnot
    obtain ⟨index, hwait⟩ := List.mem_iff_getElem?.mp hmem
    have hlt := (List.getElem?_eq_some_iff.mp hwait).1
    have hsame : next.heartbeatReceiveTimer =
        channel.heartbeatReceiveTimer :=
      receiveTimer_of_failsToAnswer hfails hstep
    rw [← hsame] at hwait
    obtain ⟨more, last, hrun, hcloses⟩ :=
      exists_callsClose_of_live hwait hlive
    exact ⟨Or.inr ⟨hcounts, hfails⟩, index, more, last, hlt, hrun, hcloses⟩

/-- After a step that is not orderly the run can go on so that a handler closes
the connection though something was served. -/
theorem exists_not_closesUnserved {events : List Event}
    (hnew : start.heartbeatReceiveTimer.waits = [])
    (hrun : exec (step rapid aborted) start events = some channel)
    (hstep : channel.step rapid aborted event = some next)
    (hnot : ¬channel.Orderly rapid unanswered event) :
    ∃ more, (exec (step rapid aborted) start
        (events ++ event :: more)).isSome ∧
      ¬ClosesUnserved rapid aborted unanswered start
        (events ++ event :: more) := by
  obtain ⟨hserves, index, more, last, hlt, hmore, hcloses⟩ :=
    exists_callsClose hnot hstep
  have hzero : start.heartbeatReceiveTimer.waits.length ≤ index := by
    rw [hnew]
    exact Nat.zero_le index
  obtain ⟨armed, middle, harmed, hmiddle⟩ :=
    exists_armedBefore hzero hrun hlt
  have hlast : exec (step rapid aborted) start
      (events ++ event :: more) = some last := by
    rw [exec_append, hrun, Option.bind_some]
    exact exec_cons_eq_some.mpr ⟨next, hstep, hmore⟩
  refine ⟨more ++ [.runReceive index (.ok ())], ?_, ?_⟩
  · obtain ⟨timer, hcomplete⟩ := hcloses
    rw [← List.cons_append, ← List.append_assoc, exec_append, hlast,
      Option.bind_some, exec_singleton, step, hcomplete]
    rfl
  · intro hunserved
    obtain ⟨before, arming, first, rfl, hfirst⟩ := harmed
    have harmedLater : ArmedBefore rapid aborted start
        ((before ++ arming :: middle) ++ event :: more) index armed
        (middle ++ event :: more) := by
      refine ⟨before, arming, first, ?_, hfirst⟩
      rw [List.append_assoc, List.cons_append]
    have hnone := hunserved _ index (.ok ()) [] last (by simp) hlast hcloses
      armed _ harmedLater
    obtain ⟨-, hafter⟩ := along_append.mp hnone
    exact (hafter channel hmiddle).1 hserves

/-- From a new channel, as long as every step is orderly, a handler closes the
connection only if nothing was served since its wait was armed.  After any
other step a run can go on so that it does. -/
theorem closesUnserved_new (rapid : RapidJson) (aborted : ErrorCode)
    (unanswered : Bool) (now : ℕ) :
    (∀ events,
      Along (step rapid aborted) (Orderly rapid unanswered) { now } events →
        ClosesUnserved rapid aborted unanswered { now } events) ∧
    ∀ events event channel next,
      exec (step rapid aborted) { now } events = some channel →
      channel.step rapid aborted event = some next →
      ¬channel.Orderly rapid unanswered event →
        ∃ more,
          (exec (step rapid aborted) { now }
            (events ++ event :: more)).isSome ∧
          ¬ClosesUnserved rapid aborted unanswered { now }
            (events ++ event :: more) :=
  ⟨fun _ horderly => closesUnserved_of_orderly horderly,
    fun _ _ _ _ hrun hstep hnot =>
      exists_not_closesUnserved rfl hrun hstep hnot⟩

end Steps

/-! ## Runs -/

instance (rapid : RapidJson) (channel : HeartbeatChannel) (event : Event) :
    Decidable (channel.Rearms rapid event) :=
  match event with
  | .start => inferInstanceAs (Decidable True)
  | .message _ _ | .runSend _ _ => inferInstanceAs (Decidable (_ ∧ _))
  | .elapse _ | .expireSend _ | .expireReceive _ | .runReceive _ _
  | .close => inferInstanceAs (Decidable False)

instance (rapid : RapidJson) (event : Event) :
    Decidable (FailsToAnswer rapid event) :=
  match event with
  | .message _ _ => inferInstanceAs (Decidable (_ ∧ _))
  | .elapse _ | .start | .expireSend _ | .expireReceive _ | .runSend _ _
  | .runReceive _ _ | .close => inferInstanceAs (Decidable False)

instance (rapid : RapidJson) (unanswered : Bool)
    (channel : HeartbeatChannel) (event : Event) :
    Decidable (channel.Serves rapid unanswered event) :=
  inferInstanceAs (Decidable (_ ∨ _))

instance (rapid : RapidJson) (unanswered : Bool)
    (channel : HeartbeatChannel) (event : Event) :
    Decidable (channel.Orderly rapid unanswered event) :=
  inferInstanceAs (Decidable (_ ∧ _))

instance (channel : HeartbeatChannel) (index : ℕ) :
    Decidable (channel.CallsClose index) :=
  decidable_of_iff (∃ wait ∈ channel.heartbeatReceiveTimer.waits[index]?,
    wait.state = .expired) callsClose_iff.symm

def pingEvent : Event :=
  .message (lit "\x7b\"type\":\"PING\"\x7d") (.ok ())

/-- The timeout is queued when the peer is heard of again. -/
def heardLate : List Event :=
  [.start, .elapse (seconds 30), .expireReceive 0]

theorem closesUnserved_new_heardLate :
    ClosesUnserved textJson operationAborted true ({ now := 0 })
        [.start, pingEvent, .elapse (seconds 30), .expireReceive 1,
          .runReceive 1 (.ok ())] ∧
      ∃ more,
        (exec (step textJson operationAborted) ({ now := 0 })
          (heardLate ++ pingEvent :: more)).isSome ∧
        ¬ClosesUnserved textJson operationAborted true ({ now := 0 })
          (heardLate ++ pingEvent :: more) := by
  constructor
  · exact (closesUnserved_new textJson operationAborted true 0).1 _
      (by decide +kernel)
  · have hlate : (exec (step textJson operationAborted) ({ now := 0 })
        heardLate).any (fun channel =>
          (channel.step textJson operationAborted pingEvent).isSome &&
            !decide (channel.Orderly textJson true pingEvent)) = true := by
      decide +kernel
    obtain ⟨channel, hrun, hchannel⟩ := (Option.any_eq_true _ _).mp hlate
    obtain ⟨hsome, hnot⟩ := Bool.and_eq_true_iff.mp hchannel
    obtain ⟨next, hstep⟩ := Option.isSome_iff_exists.mp hsome
    exact (closesUnserved_new textJson operationAborted true 0).2 heardLate
      pingEvent channel next hrun hstep (by simpa using hnot)

/-- The `PING` is answered, and then the connection is closed. -/
def closedAnyway : List Event :=
  heardLate ++ [pingEvent, .runReceive 0 (.ok ())]

theorem not_closesUnserved_closedAnyway :
    (exec (step textJson operationAborted) ({} : HeartbeatChannel)
        closedAnyway).isSome ∧
      ¬ClosesUnserved textJson operationAborted false {} closedAnyway := by
  constructor
  · decide +kernel
  · intro hunserved
    have hqueued : (exec (step textJson operationAborted)
        ({} : HeartbeatChannel) (heardLate ++ [pingEvent])).any
          (fun last => decide (last.CallsClose 0)) = true := by
      decide +kernel
    obtain ⟨last, hrun, hcloses⟩ := (Option.any_eq_true _ _).mp hqueued
    have harmed : ArmedBefore textJson operationAborted {}
        (heardLate ++ [pingEvent]) 0 (start {}).hear
        [.elapse (seconds 30), .expireReceive 0, pingEvent] :=
      ⟨[], .start, {}, rfl, rfl, rfl, rfl, rfl⟩
    have hnone := hunserved _ 0 (.ok ()) [] last rfl hrun
      (of_decide_eq_true hcloses) _ _ harmed
    exact absurd hnone (by decide +kernel)

end HeartbeatChannel

end LibChromecast
