import LibChromecast.HeartbeatChannel

/-!
# Restarting the heartbeat

Setting the expiry of a timer cancels its wait, whose handler then runs with
`operation_aborted`.  The handler of the receive timer ignores that, the one of
the send timer throws it.  So `Start` is safe only while no heartbeat is due.
-/

namespace LibChromecast

open Foundation Foundation.Transition

namespace HeartbeatChannel

/-! ## The property -/

/-- How the timer handler that runs ends. -/
def handlerOutcome (aborted : ErrorCode) (channel : HeartbeatChannel) :
    Event → Option (Outcome Unit)
  | .runSend wait sending =>
      (channel.heartbeatSendTimer.complete wait).map fun completed =>
        let error := if completed.1 then some aborted else none
        ({ channel with heartbeatSendTimer := completed.2 }.onSendTimer
          error sending).1
  | .runReceive wait closing =>
      (channel.heartbeatReceiveTimer.complete wait).map fun completed =>
        let error := if completed.1 then some aborted else none
        ({ channel with
            heartbeatReceiveTimer := completed.2 }.onReceiveTimer
          error closing).1
  | _ => none

/-- A handler that raises is the one of a heartbeat whose `Send` raises. -/
def RaisesBySend (aborted : ErrorCode) (channel : HeartbeatChannel)
    (event : Event) : Prop :=
  ∀ fault, channel.handlerOutcome aborted event = some (.error fault) →
    ∃ index wait, event = .runSend index (.error fault) ∧
      channel.heartbeatSendTimer.waits[index]? = some wait ∧
      wait.state = .expired

structure OneOutstanding (channel : HeartbeatChannel) : Prop where
  send : channel.heartbeatSendTimer.AtMostOne
    fun wait => wait.state = .waiting
  receive : channel.heartbeatReceiveTimer.AtMostOne
    fun wait => wait.state = .waiting

/-- `Start` is called while no heartbeat is due, and `Close` does not raise
where the handler of the receive timer calls it. -/
def Calm (channel : HeartbeatChannel) : Event → Prop
  | .start => ∀ wait ∈ channel.heartbeatSendTimer.waits, ¬wait.Live
  | .runReceive index closing =>
      ∀ wait ∈ channel.heartbeatReceiveTimer.waits[index]?,
        wait.state = .expired → closing = .ok ()
  | _ => True

/-! ## The send timer -/

/-- At most one heartbeat is due, and none was cancelled. -/
structure Single (timer : DeadlineTimer ℕ) : Prop where
  one : timer.AtMostOne Wait.Live
  kept : ∀ wait ∈ timer.waits, wait.state ≠ .aborted

section Single

variable {timer next : DeadlineTimer ℕ} {expiry now index : ℕ}

theorem single_rearmed (h : Single timer)
    (hidle : ∀ wait ∈ timer.waits, ¬wait.Live) :
    Single (timer.expiresAt expiry).asyncWait := by
  have hsame : ∀ old ∈ timer.waits, old.cancel = old := by
    intro old hold
    have hwaiting : old.state ≠ .waiting :=
      fun hwaiting => hidle old hold (Or.inl hwaiting)
    exact Wait.cancel_of_ne_waiting hwaiting
  have hcases : ∀ (index : ℕ) (wait : Wait ℕ),
      (timer.expiresAt expiry).asyncWait.waits[index]? = some wait →
        wait ∈ timer.waits ∨
          (index = timer.waits.length ∧ wait = ⟨expiry, .waiting⟩) := by
    intro index wait hwait
    refine (DeadlineTimer.rearmed_cases hwait).imp_left ?_
    rintro ⟨old, hold, rfl⟩
    have hmem := List.mem_of_getElem? hold
    rw [hsame old hmem]
    exact hmem
  constructor
  · have hlast : ∀ (index : ℕ) (wait : Wait ℕ),
        (timer.expiresAt expiry).asyncWait.waits[index]? = some wait →
          wait.Live → index = timer.waits.length := by
      intro index wait hwait hlive
      rcases hcases index wait hwait with hold | ⟨hindex, -⟩
      · exact absurd hlive (hidle wait hold)
      · exact hindex
    intro i j first second hfirst hsecond hi hj
    exact (hlast i first hfirst hi).trans (hlast j second hsecond hj).symm
  · intro wait hmem
    obtain ⟨index, hindex⟩ := List.mem_iff_getElem?.mp hmem
    rcases hcases index wait hindex with hold | ⟨-, rfl⟩
    · exact h.kept wait hold
    · simp

theorem Single.expire (h : Single timer)
    (hexpire : timer.expire now index = some next) : Single next := by
  obtain ⟨old, hold, hwaiting, -, rfl⟩ :=
    DeadlineTimer.expire_eq_some hexpire
  constructor
  · apply h.one.setState
    intro other hother _
    rw [hold, Option.some.injEq] at hother
    exact Or.inl (hother ▸ hwaiting)
  · intro wait hmem
    rcases DeadlineTimer.mem_setState hmem with hthere | ⟨other, -, rfl⟩
    · exact h.kept wait hthere
    · simp

/-- A handler of the send timer runs without error, and then no heartbeat is
due. -/
theorem Single.complete (h : Single timer) {error : Bool}
    (hcomplete : timer.complete index = some (error, next)) :
    error = false ∧ Single next ∧ ∀ wait ∈ next.waits, ¬wait.Live := by
  obtain ⟨old, hold, hstate, rfl⟩ :=
    DeadlineTimer.complete_eq_some hcomplete
  cases error with
  | true =>
      exact absurd hstate (h.kept old (List.mem_of_getElem? hold))
  | false =>
      have hexpired : old.state = .expired := hstate
      refine ⟨rfl, ⟨?_, ?_⟩, ?_⟩
      · apply h.one.setState
        intro other _ hlive
        simp [Wait.Live] at hlive
      · intro wait hmem
        rcases DeadlineTimer.mem_setState hmem with hthere | ⟨other, -, rfl⟩
        · exact h.kept wait hthere
        · simp
      · intro wait hmem hlive
        obtain ⟨position, hposition⟩ := List.mem_iff_getElem?.mp hmem
        obtain ⟨other, hother, ⟨-, rfl⟩ | ⟨hne, rfl⟩⟩ :=
          DeadlineTimer.setState_cases hposition
        · simp [Wait.Live] at hlive
        · exact hne (h.one position index wait old hother hold hlive
            (Or.inr hexpired))

end Single

/-! ## Steps -/

section Steps

variable {rapid : RapidJson} {aborted : ErrorCode}
  {channel next : HeartbeatChannel} {event : Event}

theorem onMessage_heartbeatReceiveTimer (rapid : RapidJson)
    (payload : StdString)
    (sending : Outcome Unit)
    (h : channel.heartbeatReceiveTimer.AtMostOne
      fun wait => wait.state = .waiting) :
    (channel.onMessage rapid payload
      sending).2.heartbeatReceiveTimer.AtMostOne
        fun wait => wait.state = .waiting := by
  rcases onMessage_cases rapid channel payload sending with
    ⟨-, hsame⟩ | ⟨-, hanswered⟩
  · rw [hsame]
    exact h
  · rw [hanswered]
    exact DeadlineTimer.atMostOne_rearmed _ _

theorem oneOutstanding_start : channel.start.OneOutstanding :=
  ⟨DeadlineTimer.atMostOne_rearmed _ _, DeadlineTimer.atMostOne_rearmed _ _⟩

theorem atMostOne_setState {timer : DeadlineTimer ℕ} (index : ℕ)
    {state : WaitState} (hstate : state ≠ .waiting)
    (h : timer.AtMostOne fun wait => wait.state = .waiting) :
    (timer.setState index state).AtMostOne
      fun wait => wait.state = .waiting :=
  h.setState fun _ _ hwaiting => absurd hwaiting hstate

/-- Whatever happens, a timer never has two waits outstanding. -/
theorem OneOutstanding.step (h : channel.OneOutstanding)
    (hstep : channel.step rapid aborted event = some next) :
    next.OneOutstanding := by
  cases event with
  | elapse duration => cases hstep; exact ⟨h.send, h.receive⟩
  | start =>
      cases hstep
      exact ⟨oneOutstanding_start.send, oneOutstanding_start.receive⟩
  | message payload sending =>
      have hreceive :=
        onMessage_heartbeatReceiveTimer rapid payload sending h.receive
      have hsend := channel.onMessage_heartbeatSendTimer rapid payload sending
      rw [step_message hstep]
      refine ⟨?_, hreceive⟩
      exact hsend.symm ▸ h.send
  | expireSend index =>
      obtain ⟨timer, hexpire, rfl⟩ := Option.map_eq_some_iff.mp hstep
      obtain ⟨old, -, -, -, rfl⟩ := DeadlineTimer.expire_eq_some hexpire
      exact ⟨atMostOne_setState _ (by decide) h.send, h.receive⟩
  | expireReceive index =>
      obtain ⟨timer, hexpire, rfl⟩ := Option.map_eq_some_iff.mp hstep
      obtain ⟨old, -, -, -, rfl⟩ := DeadlineTimer.expire_eq_some hexpire
      exact ⟨h.send, atMostOne_setState _ (by decide) h.receive⟩
  | runSend index sending =>
      obtain ⟨⟨error, timer⟩, hcomplete, rfl⟩ :=
        Option.map_eq_some_iff.mp hstep
      obtain ⟨old, -, -, rfl⟩ := DeadlineTimer.complete_eq_some hcomplete
      have hsend := atMostOne_setState index
        (show WaitState.completed ≠ .waiting by decide) h.send
      cases error with
      | true => exact ⟨hsend, h.receive⟩
      | false =>
          cases sending with
          | error fault => exact ⟨hsend, h.receive⟩
          | ok _ => exact oneOutstanding_start
  | runReceive index closing =>
      obtain ⟨⟨error, timer⟩, hcomplete, rfl⟩ :=
        Option.map_eq_some_iff.mp hstep
      obtain ⟨old, -, -, rfl⟩ := DeadlineTimer.complete_eq_some hcomplete
      have hreceive := atMostOne_setState index
        (show WaitState.completed ≠ .waiting by decide) h.receive
      cases error with
      | true => exact ⟨h.send, hreceive⟩
      | false => cases closing <;> exact ⟨h.send, hreceive⟩
  | close => cases hstep; exact ⟨h.send, h.receive⟩

theorem Single.step (h : Single channel.heartbeatSendTimer)
    (hcalm : channel.Calm event)
    (hstep : channel.step rapid aborted event = some next) :
    Single next.heartbeatSendTimer := by
  cases event with
  | elapse duration => cases hstep; exact h
  | start => cases hstep; exact single_rearmed h hcalm
  | message payload sending =>
      have hsend := channel.onMessage_heartbeatSendTimer rapid payload sending
      rw [step_message hstep]
      exact hsend.symm ▸ h
  | expireSend index =>
      obtain ⟨timer, hexpire, rfl⟩ := Option.map_eq_some_iff.mp hstep
      exact h.expire hexpire
  | expireReceive index =>
      obtain ⟨timer, hexpire, rfl⟩ := Option.map_eq_some_iff.mp hstep
      exact h
  | runSend index sending =>
      obtain ⟨⟨error, timer⟩, hcomplete, rfl⟩ :=
        Option.map_eq_some_iff.mp hstep
      obtain ⟨rfl, hsingle, hidle⟩ := h.complete hcomplete
      cases sending with
      | error fault => exact hsingle
      | ok _ => exact single_rearmed hsingle hidle
  | runReceive index closing =>
      obtain ⟨⟨error, timer⟩, -, rfl⟩ := Option.map_eq_some_iff.mp hstep
      cases error <;> cases closing <;> exact h
  | close => cases hstep; exact h

theorem raisesBySend_of_calm (h : Single channel.heartbeatSendTimer)
    (hcalm : channel.Calm event) : channel.RaisesBySend aborted event := by
  intro fault houtcome
  cases event with
  | runSend index sending =>
      obtain ⟨⟨error, timer⟩, hcomplete, hfault⟩ :=
        Option.map_eq_some_iff.mp houtcome
      obtain ⟨rfl, -⟩ := h.complete hcomplete
      obtain ⟨old, hold, hstate, -⟩ :=
        DeadlineTimer.complete_eq_some hcomplete
      cases sending with
      | error other =>
          cases hfault
          exact ⟨index, old, rfl, hold, hstate⟩
      | ok _ => cases hfault
  | runReceive index closing =>
      obtain ⟨⟨error, timer⟩, hcomplete, hfault⟩ :=
        Option.map_eq_some_iff.mp houtcome
      obtain ⟨old, hold, hstate, -⟩ :=
        DeadlineTimer.complete_eq_some hcomplete
      cases error with
      | true => cases hfault
      | false =>
          have hclosing := hcalm old hold hstate
          rw [hclosing] at hfault
          cases hfault
  | _ => cases houtcome

/-- As long as `Start` is called while no heartbeat is due and `Close` does
not raise, a timer handler raises only if its `Send` does; two waits of one
timer are never outstanding. -/
theorem restartsSafely_of_calm {now : ℕ} {events : List Event}
    (hcalm : Along (step rapid aborted) Calm { now } events) :
    Along (step rapid aborted) (RaisesBySend aborted) { now } events ∧
      Throughout (step rapid aborted) OneOutstanding { now } events := by
  constructor
  · have hsingle : Single ({ now } : HeartbeatChannel).heartbeatSendTimer :=
      ⟨DeadlineTimer.atMostOne_of_nil rfl, fun _ => by simp⟩
    exact along_of_along
      (fun channel event next hcurrent hevent hstep =>
        Single.step hcurrent hevent hstep)
      (fun channel event hcurrent hevent =>
        raisesBySend_of_calm hcurrent hevent) hsingle hcalm
  · have hone : OneOutstanding ({ now } : HeartbeatChannel) :=
      ⟨DeadlineTimer.atMostOne_of_nil rfl, DeadlineTimer.atMostOne_of_nil rfl⟩
    exact throughout_of_along
      (fun channel event next hcurrent _ hstep => hcurrent.step hstep) hone
      hcalm

end Steps

/-! ## A restart while a heartbeat is due -/

section Restart

variable {rapid : RapidJson} {aborted : ErrorCode}
  {channel : HeartbeatChannel} {index : ℕ} {wait : Wait ℕ}

theorem not_raisesBySend_of_aborted
    (hwait : channel.heartbeatSendTimer.waits[index]? = some wait)
    (haborted : wait.state = .aborted) :
    ¬channel.RaisesBySend aborted (.runSend index (.ok ())) := by
  intro h
  have hcomplete : channel.heartbeatSendTimer.complete index =
      some (true, channel.heartbeatSendTimer.setState index .completed) := by
    simp [DeadlineTimer.complete, hwait, haborted]
  have houtcome : channel.handlerOutcome aborted
      (.runSend index (.ok ())) =
        some (throwOnErrorCode (some aborted) []) := by
    simp only [handlerOutcome, hcomplete, Option.map_some]
    rfl
  obtain ⟨other, found, hevent, -⟩ := h _ houtcome
  cases hevent

/-- A heartbeat that was cancelled by `Start` raises. -/
theorem raises_of_start_waiting
    (hwait : channel.heartbeatSendTimer.waits[index]? = some wait)
    (hwaiting : wait.state = .waiting) :
    ¬Along (step rapid aborted) (RaisesBySend aborted) channel
      [.start, .runSend index (.ok ())] := by
  intro h
  have hthere : channel.start.hear.heartbeatSendTimer.waits[index]? =
      some wait.cancel := DeadlineTimer.getElem?_rearmed _ hwait
  have haborted : wait.cancel.state = .aborted := by
    rw [Wait.cancel, if_pos hwaiting]
  exact not_raisesBySend_of_aborted hthere haborted (h.2 _ rfl).1

/-- A heartbeat that was queued when `Start` was called sends, and cancels the
one which `Start` began. -/
theorem raises_of_start_expired
    (hwait : channel.heartbeatSendTimer.waits[index]? = some wait)
    (hexpired : wait.state = .expired) :
    ¬Along (step rapid aborted) (RaisesBySend aborted) channel
      [.start, .runSend index (.ok ()),
        .runSend channel.heartbeatSendTimer.waits.length (.ok ())] := by
  intro h
  have hlt := (List.getElem?_eq_some_iff.mp hwait).1
  have hcancel : wait.cancel = wait := by
    apply Wait.cancel_of_ne_waiting
    simp [hexpired]
  have hthere : channel.start.hear.heartbeatSendTimer.waits[index]? =
      some wait := by
    rw [← hcancel]
    exact DeadlineTimer.getElem?_rearmed _ hwait
  have hcomplete : channel.start.hear.heartbeatSendTimer.complete index =
      some (false,
        channel.start.hear.heartbeatSendTimer.setState index .completed) := by
    simp [DeadlineTimer.complete, hthere, hexpired]
  obtain ⟨next, hstep⟩ := Option.isSome_iff_exists.mp
    (show (channel.start.hear.step rapid aborted
      (.runSend index (.ok ()))).isSome by simp [step, hcomplete])
  have hnew : channel.start.hear.heartbeatSendTimer.waits[
      channel.heartbeatSendTimer.waits.length]? =
        some ⟨channel.now + seconds sendIntervalInSeconds, .waiting⟩ :=
    DeadlineTimer.getElem?_rearmed_length _ _
  have hkept : (channel.start.hear.heartbeatSendTimer.setState index
      .completed).waits[channel.heartbeatSendTimer.waits.length]? =
        some ⟨channel.now + seconds sendIntervalInSeconds, .waiting⟩ := by
    rw [DeadlineTimer.setState, List.getElem?_modify, hnew]
    simp [Nat.ne_of_lt hlt]
  have hnext : next.heartbeatSendTimer.waits[
      channel.heartbeatSendTimer.waits.length]? =
        some (⟨channel.now + seconds sendIntervalInSeconds,
          .waiting⟩ : Wait ℕ).cancel := by
    simp only [step, hcomplete, Option.map_some, Option.some.injEq] at hstep
    rw [← hstep]
    exact DeadlineTimer.getElem?_rearmed _ hkept
  exact not_raisesBySend_of_aborted hnext rfl ((h.2 _ rfl).2 next hstep).1

end Restart

/-! ## Runs -/

instance (channel : HeartbeatChannel) (event : Event) :
    Decidable (channel.Calm event) :=
  match event with
  | .start => inferInstanceAs
      (Decidable (∀ wait ∈ channel.heartbeatSendTimer.waits, ¬wait.Live))
  | .runReceive index closing => inferInstanceAs
      (Decidable (∀ wait ∈ channel.heartbeatReceiveTimer.waits[index]?,
        wait.state = .expired → closing = .ok ()))
  | .elapse _ | .message _ _ | .expireSend _ | .expireReceive _
  | .runSend _ _ | .close => inferInstanceAs (Decidable True)

/-- `Start` is called again once a heartbeat could not be sent. -/
def restarted : List Event :=
  [.start, .message (lit "\x7b\"type\":\"PING\"\x7d") (.ok ()),
    .runReceive 0 (.ok ()), .elapse (seconds 5), .expireSend 0,
    .runSend 0 (raise (.runtimeError (lit "broken pipe"))), .start]

theorem restartsSafely_of_calm_restarted :
    Along (step textJson operationAborted) (RaisesBySend operationAborted)
        ({ now := 0 } : HeartbeatChannel) restarted ∧
      Throughout (step textJson operationAborted) OneOutstanding
        ({ now := 0 } : HeartbeatChannel) restarted :=
  restartsSafely_of_calm (by decide +kernel)

/-- `Start` is called for a second connection. -/
def reconnected : List Event :=
  [.start, .start, .runSend 0 (.ok ())]

theorem not_restartsSafely_reconnected :
    (exec (step textJson operationAborted) ({} : HeartbeatChannel)
        reconnected).isSome ∧
      ¬Along (step textJson operationAborted)
        (RaisesBySend operationAborted) ({} : HeartbeatChannel)
        reconnected := by
  constructor
  · decide +kernel
  · intro h
    exact raises_of_start_waiting rfl rfl (h.2 _ rfl)

end HeartbeatChannel

end LibChromecast
