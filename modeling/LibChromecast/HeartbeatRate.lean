import LibChromecast.HeartbeatRestarts

/-!
# The rate of heartbeats

One `PING` every five seconds.  A handler of the send timer that runs with
success belongs to a wait of five seconds that began at the last `PING` or
later, and one that was cancelled sends nothing; so `Start` may be called again
at any time without a `PING` too many.  It may delay the next one, by no more
than five seconds.  The other frames are the answers to the peer.
-/

namespace LibChromecast

open Foundation Foundation.Transition

namespace HeartbeatChannel

/-! ## What is counted -/

def isBeat (frame : Json) : Bool :=
  match (frame.get (lit "type")).getString with
  | .ok type => type = lit "PING"
  | .error _ => false

/-- How many times `PING` was sent. -/
def beats (channel : HeartbeatChannel) : ℕ :=
  channel.frames.countP isBeat

def Event.isStart : Event → Bool
  | .start => true
  | _ => false

/-- A `PING` of the peer. -/
def Event.isAsked (rapid : RapidJson) : Event → Bool
  | .message payload _ => isPing rapid payload
  | _ => false

theorem isBeat_ping : isBeat ping = true := by
  decide

theorem isBeat_pong : isBeat pong = false := by
  decide

/-! ## The send timer -/

/-- What holds of the send timer in a timely run, after `beats` heartbeats of
which the first was started at `origin`. -/
structure Paced (origin restarts now beats : ℕ) (timer : DeadlineTimer ℕ) :
    Prop where
  reached : origin + seconds sendIntervalInSeconds * beats ≤ now
  spaced : ∀ wait ∈ timer.waits, wait.Live →
    origin + seconds sendIntervalInSeconds * (beats + 1) ≤ wait.deadline
  due : ∀ wait ∈ timer.waits, wait.state = .expired → wait.deadline ≤ now
  alone : ∀ (i j : ℕ) (first second : Wait ℕ),
    timer.waits[i]? = some first → timer.waits[j]? = some second →
      first.state = .expired → second.Live →
        i = j ∨ now < second.deadline
  waiting : timer.AtMostOne fun wait => wait.state = .waiting
  soon : ∃ wait ∈ timer.waits, wait.Live ∧ now ≤ wait.deadline ∧
    wait.deadline ≤ origin +
      seconds sendIntervalInSeconds * (beats + restarts + 1)

section Timer

variable {origin restarts now beats index : ℕ}
  {timer next : DeadlineTimer ℕ}

theorem live_of_rearmed {expiry : ℕ} {wait : Wait ℕ}
    (hwait : (timer.expiresAt expiry).asyncWait.waits[index]? = some wait)
    (hlive : wait.Live) :
    (timer.waits[index]? = some wait ∧ wait.state = .expired) ∨
      (index = timer.waits.length ∧ wait = ⟨expiry, .waiting⟩) := by
  rcases DeadlineTimer.rearmed_cases hwait with ⟨old, hold, rfl⟩ | hnew
  · have hexpired : old.cancel.state = .expired :=
      hlive.resolve_left old.cancel_state_ne_waiting
    refine Or.inl ⟨?_, hexpired⟩
    rw [hold, Wait.cancel_of_expired hexpired]
  · exact Or.inr hnew

/-- The timer is armed while every live wait is one that has expired; `past`
heartbeats were sent when the last of them was started. -/
theorem paced_rearm {past : ℕ}
    (hreached : origin + seconds sendIntervalInSeconds * beats ≤ now)
    (hspaced : ∀ wait ∈ timer.waits, wait.state = .expired →
      origin + seconds sendIntervalInSeconds * (beats + 1) ≤ wait.deadline)
    (hdue : ∀ wait ∈ timer.waits, wait.state = .expired →
      wait.deadline ≤ now)
    (hone : timer.AtMostOne fun wait => wait.state = .expired)
    (hsoon : now ≤ origin +
      seconds sendIntervalInSeconds * (beats + past)) :
    Paced origin past now beats
      (timer.expiresAt
        (now + seconds sendIntervalInSeconds)).asyncWait where
  reached := hreached
  spaced wait hmem hlive := by
    obtain ⟨index, hwait⟩ := List.mem_iff_getElem?.mp hmem
    rcases live_of_rearmed hwait hlive with ⟨hold, hexpired⟩ | ⟨-, rfl⟩
    · exact hspaced wait (List.mem_of_getElem? hold) hexpired
    · dsimp only
      rw [Nat.mul_succ]
      omega
  due wait hmem hexpired := by
    have hold := DeadlineTimer.expired_of_rearmed hmem hexpired
    exact hdue wait hold hexpired
  alone i j first second hfirst hsecond hexpired hlive := by
    rcases live_of_rearmed hfirst (Or.inr hexpired) with
      ⟨hold, -⟩ | ⟨-, rfl⟩
    · rcases live_of_rearmed hsecond hlive with ⟨hother, hsame⟩ | ⟨-, rfl⟩
      · exact Or.inl (hone i j first second hold hother hexpired hsame)
      · exact Or.inr (Nat.lt_add_of_pos_right (by decide))
    · cases hexpired
  waiting := DeadlineTimer.atMostOne_rearmed _ _
  soon := by
    refine ⟨⟨now + seconds sendIntervalInSeconds, .waiting⟩,
      DeadlineTimer.mem_asyncWait_expiresAt.mpr (Or.inr rfl), Or.inl rfl,
      Nat.le_add_right _ _, ?_⟩
    dsimp only
    rw [Nat.mul_succ]
    omega

theorem Paced.oneExpired (h : Paced origin restarts now beats timer) :
    timer.AtMostOne fun wait => wait.state = .expired := by
  intro i j first second hfirst hsecond hi hj
  have hdue := h.due second (List.mem_of_getElem? hsecond) hj
  rcases h.alone i j first second hfirst hsecond hi (Or.inr hj) with
    hsame | hlater
  · exact hsame
  · omega

theorem Paced.start (h : Paced origin restarts now beats timer) :
    Paced origin (restarts + 1) now beats
      (timer.expiresAt
        (now + seconds sendIntervalInSeconds)).asyncWait := by
  obtain ⟨wait, -, -, hle, hbound⟩ := h.soon
  exact paced_rearm h.reached
    (fun wait hmem hexpired => h.spaced wait hmem (Or.inr hexpired)) h.due
    h.oneExpired (Nat.le_trans hle hbound)

/-- A heartbeat is sent: no wait but the one of its handler had expired. -/
theorem Paced.beat (h : Paced origin restarts now beats timer)
    (hcomplete : timer.complete index = some (false, next)) :
    Paced origin restarts now (beats + 1)
      (next.expiresAt
        (now + seconds sendIntervalInSeconds)).asyncWait := by
  obtain ⟨old, hold, hstate, rfl⟩ :=
    DeadlineTimer.complete_eq_some hcomplete
  have hexpired : old.state = .expired := hstate
  have hmem := List.mem_of_getElem? hold
  have hnone : ∀ wait ∈ (timer.setState index .completed).waits,
      wait.state ≠ .expired := by
    intro wait hwait hother
    obtain ⟨position, hposition⟩ := List.mem_iff_getElem?.mp hwait
    obtain ⟨before, hbefore, ⟨-, rfl⟩ | ⟨hne, rfl⟩⟩ :=
      DeadlineTimer.setState_cases hposition
    · cases hother
    · exact hne (h.oneExpired position index wait old hbefore hold hother
        hexpired)
  obtain ⟨wait, -, -, hle, hbound⟩ := h.soon
  have hreached := Nat.le_trans (h.spaced old hmem (Or.inr hexpired))
    (h.due old hmem hexpired)
  refine paced_rearm hreached
    (fun wait hmem hother => absurd hother (hnone wait hmem))
    (fun wait hmem hother => absurd hother (hnone wait hmem)) ?_ ?_
  · intro i j first second hfirst _ hi _
    exact absurd hi (hnone first (List.mem_of_getElem? hfirst))
  · have hcount : beats + 1 + restarts = beats + restarts + 1 := by
      omega
    rw [hcount]
    exact Nat.le_trans hle hbound

/-- The handler of a wait that was cancelled runs. -/
theorem Paced.abort (h : Paced origin restarts now beats timer)
    (hcomplete : timer.complete index = some (true, next)) :
    Paced origin restarts now beats next := by
  obtain ⟨old, hold, hstate, rfl⟩ :=
    DeadlineTimer.complete_eq_some hcomplete
  have haborted : old.state = .aborted := hstate
  have hlive : ∀ (position : ℕ) (wait : Wait ℕ),
      (timer.setState index .completed).waits[position]? = some wait →
        wait.Live → timer.waits[position]? = some wait := by
    intro position wait hwait hlive
    obtain ⟨before, hbefore, ⟨-, rfl⟩ | ⟨-, rfl⟩⟩ :=
      DeadlineTimer.setState_cases hwait
    · simp [Wait.Live] at hlive
    · exact hbefore
  have hmem : ∀ wait ∈ (timer.setState index .completed).waits,
      wait.Live → wait ∈ timer.waits := by
    intro wait hwait hthere
    obtain ⟨position, hposition⟩ := List.mem_iff_getElem?.mp hwait
    exact List.mem_of_getElem? (hlive position wait hposition hthere)
  refine
    { reached := h.reached
      spaced := fun wait hwait hthere =>
        h.spaced wait (hmem wait hwait hthere) hthere
      due := fun wait hwait hexpired =>
        h.due wait (hmem wait hwait (Or.inr hexpired)) hexpired
      alone := fun i j first second hfirst hsecond hexpired hthere =>
        h.alone i j first second
          (hlive i first hfirst (Or.inr hexpired))
          (hlive j second hsecond hthere) hexpired hthere
      waiting := atMostOne_setState index (by decide) h.waiting
      soon := ?_ }
  obtain ⟨wait, hwait, hthere, hle, hbound⟩ := h.soon
  rcases DeadlineTimer.mem_setState_of_mem hwait hold with
    hkept | ⟨rfl, -⟩
  · exact ⟨wait, hkept, hthere, hle, hbound⟩
  · rw [Wait.Live, haborted] at hthere
    simp at hthere

/-- The one wait that is waiting expires: no other one had. -/
theorem Paced.expire (h : Paced origin restarts now beats timer)
    (hexpire : timer.expire now index = some next) :
    Paced origin restarts now beats next := by
  obtain ⟨old, hold, hwaiting, hdue, rfl⟩ :=
    DeadlineTimer.expire_eq_some hexpire
  have hmem := List.mem_of_getElem? hold
  have hcases : ∀ (position : ℕ) (wait : Wait ℕ),
      (timer.setState index .expired).waits[position]? = some wait →
        wait.Live →
          position = index ∧ wait = { old with state := .expired } := by
    intro position wait hwait hlive
    obtain ⟨before, hbefore, ⟨rfl, rfl⟩ | ⟨hne, rfl⟩⟩ :=
      DeadlineTimer.setState_cases hwait
    · rw [hold, Option.some.injEq] at hbefore
      rw [hbefore]
      exact ⟨rfl, rfl⟩
    · rcases hlive with hother | hexpired
      · exact absurd (h.waiting position index wait old hbefore hold hother
          hwaiting) hne
      · rcases h.alone position index wait old hbefore hold hexpired
          (Or.inl hwaiting) with hsame | hlater
        · exact absurd hsame hne
        · omega
  refine
    { reached := h.reached
      spaced := ?_
      due := ?_
      alone := ?_
      waiting := atMostOne_setState index (by decide) h.waiting
      soon := ?_ }
  · intro wait hwait hlive
    obtain ⟨position, hposition⟩ := List.mem_iff_getElem?.mp hwait
    obtain ⟨-, rfl⟩ := hcases position wait hposition hlive
    exact h.spaced old hmem (Or.inl hwaiting)
  · intro wait hwait hexpired
    obtain ⟨position, hposition⟩ := List.mem_iff_getElem?.mp hwait
    obtain ⟨-, rfl⟩ := hcases position wait hposition (Or.inr hexpired)
    exact hdue
  · intro i j first second hfirst hsecond hexpired hlive
    obtain ⟨hi, -⟩ := hcases i first hfirst (Or.inr hexpired)
    obtain ⟨hj, -⟩ := hcases j second hsecond hlive
    exact Or.inl (hi.trans hj.symm)
  · obtain ⟨wait, hwait, hlive, hle, hbound⟩ := h.soon
    rcases DeadlineTimer.mem_setState_of_mem hwait hold with
      hkept | ⟨rfl, hthere⟩
    · exact ⟨wait, hkept, hlive, hle, hbound⟩
    · exact ⟨_, hthere, Or.inr rfl, hle, hbound⟩

/-- Time passes while no handler is queued and no wait is due. -/
theorem Paced.elapse {duration : ℕ}
    (h : Paced origin restarts now beats timer)
    (hruns : RunsBefore (now + duration) timer) :
    Paced origin restarts (now + duration) beats timer where
  reached := Nat.le_trans h.reached (Nat.le_add_right _ _)
  spaced := h.spaced
  due wait hmem hexpired := absurd hexpired (hruns wait hmem).1
  alone i j first second hfirst _ hexpired _ :=
    absurd hexpired (hruns first (List.mem_of_getElem? hfirst)).1
  waiting := h.waiting
  soon := by
    obtain ⟨wait, hmem, hlive, -, hbound⟩ := h.soon
    obtain ⟨hexpired, hdeadline⟩ := hruns wait hmem
    exact ⟨wait, hmem, hlive,
      hdeadline (hlive.resolve_right hexpired), hbound⟩

end Timer

/-! ## Runs -/

section Runs

variable {rapid : RapidJson} {aborted : ErrorCode}
  {origin restarts answers : ℕ} {channel next last : HeartbeatChannel}
  {event : Event}

/-- The heartbeats are paced, and every other frame is an answer. -/
structure Rated (origin restarts answers : ℕ) (channel : HeartbeatChannel) :
    Prop where
  paced : Paced origin restarts channel.now channel.beats
    channel.heartbeatSendTimer
  sent : channel.frames.length = channel.beats + answers

theorem beats_send_ping (channel : HeartbeatChannel) :
    (channel.send ping (.ok ())).2.beats = channel.beats + 1 := by
  unfold beats send
  rw [List.countP_append, List.countP_singleton, if_pos isBeat_ping]

theorem beats_send_pong (channel : HeartbeatChannel) :
    (channel.send pong (.ok ())).2.beats = channel.beats := by
  unfold beats send
  rw [List.countP_append, List.countP_singleton, isBeat_pong]
  rfl

theorem Rated.onMessage (h : channel.Rated origin restarts answers)
    (rapid : RapidJson) (payload : StdString) :
    (channel.onMessage rapid payload (.ok ())).2.Rated origin restarts
      (answers + if isPing rapid payload then 1 else 0) := by
  rcases onMessage_cases rapid channel payload (.ok ()) with
    ⟨hnot, hsame⟩ | ⟨⟨hping, -⟩, hanswered⟩
  · rw [hsame, if_neg fun hping => hnot ⟨hping, rfl⟩]
    exact h
  · rw [hanswered, if_pos hping]
    have hbeats := beats_send_pong channel
    have hpaced : Paced origin restarts channel.now
        (channel.send pong (.ok ())).2.beats
        channel.heartbeatSendTimer := hbeats.symm ▸ h.paced
    refine ⟨hpaced, ?_⟩
    have hlength : (channel.send pong (.ok ())).2.frames.length =
        channel.frames.length + 1 := List.length_append
    have hsent := h.sent
    have hkept : (channel.send pong
        (.ok ())).2.startReceiveTimer.frames.length =
          (channel.send pong (.ok ())).2.frames.length := rfl
    have hcount : (channel.send pong (.ok ())).2.startReceiveTimer.beats =
        (channel.send pong (.ok ())).2.beats := rfl
    omega

theorem Rated.beat {index : ℕ} {timer : DeadlineTimer ℕ}
    (h : channel.Rated origin restarts answers)
    (hcomplete : channel.heartbeatSendTimer.complete index =
      some (false, timer)) :
    ({ channel with heartbeatSendTimer := timer }.send ping
      (.ok ())).2.start.Rated origin restarts answers := by
  have hbeats := beats_send_ping
    { channel with heartbeatSendTimer := timer }
  have hcount : ({ channel with heartbeatSendTimer := timer }.send ping
      (.ok ())).2.start.beats = channel.beats + 1 := hbeats
  have hlength : ({ channel with heartbeatSendTimer := timer }.send ping
      (.ok ())).2.start.frames.length = channel.frames.length + 1 :=
    List.length_append
  constructor
  · rw [hcount]
    exact h.paced.beat hcomplete
  · have hsent := h.sent
    omega

theorem Rated.step (h : channel.Rated origin restarts answers)
    (hevent : channel.Timely event)
    (hstep : channel.step rapid aborted event = some next) :
    next.Rated origin (restarts + if event.isStart then 1 else 0)
      (answers + if event.isAsked rapid then 1 else 0) := by
  cases event with
  | elapse duration =>
      cases hstep
      exact ⟨h.paced.elapse hevent.1, h.sent⟩
  | start =>
      cases hstep
      exact ⟨h.paced.start, h.sent⟩
  | message payload sending =>
      have hsending : sending = .ok () := hevent
      subst hsending
      rw [step_message hstep]
      have hrated := h.onMessage rapid payload
      exact ⟨hrated.paced, hrated.sent⟩
  | expireSend index =>
      obtain ⟨timer, hexpire, rfl⟩ := Option.map_eq_some_iff.mp hstep
      exact ⟨h.paced.expire hexpire, h.sent⟩
  | expireReceive index =>
      obtain ⟨timer, -, rfl⟩ := Option.map_eq_some_iff.mp hstep
      exact ⟨h.paced, h.sent⟩
  | runSend index sending =>
      obtain ⟨⟨error, timer⟩, hcomplete, rfl⟩ :=
        Option.map_eq_some_iff.mp hstep
      have hsending : sending = .ok () := hevent
      subst hsending
      cases error with
      | true => exact ⟨h.paced.abort hcomplete, h.sent⟩
      | false =>
          have hrated := h.beat hcomplete
          exact ⟨hrated.paced, hrated.sent⟩
  | runReceive index closing =>
      obtain ⟨⟨error, timer⟩, -, rfl⟩ := Option.map_eq_some_iff.mp hstep
      cases error <;> cases closing <;> exact ⟨h.paced, h.sent⟩
  | close =>
      cases hstep
      exact ⟨h.paced, h.sent⟩

end Runs

end HeartbeatChannel

end LibChromecast
