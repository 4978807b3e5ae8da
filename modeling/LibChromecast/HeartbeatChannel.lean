import Mathlib.Algebra.Group.Nat.Defs
import LibChromecast.Foundation.DeadlineTimer
import LibChromecast.Foundation.Transition
import LibChromecast.JsonText

/-!
# Heartbeats

`HeartbeatChannel` with its two timers.  Time is counted in microseconds, the
resolution of `boost::posix_time`.  How the sending of a frame ends, and how
`Close` ends, is in the event; `aborted` is what a wait which was cancelled
reports on the platform.

`heard` is not in the source: the time of the last message, or of the call of
`Start` if it is later.
-/

namespace LibChromecast

open Foundation Foundation.Transition

def seconds (count : ℕ) : ℕ := count * 1000000

structure HeartbeatChannel where
  now : ℕ := 0
  heartbeatSendTimer : DeadlineTimer ℕ := {}
  heartbeatReceiveTimer : DeadlineTimer ℕ := {}
  connectionOpen : Bool := true
  frames : List Json := []
  heard : ℕ := 0

namespace HeartbeatChannel

def sendIntervalInSeconds : ℕ := 5

def receiveTimeoutInSeconds : ℕ := 30

def startSendTimer (channel : HeartbeatChannel) : HeartbeatChannel :=
  { channel with
    heartbeatSendTimer :=
      (channel.heartbeatSendTimer.expiresAt
        (channel.now + seconds sendIntervalInSeconds)).asyncWait }

def startReceiveTimer (channel : HeartbeatChannel) : HeartbeatChannel :=
  { channel with
    heartbeatReceiveTimer :=
      (channel.heartbeatReceiveTimer.cancel.expiresAt
        (channel.now + seconds receiveTimeoutInSeconds)).asyncWait }

@[simp] theorem startSendTimer_now (channel : HeartbeatChannel) :
    channel.startSendTimer.now = channel.now := rfl

def start (channel : HeartbeatChannel) : HeartbeatChannel :=
  channel.startSendTimer.startReceiveTimer

def send (document : Json) (sending : Outcome Unit)
    (channel : HeartbeatChannel) : Outcome Unit × HeartbeatChannel :=
  match sending with
  | .error fault => (.error fault, channel)
  | .ok () =>
      (.ok (), { channel with frames := channel.frames ++ [document] })

def ping : Json := Json.null.set (lit "type") (.ofString (lit "PING"))

def pong : Json := Json.null.set (lit "type") (.ofString (lit "PONG"))

/-- The handler of the send timer. -/
def onSendTimer (error : Option ErrorCode) (sending : Outcome Unit)
    (channel : HeartbeatChannel) : Outcome Unit × HeartbeatChannel :=
  match throwOnErrorCode error [] with
  | .error fault => (.error fault, channel)
  | .ok () =>
      match channel.send ping sending with
      | (.error fault, channel) => (.error fault, channel)
      | (.ok (), channel) => (.ok (), channel.start)

/-- The handler of the receive timer. -/
def onReceiveTimer (error : Option ErrorCode) (closing : Outcome Unit)
    (channel : HeartbeatChannel) : Outcome Unit × HeartbeatChannel :=
  match error, closing with
  | some _, _ => (.ok (), channel)
  | none, .error fault => (.error fault, channel)
  | none, .ok () => (.ok (), { channel with connectionOpen := false })

def onMessage (rapid : RapidJson) (payload : StdString)
    (sending : Outcome Unit) (channel : HeartbeatChannel) :
    Outcome Bool × HeartbeatChannel :=
  let jsonMessage := (rapid.parseMessage payload).touch (lit "type")
  match (jsonMessage.get (lit "type")).getString with
  | .error fault => (.error fault, channel)
  | .ok type =>
      if type = lit "PONG" then (.ok true, channel)
      else if type ≠ lit "PING" then (.ok false, channel)
      else
        match channel.send pong sending with
        | (.error fault, channel) => (.error fault, channel)
        | (.ok (), channel) => (.ok true, channel.startReceiveTimer)

/-- The type that `onMessage` finds is `PING`. -/
def isPing (rapid : RapidJson) (payload : StdString) : Bool :=
  let jsonMessage := (rapid.parseMessage payload).touch (lit "type")
  match (jsonMessage.get (lit "type")).getString with
  | .ok type => type = lit "PING"
  | .error _ => false

/-- A `PING` that is answered rearms the receive timer.  Any other message
leaves the channel as it was. -/
theorem onMessage_cases (rapid : RapidJson) (channel : HeartbeatChannel)
    (payload : StdString) (sending : Outcome Unit) :
    (¬(isPing rapid payload ∧ sending = .ok ()) ∧
      (channel.onMessage rapid payload sending).2 = channel) ∨
    ((isPing rapid payload ∧ sending = .ok ()) ∧
      (channel.onMessage rapid payload sending).2 =
        (channel.send pong (.ok ())).2.startReceiveTimer) := by
  unfold isPing onMessage
  dsimp only
  cases (((rapid.parseMessage payload).touch (lit "type")).get
      (lit "type")).getString with
  | error fault =>
      refine Or.inl ⟨?_, rfl⟩
      rintro ⟨hping, -⟩
      cases hping
  | ok type =>
      dsimp only
      by_cases hping : type = lit "PING"
      · subst hping
        rw [if_neg (by decide), if_neg (by simp)]
        cases sending with
        | error fault =>
            refine Or.inl ⟨?_, rfl⟩
            rintro ⟨-, hsent⟩
            cases hsent
        | ok _ => exact Or.inr ⟨⟨by simp, rfl⟩, rfl⟩
      · refine Or.inl ⟨fun h => hping (of_decide_eq_true h.1), ?_⟩
        rw [if_pos hping]
        split_ifs <;> rfl

/-! ## Runs -/

inductive Event where
  | elapse (duration : ℕ)
  | start
  | message (payload : StdString) (sending : Outcome Unit)
  | expireSend (wait : ℕ)
  | expireReceive (wait : ℕ)
  | runSend (wait : ℕ) (sending : Outcome Unit)
  | runReceive (wait : ℕ) (closing : Outcome Unit)
  /-- Someone else closes the connection. -/
  | close

def hear (channel : HeartbeatChannel) : HeartbeatChannel :=
  { channel with heard := channel.now }

def step (rapid : RapidJson) (aborted : ErrorCode)
    (channel : HeartbeatChannel) : Event → Option HeartbeatChannel
  | .elapse duration =>
      some { channel with now := channel.now + duration }
  | .start => some channel.start.hear
  | .message payload sending =>
      match channel.onMessage rapid payload sending with
      | (.error .violated, _) => none
      | (_, channel) => some channel.hear
  | .expireSend wait =>
      (channel.heartbeatSendTimer.expire channel.now wait).map
        fun heartbeatSendTimer => { channel with heartbeatSendTimer }
  | .expireReceive wait =>
      (channel.heartbeatReceiveTimer.expire channel.now wait).map
        fun heartbeatReceiveTimer => { channel with heartbeatReceiveTimer }
  | .runSend wait sending =>
      (channel.heartbeatSendTimer.complete wait).map fun completed =>
        let error := if completed.1 then some aborted else none
        ({ channel with heartbeatSendTimer := completed.2 }.onSendTimer
          error sending).2
  | .runReceive wait closing =>
      (channel.heartbeatReceiveTimer.complete wait).map fun completed =>
        let error := if completed.1 then some aborted else none
        ({ channel with
            heartbeatReceiveTimer := completed.2 }.onReceiveTimer
          error closing).2
  | .close => some { channel with connectionOpen := false }

/-! ## Timed runs -/

/-- No handler which is queued with success, and no wait which is due, is
passed over. -/
def RunsBefore (time : ℕ) (timer : DeadlineTimer ℕ) : Prop :=
  ∀ wait ∈ timer.waits, wait.state ≠ .expired ∧
    (wait.state = .waiting → time ≤ wait.deadline)

/-- Handlers run when their timer expires, and sends do not fail. -/
def Timely (channel : HeartbeatChannel) : Event → Prop
  | .elapse duration =>
      RunsBefore (channel.now + duration) channel.heartbeatSendTimer ∧
        RunsBefore (channel.now + duration) channel.heartbeatReceiveTimer
  | .message _ sending | .runSend _ sending => sending = .ok ()
  | .start | .expireSend _ | .expireReceive _ | .runReceive _ _
  | .close => True

/-- The connection is not open once nothing was heard for longer than the
receive timeout. -/
def Detects (channel : HeartbeatChannel) : Prop :=
  channel.connectionOpen = true →
    channel.now ≤ channel.heard + seconds receiveTimeoutInSeconds

/-- For how long nothing was heard, after an event. -/
def silenceAfter (silence : ℕ) : Event → ℕ
  | .elapse duration => silence + duration
  | .start | .message _ _ => 0
  | _ => silence

/-- The peer never keeps silent for longer than the receive timeout, until
someone else closes the connection. -/
def NeverSilent (silence : ℕ) : List Event → Prop
  | [] => silence ≤ seconds receiveTimeoutInSeconds
  | .close :: _ => silence ≤ seconds receiveTimeoutInSeconds
  | event :: rest =>
      silence ≤ seconds receiveTimeoutInSeconds ∧
        NeverSilent (silenceAfter silence event) rest

/-! ## The receive timer never runs down -/

section RunsBefore

variable {time earlier expiry now : ℕ} {index : ℕ}
  {timer next : DeadlineTimer ℕ}

theorem RunsBefore.cancel (h : RunsBefore time timer) :
    RunsBefore time timer.cancel := by
  intro wait hwait
  constructor
  · intro hexpired
    have hold := DeadlineTimer.expired_of_cancel hwait hexpired
    exact (h wait hold).1 hexpired
  · intro hwaiting
    exact absurd hwaiting (DeadlineTimer.waiting_of_cancel hwait)

theorem RunsBefore.rearm (h : RunsBefore earlier timer)
    (hle : time ≤ expiry) :
    RunsBefore time (timer.expiresAt expiry).asyncWait := by
  intro wait hwait
  constructor
  · intro hexpired
    have hold := DeadlineTimer.expired_of_rearmed hwait hexpired
    exact (h wait hold).1 hexpired
  · intro hwaiting
    rw [DeadlineTimer.waiting_of_rearmed hwait hwaiting]
    exact hle

theorem RunsBefore.complete (h : RunsBefore time timer) {error : Bool}
    (hcomplete : timer.complete index = some (error, next)) :
    error = true ∧ RunsBefore time next := by
  obtain ⟨old, hold, hstate, rfl⟩ :=
    DeadlineTimer.complete_eq_some hcomplete
  constructor
  · cases error with
    | true => rfl
    | false =>
        exact absurd hstate (h old (List.mem_of_getElem? hold)).1
  · intro wait hwait
    rcases DeadlineTimer.mem_setState hwait with hmem | ⟨_, _, rfl⟩
    · exact h wait hmem
    · simp

theorem RunsBefore.expire (h : RunsBefore time timer) (hlt : now < time) :
    timer.expire now index = none := by
  cases hexpire : timer.expire now index with
  | none => rfl
  | some next =>
      obtain ⟨old, hold, hwaiting, hdue, -⟩ :=
        DeadlineTimer.expire_eq_some hexpire
      have hlate := (h old (List.mem_of_getElem? hold)).2 hwaiting
      omega

end RunsBefore

/-- A heartbeat is due within the send interval, and the receive timer is
patient for long after it. -/
def Beating (channel : HeartbeatChannel) : Prop :=
  ∃ wait ∈ channel.heartbeatSendTimer.waits, wait.Live ∧
    channel.now ≤ wait.deadline ∧
    wait.deadline ≤ channel.now + seconds sendIntervalInSeconds ∧
    RunsBefore
      (wait.deadline +
        seconds (receiveTimeoutInSeconds - sendIntervalInSeconds))
      channel.heartbeatReceiveTimer

theorem beating_start {channel : HeartbeatChannel} {time : ℕ}
    (h : RunsBefore time channel.heartbeatReceiveTimer) :
    channel.start.Beating := by
  refine ⟨⟨channel.now + seconds sendIntervalInSeconds, .waiting⟩,
    DeadlineTimer.mem_asyncWait_expiresAt.mpr (Or.inr rfl), Or.inl rfl,
    Nat.le_add_right _ _, Nat.le_refl _, ?_⟩
  apply h.cancel.rearm
  simp only [seconds, sendIntervalInSeconds, receiveTimeoutInSeconds,
    startSendTimer_now]
  omega

theorem Beating.startReceiveTimer {channel : HeartbeatChannel}
    (h : channel.Beating) : channel.startReceiveTimer.Beating := by
  obtain ⟨wait, hmem, hlive, hle, hbound, hpatient⟩ := h
  refine ⟨wait, hmem, hlive, hle, hbound, ?_⟩
  apply hpatient.cancel.rearm
  simp only [seconds, sendIntervalInSeconds, receiveTimeoutInSeconds] at *
  omega

theorem Beating.onMessage {rapid : RapidJson} {channel : HeartbeatChannel}
    (h : channel.Beating) (payload : StdString) (sending : Outcome Unit) :
    (channel.onMessage rapid payload sending).2.Beating := by
  rcases onMessage_cases rapid channel payload sending with
    ⟨-, hsame⟩ | ⟨-, hanswered⟩
  · rw [hsame]
    exact h
  · rw [hanswered]
    have hsent : (channel.send pong (.ok ())).2.Beating := h
    exact hsent.startReceiveTimer

theorem onMessage_connectionOpen (rapid : RapidJson)
    (channel : HeartbeatChannel) (payload : StdString)
    (sending : Outcome Unit) :
    (channel.onMessage rapid payload sending).2.connectionOpen =
      channel.connectionOpen := by
  rcases onMessage_cases rapid channel payload sending with
    ⟨-, hsame⟩ | ⟨-, hanswered⟩
  · rw [hsame]
  · rw [hanswered]
    rfl

theorem onMessage_heartbeatSendTimer (rapid : RapidJson)
    (channel : HeartbeatChannel) (payload : StdString)
    (sending : Outcome Unit) :
    (channel.onMessage rapid payload sending).2.heartbeatSendTimer =
      channel.heartbeatSendTimer := by
  rcases onMessage_cases rapid channel payload sending with
    ⟨-, hsame⟩ | ⟨-, hanswered⟩
  · rw [hsame]
  · rw [hanswered]
    rfl

/-- A message that has a next state is handled, and heard. -/
theorem step_message {rapid : RapidJson} {aborted : ErrorCode}
    {channel next : HeartbeatChannel} {payload : StdString}
    {sending : Outcome Unit}
    (hstep : channel.step rapid aborted (.message payload sending) =
      some next) :
    next = (channel.onMessage rapid payload sending).2.hear := by
  simp only [HeartbeatChannel.step] at hstep
  split at hstep
  next => cases hstep
  next heq =>
    cases hstep
    rw [heq]

/-- In a timely run every step keeps the next heartbeat due, and the channel
does not close the connection. -/
theorem Beating.step {rapid : RapidJson} {aborted : ErrorCode}
    {channel next : HeartbeatChannel} {event : Event}
    (h : channel.Beating) (hevent : channel.Timely event)
    (hclose : event ≠ .close)
    (hstep : channel.step rapid aborted event = some next) :
    next.Beating ∧ next.connectionOpen = channel.connectionOpen := by
  cases event with
  | elapse duration =>
      cases hstep
      obtain ⟨wait, hmem, hlive, hle, hbound, hpatient⟩ := h
      refine ⟨⟨wait, hmem, hlive, ?_, ?_, hpatient⟩, rfl⟩
      · obtain ⟨hexpired, hdeadline⟩ := hevent.1 wait hmem
        exact hdeadline (hlive.resolve_right hexpired)
      · dsimp only
        omega
  | start =>
      cases hstep
      obtain ⟨wait, -, -, -, -, hpatient⟩ := h
      exact ⟨beating_start hpatient, rfl⟩
  | message payload sending =>
      rw [step_message hstep]
      exact ⟨h.onMessage payload sending, onMessage_connectionOpen _ _ _ _⟩
  | expireSend index =>
      obtain ⟨timer, hexpire, rfl⟩ := Option.map_eq_some_iff.mp hstep
      obtain ⟨old, hold, -, -, rfl⟩ :=
        DeadlineTimer.expire_eq_some hexpire
      obtain ⟨wait, hmem, hlive, hle, hbound, hpatient⟩ := h
      refine ⟨?_, rfl⟩
      rcases DeadlineTimer.mem_setState_of_mem hmem hold with
        hthere | ⟨rfl, hthere⟩
      · exact ⟨wait, hthere, hlive, hle, hbound, hpatient⟩
      · exact ⟨_, hthere, Or.inr rfl, hle, hbound, hpatient⟩
  | expireReceive index =>
      obtain ⟨timer, hexpire, rfl⟩ := Option.map_eq_some_iff.mp hstep
      obtain ⟨wait, hmem, hlive, hle, hbound, hpatient⟩ := h
      have hlt : channel.now < wait.deadline +
          seconds (receiveTimeoutInSeconds - sendIntervalInSeconds) :=
        Nat.lt_of_le_of_lt hle (Nat.lt_add_of_pos_right (by decide))
      rw [hpatient.expire hlt] at hexpire
      cases hexpire
  | runSend index sending =>
      obtain ⟨⟨error, timer⟩, hcomplete, rfl⟩ :=
        Option.map_eq_some_iff.mp hstep
      obtain ⟨old, hold, hstate, rfl⟩ :=
        DeadlineTimer.complete_eq_some hcomplete
      obtain ⟨wait, hmem, hlive, hle, hbound, hpatient⟩ := h
      cases error with
      | true =>
          -- the wait which still lives is not the one that was cancelled
          refine ⟨?_, rfl⟩
          rcases DeadlineTimer.mem_setState_of_mem hmem hold with
            hthere | ⟨rfl, -⟩
          · exact ⟨wait, hthere, hlive, hle, hbound, hpatient⟩
          · rw [Wait.Live, hstate] at hlive
            simp at hlive
      | false =>
          have hsending : sending = .ok () := hevent
          subst hsending
          exact ⟨beating_start hpatient, rfl⟩
  | runReceive index closing =>
      obtain ⟨⟨error, timer⟩, hcomplete, rfl⟩ :=
        Option.map_eq_some_iff.mp hstep
      obtain ⟨wait, hmem, hlive, hle, hbound, hpatient⟩ := h
      obtain ⟨rfl, hlater⟩ := hpatient.complete hcomplete
      exact ⟨⟨wait, hmem, hlive, hle, hbound, hlater⟩, rfl⟩
  | close => exact absurd rfl hclose

/-! ## Silence -/

section Silence

variable {rapid : RapidJson} {aborted : ErrorCode}
  {channel next last : HeartbeatChannel} {event : Event}

theorem onSendTimer_now (error : Option ErrorCode) (sending : Outcome Unit) :
    (channel.onSendTimer error sending).2.now = channel.now ∧
      (channel.onSendTimer error sending).2.heard = channel.heard := by
  cases error <;> cases sending <;> exact ⟨rfl, rfl⟩

theorem onReceiveTimer_now (error : Option ErrorCode)
    (closing : Outcome Unit) :
    (channel.onReceiveTimer error closing).2.now = channel.now ∧
      (channel.onReceiveTimer error closing).2.heard = channel.heard := by
  cases error <;> cases closing <;> exact ⟨rfl, rfl⟩

/-- What was not heard is counted by the events. -/
theorem silence_step {silence : ℕ}
    (h : channel.now = channel.heard + silence)
    (hstep : channel.step rapid aborted event = some next) :
    next.now = next.heard + silenceAfter silence event := by
  cases event with
  | elapse duration =>
      cases hstep
      dsimp only [silenceAfter]
      omega
  | start =>
      cases hstep
      rfl
  | message payload sending =>
      rw [step_message hstep]
      rfl
  | expireSend index =>
      obtain ⟨timer, -, rfl⟩ := Option.map_eq_some_iff.mp hstep
      exact h
  | expireReceive index =>
      obtain ⟨timer, -, rfl⟩ := Option.map_eq_some_iff.mp hstep
      exact h
  | runSend index sending =>
      obtain ⟨completed, -, rfl⟩ := Option.map_eq_some_iff.mp hstep
      rw [(onSendTimer_now _ _).1, (onSendTimer_now _ _).2]
      exact h
  | runReceive index closing =>
      obtain ⟨completed, -, rfl⟩ := Option.map_eq_some_iff.mp hstep
      rw [(onReceiveTimer_now _ _).1, (onReceiveTimer_now _ _).2]
      exact h
  | close =>
      cases hstep
      exact h

theorem closed_step (h : channel.connectionOpen = false)
    (hstep : channel.step rapid aborted event = some next) :
    next.connectionOpen = false := by
  cases event with
  | elapse duration => cases hstep; exact h
  | start => cases hstep; exact h
  | message payload sending =>
      rw [step_message hstep]
      exact (onMessage_connectionOpen rapid channel payload sending).trans h
  | expireSend index =>
      obtain ⟨timer, -, rfl⟩ := Option.map_eq_some_iff.mp hstep
      exact h
  | expireReceive index =>
      obtain ⟨timer, -, rfl⟩ := Option.map_eq_some_iff.mp hstep
      exact h
  | runSend index sending =>
      obtain ⟨⟨error, timer⟩, -, rfl⟩ := Option.map_eq_some_iff.mp hstep
      cases error <;> cases sending <;> exact h
  | runReceive index closing =>
      obtain ⟨⟨error, timer⟩, -, rfl⟩ := Option.map_eq_some_iff.mp hstep
      cases error <;> cases closing <;> first | exact h | rfl
  | close => cases hstep; rfl

/-- A connection which is closed stays closed. -/
theorem detects_of_closed (h : channel.connectionOpen = false)
    (events : List Event) :
    Throughout (step rapid aborted) Detects channel events := by
  have hclosed : Throughout (step rapid aborted)
      (fun current => current.connectionOpen = false) channel events :=
    throughout_of_along
      (fun _ _ _ hcurrent _ hstep => closed_step hcurrent hstep) h
      (along_true channel events)
  exact throughout_mono
    (fun current hcurrent hopen => by
      rw [hcurrent] at hopen
      cases hopen) hclosed

theorem detects_iff_silence {silence : ℕ}
    (hopen : channel.connectionOpen = true)
    (hsilence : channel.now = channel.heard + silence) :
    channel.Detects ↔ silence ≤ seconds receiveTimeoutInSeconds := by
  unfold Detects
  rw [hsilence]
  constructor
  · intro hdetects
    have hle := hdetects hopen
    omega
  · intro hle _
    omega

theorem detects_iff_neverSilent {silence : ℕ} {events : List Event}
    (hopen : channel.connectionOpen = true) (hbeating : channel.Beating)
    (hsilence : channel.now = channel.heard + silence)
    (hrun : exec (step rapid aborted) channel events = some last)
    (htimely : Along (step rapid aborted) Timely channel events) :
    Throughout (step rapid aborted) Detects channel events ↔
      NeverSilent silence events := by
  induction events generalizing channel silence with
  | nil => exact detects_iff_silence hopen hsilence
  | cons event rest ih =>
      obtain ⟨next, hstep, hrest⟩ := exec_cons_eq_some.mp hrun
      have hlater := htimely.2 next hstep
      rw [Throughout, detects_iff_silence hopen hsilence]
      by_cases hclose : event = .close
      · subst hclose
        rw [NeverSilent]
        refine ⟨And.left, fun hle => ⟨hle, ?_⟩⟩
        intro next hnext
        cases hnext
        exact detects_of_closed rfl rest
      · obtain ⟨hbeats, hsame⟩ := hbeating.step htimely.1 hclose hstep
        have hnever : NeverSilent silence (event :: rest) ↔
            silence ≤ seconds receiveTimeoutInSeconds ∧
              NeverSilent (silenceAfter silence event) rest := by
          cases event <;> first | exact Iff.rfl | exact absurd rfl hclose
        rw [hnever]
        apply and_congr_right
        intro _
        rw [← ih (hsame.trans hopen) hbeats (silence_step hsilence hstep)
          hrest hlater]
        constructor
        · intro hall
          exact hall next hstep
        · intro hthrough other hother
          rw [hstep] at hother
          cases hother
          exact hthrough

/-- A channel on which `Start` was called. -/
def started (now : ℕ) : HeartbeatChannel :=
  ({ now } : HeartbeatChannel).start.hear

theorem beating_started (now : ℕ) : (started now).Beating := by
  have hnone : RunsBefore 0 (DeadlineTimer.mk none []) := by
    intro wait hwait
    cases hwait
  exact beating_start hnone

/-- The channel itself never closes the connection of a peer that does not
answer. -/
theorem open_of_started {now : ℕ} {events : List Event}
    (hrun : exec (step rapid aborted) (started now) events = some last)
    (htimely : Along (step rapid aborted)
      (fun channel event => channel.Timely event ∧ event ≠ .close)
      (started now) events) :
    last.connectionOpen = true := by
  have hkeeps : ∀ (channel : HeartbeatChannel) event next,
      channel.Beating ∧ channel.connectionOpen = true →
        channel.Timely event ∧ event ≠ .close →
          channel.step rapid aborted event = some next →
            next.Beating ∧ next.connectionOpen = true := by
    rintro channel event next ⟨hbeating, hopen⟩ ⟨hevent, hclose⟩ hstep
    obtain ⟨hbeats, hsame⟩ := hbeating.step hevent hclose hstep
    exact ⟨hbeats, hsame.trans hopen⟩
  exact (exec_invariant_along hkeeps ⟨beating_started now, rfl⟩ htimely
    hrun).2

/-- Silence is never detected: a timely run after `Start` meets the receive
timeout exactly if the peer never keeps silent that long. -/
theorem detects_iff_of_started {now : ℕ} {events : List Event}
    (hrun : exec (step rapid aborted) (started now) events = some last)
    (htimely : Along (step rapid aborted) Timely (started now) events) :
    Throughout (step rapid aborted) Detects (started now) events ↔
      NeverSilent 0 events :=
  detects_iff_neverSilent rfl (beating_started now) rfl hrun htimely

end Silence

instance (sending : Outcome Unit) : Decidable (sending = .ok ()) :=
  match sending with
  | .ok () => .isTrue rfl
  | .error _ => .isFalse fun h => by cases h

instance (time : ℕ) (timer : DeadlineTimer ℕ) :
    Decidable (RunsBefore time timer) :=
  inferInstanceAs (Decidable (∀ wait ∈ timer.waits, _))

instance (channel : HeartbeatChannel) (event : Event) :
    Decidable (channel.Timely event) :=
  match event with
  | .elapse _ => inferInstanceAs (Decidable (_ ∧ _))
  | .message _ sending | .runSend _ sending =>
      inferInstanceAs (Decidable (sending = .ok ()))
  | .start | .expireSend _ | .expireReceive _ | .runReceive _ _
  | .close => inferInstanceAs (Decidable True)

instance (channel : HeartbeatChannel) : Decidable channel.Detects :=
  inferInstanceAs (Decidable (_ → _))

/-- The heartbeats of a channel whose peer never answers. -/
def unanswered : ℕ → List Event
  | 0 => []
  | count + 1 => unanswered count ++
      [.elapse (seconds 5), .expireSend count, .runSend count (.ok ())]

/-- `boost::asio::error::operation_aborted` on Linux. -/
def operationAborted : ErrorCode := ⟨125, lit "Operation canceled"⟩

theorem detects_iff_of_started_unanswered :
    Throughout (step textJson operationAborted) Detects (started 0)
        (unanswered 2) ↔ NeverSilent 0 (unanswered 2) := by
  have hsome : (exec (step textJson operationAborted) (started 0)
      (unanswered 2)).isSome := by decide +kernel
  obtain ⟨last, hrun⟩ := Option.isSome_iff_exists.mp hsome
  exact detects_iff_of_started hrun (by decide +kernel)

/-- After 35 seconds without an answer the connection is still open. -/
theorem not_detects_unanswered :
    (exec (step textJson operationAborted) (started 0)
        (unanswered 7)).isSome ∧
      Along (step textJson operationAborted) Timely (started 0)
        (unanswered 7) ∧
      ¬Throughout (step textJson operationAborted) Detects (started 0)
        (unanswered 7) := by
  decide +kernel

end HeartbeatChannel

end LibChromecast
