import LibChromecast.ClientSteps

/-!
# After Close

`Close` sends its frame and shuts the connection down; it cancels no timer.
So the timers that are armed when it returns go on sending, and nothing is
sent only if none is armed then and none is armed until the next
`AsyncConnect`.
-/

namespace LibChromecast

open Foundation Foundation.Transition

namespace ChromecastClient

/-! ## The condition -/

/-- No handler that sends has still to run without error. -/
def Unarmed (client : ChromecastClient) : Prop :=
  client.receiverChannel.requests.Unarmed ∧
    client.mediaChannels.requests.Unarmed ∧
    ∀ wait ∈ client.heartbeatChannel.heartbeatSendTimer.waits, ¬wait.Live

instance (client : ChromecastClient) : Decidable client.Unarmed :=
  inferInstanceAs (Decidable (_ ∧ _ ∧ _))

/-- The event makes a request or starts the heartbeat. -/
def Arms (platform : Platform) (client : ChromecastClient) : Event → Prop
  | .launch player _ _ => player.isSome
  | .operate player operation _ _ => operation.Sendable ∧
      ∃ current ∈ client.players player, current.mediaChannel.isSome = true
  | .connectCompleted error sending => error = false ∧ sending = .ok ()
  | .receiverMessage payload ending connecting _ => connecting = .ok () ∧
      (initialization? client.receiverChannel
        (client.receiverChannel.onMessage platform.rapid getId ending
          payload).2).isSome
  | event => event.Asks

/-- No timer is armed when `Close` returns, nor from then on until the next
`AsyncConnect`. -/
def Quiet (platform : Platform) (client : ChromecastClient) : Event → Prop
  | .close sending closing =>
      sending = .ok () → closing = .ok () → client.Unarmed
  | event => client.closed = true → ¬client.Arms platform event

/-- No timer handler sent anything while the client was closed. -/
structure Silent (client : ChromecastClient) : Prop where
  unarmed : client.closed = true → client.Unarmed
  late : client.late = []

section Silent

variable {platform : Platform} {client next : ChromecastClient}

/-! ## Steps of a client that is open -/

/-- An operation neither closes the client nor counts as a timer. -/
structure SameClosing (client next : ChromecastClient) : Prop where
  closed : next.closed = client.closed
  late : next.late = client.late

theorem SameClosing.refl (client : ChromecastClient) :
    SameClosing client client := ⟨rfl, rfl⟩

theorem SameClosing.trans {client mid next : ChromecastClient}
    (hfirst : SameClosing client mid) (hsecond : SameClosing mid next) :
    SameClosing client next :=
  ⟨hsecond.closed.trans hfirst.closed, hsecond.late.trans hfirst.late⟩

theorem Destroyed.sameClosing (h : Destroyed client next) :
    SameClosing client next := by
  rw [h.rest]
  exact ⟨rfl, rfl⟩

theorem sameClosing_of_dropped {player : PlayerId}
    (h : client.dropped platform player = some next) :
    SameClosing client next :=
  keeps_of_dropped (fun _ _ _ hcurrent => ⟨hcurrent.closed, hcurrent.late⟩)
    (fun _ _ hcurrent hdestroyed => hcurrent.trans hdestroyed.sameClosing)
    (.refl client) h

theorem LaunchCase.sameClosing {player : Option PlayerId}
    (h : LaunchCase platform client next player) :
    SameClosing client next := by
  cases player with
  | none =>
      cases h with
      | refused hnext =>
          rw [hnext]
          exact ⟨rfl, rfl⟩
  | some player =>
      apply h.keeps
      · exact fun _ _ hcurrent _ => ⟨hcurrent.closed, hcurrent.late⟩
      · exact fun _ _ _ hcurrent => ⟨hcurrent.closed, hcurrent.late⟩
      · exact fun _ _ hcurrent hdestroyed =>
          hcurrent.trans hdestroyed.sameClosing
      · exact fun _ _ hcurrent => ⟨hcurrent.closed, hcurrent.late⟩
      · exact .refl client

theorem InitializeCase.sameClosing {player : PlayerId} {cause : Cause}
    {info : ApplicationInfo} {current : DefaultMediaPlayer}
    {connecting sending : Outcome Unit}
    (h : InitializeCase platform player cause info current sending client
      next connecting) : SameClosing client next := by
  cases h with
  | refused _ fault mid hcreated hnext =>
      rw [hnext, hcreated.rest]
      exact ⟨rfl, rfl⟩
  | unconnected fault mid after hcreated hafter hnext =>
      rw [hnext, hcreated.rest]
      exact ⟨rfl, rfl⟩
  | connected mid after channel address channels hcreated hafter hchannel
      haddress hchannels hnext =>
      rw [hnext, hcreated.rest]
      exact ⟨rfl, rfl⟩

/-! ## Steps of a client that is closed -/

theorem Silent.same (h : client.Silent) (hsame : SameClosing client next)
    (hunarmed : client.closed = true → client.Unarmed → next.Unarmed) :
    next.Silent where
  unarmed hclosed := by
    rw [hsame.closed] at hclosed
    exact hunarmed hclosed (h.unarmed hclosed)
  late := hsame.late.trans h.late

theorem Unarmed.destroyed (h : client.Unarmed)
    (hdestroyed : Destroyed client next) : next.Unarmed := by
  have hmedia := hdestroyed.unarmed h.2.1
  rw [hdestroyed.rest]
  exact ⟨h.1, hmedia, h.2.2⟩

/-- Nothing in the send timer of a channel has still to run without error. -/
abbrev SendUnarmed (channel : HeartbeatChannel) : Prop :=
  ∀ wait ∈ channel.heartbeatSendTimer.waits, ¬wait.Live

theorem sendUnarmed_setState {timer : DeadlineTimer ℕ} {index : ℕ}
    {state : WaitState} (h : ∀ wait ∈ timer.waits, ¬wait.Live)
    (hstate : state = .completed) :
    ∀ wait ∈ (timer.setState index state).waits, ¬wait.Live := by
  intro wait hmem
  rcases DeadlineTimer.mem_setState hmem with hold | ⟨old, -, rfl⟩
  · exact h wait hold
  · simp [Wait.Live, hstate]

/-- Without an armed send timer the heartbeat channel arms none, and its
handlers send nothing. -/
theorem heartbeat_unarmed {channel after : HeartbeatChannel}
    {event : HeartbeatChannel.Event}
    (h : SendUnarmed channel) (hevent : event ≠ .start)
    (hstep : channel.step platform.rapid platform.aborted event =
      some after) :
    SendUnarmed after ∧ ((∃ payload sending,
      event = .message payload sending) ∨
        after.frames = channel.frames) := by
  cases event with
  | elapse duration =>
      cases hstep
      exact ⟨h, Or.inr rfl⟩
  | start => exact absurd rfl hevent
  | message payload sending =>
      have hkept := channel.onMessage_heartbeatSendTimer platform.rapid
        payload sending
      simp only [HeartbeatChannel.step] at hstep
      split at hstep
      next => cases hstep
      next outcome last _ hmessage =>
        rw [hmessage] at hkept
        cases hstep
        refine ⟨?_, Or.inl ⟨payload, sending, rfl⟩⟩
        have hsame : last.hear.heartbeatSendTimer =
          channel.heartbeatSendTimer := hkept
        rw [SendUnarmed, hsame]
        exact h
  | expireSend index =>
      obtain ⟨timer, hexpire, rfl⟩ := Option.map_eq_some_iff.mp hstep
      obtain ⟨old, hold, hwaiting, -⟩ :=
        DeadlineTimer.expire_eq_some hexpire
      exact absurd (Or.inl hwaiting) (h old (List.mem_of_getElem? hold))
  | expireReceive index =>
      obtain ⟨timer, hexpire, rfl⟩ := Option.map_eq_some_iff.mp hstep
      exact ⟨h, Or.inr rfl⟩
  | runSend index sending =>
      obtain ⟨⟨error, timer⟩, hcomplete, rfl⟩ :=
        Option.map_eq_some_iff.mp hstep
      obtain ⟨old, hold, hstate, rfl⟩ :=
        DeadlineTimer.complete_eq_some hcomplete
      have hidle := h old (List.mem_of_getElem? hold)
      cases error with
      | false =>
          rw [if_neg (by decide)] at hstate
          exact absurd (Or.inr hstate) hidle
      | true => exact ⟨sendUnarmed_setState h rfl, Or.inr rfl⟩
  | runReceive index closing =>
      obtain ⟨⟨error, timer⟩, -, rfl⟩ := Option.map_eq_some_iff.mp hstep
      cases error <;> cases closing <;> exact ⟨h, Or.inr rfl⟩
  | close =>
      cases hstep
      exact ⟨h, Or.inr rfl⟩

theorem Unarmed.dropped (h : client.Unarmed) {player : PlayerId}
    (hdropped : client.dropped platform player = some next) :
    next.Unarmed :=
  keeps_of_dropped (fun _ _ _ => id)
    (fun _ _ hcurrent hdestroyed => hcurrent.destroyed hdestroyed) h hdropped

/-- A player whose CONNECT could not be sent asks for nothing. -/
theorem Unarmed.initialized {player : PlayerId} {cause : Cause}
    {info : ApplicationInfo} {current : DefaultMediaPlayer}
    {sending : Outcome Unit} {fault : Fault} (h : client.Unarmed)
    (hcase : InitializeCase platform player cause info current sending client
      next (.error fault)) : next.Unarmed := by
  cases hcase with
  | refused _ other mid hcreated hnext =>
      have hmedia := hcreated.unarmed h.2.1
      rw [hnext, hcreated.rest]
      exact ⟨h.1, hmedia, h.2.2⟩
  | unconnected _ mid after hcreated hafter hnext =>
      have hmedia := hcreated.unarmed h.2.1
      rw [hnext, hcreated.rest]
      exact ⟨h.1, hmedia, h.2.2⟩

theorem late_handled (hlate : client.closed = true →
      next.frames = client.frames) :
    (client.handled next).late = next.late := by
  unfold handled
  cases hclosed : client.closed with
  | false => simp
  | true => simp [hlate hclosed]

theorem Silent.heartbeatTimer {event : Event}
    {step : HeartbeatChannel.Event} {channel : HeartbeatChannel}
    (h : client.Silent) (hevent : event.heartbeat = some step)
    (htimer : event.IsHeartbeatTimer)
    (hstep : client.heartbeatChannel.step platform.rapid platform.aborted
      step = some channel) :
    (client.handled (client.setHeartbeatChannel channel)).Silent := by
  have hunarmed : client.closed = true → SendUnarmed channel ∧
      channel.frames = client.heartbeatChannel.frames := by
    intro hclosed
    obtain ⟨hidle, hframes⟩ := heartbeat_unarmed (h.unarmed hclosed).2.2
      (by rintro rfl; cases event <;> cases hevent) hstep
    refine ⟨hidle, hframes.resolve_left ?_⟩
    rintro ⟨payload, sending, rfl⟩
    cases event <;> cases hevent
    exact htimer
  refine ⟨fun hclosed => ?_, ?_⟩
  · exact ⟨(h.unarmed hclosed).1, (h.unarmed hclosed).2.1,
      (hunarmed hclosed).1⟩
  · refine (late_handled fun hclosed => ?_).trans h.late
    change client.frames ++ List.map _
      (channel.frames.drop client.heartbeatChannel.frames.length) =
        client.frames
    rw [(hunarmed hclosed).2, List.drop_length]
    exact List.append_nil _

theorem Silent.step {event : Event} (h : client.Silent)
    (hquiet : client.Quiet platform event)
    (hstep : client.step platform event = some next) : next.Silent := by
  cases step_cases hstep with
  | makePlayer player senderId hnew => exact h.same ⟨rfl, rfl⟩ fun _ => id
  | release player current next hcurrent hnext =>
      have hdropped := sameClosing_of_dropped hnext
      refine h.same ⟨hdropped.closed, hdropped.late⟩ fun _ hidle => ?_
      have hset : (client.setPlayer player
        { current with held := false }).Unarmed := hidle
      exact hset.dropped hnext
  | register address outcome router hconstruct =>
      exact h.same ⟨rfl, rfl⟩ fun _ => id
  | unregister channel next hnext =>
      exact h.same hnext.sameClosing fun _ hidle => hidle.destroyed hnext
  | asyncConnect validAddress =>
      exact ⟨fun hclosed => absurd hclosed (by simp [asyncConnect]), h.late⟩
  | connectFailed error sending hfailed =>
      exact h.same ⟨rfl, rfl⟩ fun _ => id
  | connected =>
      exact ⟨fun hclosed => absurd ⟨rfl, rfl⟩ (hquiet hclosed), h.late⟩
  | closeFailed fault closing => exact h.same ⟨rfl, rfl⟩ fun _ => id
  | closeRaised fault => exact h.same ⟨rfl, rfl⟩ fun _ => id
  | closed => exact ⟨fun _ => hquiet rfl rfl, h.late⟩
  | launch player hasCallback sending next hcase =>
      refine h.same hcase.sameClosing fun hclosed hidle => ?_
      cases player with
      | none =>
          cases hcase with
          | refused hnext =>
              rw [hnext]
              exact hidle
      | some player => exact absurd rfl (hquiet hclosed)
  | request event channel hevent hasks happlication hpending =>
      refine h.same ⟨rfl, rfl⟩ fun hclosed hidle => ?_
      rcases hasks with rfl | hasked
      · exact hidle
      · cases event <;> first
          | exact hevent.elim
          | exact absurd hasked (hquiet hclosed)
  | refused player operation hasCallback sending => exact h
  | operated player operation hasCallback sending channel address channels
      current hcurrent hchannel hsendable haddress =>
      refine h.same ⟨rfl, rfl⟩ fun hclosed hidle => ?_
      rcases hsendable with rfl | hsendable
      · exact hidle
      · refine absurd ⟨hsendable, current, hcurrent, ?_⟩ (hquiet hclosed)
        rw [hchannel]
        rfl
  | received payload ending connecting sending hsilent happlication
      hpending =>
      refine h.same ⟨rfl, rfl⟩ fun _ hidle => ?_
      have hreceived := ReceiverChannel.onMessage_requests platform.rapid
        getId ending payload client.receiverChannel
      exact ⟨hreceived.unarmed hidle.1, hidle.2⟩
  | initialized payload ending connecting sending cause player info current
      next hmessage hcurrent hcase =>
      have hsame := hcase.sameClosing
      have hreceived := ReceiverChannel.onMessage_requests platform.rapid
        getId ending payload client.receiverChannel
      refine h.same ⟨hsame.closed, hsame.late⟩ fun hclosed hidle => ?_
      have hset : (client.setReceiverChannel
          (client.receiverChannel.onMessage platform.rapid getId ending
            payload).2).Unarmed := ⟨hreceived.unarmed hidle.1, hidle.2⟩
      cases hconnecting : connecting with
      | error fault =>
          rw [hconnecting] at hcase
          exact hset.initialized hcase
      | ok _ =>
          refine absurd ⟨hconnecting, ?_⟩ (hquiet hclosed)
          exact (congrArg Option.isSome hmessage).trans rfl
  | mediaMessage channel payload ending address channels haddress
      hreceived =>
      exact h.same ⟨rfl, rfl⟩
        fun _ hidle => ⟨hidle.1, hreceived.unarmed hidle.2.1, hidle.2.2⟩
  | heartbeat event step channel hevent hnot hchannel =>
      refine h.same ⟨rfl, rfl⟩ fun _ hidle => ⟨hidle.1, hidle.2.1, ?_⟩
      exact (heartbeat_unarmed hidle.2.2
        (by rintro rfl; cases event <;> cases hevent) hchannel).1
  | heartbeatTimer event step channel hevent htimer hchannel =>
      exact h.heartbeatTimer hevent htimer hchannel
  | expireReceiver timer requests hexpire =>
      refine h.same ⟨rfl, rfl⟩ fun _ hidle => ?_
      rw [Requests.not_expire_of_unarmed hidle.1] at hexpire
      cases hexpire
  | fireReceiver timer sending requests hfire =>
      have hopen : client.closed ≠ true := by
        intro hclosed
        rw [Requests.not_fire_of_unarmed (h.unarmed hclosed).1] at hfire
        cases hfire
      exact ⟨fun hclosed => absurd hclosed hopen,
        (late_handled fun hclosed => absurd hclosed hopen).trans h.late⟩
  | expireMedia timer requests hexpire =>
      refine h.same ⟨rfl, rfl⟩ fun _ hidle => ?_
      rw [Requests.not_expire_of_unarmed hidle.2.1] at hexpire
      cases hexpire
  | fireMedia timer sending channel address requests hchannel hfire
      haddress =>
      have hopen : client.closed ≠ true := by
        intro hclosed
        rw [Requests.not_fire_of_unarmed (h.unarmed hclosed).2.1] at hfire
        cases hfire
      exact ⟨fun hclosed => absurd hclosed hopen,
        (late_handled fun hclosed => absurd hclosed hopen).trans h.late⟩

/-- If no timer is armed when `Close` returns, nor from then on until the next
`AsyncConnect`, then no timer handler issues a frame in between. -/
theorem noFramesAfterClose_of_quiet {memory : Memory} {events : List Event}
    (hconstruct : construct platform memory = some client)
    (hquiet : Along (step platform) (Quiet platform) client events) :
    Throughout (step platform) (fun current => current.late = []) client
      events := by
  have hstart : client.Silent := by
    rw [(constructed hconstruct).rest]
    exact ⟨fun hclosed => absurd hclosed Bool.false_ne_true, rfl⟩
  have hsilent : Throughout (step platform) Silent client events :=
    throughout_of_along
      (fun current event next hcurrent hevent hstep =>
        hcurrent.step hevent hstep) hstart hquiet
  exact throughout_mono (fun current hcurrent => hcurrent.late) hsilent

end Silent

/-! ## Timers that are armed -/

section Armed

variable {platform : Platform} {client : ChromecastClient}

theorem documentsSince_fire {ι κ : Type} [DecidableEq ι]
    {world next : Requests ι κ} {rapid : RapidJson} {timer : ℕ}
    (h : world.fire rapid timer (.ok ()) = some next) :
    world.documentsSince next ≠ [] := by
  unfold Requests.fire at h
  split at h
  next => cases h
  next found _ =>
    split_ifs at h
    cases h
    simp [Requests.documentsSince, Requests.request, Requests.setTimer,
      Requests.documents]

/-- A retry handler that is queued sends after the client was closed. -/
theorem late_of_fire {next : ChromecastClient} {timer : ℕ}
    (hclosed : client.closed = true)
    (hstep : client.step platform (.fireReceiver timer (.ok ())) =
      some next) : next.late ≠ [] := by
  obtain ⟨after, hafter, rfl⟩ := Option.map_eq_some_iff.mp hstep
  obtain ⟨channel, hchannel, rfl⟩ := Option.map_eq_some_iff.mp hafter
  obtain ⟨requests, hfire, rfl⟩ := Option.map_eq_some_iff.mp hchannel
  have hsent := documentsSince_fire hfire
  simp [handled, hclosed, setReceiverChannel, hsent]

/-- So every request of the receiver channel that is still pending sends. -/
theorem late_of_armed {index : ℕ}
    {timer : RetryTimer Unit (ReceiverCallback PlayerId)}
    (hclosed : client.closed = true)
    (htimer : client.receiverChannel.requests.timers[index]? = some timer)
    (harmed : timer.Armed) :
    ∃ events last, exec (step platform) client events = some last ∧
      last.late ≠ [] := by
  have hfires : ∀ current : ChromecastClient, current.closed = true →
      current.receiverChannel.requests.timers[index]? =
          some { timer with state := .queued } →
        ∃ last, current.step platform (.fireReceiver index (.ok ())) =
          some last ∧ last.late ≠ [] := by
    intro current hcurrent hqueued
    have hsome : (current.step platform
        (.fireReceiver index (.ok ()))).isSome := by
      simp [step, receiverStep, ReceiverChannel.step, Requests.fire, hqueued]
    obtain ⟨last, hlast⟩ := Option.isSome_iff_exists.mp hsome
    exact ⟨last, hlast, late_of_fire hcurrent hlast⟩
  rcases harmed with hwaiting | hqueued
  · have hexpire : client.step platform (.expireReceiver index) =
        some (client.setReceiverChannel { client.receiverChannel with
          requests :=
            client.receiverChannel.requests.setTimer index .queued }) := by
      simp [step, receiverStep, ReceiverChannel.step, Requests.expire,
        htimer, hwaiting]
    obtain ⟨last, hlast, hlate⟩ := hfires (client.setReceiverChannel
      { client.receiverChannel with
        requests := client.receiverChannel.requests.setTimer index .queued })
      hclosed (by simp [setReceiverChannel, Requests.setTimer, htimer])
    refine ⟨[.expireReceiver index, .fireReceiver index (.ok ())], last, ?_,
      hlate⟩
    rw [exec_cons, hexpire]
    exact (exec_singleton _ _).trans hlast
  · obtain ⟨last, hlast, hlate⟩ := hfires client hclosed (by
      rw [htimer, ← hqueued])
    exact ⟨[.fireReceiver index (.ok ())], last,
      (exec_singleton _ _).trans hlast, hlate⟩

theorem frames_onSendTimer (channel : HeartbeatChannel) :
    (channel.onSendTimer none (.ok ())).2.frames =
      channel.frames ++ [HeartbeatChannel.ping] := rfl

/-- A heartbeat that is due is sent after the client was closed. -/
theorem late_of_due {index : ℕ} {wait : Wait ℕ}
    (hclosed : client.closed = true)
    (hwait : client.heartbeatChannel.heartbeatSendTimer.waits[index]? =
      some wait) (hexpired : wait.state = .expired) :
    ∃ last, client.step platform (.runSend index (.ok ())) = some last ∧
      last.late ≠ [] := by
  have hcomplete : client.heartbeatChannel.heartbeatSendTimer.complete index =
      some (false, client.heartbeatChannel.heartbeatSendTimer.setState index
        .completed) := by
    simp [DeadlineTimer.complete, hwait, hexpired]
  have hsome : (client.step platform (.runSend index (.ok ()))).isSome := by
    simp [step, heartbeatStep, HeartbeatChannel.step, hcomplete]
  obtain ⟨last, hlast⟩ := Option.isSome_iff_exists.mp hsome
  refine ⟨last, hlast, ?_⟩
  simp only [step, heartbeatStep, HeartbeatChannel.step, hcomplete,
    Option.map_some, Option.some.injEq] at hlast
  rw [← hlast]
  simp [handled, hclosed, setHeartbeatChannel, frames_onSendTimer]

end Armed

/-! ## Runs -/

instance (operation : Operation) : Decidable operation.Sendable :=
  match operation with
  | .load .. => inferInstanceAs (Decidable (_ = _))
  | .play | .pause | .stop | .seek _ => .isTrue trivial

instance (platform : Platform) (client : ChromecastClient) (event : Event) :
    Decidable (client.Arms platform event) :=
  match event with
  | .launch player .. => inferInstanceAs (Decidable (player.isSome = true))
  | .operate player operation .. =>
      inferInstanceAs (Decidable (operation.Sendable ∧
        ∃ current ∈ client.players player,
          current.mediaChannel.isSome = true))
  | .connectCompleted error sending =>
      inferInstanceAs (Decidable (error = false ∧ sending = .ok ()))
  | .receiverMessage payload ending connecting _ =>
      inferInstanceAs (Decidable (connecting = .ok () ∧
        (initialization? client.receiverChannel
          (client.receiverChannel.onMessage platform.rapid getId ending
            payload).2).isSome = true))
  | .join .. => inferInstanceAs (Decidable (_ = true))
  | .getAppAvailabillity .. => inferInstanceAs (Decidable (_ ≠ []))
  | .getStatus .. | .mute .. | .setVolume .. => .isTrue trivial
  | .makePlayer .. | .release _ | .register _ | .unregister _
  | .asyncConnect _ | .close .. | .mediaMessage .. | .heartbeatMessage ..
  | .elapse _ | .expireSend _ | .runSend .. | .expireReceive _
  | .runReceive .. | .expireReceiver _ | .fireReceiver .. | .expireMedia _
  | .fireMedia .. => .isFalse id

instance (platform : Platform) (client : ChromecastClient) (event : Event) :
    Decidable (client.Quiet platform event) :=
  match event with
  | .close .. => inferInstanceAs (Decidable (_ → _ → client.Unarmed))
  | .launch .. | .operate .. | .connectCompleted .. | .receiverMessage ..
  | .join .. | .getAppAvailabillity .. | .getStatus .. | .mute ..
  | .setVolume .. | .makePlayer .. | .release _ | .register _
  | .unregister _ | .asyncConnect _ | .mediaMessage ..
  | .heartbeatMessage .. | .elapse _ | .expireSend _ | .runSend ..
  | .expireReceive _ | .runReceive .. | .expireReceiver _ | .fireReceiver ..
  | .expireMedia _ | .fireMedia .. =>
      inferInstanceAs
        (Decidable (client.closed = true → ¬client.Arms platform _))

/-- The heartbeat failed before the client was closed. -/
def failedHeartbeat : List Event :=
  [.asyncConnect true, .connectCompleted false (.ok ()),
    .elapse (seconds 5), .expireSend 0,
    .runSend 0 (raise (.runtimeError (lit "broken pipe"))),
    .close (.ok ()) (.ok ()), .elapse (seconds 30), .expireReceive 0]

theorem noFramesAfterClose_of_quiet_failedHeartbeat :
    ∃ client, construct textPlatform ReceiverChannel.cleared = some client ∧
      Throughout (step textPlatform) (fun current => current.late = [])
        client failedHeartbeat := by
  have hsome : (construct textPlatform ReceiverChannel.cleared).any
      (fun client => decide (Along (step textPlatform) (Quiet textPlatform)
        client failedHeartbeat)) := by decide +kernel
  obtain ⟨client, hconstruct, hquiet⟩ := exists_of_any hsome
  exact ⟨client, hconstruct, noFramesAfterClose_of_quiet hconstruct hquiet⟩

/-- The first heartbeat of a connection that is closed at once. -/
def heartbeatAfterClose : List Event :=
  [.asyncConnect true, .connectCompleted false (.ok ()),
    .close (.ok ()) (.ok ()), .elapse (seconds 5), .expireSend 0,
    .runSend 0 (.ok ())]

theorem not_noFramesAfterClose_heartbeat :
    ∃ client, construct textPlatform ReceiverChannel.cleared = some client ∧
      (exec (step textPlatform) client heartbeatAfterClose).isSome ∧
      ¬Throughout (step textPlatform) (fun current => current.late = [])
        client heartbeatAfterClose := by
  apply exists_of_any
  decide +kernel

end ChromecastClient

end LibChromecast
