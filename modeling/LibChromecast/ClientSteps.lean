import LibChromecast.PlayerChannels

/-!
# What a step of the client does

The ways a `Launch` takes, the frames an operation adds, and every step by its
cases.
-/

namespace LibChromecast

open Foundation Foundation.Transition

namespace ChromecastClient

/-! ## Launch -/

inductive LaunchCase (platform : Platform) (client next : ChromecastClient) :
    Option PlayerId → Prop
  | refused
      (hnext : next = client.setReceiverChannel client.receiverChannel) :
      LaunchCase platform client next none
  | first (player : PlayerId) (channel : ReceiverChannel PlayerId)
      (hnone : client.receiverChannel.application = none)
      (hlaunched : channel.application = some player)
      (hnext : next = client.setReceiverChannel channel) :
      LaunchCase platform client next (some player)
  | replaced (player previous : PlayerId)
      (calling channel : ReceiverChannel PlayerId)
      (current : DefaultMediaPlayer) (stopped : ChromecastClient)
      (hprevious : client.receiverChannel.application = some previous)
      (hcalling : calling.application = some previous)
      (hcurrent : client.players previous = some current)
      (hstopped : Destroyed ((client.setReceiverChannel calling).setPlayer
        previous { current with mediaChannel := none }) stopped)
      (hlaunched : channel.application = some player)
      (hnext : ((stopped.recordStop previous).setReceiverChannel
        channel).dropped platform previous = some next) :
      LaunchCase platform client next (some player)

theorem launch_cases {platform : Platform} {client next : ChromecastClient}
    {player : Option PlayerId} {hasCallback : Bool}
    {sending outcome : Outcome Unit}
    (h : client.launch platform player hasCallback sending =
      some (outcome, next)) : LaunchCase platform client next player := by
  unfold launch at h
  cases player with
  | none =>
      cases h
      exact .refused rfl
  | some player =>
      let rest : ReceiverChannel.Stopping PlayerId :=
        ⟨client.receiverChannel.calls, player, hasCallback⟩
      cases hprevious : client.receiverChannel.application with
      | none =>
          simp only [hprevious, ReceiverChannel.launch] at h
          cases h
          have hlaunched : ((client.receiverChannel.launching
              player).launchStopped platform.rapid getId sending
                rest).2.application = some player :=
            ReceiverChannel.launchStopped_application _ _ _ _ _
          exact .first player _ hprevious hlaunched rfl
      | some previous =>
          simp only [hprevious, ReceiverChannel.launch] at h
          split at h
          next => cases h
          next recorded hrecorded =>
            obtain ⟨current, stopped, hcurrent, hstopped, rfl⟩ :=
              onStopped_cases hrecorded
            let calling : ReceiverChannel PlayerId :=
              { client.receiverChannel.launching player with
                stopping := rest :: client.receiverChannel.stopping }
            have hcalling : (stopped.recordStop previous).receiverChannel =
                calling := by
              change stopped.receiverChannel = _
              rw [hstopped.rest]
              rfl
            have hlaunched : ((client.receiverChannel.launching
                player).launchStopped platform.rapid getId sending
                  rest).2.application = some player :=
              ReceiverChannel.launchStopped_application _ _ _ _ _
            rw [hcalling] at h
            obtain ⟨last, hlast, heq⟩ := Option.map_eq_some_iff.mp h
            cases heq
            exact .replaced player previous calling _ current stopped
              hprevious hprevious hcurrent hstopped hlaunched hlast

section Launch

variable {platform : Platform} {client next : ChromecastClient}
  {property : ChromecastClient → Prop}

/-- What changes of players and destroyed channels keep is kept when a
reference is dropped. -/
theorem keeps_of_dropped
    (hplayers : ∀ current other changed, property current →
      property (current.setPlayer other changed))
    (hdestroys : ∀ current after, property current →
      Destroyed current after → property after)
    (hstart : property client) {player : PlayerId}
    (h : client.dropped platform player = some next) : property next := by
  rcases dropped_cases h with rfl | ⟨current, -, -, hdestroyed⟩
  · exact hstart
  · exact hdestroys _ next (hplayers client player _ hstart) hdestroyed

/-- What each part of a `Launch` keeps is kept by the `Launch`. -/
theorem LaunchCase.keeps {player : PlayerId}
    (h : LaunchCase platform client next (some player))
    (hcalls : ∀ current channel, property current →
      channel.application.isSome = true →
        property (current.setReceiverChannel channel))
    (hplayers : ∀ current other changed, property current →
      property (current.setPlayer other changed))
    (hdestroys : ∀ current after, property current →
      Destroyed current after → property after)
    (hstops : ∀ current other, property current →
      property (current.recordStop other))
    (hstart : property client) : property next := by
  cases h with
  | first player channel hnone hlaunched hnext =>
      rw [hnext]
      apply hcalls client channel hstart
      rw [hlaunched]
      rfl
  | replaced player previous calling channel current stopped hprevious
      hcalling hcurrent hstopped hlaunched hnext =>
      have hcalled : property (client.setReceiverChannel calling) := by
        apply hcalls client calling hstart
        rw [hcalling]
        rfl
      have hstop : property stopped :=
        hdestroys _ stopped (hplayers _ previous _ hcalled) hstopped
      have hsent : property
          ((stopped.recordStop previous).setReceiverChannel channel) := by
        apply hcalls _ channel (hstops stopped previous hstop)
        rw [hlaunched]
        rfl
      exact keeps_of_dropped hplayers hdestroys hsent hnext

end Launch

/-! ## Frames -/

section Frames

variable {client : ChromecastClient} {frame : Frame}

theorem mem_issue {issued : Frame}
    (h : frame ∈ (client.issue [issued]).frames) :
    frame ∈ client.frames ∨ frame = issued :=
  (List.mem_append.mp h).imp_right List.mem_singleton.mp

theorem mem_setReceiverChannel {channel : ReceiverChannel PlayerId}
    (h : frame ∈ (client.setReceiverChannel channel).frames) :
    frame ∈ client.frames ∨ (frame.issuer = .receiverChannel ∧
      frame.address = ownAddress receiverNamespace) := by
  apply (List.mem_append.mp h).imp_right
  intro hmem
  obtain ⟨document, -, rfl⟩ := List.mem_map.mp hmem
  exact ⟨rfl, rfl⟩

theorem mem_setHeartbeatChannel {channel : HeartbeatChannel}
    (h : frame ∈ (client.setHeartbeatChannel channel).frames) :
    frame ∈ client.frames ∨ (frame.issuer = .heartbeatChannel ∧
      frame.address = ownAddress heartbeatNamespace) := by
  apply (List.mem_append.mp h).imp_right
  intro hmem
  obtain ⟨document, -, rfl⟩ := List.mem_map.mp hmem
  exact ⟨rfl, rfl⟩

theorem mem_setMediaChannels {channel : ChannelId} {address : Address}
    {channels : Channels}
    (h : frame ∈ (client.setMediaChannels channel address channels).frames) :
    frame ∈ client.frames ∨ (frame.issuer = client.issuerOf channel ∧
      frame.address = address) := by
  apply (List.mem_append.mp h).imp_right
  intro hmem
  obtain ⟨document, -, rfl⟩ := List.mem_map.mp hmem
  exact ⟨rfl, rfl⟩

/-- A channel that a player made. -/
theorem mem_makers_of_issuerOf {channel : ChannelId} {player : PlayerId}
    (h : client.issuerOf channel = .player player) :
    (channel, player) ∈ client.makers := by
  unfold issuerOf at h
  split at h
  next made hmade =>
    have hfound := List.find?_some hmade
    have hchannel : made.1 = channel := of_decide_eq_true hfound
    have hmem := List.mem_of_find?_eq_some hmade
    rw [← hchannel, ← Issuer.player.inj h]
    exact hmem
  next => cases h

theorem mediaAddress?_eq_some {channel : ChannelId} {address : Address}
    (h : client.mediaAddress? channel = some address) :
    (channel, address) ∈ client.router.live ∧
      address.namespaceId = mediaNamespace := by
  obtain ⟨object, hobject, rfl⟩ := Option.map_eq_some_iff.mp h
  have hmem := List.mem_of_find?_eq_some hobject
  have hfound := List.find?_some hobject
  obtain ⟨hsame, hmedia⟩ := of_decide_eq_true hfound
  subst hsame
  exact ⟨hmem, hmedia⟩

end Frames

/-! ## Steps -/

/-- An operation of the receiver channel that leaves its application alone. -/
def Event.IsRequest : Event → Prop
  | .join .. | .getAppAvailabillity .. | .getStatus .. | .mute ..
  | .setVolume .. => True
  | _ => False

/-- The operation gets as far as `Request`. -/
def Event.Asks : Event → Prop
  | .join _ hasCallback _ => hasCallback = true
  | .getAppAvailabillity appIds _ _ => appIds ≠ []
  | .getStatus .. | .mute .. | .setVolume .. => True
  | _ => False

/-- The message of the operation can be built. -/
def Operation.Sendable : Operation → Prop
  | .load media _ unset =>
      (media.toMessage unset (Channels.typed "LOAD")).isOk = true
  | .play | .pause | .stop | .seek _ => True

def Event.IsHeartbeatTimer : Event → Prop
  | .runSend .. | .runReceive .. => True
  | _ => False

/-- The event of the heartbeat channel. -/
def Event.heartbeat : Event → Option HeartbeatChannel.Event
  | .heartbeatMessage payload sending => some (.message payload sending)
  | .elapse duration => some (.elapse duration)
  | .expireSend wait => some (.expireSend wait)
  | .runSend wait sending => some (.runSend wait sending)
  | .expireReceive wait => some (.expireReceive wait)
  | .runReceive wait closing => some (.runReceive wait closing)
  | _ => none

/-- The client after a successful connection, and after its `Close`. -/
def started (client : ChromecastClient) : ChromecastClient :=
  { client.issue [⟨.connectionChannel, ownAddress connectionNamespace,
      controlDocument "CONNECT"⟩] with
    heartbeatChannel := { client.heartbeatChannel.start.hear with
      connectionOpen := true }
    connected := true }

def closing (client : ChromecastClient) : ChromecastClient :=
  { client with connected := false }.issue
    [⟨.connectionChannel, ownAddress connectionNamespace,
      controlDocument "CLOSE"⟩]

inductive StepCase (platform : Platform) (client : ChromecastClient) :
    Event → ChromecastClient → Prop
  | makePlayer (player : PlayerId) (senderId : StdString)
      (hnew : client.players player = none) :
      StepCase platform client (.makePlayer player senderId)
        (client.setPlayer player { senderId })
  | release (player : PlayerId) (current : DefaultMediaPlayer)
      (next : ChromecastClient)
      (hcurrent : client.players player = some current)
      (hnext : (client.setPlayer player
        { current with held := false }).dropped platform player =
          some next) :
      StepCase platform client (.release player) next
  | register (address : Address) (outcome : Outcome Unit) (router : Router)
      (hconstruct : client.router.construct platform.strings
        client.nextChannel address = some (outcome, router)) :
      StepCase platform client (.register address) { client with
        router
        nextChannel := client.nextChannel + 1
        others := client.nextChannel :: client.others }
  | unregister (channel : ChannelId) (next : ChromecastClient)
      (hnext : Destroyed client next) :
      StepCase platform client (.unregister channel) next
  | asyncConnect (validAddress : Bool) :
      StepCase platform client (.asyncConnect validAddress)
        (client.asyncConnect validAddress)
  | connectFailed (error : Bool) (sending : Outcome Unit)
      (hfailed : ¬(error = false ∧ sending = .ok ())) :
      StepCase platform client (.connectCompleted error sending)
        { client with connecting := client.connecting - 1 }
  | connected :
      StepCase platform client (.connectCompleted false (.ok ()))
        { client with connecting := client.connecting - 1 }.started
  | closeFailed (fault : Fault) (closing : Outcome Unit) :
      StepCase platform client (.close (.error fault) closing)
        { client with connected := false }
  | closeRaised (fault : Fault) :
      StepCase platform client (.close (.ok ()) (.error fault))
        client.closing
  | closed :
      StepCase platform client (.close (.ok ()) (.ok ()))
        { client.closing with
          heartbeatChannel := { client.heartbeatChannel with
            connectionOpen := false }
          closed := true }
  | launch (player : Option PlayerId) (hasCallback : Bool)
      (sending : Outcome Unit) (next : ChromecastClient)
      (hcase : LaunchCase platform client next player) :
      StepCase platform client (.launch player hasCallback sending) next
  | request (event : Event) (channel : ReceiverChannel PlayerId)
      (hevent : event.IsRequest)
      (hasks : channel = client.receiverChannel ∨ event.Asks)
      (happlication : channel.application =
        client.receiverChannel.application)
      (hpending : channel.pending = client.receiverChannel.pending) :
      StepCase platform client event (client.setReceiverChannel channel)
  | refused (player : PlayerId) (operation : Operation)
      (hasCallback : Bool) (sending : Outcome Unit) :
      StepCase platform client
        (.operate player operation hasCallback sending) client
  | operated (player : PlayerId) (operation : Operation)
      (hasCallback : Bool) (sending : Outcome Unit) (channel : ChannelId)
      (address : Address) (channels : Channels)
      (current : DefaultMediaPlayer)
      (hcurrent : client.players player = some current)
      (hchannel : current.mediaChannel = some channel)
      (hsendable : channels = client.mediaChannels ∨ operation.Sendable)
      (haddress : client.mediaAddress? channel = some address) :
      StepCase platform client
        (.operate player operation hasCallback sending)
        (client.setMediaChannels channel address channels)
  | received (payload : StdString) (ending connecting sending : Outcome Unit)
      (hsilent : initialization? client.receiverChannel
        (client.receiverChannel.onMessage platform.rapid getId ending
          payload).2 = none)
      (happlication : (client.receiverChannel.onMessage platform.rapid getId
        ending payload).2.application = client.receiverChannel.application)
      (hpending : (client.receiverChannel.onMessage platform.rapid getId
        ending payload).2.pending = client.receiverChannel.pending) :
      StepCase platform client
        (.receiverMessage payload ending connecting sending)
        (client.setReceiverChannel
          (client.receiverChannel.onMessage platform.rapid getId ending
            payload).2)
  | initialized (payload : StdString)
      (ending connecting sending : Outcome Unit) (cause : Cause)
      (player : PlayerId) (info : ApplicationInfo)
      (current : DefaultMediaPlayer) (next : ChromecastClient)
      (hmessage : initialization? client.receiverChannel
        (client.receiverChannel.onMessage platform.rapid getId ending
          payload).2 = some (cause, player, info))
      (hcurrent : client.players player = some current)
      (hcase : InitializeCase platform player cause info current sending
        (client.setReceiverChannel
          (client.receiverChannel.onMessage platform.rapid getId ending
            payload).2) next connecting) :
      StepCase platform client
        (.receiverMessage payload ending connecting sending) next
  | mediaMessage (channel : ChannelId) (payload : StdString)
      (ending : Outcome Unit) (address : Address) (channels : Channels)
      (haddress : client.mediaAddress? channel = some address)
      (hreceived : Requests.Received client.mediaChannels.requests
        channels.requests) :
      StepCase platform client (.mediaMessage channel payload ending)
        (client.setMediaChannels channel address channels)
  | heartbeat (event : Event) (step : HeartbeatChannel.Event)
      (channel : HeartbeatChannel) (hevent : event.heartbeat = some step)
      (hnot : ¬event.IsHeartbeatTimer)
      (hstep : client.heartbeatChannel.step platform.rapid platform.aborted
        step = some channel) :
      StepCase platform client event (client.setHeartbeatChannel channel)
  | heartbeatTimer (event : Event) (step : HeartbeatChannel.Event)
      (channel : HeartbeatChannel) (hevent : event.heartbeat = some step)
      (htimer : event.IsHeartbeatTimer)
      (hstep : client.heartbeatChannel.step platform.rapid platform.aborted
        step = some channel) :
      StepCase platform client event
        (client.handled (client.setHeartbeatChannel channel))
  | expireReceiver (timer : ℕ)
      (requests : Requests Unit (ReceiverCallback PlayerId))
      (hexpire : client.receiverChannel.requests.expire timer =
        some requests) :
      StepCase platform client (.expireReceiver timer)
        (client.setReceiverChannel
          { client.receiverChannel with requests })
  | fireReceiver (timer : ℕ) (sending : Outcome Unit)
      (requests : Requests Unit (ReceiverCallback PlayerId))
      (hfire : client.receiverChannel.requests.fire platform.rapid timer
        sending = some requests) :
      StepCase platform client (.fireReceiver timer sending)
        (client.handled (client.setReceiverChannel
          { client.receiverChannel with requests }))
  | expireMedia (timer : ℕ) (requests : Requests ChannelRef ResponseCallback)
      (hexpire : client.mediaChannels.requests.expire timer =
        some requests) :
      StepCase platform client (.expireMedia timer) { client with
        mediaChannels := { client.mediaChannels with requests } }
  | fireMedia (timer : ℕ) (sending : Outcome Unit) (channel : ChannelId)
      (address : Address) (requests : Requests ChannelRef ResponseCallback)
      (hchannel : client.timerChannel timer = some channel)
      (hfire : client.mediaChannels.requests.fire platform.rapid timer
        sending = some requests)
      (haddress : client.mediaAddress? channel = some address) :
      StepCase platform client (.fireMedia timer sending)
        (client.handled (client.setMediaChannels channel address
          { client.mediaChannels with requests }))

section Steps

variable {platform : Platform} {client next : ChromecastClient}

theorem returned_eq_some {α : Type} {result : Outcome α × ChromecastClient}
    (h : returned result = some next) : next = result.2 := by
  unfold returned at h
  split at h
  next => cases h
  next => exact (Option.some.inj h).symm

theorem connectCompleted_case (error : Bool) (sending : Outcome Unit) :
    StepCase platform client (.connectCompleted error sending)
      ({ client with
        connecting := client.connecting - 1 }.onConnected error
          sending).2 := by
  unfold onConnected
  cases error with
  | true => exact .connectFailed true sending (by simp)
  | false =>
      cases sending with
      | error fault => exact .connectFailed false _ (by simp)
      | ok _ => exact .connected

theorem close_case (sending closing : Outcome Unit) :
    StepCase platform client (.close sending closing)
      (client.close sending closing).2 := by
  unfold close
  cases sending with
  | error fault => exact .closeFailed fault closing
  | ok _ =>
      cases closing with
      | error fault => exact .closeRaised fault
      | ok _ => exact .closed

theorem sendable_of_operate (rapid : RapidJson) (channel : ChannelId)
    (hasCallback : Bool) (sending : Outcome Unit) (channels : Channels)
    (operation : Operation) :
    (channels.operate rapid channel hasCallback sending
        operation.onChannel).2 = channels ∨ operation.Sendable := by
  cases operation with
  | load media autoplay unset =>
      simp only [Operation.onChannel, Channels.operate, Channels.load,
        Operation.Sendable]
      cases media.toMessage unset (Channels.typed "LOAD") with
      | error fault => exact Or.inl rfl
      | ok message => exact Or.inr rfl
  | play | pause | stop | seek minuteOffset => exact Or.inr trivial

theorem operate_case {player : PlayerId} {operation : Operation}
    {hasCallback : Bool} {sending outcome : Outcome Unit}
    (h : client.operate platform player operation hasCallback sending =
      some (outcome, next)) :
    StepCase platform client (.operate player operation hasCallback sending)
      next := by
  unfold operate at h
  split at h
  next => cases h
  next current hcurrent =>
    split at h
    next =>
      cases h
      exact .refused player operation hasCallback sending
    next channel hchannel =>
      obtain ⟨address, haddress, -, rfl⟩ := onMediaChannel_cases h
      exact .operated player operation hasCallback sending channel address _
        current hcurrent hchannel
        (sendable_of_operate platform.rapid channel hasCallback sending
          client.mediaChannels operation) haddress

theorem receiverMessage_case {payload : StdString}
    {ending connecting sending : Outcome Unit} {outcome : Outcome Bool}
    (h : client.receiverMessage platform payload ending connecting sending =
      some (outcome, next)) :
    StepCase platform client
      (.receiverMessage payload ending connecting sending) next := by
  unfold receiverMessage at h
  dsimp only at h
  have hcase := message_case platform.rapid payload ending
    client.receiverChannel
  split at h
  next hsilent =>
    cases h
    rw [hsilent] at hcase
    cases hcase with
    | silent happlication hpending =>
        exact .received payload ending connecting sending hsilent
          happlication hpending
  next cause player info hmessage =>
    split_ifs at h
    obtain ⟨result, hresult, heq⟩ := Option.map_eq_some_iff.mp h
    cases heq
    obtain ⟨current, hcurrent, hinit⟩ := initializePlayer_cases hresult
    exact .initialized payload ending connecting sending cause player info
      current _ hmessage hcurrent hinit

theorem fireMedia_case {timer : ℕ} {sending : Outcome Unit}
    (h : client.fireMedia platform timer sending = some next) :
    StepCase platform client (.fireMedia timer sending)
      (client.handled next) := by
  unfold fireMedia at h
  split at h
  next channel requests hchannel hfire =>
    obtain ⟨⟨outcome, last⟩, hlast, rfl⟩ := Option.map_eq_some_iff.mp h
    obtain ⟨address, haddress, -, rfl⟩ := onMediaChannel_cases hlast
    exact .fireMedia timer sending channel address requests hchannel hfire
      haddress
  next => cases h

theorem request_case {event : Event}
    {step : ReceiverChannel.Event PlayerId} (hevent : event.IsRequest)
    (hkeeps : ∀ channel, client.receiverChannel.step platform.rapid getId
      step = some channel →
        (channel = client.receiverChannel ∨ event.Asks) ∧
          channel.application = client.receiverChannel.application ∧
          channel.pending = client.receiverChannel.pending)
    (h : client.receiverStep platform step = some next) :
    StepCase platform client event next := by
  obtain ⟨channel, hchannel, rfl⟩ := Option.map_eq_some_iff.mp h
  obtain ⟨hasks, happlication, hpending⟩ := hkeeps channel hchannel
  exact .request event channel hevent hasks happlication hpending

theorem heartbeat_case {event : Event} {step : HeartbeatChannel.Event}
    (hevent : event.heartbeat = some step) (hnot : ¬event.IsHeartbeatTimer)
    (h : client.heartbeatStep platform step = some next) :
    StepCase platform client event next := by
  obtain ⟨channel, hchannel, rfl⟩ := Option.map_eq_some_iff.mp h
  exact .heartbeat event step channel hevent hnot hchannel

theorem heartbeatTimer_case {event : Event} {step : HeartbeatChannel.Event}
    (hevent : event.heartbeat = some step) (htimer : event.IsHeartbeatTimer)
    (h : (client.heartbeatStep platform step).map client.handled =
      some next) : StepCase platform client event next := by
  obtain ⟨after, hafter, rfl⟩ := Option.map_eq_some_iff.mp h
  obtain ⟨channel, hchannel, rfl⟩ := Option.map_eq_some_iff.mp hafter
  exact .heartbeatTimer event step channel hevent htimer hchannel

theorem step_cases {event : Event}
    (h : client.step platform event = some next) :
    StepCase platform client event next := by
  cases event with
  | makePlayer player senderId =>
      simp only [step] at h
      split at h
      next hnew =>
        cases h
        exact .makePlayer player senderId hnew
      next => cases h
  | release player =>
      simp only [step] at h
      split at h
      next => cases h
      next current hcurrent =>
        exact .release player current next hcurrent h
  | register address =>
      obtain ⟨⟨outcome, after⟩, hmade, rfl⟩ := Option.map_eq_some_iff.mp h
      obtain ⟨⟨made, router⟩, hconstruct, heq⟩ :=
        Option.map_eq_some_iff.mp hmade
      cases heq
      exact .register address made router hconstruct
  | unregister channel =>
      simp only [step, Option.ite_none_right_eq_some] at h
      exact .unregister channel next (destroyed_of_destroyChannel h.2)
  | asyncConnect validAddress =>
      cases h
      exact .asyncConnect validAddress
  | connectCompleted error sending =>
      simp only [step, Option.ite_none_right_eq_some] at h
      cases h.2
      exact connectCompleted_case error sending
  | close sending closing =>
      cases h
      exact close_case sending closing
  | launch player hasCallback sending =>
      simp only [step, Option.ite_none_right_eq_some] at h
      obtain ⟨⟨outcome, last⟩, hlast, rfl⟩ :=
        Option.map_eq_some_iff.mp h.2
      exact .launch player hasCallback sending last (launch_cases hlast)
  | join player hasCallback sending =>
      simp only [step, Option.ite_none_right_eq_some] at h
      cases h.2
      unfold join ReceiverChannel.join
      cases hasCallback with
      | false => exact .request _ _ trivial (Or.inl rfl) rfl rfl
      | true => exact .request _ _ trivial (Or.inr rfl) rfl rfl
  | getAppAvailabillity appIds hasCallback sending =>
      refine request_case trivial (fun channel hchannel => ?_) h
      cases hchannel
      unfold ReceiverChannel.getAppAvailabillity
      cases appIds with
      | nil => exact ⟨Or.inl rfl, rfl, rfl⟩
      | cons appId rest => exact ⟨Or.inr (List.cons_ne_nil _ _), rfl, rfl⟩
  | getStatus hasCallback sending =>
      refine request_case trivial (fun channel hchannel => ?_) h
      cases hchannel
      exact ⟨Or.inr trivial, rfl, rfl⟩
  | mute mute hasCallback sending =>
      refine request_case trivial (fun channel hchannel => ?_) h
      cases hchannel
      exact ⟨Or.inr trivial, rfl, rfl⟩
  | setVolume volumeLevel hasCallback sending =>
      refine request_case trivial (fun channel hchannel => ?_) h
      cases hchannel
      exact ⟨Or.inr trivial, rfl, rfl⟩
  | operate player operation hasCallback sending =>
      obtain ⟨⟨outcome, last⟩, hlast, hnext⟩ :=
        Option.bind_eq_some_iff.mp h
      rw [returned_eq_some hnext]
      exact operate_case hlast
  | receiverMessage payload ending connecting sending =>
      obtain ⟨⟨outcome, last⟩, hlast, hnext⟩ :=
        Option.bind_eq_some_iff.mp h
      rw [returned_eq_some hnext]
      exact receiverMessage_case hlast
  | mediaMessage channel payload ending =>
      obtain ⟨⟨outcome, last⟩, hlast, hnext⟩ :=
        Option.bind_eq_some_iff.mp h
      rw [returned_eq_some hnext]
      obtain ⟨address, haddress, -, rfl⟩ := onMediaChannel_cases hlast
      refine .mediaMessage channel payload ending address _ haddress ?_
      rw [(Channels.onMessage_requests _ _ _ _).1]
      exact Requests.received_onMessage platform.rapid _ payload _
  | heartbeatMessage payload sending => exact heartbeat_case rfl id h
  | elapse duration => exact heartbeat_case rfl id h
  | expireSend wait => exact heartbeat_case rfl id h
  | runSend wait sending => exact heartbeatTimer_case rfl trivial h
  | expireReceive wait => exact heartbeat_case rfl id h
  | runReceive wait closing => exact heartbeatTimer_case rfl trivial h
  | expireReceiver timer =>
      obtain ⟨channel, hchannel, rfl⟩ := Option.map_eq_some_iff.mp h
      obtain ⟨requests, hexpire, rfl⟩ := Option.map_eq_some_iff.mp hchannel
      exact .expireReceiver timer requests hexpire
  | fireReceiver timer sending =>
      obtain ⟨after, hafter, rfl⟩ := Option.map_eq_some_iff.mp h
      obtain ⟨channel, hchannel, rfl⟩ := Option.map_eq_some_iff.mp hafter
      obtain ⟨requests, hfire, rfl⟩ := Option.map_eq_some_iff.mp hchannel
      exact .fireReceiver timer sending requests hfire
  | expireMedia timer =>
      obtain ⟨requests, hexpire, rfl⟩ := Option.map_eq_some_iff.mp h
      exact .expireMedia timer requests hexpire
  | fireMedia timer sending =>
      obtain ⟨after, hafter, rfl⟩ := Option.map_eq_some_iff.mp h
      exact fireMedia_case hafter

end Steps

theorem exists_of_any {α : Type} {value? : Option α} {property : α → Prop}
    [DecidablePred property]
    (h : value?.any (fun value => decide (property value)) = true) :
    ∃ value, value? = some value ∧ property value := by
  obtain ⟨value, hvalue, hproperty⟩ := (Option.any_eq_true _ _).mp h
  exact ⟨value, hvalue, of_decide_eq_true hproperty⟩

/-- A platform on which the messages of the runs below can be read. -/
def textPlatform : Platform where
  rapid := textJson
  strings := StringCompare.unit
  hash _ := 7
  aborted := HeartbeatChannel.operationAborted

/-- A status that nobody asked for: the media player runs on `web-1`. -/
def playerStatus : StdString :=
  lit "\x7b\"requestId\":0,\"type\":\"RECEIVER_STATUS\",\"status\":\x7b" ++
    lit "\"volume\":\x7b\"muted\":false,\"level\":1\x7d," ++
    lit "\"isStandBy\":false,\"applications\":[\x7b" ++
    lit "\"appId\":\"CC1AD845\",\"displayName\":\"Player\"," ++
    lit "\"sessionId\":\"1\",\"statusText\":\"\",\"namespaces\":[]," ++
    lit "\"transportId\":\"web-1\"\x7d]\x7d\x7d"

end ChromecastClient

end LibChromecast
