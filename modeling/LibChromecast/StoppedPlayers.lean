import LibChromecast.VirtualConnections

/-!
# Stopped players

`DefaultMediaPlayer::OnStopped` does not call the one it overrides: the media
channel is destroyed, the connection channel stays and no CLOSE is sent.  So
a `Launch` releases what the previous player made only if that player had not
been initialized.
-/

namespace LibChromecast

open Foundation Foundation.Transition

/-- The application that was initialized is the one of a `Launch`. -/
def Cause.IsLaunch : Cause → Prop
  | .broadcast (some _) _ => True
  | .broadcast none _ | .join _ => False

/-- A CLOSE frame follows each CONNECT frame of the player on its pair. -/
def ClosesAll (player : PlayerId) : List Frame → Prop
  | [] => True
  | frame :: rest =>
      (frame.issuer = .player player → frame.IsConnect →
        ∃ later ∈ rest, later.pair = frame.pair ∧ later.IsClose) ∧
        ClosesAll player rest

theorem closesAll_of_none {player : PlayerId} {frames : List Frame}
    (h : ∀ frame ∈ frames, frame.issuer ≠ .player player) :
    ClosesAll player frames := by
  induction frames with
  | nil => trivial
  | cons frame rest ih =>
      refine ⟨fun hissuer => absurd hissuer (h frame List.mem_cons_self), ?_⟩
      exact ih fun later hlater => h later (List.mem_cons_of_mem _ hlater)

/-- No channel of the stopped player is registered any more, and the virtual
connections it had opened are closed. -/
structure Stop.Released (stop : Stop) : Prop where
  unregistered : ∀ entry ∈ stop.registered, entry.2 ∉ stop.channels
  closed : ClosesAll stop.player stop.frames

namespace ChromecastClient

/-- Every `Launch` released what the previous player had made, and every
`CreateChannels` for a `Launch` returned. -/
structure Releases (client : ChromecastClient) : Prop where
  stops : ∀ stop ∈ client.stops, stop.Released
  creations : ∀ creation ∈ client.creations,
    creation.1.IsLaunch → creation.2 = .ok ()

/-! ## The conditions -/

/-- The player which `Launch` stops has no connection channel. -/
def StopsUnconnected (client : ChromecastClient) : Event → Prop
  | .launch (some _) _ _ =>
      ∀ previous ∈ client.receiverChannel.application,
        ∀ current ∈ client.players previous, current.connection = none
  | _ => True

/-- Other code has registered no channel under an address that a player is
about to take. -/
def NoOtherUse (platform : Platform) (client : ChromecastClient) :
    Event → Prop
  | .receiverMessage payload ending _ _ =>
      ∀ start ∈ initialization? client.receiverChannel
        (client.receiverChannel.onMessage platform.rapid getId ending
          payload).2,
        ∀ current ∈ client.players start.2.1,
          ∀ entry ∈ client.router.channelAddressToChannel,
            entry.2 ∈ client.others →
              entry.1 ≠ ⟨start.2.2.transportId, hashSenderId platform,
                  connectionNamespace⟩ ∧
                entry.1 ≠ ⟨start.2.2.transportId,
                  mediaSenderId (hashSenderId platform) current,
                  mediaNamespace⟩
  | _ => True

/-! ## The invariant -/

/-- A player that made a channel is the current one and has a connection
channel; while the application of a `Launch` is pending there is none. -/
structure Releasing (client : ChromecastClient) : Prop where
  maker : ∀ made ∈ client.makers,
    client.receiverChannel.application = some made.2 ∧
      ∃ current, client.players made.2 = some current ∧
        current.connection.isSome = true
  pending : client.receiverChannel.pending.isSome = true →
    client.makers = [] ∧
      client.receiverChannel.application.isSome = true
  issuer : ∀ frame ∈ client.frames, ∀ player,
    frame.issuer = .player player → ∃ made ∈ client.makers, made.2 = player
  registered : ∀ entry ∈ client.router.channelAddressToChannel,
    (∃ made ∈ client.makers, made.1 = entry.2) ∨ entry.2 ∈ client.others ∨
      ∃ namespaceId ∈ ownNamespaces,
        entry.1 = (ownAddress namespaceId).swap
  releases : client.Releases

/-- No player made a channel, stopped or was launched. -/
structure Proceeds (client next : ChromecastClient) : Prop where
  makers : next.makers = client.makers
  players : ∀ player current, client.players player = some current →
    client.receiverChannel.application = some player →
      ∃ after, next.players player = some after ∧
        after.connection = current.connection
  application : next.receiverChannel.application =
    client.receiverChannel.application
  pending : next.receiverChannel.pending = client.receiverChannel.pending
  frames : ∀ frame ∈ next.frames, frame ∈ client.frames ∨
    ∀ player, frame.issuer = .player player →
      ∃ made ∈ client.makers, made.2 = player
  registered : ∀ entry ∈ next.router.channelAddressToChannel,
    entry ∈ client.router.channelAddressToChannel ∨ entry.2 ∈ next.others
  others : ∀ channel ∈ client.others, channel ∈ next.others
  stops : next.stops = client.stops
  creations : next.creations = client.creations

section Releasing

variable {platform : Platform} {client next : ChromecastClient}

theorem Releasing.proceeds (h : client.Releasing)
    (hproceeds : Proceeds client next) : next.Releasing where
  maker made hmade := by
    rw [hproceeds.makers] at hmade
    obtain ⟨happlication, current, hcurrent, hconnection⟩ :=
      h.maker made hmade
    obtain ⟨after, hafter, hsame⟩ :=
      hproceeds.players made.2 current hcurrent happlication
    rw [hproceeds.application]
    exact ⟨happlication, after, hafter, by rw [hsame]; exact hconnection⟩
  pending hpending := by
    rw [hproceeds.pending] at hpending
    rw [hproceeds.makers, hproceeds.application]
    exact h.pending hpending
  issuer frame hframe player hissuer := by
    rw [hproceeds.makers]
    rcases hproceeds.frames frame hframe with hold | hnew
    · exact h.issuer frame hold player hissuer
    · exact hnew player hissuer
  registered entry hentry := by
    rw [hproceeds.makers]
    rcases hproceeds.registered entry hentry with hold | hother
    · exact (h.registered entry hold).imp_right
        (Or.imp_left (hproceeds.others entry.2))
    · exact Or.inr (Or.inl hother)
  releases := by
    refine ⟨?_, ?_⟩
    · rw [hproceeds.stops]
      exact h.releases.stops
    · rw [hproceeds.creations]
      exact h.releases.creations

/-- Before a player made a channel. -/
theorem Releasing.of_unmade (hmakers : client.makers = [])
    (happlication : client.receiverChannel.application.isSome = true)
    (hissuer : ∀ frame ∈ client.frames, ∀ player,
      frame.issuer ≠ .player player)
    (hregistered : ∀ entry ∈ client.router.channelAddressToChannel,
      entry.2 ∈ client.others ∨ ∃ namespaceId ∈ ownNamespaces,
        entry.1 = (ownAddress namespaceId).swap)
    (hreleases : client.Releases) : client.Releasing where
  maker made hmade := by
    rw [hmakers] at hmade
    cases hmade
  pending _ := ⟨hmakers, happlication⟩
  issuer frame hframe player hplayer :=
    absurd hplayer (hissuer frame hframe player)
  registered entry hentry := Or.inr (hregistered entry hentry)
  releases := hreleases

theorem proceeds_setReceiverChannel {channel : ReceiverChannel PlayerId}
    (happlication : channel.application =
      client.receiverChannel.application)
    (hpending : channel.pending = client.receiverChannel.pending) :
    Proceeds client (client.setReceiverChannel channel) := by
  refine ⟨rfl, fun _ current hcurrent _ => ⟨current, hcurrent, rfl⟩,
    happlication, hpending, fun frame hframe => ?_, fun _ => Or.inl,
    fun _ => id, rfl, rfl⟩
  apply (mem_setReceiverChannel hframe).imp_right
  rintro ⟨hissuer, -⟩ player hplayer
  rw [hissuer] at hplayer
  cases hplayer

theorem proceeds_setMediaChannels {channel : ChannelId} {address : Address}
    {channels : Channels} :
    Proceeds client (client.setMediaChannels channel address channels) := by
  refine ⟨rfl, fun _ current hcurrent _ => ⟨current, hcurrent, rfl⟩,
    rfl, rfl, fun frame hframe => ?_, fun _ => Or.inl, fun _ => id, rfl, rfl⟩
  apply (mem_setMediaChannels hframe).imp_right
  rintro ⟨hissuer, -⟩ player hplayer
  exact ⟨_, mem_makers_of_issuerOf (hissuer.symm.trans hplayer), rfl⟩

theorem proceeds_setHeartbeatChannel {channel : HeartbeatChannel} :
    Proceeds client (client.setHeartbeatChannel channel) := by
  refine ⟨rfl, fun _ current hcurrent _ => ⟨current, hcurrent, rfl⟩, rfl, rfl,
    fun frame hframe => ?_, fun _ => Or.inl, fun _ => id, rfl, rfl⟩
  apply (mem_setHeartbeatChannel hframe).imp_right
  rintro ⟨hissuer, -⟩ player hplayer
  rw [hissuer] at hplayer
  cases hplayer

/-- The connection channel of the client sent a frame. -/
theorem proceeds_issue (address : Address) (document : Json) :
    Proceeds client
      (client.issue [⟨.connectionChannel, address, document⟩]) := by
  refine ⟨rfl, fun _ current hcurrent _ => ⟨current, hcurrent, rfl⟩, rfl, rfl,
    fun frame hframe => ?_, fun _ => Or.inl, fun _ => id, rfl, rfl⟩
  apply (mem_issue hframe).imp_right
  rintro rfl player hplayer
  cases hplayer

theorem Destroyed.proceeds (h : Destroyed client next) :
    Proceeds client next := by
  have hregistered := h.registered
  rw [h.rest]
  exact ⟨rfl, fun _ current hcurrent _ => ⟨current, hcurrent, rfl⟩, rfl, rfl,
    fun _ => Or.inl, fun entry hentry => Or.inl (hregistered entry hentry),
    fun _ => id, rfl, rfl⟩

theorem Proceeds.trans {mid : ChromecastClient}
    (hfirst : Proceeds client mid) (hsecond : Proceeds mid next) :
    Proceeds client next where
  makers := hsecond.makers.trans hfirst.makers
  players player current hcurrent happlication := by
    obtain ⟨between, hbetween, hsame⟩ :=
      hfirst.players player current hcurrent happlication
    obtain ⟨after, hafter, hagain⟩ := hsecond.players player between hbetween
      (hfirst.application.trans happlication)
    exact ⟨after, hafter, hagain.trans hsame⟩
  application := hsecond.application.trans hfirst.application
  pending := hsecond.pending.trans hfirst.pending
  frames frame hframe := by
    rcases hsecond.frames frame hframe with hmid | hnew
    · exact hfirst.frames frame hmid
    · rw [hfirst.makers] at hnew
      exact Or.inr hnew
  registered entry hentry := by
    rcases hsecond.registered entry hentry with hmid | hother
    · exact (hfirst.registered entry hmid).imp_right
        (hsecond.others entry.2)
    · exact Or.inr hother
  others channel hother := hsecond.others channel (hfirst.others channel hother)
  stops := hsecond.stops.trans hfirst.stops
  creations := hsecond.creations.trans hfirst.creations

/-- A player changed that is not the current one, or kept its connection
channel. -/
theorem proceeds_setPlayer {player : PlayerId} {changed : DefaultMediaPlayer}
    (h : client.receiverChannel.application = some player →
      ∀ current, client.players player = some current →
        changed.connection = current.connection) :
    Proceeds client (client.setPlayer player changed) := by
  refine ⟨rfl, fun other current hcurrent happlication => ?_, rfl, rfl,
    fun _ => Or.inl, fun _ => Or.inl, fun _ => id, rfl, rfl⟩
  by_cases hsame : other = player
  · rw [hsame] at hcurrent happlication ⊢
    exact ⟨changed, Function.update_self _ _ _,
      h happlication current hcurrent⟩
  · exact ⟨current, (Function.update_of_ne hsame _ _).trans hcurrent, rfl⟩

theorem proceeds_of_dropped {player : PlayerId}
    (h : client.dropped platform player = some next) :
    Proceeds client next := by
  rcases dropped_cases h with rfl | ⟨current, -, hnot, hdestroyed⟩
  · exact (Destroyed.refl next).proceeds
  · have hset : Proceeds client (client.setPlayer player
        { current with connection := none, mediaChannel := none }) :=
      proceeds_setPlayer fun happlication => absurd happlication hnot
    exact hset.trans hdestroyed.proceeds

/-- The current player made nothing if it has no connection channel. -/
theorem Releasing.makers_eq_nil (h : client.Releasing)
    (hnone : ∀ player, client.receiverChannel.application = some player →
      ∀ current, client.players player = some current →
        current.connection = none) : client.makers = [] := by
  refine List.eq_nil_iff_forall_not_mem.mpr fun made hmade => ?_
  obtain ⟨happlication, current, hcurrent, hconnection⟩ := h.maker made hmade
  rw [hnone made.2 happlication current hcurrent] at hconnection
  cases hconnection

theorem Releasing.issuer_ne (h : client.Releasing)
    (hmakers : client.makers = []) :
    ∀ frame ∈ client.frames, ∀ player, frame.issuer ≠ .player player := by
  intro frame hframe player hplayer
  obtain ⟨made, hmade, -⟩ := h.issuer frame hframe player hplayer
  rw [hmakers] at hmade
  cases hmade

theorem Releasing.registered_of_nil (h : client.Releasing)
    (hmakers : client.makers = []) :
    ∀ entry ∈ client.router.channelAddressToChannel,
      entry.2 ∈ client.others ∨ ∃ namespaceId ∈ ownNamespaces,
        entry.1 = (ownAddress namespaceId).swap := by
  intro entry hentry
  apply (h.registered entry hentry).resolve_left
  rintro ⟨made, hmade, -⟩
  rw [hmakers] at hmade
  cases hmade

/-- The channel of a player that was launched, before it made channels. -/
theorem Releasing.setLaunched {channel : ReceiverChannel PlayerId}
    (h : client.Releasing) (hmakers : client.makers = [])
    (happlication : channel.application.isSome = true) :
    (client.setReceiverChannel channel).Releasing := by
  refine .of_unmade hmakers happlication ?_ (h.registered_of_nil hmakers)
    ⟨h.releases.stops, h.releases.creations⟩
  intro frame hframe other hother
  rcases mem_setReceiverChannel hframe with hold | ⟨hreceiver, -⟩
  · exact h.issuer_ne hmakers frame hold other hother
  · rw [hreceiver] at hother
    cases hother

theorem Releasing.setPlayer {player : PlayerId}
    {changed : DefaultMediaPlayer} (h : client.Releasing)
    (hmakers : client.makers = []) :
    (client.setPlayer player changed).Releasing := by
  refine ⟨fun made hmade => ?_, h.pending, h.issuer, h.registered,
    ⟨h.releases.stops, h.releases.creations⟩⟩
  change made ∈ client.makers at hmade
  rw [hmakers] at hmade
  cases hmade

theorem Releasing.recordStop {player : PlayerId} (h : client.Releasing)
    (hmakers : client.makers = []) :
    (client.recordStop player).Releasing := by
  refine ⟨h.maker, h.pending, h.issuer, h.registered, ?_,
    h.releases.creations⟩
  intro stop hstop
  rcases List.mem_append.mp hstop with hold | hnew
  · exact h.releases.stops stop hold
  · rw [List.mem_singleton.mp hnew]
    refine ⟨fun entry _ hmem => ?_, ?_⟩
    · simp [hmakers] at hmem
    · exact closesAll_of_none fun frame hframe =>
        h.issuer_ne hmakers frame hframe player

theorem Releasing.launched {player : Option PlayerId} {hasCallback : Bool}
    {sending : Outcome Unit} (h : client.Releasing)
    (hstops : client.StopsUnconnected (.launch player hasCallback sending))
    (hcase : LaunchCase platform client next player) : next.Releasing := by
  cases player with
  | none =>
      cases hcase with
      | refused hnext =>
          rw [hnext]
          exact h.proceeds (proceeds_setReceiverChannel rfl rfl)
  | some player =>
      have hboth : next.Releasing ∧ next.makers = [] := by
        apply hcase.keeps
        · rintro current channel ⟨hcurrent, hmakers⟩ happlication
          exact ⟨hcurrent.setLaunched hmakers happlication, hmakers⟩
        · rintro current other changed ⟨hcurrent, hmakers⟩
          exact ⟨hcurrent.setPlayer hmakers, hmakers⟩
        · rintro current after ⟨hcurrent, hmakers⟩ hdestroyed
          exact ⟨hcurrent.proceeds hdestroyed.proceeds,
            hdestroyed.proceeds.makers.trans hmakers⟩
        · rintro current other ⟨hcurrent, hmakers⟩
          exact ⟨hcurrent.recordStop hmakers, hmakers⟩
        · exact ⟨h, h.makers_eq_nil hstops⟩
      exact hboth.1

/-- Only other code can be in the way of the first player. -/
theorem Releasing.free (h : client.Releasing) (hmakers : client.makers = [])
    {transportId senderId : StdString}
    (hother : ∀ entry ∈ client.router.channelAddressToChannel,
      entry.2 ∈ client.others →
        entry.1 ≠ ⟨transportId, hashSenderId platform,
            connectionNamespace⟩ ∧
          entry.1 ≠ ⟨transportId, senderId, mediaNamespace⟩) :
    ∀ entry ∈ client.router.channelAddressToChannel,
      entry.1 ≠ ⟨transportId, hashSenderId platform, connectionNamespace⟩ ∧
        entry.1 ≠ ⟨transportId, senderId, mediaNamespace⟩ := by
  intro entry hentry
  rcases h.registered_of_nil hmakers entry hentry with hforeign |
    ⟨namespaceId, hown, hkey⟩
  · exact hother entry hentry hforeign
  · rw [hkey]
    refine ⟨fun hsame => ?_, fun hsame => ?_⟩
    · have hsender : sender0 = hashSenderId platform :=
        congrArg Address.destination hsame
      exact hashSenderId_ne platform (by decide) hsender.symm
    · have hname : namespaceId = mediaNamespace :=
        congrArg Address.namespaceId hsame
      rw [hname] at hown
      exact absurd hown (by decide)

theorem Releasing.created {player : PlayerId} {cause : Cause}
    {info : ApplicationInfo} {current : DefaultMediaPlayer}
    {mid : ChromecastClient} {created : Outcome Unit}
    (h : client.Releasing) (hunit : platform.strings.UnitValued)
    (happlication : client.receiverChannel.application = some player)
    (hpending : client.receiverChannel.pending = none)
    (hcurrent : client.players player = some current)
    (hfree : cause.IsLaunch →
      ∀ entry ∈ client.router.channelAddressToChannel,
        entry.1 ≠ ⟨info.transportId, hashSenderId platform,
            connectionNamespace⟩ ∧
          entry.1 ≠ ⟨info.transportId,
            mediaSenderId (hashSenderId platform) current, mediaNamespace⟩)
    (hcreated : Created platform player (hashSenderId platform)
      info.transportId current client mid created) :
    (mid.recordCreation cause created).Releasing := by
  have hchannel : mid.receiverChannel = client.receiverChannel := by
    rw [hcreated.rest]
  have hframes : mid.frames = client.frames := by
    rw [hcreated.rest]
  have hothers : mid.others = client.others := by
    rw [hcreated.rest]
  have hstops : mid.stops = client.stops := by
    rw [hcreated.rest]
  have hcreations : mid.creations = client.creations := by
    rw [hcreated.rest]
  refine ⟨fun made hmade => ?_, fun hsome => ?_,
    fun frame hframe other hother => ?_, fun entry hentry => ?_, ?_, ?_⟩
  · have hplayer : made.2 = player := by
      rcases hcreated.makers made hmade with hold | ⟨hnew, -⟩
      · exact Option.some.inj
          ((h.maker made hold).1.symm.trans happlication)
      · exact hnew
    rw [hplayer]
    refine ⟨(congrArg ReceiverChannel.application hchannel).trans
      happlication, ?_⟩
    obtain ⟨after, hafter, hconnection | ⟨hsame, hkept⟩⟩ := hcreated.owner
    · exact ⟨after, hafter, hconnection⟩
    · have hold : made ∈ client.makers := hsame ▸ hmade
      obtain ⟨-, owner, howner, hsome⟩ := h.maker made hold
      rw [hplayer, hcurrent] at howner
      cases howner
      exact ⟨after, hafter, by rw [hkept]; exact hsome⟩
  · change mid.receiverChannel.pending.isSome = true at hsome
    rw [hchannel, hpending] at hsome
    cases hsome
  · change frame ∈ mid.frames at hframe
    rw [hframes] at hframe
    obtain ⟨made, hmade, hplayer⟩ := h.issuer frame hframe other hother
    exact ⟨made, hcreated.makers_mono made hmade, hplayer⟩
  · rcases hcreated.registered entry hentry with hold | hnew
    · change _ ∨ entry.2 ∈ mid.others ∨ _
      rw [hothers]
      apply (h.registered entry hold).imp_left
      rintro ⟨made, hmade, hid⟩
      exact ⟨made, hcreated.makers_mono made hmade, hid⟩
    · exact Or.inl ⟨_, hnew, rfl⟩
  · change ∀ stop ∈ mid.stops, stop.Released
    rw [hstops]
    exact h.releases.stops
  · intro creation hcreation hlaunch
    change creation ∈ mid.creations ++ [(cause, created)] at hcreation
    rw [hcreations] at hcreation
    rcases List.mem_append.mp hcreation with hold | hnew
    · exact h.releases.creations creation hold hlaunch
    · rw [List.mem_singleton.mp hnew] at hlaunch ⊢
      exact hcreated.free hunit (hfree hlaunch)

theorem Releasing.initialized {player : PlayerId} {cause : Cause}
    {info : ApplicationInfo} {current : DefaultMediaPlayer}
    {connecting sending : Outcome Unit}
    (h : client.Releasing) (hunit : platform.strings.UnitValued)
    (happlication : client.receiverChannel.application = some player)
    (hpending : client.receiverChannel.pending = none)
    (hcurrent : client.players player = some current)
    (hfree : cause.IsLaunch →
      ∀ entry ∈ client.router.channelAddressToChannel,
        entry.1 ≠ ⟨info.transportId, hashSenderId platform,
            connectionNamespace⟩ ∧
          entry.1 ≠ ⟨info.transportId,
            mediaSenderId (hashSenderId platform) current, mediaNamespace⟩)
    (hcase : InitializeCase platform player cause info current sending client
      next connecting) : next.Releasing := by
  cases hcase with
  | refused _ fault mid hcreated hnext =>
      rw [hnext]
      exact h.created hunit happlication hpending hcurrent hfree hcreated
  | unconnected fault mid after hcreated hafter hnext =>
      have hmid := h.created hunit happlication hpending hcurrent hfree
        hcreated
      rw [hnext]
      apply hmid.proceeds
      apply proceeds_setPlayer
      intro _ same hsame
      cases hafter.symm.trans hsame
      rfl
  | connected mid after channel address channels hcreated hafter hchannel
      haddress hchannels hnext =>
      have hmid := h.created hunit happlication hpending hcurrent hfree
        hcreated
      have hset : Proceeds (mid.recordCreation cause (.ok ()))
          ((mid.recordCreation cause (.ok ())).setPlayer player
            { after with sessionId := info.sessionId }) := by
        apply proceeds_setPlayer
        intro _ same hsame
        cases hafter.symm.trans hsame
        rfl
      obtain ⟨made, hmade⟩ := hcreated.made rfl
      have hissued : Proceeds ((mid.recordCreation cause (.ok ())).setPlayer
          player { after with sessionId := info.sessionId })
          (((mid.recordCreation cause (.ok ())).setPlayer player
            { after with sessionId := info.sessionId }).issue
              [connectFrame platform player info]) := by
        refine ⟨rfl, fun _ same hsame _ => ⟨same, hsame, rfl⟩, rfl, rfl,
          fun frame hframe => ?_, fun _ => Or.inl, fun _ => id, rfl, rfl⟩
        apply (mem_issue hframe).imp_right
        rintro rfl other hother
        cases hother
        exact ⟨(made, player), hmade, rfl⟩
      rw [hnext]
      exact hmid.proceeds
        ((hset.trans hissued).trans proceeds_setMediaChannels)

/-- What the receiver channel is before it calls `Initialize`. -/
theorem Releasing.received {player : PlayerId}
    {channel : ReceiverChannel PlayerId} (h : client.Releasing)
    (happlication : channel.application = some player)
    (hpending : channel.pending = none)
    (hmakers : ∀ made ∈ client.makers, made.2 = player) :
    (client.setReceiverChannel channel).Releasing := by
  refine ⟨fun made hmade => ?_, fun hsome => ?_,
    fun frame hframe other hother => ?_, h.registered,
    ⟨h.releases.stops, h.releases.creations⟩⟩
  · obtain ⟨-, howner⟩ := h.maker made hmade
    have hplayer : made.2 = player := hmakers made hmade
    exact ⟨happlication.trans (congrArg some hplayer.symm), howner⟩
  · change channel.pending.isSome = true at hsome
    rw [hpending] at hsome
    cases hsome
  · rcases mem_setReceiverChannel hframe with hold | ⟨hreceiver, -⟩
    · exact h.issuer frame hold other hother
    · rw [hreceiver] at hother
      cases hother

theorem Releasing.closing (h : client.Releasing) :
    client.closing.Releasing := by
  have hissued := h.proceeds (proceeds_issue
    (ownAddress connectionNamespace) (controlDocument "CLOSE"))
  exact ⟨hissued.maker, hissued.pending, hissued.issuer, hissued.registered,
    ⟨h.releases.stops, h.releases.creations⟩⟩

theorem Releasing.handled {before : ChromecastClient}
    (h : client.Releasing) : (before.handled client).Releasing :=
  ⟨h.maker, h.pending, h.issuer, h.registered,
    ⟨h.releases.stops, h.releases.creations⟩⟩

theorem Releasing.step {event : Event} (h : client.Releasing)
    (hunit : platform.strings.UnitValued)
    (hstops : client.StopsUnconnected event)
    (hother : client.NoOtherUse platform event)
    (hstep : client.step platform event = some next) : next.Releasing := by
  cases step_cases hstep with
  | makePlayer player senderId hnew =>
      apply h.proceeds
      apply proceeds_setPlayer
      intro _ current hcurrent
      rw [hnew] at hcurrent
      cases hcurrent
  | release player current next hcurrent hnext =>
      have hset : Proceeds client
          (client.setPlayer player { current with held := false }) := by
        apply proceeds_setPlayer
        intro _ same hsame
        cases hcurrent.symm.trans hsame
        rfl
      exact h.proceeds (hset.trans (proceeds_of_dropped hnext))
  | register address outcome router hconstruct =>
      obtain ⟨-, hcase⟩ := Router.construct_inserted hconstruct
      apply h.proceeds
      refine ⟨rfl, fun _ current hcurrent _ => ⟨current, hcurrent, rfl⟩, rfl,
        rfl, fun _ => Or.inl, fun entry hentry => ?_,
        fun _ => List.mem_cons_of_mem _, rfl, rfl⟩
      rcases hcase with ⟨_, _, -, rfl, -⟩ | ⟨-, -, hregistered⟩
      · exact Or.inl hentry
      · rcases hregistered.mem_iff.mp hentry with rfl | hold
        · exact Or.inr List.mem_cons_self
        · exact Or.inl hold
  | unregister channel next hnext => exact h.proceeds hnext.proceeds
  | asyncConnect validAddress =>
      exact ⟨h.maker, h.pending, h.issuer, h.registered,
        ⟨h.releases.stops, h.releases.creations⟩⟩
  | connectFailed error sending hfailed =>
      exact ⟨h.maker, h.pending, h.issuer, h.registered,
        ⟨h.releases.stops, h.releases.creations⟩⟩
  | connected =>
      have hissued := h.proceeds (proceeds_issue
        (ownAddress connectionNamespace) (controlDocument "CONNECT"))
      exact ⟨hissued.maker, hissued.pending, hissued.issuer,
        hissued.registered, ⟨h.releases.stops, h.releases.creations⟩⟩
  | closeFailed fault closing =>
      exact ⟨h.maker, h.pending, h.issuer, h.registered,
        ⟨h.releases.stops, h.releases.creations⟩⟩
  | closeRaised fault => exact h.closing
  | closed =>
      exact ⟨h.closing.maker, h.closing.pending, h.closing.issuer,
        h.closing.registered, ⟨h.releases.stops, h.releases.creations⟩⟩
  | launch player hasCallback sending next hcase =>
      exact h.launched hstops hcase
  | request event channel hevent hasks happlication hpending =>
      exact h.proceeds (proceeds_setReceiverChannel happlication hpending)
  | refused player operation hasCallback sending => exact h
  | operated player operation hasCallback sending channel address channels
      current hcurrent hchannel hsendable haddress =>
      exact h.proceeds proceeds_setMediaChannels
  | received payload ending connecting sending hsilent happlication
      hpending =>
      exact h.proceeds (proceeds_setReceiverChannel happlication hpending)
  | initialized payload ending connecting sending cause player info current
      next hmessage hcurrent hcase =>
      have hstart := message_case platform.rapid payload ending
        client.receiverChannel
      rw [hmessage] at hstart
      have hforeign := hother _ hmessage current hcurrent
      cases hstart with
      | broadcast _ _ hbefore hnext howner hpending =>
          have hreceived := h.received hnext hpending
            fun made hmade => Option.some.inj
              ((h.maker made hmade).1.symm.trans hbefore)
          refine hreceived.initialized hunit hnext hpending hcurrent
            (fun hlaunch => ?_) hcase
          have hsome : client.receiverChannel.pending.isSome = true := by
            rw [howner]
            cases hcall : client.receiverChannel.owner with
            | none =>
                rw [hcall] at hlaunch
                exact False.elim hlaunch
            | some call => rfl
          exact h.free (h.pending hsome).1 hforeign
      | join call _ _ hnone hnext hpending =>
          have hmakers : client.makers = [] :=
            h.makers_eq_nil fun other happlication => by
              rw [hnone] at happlication
              cases happlication
          have hidle : client.receiverChannel.pending = none := by
            by_contra hsome
            have happlication :=
              (h.pending (Option.isSome_iff_ne_none.mpr hsome)).2
            rw [hnone] at happlication
            cases happlication
          have hreceived := h.received hnext (hpending.trans hidle)
            fun made hmade => by
              rw [hmakers] at hmade
              cases hmade
          refine hreceived.initialized hunit hnext (hpending.trans hidle)
            hcurrent (fun hlaunch => ?_) hcase
          exact False.elim hlaunch
  | mediaMessage channel payload ending address channels haddress
      hreceived => exact h.proceeds proceeds_setMediaChannels
  | heartbeat event step channel hevent hnot hchannel =>
      exact h.proceeds proceeds_setHeartbeatChannel
  | heartbeatTimer event step channel hevent htimer hchannel =>
      exact (h.proceeds proceeds_setHeartbeatChannel).handled
  | expireReceiver timer requests hexpire =>
      exact h.proceeds (proceeds_setReceiverChannel rfl rfl)
  | fireReceiver timer sending requests hfire =>
      have hset : Proceeds client (client.setReceiverChannel
          { client.receiverChannel with requests }) :=
        proceeds_setReceiverChannel rfl rfl
      exact (h.proceeds hset).handled
  | expireMedia timer requests hexpire =>
      exact ⟨h.maker, h.pending, h.issuer, h.registered,
        ⟨h.releases.stops, h.releases.creations⟩⟩
  | fireMedia timer sending channel address requests hchannel hfire
      haddress => exact (h.proceeds proceeds_setMediaChannels).handled

/-- If no `Launch` stops a player that has a connection channel, then what
each stopped player made is released, and the `Initialize` of a later launch
finds its addresses free. -/
theorem releases_of_run {memory : Memory} {events : List Event}
    (hconstruct : construct platform memory = some client)
    (hunit : platform.strings.UnitValued)
    (hother : Along (ChromecastClient.step platform) (NoOtherUse platform)
      client events)
    (hstops : Along (ChromecastClient.step platform) StopsUnconnected client
      events) :
    Throughout (ChromecastClient.step platform) Releases client events := by
  have hstart : client.Releasing := by
    have hconstructed := constructed hconstruct
    have hregistered := hconstructed.registered
    rw [hconstructed.rest]
    refine ⟨fun made hmade => absurd hmade List.not_mem_nil, fun hsome => ?_,
      fun frame hframe => absurd hframe List.not_mem_nil,
      fun entry hentry => ?_, ?_, ?_⟩
    · change (ReceiverChannel.construct memory).pending.isSome = true at hsome
      rw [ReceiverChannel.pending_construct] at hsome
      cases hsome
    · exact Or.inr (Or.inr (hregistered entry hentry))
    · exact fun stop hstop => absurd hstop List.not_mem_nil
    · exact fun creation hcreation => absurd hcreation List.not_mem_nil
  have hthroughout : Throughout (ChromecastClient.step platform) Releasing
      client events := throughout_of_along
    (fun current event next hcurrent hevent hstep =>
      hcurrent.step hunit hevent.1 hevent.2 hstep) hstart (hstops.and hother)
  exact throughout_mono (fun current hcurrent => hcurrent.releases)
    hthroughout

end Releasing

/-! ## Connections of players stay open -/

/-- Only the client's own connection is closed, and players open connections
of the sender id that is made up. -/
structure OfPlayers (platform : Platform) (frame : Frame) : Prop where
  closes : frame.IsClose → frame.pair = ownPair
  connects : ∀ player, frame.issuer = .player player → frame.IsConnect →
    frame.address.source = hashSenderId platform

structure Unclosed (platform : Platform) (client : ChromecastClient) :
    Prop where
  frames : ∀ frame ∈ client.frames, OfPlayers platform frame
  stops : ∀ stop ∈ client.stops, ∀ frame ∈ stop.frames,
    OfPlayers platform frame

section Unclosed

variable {platform : Platform} {client next : ChromecastClient}

theorem ofPlayers_of_namespace {frame : Frame}
    (h : frame.address.namespaceId ≠ connectionNamespace) :
    OfPlayers platform frame :=
  ⟨fun hclose => absurd hclose.1 h,
    fun _ _ hconnect => absurd hconnect.1 h⟩

theorem ofPlayers_connectFrame (player : PlayerId) (info : ApplicationInfo) :
    OfPlayers platform (connectFrame platform player info) :=
  ⟨fun hclose => absurd hclose
    (not_isClose_of_isConnect (isConnect_connectFrame platform player info)),
    fun _ _ _ => rfl⟩

theorem ofPlayers_of_own (document : Json) :
    OfPlayers platform
      ⟨.connectionChannel, ownAddress connectionNamespace, document⟩ := by
  refine ⟨fun _ => rfl, fun player hissuer => ?_⟩
  cases hissuer

/-- Frames were issued, and nobody was stopped. -/
structure Adds (platform : Platform) (client next : ChromecastClient) :
    Prop where
  frames : ∀ frame ∈ next.frames, frame ∈ client.frames ∨
    OfPlayers platform frame
  stops : next.stops = client.stops

theorem Unclosed.adds (h : client.Unclosed platform)
    (hadds : Adds platform client next) : next.Unclosed platform where
  frames frame hframe :=
    (hadds.frames frame hframe).elim (h.frames frame) id
  stops := by
    rw [hadds.stops]
    exact h.stops

theorem Adds.trans {mid : ChromecastClient}
    (hfirst : Adds platform client mid) (hsecond : Adds platform mid next) :
    Adds platform client next :=
  ⟨fun frame hframe => (hsecond.frames frame hframe).elim
      (hfirst.frames frame) Or.inr,
    hsecond.stops.trans hfirst.stops⟩

theorem adds_of_same (hframes : next.frames = client.frames)
    (hstops : next.stops = client.stops) : Adds platform client next :=
  ⟨fun _ hframe => Or.inl (hframes ▸ hframe), hstops⟩

theorem adds_issue {frame : Frame} (h : OfPlayers platform frame) :
    Adds platform client (client.issue [frame]) := by
  refine ⟨fun other hother => ?_, rfl⟩
  apply (mem_issue hother).imp_right
  rintro rfl
  exact h

theorem adds_setReceiverChannel {channel : ReceiverChannel PlayerId} :
    Adds platform client (client.setReceiverChannel channel) := by
  refine ⟨fun frame hframe => ?_, rfl⟩
  apply (mem_setReceiverChannel hframe).imp_right
  rintro ⟨-, haddress⟩
  apply ofPlayers_of_namespace
  rw [haddress]
  exact (show receiverNamespace ≠ connectionNamespace by decide)

theorem adds_setHeartbeatChannel {channel : HeartbeatChannel} :
    Adds platform client (client.setHeartbeatChannel channel) := by
  refine ⟨fun frame hframe => ?_, rfl⟩
  apply (mem_setHeartbeatChannel hframe).imp_right
  rintro ⟨-, haddress⟩
  apply ofPlayers_of_namespace
  rw [haddress]
  exact (show heartbeatNamespace ≠ connectionNamespace by decide)

theorem adds_setMediaChannels {channel : ChannelId} {address : Address}
    {channels : Channels}
    (haddress : client.mediaAddress? channel = some address) :
    Adds platform client
      (client.setMediaChannels channel address channels) := by
  refine ⟨fun frame hframe => ?_, rfl⟩
  apply (mem_setMediaChannels hframe).imp_right
  rintro ⟨-, hsame⟩
  apply ofPlayers_of_namespace
  rw [hsame, (mediaAddress?_eq_some haddress).2]
  decide

theorem Destroyed.adds (h : Destroyed client next) :
    Adds platform client next := by
  rw [h.rest]
  exact adds_of_same rfl rfl

theorem Unclosed.launched {player : Option PlayerId}
    (h : client.Unclosed platform)
    (hcase : LaunchCase platform client next player) :
    next.Unclosed platform := by
  cases player with
  | none =>
      cases hcase with
      | refused hnext =>
          rw [hnext]
          exact h.adds adds_setReceiverChannel
  | some player =>
      apply hcase.keeps
      · exact fun _ _ hcurrent _ => hcurrent.adds adds_setReceiverChannel
      · exact fun _ _ _ hcurrent => ⟨hcurrent.frames, hcurrent.stops⟩
      · exact fun _ _ hcurrent hdestroyed => hcurrent.adds hdestroyed.adds
      · intro current other hcurrent
        refine ⟨hcurrent.frames, fun stop hmem => ?_⟩
        rcases List.mem_append.mp hmem with hold | hnew
        · exact hcurrent.stops stop hold
        · rw [List.mem_singleton.mp hnew]
          exact hcurrent.frames
      · exact h

theorem Adds.initialized {player : PlayerId} {cause : Cause}
    {info : ApplicationInfo} {current : DefaultMediaPlayer}
    {connecting sending : Outcome Unit}
    (hcase : InitializeCase platform player cause info current sending client
      next connecting) : Adds platform client next := by
  cases hcase with
  | refused _ fault mid hcreated hnext =>
      rw [hnext, hcreated.rest]
      exact adds_of_same rfl rfl
  | unconnected fault mid after hcreated hafter hnext =>
      rw [hnext, hcreated.rest]
      exact adds_of_same rfl rfl
  | connected mid after channel address channels hcreated hafter hchannel
      haddress hchannels hnext =>
      have hmid : Adds platform client ((mid.recordCreation cause
          (.ok ())).setPlayer player
            { after with sessionId := info.sessionId }) := by
        rw [hcreated.rest]
        exact adds_of_same rfl rfl
      rw [hnext]
      exact hmid.trans ((adds_issue (ofPlayers_connectFrame player info)).trans
        (adds_setMediaChannels haddress))

theorem Unclosed.closing (h : client.Unclosed platform) :
    client.closing.Unclosed platform := by
  refine ⟨fun frame hframe => ?_, h.stops⟩
  rcases List.mem_append.mp hframe with hold | hnew
  · exact h.frames frame hold
  · rw [List.mem_singleton.mp hnew]
    exact ofPlayers_of_own _

theorem Unclosed.step {event : Event} (h : client.Unclosed platform)
    (hstep : client.step platform event = some next) :
    next.Unclosed platform := by
  cases step_cases hstep with
  | makePlayer player senderId hnew => exact ⟨h.frames, h.stops⟩
  | release player current next hcurrent hnext =>
      have hset : (client.setPlayer player
          { current with held := false }).Unclosed platform :=
        ⟨h.frames, h.stops⟩
      exact keeps_of_dropped
        (fun _ _ _ hcurrent => ⟨hcurrent.frames, hcurrent.stops⟩)
        (fun _ _ hcurrent hdestroyed => hcurrent.adds hdestroyed.adds) hset
        hnext
  | register address outcome router hconstruct => exact ⟨h.frames, h.stops⟩
  | unregister channel next hnext => exact h.adds hnext.adds
  | asyncConnect validAddress => exact ⟨h.frames, h.stops⟩
  | connectFailed error sending hfailed => exact ⟨h.frames, h.stops⟩
  | connected =>
      have hissued : (client.issue [⟨.connectionChannel,
          ownAddress connectionNamespace,
          controlDocument "CONNECT"⟩]).Unclosed platform :=
        h.adds (adds_issue (ofPlayers_of_own _))
      exact ⟨hissued.frames, h.stops⟩
  | closeFailed fault closing => exact ⟨h.frames, h.stops⟩
  | closeRaised fault => exact h.closing
  | closed => exact ⟨h.closing.frames, h.stops⟩
  | launch player hasCallback sending next hcase => exact h.launched hcase
  | request event channel hevent hasks happlication hpending =>
      exact h.adds adds_setReceiverChannel
  | refused player operation hasCallback sending => exact h
  | operated player operation hasCallback sending channel address channels
      current hcurrent hchannel hsendable haddress =>
      exact h.adds (adds_setMediaChannels haddress)
  | received payload ending connecting sending hsilent happlication
      hpending => exact h.adds adds_setReceiverChannel
  | initialized payload ending connecting sending cause player info current
      next hmessage hcurrent hcase =>
      exact h.adds (adds_setReceiverChannel.trans (.initialized hcase))
  | mediaMessage channel payload ending address channels haddress
      hreceived => exact h.adds (adds_setMediaChannels haddress)
  | heartbeat event step channel hevent hnot hchannel =>
      exact h.adds adds_setHeartbeatChannel
  | heartbeatTimer event step channel hevent htimer hchannel =>
      have hset : (client.setHeartbeatChannel channel).Unclosed platform :=
        h.adds adds_setHeartbeatChannel
      exact ⟨hset.frames, h.stops⟩
  | expireReceiver timer requests hexpire =>
      exact h.adds adds_setReceiverChannel
  | fireReceiver timer sending requests hfire =>
      have hset : (client.setReceiverChannel { client.receiverChannel with
          requests }).Unclosed platform := h.adds adds_setReceiverChannel
      exact ⟨hset.frames, h.stops⟩
  | expireMedia timer requests hexpire => exact ⟨h.frames, h.stops⟩
  | fireMedia timer sending channel address requests hchannel hfire
      haddress =>
      have hset : (client.setMediaChannels channel address
          { client.mediaChannels with requests }).Unclosed platform :=
        h.adds (adds_setMediaChannels haddress)
      exact ⟨hset.frames, h.stops⟩

theorem closes_of_closesAll {player : PlayerId} {frames : List Frame}
    {frame : Frame} (h : ClosesAll player frames) (hmem : frame ∈ frames)
    (hissuer : frame.issuer = .player player) (hconnect : frame.IsConnect) :
    ∃ later ∈ frames, later.pair = frame.pair ∧ later.IsClose := by
  induction frames with
  | nil => cases hmem
  | cons first rest ih =>
      rcases List.mem_cons.mp hmem with rfl | hrest
      · obtain ⟨later, hlater, hclosed⟩ := h.1 hissuer hconnect
        exact ⟨later, List.mem_cons_of_mem _ hlater, hclosed⟩
      · obtain ⟨later, hlater, hclosed⟩ := ih h.2 hrest
        exact ⟨later, List.mem_cons_of_mem _ hlater, hclosed⟩

/-- In no run is a player that sent CONNECT released when it is stopped. -/
theorem not_released_of_connect {memory : Memory} {events : List Event}
    (hconstruct : construct platform memory = some client)
    (hrun : exec (ChromecastClient.step platform) client events = some next)
    {stop : Stop} (hstop : stop ∈ next.stops) {frame : Frame}
    (hframe : frame ∈ stop.frames)
    (hissuer : frame.issuer = .player stop.player)
    (hconnect : frame.IsConnect) : ¬stop.Released := by
  have hstart : client.Unclosed platform := by
    rw [(constructed hconstruct).rest]
    exact ⟨fun frame hframe => absurd hframe List.not_mem_nil,
      fun stop hstop => absurd hstop List.not_mem_nil⟩
  have hlast := exec_invariant (Unclosed platform)
    (fun current event next hcurrent hstep => hcurrent.step hstep) hstart
    hrun
  intro hreleased
  obtain ⟨later, hlater, hpair, hclose⟩ :=
    closes_of_closesAll hreleased.closed hframe hissuer hconnect
  have hown := (hlast.stops stop hstop later hlater).closes hclose
  have hsource := (hlast.stops stop hstop frame hframe).connects stop.player
    hissuer hconnect
  have hsender : frame.address.source = sender0 :=
    congrArg Prod.fst (hpair.symm.trans hown)
  exact hashSenderId_ne platform (by decide) (hsource.symm.trans hsender)

end Unclosed

/-! ## Runs -/

instance (cause : Cause) : Decidable cause.IsLaunch :=
  match cause with
  | .broadcast (some _) _ => .isTrue trivial
  | .broadcast none _ | .join _ => .isFalse id

def decidableClosesAll (player : PlayerId) :
    (frames : List Frame) → Decidable (ClosesAll player frames)
  | [] => .isTrue trivial
  | frame :: rest =>
      have := decidableClosesAll player rest
      inferInstanceAs (Decidable ((_ → _ → ∃ later ∈ rest,
        later.pair = frame.pair ∧ later.IsClose) ∧ _))

instance (player : PlayerId) (frames : List Frame) :
    Decidable (ClosesAll player frames) := decidableClosesAll player frames

instance (stop : Stop) : Decidable stop.Released :=
  decidable_of_iff ((∀ entry ∈ stop.registered, entry.2 ∉ stop.channels) ∧
      ClosesAll stop.player stop.frames)
    ⟨fun h => ⟨h.1, h.2⟩, fun h => ⟨h.unregistered, h.closed⟩⟩

instance (client : ChromecastClient) : Decidable client.Releases :=
  decidable_of_iff ((∀ stop ∈ client.stops, stop.Released) ∧
      ∀ creation ∈ client.creations,
        creation.1.IsLaunch → creation.2 = .ok ())
    ⟨fun h => ⟨h.1, h.2⟩, fun h => ⟨h.stops, h.creations⟩⟩

instance (client : ChromecastClient) (event : Event) :
    Decidable (client.StopsUnconnected event) :=
  match event with
  | .launch (some _) .. =>
      inferInstanceAs (Decidable
        (∀ previous ∈ client.receiverChannel.application,
          ∀ current ∈ client.players previous, current.connection = none))
  | .launch none .. | .makePlayer .. | .release _ | .register _
  | .unregister _ | .asyncConnect _ | .connectCompleted .. | .close ..
  | .join .. | .getAppAvailabillity .. | .getStatus .. | .mute ..
  | .setVolume .. | .operate .. | .receiverMessage .. | .mediaMessage ..
  | .heartbeatMessage .. | .elapse _ | .expireSend _ | .runSend ..
  | .expireReceive _ | .runReceive .. | .expireReceiver _
  | .fireReceiver .. | .expireMedia _ | .fireMedia .. => .isTrue trivial

instance (platform : Platform) (client : ChromecastClient) (event : Event) :
    Decidable (client.NoOtherUse platform event) :=
  match event with
  | .receiverMessage payload ending .. =>
      inferInstanceAs (Decidable (∀ start ∈ initialization?
        client.receiverChannel (client.receiverChannel.onMessage
          platform.rapid getId ending payload).2,
        ∀ current ∈ client.players start.2.1,
          ∀ entry ∈ client.router.channelAddressToChannel,
            entry.2 ∈ client.others →
              entry.1 ≠ ⟨start.2.2.transportId, hashSenderId platform,
                  connectionNamespace⟩ ∧
                entry.1 ≠ ⟨start.2.2.transportId,
                  mediaSenderId (hashSenderId platform) current,
                  mediaNamespace⟩))
  | .launch .. | .makePlayer .. | .release _ | .register _
  | .unregister _ | .asyncConnect _ | .connectCompleted .. | .close ..
  | .join .. | .getAppAvailabillity .. | .getStatus .. | .mute ..
  | .setVolume .. | .operate .. | .mediaMessage ..
  | .heartbeatMessage .. | .elapse _ | .expireSend _ | .runSend ..
  | .expireReceive _ | .runReceive .. | .expireReceiver _
  | .fireReceiver .. | .expireMedia _ | .fireMedia .. => .isTrue trivial

/-- A player is replaced by another one before the receiver runs it. -/
def replacedRun : List Event :=
  [.makePlayer 0 [], .makePlayer 1 [], .launch (some 0) true (.ok ()),
    .launch (some 1) true (.ok ()),
    .receiverMessage playerStatus (.ok ()) (.ok ()) (.ok ())]

theorem releases_of_run_replaced :
    ∃ client, construct textPlatform ReceiverChannel.cleared = some client ∧
      Throughout (step textPlatform) Releases client replacedRun := by
  have hsome : (construct textPlatform ReceiverChannel.cleared).any
      (fun client => decide (Along (step textPlatform)
          (NoOtherUse textPlatform) client replacedRun) &&
        decide (Along (step textPlatform) StopsUnconnected client
          replacedRun)) := by decide +kernel
  obtain ⟨client, hconstruct, hboth⟩ := (Option.any_eq_true _ _).mp hsome
  obtain ⟨hother, hstops⟩ := (Bool.and_eq_true _ _).mp hboth
  exact ⟨client, hconstruct,
    releases_of_run hconstruct StringCompare.unit_unitValued
      (of_decide_eq_true hother) (of_decide_eq_true hstops)⟩

/-- A player is launched, initialized and launched again; the receiver reports
the same transport id. -/
def relaunchedRun : List Event :=
  [.makePlayer 0 [], .launch (some 0) true (.ok ()),
    .receiverMessage playerStatus (.ok ()) (.ok ()) (.ok ()),
    .launch (some 0) true (.ok ()),
    .receiverMessage playerStatus (.ok ()) (.ok ()) (.ok ())]

/-- The stopped player has released nothing but its media channel, and the
second `Initialize` raises. -/
theorem not_releases_relaunched :
    ∃ client, construct textPlatform ReceiverChannel.cleared = some client ∧
      Along (step textPlatform) (NoOtherUse textPlatform) client
        relaunchedRun ∧
      (∃ last, exec (step textPlatform) client relaunchedRun = some last ∧
        (∃ stop ∈ last.stops, ¬stop.Released) ∧
        ∃ creation ∈ last.creations,
          creation.1.IsLaunch ∧ creation.2 ≠ .ok ()) ∧
      ¬Throughout (step textPlatform) Releases client relaunchedRun := by
  have hsome : (construct textPlatform ReceiverChannel.cleared).any
      (fun client => decide
        (Along (step textPlatform) (NoOtherUse textPlatform) client
            relaunchedRun ∧
          (exec (step textPlatform) client relaunchedRun).any (fun last =>
            decide ((∃ stop ∈ last.stops, ¬stop.Released) ∧
              ∃ creation ∈ last.creations,
                creation.1.IsLaunch ∧ creation.2 ≠ .ok ())) = true ∧
          ¬Throughout (step textPlatform) Releases client
            relaunchedRun)) := by decide +kernel
  obtain ⟨client, hconstruct, hother, hlast, hnot⟩ := exists_of_any hsome
  exact ⟨client, hconstruct, hother, exists_of_any hlast, hnot⟩

end ChromecastClient

end LibChromecast
