import Mathlib.Logic.Relation
import LibChromecast.ClientSteps

/-!
# What a step of the client is made of

Every step is a chain of parts: one call of a channel of the client, the frame
of a control message, the construction or the destruction of a channel, or a
change nobody outside the client can see.  What each part keeps, every step
keeps.
-/

namespace LibChromecast

open Foundation Foundation.Transition Relation

/-! ## Requests -/

namespace Requests

variable {ι κ : Type}

/-- The two agree on the ids, the entries and the frames. -/
structure SameIds (world other : Requests ι κ) : Prop where
  requestId : other.requestId = world.requestId
  drawn : other.drawn = world.drawn
  table : other.requestIdToRequest = world.requestIdToRequest
  trace : other.trace = world.trace

variable [DecidableEq ι]

/-- What one call does to the requests: at most one id is drawn. -/
inductive Moved (rapid : RapidJson) (world : Requests ι κ) :
    Requests ι κ → Prop
  | kept (next : Requests ι κ) (hsame : SameIds world next) :
      Moved rapid world next
  | received (next : Requests ι κ) (hreceived : Received world next) :
      Moved rapid world next
  | requested (before : Requests ι κ) (hsame : SameIds world before)
      (channel : ι) (message : Json) (callback : κ) (call : ℕ)
      (sending : Outcome Unit) :
      Moved rapid world
        (before.request rapid channel message callback call sending).2

variable {rapid : RapidJson} {world next : Requests ι κ}

theorem Moved.refl (rapid : RapidJson) (world : Requests ι κ) :
    Moved rapid world world := .received world .same

theorem moved_userRequest (rapid : RapidJson) (channel : ι) (message : Json)
    (callback : κ) (sending : Outcome Unit) (world : Requests ι κ) :
    Moved rapid world
      (world.userRequest rapid channel message callback sending).2 := by
  have hsame : SameIds world
      { world with requested := world.requested ++ [message] } :=
    ⟨rfl, rfl, rfl, rfl⟩
  exact .requested _ hsame channel message callback _ sending

omit [DecidableEq ι] in
theorem sameIds_of_expire {timer : ℕ} (h : world.expire timer = some next) :
    SameIds world next := by
  unfold expire at h
  split at h
  next => cases h
  next =>
    split_ifs at h
    cases h
    exact ⟨rfl, rfl, rfl, rfl⟩

theorem moved_of_fire {timer : ℕ} {sending : Outcome Unit}
    (h : world.fire rapid timer sending = some next) :
    Moved rapid world next := by
  unfold fire at h
  split at h
  next => cases h
  next t _ =>
    split_ifs at h
    cases h
    have hsame : SameIds world (world.setTimer timer .fired) :=
      ⟨rfl, rfl, rfl, rfl⟩
    exact .requested _ hsame _ _ _ _ sending

end Requests

namespace ReceiverChannel

variable {α : Type} (rapid : RapidJson) (getId : α → StdString)
  (sending : Outcome Unit) (channel : ReceiverChannel α)

theorem moved_request (message : Json) (callback : ReceiverCallback α) :
    Requests.Moved rapid channel.requests
      (channel.request rapid sending message callback).2.requests :=
  Requests.moved_userRequest rapid () message callback sending
    channel.requests

theorem moved_launchStopped (rest : Stopping α) :
    Requests.Moved rapid channel.requests
      (channel.launchStopped rapid getId sending rest).2.requests := by
  have hmoved := moved_request rapid sending { channel with
      application := some rest.application
      onApplicationLaunched :=
        if rest.hasCallback then some rest.call else none }
    ((typed "LAUNCH").set (lit "appId")
      (.ofString (getId rest.application))) .launch
  unfold launchStopped
  cases sending <;> exact hmoved

theorem moved_launch (application : Option α) (hasCallback : Bool) :
    Requests.Moved rapid channel.requests
      (channel.launch rapid getId sending application
        hasCallback).2.requests := by
  unfold launch
  cases application with
  | none => exact .refl rapid _
  | some application =>
      cases channel.application with
      | none =>
          dsimp only
          exact moved_launchStopped rapid getId sending
            (channel.nextCall.observe (.launch channel.calls application)) _
      | some _ => exact .refl rapid _

theorem moved_join (application : Option α) (hasCallback : Bool) :
    Requests.Moved rapid channel.requests
      (channel.join rapid sending application hasCallback).2.requests := by
  unfold join
  cases hasCallback with
  | false => exact .refl rapid _
  | true => exact moved_request rapid sending _ _ _

variable {rapid getId sending channel}

theorem moved_of_onStoppedReturned {outcome ended : Outcome Unit}
    {next : ReceiverChannel α}
    (h : channel.onStoppedReturned rapid getId sending outcome =
      some (ended, next)) :
    Requests.Moved rapid channel.requests next.requests := by
  unfold onStoppedReturned at h
  split at h
  next => cases h
  next rest stopping _ =>
    cases outcome with
    | error fault =>
        cases h
        exact .refl rapid _
    | ok _ =>
        have hlaunched := Option.some.inj h
        have hmoved := moved_launchStopped rapid getId sending
          { channel with stopping } rest
        rw [hlaunched] at hmoved
        exact hmoved

/-- Every event of the channel itself moves its requests. -/
theorem moved_of_step {event : Event α} {next : ReceiverChannel α}
    (hevent : event ≠ .draw)
    (h : channel.step rapid getId event = some next) :
    Requests.Moved rapid channel.requests next.requests := by
  cases event with
  | getAppAvailabillity appIds hasCallback sending =>
      cases h
      unfold getAppAvailabillity
      cases appIds with
      | nil => exact .refl rapid _
      | cons appId rest => exact moved_request rapid sending channel _ _
  | getStatus hasCallback sending =>
      cases h
      exact moved_request rapid sending channel _ _
  | mute mute hasCallback sending =>
      cases h
      exact moved_request rapid sending channel _ _
  | setVolume volumeLevel hasCallback sending =>
      cases h
      exact moved_request rapid sending channel _ _
  | launch application hasCallback sending =>
      cases h
      exact moved_launch rapid getId sending channel application hasCallback
  | stopped outcome sending =>
      obtain ⟨⟨ended, last⟩, hlast, rfl⟩ := Option.map_eq_some_iff.mp h
      exact moved_of_onStoppedReturned hlast
  | join application hasCallback sending =>
      cases h
      exact moved_join rapid sending channel application hasCallback
  | complete initialization value =>
      simp only [step, complete] at h
      split at h
      next =>
        split at h <;> cases h <;> exact .refl rapid _
      next =>
        cases h
        exact .refl rapid _
      next => cases h
  | message payload ending =>
      simp only [step] at h
      split at h
      next => cases h
      next heq =>
        cases h
        have hreceived := onMessage_requests rapid getId ending payload
          channel
        rw [heq] at hreceived
        exact .received _ hreceived
  | expire timer =>
      obtain ⟨requests, hexpire, rfl⟩ := Option.map_eq_some_iff.mp h
      exact .kept _ (Requests.sameIds_of_expire hexpire)
  | fire timer sending =>
      obtain ⟨requests, hfire, rfl⟩ := Option.map_eq_some_iff.mp h
      exact Requests.moved_of_fire hfire
  | draw => exact absurd rfl hevent

end ReceiverChannel

namespace Channels

variable (rapid : RapidJson) (channel : ℕ) (hasCallback : Bool)
  (sending : Outcome Unit) (channels : Channels)

theorem moved_request (message : Json) (callback : ResponseCallback) :
    Requests.Moved rapid channels.requests
      (channels.request rapid channel sending message callback).2.requests :=
  Requests.moved_userRequest rapid (ChannelRef.media channel) message
    callback sending channels.requests

theorem moved_sessionRequest (message : Json) :
    Requests.Moved rapid channels.requests
      (channels.sessionRequest rapid channel hasCallback sending
        message).2.requests :=
  moved_request rapid channel sending
    { channels with
      sessions := (channels.sessionRequest rapid channel hasCallback sending
        message).2.sessions } _ _

theorem moved_operate (operation : Operation) :
    Requests.Moved rapid channels.requests
      (channels.operate rapid channel hasCallback sending
        operation).2.requests := by
  cases operation with
  | load media autoplay unset =>
      simp only [operate, load]
      split
      next => exact .refl rapid _
      next => exact moved_request rapid channel sending channels _ _
  | play | pause | stop | seek _ | setTrackInfo _ =>
      exact moved_sessionRequest rapid channel hasCallback sending channels _
  | getStatus => exact moved_request rapid channel sending channels _ _

end Channels

/-! ## Heartbeats -/

namespace HeartbeatChannel

/-- What an event sends: a PONG for a PING, and a PING when the send timer
expires. -/
def sent (rapid : RapidJson) (channel : HeartbeatChannel) :
    Event → List Json
  | .message payload (.ok ()) => if isPing rapid payload then [pong] else []
  | .runSend wait (.ok ()) =>
      if (channel.heartbeatSendTimer.complete wait).map Prod.fst =
        some false then [ping] else []
  | _ => []

theorem frames_of_step {rapid : RapidJson} {aborted : ErrorCode}
    {channel next : HeartbeatChannel} {event : Event}
    (h : channel.step rapid aborted event = some next) :
    next.frames = channel.frames ++ channel.sent rapid event := by
  cases event with
  | elapse duration =>
      cases h
      exact (List.append_nil _).symm
  | start =>
      cases h
      exact (List.append_nil _).symm
  | close =>
      cases h
      exact (List.append_nil _).symm
  | expireSend wait =>
      obtain ⟨timer, -, rfl⟩ := Option.map_eq_some_iff.mp h
      exact (List.append_nil _).symm
  | expireReceive wait =>
      obtain ⟨timer, -, rfl⟩ := Option.map_eq_some_iff.mp h
      exact (List.append_nil _).symm
  | runReceive wait closing =>
      obtain ⟨⟨error, timer⟩, -, rfl⟩ := Option.map_eq_some_iff.mp h
      cases error <;> cases closing <;> exact (List.append_nil _).symm
  | message payload sending =>
      have hcases := onMessage_cases rapid channel payload sending
      simp only [step] at h
      split at h
      next => cases h
      next last _ hmessage =>
        cases h
        rw [hmessage] at hcases
        rcases hcases with ⟨hnot, hsame⟩ | ⟨⟨hping, rfl⟩, hanswered⟩
        · have hnothing : channel.sent rapid (.message payload sending) =
              [] := by
            cases sending with
            | error fault => rfl
            | ok _ => exact if_neg fun hping => hnot ⟨hping, rfl⟩
          change last.frames = _
          rw [hnothing, List.append_nil]
          exact congrArg frames hsame
        · change last.frames = _
          rw [sent, if_pos hping]
          exact congrArg frames hanswered
  | runSend wait sending =>
      obtain ⟨⟨error, timer⟩, hcomplete, rfl⟩ :=
        Option.map_eq_some_iff.mp h
      cases sending with
      | error fault =>
          cases error <;> exact (List.append_nil _).symm
      | ok _ =>
          rw [sent, hcomplete]
          cases error with
          | true => exact (List.append_nil _).symm
          | false => rfl

end HeartbeatChannel

/-! ## Parts -/

/-- The player holds the `unique_ptr` of the channel. -/
def DefaultMediaPlayer.Owns (current : DefaultMediaPlayer)
    (channel : ChannelId) : Prop :=
  current.connection = some channel ∨ current.mediaChannel = some channel

namespace ChromecastClient

/-- Nothing changed that the other end of the connection, a request or a
channel depends on. -/
structure Unmoved (client next : ChromecastClient) : Prop where
  router : next.router = client.router
  nextChannel : next.nextChannel = client.nextChannel
  frames : next.frames = client.frames
  receiver : next.receiverChannel.requests = client.receiverChannel.requests
  media : next.mediaChannels.requests = client.mediaChannels.requests
  heartbeat : next.heartbeatChannel.frames = client.heartbeatChannel.frames
  others : next.others = client.others

/-- The three channels of the client itself are constructed first. -/
def ownChannels : ℕ := 3

/-- Players were given such sender ids, and neither they nor other code own a
channel of the client itself. -/
structure Orderly (named : StdString → Prop) (client : ChromecastClient) :
    Prop where
  players : ∀ player current, client.players player = some current →
    (current.senderId = [] ∨ named current.senderId) ∧
      ∀ channel, current.Owns channel → ownChannels ≤ channel
  others : ∀ channel ∈ client.others, ownChannels ≤ channel
  nextChannel : ownChannels ≤ client.nextChannel

/-- The client or other code has made a channel object, or failed to. -/
def made (router : Router) (others : List ChannelId)
    (client : ChromecastClient) : ChromecastClient :=
  { client with router, others, nextChannel := client.nextChannel + 1 }

/-- A new channel belongs to other code, or it is one of the client itself or
of a player. -/
def Places (client : ChromecastClient) (address : Address)
    (others : List ChannelId) : Prop :=
  others = client.nextChannel :: client.others ∨
    (others = client.others ∧ (client.nextChannel < ownChannels ∨
      address.namespaceId = connectionNamespace ∨
        address.namespaceId = mediaNamespace))

def setRequests (requests : Requests ChannelRef ResponseCallback)
    (client : ChromecastClient) : ChromecastClient :=
  { client with
    mediaChannels := { client.mediaChannels with requests } }

/-- A part of a step; `named` holds of the own sources of the channels that
are constructed, and of the sender ids that players are given. -/
inductive Part (platform : Platform) (named : StdString → Prop)
    (client : ChromecastClient) : ChromecastClient → Prop
  | unseen (next : ChromecastClient) (hsame : Unmoved client next)
      (horderly : client.Orderly named → next.Orderly named) :
      Part platform named client next
  | receiver (channel : ReceiverChannel PlayerId)
      (hmoved : Requests.Moved platform.rapid
        client.receiverChannel.requests channel.requests) :
      Part platform named client (client.setReceiverChannel channel)
  | media (channel : ChannelId) (address : Address) (channels : Channels)
      (haddress : client.mediaAddress? channel = some address)
      (hmoved : Requests.Moved platform.rapid client.mediaChannels.requests
        channels.requests) :
      Part platform named client
        (client.setMediaChannels channel address channels)
  | heartbeat (channel : HeartbeatChannel)
      (hframes : client.heartbeatChannel.frames <+: channel.frames) :
      Part platform named client (client.setHeartbeatChannel channel)
  | control (issuer : Issuer) (address : Address) (type : String)
      (hnamespace : address.namespaceId = connectionNamespace) :
      Part platform named client
        (client.issue [⟨issuer, address, controlDocument type⟩])
  | expired (timer : ℕ) (requests : Requests ChannelRef ResponseCallback)
      (hexpire : client.mediaChannels.requests.expire timer =
        some requests) :
      Part platform named client (client.setRequests requests)
  | constructed (address : Address) (others : List ChannelId)
      (outcome : Outcome Unit) (router : Router)
      (hsource : named address.source)
      (hplaces : client.Places address others)
      (hconstruct : client.router.construct platform.strings
        client.nextChannel address = some (outcome, router)) :
      Part platform named client (client.made router others)
  | destroyed (channel : ChannelId) (next : ChromecastClient)
      (hforeign : ownChannels ≤ channel)
      (hnext : client.destroyChannel platform channel = some next) :
      Part platform named client next

abbrev Parts (platform : Platform) (named : StdString → Prop) :
    ChromecastClient → ChromecastClient → Prop :=
  ReflTransGen (Part platform named)

section Parts

variable {platform : Platform} {named : StdString → Prop}
  {client next : ChromecastClient}

theorem Part.parts (h : Part platform named client next) :
    Parts platform named client next := ReflTransGen.single h

/-- Nothing seen from outside changed, and nobody owns more. -/
theorem Unmoved.parts (h : Unmoved client next)
    (hplayers : next.players = client.players) :
    Parts platform named client next := by
  refine (Part.unseen next h fun horderly => ?_).parts
  exact {
    players := hplayers ▸ horderly.players
    others := h.others ▸ horderly.others
    nextChannel := h.nextChannel ▸ horderly.nextChannel }

theorem Part.orderly (h : Part platform named client next)
    (horderly : client.Orderly named) : next.Orderly named := by
  have hsame : next.players = client.players →
      next.others = client.others →
      client.nextChannel ≤ next.nextChannel → next.Orderly named := by
    intro hplayers hothers hnext
    exact {
      players := hplayers ▸ horderly.players
      others := hothers ▸ horderly.others
      nextChannel := horderly.nextChannel.trans hnext }
  cases h with
  | unseen _ _ hkept => exact hkept horderly
  | receiver | media | heartbeat | control | expired =>
      exact hsame rfl rfl (Nat.le_refl _)
  | constructed _ others _ _ _ hplaces =>
      refine ⟨horderly.players, ?_, horderly.nextChannel.trans
        (Nat.le_succ _)⟩
      rcases hplaces with rfl | ⟨rfl, -⟩
      · exact List.forall_mem_cons.mpr
          ⟨horderly.nextChannel, horderly.others⟩
      · exact horderly.others
  | destroyed channel _ _ hnext =>
      obtain ⟨router, -, rfl⟩ := Option.map_eq_some_iff.mp hnext
      exact hsame rfl rfl (Nat.le_refl _)

theorem orderly_of_parts (h : Parts platform named client next)
    (horderly : client.Orderly named) : next.Orderly named := by
  induction h with
  | refl => exact horderly
  | tail _ hlast ih => exact hlast.orderly ih

/-- The channels that are there are numbered below the next one. -/
def Numbered (client : ChromecastClient) : Prop :=
  ∀ object ∈ client.router.live, object.1 < client.nextChannel

theorem Part.nextChannel_le (h : Part platform named client next) :
    client.nextChannel ≤ next.nextChannel := by
  cases h with
  | unseen _ hsame => exact hsame.nextChannel.ge
  | receiver | media | heartbeat | control | expired =>
      exact Nat.le_refl _
  | constructed => exact Nat.le_succ _
  | destroyed channel _ _ hnext =>
      obtain ⟨router, -, rfl⟩ := Option.map_eq_some_iff.mp hnext
      exact Nat.le_refl _

theorem nextChannel_of_parts (h : Parts platform named client next) :
    client.nextChannel ≤ next.nextChannel := by
  induction h with
  | refl => exact Nat.le_refl _
  | tail _ hlast ih => exact ih.trans hlast.nextChannel_le

theorem Part.numbered (h : Part platform named client next)
    (hnumbered : client.Numbered) : next.Numbered := by
  cases h with
  | unseen _ hsame =>
      unfold Numbered
      rw [hsame.router, hsame.nextChannel]
      exact hnumbered
  | receiver | media | heartbeat | control | expired => exact hnumbered
  | constructed address _ outcome router _ _ hconstruct =>
      intro object hobject
      apply Nat.lt_succ_iff.mpr
      obtain ⟨-, hcase⟩ := Router.construct_inserted hconstruct
      rcases hcase with ⟨_, _, -, hsame, -⟩ | ⟨-, hadded, -⟩
      · exact (hnumbered object (hsame ▸ hobject)).le
      · change object ∈ router.live at hobject
        rw [hadded] at hobject
        rcases List.mem_cons.mp hobject with rfl | hold
        · exact Nat.le_refl _
        · exact (hnumbered object hold).le
  | destroyed channel _ _ hnext =>
      obtain ⟨router, hrouter, rfl⟩ := Option.map_eq_some_iff.mp hnext
      intro object hobject
      exact hnumbered object ((subset_of_destroy hrouter).1 object hobject)

theorem numbered_of_parts (h : Parts platform named client next)
    (hnumbered : client.Numbered) : next.Numbered := by
  induction h with
  | refl => exact hnumbered
  | tail _ hlast ih => exact hlast.numbered ih

/-- The channels of the client itself stay. -/
theorem Part.kept (h : Part platform named client next)
    {channel : ChannelId} {address : Address} (hown : channel < ownChannels)
    (hlive : (channel, address) ∈ client.router.live) :
    (channel, address) ∈ next.router.live := by
  cases h with
  | unseen _ hsame => exact hsame.router ▸ hlive
  | receiver | media | heartbeat | control | expired => exact hlive
  | constructed own _ outcome router _ _ hconstruct =>
      obtain ⟨-, hcase⟩ := Router.construct_inserted hconstruct
      rcases hcase with ⟨_, _, -, hsame, -⟩ | ⟨-, hadded, -⟩
      · exact hsame ▸ hlive
      · change (channel, address) ∈ router.live
        rw [hadded]
        exact List.mem_cons_of_mem _ hlive
  | destroyed other _ hforeign hnext =>
      obtain ⟨router, hrouter, rfl⟩ := Option.map_eq_some_iff.mp hnext
      obtain ⟨_, _, -, -, hfiltered, -⟩ := Router.destroy_inserted hrouter
      change (channel, address) ∈ router.live
      rw [hfiltered, List.mem_filter]
      refine ⟨hlive, ?_⟩
      have hne : channel ≠ other := (hown.trans_le hforeign).ne
      simpa using hne

theorem kept_of_parts (h : Parts platform named client next)
    {channel : ChannelId} {address : Address} (hown : channel < ownChannels)
    (hlive : (channel, address) ∈ client.router.live) :
    (channel, address) ∈ next.router.live := by
  induction h with
  | refl => exact hlive
  | tail _ hlast ih => exact hlast.kept hown ih

theorem Orderly.setPlayer (h : client.Orderly named) (player : PlayerId)
    {current : DefaultMediaPlayer}
    (hcurrent : (current.senderId = [] ∨ named current.senderId) ∧
      ∀ channel, current.Owns channel → ownChannels ≤ channel) :
    (client.setPlayer player current).Orderly named where
  players other found hfound := by
    change Function.update client.players player (some current) other =
      some found at hfound
    by_cases hother : other = player
    · rw [hother, Function.update_self] at hfound
      cases hfound
      exact hcurrent
    · rw [Function.update_of_ne hother] at hfound
      exact h.players other found hfound
  others := h.others
  nextChannel := h.nextChannel

theorem parts_of_reset {owned : Option ChannelId}
    (hforeign : ∀ channel ∈ owned, ownChannels ≤ channel)
    (h : client.reset platform owned = some next) :
    Parts platform named client next := by
  cases owned with
  | none =>
      cases h
      exact .refl
  | some channel =>
      exact (Part.destroyed channel next (hforeign channel rfl) h).parts

theorem parts_setPlayer (player : PlayerId) {current : DefaultMediaPlayer}
    (hcurrent : client.Orderly named →
      (current.senderId = [] ∨ named current.senderId) ∧
        ∀ channel, current.Owns channel → ownChannels ≤ channel) :
    Parts platform named client (client.setPlayer player current) := by
  have hpart : Part platform named client
      (client.setPlayer player current) := by
    refine .unseen _ ?_ fun horderly =>
      horderly.setPlayer player (hcurrent horderly)
    exact ⟨rfl, rfl, rfl, rfl, rfl, rfl, rfl⟩
  exact hpart.parts

/-- A player changes, but not its sender id, and owns no more. -/
theorem parts_changePlayer {player : PlayerId}
    {current changed : DefaultMediaPlayer}
    (hcurrent : client.players player = some current)
    (hsame : changed.senderId = current.senderId)
    (howns : ∀ channel, changed.Owns channel → current.Owns channel) :
    Parts platform named client (client.setPlayer player changed) := by
  refine parts_setPlayer player fun horderly => ?_
  obtain ⟨hsender, hforeign⟩ := horderly.players player current hcurrent
  exact ⟨hsame ▸ hsender,
    fun channel howned => hforeign channel (howns channel howned)⟩

theorem parts_of_destroyPlayer {player : PlayerId}
    {current : DefaultMediaPlayer} (horderly : client.Orderly named)
    (hcurrent : client.players player = some current)
    (h : client.destroyPlayer platform player current = some next) :
    Parts platform named client next := by
  obtain ⟨mid, hmid, hnext⟩ := Option.bind_eq_some_iff.mp h
  obtain ⟨-, hforeign⟩ := horderly.players player current hcurrent
  have hdropped : Parts platform named client (client.setPlayer player
      { current with connection := none, mediaChannel := none }) :=
    parts_changePlayer hcurrent (by rfl) (by simp [DefaultMediaPlayer.Owns])
  exact (hdropped.trans (parts_of_reset
    (fun channel hmedia => hforeign channel (Or.inr hmedia)) hmid)).trans
      (parts_of_reset
        (fun channel howned => hforeign channel (Or.inl howned)) hnext)

theorem parts_of_dropped {player : PlayerId}
    (horderly : client.Orderly named)
    (h : client.dropped platform player = some next) :
    Parts platform named client next := by
  unfold dropped at h
  split at h
  next => cases h
  next current hcurrent =>
    split_ifs at h
    · cases h
      exact .refl
    · exact parts_of_destroyPlayer horderly hcurrent h

theorem parts_of_onStopped {player : PlayerId}
    (horderly : client.Orderly named)
    (h : client.onStopped platform player = some next) :
    Parts platform named client next := by
  unfold onStopped at h
  split at h
  next => cases h
  next current hcurrent =>
    obtain ⟨stopped, hstopped, rfl⟩ := Option.map_eq_some_iff.mp h
    obtain ⟨-, hforeign⟩ := horderly.players player current hcurrent
    have hreleased : Parts platform named client (client.setPlayer player
        { current with mediaChannel := none }) :=
      parts_changePlayer hcurrent (by rfl) fun channel howned =>
        Or.inl (howned.resolve_right (by simp))
    exact (hreleased.trans (parts_of_reset
      (fun channel hmedia => hforeign channel (Or.inr hmedia))
        hstopped)).trans (Unmoved.parts ⟨rfl, rfl, rfl, rfl, rfl, rfl, rfl⟩ rfl)

/-! ## Initialize -/

theorem parts_of_replaceChannel {player : PlayerId} {address : Address}
    {owned : DefaultMediaPlayer → Option ChannelId}
    {store : DefaultMediaPlayer → ChannelId → DefaultMediaPlayer}
    {outcome : Outcome Unit} (horderly : client.Orderly named)
    (hsource : named address.source)
    (hnamespace : address.namespaceId = connectionNamespace ∨
      address.namespaceId = mediaNamespace)
    (howned : ∀ current channel, owned current = some channel →
      current.Owns channel)
    (hsender : ∀ current channel,
      (store current channel).senderId = current.senderId)
    (hstore : ∀ current made channel, (store current made).Owns channel →
      channel = made ∨ current.Owns channel)
    (h : client.replaceChannel platform player address owned store =
      some (outcome, next)) : Parts platform named client next := by
  have hplaces : client.Places address client.others :=
    Or.inr ⟨rfl, Or.inr hnamespace⟩
  unfold replaceChannel at h
  split at h
  next current fault router _ hconstruct =>
    cases h
    exact (Part.constructed address client.others _ router hsource hplaces
      hconstruct).parts
  next current router hcurrent hconstruct =>
    obtain ⟨last, hlast, heq⟩ := Option.map_eq_some_iff.mp h
    cases heq
    obtain ⟨hnamed, hforeign⟩ := horderly.players player current hcurrent
    have hown : Part platform named (client.made router client.others)
        (client.own player (store current) router) := by
      refine .unseen _ ?_ fun hmade => ?_
      · exact ⟨rfl, rfl, rfl, rfl, rfl, rfl, rfl⟩
      · have hstored : ∀ channel,
            (store current client.nextChannel).Owns channel →
              ownChannels ≤ channel := by
          intro channel hchannel
          rcases hstore current _ channel hchannel with rfl | hold
          · exact horderly.nextChannel
          · exact hforeign channel hold
        have hset := hmade.setPlayer player
          ⟨hsender current client.nextChannel ▸ hnamed, hstored⟩
        exact ⟨hset.players, hset.others, hset.nextChannel⟩
    exact ((Part.constructed address client.others _ router hsource hplaces
      hconstruct).parts.trans hown.parts).trans (parts_of_reset
        (fun channel hreset => hforeign channel
          (howned current channel hreset)) hlast)
  next => cases h

theorem parts_of_createChannels {player : PlayerId}
    {senderId receiverId : StdString} {outcome : Outcome Unit}
    (horderly : client.Orderly named) (hsender : named senderId)
    (h : client.createChannels platform player senderId receiverId =
      some (outcome, next)) : Parts platform named client next := by
  have hconnection : ∀ {outcome mid},
      client.createConnectionChannel platform player senderId receiverId =
        some (outcome, mid) → Parts platform named client mid := by
    intro outcome mid hmid
    refine parts_of_replaceChannel horderly hsender (Or.inl rfl)
      (fun _ _ => Or.inl)
      (fun _ _ => by rfl) (fun current made channel howns => ?_) hmid
    rcases howns with hmade | hmedia
    · exact Or.inl (Option.some.inj hmade).symm
    · exact Or.inr (Or.inr hmedia)
  unfold createChannels at h
  split at h
  next => cases h
  next fault mid hmid =>
    cases h
    exact hconnection hmid
  next mid hmid =>
    have hfirst := hconnection hmid
    have hmade := orderly_of_parts hfirst horderly
    unfold createMediaChannel at h
    split at h
    next => cases h
    next current hcurrent =>
      obtain ⟨hnamed, hforeign⟩ := hmade.players player current hcurrent
      have hmedia : named (mediaSenderId senderId current) := by
        unfold mediaSenderId
        split_ifs with hempty
        · exact hsender
        · exact hnamed.resolve_left hempty
      have hset : Parts platform named mid (mid.setPlayer player
          { current with senderId := mediaSenderId senderId current }) :=
        parts_setPlayer player fun _ => ⟨Or.inr hmedia, hforeign⟩
      refine (hfirst.trans hset).trans (parts_of_replaceChannel
        (orderly_of_parts hset hmade) hmedia (Or.inr rfl)
          (fun _ _ => Or.inr) (fun _ _ => by rfl)
          (fun current made channel howns => ?_) h)
      rcases howns with hold | hmade
      · exact Or.inr (Or.inl hold)
      · exact Or.inl (Option.some.inj hmade).symm

theorem parts_sendControl (issuer : Issuer) {address : Address}
    (hnamespace : address.namespaceId = connectionNamespace) (type : String)
    (sending : Outcome Unit) (client : ChromecastClient) :
    Parts platform named client
      (client.sendControl issuer address type sending).2 := by
  cases sending with
  | error fault => exact .refl
  | ok _ => exact (Part.control issuer address type hnamespace).parts

theorem parts_of_onMediaChannel {α : Type} {channel : ChannelId}
    {call : Channels → Outcome α × Channels} {outcome : Outcome α}
    (hmoved : ∀ channels : Channels, Requests.Moved platform.rapid
      channels.requests (call channels).2.requests)
    (h : client.onMediaChannel channel call = some (outcome, next)) :
    Parts platform named client next := by
  obtain ⟨address, haddress, -, rfl⟩ := onMediaChannel_cases h
  exact (Part.media channel address _ haddress (hmoved _)).parts

theorem parts_of_connectPlayer {player : PlayerId} {info : ApplicationInfo}
    {connecting outcome : Outcome Unit}
    (h : client.connectPlayer platform player info connecting =
      some (outcome, next)) : Parts platform named client next := by
  obtain ⟨current, hcurrent, hsent⟩ := Option.map_eq_some_iff.mp h
  have hnamespace : (⟨hashSenderId platform, info.transportId,
      connectionNamespace⟩ : Address).namespaceId = connectionNamespace := rfl
  have hparts : Parts platform named _ _ := parts_sendControl (.player player)
    hnamespace "CONNECT" connecting (client.setPlayer player
      { current with sessionId := info.sessionId })
  rw [hsent] at hparts
  have hchanged : Parts platform named client (client.setPlayer player
      { current with sessionId := info.sessionId }) :=
    parts_changePlayer hcurrent (by rfl) fun _ => id
  exact hchanged.trans hparts

theorem parts_of_initializePlayer {player : PlayerId} {cause : Cause}
    {info : ApplicationInfo} {connecting sending outcome : Outcome Unit}
    (horderly : client.Orderly named)
    (hhash : named (hashSenderId platform))
    (h : client.initializePlayer platform player cause info connecting
      sending = some (outcome, next)) : Parts platform named client next := by
  unfold initializePlayer at h
  split at h
  next => cases h
  next created mid hmid =>
    have hcreated : Parts platform named client { mid with
        creations := mid.creations ++ [(cause, created)] } :=
      (parts_of_createChannels horderly hhash hmid).trans
        (Unmoved.parts ⟨rfl, rfl, rfl, rfl, rfl, rfl, rfl⟩ rfl)
    cases created with
    | error fault =>
        cases h
        exact hcreated
    | ok _ =>
        dsimp only at h
        split at h
        next => cases h
        next fault last hlast =>
          cases h
          exact hcreated.trans (parts_of_connectPlayer hlast)
        next last hlast =>
          have hconnected := hcreated.trans (parts_of_connectPlayer hlast)
          unfold getMediaStatus at h
          split at h
          next => cases h
          next channel _ =>
            exact hconnected.trans (parts_of_onMediaChannel
              (fun channels => channels.moved_operate platform.rapid channel
                true sending .getStatus) h)

/-! ## Steps -/

theorem parts_of_launch {player : Option PlayerId} {hasCallback : Bool}
    {sending outcome : Outcome Unit} (horderly : client.Orderly named)
    (h : client.launch platform player hasCallback sending =
      some (outcome, next)) : Parts platform named client next := by
  unfold launch at h
  have hcalled : Parts platform named client (client.setReceiverChannel
      (client.receiverChannel.launch platform.rapid getId sending player
        hasCallback).2) :=
    (Part.receiver _ (ReceiverChannel.moved_launch platform.rapid getId
      sending client.receiverChannel player hasCallback)).parts
  dsimp only at h
  split at h
  next player previous _ =>
    split at h
    next => cases h
    next stopped hstopped =>
      have hstop := hcalled.trans
        (parts_of_onStopped (orderly_of_parts hcalled horderly) hstopped)
      split at h
      next => cases h
      next ended channel hreturned =>
        obtain ⟨last, hlast, heq⟩ := Option.map_eq_some_iff.mp h
        cases heq
        have hmoved :=
          ReceiverChannel.moved_of_onStoppedReturned hreturned
        have hlaunched :=
          hstop.trans (Part.receiver channel hmoved).parts
        exact hlaunched.trans
          (parts_of_dropped (orderly_of_parts hlaunched horderly) hlast)
  next =>
    cases h
    exact hcalled

/-- What comes after the receiver channel is done with a message. -/
theorem parts_after_receiver {payload : StdString}
    {ending connecting sending : Outcome Unit} {outcome : Outcome Bool}
    (horderly : client.Orderly named)
    (hhash : named (hashSenderId platform))
    (h : client.receiverMessage platform payload ending connecting sending =
      some (outcome, next)) :
    Parts platform named (client.setReceiverChannel
      (client.receiverChannel.onMessage platform.rapid getId ending
        payload).2) next := by
  unfold receiverMessage at h
  dsimp only at h
  split at h
  next =>
    cases h
    exact .refl
  next cause player info _ =>
    split_ifs at h
    obtain ⟨⟨ended, last⟩, hlast, heq⟩ := Option.map_eq_some_iff.mp h
    cases heq
    refine parts_of_initializePlayer ?_ hhash hlast
    exact ⟨horderly.players, horderly.others, horderly.nextChannel⟩

theorem part_receiverMessage (payload : StdString) (ending : Outcome Unit)
    (client : ChromecastClient) :
    Part platform named client (client.setReceiverChannel
      (client.receiverChannel.onMessage platform.rapid getId ending
        payload).2) :=
  .receiver _ (.received _ (ReceiverChannel.onMessage_requests
    platform.rapid getId ending payload client.receiverChannel))

theorem parts_of_mediaMessage {channel : ChannelId} {payload : StdString}
    {ending : Outcome Unit} {outcome : Outcome Bool}
    (h : client.mediaMessage platform channel payload ending =
      some (outcome, next)) : Parts platform named client next := by
  refine parts_of_onMediaChannel (fun channels => ?_) h
  refine .received _ ?_
  rw [(Channels.onMessage_requests _ _ _ _).1]
  exact Requests.received_onMessage platform.rapid _ payload _

theorem parts_of_operate {player : PlayerId} {operation : Operation}
    {hasCallback : Bool} {sending outcome : Outcome Unit}
    (h : client.operate platform player operation hasCallback sending =
      some (outcome, next)) : Parts platform named client next := by
  unfold operate at h
  split at h
  next => cases h
  next current _ =>
    split at h
    next =>
      cases h
      exact .refl
    next channel _ =>
      exact parts_of_onMediaChannel (fun channels =>
        channels.moved_operate platform.rapid channel hasCallback sending
          operation.onChannel) h

theorem parts_of_receiverStep {event : ReceiverChannel.Event PlayerId}
    (hevent : event ≠ .draw)
    (h : client.receiverStep platform event = some next) :
    Parts platform named client next := by
  obtain ⟨channel, hchannel, rfl⟩ := Option.map_eq_some_iff.mp h
  exact (Part.receiver channel
    (ReceiverChannel.moved_of_step hevent hchannel)).parts

theorem parts_of_heartbeatStep {event : HeartbeatChannel.Event}
    (h : client.heartbeatStep platform event = some next) :
    Parts platform named client next := by
  obtain ⟨channel, hchannel, rfl⟩ := Option.map_eq_some_iff.mp h
  exact (Part.heartbeat channel
    ⟨_, (HeartbeatChannel.frames_of_step hchannel).symm⟩).parts

theorem parts_of_fireMedia {timer : ℕ} {sending : Outcome Unit}
    (h : client.fireMedia platform timer sending = some next) :
    Parts platform named client next := by
  unfold fireMedia at h
  split at h
  next channel requests _ hfire =>
    obtain ⟨⟨outcome, last⟩, hlast, rfl⟩ := Option.map_eq_some_iff.mp h
    obtain ⟨address, haddress, -, rfl⟩ := onMediaChannel_cases hlast
    exact (Part.media channel address _ haddress
      (Requests.moved_of_fire hfire)).parts
  next => cases h

theorem parts_of_onConnected (error : Bool) (sending : Outcome Unit)
    (client : ChromecastClient) :
    Parts platform named client (client.onConnected error sending).2 := by
  unfold onConnected
  cases error with
  | true => exact .refl
  | false =>
      cases sending with
      | error fault => exact .refl
      | ok _ =>
          have hcontrol : Parts platform named client (client.issue
              [⟨.connectionChannel, ownAddress connectionNamespace,
                controlDocument "CONNECT"⟩]) :=
            (Part.control .connectionChannel
              (ownAddress connectionNamespace) "CONNECT" rfl).parts
          exact hcontrol.trans
            (Unmoved.parts ⟨rfl, rfl, rfl, rfl, rfl, rfl, rfl⟩ rfl)

theorem parts_of_close (sending closing : Outcome Unit)
    (client : ChromecastClient) :
    Parts platform named client (client.close sending closing).2 := by
  have hcalled : Parts platform named client
      { client with connected := false } :=
    Unmoved.parts ⟨rfl, rfl, rfl, rfl, rfl, rfl, rfl⟩ rfl
  have hnamespace : (ownAddress connectionNamespace).namespaceId =
    connectionNamespace := rfl
  have hsent := hcalled.trans
    (parts_sendControl .connectionChannel hnamespace "CLOSE" sending _)
  unfold close
  cases sending with
  | error fault => exact hsent
  | ok _ =>
      cases closing with
      | error fault => exact hsent
      | ok _ =>
          exact hsent.trans
            (Unmoved.parts ⟨rfl, rfl, rfl, rfl, rfl, rfl, rfl⟩ rfl)

theorem parts_of_handled (before : ChromecastClient)
    (h : Parts platform named client next) :
    Parts platform named client (before.handled next) :=
  h.trans (Unmoved.parts ⟨rfl, rfl, rfl, rfl, rfl, rfl, rfl⟩ rfl)

/-- The sender ids and the own sources which an event brings. -/
def Event.Named (named : StdString → Prop) : Event → Prop
  | .makePlayer _ senderId => senderId = [] ∨ named senderId
  | .register address => named address.source
  | _ => True

/-- Every step is a chain of parts. -/
theorem parts_of_step {event : Event} (horderly : client.Orderly named)
    (hhash : named (hashSenderId platform)) (hevent : event.Named named)
    (h : client.step platform event = some next) :
    Parts platform named client next := by
  cases event with
  | makePlayer player senderId =>
      simp only [step] at h
      split at h
      next =>
        cases h
        exact parts_setPlayer player fun _ =>
          ⟨hevent, by simp [DefaultMediaPlayer.Owns]⟩
      next => cases h
  | release player =>
      simp only [step] at h
      split at h
      next => cases h
      next current hcurrent =>
        have hreleased : Parts platform named client (client.setPlayer player
            { current with held := false }) :=
          parts_changePlayer hcurrent (by rfl) fun _ => id
        exact hreleased.trans
          (parts_of_dropped (orderly_of_parts hreleased horderly) h)
  | register address =>
      obtain ⟨⟨outcome, after⟩, hmade, rfl⟩ := Option.map_eq_some_iff.mp h
      obtain ⟨⟨ended, router⟩, hconstruct, heq⟩ :=
        Option.map_eq_some_iff.mp hmade
      cases heq
      exact (Part.constructed address _ ended router hevent (Or.inl rfl)
        hconstruct).parts
  | unregister channel =>
      simp only [step, Option.ite_none_right_eq_some] at h
      exact (Part.destroyed channel next (horderly.others channel h.1)
        h.2).parts
  | asyncConnect validAddress =>
      cases h
      exact Unmoved.parts ⟨rfl, rfl, rfl, rfl, rfl, rfl, rfl⟩ rfl
  | connectCompleted error sending =>
      simp only [step, Option.ite_none_right_eq_some] at h
      cases h.2
      have hcompleted : Parts platform named client { client with
          connecting := client.connecting - 1 } :=
        Unmoved.parts ⟨rfl, rfl, rfl, rfl, rfl, rfl, rfl⟩ rfl
      exact hcompleted.trans (parts_of_onConnected error sending _)
  | close sending closing =>
      cases h
      exact parts_of_close sending closing client
  | launch player hasCallback sending =>
      simp only [step, Option.ite_none_right_eq_some] at h
      obtain ⟨⟨outcome, last⟩, hlast, rfl⟩ :=
        Option.map_eq_some_iff.mp h.2
      exact parts_of_launch horderly hlast
  | join player hasCallback sending =>
      simp only [step, Option.ite_none_right_eq_some] at h
      cases h.2
      exact (Part.receiver _ (ReceiverChannel.moved_join platform.rapid
        sending client.receiverChannel player hasCallback)).parts
  | getAppAvailabillity | getStatus | mute | setVolume =>
      exact parts_of_receiverStep (by simp) h
  | operate player operation hasCallback sending =>
      obtain ⟨⟨outcome, last⟩, hlast, hnext⟩ :=
        Option.bind_eq_some_iff.mp h
      rw [returned_eq_some hnext]
      exact parts_of_operate hlast
  | receiverMessage payload ending connecting sending =>
      obtain ⟨⟨outcome, last⟩, hlast, hnext⟩ :=
        Option.bind_eq_some_iff.mp h
      rw [returned_eq_some hnext]
      exact (part_receiverMessage payload ending client).parts.trans
        (parts_after_receiver horderly hhash hlast)
  | mediaMessage channel payload ending =>
      obtain ⟨⟨outcome, last⟩, hlast, hnext⟩ :=
        Option.bind_eq_some_iff.mp h
      rw [returned_eq_some hnext]
      exact parts_of_mediaMessage hlast
  | heartbeatMessage | elapse | expireSend | expireReceive =>
      exact parts_of_heartbeatStep h
  | runSend | runReceive =>
      obtain ⟨after, hafter, rfl⟩ := Option.map_eq_some_iff.mp h
      exact parts_of_handled client (parts_of_heartbeatStep hafter)
  | expireReceiver timer => exact parts_of_receiverStep (by simp) h
  | fireReceiver timer sending =>
      obtain ⟨after, hafter, rfl⟩ := Option.map_eq_some_iff.mp h
      exact parts_of_handled client (parts_of_receiverStep (by simp) hafter)
  | expireMedia timer =>
      obtain ⟨requests, hexpire, rfl⟩ := Option.map_eq_some_iff.mp h
      exact (Part.expired timer requests hexpire).parts
  | fireMedia timer sending =>
      obtain ⟨after, hafter, rfl⟩ := Option.map_eq_some_iff.mp h
      exact parts_of_handled client (parts_of_fireMedia hafter)

theorem Event.named_true (event : Event) :
    event.Named fun _ => True := by
  cases event with
  | makePlayer => exact Or.inr trivial
  | _ => trivial

/-! ### The channels of the client itself -/

structure Registered (namespaceId : StdString)
    (client next : ChromecastClient) : Prop where
  nextChannel : next.nextChannel = client.nextChannel + 1
  here : (client.nextChannel, ownAddress namespaceId) ∈ next.router.live
  earlier : ∀ object ∈ client.router.live, object ∈ next.router.live

theorem registered_of_registerOwn {namespaceId : StdString}
    (h : client.registerOwn platform namespaceId = some next) :
    Registered namespaceId client next := by
  unfold registerOwn at h
  split at h
  next router hconstruct =>
    cases h
    obtain ⟨-, hcase⟩ := Router.construct_inserted hconstruct
    rcases hcase with ⟨_, _, hfault, -⟩ | ⟨-, hadded, -⟩
    · cases hfault
    · refine ⟨rfl, ?_, fun object hobject => ?_⟩
      · change (client.nextChannel, _) ∈ router.live
        rw [hadded]
        exact List.mem_cons_self ..
      · change object ∈ router.live
        rw [hadded]
        exact List.mem_cons_of_mem _ hobject
  next => cases h

/-- The channels of the client itself, in the order in which they are
made. -/
theorem live_of_construct {memory : Memory}
    (h : construct platform memory = some client) :
    client.nextChannel = ownChannels ∧
      (0, ownAddress receiverNamespace) ∈ client.router.live ∧
      (1, ownAddress heartbeatNamespace) ∈ client.router.live ∧
      (2, ownAddress connectionNamespace) ∈ client.router.live := by
  obtain ⟨second, hsecond, hthird⟩ := Option.bind_eq_some_iff.mp h
  obtain ⟨first, hfirst, hsecond⟩ := Option.bind_eq_some_iff.mp hsecond
  have hreceiver := registered_of_registerOwn hfirst
  have hheartbeat := registered_of_registerOwn hsecond
  have hconnection := registered_of_registerOwn hthird
  have hone : first.nextChannel = 1 := hreceiver.nextChannel
  have htwo : second.nextChannel = 2 := by rw [hheartbeat.nextChannel, hone]
  have hhere := hheartbeat.here
  have hlast := hconnection.here
  rw [hone] at hhere
  rw [htwo] at hlast
  refine ⟨by rw [hconnection.nextChannel, htwo]; rfl, ?_,
    hconnection.earlier _ hhere, hlast⟩
  exact hconnection.earlier _ (hheartbeat.earlier _ hreceiver.here)

theorem parts_of_registerOwn {namespaceId : StdString}
    (hsender : named sender0) (hown : client.nextChannel < ownChannels)
    (h : client.registerOwn platform namespaceId = some next) :
    Parts platform named client next := by
  unfold registerOwn at h
  split at h
  next router hconstruct =>
    cases h
    exact (Part.constructed (ownAddress namespaceId) client.others _ router
      hsender (Or.inr ⟨rfl, Or.inl hown⟩) hconstruct).parts
  next => cases h

theorem parts_of_construct {memory : Memory} (hsender : named sender0)
    (h : construct platform memory = some client) :
    Parts platform named { receiverChannel := .construct memory } client := by
  have hnext := (live_of_construct h).1
  obtain ⟨second, hsecond, hthird⟩ := Option.bind_eq_some_iff.mp h
  obtain ⟨first, hfirst, hsecond⟩ := Option.bind_eq_some_iff.mp hsecond
  have hlast := (registered_of_registerOwn hthird).nextChannel
  have hmid := (registered_of_registerOwn hsecond).nextChannel
  have htwo : second.nextChannel < ownChannels := by omega
  have hone : first.nextChannel < ownChannels := by omega
  exact ((parts_of_registerOwn hsender (Nat.zero_lt_succ 2) hfirst).trans
    (parts_of_registerOwn hsender hone hsecond)).trans
      (parts_of_registerOwn hsender htwo hthird)

theorem orderly_of_construct {memory : Memory}
    (h : construct platform memory = some client) :
    client.Orderly named where
  players player current hcurrent := by
    rw [(constructed h).rest] at hcurrent
    cases hcurrent
  others channel hchannel := by
    rw [(constructed h).rest] at hchannel
    cases hchannel
  nextChannel := (live_of_construct h).1.ge

/-! ### Runs -/

/-- Whatever names are given. -/
theorem parts_of_any_step {event : Event}
    (horderly : client.Orderly fun _ => True)
    (h : client.step platform event = some next) :
    Parts platform (fun _ => True) client next :=
  parts_of_step horderly trivial event.named_true h

theorem parts_of_run {events : List Event}
    (horderly : client.Orderly fun _ => True)
    (hrun : exec (step platform) client events = some next) :
    Parts platform (fun _ => True) client next := by
  induction events generalizing client with
  | nil =>
      cases hrun
      exact .refl
  | cons event rest ih =>
      obtain ⟨mid, hmid, hrest⟩ := exec_cons_eq_some.mp hrun
      have hfirst := parts_of_any_step horderly hmid
      exact hfirst.trans (ih (orderly_of_parts hfirst horderly) hrest)

end Parts

end ChromecastClient

end LibChromecast
