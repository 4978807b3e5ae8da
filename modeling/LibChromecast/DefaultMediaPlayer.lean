import LibChromecast.HeartbeatChannel
import LibChromecast.MediaChannel
import LibChromecast.ReceiverChannel
import LibChromecast.Router

/-!
# Players and the channels they own

`SenderApplication` and `DefaultMediaPlayer` over the state of the client
whose receiver channel initializes them: the channels of the connection, the
receiver channel, the media channels and the heartbeat channel.  A player is
named by its id.  A channel a player owns is named by its `ChannelId`, and a
`unique_ptr` to it is an `Option`.

`held` tells whether somebody besides the receiver channel holds a reference
to a player: the user, a callback or a handler that waits.

A handler that runs after its channel was destroyed uses freed memory, so
there is no state after it.

`frames`, `late`, `makers`, `creations` and `stops` are not in the source: the
frames in the order in which they were issued, those of them which timer
handlers issued while the client was closed, which player created which
channel, how the calls of `CreateChannels` ended, and what was there when a
call of `OnStopped` returned.
-/

namespace LibChromecast

open Foundation

abbrev PlayerId := ℕ

/-- What the library takes from its environment: RapidJSON, `compare` and
`std::hash` of strings, and the error of a wait that was cancelled. -/
structure Platform where
  rapid : RapidJson
  strings : StringCompare
  hash : StdString → UInt64
  aborted : ErrorCode

def receiverNamespace : StdString := lit "urn:x-cast:com.google.cast.receiver"

def heartbeatNamespace : StdString :=
  lit "urn:x-cast:com.google.cast.tp.heartbeat"

def connectionNamespace : StdString :=
  lit "urn:x-cast:com.google.cast.tp.connection"

def mediaNamespace : StdString := lit "urn:x-cast:com.google.cast.media"

/-! ## Frames -/

inductive Issuer where
  | connectionChannel
  | receiverChannel
  | heartbeatChannel
  | player (player : PlayerId)
  | other
deriving DecidableEq

structure Frame where
  issuer : Issuer
  address : Address
  document : Json

namespace Frame

/-- The virtual connection of a frame. -/
def pair (frame : Frame) : StdString × StdString :=
  (frame.address.source, frame.address.destination)

def IsControl (type : String) (frame : Frame) : Prop :=
  frame.address.namespaceId = connectionNamespace ∧
    frame.document.find? (lit "type") = some (.ofString (lit type))

abbrev IsConnect (frame : Frame) : Prop := frame.IsControl "CONNECT"

abbrev IsClose (frame : Frame) : Prop := frame.IsControl "CLOSE"

end Frame

/-! ## The state -/

structure DefaultMediaPlayer where
  senderId : StdString
  sessionId : StdString := []
  connection : Option ChannelId := none
  mediaChannel : Option ChannelId := none
  held : Bool := true

/-- What was there when `OnStopped` of a player returned: the channels it had
created, the registered channels and the issued frames. -/
structure Stop where
  player : PlayerId
  channels : List ChannelId
  registered : ChannelMap
  frames : List Frame

structure ChromecastClient where
  router : Router := {}
  nextChannel : ℕ := 0
  others : List ChannelId := []
  receiverChannel : ReceiverChannel PlayerId
  mediaChannels : Channels := {}
  heartbeatChannel : HeartbeatChannel := {}
  players : PlayerId → Option DefaultMediaPlayer := fun _ => none
  connecting : ℕ := 0
  /-- `AsyncConnect` reported success and `Close` was not called since. -/
  connected : Bool := false
  /-- `Close` returned and `AsyncConnect` was not called since. -/
  closed : Bool := false
  frames : List Frame := []
  late : List Frame := []
  makers : List (ChannelId × PlayerId) := []
  creations : List (Cause × Outcome Unit) := []
  stops : List Stop := []

namespace Requests

variable {ι κ : Type}

/-- `RequestChannel::_request_id` is one counter for all channels. -/
def follow {ι' κ' : Type} (world : Requests ι κ) (ahead : Requests ι' κ') :
    Requests ι κ :=
  { world with requestId := ahead.requestId, drawn := ahead.drawn }

/-- What was sent since. -/
def documentsSince (before after : Requests ι κ) : List Json :=
  documents (after.trace.drop before.trace.length)

/-- The destructor of a request channel: its entries own their timers. -/
def destroyChannel [DecidableEq ι] (channel : ι) (world : Requests ι κ) :
    Requests ι κ :=
  { world with
    timers := (world.requestIdToRequest channel).foldl
      (fun timers entry => cancelTimer entry.2.retryTimer timers)
      world.timers
    requestIdToRequest :=
      Function.update world.requestIdToRequest channel [] }

end Requests

namespace ChromecastClient

def sender0 : StdString := lit "sender-0"

def receiver0 : StdString := lit "receiver-0"

/-- The address of a channel of the client itself. -/
def ownAddress (namespaceId : StdString) : Address :=
  ⟨sender0, receiver0, namespaceId⟩

/-! ## The channels together -/

def issue (frames : List Frame) (client : ChromecastClient) :
    ChromecastClient :=
  { client with frames := client.frames ++ frames }

/-- The receiver channel did something. -/
def setReceiverChannel (receiverChannel : ReceiverChannel PlayerId)
    (client : ChromecastClient) : ChromecastClient :=
  { client with
    receiverChannel
    mediaChannels := { client.mediaChannels with
      requests :=
        client.mediaChannels.requests.follow receiverChannel.requests }
    frames := client.frames ++
      (client.receiverChannel.requests.documentsSince
        receiverChannel.requests).map
          fun document => ⟨.receiverChannel, ownAddress receiverNamespace,
            document⟩ }

/-- The player that created a channel. -/
def issuerOf (channel : ChannelId) (client : ChromecastClient) : Issuer :=
  match client.makers.find? fun made => made.1 = channel with
  | some made => .player made.2
  | none => .other

/-- A media channel did something. -/
def setMediaChannels (channel : ChannelId) (address : Address)
    (mediaChannels : Channels) (client : ChromecastClient) :
    ChromecastClient :=
  { client with
    mediaChannels
    receiverChannel := { client.receiverChannel with
      requests :=
        client.receiverChannel.requests.follow mediaChannels.requests }
    frames := client.frames ++
      (client.mediaChannels.requests.documentsSince
        mediaChannels.requests).map
          fun document => ⟨client.issuerOf channel, address, document⟩ }

/-- The heartbeat channel did something. -/
def setHeartbeatChannel (heartbeatChannel : HeartbeatChannel)
    (client : ChromecastClient) : ChromecastClient :=
  { client with
    heartbeatChannel
    frames := client.frames ++
      (heartbeatChannel.frames.drop
        client.heartbeatChannel.frames.length).map
          fun document => ⟨.heartbeatChannel,
            ownAddress heartbeatNamespace, document⟩ }

/-- A media channel that exists, by its address. -/
def mediaAddress? (channel : ChannelId) (client : ChromecastClient) :
    Option Address :=
  (client.router.live.find? fun object =>
    object.1 = channel ∧ object.2.namespaceId = mediaNamespace).map Prod.snd

/-- A call of a method of a media channel. -/
def onMediaChannel {α : Type} (channel : ChannelId)
    (call : Channels → Outcome α × Channels) (client : ChromecastClient) :
    Option (Outcome α × ChromecastClient) :=
  (client.mediaAddress? channel).map fun address =>
    let called := call client.mediaChannels
    (called.1, client.setMediaChannels channel address called.2)

/-- `ConnectionChannel::Connect` and `Close`. -/
def sendControl (issuer : Issuer) (address : Address) (type : String)
    (sending : Outcome Unit) (client : ChromecastClient) :
    Outcome Unit × ChromecastClient :=
  match sending with
  | .error fault => (.error fault, client)
  | .ok () => (.ok (), client.issue [⟨issuer, address,
      Json.null.set (lit "type") (.ofString (lit type))⟩])

section Players

variable (platform : Platform)

/-! ## Channels that are owned -/

/-- The destructor of a channel. -/
def destroyChannel (channel : ChannelId) (client : ChromecastClient) :
    Option ChromecastClient :=
  (client.router.destroy platform.strings channel).map fun router =>
    { client with
      router
      mediaChannels := { client.mediaChannels with
        requests :=
          client.mediaChannels.requests.destroyChannel (.media channel) } }

/-- The destructor of what a `unique_ptr` holds. -/
def reset (owned : Option ChannelId) (client : ChromecastClient) :
    Option ChromecastClient :=
  match owned with
  | none => some client
  | some channel => client.destroyChannel platform channel

def setPlayer (player : PlayerId) (current : DefaultMediaPlayer)
    (client : ChromecastClient) : ChromecastClient :=
  { client with
    players := Function.update client.players player (some current) }

/-- A player has constructed a channel, and now owns it as `store` says. -/
def own (player : PlayerId) (store : ChannelId → DefaultMediaPlayer)
    (router : Router) (client : ChromecastClient) : ChromecastClient :=
  { client with
    router
    nextChannel := client.nextChannel + 1
    makers := client.makers ++ [(client.nextChannel, player)]
    players := Function.update client.players player
      (some (store client.nextChannel)) }

/-- The assignment of a new channel to a `unique_ptr`: the previous channel
is destroyed after the new one was constructed. -/
def replaceChannel (player : PlayerId) (address : Address)
    (owned : DefaultMediaPlayer → Option ChannelId)
    (store : DefaultMediaPlayer → ChannelId → DefaultMediaPlayer)
    (client : ChromecastClient) :
    Option (Outcome Unit × ChromecastClient) :=
  match client.players player,
      client.router.construct platform.strings client.nextChannel
        address with
  | some _, some (.error fault, router) =>
      some (.error fault,
        { client with router, nextChannel := client.nextChannel + 1 })
  | some current, some (.ok (), router) =>
      ((client.own player (store current) router).reset platform
        (owned current)).map fun client => (.ok (), client)
  | _, _ => none

/-! ## SenderApplication and DefaultMediaPlayer -/

/-- The id every `DefaultMediaPlayer` passes to its base class. -/
def appId : StdString := lit "CC1AD845"

/-- The sender id that `SenderApplication::Initialize` makes up. -/
def hashSenderId : StdString :=
  lit "sender_" ++ lit (toString (platform.hash appId).toNat)

theorem hashSenderId_ne {text : StdString}
    (htext : text.take 7 ≠ lit "sender_") : hashSenderId platform ≠ text := by
  rintro rfl
  exact htext (List.take_left' rfl)

theorem hashSenderId_ne_wildcard : hashSenderId platform ≠ wildcard :=
  hashSenderId_ne platform (by decide)

/-- `SenderApplication::CreateChannels`. -/
def createConnectionChannel (player : PlayerId)
    (senderId receiverId : StdString) (client : ChromecastClient) :
    Option (Outcome Unit × ChromecastClient) :=
  client.replaceChannel platform player
    ⟨senderId, receiverId, connectionNamespace⟩
    DefaultMediaPlayer.connection
    fun current channel => { current with connection := some channel }

/-- The rest of `DefaultMediaPlayer::CreateChannels`. -/
def createMediaChannel (player : PlayerId) (senderId receiverId : StdString)
    (client : ChromecastClient) :
    Option (Outcome Unit × ChromecastClient) :=
  match client.players player with
  | none => none
  | some current =>
      let senderId :=
        if current.senderId = [] then senderId else current.senderId
      (client.setPlayer player { current with senderId }).replaceChannel
        platform player ⟨senderId, receiverId, mediaNamespace⟩
        DefaultMediaPlayer.mediaChannel
        fun current channel => { current with mediaChannel := some channel }

/-- `DefaultMediaPlayer::CreateChannels`. -/
def createChannels (player : PlayerId) (senderId receiverId : StdString)
    (client : ChromecastClient) :
    Option (Outcome Unit × ChromecastClient) :=
  match client.createConnectionChannel platform player senderId
      receiverId with
  | none => none
  | some (.error fault, client) => some (.error fault, client)
  | some (.ok (), client) =>
      client.createMediaChannel platform player senderId receiverId

/-- `SenderApplication::Initialize` once the channels are there. -/
def connectPlayer (player : PlayerId) (info : ApplicationInfo)
    (connecting : Outcome Unit) (client : ChromecastClient) :
    Option (Outcome Unit × ChromecastClient) :=
  (client.players player).map fun current =>
    (client.setPlayer player
      { current with sessionId := info.sessionId }).sendControl
        (.player player)
        ⟨hashSenderId platform, info.transportId, connectionNamespace⟩
        "CONNECT" connecting

/-- `_media_channel->GetStatus` at the end of `Initialize`. -/
def getMediaStatus (player : PlayerId) (sending : Outcome Unit)
    (client : ChromecastClient) :
    Option (Outcome Unit × ChromecastClient) :=
  match (client.players player).bind DefaultMediaPlayer.mediaChannel with
  | none => none
  | some channel =>
      client.onMediaChannel channel fun channels =>
        channels.getStatus platform.rapid channel true sending

/-- `DefaultMediaPlayer::Initialize`. -/
def initializePlayer (player : PlayerId) (cause : Cause)
    (info : ApplicationInfo) (connecting sending : Outcome Unit)
    (client : ChromecastClient) :
    Option (Outcome Unit × ChromecastClient) :=
  match client.createChannels platform player (hashSenderId platform)
      info.transportId with
  | none => none
  | some (created, client) =>
      let client := { client with
        creations := client.creations ++ [(cause, created)] }
      match created with
      | .error fault => some (.error fault, client)
      | .ok () =>
          match client.connectPlayer platform player info connecting with
          | none => none
          | some (.error fault, client) => some (.error fault, client)
          | some (.ok (), client) =>
              client.getMediaStatus platform player sending

/-- `DefaultMediaPlayer::OnStopped`. -/
def onStopped (player : PlayerId) (client : ChromecastClient) :
    Option ChromecastClient :=
  match client.players player with
  | none => none
  | some current =>
      ((client.setPlayer player { current with mediaChannel := none }).reset
        platform current.mediaChannel).map fun client =>
          { client with
            stops := client.stops ++ [{
              player
              channels := (client.makers.filter
                fun made => made.2 = player).map Prod.fst
              registered := client.router.channelAddressToChannel
              frames := client.frames }] }

/-- The destructor of a player: the members of the derived class go first. -/
def destroyPlayer (player : PlayerId) (current : DefaultMediaPlayer)
    (client : ChromecastClient) : Option ChromecastClient :=
  let client := client.setPlayer player
    { current with connection := none, mediaChannel := none }
  (client.reset platform current.mediaChannel).bind fun client =>
    client.reset platform current.connection

/-- A reference to the player was dropped, and maybe the last one. -/
def dropped (player : PlayerId) (client : ChromecastClient) :
    Option ChromecastClient :=
  match client.players player with
  | none => none
  | some current =>
      if current.held ∨ client.receiverChannel.application = some player then
        some client
      else client.destroyPlayer platform player current

/-! ## Operations of players -/

inductive Operation where
  | load (media : Media) (autoplay : Bool) (unset : Media.StreamType)
  | play
  | pause
  | stop
  | seek (minuteOffset : UInt32)

def Operation.onChannel : Operation → Channels.Operation
  | .load media autoplay unset => .load media autoplay unset
  | .play => .play
  | .pause => .pause
  | .stop => .stop
  | .seek minuteOffset => .seek minuteOffset

/-- `Load`, `Play`, `Pause`, `Stop` and `Seek` of a player, each of which is
`EnsureChannelExists` and the operation of its channel. -/
def operate (player : PlayerId) (operation : Operation) (hasCallback : Bool)
    (sending : Outcome Unit) (client : ChromecastClient) :
    Option (Outcome Unit × ChromecastClient) :=
  match client.players player with
  | none => none
  | some current =>
      match current.mediaChannel with
      | none =>
          some (raise (.runtimeError (lit "missing media channel")), client)
      | some channel =>
          client.onMediaChannel channel fun channels =>
            channels.operate platform.rapid channel hasCallback sending
              operation.onChannel

end Players

end ChromecastClient

end LibChromecast
