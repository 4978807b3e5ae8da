import LibChromecast.DefaultMediaPlayer

/-!
# The client

`ChromecastClient` with its connection, its three channels and the players
that are launched and joined.  Other code may own channels of the same
connection; what these send is not followed.

An `Initialize` that the receiver channel calls is its last call, so it runs
after the receiver channel is done with the message.  What callbacks do comes
as the next events.
-/

namespace LibChromecast

open Foundation Foundation.Transition

namespace ChromecastClient

section Client

variable (platform : Platform)

/-! ## Construction -/

/-- The constructor of a channel of the client itself; if it raises there is
no client. -/
def registerOwn (namespaceId : StdString) (client : ChromecastClient) :
    Option ChromecastClient :=
  match client.router.construct platform.strings client.nextChannel
      (ownAddress namespaceId) with
  | some (.ok (), router) =>
      some { client with router, nextChannel := client.nextChannel + 1 }
  | _ => none

/-- The members are constructed in the order of their declarations. -/
def construct (memory : Memory) : Option ChromecastClient :=
  (((registerOwn platform receiverNamespace
      { receiverChannel := .construct memory }).bind
    (registerOwn platform heartbeatNamespace)).bind
    (registerOwn platform connectionNamespace))

/-- Other code makes a channel. -/
def register (address : Address) (client : ChromecastClient) :
    Option (Outcome Unit × ChromecastClient) :=
  (client.router.construct platform.strings client.nextChannel address).map
    fun made => (made.1, { client with
      router := made.2
      nextChannel := client.nextChannel + 1
      others := client.nextChannel :: client.others })

/-! ## AsyncConnect and Close -/

/-- An address that is none is not reported. -/
def asyncConnect (validAddress : Bool) (client : ChromecastClient) :
    ChromecastClient :=
  { client with
    connecting := if validAddress then client.connecting + 1
      else client.connecting
    closed := false }

/-- The callback which `AsyncConnect` hands to the connection. -/
def onConnected (error : Bool) (sending : Outcome Unit)
    (client : ChromecastClient) : Outcome Unit × ChromecastClient :=
  if error then (.ok (), client)
  else
    match client.sendControl .connectionChannel
        (ownAddress connectionNamespace) "CONNECT" sending with
    | (.error fault, client) => (.error fault, client)
    | (.ok (), client) => (.ok (), { client with
        heartbeatChannel := { client.heartbeatChannel.start.hear with
          connectionOpen := true }
        connected := true })

def close (sending closing : Outcome Unit) (client : ChromecastClient) :
    Outcome Unit × ChromecastClient :=
  match { client with connected := false }.sendControl .connectionChannel
      (ownAddress connectionNamespace) "CLOSE" sending with
  | (.error fault, client) => (.error fault, client)
  | (.ok (), client) =>
      match closing with
      | .error fault => (.error fault, client)
      | .ok () => (.ok (), { client with
          heartbeatChannel := { client.heartbeatChannel with
            connectionOpen := false }
          closed := true })

/-! ## Launch and Join -/

/-- `GetID` of a player. -/
def getId (_player : PlayerId) : StdString := appId

def isHeld (client : ChromecastClient) (player : PlayerId) : Bool :=
  (client.players player).any DefaultMediaPlayer.held

/-- Who passes a `shared_ptr` holds it. -/
def passes (player : Option PlayerId) (client : ChromecastClient) : Bool :=
  player.all client.isHeld

/-- `Launch`: the previous player is stopped before the new one takes its
place, and then dropped. -/
def launch (player : Option PlayerId) (hasCallback : Bool)
    (sending : Outcome Unit) (client : ChromecastClient) :
    Option (Outcome Unit × ChromecastClient) :=
  let called := client.receiverChannel.launch platform.rapid getId sending
    player hasCallback
  let calling := client.setReceiverChannel called.2
  match player, client.receiverChannel.application with
  | some _, some previous =>
      match calling.onStopped platform previous with
      | none => none
      | some client =>
          match client.receiverChannel.onStoppedReturned platform.rapid getId
              sending (.ok ()) with
          | none => none
          | some (outcome, receiverChannel) =>
              ((client.setReceiverChannel receiverChannel).dropped platform
                previous).map fun client => (outcome, client)
  | _, _ => some (called.1, calling)

def join (player : Option PlayerId) (hasCallback : Bool)
    (sending : Outcome Unit) (client : ChromecastClient) :
    Outcome Unit × ChromecastClient :=
  let called := client.receiverChannel.join platform.rapid sending player
    hasCallback
  (called.1, client.setReceiverChannel called.2)

/-! ## Messages -/

def initializing? : List (ReceiverChannel.Observed PlayerId) →
    Option (Cause × PlayerId × ApplicationInfo)
  | [.initializing cause player info] => some (cause, player, info)
  | _ => none

/-- The `Initialize` call with which the receiver channel ended. -/
def initialization? (before after : ReceiverChannel PlayerId) :
    Option (Cause × PlayerId × ApplicationInfo) :=
  initializing? (after.observed.drop before.observed.length)

/-- Somebody holds a reference to the player. -/
def isAlive (player : PlayerId) (client : ChromecastClient) : Bool :=
  client.receiverChannel.application = some player ∨ client.isHeld player

/-- `OnMessage` of the receiver channel, with the `Initialize` it calls. -/
def receiverMessage (payload : StdString)
    (ending connecting sending : Outcome Unit) (client : ChromecastClient) :
    Option (Outcome Bool × ChromecastClient) :=
  let handled := client.receiverChannel.onMessage platform.rapid getId ending
    payload
  let next := client.setReceiverChannel handled.2
  match initialization? client.receiverChannel handled.2 with
  | none => some (handled.1, next)
  | some (cause, player, info) =>
      if client.isAlive player then
        (next.initializePlayer platform player cause info connecting
          sending).map fun result =>
            (result.1.map fun _ => true, result.2)
      else none

/-- `OnMessage` of a media channel. -/
def mediaMessage (channel : ChannelId) (payload : StdString)
    (ending : Outcome Unit) (client : ChromecastClient) :
    Option (Outcome Bool × ChromecastClient) :=
  client.onMediaChannel channel fun channels =>
    channels.onMessage platform.rapid (.media channel) payload ending

/-! ## Runs -/

inductive Event where
  | makePlayer (player : PlayerId) (senderId : StdString)
  /-- The last reference besides that of the receiver channel is dropped. -/
  | release (player : PlayerId)
  | register (address : Address)
  | unregister (channel : ChannelId)
  | asyncConnect (validAddress : Bool)
  | connectCompleted (error : Bool) (sending : Outcome Unit)
  | close (sending closing : Outcome Unit)
  | launch (player : Option PlayerId) (hasCallback : Bool)
      (sending : Outcome Unit)
  | join (player : Option PlayerId) (hasCallback : Bool)
      (sending : Outcome Unit)
  | getAppAvailabillity (appIds : List StdString) (hasCallback : Bool)
      (sending : Outcome Unit)
  | getStatus (hasCallback : Bool) (sending : Outcome Unit)
  | mute (mute hasCallback : Bool) (sending : Outcome Unit)
  | setVolume (volumeLevel : Double) (hasCallback : Bool)
      (sending : Outcome Unit)
  | operate (player : PlayerId) (operation : Operation) (hasCallback : Bool)
      (sending : Outcome Unit)
  | receiverMessage (payload : StdString)
      (ending connecting sending : Outcome Unit)
  | mediaMessage (channel : ChannelId) (payload : StdString)
      (ending : Outcome Unit)
  | heartbeatMessage (payload : StdString) (sending : Outcome Unit)
  | elapse (duration : ℕ)
  | expireSend (wait : ℕ)
  | runSend (wait : ℕ) (sending : Outcome Unit)
  | expireReceive (wait : ℕ)
  | runReceive (wait : ℕ) (closing : Outcome Unit)
  | expireReceiver (timer : ℕ)
  | fireReceiver (timer : ℕ) (sending : Outcome Unit)
  | expireMedia (timer : ℕ)
  | fireMedia (timer : ℕ) (sending : Outcome Unit)

def heartbeatStep (event : HeartbeatChannel.Event)
    (client : ChromecastClient) : Option ChromecastClient :=
  (client.heartbeatChannel.step platform.rapid platform.aborted event).map
    client.setHeartbeatChannel

def receiverStep (event : ReceiverChannel.Event PlayerId)
    (client : ChromecastClient) : Option ChromecastClient :=
  (client.receiverChannel.step platform.rapid getId event).map
    client.setReceiverChannel

/-- The channel whose request waits for a timer. -/
def timerChannel (timer : ℕ) (client : ChromecastClient) :
    Option ChannelId :=
  match client.mediaChannels.requests.timers[timer]? with
  | some ⟨.media channel, _, _, _, _⟩ => some channel
  | _ => none

/-- The retry handler of a media channel. -/
def fireMedia (timer : ℕ) (sending : Outcome Unit)
    (client : ChromecastClient) : Option ChromecastClient :=
  match client.timerChannel timer,
      client.mediaChannels.requests.fire platform.rapid timer sending with
  | some channel, some requests =>
      (client.onMediaChannel channel fun channels =>
        (pure (), { channels with requests })).map Prod.snd
  | _, _ => none

/-- A timer handler ran. -/
def handled (before after : ChromecastClient) : ChromecastClient :=
  { after with
    late := after.late ++
      if before.closed then after.frames.drop before.frames.length else [] }

/-- The state after a call, unless it violated a precondition. -/
def returned {α : Type} :
    Outcome α × ChromecastClient → Option ChromecastClient
  | (.error .violated, _) => none
  | (_, client) => some client

def step (client : ChromecastClient) : Event → Option ChromecastClient
  | .makePlayer player senderId =>
      match client.players player with
      | none => some (client.setPlayer player { senderId })
      | some _ => none
  | .release player =>
      match client.players player with
      | none => none
      | some current =>
          (client.setPlayer player { current with held := false }).dropped
            platform player
  | .register address =>
      (client.register platform address).map Prod.snd
  | .unregister channel =>
      if channel ∈ client.others then client.destroyChannel platform channel
      else none
  | .asyncConnect validAddress => some (client.asyncConnect validAddress)
  | .connectCompleted error sending =>
      if 0 < client.connecting then
        some ({ client with
          connecting := client.connecting - 1 }.onConnected error sending).2
      else none
  | .close sending closing => some (client.close sending closing).2
  | .launch player hasCallback sending =>
      if client.passes player then
        (client.launch platform player hasCallback sending).map Prod.snd
      else none
  | .join player hasCallback sending =>
      if client.passes player then
        some (client.join platform player hasCallback sending).2
      else none
  | .getAppAvailabillity appIds hasCallback sending =>
      client.receiverStep platform
        (.getAppAvailabillity appIds hasCallback sending)
  | .getStatus hasCallback sending =>
      client.receiverStep platform (.getStatus hasCallback sending)
  | .mute mute hasCallback sending =>
      client.receiverStep platform (.mute mute hasCallback sending)
  | .setVolume volumeLevel hasCallback sending =>
      client.receiverStep platform
        (.setVolume volumeLevel hasCallback sending)
  | .operate player operation hasCallback sending =>
      (client.operate platform player operation hasCallback sending).bind
        returned
  | .receiverMessage payload ending connecting sending =>
      (client.receiverMessage platform payload ending connecting
        sending).bind returned
  | .mediaMessage channel payload ending =>
      (client.mediaMessage platform channel payload ending).bind returned
  | .heartbeatMessage payload sending =>
      client.heartbeatStep platform (.message payload sending)
  | .elapse duration => client.heartbeatStep platform (.elapse duration)
  | .expireSend wait => client.heartbeatStep platform (.expireSend wait)
  | .runSend wait sending =>
      (client.heartbeatStep platform (.runSend wait sending)).map
        client.handled
  | .expireReceive wait => client.heartbeatStep platform (.expireReceive wait)
  | .runReceive wait closing =>
      (client.heartbeatStep platform (.runReceive wait closing)).map
        client.handled
  | .expireReceiver timer => client.receiverStep platform (.expire timer)
  | .fireReceiver timer sending =>
      (client.receiverStep platform (.fire timer sending)).map client.handled
  | .expireMedia timer =>
      (client.mediaChannels.requests.expire timer).map fun requests =>
        { client with
          mediaChannels := { client.mediaChannels with requests } }
  | .fireMedia timer sending =>
      (client.fireMedia platform timer sending).map client.handled

end Client

end ChromecastClient

end LibChromecast
