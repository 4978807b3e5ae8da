import LibChromecast.ClientParts
import LibChromecast.ForeignBroadcasts
import LibChromecast.Links

/-!
# A client on its connection

`ChromecastClient` and the `ChromecastConnection` it owns as one machine, from
the moment at which the handshake has succeeded.  What the client sends goes
through `AsyncWrite`, and what the connection reads is handed to the channels
of the client: a message is no event of its own any more.

A broadcast goes over a list of channels which is fixed when it begins, and
what the callbacks of the user call in turn comes as the next events, after
the whole broadcast.  A message itself changes the channel map only through
the receiver channel, which constructs and destroys channels of other
namespaces than its own, so the loop over the live map would pass them by.

How the user's code that is called ends, and how hooks of the user end, is in
the event.
-/

namespace LibChromecast

open Foundation

/-! ## Sending -/

/-- `ChromecastChannel::Send` of a text. -/
def textMessage (address : Address) (text : StdString) : CastMessage where
  address := address
  payloadType := .string
  payloadUtf8 := text

/-- The message which carries a frame. -/
def Frame.message (rapid : RapidJson) (frame : Frame) : CastMessage :=
  textMessage frame.address (rapid.toString frame.document)

namespace Connection

/-- Calls of `AsyncWrite`. -/
def writeAll (codec : ProtobufCodec) (messages : List CastMessage)
    (connection : Connection) : Connection :=
  { connection with
    outgoing := messages.foldl
      (fun outgoing message => (outgoing.asyncWrite codec message).2)
      connection.outgoing }

end Connection

/-! ## Receiving -/

/-- What the environment decides while a channel handles a message: how the
user's code that is called ends, how the frames that are sent end, and how a
channel of other code ends. -/
structure Reply where
  ending : Outcome Unit := .ok ()
  connecting : Outcome Unit := .ok ()
  sending : Outcome Unit := .ok ()
  other : Outcome Unit := .ok ()

namespace ChromecastClient

section Receiving

variable (platform : Platform)

/-- `OnMessage` of the heartbeat channel. -/
def heartbeatMessage (payload : StdString) (sending : Outcome Unit)
    (client : ChromecastClient) : Outcome Bool × ChromecastClient :=
  let handled := client.heartbeatChannel.onMessage platform.rapid payload
    sending
  (handled.1, client.setHeartbeatChannel handled.2.hear)

/-- The overriding `OnMessage` of a channel of the library, by its class: each
class has a namespace of its own, and a connection channel overrides none. -/
def onText (channel : ChannelId) (payload : StdString) (reply : Reply)
    (client : ChromecastClient) : Option (Outcome Bool × ChromecastClient) :=
  match client.router.live.find? fun object => object.1 = channel with
  | none => none
  | some (_, address) =>
      if address.namespaceId = receiverNamespace then
        client.receiverMessage platform payload reply.ending
          reply.connecting reply.sending
      else if address.namespaceId = heartbeatNamespace then
        some (client.heartbeatMessage platform payload reply.sending)
      else if address.namespaceId = mediaNamespace then
        client.mediaMessage platform channel payload reply.ending
      else some (.ok false, client)

/-- `ChromecastChannel::OnMessage`.  There is no state after a violated
precondition. -/
def onMessage (channel : ChannelId) (message : CastMessage) (reply : Reply)
    (client : ChromecastClient) : Option (Outcome Unit × ChromecastClient) :=
  if channel ∈ client.others then
    if reply.other = .error .violated then none
    else some (reply.other, client)
  else
    let handled : Option (Outcome Bool × ChromecastClient) :=
      match message.payloadType with
      | .binary => some (.ok false, client)
      | .string => client.onText platform channel message.payloadUtf8 reply
    match handled with
    | none => none
    | some (.error .violated, _) => none
    | some (.error fault, client) => some (.error fault, client)
    | some (.ok true, client) => some (.ok (), client)
    | some (.ok false, client) => some (onUnhandledMessage message, client)

/-- What happens to the client: something the environment does, or the
`OnMessage` of a channel. -/
inductive Move where
  | call (event : Event)
  | hear (channel : ChannelId) (message : CastMessage) (reply : Reply)

def perform (client : ChromecastClient) : Move → Option ChromecastClient
  | .call event => client.step platform event
  | .hear channel message reply =>
      (client.onMessage platform channel message reply).map Prod.snd

/-- The calls of `OnMessage` of one message, in their order.  They end as the
connection was told. -/
def hearAll (message : CastMessage) (handler : ChannelId → Outcome Unit)
    (replies : ChannelId → Reply) :
    List ChannelId → ChromecastClient → Option ChromecastClient
  | [], client => some client
  | channel :: rest, client =>
      match client.onMessage platform channel message (replies channel) with
      | none => none
      | some (outcome, next) =>
          if outcome = handler channel then
            hearAll message handler replies rest next
          else none

end Receiving

end ChromecastClient

/-! ## The machine -/

structure Endpoint where
  client : ChromecastClient
  connection : Connection

namespace Endpoint

inductive Event where
  /-- The user, a timer or the completion of `AsyncConnect`. -/
  | call (event : ChromecastClient.Event)
  /-- The socket takes bytes of an outstanding write. -/
  | taken (index count : ℕ)
  | read (index : ℕ) (completion : ReadCompletion)
      (replies : ChannelId → Reply)

/-- Messages come from the connection, which is not connected again. -/
def IsLocal : ChromecastClient.Event → Prop
  | .receiverMessage .. | .mediaMessage .. | .heartbeatMessage ..
  | .asyncConnect _ => False
  | _ => True

instance : (event : ChromecastClient.Event) → Decidable (IsLocal event)
  | .receiverMessage .. | .mediaMessage .. | .heartbeatMessage ..
  | .asyncConnect _ => .isFalse id
  | .makePlayer .. | .release _ | .register _ | .unregister _
  | .connectCompleted .. | .close .. | .launch .. | .join ..
  | .getAppAvailabillity .. | .getStatus .. | .mute .. | .setVolume ..
  | .operate .. | .elapse _ | .expireSend _ | .runSend ..
  | .expireReceive _ | .runReceive .. | .expireReceiver _
  | .fireReceiver .. | .expireMedia _ | .fireMedia .. => .isTrue trivial

/-- The messages of the frames issued since. -/
def sentSince (rapid : RapidJson) (before after : ChromecastClient) :
    List CastMessage :=
  (after.frames.drop before.frames.length).map (Frame.message rapid)

section Step

variable (codec : ProtobufCodec) (platform : Platform)

/-- The connection follows the client: the channels that came and went, and
the frames it issued, none of which `AsyncWrite` refused. -/
def follow (before after : ChromecastClient) (connection : Connection) :
    Option Endpoint :=
  let messages := sentSince platform.rapid before after
  if ∀ message ∈ messages, (message.save codec).isOk then
    some ⟨after, { connection with
      router := after.router }.writeAll codec messages⟩
  else none

/-- The channels which a dispatched message is handed to. -/
def receivers (completion : ReadCompletion) (message : CastMessage)
    (connection : Connection) : List ChannelId :=
  (deliver platform.strings completion.handler message
    connection.router.channelAddressToChannel).receivers

/-- The client handles the messages which a completed read has dispatched. -/
def dispatch (completion : ReadCompletion) (replies : ChannelId → Reply)
    (connection : Connection) :
    List CastMessage → ChromecastClient → Option ChromecastClient
  | [], client => some client
  | message :: rest, client =>
      (client.hearAll platform message completion.handler replies
        (receivers platform completion message connection)).bind
          (dispatch completion replies connection rest)

def step (endpoint : Endpoint) : Event → Option Endpoint
  | .call event =>
      if IsLocal event then
        (endpoint.client.step platform event).bind fun next =>
          follow codec platform endpoint.client next endpoint.connection
      else none
  | .taken index count =>
      (endpoint.connection.outgoing.writeSome index count).map
        fun outgoing => { endpoint with
          connection := { endpoint.connection with outgoing } }
  | .read index completion replies =>
      match endpoint.connection.readCompleted codec platform.strings index
          completion with
      | none => none
      | some read =>
          (dispatch platform completion replies endpoint.connection
            (endpoint.connection.dispatchedSince read)
            endpoint.client).bind fun next =>
              follow codec platform endpoint.client next read

/-- A client which was made and asked to connect, when the handshake has
succeeded. -/
def ready (memory : Memory) (garbage : Fin 4 → UInt8) : Option Endpoint :=
  (ChromecastClient.construct platform memory).map fun client =>
    ⟨client.asyncConnect true,
      { Connection.ready garbage with router := client.router }⟩

end Step

/-! ## What the client does in it -/

/-- The moves of a step. -/
def moves (codec : ProtobufCodec) (platform : Platform)
    (endpoint : Endpoint) : Event → List ChromecastClient.Move
  | .call event => [.call event]
  | .taken _ _ => []
  | .read index completion replies =>
      match endpoint.connection.readCompleted codec platform.strings index
          completion with
      | none => []
      | some read =>
          (endpoint.connection.dispatchedSince read).flatMap fun message =>
            (receivers platform completion message
              endpoint.connection).map fun channel =>
                .hear channel message (replies channel)

end Endpoint

end LibChromecast
