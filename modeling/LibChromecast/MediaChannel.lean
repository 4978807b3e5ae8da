import LibChromecast.MediaMessages
import LibChromecast.ReceiverMessages
import LibChromecast.RequestCorrelation

/-!
# Media channels

The request channels of one process, by class: `MediaChannel` with all its
operations, and `ReceiverChannel` as far as requests and answers go.  What a
receiver channel requests is in the event.

How the sending of a frame ends, and how the user's code that `OnMessage`
calls ends (the callback of an operation, an overridden `OnReceiverStatus`),
is in the event too.  What that code requests comes as the next events of the
run.

`received`, `handed` and `sessions` are not in the source: the documents that
came in on each channel, the responses handed to callbacks, and the session
requests with what their channel had received.
-/

namespace LibChromecast

open Foundation Foundation.Transition

inductive ChannelRef where
  | receiver (index : ℕ)
  | media (index : ℕ)
deriving DecidableEq

def ChannelRef.isMedia : ChannelRef → Bool
  | .receiver _ => false
  | .media _ => true

/-- The callback of an entry: the lambda of `Load`, the one of
`SessionRequest`, or the user's own, handed on by `GetStatus`.
`hasCallback` tells whether the user's callback is set. -/
inductive ResponseCallback where
  | load (hasCallback : Bool)
  | session (hasCallback : Bool)
  | status (hasCallback : Bool)
  | receiver
deriving DecidableEq

/-- A session request: the document of its frame, and what the channel had
received by then. -/
structure SessionRequest where
  channel : ℕ
  document : Json
  received : List Json

structure Channels where
  requests : Requests ChannelRef ResponseCallback := {}
  lastStatus : ChannelRef → MediaStatus := fun _ => {}
  received : ChannelRef → List Json := fun _ => []
  handed : List MediaResponse := []
  sessions : List SessionRequest := []

namespace Channels

def setLastStatus (channel : ChannelRef) (status : MediaStatus)
    (channels : Channels) : Channels :=
  { channels with
    lastStatus := Function.update channels.lastStatus channel status }

@[simp] theorem setLastStatus_lastStatus (channel : ChannelRef)
    (status : MediaStatus) (channels : Channels) :
    (channels.setLastStatus channel status).lastStatus =
      Function.update channels.lastStatus channel status := rfl

@[simp] theorem setLastStatus_requests (channel : ChannelRef)
    (status : MediaStatus) (channels : Channels) :
    (channels.setLastStatus channel status).requests =
      channels.requests := rfl

def hand (response : MediaResponse) (channels : Channels) : Channels :=
  { channels with handed := channels.handed ++ [response] }

def receive (channel : ChannelRef) (document : Json)
    (channels : Channels) : Channels :=
  { channels with
    received := Function.update channels.received channel
      (channels.received channel ++ [document]) }

@[simp] theorem receive_received (channel : ChannelRef) (document : Json)
    (channels : Channels) :
    (channels.receive channel document).received =
      Function.update channels.received channel
        (channels.received channel ++ [document]) := rfl

/-! ## Operations -/

section Operations

variable (rapid : RapidJson) (channel : ℕ) (hasCallback : Bool)
  (sending : Outcome Unit)

/-- `JsonMessage message; message["type"] = text`. -/
def typed (text : String) : Json :=
  Json.null.set (lit "type") (.ofString (lit text))

def request (message : Json) (callback : ResponseCallback)
    (channels : Channels) : Outcome Unit × Channels :=
  let requested := channels.requests.userRequest rapid (.media channel)
    message callback sending
  (requested.1, { channels with requests := requested.2 })

def sessionRequest (message : Json) (channels : Channels) :
    Outcome Unit × Channels :=
  let message := message.set (lit "mediaSessionId")
    (.ofUint32 (channels.lastStatus (.media channel)).sessionId)
  let document := message.set (lit "requestId")
    (.uint (channels.requests.requestId + 1))
  let session : SessionRequest :=
    ⟨channel, document, channels.received (.media channel)⟩
  let channels := { channels with
    sessions := channels.sessions ++ [session] }
  channels.request rapid channel sending message (.session hasCallback)

/-- `autoplay` is not used. -/
def load (media : Media) (_autoplay : Bool) (unset : Media.StreamType)
    (channels : Channels) : Outcome Unit × Channels :=
  match media.toMessage unset (typed "LOAD") with
  | .error fault => (.error fault, channels)
  | .ok message =>
      channels.request rapid channel sending message (.load hasCallback)

def play (channels : Channels) : Outcome Unit × Channels :=
  channels.sessionRequest rapid channel hasCallback sending (typed "PLAY")

def pause (channels : Channels) : Outcome Unit × Channels :=
  channels.sessionRequest rapid channel hasCallback sending (typed "PAUSE")

def stop (channels : Channels) : Outcome Unit × Channels :=
  channels.sessionRequest rapid channel hasCallback sending (typed "STOP")

def seek (minuteOffset : UInt32) (channels : Channels) :
    Outcome Unit × Channels :=
  channels.sessionRequest rapid channel hasCallback sending
    ((typed "SEEK").set (lit "currentTime") (.ofUint32 minuteOffset))

def setTrackInfo (trackIds : List StdString) (channels : Channels) :
    Outcome Unit × Channels :=
  channels.sessionRequest rapid channel hasCallback sending
    ((typed "EDIT_TRACKS_INFO").set (lit "activeTrackIds")
      (.ofStrings trackIds))

def getStatus (channels : Channels) : Outcome Unit × Channels :=
  channels.request rapid channel sending (typed "GET_STATUS")
    (.status hasCallback)

inductive Operation where
  | load (media : Media) (autoplay : Bool) (unset : Media.StreamType)
  | play
  | pause
  | stop
  | seek (minuteOffset : UInt32)
  | setTrackInfo (trackIds : List StdString)
  | getStatus

def operate (channels : Channels) : Operation → Outcome Unit × Channels
  | .load media autoplay unset =>
      channels.load rapid channel hasCallback sending media autoplay unset
  | .play => channels.play rapid channel hasCallback sending
  | .pause => channels.pause rapid channel hasCallback sending
  | .stop => channels.stop rapid channel hasCallback sending
  | .seek minuteOffset =>
      channels.seek rapid channel hasCallback sending minuteOffset
  | .setTrackInfo trackIds =>
      channels.setTrackInfo rapid channel hasCallback sending trackIds
  | .getStatus => channels.getStatus rapid channel hasCallback sending

end Operations

/-! ## Incoming messages -/

/-- Hands the decoded response to a lambda, which does `use` and then calls
the user's callback if it is set. -/
def handResponse (message : Json) (hasCallback : Bool)
    (ending : Outcome Unit) (use : MediaResponse → Channels → Channels)
    (channels : Channels) : Outcome Unit × Channels :=
  match MediaResponse.fromMessage message with
  | .error fault => (.error fault, channels)
  | .ok result =>
      (if hasCallback then ending else pure (),
        use result (channels.hand result))

/-- `_callback(message)`. -/
def invoke (channel : ChannelRef) (message : Json) (ending : Outcome Unit)
    (channels : Channels) : ResponseCallback → Outcome Unit × Channels
  | .load hasCallback =>
      channels.handResponse message hasCallback ending fun result channels =>
        if result.succeeded then
          channels.setLastStatus channel result.status
        else channels
  | .session hasCallback =>
      channels.handResponse message hasCallback ending
        fun _ channels => channels
  | .status hasCallback =>
      if hasCallback then
        channels.handResponse message hasCallback ending
          fun _ channels => channels
      else (pure (), channels)
  | .receiver => (ending, channels)

/-- `RequestChannel::OnResponse` with the callback it invokes. -/
def onResponse (channel : ChannelRef) (response : Response)
    (ending : Outcome Unit) (channels : Channels) :
    Outcome Bool × Channels :=
  let table := channels.requests.requestIdToRequest channel
  match RequestMap.find? response.requestId table with
  | none => (.ok false, channels)
  | some (_, request) =>
      let completed := { channels with
        requests :=
          (channels.requests.onResponse channel response.requestId).2 }
      let invoked :=
        completed.invoke channel response.message ending request.callback
      (invoked.1.map fun _ => true, invoked.2)

/-- The status that `MediaChannel::OnResponse` decodes before it calls the
base one. -/
def mediaStatus (message : Json) : Outcome (Option MediaStatus) := do
  let type ← (← message.unchecked (lit "type")).getString
  if type = lit "MEDIA_STATUS" then
    some <$> MediaStatus.fromMessage message
  else pure none

/-- `MediaChannel::OnResponse`. -/
def mediaOnResponse (channel : ChannelRef) (response : Response)
    (ending : Outcome Unit) (channels : Channels) :
    Outcome Bool × Channels :=
  match mediaStatus response.message with
  | .error fault => (.error fault, channels)
  | .ok status? =>
      let channels :=
        match status? with
        | none => channels
        | some status => channels.setLastStatus channel status
      if response.requestId = 0 then (.ok true, channels)
      else channels.onResponse channel response ending

/-- `ReceiverChannel::OnResponse`. -/
def receiverOnResponse (rapid : RapidJson) (channel : ChannelRef)
    (response : Response) (ending : Outcome Unit) (channels : Channels) :
    Outcome Bool × Channels :=
  if response.requestId ≠ 0 then
    channels.onResponse channel response ending
  else
    match ReceiverStatus.fromMessage rapid response.message with
    | .error fault => (.error fault, channels)
    | .ok _ => (ending.map fun _ => true, channels)

/-- `RequestChannel::OnMessage`. -/
def onMessage (rapid : RapidJson) (channel : ChannelRef)
    (payload : StdString) (ending : Outcome Unit) (channels : Channels) :
    Outcome Bool × Channels :=
  let channels := channels.receive channel (rapid.parseMessage payload)
  match incoming rapid payload with
  | .error fault => (.error fault, channels)
  | .ok none => (.ok false, channels)
  | .ok (some response) =>
      match channel with
      | .receiver _ =>
          channels.receiverOnResponse rapid channel response ending
      | .media _ => channels.mediaOnResponse channel response ending

/-! ## Runs -/

inductive Event where
  | operation (channel : ℕ) (operation : Operation) (hasCallback : Bool)
      (sending : Outcome Unit)
  | receiverRequest (channel : ℕ) (message : Json) (sending : Outcome Unit)
  | expire (timer : ℕ)
  | fire (timer : ℕ) (sending : Outcome Unit)
  | message (channel : ChannelRef) (payload : StdString)
      (ending : Outcome Unit)

/-- The state after a call, unless it violated a precondition. -/
def unlessViolated {α : Type} : Outcome α × Channels → Option Channels
  | (.error .violated, _) => none
  | (_, channels) => some channels

def step (rapid : RapidJson) (channels : Channels) :
    Event → Option Channels
  | .operation channel operation hasCallback sending =>
      unlessViolated
        (channels.operate rapid channel hasCallback sending operation)
  | .receiverRequest channel message sending =>
      some { channels with
        requests := (channels.requests.userRequest rapid (.receiver channel)
          message .receiver sending).2 }
  | .expire timer =>
      (channels.requests.expire timer).map fun requests =>
        { channels with requests }
  | .fire timer sending =>
      (channels.requests.fire rapid timer sending).map fun requests =>
        { channels with requests }
  | .message channel payload ending =>
      unlessViolated (channels.onMessage rapid channel payload ending)

end Channels

end LibChromecast
