import LibChromecast.Foundation.OrderedMap
import LibChromecast.Foundation.Transition
import LibChromecast.JsonMessage

/-!
# Request channels

The requests of one process: the counter `RequestChannel::_request_id`, which
all channels share, the table `_request_id_to_request` of each channel, and
the retry timers.  A channel object is named by a value of `ι`, a response
callback by a value of `κ`.

A deadline timer is waiting until it expires; its handler is then queued, and
`cancel` can no longer revoke it.  A callback runs as the last thing
`OnResponse` does, after its entry has left the table, so the calls of
`Request` it makes are the next events of the run.  What an overriding
`OnResponse` does before it calls the base one, and how the sending of a frame
ends, is in the event.

`requested`, `drawn`, `trace` and the `call` fields are not in the source: the
messages handed to the calls of `Request` by users, how many ids were drawn,
what could be observed, and the user's call a timer, an entry or a frame goes
back to.
-/

namespace LibChromecast

open Foundation

inductive TimerState where
  | waiting
  | queued
  | cancelled
  | fired
deriving DecidableEq

def TimerState.cancel : TimerState → TimerState
  | .waiting => .cancelled
  | state => state

/-- A `_retry_timer` with what its handler captures. -/
structure RetryTimer (ι κ : Type) where
  channel : ι
  message : Json
  callback : κ
  call : ℕ
  state : TimerState

/-- `ChannelRequest`; `retryTimer` is a position in `Requests.timers`. -/
structure ChannelRequest (κ : Type) where
  retryTimer : ℕ
  callback : κ
  call : ℕ

abbrev RequestMap (κ : Type) := List (UInt64 × ChannelRequest κ)

namespace RequestMap

variable {κ : Type}

def less (a b : UInt64) : Bool := decide (a < b)

def find? (requestId : UInt64) (map : RequestMap κ) :
    Option (UInt64 × ChannelRequest κ) :=
  OrderedMap.find? less requestId map

end RequestMap

inductive Observation (ι κ : Type) where
  | frame (channel : ι) (call : ℕ) (document : Json)
  | invoked (channel : ι) (call : ℕ) (requestId : UInt64) (callback : κ)

structure Requests (ι κ : Type) where
  requestId : UInt64 := 0
  requestIdToRequest : ι → RequestMap κ := fun _ => []
  timers : List (RetryTimer ι κ) := []
  requested : List Json := []
  drawn : ℕ := 0
  trace : List (Observation ι κ) := []

/-! ## Incoming messages -/

structure Response where
  requestId : UInt64
  message : Json

/-- The reads inside the `try` block of `RequestChannel::OnMessage`. -/
def readHeader (jsonMessage : Json) :
    Outcome (UInt64 × StdString × Json) := do
  let jsonMessage := jsonMessage.touch (lit "requestId")
  let requestId ← (jsonMessage.get (lit "requestId")).getUint64
  let jsonMessage := jsonMessage.touch (lit "type")
  let type ← (jsonMessage.get (lit "type")).getString
  pure (requestId, type, jsonMessage)

/-- `RequestChannel::OnMessage` up to the call of `OnResponse`.  The text of
the error is built whether or not it is needed. -/
def incoming (rapid : RapidJson) (payload : StdString) :
    Outcome (Option Response) :=
  match readHeader (rapid.parseMessage payload) with
  | .error (.raised (.runtimeError _)) => pure none
  | .error fault => .error fault
  | .ok (requestId, type, jsonMessage) => do
      let jsonMessage := jsonMessage.touch (lit "reason")
      let reason ← (jsonMessage.get (lit "reason")).getString
      throwOnError (type = lit "INVALID_REQUEST")
        (lit "invalid request, " ++ reason)
      pure (some ⟨requestId, jsonMessage⟩)

namespace Requests

variable {ι κ : Type} [DecidableEq ι]

def cancelTimer (timer : ℕ) (timers : List (RetryTimer ι κ)) :
    List (RetryTimer ι κ) :=
  timers.modify timer fun t => { t with state := t.state.cancel }

/-- `RequestChannel::Request`.  Storing the entry destroys the timer of the
one it replaces. -/
def request (rapid : RapidJson) (channel : ι) (message : Json)
    (callback : κ) (call : ℕ) (sending : Outcome Unit)
    (world : Requests ι κ) : Outcome Unit × Requests ι κ :=
  let requestId := world.requestId + 1
  let message := message.set (lit "requestId") (.uint requestId)
  let table := world.requestIdToRequest channel
  let timers :=
    match RequestMap.find? requestId table with
    | none => world.timers
    | some replaced => cancelTimer replaced.2.retryTimer world.timers
  (sending, { world with
    requestId := requestId
    drawn := world.drawn + 1
    timers := timers ++
      [⟨channel, rapid.copy message, callback, call, .waiting⟩]
    requestIdToRequest := Function.update world.requestIdToRequest channel
      (OrderedMap.insert RequestMap.less requestId
        ⟨world.timers.length, callback, call⟩ table)
    trace := world.trace ++
      match sending with
      | .ok () => [.frame channel call message]
      | .error _ => [] })

/-- `RequestChannel::OnResponse`, with `OnRequestCompleted`. -/
def onResponse (channel : ι) (requestId : UInt64)
    (world : Requests ι κ) : Outcome Bool × Requests ι κ :=
  let table := world.requestIdToRequest channel
  match RequestMap.find? requestId table with
  | none => (.ok false, world)
  | some (_, request) =>
      (.ok true, { world with
        requestIdToRequest := Function.update world.requestIdToRequest
          channel (OrderedMap.erase RequestMap.less requestId table)
        timers := cancelTimer request.retryTimer world.timers
        trace := world.trace ++
          [.invoked channel request.call requestId request.callback] })

/-- `RequestChannel::OnMessage` of a channel whose class overrides
`OnResponse`: `override` gives the result where the base one is not called. -/
def onMessage (rapid : RapidJson) (channel : ι) (payload : StdString)
    (override : Response → Option (Outcome Bool)) (world : Requests ι κ) :
    Outcome Bool × Requests ι κ :=
  match incoming rapid payload with
  | .error fault => (.error fault, world)
  | .ok none => (.ok false, world)
  | .ok (some response) =>
      match override response with
      | some outcome => (outcome, world)
      | none => world.onResponse channel response.requestId

def setTimer (timer : ℕ) (state : TimerState) (world : Requests ι κ) :
    Requests ι κ :=
  { world with
    timers := world.timers.modify timer fun t => { t with state } }

def expire (timer : ℕ) (world : Requests ι κ) : Option (Requests ι κ) :=
  match world.timers[timer]? with
  | none => none
  | some t =>
      if t.state = .waiting then some (world.setTimer timer .queued)
      else none

/-- The queued handler of a timer runs: the captured message is copied and
requested again. -/
def fire (rapid : RapidJson) (timer : ℕ) (sending : Outcome Unit)
    (world : Requests ι κ) : Option (Requests ι κ) :=
  match world.timers[timer]? with
  | none => none
  | some t =>
      if t.state = .queued then
        some ((world.setTimer timer .fired).request rapid t.channel
          (rapid.copy t.message) t.callback t.call sending).2
      else none

def userRequest (rapid : RapidJson) (channel : ι) (message : Json)
    (callback : κ) (sending : Outcome Unit) (world : Requests ι κ) :
    Outcome Unit × Requests ι κ :=
  { world with requested := world.requested ++ [message] }.request rapid
    channel message callback world.requested.length sending

/-! ## Runs -/

inductive Event (ι κ : Type) where
  | request (channel : ι) (message : Json) (callback : κ)
      (sending : Outcome Unit)
  | expire (timer : ℕ)
  | fire (timer : ℕ) (sending : Outcome Unit)
  | message (channel : ι) (payload : StdString)
      (override : Response → Option (Outcome Bool))

/-- A violated precondition has no next state: nothing is promised about it. -/
def step (rapid : RapidJson) (world : Requests ι κ) :
    Event ι κ → Option (Requests ι κ)
  | .request channel message callback sending =>
      some (world.userRequest rapid channel message callback sending).2
  | .expire timer => world.expire timer
  | .fire timer sending => world.fire rapid timer sending
  | .message channel payload override =>
      match world.onMessage rapid channel payload override with
      | (.error .violated, _) => none
      | (_, world) => some world

end Requests

end LibChromecast
