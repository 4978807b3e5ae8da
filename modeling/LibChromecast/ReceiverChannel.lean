import Mathlib.Data.List.Infix
import LibChromecast.ReceiverMessages
import LibChromecast.RequestCorrelation

/-!
# Receiver channels

`ReceiverChannel` with all its operations, over applications of any class: a
`shared_ptr` to one is a value of `α`, and `getId` is its `GetID`.  Other
channels of the process draw request ids too.

How the sending of a frame ends, and how the user's code that is called last
ends (a callback, `Initialize`), is in the event; what that code requests
comes as the next events of the run.  `OnStopped` is called in the middle of
`Launch`: the rest of the call waits on `stopping` until it returns, and what
happens meanwhile are the events before.  The completion an application is
handed is named by the position of its `Initialize` call in `observed`.

`calls`, `owner`, `waiting` and `observed` are not in the source: how many
calls of `Launch` and `Join` were accepted, the `Launch` call that stored the
current application, whether that call has returned and its application was
not found since, and what could be observed.
-/

namespace LibChromecast

open Foundation

/-- What the members hold which the constructor leaves uninitialised. -/
structure Memory where
  isStandby : Bool
  muted : Bool
  volumeLevel : Double
  launchingApplication : Bool

/-- `BasicReceiverStatus::operator=` moves no absent `is_active_input`. -/
def ReceiverStatus.assign (status old : ReceiverStatus) : ReceiverStatus :=
  { status with isActiveInput := status.isActiveInput.or old.isActiveInput }

/-- The callback of an entry.  `hasCallback` tells whether the user's callback
is set; the one of a `Join` is named by its call. -/
inductive ReceiverCallback (α : Type) where
  | availability (appIds : List StdString) (hasCallback : Bool)
  | status (hasCallback : Bool)
  | launch
  | join (call : ℕ) (application : Option α)
  | volume (hasCallback : Bool)

/-- Who calls `Initialize`: a broadcast status, with the `Launch` call whose
application it is and whether that call waits, or the answer of a `Join`
call. -/
inductive Cause where
  | broadcast (owner : Option ℕ) (awaited : Bool)
  | join (call : ℕ)
deriving DecidableEq

namespace ReceiverChannel

inductive Observed (α : Type) where
  | launch (call : ℕ) (application : α)
  | join (call : ℕ) (application : Option α)
  | initializing (cause : Cause) (application : α) (info : ApplicationInfo)
  | completed (call : ℕ) (value : Bool)

/-- The rest of a `Launch` call whose `OnStopped` has not returned. -/
structure Stopping (α : Type) where
  call : ℕ
  application : α
  hasCallback : Bool

end ReceiverChannel

structure ReceiverChannel (α : Type) where
  requests : Requests Unit (ReceiverCallback α) := {}
  lastFullStatus : ReceiverStatus
  launchingApplication : Bool
  onApplicationLaunched : Option ℕ := none
  application : Option α := none
  stopping : List (ReceiverChannel.Stopping α) := []
  calls : ℕ := 0
  owner : Option ℕ := none
  waiting : Bool := false
  observed : List (ReceiverChannel.Observed α) := []

namespace Requests

variable {ι κ : Type}

/-- A channel of another process table draws an id. -/
def draw (world : Requests ι κ) : Requests ι κ :=
  { world with requestId := world.requestId + 1, drawn := world.drawn + 1 }

end Requests

namespace ReceiverChannel

variable {α : Type}

/-- The constructor, over memory with these contents. -/
def construct (memory : Memory) : ReceiverChannel α where
  lastFullStatus := {
    isActiveInput := none
    isStandby := memory.isStandby
    muted := memory.muted
    volumeLevel := memory.volumeLevel
    applications := [] }
  launchingApplication := memory.launchingApplication

def observe (observed : Observed α) (channel : ReceiverChannel α) :
    ReceiverChannel α :=
  { channel with observed := channel.observed ++ [observed] }

def setStatus (status : ReceiverStatus) (channel : ReceiverChannel α) :
    ReceiverChannel α :=
  { channel with lastFullStatus := status.assign channel.lastFullStatus }

@[simp] theorem setStatus_application (status : ReceiverStatus)
    (channel : ReceiverChannel α) :
    (channel.setStatus status).application = channel.application := rfl

@[simp] theorem setStatus_applications (status : ReceiverStatus)
    (channel : ReceiverChannel α) :
    (channel.setStatus status).lastFullStatus.applications =
      status.applications := rfl

/-- The number of the call which is being made. -/
def nextCall (channel : ReceiverChannel α) : ReceiverChannel α :=
  { channel with calls := channel.calls + 1 }

/-! ## Operations -/

section Operations

variable (rapid : RapidJson) (getId : α → StdString)
  (sending : Outcome Unit)

def typed (text : String) : Json :=
  Json.null.set (lit "type") (.ofString (lit text))

def request (message : Json) (callback : ReceiverCallback α)
    (channel : ReceiverChannel α) : Outcome Unit × ReceiverChannel α :=
  let requested := channel.requests.userRequest rapid () message callback
    sending
  (requested.1, { channel with requests := requested.2 })

def getAppAvailabillity (appIds : List StdString) (hasCallback : Bool)
    (channel : ReceiverChannel α) : Outcome Unit × ReceiverChannel α :=
  match throwOnError appIds.isEmpty (lit "empty application id array") with
  | .error fault => (.error fault, channel)
  | .ok () =>
      channel.request rapid sending
        ((typed "GET_APP_AVAILABILITY").set (lit "appId")
          (.ofStrings appIds))
        (.availability appIds hasCallback)

def getStatus (callback : ReceiverCallback α)
    (channel : ReceiverChannel α) : Outcome Unit × ReceiverChannel α :=
  channel.request rapid sending (typed "GET_STATUS") callback

def setVolumeMember (member : StdString) (value : Json) : Json :=
  (typed "SET_VOLUME").update (lit "volume") fun volume =>
    volume.set member value

def mute (mute : Bool) (hasCallback : Bool)
    (channel : ReceiverChannel α) : Outcome Unit × ReceiverChannel α :=
  channel.request rapid sending
    (setVolumeMember (lit "muted") (.bool mute)) (.volume hasCallback)

def setVolume (volumeLevel : Double) (hasCallback : Bool)
    (channel : ReceiverChannel α) : Outcome Unit × ReceiverChannel α :=
  channel.request rapid sending
    (setVolumeMember (lit "level") (.double volumeLevel))
    (.volume hasCallback)

/-- `Launch` once the previous application was told to stop. -/
def launchStopped (rest : Stopping α) (channel : ReceiverChannel α) :
    Outcome Unit × ReceiverChannel α :=
  let channel := { channel with
    application := some rest.application
    onApplicationLaunched := if rest.hasCallback then some rest.call else none
    owner := some rest.call
    waiting := false }
  let message := (typed "LAUNCH").set (lit "appId")
    (.ofString (getId rest.application))
  match channel.request rapid sending message .launch with
  | (.error fault, channel) => (.error fault, channel)
  | (.ok (), channel) =>
      (.ok (), { channel with
        launchingApplication := true
        waiting := true })

/-- `Launch` up to the call of `OnStopped`; without a previous application
there is none. -/
def launch (application : Option α) (hasCallback : Bool)
    (channel : ReceiverChannel α) : Outcome Unit × ReceiverChannel α :=
  match application with
  | none => (raise (.runtimeError (lit "invalid application")), channel)
  | some application =>
      let rest : Stopping α := ⟨channel.calls, application, hasCallback⟩
      let called :=
        channel.nextCall.observe (.launch channel.calls application)
      match channel.application with
      | none => called.launchStopped rapid getId sending rest
      | some _ =>
          (.ok (), { called with stopping := rest :: channel.stopping })

/-- The `OnStopped` which was called last returns. -/
def onStoppedReturned (outcome : Outcome Unit)
    (channel : ReceiverChannel α) :
    Option (Outcome Unit × ReceiverChannel α) :=
  match channel.stopping with
  | [] => none
  | rest :: stopping =>
      let channel := { channel with stopping }
      match outcome with
      | .error fault => some (.error fault, channel)
      | .ok () => some (channel.launchStopped rapid getId sending rest)

def join (application : Option α) (hasCallback : Bool)
    (channel : ReceiverChannel α) : Outcome Unit × ReceiverChannel α :=
  if hasCallback then
    (channel.nextCall.observe (.join channel.calls application)).getStatus
      rapid sending (.join channel.calls application)
  else
    (raise (.runtimeError
      (lit "The join function requires a valid callback to be provided.")),
      channel)

end Operations

/-! ## Receiver statuses -/

section Statuses

variable (rapid : RapidJson) (getId : α → StdString)
  (ending : Outcome Unit)

/-- The test `OnReceiverStatus` makes of an application. -/
def names (id : StdString) (info : ApplicationInfo) : Bool :=
  info.applicationId = id ∨ id <:+: info.displayName

def onReceiverStatus (status : ReceiverStatus)
    (channel : ReceiverChannel α) : Outcome Unit × ReceiverChannel α :=
  let channel := channel.setStatus status
  match channel.application with
  | none => (.ok (), channel)
  | some application =>
      if channel.lastFullStatus.applications = [] ∨
          channel.launchingApplication = false then
        (.ok (), channel)
      else
        match channel.lastFullStatus.applications.find?
            (names (getId application)) with
        | none => (.ok (), channel)
        | some info =>
            (ending, { channel with
              launchingApplication := false
              waiting := false
              observed := channel.observed ++
                [.initializing (.broadcast channel.owner channel.waiting)
                  application info] })

/-- The lambda of `Join`. -/
def onJoinStatus (call : ℕ) (application : Option α)
    (status : ReceiverStatus) (channel : ReceiverChannel α) :
    Outcome Unit × ReceiverChannel α :=
  let refused := (ending, channel.observe (.completed call false))
  match application with
  | none => refused
  | some application =>
      if channel.application.isSome then refused
      else
        match status.applications.find? fun info =>
            info.applicationId = getId application with
        | none => refused
        | some info =>
            (ending, { channel with
              application := some application
              observed := channel.observed ++
                [.initializing (.join call) application info] })

/-- What the lambda of `GetAppAvailabillity` reads. -/
def readAvailability (appIds : List StdString) (message : Json) :
    Outcome (List (StdString × Bool)) := do
  let availability ← message.unchecked (lit "availability")
  appIds.mapM fun appId => do
    let text ← (← availability.member (cStr appId)).getString
    pure (appId, decide (text = lit "APP_AVAILABLE"))

/-- `_callback(message)`. -/
def invoke (message : Json) (channel : ReceiverChannel α) :
    ReceiverCallback α → Outcome Unit × ReceiverChannel α
  | .availability appIds hasCallback =>
      match readAvailability appIds message with
      | .error fault => (.error fault, channel)
      | .ok _ => (if hasCallback then ending else pure (), channel)
  | .status hasCallback =>
      match ReceiverStatus.fromMessage rapid message with
      | .error fault => (.error fault, channel)
      | .ok status =>
          (if hasCallback then ending else pure (), channel.setStatus status)
  | .launch => (.ok (), channel)
  | .join call application =>
      match ReceiverStatus.fromMessage rapid message with
      | .error fault => (.error fault, channel)
      | .ok status =>
          (channel.setStatus status).onJoinStatus getId ending call
            application status
  | .volume hasCallback =>
      match ReceiverStatus.fromMessage rapid message with
      | .error fault => (.error fault, channel)
      | .ok _ => (if hasCallback then ending else pure (), channel)

/-- `ReceiverChannel::OnResponse`, with the callback it invokes. -/
def onResponse (response : Response) (channel : ReceiverChannel α) :
    Outcome Bool × ReceiverChannel α :=
  if response.requestId ≠ 0 then
    match RequestMap.find? response.requestId
        (channel.requests.requestIdToRequest ()) with
    | none => (.ok false, channel)
    | some (_, request) =>
        let completed := { channel with
          requests := (channel.requests.onResponse () response.requestId).2 }
        let invoked := completed.invoke rapid getId ending response.message
          request.callback
        (invoked.1.map fun _ => true, invoked.2)
  else
    match ReceiverStatus.fromMessage rapid response.message with
    | .error fault => (.error fault, channel)
    | .ok status =>
        let received := channel.onReceiverStatus getId ending status
        (received.1.map fun _ => true, received.2)

def onMessage (payload : StdString) (channel : ReceiverChannel α) :
    Outcome Bool × ReceiverChannel α :=
  match incoming rapid payload with
  | .error fault => (.error fault, channel)
  | .ok none => (.ok false, channel)
  | .ok (some response) => channel.onResponse rapid getId ending response

end Statuses

/-- The completion that was handed to an `Initialize` call is invoked. -/
def complete (initialization : ℕ) (value : Bool)
    (channel : ReceiverChannel α) : Option (ReceiverChannel α) :=
  match channel.observed[initialization]? with
  | some (.initializing (.broadcast _ _) _ _) =>
      match channel.onApplicationLaunched with
      | none => some channel
      | some call => some (channel.observe (.completed call value))
  | some (.initializing (.join call) _ _) =>
      some (channel.observe (.completed call value))
  | _ => none

/-! ## Runs -/

inductive Event (α : Type) where
  | getAppAvailabillity (appIds : List StdString) (hasCallback : Bool)
      (sending : Outcome Unit)
  | getStatus (hasCallback : Bool) (sending : Outcome Unit)
  | mute (mute hasCallback : Bool) (sending : Outcome Unit)
  | setVolume (volumeLevel : Double) (hasCallback : Bool)
      (sending : Outcome Unit)
  | launch (application : Option α) (hasCallback : Bool)
      (sending : Outcome Unit)
  | stopped (outcome sending : Outcome Unit)
  | join (application : Option α) (hasCallback : Bool)
      (sending : Outcome Unit)
  | complete (initialization : ℕ) (value : Bool)
  | message (payload : StdString) (ending : Outcome Unit)
  | expire (timer : ℕ)
  | fire (timer : ℕ) (sending : Outcome Unit)
  /-- Another channel of the process draws an id. -/
  | draw

def step (rapid : RapidJson) (getId : α → StdString)
    (channel : ReceiverChannel α) : Event α → Option (ReceiverChannel α)
  | .getAppAvailabillity appIds hasCallback sending =>
      some (channel.getAppAvailabillity rapid sending appIds hasCallback).2
  | .getStatus hasCallback sending =>
      some (channel.getStatus rapid sending (.status hasCallback)).2
  | .mute mute hasCallback sending =>
      some (channel.mute rapid sending mute hasCallback).2
  | .setVolume volumeLevel hasCallback sending =>
      some (channel.setVolume rapid sending volumeLevel hasCallback).2
  | .launch application hasCallback sending =>
      some (channel.launch rapid getId sending application hasCallback).2
  | .stopped outcome sending =>
      (channel.onStoppedReturned rapid getId sending outcome).map Prod.snd
  | .join application hasCallback sending =>
      some (channel.join rapid sending application hasCallback).2
  | .complete initialization value => channel.complete initialization value
  | .message payload ending =>
      match channel.onMessage rapid getId ending payload with
      | (.error .violated, _) => none
      | (_, channel) => some channel
  | .expire timer =>
      (channel.requests.expire timer).map fun requests =>
        { channel with requests }
  | .fire timer sending =>
      (channel.requests.fire rapid timer sending).map fun requests =>
        { channel with requests }
  | .draw => some { channel with requests := channel.requests.draw }

end ReceiverChannel

end LibChromecast
