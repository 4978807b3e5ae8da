import LibChromecast.JsonMessage

/-!
# Receiver messages

`ReceiverStatus` with its decoder.
-/

namespace LibChromecast

structure BasicReceiverStatus where
  isActiveInput : Option Bool
  isStandby : Bool
  muted : Bool
  volumeLevel : Double
deriving DecidableEq

namespace BasicReceiverStatus

def fromMessage (message : Json) : Outcome BasicReceiverStatus := do
  let volume ← message.member (lit "volume")
  let muted ← (← volume.member (lit "muted")).getBool
  let volumeLevel ← (← volume.member (lit "level")).getDouble
  let isStandby ← (← message.member (lit "isStandBy")).getBool
  let isActiveInput ←
    if ← message.hasMember (lit "isActiveInput") then
      some <$> (← message.member (lit "isActiveInput")).getBool
    else pure none
  pure { isActiveInput, isStandby, muted, volumeLevel }

end BasicReceiverStatus

structure ApplicationInfo where
  applicationId : StdString
  displayName : StdString
  namespaces : List StdString
  sessionId : StdString
  statusText : StdString
  transportId : StdString
deriving DecidableEq

def ApplicationInfo.fromMessage (message : Json) :
    Outcome ApplicationInfo := do
  let applicationId ← (← message.member (lit "appId")).getString
  let displayName ← (← message.member (lit "displayName")).getString
  let sessionId ← (← message.member (lit "sessionId")).getString
  let statusText ← (← message.member (lit "statusText")).getString
  let transportId ←
    if ← message.hasMember (lit "transportId") then
      (← message.member (lit "transportId")).getString
    else pure []
  let namespacesValue ← message.member (lit "namespaces")
  let namespaces ← namespacesValue.mapItems fun item => do
    (← item.member (lit "name")).getString
  pure {
    applicationId, displayName, namespaces, sessionId, statusText
    transportId }

structure ReceiverStatus extends BasicReceiverStatus where
  applications : List ApplicationInfo
deriving DecidableEq

/-- The index of the loop over the applications never moves. -/
def ReceiverStatus.fromMessage (rapid : RapidJson) (message : Json) :
    Outcome ReceiverStatus := do
  let type ← (← message.member (lit "type")).getString
  throwOnError (type ≠ lit "RECEIVER_STATUS")
    (lit "invalid message type, expected a receiver status message " ++
      lit "instead of the following message: " ++ rapid.toString message)
  let statusMessage ← message.member (lit "status")
  let status ← BasicReceiverStatus.fromMessage statusMessage
  let applications ←
    if ← statusMessage.hasMember (lit "applications") then do
      let applicationsValue ← statusMessage.member (lit "applications")
      let size ← applicationsValue.size
      (List.replicate size ()).mapM fun _ => do
        ApplicationInfo.fromMessage (← applicationsValue.item 0)
    else pure []
  pure { toBasicReceiverStatus := status, applications }

end LibChromecast
