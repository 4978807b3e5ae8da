import LibChromecast.CastMessage

/-!
# Channel registration and routing

The channel map of `ChromecastConnection` with `RegisterChannel`,
`UnregisterChannel` and the delivery of one message by `OnMessage`.  A channel
object is named by its id; the map holds ids where the source holds pointers.

`live` is not in the source: it lists the constructed channels with their
addresses, so that the map can be compared with it.
-/

namespace LibChromecast

abbrev ChannelId := ℕ

abbrev ChannelMap := List (Address × ChannelId)

namespace ChannelMap

open Foundation

def find? (strings : StringCompare) (address : Address)
    (map : ChannelMap) : Option (Address × ChannelId) :=
  OrderedMap.find? (fun a b : Address => a.less strings b) address map

/-- `ChromecastConnection::RegisterChannel`, for a channel with this address. -/
def registerChannel (strings : StringCompare) (channel : ChannelId)
    (channelAddress : Address) (map : ChannelMap) :
    Outcome Unit × ChannelMap :=
  let address := channelAddress.swap
  match throwOnError (map.find? strings address).isSome
      (lit "address: " ++ address.toString ++ lit " already registered") with
  | .error fault => (.error fault, map)
  | .ok () =>
      (.ok (),
        OrderedMap.insert (fun a b : Address => a.less strings b)
          address channel map)

def unregisterChannel (strings : StringCompare)
    (channelAddress : Address) (map : ChannelMap) :
    Outcome Unit × ChannelMap :=
  let address := channelAddress.swap
  match throwOnError (map.find? strings address).isNone
      (lit "address " ++ address.toString ++ lit " not registered") with
  | .error fault => (.error fault, map)
  | .ok () =>
      (.ok (),
        OrderedMap.erase (fun a b : Address => a.less strings b)
          address map)

end ChannelMap

/-! ## Delivery -/

/-- What one call of `ChromecastConnection::OnMessage` does: the channels
whose `OnMessage` it calls, in order, whether it calls
`OnUnrecognizedAddress`, and how it ends. -/
structure Delivery where
  receivers : List ChannelId
  unrecognized : Bool
  outcome : Outcome Unit

def onUnrecognizedAddress (message : CastMessage) : Outcome Unit :=
  throwOnError true
    (lit "received message without a clear destination:\n" ++
      message.toString)

/-- The loop over the map: `handler` is how each channel's `OnMessage` ends. -/
def broadcast (handler : ChannelId → Outcome Unit)
    (message : CastMessage) : ChannelMap → Delivery
  | [] => ⟨[], false, .ok ()⟩
  | entry :: rest =>
      if entry.1.namespaceId ≠ message.address.namespaceId ∨
          entry.1.source ≠ message.address.source then
        broadcast handler message rest
      else
        match handler entry.2 with
        | .error fault => ⟨[entry.2], false, .error fault⟩
        | .ok () =>
            let later := broadcast handler message rest
            { later with receivers := entry.2 :: later.receivers }

def deliver (strings : StringCompare) (handler : ChannelId → Outcome Unit)
    (message : CastMessage) (map : ChannelMap) : Delivery :=
  if message.address.destination ≠ wildcard then
    match map.find? strings message.address with
    | some entry => ⟨[entry.2], false, handler entry.2⟩
    | none => ⟨[], true, onUnrecognizedAddress message⟩
  else broadcast handler message map

/-! ## Channel objects -/

structure Router where
  channelAddressToChannel : ChannelMap := []
  live : List (ChannelId × Address) := []

namespace Router

/-- The constructor of `ChromecastChannel`: a registration that raises leaves
no object behind.  A new object is distinct from the live ones. -/
def construct (strings : StringCompare) (channel : ChannelId)
    (address : Address) (router : Router) : Option (Outcome Unit × Router) :=
  if channel ∈ router.live.map Prod.fst then none
  else
    match router.channelAddressToChannel.registerChannel strings
        channel address with
    | (.error fault, map) =>
        some (.error fault, { router with channelAddressToChannel := map })
    | (.ok (), map) =>
        some (.ok (), {
          channelAddressToChannel := map
          live := (channel, address) :: router.live })

/-- The destructor of `ChromecastChannel`.  An exception in it would end the
process, so there is no state after one. -/
def destroy (strings : StringCompare) (channel : ChannelId)
    (router : Router) : Option Router :=
  match router.live.find? (fun object => object.1 = channel) with
  | none => none
  | some object =>
      match router.channelAddressToChannel.unregisterChannel strings
          object.2 with
      | (.error _, _) => none
      | (.ok (), map) =>
          some {
            channelAddressToChannel := map
            live := router.live.filter fun other => other.1 ≠ channel }

end Router

end LibChromecast
