import LibChromecast.CastMessage
import LibChromecast.Preconditions

/-!
# Broadcasts for other clients

What another client of the receiver is answered arrives here as well, and
`OnUnhandledMessage` lets such a broadcast pass.  It comes last: an
`INVALID_REQUEST` raises before, and a media channel decodes every
`MEDIA_STATUS`, whoever asked for it.
-/

namespace LibChromecast

open Foundation Json

/-! ## Channels -/

/-- `ChromecastChannel::OnUnhandledMessage`. -/
def onUnhandledMessage (message : CastMessage) : Outcome Unit :=
  if message.address.destination ≠ wildcard then
    throwOnError true (lit "unhandled message: " ++ message.toString)
  else pure ()

/-- `ChromecastChannel::OnMessage` of a class that overrides the one for
texts. -/
def channelOnMessage {σ : Type}
    (onMessage : StdString → σ → Outcome Bool × σ) (message : CastMessage)
    (state : σ) : Outcome Unit × σ :=
  let handled : Outcome Bool × σ :=
    match message.payloadType with
    | .binary => (.ok false, state)
    | .string => onMessage message.payloadUtf8 state
  match handled with
  | (.error fault, state) => (.error fault, state)
  | (.ok true, state) => (.ok (), state)
  | (.ok false, state) => (onUnhandledMessage message, state)

/-! ## The property -/

/-- A broadcast text with a type, and with the id of no request that is
pending. -/
structure ForeignBroadcast (rapid : RapidJson) (Unawaited : UInt64 → Prop)
    (message : CastMessage) : Prop where
  payload : message.payloadType = .string
  destination : message.address.destination = wildcard
  requestId : ∃ requestId,
    (rapid.parseMessage message.payloadUtf8).find? (lit "requestId") =
        some (.uint requestId) ∧ Unawaited requestId
  type : ∃ type,
    (rapid.parseMessage message.payloadUtf8).find? (lit "type") =
      some (.string type)

/-- The answer is none of an invalid request, and can be read. -/
def Tolerated (document : Json) : Prop :=
  document.MissingOrText (lit "reason") ∧
    document.memberText (lit "type") ≠ lit "INVALID_REQUEST"

/-- A media status that can be decoded. -/
def Decodable (document : Json) : Prop :=
  document.memberText (lit "type") = lit "MEDIA_STATUS" →
    Check.mediaStatus document = .accepts

instance (document : Json) : Decidable (Tolerated document) :=
  inferInstanceAs (Decidable (_ ∧ _))

instance (document : Json) : Decidable (LibChromecast.Decodable document) :=
  inferInstanceAs (Decidable (_ → _))

/-- The message is let pass, no callback is invoked, and nothing changes that
`OnMessage` answers to. -/
def ReceiverChannel.Harmless {α : Type} (rapid : RapidJson)
    (getId : α → StdString) (ending : Outcome Unit)
    (channel : ReceiverChannel α) (message : CastMessage) : Prop :=
  let result := channelOnMessage
    (fun payload channel => channel.onMessage rapid getId ending payload)
    message channel
  result.1 = .ok () ∧ result.2.requests = channel.requests ∧
    result.2.observed = channel.observed ∧
    result.2.application = channel.application ∧
    result.2.launchingApplication = channel.launchingApplication

def Channels.Harmless (rapid : RapidJson) (ending : Outcome Unit)
    (channels : Channels) (channel : ChannelRef) (message : CastMessage) :
    Prop :=
  let result := channelOnMessage
    (fun payload channels =>
      channels.onMessage rapid channel payload ending)
    message channels
  result.1 = .ok () ∧ result.2.requests = channels.requests ∧
    result.2.handed = channels.handed

/-! ## What happens to one -/

section Channel

variable {σ : Type} {onMessage : StdString → σ → Outcome Bool × σ}
  {message : CastMessage} {state next : σ}

theorem channelOnMessage_of_unhandled
    (hpayload : message.payloadType = .string)
    (hdestination : message.address.destination = wildcard)
    (h : onMessage message.payloadUtf8 state = (.ok false, next)) :
    channelOnMessage onMessage message state = (.ok (), next) := by
  unfold channelOnMessage onUnhandledMessage
  rw [hpayload]
  simp only [h, hdestination, ne_eq, not_true_eq_false, if_false]
  rfl

theorem channelOnMessage_of_error {fault : Fault}
    (hpayload : message.payloadType = .string)
    (h : onMessage message.payloadUtf8 state = (.error fault, next)) :
    channelOnMessage onMessage message state = (.error fault, next) := by
  unfold channelOnMessage
  rw [hpayload]
  simp only [h]

end Channel

/-- The header of a foreign broadcast is read if its reason is. -/
theorem ForeignBroadcast.headerReads_iff {rapid : RapidJson}
    {Unawaited : UInt64 → Prop} {message : CastMessage} {requestId : UInt64}
    (h : ForeignBroadcast rapid Unawaited message)
    (hid : (rapid.parseMessage message.payloadUtf8).find?
      (lit "requestId") = some (.uint requestId)) :
    HeaderReads (rapid.parseMessage message.payloadUtf8) requestId ↔
      (rapid.parseMessage message.payloadUtf8).MissingOrText
        (lit "reason") := by
  constructor
  · intro hheader
    exact hheader.reason
  · intro hreason
    obtain ⟨type, htype⟩ := h.type
    refine ⟨hid, ?_, hreason⟩
    unfold MissingOrText Check.optional
    rw [htype]
    rfl

/-- How the reading of a foreign broadcast ends. -/
theorem ForeignBroadcast.incoming_eq {rapid : RapidJson}
    {Unawaited : UInt64 → Prop} {message : CastMessage} {requestId : UInt64}
    (h : ForeignBroadcast rapid Unawaited message)
    (hid : (rapid.parseMessage message.payloadUtf8).find?
      (lit "requestId") = some (.uint requestId)) :
    (Tolerated (rapid.parseMessage message.payloadUtf8) ∧
      incoming rapid message.payloadUtf8 = .ok (some ⟨requestId,
        opened (rapid.parseMessage message.payloadUtf8)⟩)) ∨
    (¬Tolerated (rapid.parseMessage message.payloadUtf8) ∧
      ∃ fault, incoming rapid message.payloadUtf8 = .error fault) := by
  by_cases hreason : (rapid.parseMessage message.payloadUtf8).MissingOrText
      (lit "reason")
  · have hheader := (h.headerReads_iff hid).mpr hreason
    rw [incoming_of_headerReads hheader]
    split_ifs with hinvalid
    · exact Or.inr ⟨fun htolerated => htolerated.2 hinvalid, _, rfl⟩
    · exact Or.inl ⟨⟨hreason, hinvalid⟩, rfl⟩
  · refine Or.inr ⟨fun htolerated => hreason htolerated.1, _,
      incoming_of_not_headerReads fun other hheader => ?_⟩
    exact hreason hheader.reason

namespace ReceiverChannel

variable {α : Type} {rapid : RapidJson} {getId : α → StdString}

theorem harmless_iff (ending : Outcome Unit) (channel : ReceiverChannel α)
    {message : CastMessage}
    (h : ForeignBroadcast rapid channel.Unawaited message) :
    channel.Harmless rapid getId ending message ↔
      Tolerated (rapid.parseMessage message.payloadUtf8) := by
  obtain ⟨requestId, hid, hnonzero, hnone⟩ := h.requestId
  unfold Harmless
  rcases h.incoming_eq hid with ⟨htolerated, hincoming⟩ |
    ⟨hnot, fault, hincoming⟩
  · have hunhandled : channel.onMessage rapid getId ending
        message.payloadUtf8 = (.ok false, channel) := by
      unfold onMessage onResponse
      simp only [hincoming, hnonzero, hnone, ne_eq, not_false_eq_true,
        if_true]
    rw [channelOnMessage_of_unhandled h.payload h.destination hunhandled]
    exact ⟨fun _ => htolerated, fun _ => ⟨rfl, rfl, rfl, rfl, rfl⟩⟩
  · have hfault : channel.onMessage rapid getId ending
        message.payloadUtf8 = (.error fault, channel) := by
      unfold onMessage
      rw [hincoming]
    rw [channelOnMessage_of_error h.payload hfault]
    exact ⟨fun hharmless => absurd hharmless.1 (by simp),
      fun htolerated => absurd htolerated hnot⟩

end ReceiverChannel

namespace Channels

theorem onResponse_of_unawaited {channels : Channels} {channel : ChannelRef}
    {requestId : UInt64} (ending : Outcome Unit) (document : Json)
    (hnone : RequestMap.find? requestId
      (channels.requests.requestIdToRequest channel) = none) :
    channels.onResponse channel ⟨requestId, document⟩ ending =
      (.ok false, channels) := by
  unfold onResponse
  dsimp only
  rw [hnone]

/-- A media channel decodes a status that it did not ask for. -/
theorem mediaOnResponse_of_unawaited (channels : Channels)
    {channel : ChannelRef} {requestId : UInt64} (ending : Outcome Unit)
    {document : Json} {type : StdString}
    (hobject : document.IsObject)
    (htype : (opened document).find? (lit "type") = some (.string type))
    (htext : cStr type = document.memberText (lit "type"))
    (h : channels.Unawaited channel requestId) :
    (Decodable document ∧ ∃ next,
      channels.mediaOnResponse channel ⟨requestId, opened document⟩ ending =
          (.ok false, next) ∧
        next.requests = channels.requests ∧
        next.handed = channels.handed) ∨
    (¬Decodable document ∧ ∃ fault next,
      channels.mediaOnResponse channel ⟨requestId, opened document⟩ ending =
        (.error fault, next)) := by
  obtain ⟨hnonzero, hnone⟩ := h
  have hsame : Check.mediaStatus (opened document) =
      Check.mediaStatus document := check_opened hobject rfl
  have hdecodes : Verdict.of (MediaStatus.fromMessage (opened document)) =
      Check.mediaStatus document :=
    (MediaStatus.follows (opened document)).trans hsame
  unfold mediaOnResponse Decodable
  rw [mediaStatus_eq htype, htext]
  by_cases hmedia : document.memberText (lit "type") = lit "MEDIA_STATUS"
  · rw [if_pos hmedia]
    cases hstatus : MediaStatus.fromMessage (opened document) with
    | error fault =>
        refine Or.inr ⟨fun haccepts => ?_, fault, channels, rfl⟩
        rw [hstatus, haccepts hmedia] at hdecodes
        cases fault <;> cases hdecodes
    | ok status =>
        rw [hstatus] at hdecodes
        refine Or.inl ⟨fun _ => hdecodes.symm,
          channels.setLastStatus channel status, ?_, rfl, rfl⟩
        simp only [Functor.map, Except.map, hnonzero, if_false]
        exact onResponse_of_unawaited ending _ hnone
  · rw [if_neg hmedia]
    refine Or.inl ⟨fun hother => absurd hother hmedia, channels, ?_, rfl, rfl⟩
    simp only [pure, Except.pure, hnonzero, if_false]
    exact onResponse_of_unawaited ending _ hnone

theorem harmless_iff {rapid : RapidJson} (ending : Outcome Unit)
    (channels : Channels) (index : ℕ) {message : CastMessage}
    (h : ForeignBroadcast rapid (channels.Unawaited (.media index))
      message) :
    channels.Harmless rapid ending (.media index) message ↔
      Tolerated (rapid.parseMessage message.payloadUtf8) ∧
        Decodable (rapid.parseMessage message.payloadUtf8) := by
  obtain ⟨requestId, hid, hunawaited⟩ := h.requestId
  have hfails : ∀ fault next, channels.onMessage rapid (.media index)
      message.payloadUtf8 ending = (.error fault, next) →
        ¬channels.Harmless rapid ending (.media index) message := by
    intro fault next hfault hharmless
    unfold Harmless at hharmless
    rw [channelOnMessage_of_error h.payload hfault] at hharmless
    cases hharmless.1
  rcases h.incoming_eq hid with ⟨htolerated, hincoming⟩ |
    ⟨hnot, fault, hincoming⟩
  · obtain ⟨type, htype⟩ := h.type
    have hopened : (opened (rapid.parseMessage message.payloadUtf8)).find?
        (lit "type") = some (.string type) := by
      rw [find?_opened_type, htype]
      rfl
    have htext : cStr type = (rapid.parseMessage
        message.payloadUtf8).memberText (lit "type") := by
      rw [memberText, htype]
    have hreceived : ∀ result,
        (channels.receive (.media index)
          (rapid.parseMessage message.payloadUtf8)).mediaOnResponse
            (.media index) ⟨requestId,
              opened (rapid.parseMessage message.payloadUtf8)⟩ ending =
          result →
        channels.onMessage rapid (.media index) message.payloadUtf8 ending =
          result := by
      intro result hresult
      unfold onMessage
      simp only [hincoming]
      exact hresult
    rcases mediaOnResponse_of_unawaited (channels.receive (.media index)
        (rapid.parseMessage message.payloadUtf8)) ending
        (isObject_of_find? hid) hopened htext hunawaited with
      ⟨hdecodes, next, hnext, hrequests, hhanded⟩ |
        ⟨hnot, fault, next, hnext⟩
    · refine ⟨fun _ => ⟨htolerated, hdecodes⟩, fun _ => ?_⟩
      unfold Harmless
      rw [channelOnMessage_of_unhandled h.payload h.destination
        (hreceived _ hnext)]
      exact ⟨rfl, hrequests, hhanded⟩
    · exact ⟨fun hharmless =>
        absurd hharmless (hfails fault next (hreceived _ hnext)),
        fun hdecodes => absurd hdecodes.2 hnot⟩
  · have hfault : channels.onMessage rapid (.media index)
        message.payloadUtf8 ending = (.error fault,
          channels.receive (.media index)
            (rapid.parseMessage message.payloadUtf8)) := by
      unfold onMessage
      simp only [hincoming]
    exact ⟨fun hharmless => absurd hharmless (hfails fault _ hfault),
      fun htolerated => absurd htolerated.1 hnot⟩

end Channels

/-! ## The contract -/

/-- In every state, a broadcast for another client is harmless exactly if it
is no `INVALID_REQUEST` and what is read of it can be read; on a media channel
that is the whole of a `MEDIA_STATUS`. -/
theorem foreignBroadcast_iff {α : Type} (rapid : RapidJson)
    (getId : α → StdString) (ending : Outcome Unit)
    (message : CastMessage) :
    (∀ channel : ReceiverChannel α,
      ForeignBroadcast rapid channel.Unawaited message →
        (channel.Harmless rapid getId ending message ↔
          Tolerated (rapid.parseMessage message.payloadUtf8))) ∧
    ∀ (channels : Channels) (index : ℕ),
      ForeignBroadcast rapid (channels.Unawaited (.media index)) message →
        (channels.Harmless rapid ending (.media index) message ↔
          Tolerated (rapid.parseMessage message.payloadUtf8) ∧
            Decodable (rapid.parseMessage message.payloadUtf8)) :=
  ⟨fun channel h => channel.harmless_iff ending h,
    fun channels index h => channels.harmless_iff ending index h⟩

/-- A broadcast with this text. -/
def broadcastOf (text : StdString) : CastMessage where
  address := ⟨lit "receiver-0", wildcard,
    lit "urn:x-cast:com.google.cast.receiver"⟩
  payloadUtf8 := text

def foreignText (type : String) : StdString :=
  lit "\x7b\"requestId\":7,\"type\":\"" ++ lit type ++
    lit "\",\"reason\":\"INVALID_COMMAND\"\x7d"

theorem foreignBroadcast_foreignText {Unawaited : UInt64 → Prop}
    (h : Unawaited 7) {type : String} (text : StdString)
    (hid : ((textJson.parseMessage (foreignText type)).get
      (lit "requestId")).getUint64 = .ok 7)
    (htype : ((textJson.parseMessage (foreignText type)).get
      (lit "type")).getString = .ok text) :
    ForeignBroadcast textJson Unawaited
      (broadcastOf (foreignText type)) where
  payload := rfl
  destination := rfl
  requestId := ⟨7, find?_of_getUint64 hid, h⟩
  type := find?_of_getString htype

/-- Nothing is pending on new channels. -/
theorem foreignBroadcast_iff_error :
    (ReceiverChannel.construct ⟨false, false, ⟨0⟩, false⟩ :
        ReceiverChannel Unit).Harmless textJson (fun _ => []) (.ok ())
          (broadcastOf (foreignText "LAUNCH_ERROR")) ∧
      ({} : Channels).Harmless textJson (.ok ()) (.media 0)
        (broadcastOf (foreignText "LAUNCH_ERROR")) := by
  obtain ⟨hreceiver, hmedia⟩ := foreignBroadcast_iff (α := Unit) textJson
    (fun _ => []) (.ok ()) (broadcastOf (foreignText "LAUNCH_ERROR"))
  refine ⟨(hreceiver _ ?_).mpr ?_, (hmedia _ 0 ?_).mpr ?_⟩
  · exact foreignBroadcast_foreignText ⟨by decide, rfl⟩
      (lit "LAUNCH_ERROR") (by decide +kernel) (by decide +kernel)
  · decide +kernel
  · exact foreignBroadcast_foreignText ⟨by decide, rfl⟩
      (lit "LAUNCH_ERROR") (by decide +kernel) (by decide +kernel)
  · decide +kernel

/-- What another client is told of its invalid request raises here. -/
theorem not_harmless_invalid :
    ∃ channel : ReceiverChannel Unit,
      ForeignBroadcast textJson channel.Unawaited
          (broadcastOf (foreignText "INVALID_REQUEST")) ∧
        ¬channel.Harmless textJson (fun _ => []) (.ok ())
          (broadcastOf (foreignText "INVALID_REQUEST")) := by
  have hforeign : ForeignBroadcast textJson
      (ReceiverChannel.construct ⟨false, false, ⟨0⟩, false⟩ :
        ReceiverChannel Unit).Unawaited
      (broadcastOf (foreignText "INVALID_REQUEST")) :=
    foreignBroadcast_foreignText ⟨by decide, rfl⟩
      (lit "INVALID_REQUEST") (by decide +kernel) (by decide +kernel)
  refine ⟨_, hforeign, ?_⟩
  rw [ReceiverChannel.harmless_iff _ _ hforeign]
  decide +kernel

end LibChromecast
