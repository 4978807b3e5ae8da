import LibChromecast.ClientParts
import LibChromecast.Foundation.FreshIds
import LibChromecast.VirtualConnections

/-!
# The request ids of a client

The receiver channel and every media channel of a client draw their ids from
`RequestChannel::_request_id`.  Seen from above that is one counter which
hands out names to several tables, whatever players come and go, whichever
requests are answered, retransmitted or given up with their channel.
-/

namespace LibChromecast

open Foundation Foundation.Transition Relation

/-! ## One process -/

namespace Requests

variable {ι κ : Type} {world next : Requests ι κ}

theorem Consistent.of_sameIds (h : world.Consistent)
    (hsame : SameIds world next) : next.Consistent where
  counter := by
    rw [hsame.requestId, hsame.drawn]
    exact h.counter
  sorted := hsame.table ▸ h.sorted
  keys_le := by
    rw [hsame.table, hsame.requestId]
    exact h.keys_le
  wire := by
    rw [hsame.trace, hsame.requestId]
    exact h.wire

/-- A counter that other channels have moved on is as good. -/
theorem Consistent.follow {ι' κ' : Type} {ahead : Requests ι' κ'}
    (h : world.Consistent) (hahead : ahead.Consistent)
    (hle : world.requestId ≤ ahead.requestId) :
    (world.follow ahead).Consistent where
  counter := hahead.counter
  sorted := h.sorted
  keys_le channel entry hentry :=
    UInt64.le_trans (h.keys_le channel entry hentry) hle
  wire := by
    obtain ⟨ids, hwire, hids⟩ := h.wire
    exact ⟨ids, hwire, fun id hid => UInt64.le_trans (hids id hid) hle⟩

variable [DecidableEq ι]

theorem Consistent.destroyChannel (h : world.Consistent) (channel : ι) :
    (world.destroyChannel channel).Consistent where
  counter := h.counter
  sorted other := by
    change OrderedMap.Sorted RequestMap.less
      (Function.update world.requestIdToRequest channel [] other)
    by_cases hother : other = channel
    · rw [hother, Function.update_self]
      exact OrderedMap.sorted_nil _
    · rw [Function.update_of_ne hother]
      exact h.sorted other
  keys_le other entry hentry := by
    change entry ∈ Function.update world.requestIdToRequest channel []
      other at hentry
    by_cases hother : other = channel
    · rw [hother, Function.update_self] at hentry
      contradiction
    · rw [Function.update_of_ne hother] at hentry
      exact h.keys_le other entry hentry
  wire := h.wire

variable {rapid : RapidJson}

/-- What a call does to the ids. -/
inductive IdCase (world next : Requests ι κ) : Prop
  | kept (hrequestId : next.requestId = world.requestId)
      (hdrawn : next.drawn = world.drawn)
      (hentries : ∀ channel, ∀ entry ∈ next.requestIdToRequest channel,
        entry ∈ world.requestIdToRequest channel)
      (hsilent : world.documentsSince next = [])
  | drew (channel : ι) (hrequestId : next.requestId = world.requestId + 1)
      (hdrawn : next.drawn = world.drawn + 1)
      (hentries : ∀ other, ∀ entry ∈ next.requestIdToRequest other,
        entry ∈ world.requestIdToRequest other ∨
          (other = channel ∧ entry.1 = next.requestId))
      (hsent : world.documentsSince next = [] ∨ ∃ document,
        world.documentsSince next = [document] ∧
          document.get (lit "requestId") = .uint next.requestId)

omit [DecidableEq ι] in
theorem SameIds.documentsSince (hsame : SameIds world next) :
    world.documentsSince next = [] := by
  unfold Requests.documentsSince
  rw [hsame.trace, List.drop_length]
  rfl

theorem Consistent.idCase (h : world.Consistent)
    (hmoved : Moved rapid world next) : IdCase world next := by
  cases hmoved with
  | kept _ hsame =>
      refine .kept hsame.requestId hsame.drawn ?_ hsame.documentsSince
      rw [hsame.table]
      exact fun _ _ => id
  | received _ hreceived =>
      have hsilent := hreceived.documentsSince
      cases hreceived with
      | same => exact .kept rfl rfl (fun _ _ => id) hsilent
      | answered channel requestId =>
          refine .kept (onResponse_requestId _ _ _) (onResponse_drawn _ _ _)
            (fun other entry hentry => ?_) hsilent
          exact ((mem_onResponse_table h.sorted).mp hentry).1
  | requested before hsame channel message callback call sending =>
      have hbefore := h.of_sameIds hsame
      refine .drew channel ?_ ?_ (fun other entry hentry => ?_) ?_
      · rw [request_requestId, hsame.requestId]
      · rw [request_drawn, hsame.drawn]
      · rcases mem_request_table hbefore.sorted hentry with
          hold | ⟨hother, hnew⟩
        · exact Or.inl (hsame.table ▸ hold)
        · exact Or.inr ⟨hother, by rw [hnew]; rfl⟩
      · unfold Requests.documentsSince
        rw [request_trace, hsame.trace, List.drop_left]
        cases sending with
        | error fault => exact Or.inl rfl
        | ok _ => exact Or.inr ⟨_, rfl, Json.get_set_self _ _ _⟩

theorem Moved.drawn_le (hmoved : Moved rapid world next) :
    world.drawn ≤ next.drawn := by
  cases hmoved with
  | kept _ hsame => exact hsame.drawn.ge
  | received _ hreceived =>
      cases hreceived with
      | same => exact Nat.le_refl _
      | answered channel requestId => rw [onResponse_drawn]
  | requested before hsame channel message callback call sending =>
      rw [request_drawn, hsame.drawn]
      exact Nat.le_succ _

theorem Consistent.moved (h : world.Consistent)
    (hmoved : Moved rapid world next) (hdrawn : next.drawn < 2 ^ 64) :
    next.Consistent := by
  cases hmoved with
  | kept _ hsame => exact h.of_sameIds hsame
  | received _ hreceived =>
      cases hreceived with
      | same => exact h
      | answered channel requestId => exact h.onResponse channel requestId
  | requested before hsame channel message callback call sending =>
      exact (h.of_sameIds hsame).request hdrawn channel message callback call
        sending

end Requests

/-! ## The client -/

/-- A frame of the receiver channel or of a media channel. -/
def Frame.IsRequest (frame : Frame) : Prop :=
  frame.address.namespaceId = receiverNamespace ∨
    frame.address.namespaceId = mediaNamespace

instance (frame : Frame) : Decidable frame.IsRequest :=
  inferInstanceAs (Decidable (_ ∨ _))

namespace ChromecastClient

/-- The ids of the pending requests of the receiver channel, or of a media
channel. -/
def awaited (client : ChromecastClient) : Option ChannelId → List UInt64
  | none =>
      (client.receiverChannel.requests.requestIdToRequest ()).map Prod.fst
  | some channel =>
      (client.mediaChannels.requests.requestIdToRequest
        (.media channel)).map Prod.fst

/-- The `requestId` members of the requests sent, in the order of the
frames. -/
def sentIds (client : ChromecastClient) : List Json :=
  (client.frames.filter (·.IsRequest)).map
    fun frame => frame.document.get (lit "requestId")

/-- An id names one request of one channel, and ids only grow on the wire,
across all channels. -/
structure OneCounter (client : ChromecastClient) : Prop where
  unshared : ∀ {first second id}, id ∈ client.awaited first →
    id ∈ client.awaited second → first = second
  bounded : ∀ channel, ∀ id ∈ client.awaited channel,
    id ≤ client.receiverChannel.requests.requestId
  wire : ∃ ids : List UInt64, client.sentIds = ids.map Json.uint ∧
    ids.Pairwise (· < ·) ∧ 0 ∉ ids ∧
      ∀ id ∈ ids, id ≤ client.receiverChannel.requests.requestId

/-- What the channels of one process know of each other. -/
structure Counted (client : ChromecastClient) : Prop where
  receiver : client.receiverChannel.requests.Consistent
  media : client.mediaChannels.requests.Consistent
  requestId : client.mediaChannels.requests.requestId =
    client.receiverChannel.requests.requestId
  drawn : client.mediaChannels.requests.drawn =
    client.receiverChannel.requests.drawn

/-- The value of an id; a document that carries none has none. -/
def idValue : Json → ℕ
  | .uint id => id.toNat
  | _ => 0

/-- The counter, the tables and the wire of a client. -/
def freshIds (client : ChromecastClient) : FreshIds (Option ChannelId) ℕ where
  counter := client.receiverChannel.requests.requestId.toNat
  pending channel := {name | ∃ id ∈ client.awaited channel, id.toNat = name}
  sent := client.sentIds.map idValue

section Parts

variable {platform : Platform} {named : StdString → Prop}
  {client next : ChromecastClient}

theorem Unmoved.counted (hsame : Unmoved client next) (h : client.Counted) :
    next.Counted where
  receiver := hsame.receiver ▸ h.receiver
  media := hsame.media ▸ h.media
  requestId := by
    rw [hsame.receiver, hsame.media]
    exact h.requestId
  drawn := by
    rw [hsame.receiver, hsame.media]
    exact h.drawn

theorem sentIds_append {frames : List Frame}
    (hframes : next.frames = client.frames ++ frames) :
    next.sentIds = client.sentIds ++ (frames.filter (·.IsRequest)).map
      fun frame => frame.document.get (lit "requestId") := by
  unfold sentIds
  rw [hframes, List.filter_append, List.map_append]

/-- Frames of other namespaces carry no ids. -/
theorem sentIds_eq_of_append {frames : List Frame}
    (hframes : next.frames = client.frames ++ frames)
    (hother : ∀ frame ∈ frames, ¬frame.IsRequest) :
    next.sentIds = client.sentIds := by
  have hnone : frames.filter (·.IsRequest) = [] := by
    rw [List.filter_eq_nil_iff]
    intro frame hframe
    simpa using hother frame hframe
  rw [sentIds_append hframes, hnone, List.map_nil, List.append_nil]

/-- Every document a channel sends through is a request frame. -/
theorem sentIds_of_documents {documents : List Json}
    {frameOf : Json → Frame}
    (hframes : next.frames = client.frames ++ documents.map frameOf)
    (hrequest : ∀ document, (frameOf document).IsRequest)
    (hdocument : ∀ document, (frameOf document).document = document) :
    next.sentIds = client.sentIds ++
      documents.map (Json.get (lit "requestId")) := by
  rw [sentIds_append hframes]
  congr 1
  rw [List.filter_eq_self.mpr]
  · simp [Function.comp_def, hdocument]
  · intro frame hframe
    obtain ⟨document, -, rfl⟩ := List.mem_map.mp hframe
    simpa using hrequest document

/-- Less may be awaited, and nothing is drawn. -/
theorem release_of_kept
    (hrequestId : next.receiverChannel.requests.requestId =
      client.receiverChannel.requests.requestId)
    (hawaited : ∀ channel, ∀ id ∈ next.awaited channel,
      id ∈ client.awaited channel)
    (hsent : next.sentIds = client.sentIds) :
    FreshIds.Step client.freshIds next.freshIds := by
  refine .release ?_ ?_ ?_
  · exact congrArg UInt64.toNat hrequestId
  · rintro channel name ⟨id, hid, rfl⟩
    exact ⟨id, hawaited channel id hid, rfl⟩
  · exact congrArg (List.map idValue) hsent

/-- One table draws the next id. -/
theorem draw_of_drew (table : Option ChannelId)
    (hlt : client.receiverChannel.requests.requestId <
      next.receiverChannel.requests.requestId)
    (hawaited : ∀ channel, ∀ id ∈ next.awaited channel,
      id ∈ client.awaited channel ∨
        (channel = table ∧ id = next.receiverChannel.requests.requestId))
    (hsent : next.sentIds = client.sentIds ∨ next.sentIds =
      client.sentIds ++ [.uint next.receiverChannel.requests.requestId]) :
    FreshIds.Step client.freshIds next.freshIds := by
  refine .draw table (UInt64.lt_iff_toNat_lt.mp hlt) ?_ ?_
  · rintro channel name ⟨id, hid, rfl⟩
    rcases hawaited channel id hid with hold | ⟨hchannel, hnew⟩
    · exact Or.inl ⟨id, hold, rfl⟩
    · exact Or.inr ⟨hchannel, congrArg UInt64.toNat hnew⟩
  · apply hsent.imp (congrArg (List.map idValue))
    intro hmore
    have hmap := congrArg (List.map idValue) hmore
    rw [List.map_append] at hmap
    exact hmap

/-- A part keeps the channels of the process in step, and draws or releases
ids. -/
structure Draws (client next : ChromecastClient) : Prop where
  counted : next.Counted
  step : FreshIds.Step client.freshIds next.freshIds

theorem Counted.setReceiverChannel {rapid : RapidJson} (h : client.Counted)
    {channel : ReceiverChannel PlayerId}
    (hmoved : Requests.Moved rapid client.receiverChannel.requests
      channel.requests) (hdrawn : channel.requests.drawn < 2 ^ 64) :
    Draws client (client.setReceiverChannel channel) := by
  have hchannel := h.receiver.moved hmoved hdrawn
  have hsent : (client.setReceiverChannel channel).sentIds =
      client.sentIds ++ (client.receiverChannel.requests.documentsSince
        channel.requests).map (Json.get (lit "requestId")) :=
    sentIds_of_documents rfl (fun _ => Or.inl rfl) fun _ => rfl
  have hle : client.receiverChannel.requests.requestId ≤
      channel.requests.requestId := by
    rw [UInt64.le_iff_toNat_le, h.receiver.counter, hchannel.counter]
    exact hmoved.drawn_le
  refine ⟨⟨hchannel, ?_, rfl, rfl⟩, ?_⟩
  · exact h.media.follow hchannel (h.requestId ▸ hle)
  · cases h.receiver.idCase hmoved with
    | kept hrequestId hsame hentries hsilent =>
        refine release_of_kept hrequestId ?_ ?_
        · intro table id hid
          cases table with
          | none =>
              obtain ⟨entry, hentry, rfl⟩ := List.mem_map.mp hid
              exact List.mem_map_of_mem (hentries () entry hentry)
          | some _ => exact hid
        · rw [hsent, hsilent, List.map_nil, List.append_nil]
    | drew _ hrequestId hsame hentries hdocuments =>
        refine draw_of_drew none ?_ ?_ ?_
        · change _ < channel.requests.requestId
          rw [hrequestId]
          exact h.receiver.counter_lt (hsame ▸ hdrawn)
        · intro table id hid
          cases table with
          | none =>
              obtain ⟨entry, hentry, rfl⟩ := List.mem_map.mp hid
              rcases hentries () entry hentry with hold | ⟨-, hnew⟩
              · exact Or.inl (List.mem_map_of_mem hold)
              · exact Or.inr ⟨rfl, hnew⟩
          | some _ => exact Or.inl hid
        · rw [hsent]
          rcases hdocuments with hsilent | ⟨document, hone, hid⟩
          · rw [hsilent]
            exact Or.inl (List.append_nil _)
          · rw [hone, List.map_singleton, hid]
            exact Or.inr rfl

theorem Counted.setMediaChannels {rapid : RapidJson} (h : client.Counted)
    {channel : ChannelId} {address : Address} {channels : Channels}
    (hnamespace : address.namespaceId = mediaNamespace)
    (hmoved : Requests.Moved rapid client.mediaChannels.requests
      channels.requests) (hdrawn : channels.requests.drawn < 2 ^ 64) :
    Draws client (client.setMediaChannels channel address channels) := by
  have hchannels := h.media.moved hmoved hdrawn
  have hsent : (client.setMediaChannels channel address channels).sentIds =
      client.sentIds ++ (client.mediaChannels.requests.documentsSince
        channels.requests).map (Json.get (lit "requestId")) :=
    sentIds_of_documents rfl (fun _ => Or.inr hnamespace) fun _ => rfl
  have hle : client.mediaChannels.requests.requestId ≤
      channels.requests.requestId := by
    rw [UInt64.le_iff_toNat_le, h.media.counter, hchannels.counter]
    exact hmoved.drawn_le
  refine ⟨⟨?_, hchannels, rfl, rfl⟩, ?_⟩
  · exact h.receiver.follow hchannels (h.requestId ▸ hle)
  · cases h.media.idCase hmoved with
    | kept hrequestId hsame hentries hsilent =>
        refine release_of_kept (hrequestId.trans h.requestId) ?_ ?_
        · intro table id hid
          cases table with
          | none => exact hid
          | some other =>
              obtain ⟨entry, hentry, rfl⟩ := List.mem_map.mp hid
              exact List.mem_map_of_mem (hentries (.media other) entry hentry)
        · rw [hsent, hsilent, List.map_nil, List.append_nil]
    | drew drawer hrequestId hsame hentries hdocuments =>
        have hlt : client.receiverChannel.requests.requestId <
            channels.requests.requestId := by
          rw [← h.requestId, hrequestId]
          exact h.media.counter_lt (hsame ▸ hdrawn)
        have hwire : (client.setMediaChannels channel address
            channels).sentIds = client.sentIds ∨
              (client.setMediaChannels channel address channels).sentIds =
                client.sentIds ++ [.uint channels.requests.requestId] := by
          rw [hsent]
          rcases hdocuments with hsilent | ⟨document, hone, hid⟩
          · rw [hsilent]
            exact Or.inl (List.append_nil _)
          · rw [hone, List.map_singleton, hid]
            exact Or.inr rfl
        cases drawer with
        | receiver index =>
            -- no client asks through these; what is awaited stays the same
            refine draw_of_drew none hlt (fun table id hid => ?_) hwire
            cases table with
            | none => exact Or.inl hid
            | some other =>
                obtain ⟨entry, hentry, rfl⟩ := List.mem_map.mp hid
                rcases hentries (.media other) entry hentry with
                  hold | ⟨hother, -⟩
                · exact Or.inl (List.mem_map_of_mem hold)
                · cases hother
        | media index =>
            refine draw_of_drew (some index) hlt (fun table id hid => ?_)
              hwire
            cases table with
            | none => exact Or.inl hid
            | some other =>
                obtain ⟨entry, hentry, rfl⟩ := List.mem_map.mp hid
                rcases hentries (.media other) entry hentry with
                  hold | ⟨hother, hnew⟩
                · exact Or.inl (List.mem_map_of_mem hold)
                · cases hother
                  exact Or.inr ⟨rfl, hnew⟩

/-- What happens to the requests of the process without a call. -/
theorem Counted.kept (h : client.Counted)
    (hreceiver : next.receiverChannel.requests =
      client.receiverChannel.requests)
    (hmedia : next.mediaChannels.requests.Consistent)
    (hrequestId : next.mediaChannels.requests.requestId =
      client.mediaChannels.requests.requestId)
    (hdrawn : next.mediaChannels.requests.drawn =
      client.mediaChannels.requests.drawn)
    (hentries : ∀ channel, ∀ entry ∈
      next.mediaChannels.requests.requestIdToRequest channel,
        entry ∈ client.mediaChannels.requests.requestIdToRequest channel)
    (hsent : next.sentIds = client.sentIds) : Draws client next := by
  refine ⟨⟨hreceiver ▸ h.receiver, hmedia, ?_, ?_⟩,
    release_of_kept (by rw [hreceiver]) (fun table id hid => ?_) hsent⟩
  · rw [hreceiver, hrequestId]
    exact h.requestId
  · rw [hreceiver, hdrawn]
    exact h.drawn
  · cases table with
    | none =>
        unfold awaited at hid
        rw [hreceiver] at hid
        exact hid
    | some channel =>
        obtain ⟨entry, hentry, rfl⟩ := List.mem_map.mp hid
        exact List.mem_map_of_mem (hentries (.media channel) entry hentry)

theorem Part.draws (h : Part platform named client next)
    (hcounted : client.Counted)
    (hdrawn : next.receiverChannel.requests.drawn < 2 ^ 64) :
    Draws client next := by
  have hsilent : ∀ frames : List Frame, (∀ frame ∈ frames,
      frame.address.namespaceId ≠ receiverNamespace ∧
        frame.address.namespaceId ≠ mediaNamespace) →
      ∀ frame ∈ frames, ¬frame.IsRequest := by
    intro frames hframes frame hframe hrequest
    rcases hrequest with hreceiver | hmedia
    · exact (hframes frame hframe).1 hreceiver
    · exact (hframes frame hframe).2 hmedia
  cases h with
  | unseen _ hsame =>
      refine hcounted.kept hsame.receiver (hsame.media ▸ hcounted.media)
        (by rw [hsame.media]) (by rw [hsame.media]) ?_ ?_
      · rw [hsame.media]
        exact fun _ _ => id
      · unfold sentIds
        rw [hsame.frames]
  | receiver channel hmoved =>
      exact hcounted.setReceiverChannel hmoved hdrawn
  | media channel address channels haddress hmoved =>
      exact hcounted.setMediaChannels (mediaAddress?_eq_some haddress).2
        hmoved hdrawn
  | heartbeat channel =>
      refine hcounted.kept rfl hcounted.media rfl rfl (fun _ _ => id)
        (sentIds_eq_of_append rfl (hsilent _ fun frame hframe => ?_))
      obtain ⟨document, -, rfl⟩ := List.mem_map.mp hframe
      exact ⟨show heartbeatNamespace ≠ receiverNamespace by decide,
        show heartbeatNamespace ≠ mediaNamespace by decide⟩
  | control issuer address type hnamespace =>
      refine hcounted.kept rfl hcounted.media rfl rfl (fun _ _ => id)
        (sentIds_eq_of_append rfl (hsilent _ fun frame hframe => ?_))
      rw [List.mem_singleton.mp hframe, hnamespace]
      decide
  | expired timer requests hexpire =>
      have hsame := Requests.sameIds_of_expire hexpire
      refine hcounted.kept rfl (hcounted.media.of_sameIds hsame)
        hsame.requestId hsame.drawn ?_ rfl
      intro channel entry hentry
      exact hsame.table ▸ hentry
  | constructed =>
      exact hcounted.kept rfl hcounted.media rfl rfl (fun _ _ => id) rfl
  | destroyed channel _ _ hnext =>
      obtain ⟨router, -, rfl⟩ := Option.map_eq_some_iff.mp hnext
      refine hcounted.kept rfl
        (hcounted.media.destroyChannel (.media channel)) rfl rfl ?_ rfl
      intro other entry hentry
      change entry ∈ Function.update
        client.mediaChannels.requests.requestIdToRequest (.media channel) []
        other at hentry
      by_cases hother : other = .media channel
      · rw [hother, Function.update_self] at hentry
        contradiction
      · rw [Function.update_of_ne hother] at hentry
        exact hentry

/-- The channels agree on how many ids were drawn, and only draw more. -/
theorem Part.drawn (h : Part platform named client next)
    (hsame : client.mediaChannels.requests.drawn =
      client.receiverChannel.requests.drawn) :
    next.mediaChannels.requests.drawn =
        next.receiverChannel.requests.drawn ∧
      client.receiverChannel.requests.drawn ≤
        next.receiverChannel.requests.drawn := by
  cases h with
  | unseen _ hunmoved =>
      rw [hunmoved.receiver, hunmoved.media]
      exact ⟨hsame, Nat.le_refl _⟩
  | receiver channel hmoved => exact ⟨rfl, hmoved.drawn_le⟩
  | media channel address channels haddress hmoved =>
      exact ⟨rfl, hsame ▸ hmoved.drawn_le⟩
  | heartbeat => exact ⟨hsame, Nat.le_refl _⟩
  | control => exact ⟨hsame, Nat.le_refl _⟩
  | expired timer requests hexpire =>
      exact ⟨(Requests.sameIds_of_expire hexpire).drawn.trans hsame,
        Nat.le_refl _⟩
  | constructed => exact ⟨hsame, Nat.le_refl _⟩
  | destroyed channel _ _ hnext =>
      obtain ⟨router, -, rfl⟩ := Option.map_eq_some_iff.mp hnext
      exact ⟨hsame, Nat.le_refl _⟩

theorem drawn_of_parts (h : Parts platform named client next)
    (hsame : client.mediaChannels.requests.drawn =
      client.receiverChannel.requests.drawn) :
    next.mediaChannels.requests.drawn =
        next.receiverChannel.requests.drawn ∧
      client.receiverChannel.requests.drawn ≤
        next.receiverChannel.requests.drawn := by
  induction h with
  | refl => exact ⟨hsame, Nat.le_refl _⟩
  | tail _ hlast ih =>
      obtain ⟨hagree, hle⟩ := hlast.drawn ih.1
      exact ⟨hagree, ih.2.trans hle⟩

/-- The client refines the counter with its tables. -/
theorem Counted.parts (hcounted : client.Counted)
    (h : Parts platform named client next)
    (hdrawn : next.receiverChannel.requests.drawn < 2 ^ 64) :
    next.Counted ∧
      ReflTransGen FreshIds.Step client.freshIds next.freshIds := by
  induction h with
  | refl => exact ⟨hcounted, .refl⟩
  | tail hbefore hlast ih =>
      have hagree := (drawn_of_parts hbefore hcounted.drawn).1
      obtain ⟨hmid, hsteps⟩ :=
        ih (Nat.lt_of_le_of_lt (hlast.drawn hagree).2 hdrawn)
      obtain ⟨hnext, hstep⟩ := hlast.draws hmid hdrawn
      exact ⟨hnext, hsteps.tail hstep⟩

end Parts

/-! ## Runs -/

theorem uint_of_idValue_pos {value : Json} (hpos : 0 < idValue value) :
    value = .uint (UInt64.ofNat (idValue value)) := by
  cases value with
  | uint id => simp [idValue]
  | null | bool | negInt | double | string | array | object =>
      exact absurd hpos (Nat.lt_irrefl _)

theorem oneCounter_of_sound {client : ChromecastClient}
    (hsound : client.freshIds.Sound 0) : client.OneCounter where
  unshared {first second id} hfirst hsecond :=
    hsound.unshared ⟨id, hfirst, rfl⟩ ⟨id, hsecond, rfl⟩
  bounded channel id hid :=
    UInt64.le_iff_toNat_le.mpr (hsound.pending_le channel _ ⟨id, hid, rfl⟩)
  wire := by
    have hvalue : ∀ value ∈ client.sentIds,
        value = .uint (UInt64.ofNat (idValue value)) ∧
          (UInt64.ofNat (idValue value)).toNat = idValue value := by
      intro value hmem
      have hpos := hsound.floor_lt _ (List.mem_map_of_mem hmem)
      refine ⟨uint_of_idValue_pos hpos, ?_⟩
      have hread := congrArg idValue (uint_of_idValue_pos hpos)
      exact hread.symm
    refine ⟨client.sentIds.map fun value => UInt64.ofNat (idValue value),
      ?_, ?_, ?_, ?_⟩
    · rw [List.map_map]
      conv_lhs => rw [← List.map_id client.sentIds]
      exact List.map_congr_left fun value hmem => (hvalue value hmem).1
    · have hincreasing := List.pairwise_map.mp hsound.increasing
      rw [List.pairwise_map]
      refine hincreasing.imp_of_mem ?_
      intro first second hfirst hsecond hlt
      rw [UInt64.lt_iff_toNat_lt, (hvalue first hfirst).2,
        (hvalue second hsecond).2]
      exact hlt
    · intro hzero
      obtain ⟨value, hmem, hid⟩ := List.mem_map.mp hzero
      have hpos := hsound.floor_lt _ (List.mem_map_of_mem hmem)
      rw [← (hvalue value hmem).2, hid] at hpos
      exact absurd hpos (Nat.lt_irrefl _)
    · intro id hid
      obtain ⟨value, hmem, rfl⟩ := List.mem_map.mp hid
      rw [UInt64.le_iff_toNat_le, (hvalue value hmem).2]
      exact hsound.sent_le _ (List.mem_map_of_mem hmem)

/-- In every run of a client that draws fewer than `2 ^ 64` ids, whatever
players come and go and however requests are answered and retransmitted: no id
is pending on two channels, and the request frames of all channels together
carry increasing ids, none of them zero. -/
theorem oneCounter_of_run {platform : Platform} {memory : Memory}
    {client last : ChromecastClient} {events : List Event}
    (hconstruct : construct platform memory = some client)
    (hrun : exec (step platform) client events = some last)
    (hdrawn : last.receiverChannel.requests.drawn < 2 ^ 64) :
    last.OneCounter := by
  have hstart := (constructed hconstruct).rest
  have hcounted : client.Counted := by
    rw [hstart]
    exact ⟨Requests.consistent_empty, Requests.consistent_empty, rfl, rfl⟩
  have hempty : client.freshIds = ⟨0, fun _ => ∅, []⟩ := by
    rw [hstart]
    unfold freshIds
    congr 1
    funext channel
    rw [Set.eq_empty_iff_forall_notMem]
    rintro name ⟨id, hid, -⟩
    cases channel <;> cases hid
  have hsteps := (hcounted.parts
    (parts_of_run (orderly_of_construct hconstruct) hrun) hdrawn).2
  have hsound : client.freshIds.Sound 0 := hempty ▸ FreshIds.sound_start 0
  exact oneCounter_of_sound (hsound.steps hsteps)

/-- A player is launched, found and asked for its status, and its request and
one of the user wait together. -/
theorem oneCounter_of_run_launched :
    ∃ client last, construct textPlatform ReceiverChannel.cleared =
        some client ∧
      exec (step textPlatform) client
        (launchedRun [] ++ [.getStatus true (.ok ())]) = some last ∧
      last.awaited none = [1, 3] ∧ last.awaited (some 4) = [2] ∧
      last.OneCounter := by
  have hsome : (construct textPlatform ReceiverChannel.cleared).any
      fun client => (exec (step textPlatform) client
        (launchedRun [] ++ [.getStatus true (.ok ())])).any fun last =>
          decide (last.awaited none = [1, 3] ∧
            last.awaited (some 4) = [2] ∧
            last.receiverChannel.requests.drawn < 2 ^ 64) := by
    decide +kernel
  obtain ⟨client, hconstruct, hany⟩ := (Option.any_eq_true _ _).mp hsome
  obtain ⟨last, hlast, hreads⟩ := (Option.any_eq_true _ _).mp hany
  obtain ⟨hreceiver, hmedia, hdrawn⟩ := of_decide_eq_true hreads
  exact ⟨client, last, hconstruct, hlast, hreceiver, hmedia,
    oneCounter_of_run hconstruct hlast hdrawn⟩

end ChromecastClient

end LibChromecast
