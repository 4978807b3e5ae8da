import LibChromecast.ClientRequests
import LibChromecast.EndpointRuns

/-!
# What the client makes of what it hears

Whose channel a message reaches, and what a run leaves of it: an answer
releases the request it answers for good, and a PING is answered by a PONG,
whatever else the client does before and after.
-/

namespace LibChromecast

open Foundation Foundation.Transition Relation

/-! ## One channel -/

namespace ReceiverChannel

variable {α : Type} {rapid : RapidJson} {getId : α → StdString}

/-- A message with the id of a request leaves none of them pending. -/
theorem settled_of_onMessage {channel : ReceiverChannel α}
    {payload : StdString} {ending : Outcome Unit} {response : Response}
    (hconsistent : channel.requests.Consistent)
    (hresponse : incoming rapid payload = .ok (some response))
    (hid : response.requestId ≠ 0) :
    ∀ entry ∈ (channel.onMessage rapid getId ending
        payload).2.requests.requestIdToRequest (),
      entry.1 ≠ response.requestId := by
  unfold onMessage
  rw [hresponse]
  dsimp only
  unfold onResponse
  rw [if_pos hid]
  split
  next hnone =>
    exact (RequestMap.find?_eq_none_iff (hconsistent.sorted ())).mp hnone
  next request hsome =>
    intro entry hentry
    dsimp only at hentry
    rw [invoke_requests] at hentry
    exact ((Requests.mem_onResponse_table hconsistent.sorted).mp hentry).2
      rfl

end ReceiverChannel

namespace Channels

variable {rapid : RapidJson}

/-- So does one that a media channel handles. -/
theorem settled_of_onMessage {channels : Channels} {channel : ChannelId}
    {payload : StdString} {ending : Outcome Unit} {response : Response}
    {handled : Bool} (hconsistent : channels.requests.Consistent)
    (hresponse : incoming rapid payload = .ok (some response))
    (hid : response.requestId ≠ 0)
    (hhandled : (channels.onMessage rapid (.media channel) payload
      ending).1 = .ok handled) :
    ∀ entry ∈ (channels.onMessage rapid (.media channel) payload
        ending).2.requests.requestIdToRequest (.media channel),
      entry.1 ≠ response.requestId := by
  unfold onMessage at hhandled ⊢
  dsimp only at hhandled ⊢
  rw [hresponse] at hhandled ⊢
  dsimp only at hhandled ⊢
  unfold mediaOnResponse at hhandled ⊢
  split at hhandled
  next => cases hhandled
  next status? _ =>
    rw [if_neg hid]
    intro entry hentry
    rw [onResponse_requests] at hentry
    have htable : entry ∈ (channels.requests.onResponse (.media channel)
        response.requestId).2.requestIdToRequest (.media channel) := by
      cases status? <;> exact hentry
    exact ((Requests.mem_onResponse_table hconsistent.sorted).mp htable).2 rfl

end Channels

namespace HeartbeatChannel

variable {rapid : RapidJson} {channel : HeartbeatChannel}

def isPong (document : Json) : Bool :=
  match (document.get (lit "type")).getString with
  | .ok type => type = lit "PONG"
  | .error _ => false

/-- A PING is handled only if its PONG is sent. -/
theorem sending_of_handled {payload : StdString} {sending : Outcome Unit}
    {handled : Bool}
    (hhandled : (channel.onMessage rapid payload sending).1 = .ok handled)
    (hping : isPing rapid payload = true) : sending = .ok () := by
  unfold isPing at hping
  unfold onMessage at hhandled
  dsimp only at hping hhandled
  split at hping
  next type htype =>
    have hsame : type = lit "PING" := of_decide_eq_true hping
    rw [htype] at hhandled
    dsimp only at hhandled
    rw [hsame, if_neg (by decide), if_neg (by simp)] at hhandled
    cases sending with
    | error fault => cases hhandled
    | ok _ => rfl
  next => cases hping

theorem frames_of_handled {payload : StdString} {sending : Outcome Unit}
    {handled : Bool}
    (hhandled : (channel.onMessage rapid payload sending).1 =
      .ok handled) :
    (channel.onMessage rapid payload sending).2.frames = channel.frames ++
      if isPing rapid payload then [pong] else [] := by
  rcases onMessage_cases rapid channel payload sending with
    ⟨hnot, hsame⟩ | ⟨⟨hping, -⟩, hanswered⟩
  · have hother : isPing rapid payload ≠ true := fun hping =>
      hnot ⟨hping, sending_of_handled hhandled hping⟩
    rw [hsame, if_neg hother, List.append_nil]
  · rw [hanswered, if_pos hping]
    rfl

end HeartbeatChannel

/-- A text that asks for a PONG. -/
def CastMessage.IsPing (rapid : RapidJson) (message : CastMessage) : Prop :=
  message.payloadType = .string ∧
    HeartbeatChannel.isPing rapid message.payloadUtf8 = true

instance (rapid : RapidJson) (message : CastMessage) :
    Decidable (message.IsPing rapid) :=
  inferInstanceAs (Decidable (_ ∧ _))

namespace ChromecastClient

variable {platform : Platform} {named : StdString → Prop}
  {client next last : ChromecastClient}

/-! ## Whose channel it is -/

/-- Ids of channels are not shared, and a channel of another namespace than
those of players is one of the client itself or of other code. -/
structure Housed (client : ChromecastClient) : Prop where
  nodup : (client.router.live.map Prod.fst).Nodup
  placed : ∀ object ∈ client.router.live,
    object.1 < ownChannels ∨ object.1 ∈ client.others ∨
      object.2.namespaceId = connectionNamespace ∨
        object.2.namespaceId = mediaNamespace

theorem Part.housed (h : Part platform named client next)
    (hhoused : client.Housed) : next.Housed := by
  cases h with
  | unseen _ hsame =>
      constructor
      · exact hsame.router ▸ hhoused.nodup
      · rw [hsame.router, hsame.others]
        exact hhoused.placed
  | receiver | media | heartbeat | control | expired =>
      exact ⟨hhoused.nodup, hhoused.placed⟩
  | constructed address others outcome router _ hplaces hconstruct =>
      have hkept : ∀ object ∈ client.router.live,
          object.1 < ownChannels ∨ object.1 ∈ others ∨
            object.2.namespaceId = connectionNamespace ∨
              object.2.namespaceId = mediaNamespace := by
        intro object hobject
        apply (hhoused.placed object hobject).imp_right
        apply Or.imp_left
        intro hother
        rcases hplaces with rfl | ⟨rfl, -⟩
        · exact List.mem_cons_of_mem _ hother
        · exact hother
      obtain ⟨hnew, hcase⟩ := Router.construct_inserted hconstruct
      rcases hcase with ⟨_, _, -, hsame, -⟩ | ⟨-, hadded, -⟩
      · constructor
        · change (router.live.map Prod.fst).Nodup
          exact hsame ▸ hhoused.nodup
        · change ∀ object ∈ router.live, _
          exact hsame ▸ hkept
      · constructor
        · change (router.live.map Prod.fst).Nodup
          rw [hadded, List.map_cons, List.nodup_cons]
          exact ⟨hnew, hhoused.nodup⟩
        · change ∀ object ∈ router.live, _
          rw [hadded, List.forall_mem_cons]
          refine ⟨?_, hkept⟩
          rcases hplaces with rfl | ⟨-, hown | hplayer⟩
          · exact Or.inr (Or.inl (List.mem_cons_self ..))
          · exact Or.inl hown
          · exact Or.inr (Or.inr hplayer)
  | destroyed channel _ _ hnext =>
      obtain ⟨router, hrouter, rfl⟩ := Option.map_eq_some_iff.mp hnext
      obtain ⟨_, _, -, -, hfiltered, -⟩ := Router.destroy_inserted hrouter
      constructor
      · change (router.live.map Prod.fst).Nodup
        rw [hfiltered]
        exact hhoused.nodup.sublist (List.filter_sublist.map _)
      · intro object hobject
        change object ∈ router.live at hobject
        rw [hfiltered] at hobject
        exact hhoused.placed object (List.mem_of_mem_filter hobject)

theorem housed_of_parts (h : Parts platform named client next)
    (hhoused : client.Housed) : next.Housed := by
  induction h with
  | refl => exact hhoused
  | tail _ hlast ih => exact hlast.housed ih

theorem housed_of_construct {memory : Memory}
    (h : construct platform memory = some client) : client.Housed := by
  have hempty : Housed
      { receiverChannel := .construct memory : ChromecastClient } := by
    refine ⟨List.nodup_nil, fun object hobject => ?_⟩
    cases hobject
  have hparts : Parts platform (fun _ => True)
      { receiverChannel := .construct memory } client :=
    parts_of_construct trivial h
  exact housed_of_parts hparts hempty

theorem Housed.address_eq (h : client.Housed) {channel : ChannelId}
    {first second : Address} (hfirst : (channel, first) ∈ client.router.live)
    (hsecond : (channel, second) ∈ client.router.live) : first = second :=
  (Prod.mk.inj (List.inj_on_of_nodup_map h.nodup hfirst hsecond rfl)).2

theorem Housed.find?_live (h : client.Housed) {channel : ChannelId}
    {address : Address} (hlive : (channel, address) ∈ client.router.live) :
    client.router.live.find? (fun object => object.1 = channel) =
      some (channel, address) := by
  cases hfind : client.router.live.find?
      (fun object => object.1 = channel) with
  | none =>
      have hnone := List.find?_eq_none.mp hfind (channel, address) hlive
      simp at hnone
  | some object =>
      obtain ⟨id, own⟩ := object
      have hfound := List.find?_some hfind
      have hid : id = channel := of_decide_eq_true hfound
      subst hid
      rw [h.address_eq (List.mem_of_find?_eq_some hfind) hlive]

/-- The channels of the client itself are there. -/
structure Equipped (client : ChromecastClient) : Prop extends
    Housed client where
  receiver : (0, ownAddress receiverNamespace) ∈ client.router.live
  heartbeat : (1, ownAddress heartbeatNamespace) ∈ client.router.live
  connection : (2, ownAddress connectionNamespace) ∈ client.router.live

theorem equipped_of_parts (h : Parts platform named client next)
    (hequipped : client.Equipped) : next.Equipped where
  toHoused := housed_of_parts h hequipped.toHoused
  receiver := kept_of_parts h (by decide) hequipped.receiver
  heartbeat := kept_of_parts h (by decide) hequipped.heartbeat
  connection := kept_of_parts h (by decide) hequipped.connection

theorem equipped_of_construct {memory : Memory}
    (h : construct platform memory = some client) : client.Equipped where
  toHoused := housed_of_construct h
  receiver := (live_of_construct h).2.1
  heartbeat := (live_of_construct h).2.2.1
  connection := (live_of_construct h).2.2.2

/-- A channel of the heartbeat's namespace that is none of other code is the
heartbeat channel. -/
theorem Equipped.eq_heartbeat (h : client.Equipped) {channel : ChannelId}
    {address : Address} (hlive : (channel, address) ∈ client.router.live)
    (hnamespace : address.namespaceId = heartbeatNamespace)
    (hother : channel ∉ client.others) : channel = 1 := by
  rcases h.placed _ hlive with hown | hforeign | hconnection | hmedia
  · rcases Nat.lt_succ_iff_lt_or_eq.mp hown with hless | rfl
    · rcases Nat.lt_succ_iff_lt_or_eq.mp hless with hzero | rfl
      · obtain rfl : channel = 0 := Nat.lt_one_iff.mp hzero
        rw [h.address_eq hlive h.receiver] at hnamespace
        exact absurd hnamespace (by decide)
      · rfl
    · rw [h.address_eq hlive h.connection] at hnamespace
      exact absurd hnamespace (by decide)
  · exact absurd hforeign hother
  · exact absurd (hnamespace.symm.trans hconnection) (by decide)
  · exact absurd (hnamespace.symm.trans hmedia) (by decide)

/-! ## Calls that do not raise -/

/-- Messages come from the connection alone, and the `OnMessage` that is
called returns. -/
def Move.Accepted (platform : Platform) (client : ChromecastClient) :
    Move → Prop
  | .call event => Endpoint.IsLocal event
  | .hear channel message reply => ∃ next,
      client.onMessage platform channel message reply = some (.ok (), next)

theorem onText_of_accepted {channel : ChannelId} {message : CastMessage}
    {reply : Reply} (hother : channel ∉ client.others)
    (hstring : message.payloadType = .string)
    (h : client.onMessage platform channel message reply =
      some (.ok (), next)) :
    ∃ handled, client.onText platform channel message.payloadUtf8 reply =
      some (.ok handled, next) := by
  unfold onMessage at h
  rw [if_neg hother, hstring] at h
  dsimp only at h
  split at h
  next => cases h
  next => cases h
  next => cases h
  next after hafter =>
    cases h
    exact ⟨true, hafter⟩
  next after hafter =>
    cases hafter' : onUnhandledMessage message with
    | error fault =>
        rw [hafter'] at h
        cases h
    | ok _ =>
        rw [hafter'] at h
        cases h
        exact ⟨false, hafter⟩

/-! ## Answers -/

/-- The requests which a channel with this address answers for. -/
def requestTable (channel : ChannelId) (address : Address) :
    Option ChannelId :=
  if address.namespaceId = receiverNamespace then none else some channel

/-- The counter never goes back. -/
theorem requestId_le_of_steps
    (hsteps : ReflTransGen FreshIds.Step client.freshIds next.freshIds) :
    client.receiverChannel.requests.requestId ≤
      next.receiverChannel.requests.requestId :=
  UInt64.le_iff_toNat_le.mpr (FreshIds.counter_le_of_steps hsteps)

theorem notMem_awaited_of_steps {table : Option ChannelId} {id : UInt64}
    (hdrawn : id ≤ client.receiverChannel.requests.requestId)
    (hgone : id ∉ client.awaited table)
    (hsteps : ReflTransGen FreshIds.Step client.freshIds next.freshIds) :
    id ∉ next.awaited table := by
  have hnone : id.toNat ∉ client.freshIds.pending table := by
    rintro ⟨other, hother, heq⟩
    exact hgone (UInt64.toNat_inj.mp heq ▸ hother)
  have hstill := FreshIds.not_pending_of_steps
    (UInt64.le_iff_toNat_le.mp hdrawn) hnone hsteps
  exact fun hmem => hstill ⟨id, hmem, rfl⟩

/-- An answer leaves the request it answers pending no more. -/
theorem settled_of_hear {channel : ChannelId} {address : Address}
    {message : CastMessage} {reply : Reply} {response : Response}
    (horderly : client.Orderly named)
    (hhash : named (hashSenderId platform)) (hcounted : client.Counted)
    (hhoused : client.Housed)
    (hlive : (channel, address) ∈ client.router.live)
    (hother : channel ∉ client.others)
    (hrequest : address.namespaceId = receiverNamespace ∨
      address.namespaceId = mediaNamespace)
    (hstring : message.payloadType = .string)
    (hresponse : incoming platform.rapid message.payloadUtf8 =
      .ok (some response)) (hid : response.requestId ≠ 0)
    (hasked : response.requestId ≤
      client.receiverChannel.requests.requestId)
    (hdrawn : next.receiverChannel.requests.drawn < 2 ^ 64)
    (h : client.onMessage platform channel message reply =
      some (.ok (), next)) :
    response.requestId ∉ next.awaited (requestTable channel address) := by
  obtain ⟨handled, htext⟩ := onText_of_accepted hother hstring h
  unfold onText at htext
  rw [hhoused.find?_live hlive] at htext
  dsimp only at htext
  rcases hrequest with hreceiver | hmedia
  · rw [if_pos hreceiver] at htext
    rw [requestTable, if_pos hreceiver]
    have hfirst : Part platform named client (client.setReceiverChannel _) :=
      part_receiverMessage message.payloadUtf8 reply.ending client
    have hlater := parts_after_receiver horderly hhash htext
    have hagree := hfirst.drawn hcounted.drawn
    have hmid := hfirst.draws hcounted (Nat.lt_of_le_of_lt
      (drawn_of_parts hlater hagree.1).2 hdrawn)
    obtain ⟨-, hsteps⟩ := hmid.counted.parts hlater hdrawn
    refine notMem_awaited_of_steps ?_ ?_ hsteps
    · exact UInt64.le_trans hasked
        (requestId_le_of_steps (.single hmid.step))
    · intro hmem
      obtain ⟨entry, hentry, heq⟩ := List.mem_map.mp hmem
      exact ReceiverChannel.settled_of_onMessage hcounted.receiver hresponse
        hid entry hentry heq
  · have hnotReceiver : address.namespaceId ≠ receiverNamespace := by
      rw [hmedia]
      decide
    have hnotHeartbeat : address.namespaceId ≠ heartbeatNamespace := by
      rw [hmedia]
      decide
    rw [if_neg hnotReceiver, if_neg hnotHeartbeat, if_pos hmedia] at htext
    rw [requestTable, if_neg hnotReceiver]
    obtain ⟨own, -, hhandled, rfl⟩ := onMediaChannel_cases htext
    intro hmem
    obtain ⟨entry, hentry, heq⟩ := List.mem_map.mp hmem
    exact Channels.settled_of_onMessage hcounted.media hresponse hid
      hhandled.symm entry hentry heq

/-! ## A channel in a run -/

theorem Part.live_of_old (h : Part platform named client next)
    {channel : ChannelId} {address : Address}
    (hold : channel < client.nextChannel)
    (hlive : (channel, address) ∈ next.router.live) :
    (channel, address) ∈ client.router.live := by
  cases h with
  | unseen _ hsame => exact hsame.router ▸ hlive
  | receiver | media | heartbeat | control | expired => exact hlive
  | constructed own others outcome router _ _ hconstruct =>
      obtain ⟨-, hcase⟩ := Router.construct_inserted hconstruct
      rcases hcase with ⟨_, _, -, hsame, -⟩ | ⟨-, hadded, -⟩
      · exact hsame ▸ hlive
      · change (channel, address) ∈ router.live at hlive
        rw [hadded] at hlive
        rcases List.mem_cons.mp hlive with heq | hthere
        · exact absurd (Prod.mk.inj heq).1 hold.ne
        · exact hthere
  | destroyed other _ _ hnext =>
      obtain ⟨router, hrouter, rfl⟩ := Option.map_eq_some_iff.mp hnext
      exact (subset_of_destroy hrouter).1 _ hlive

theorem Part.others_of_old (h : Part platform named client next)
    {channel : ChannelId} (hold : channel < client.nextChannel)
    (hother : channel ∈ next.others) : channel ∈ client.others := by
  cases h with
  | unseen _ hsame => exact hsame.others ▸ hother
  | receiver | media | heartbeat | control | expired => exact hother
  | constructed own others outcome router _ hplaces =>
      rcases hplaces with rfl | ⟨rfl, -⟩
      · rcases List.mem_cons.mp hother with heq | hthere
        · exact absurd heq hold.ne
        · exact hthere
      · exact hother
  | destroyed _ _ _ hnext =>
      obtain ⟨router, -, rfl⟩ := Option.map_eq_some_iff.mp hnext
      exact hother

/-- The channel, as long as it is there, has this address and is none of other
code. -/
structure Attends (named : StdString → Prop) (channel : ChannelId)
    (address : Address) (client : ChromecastClient) : Prop where
  orderly : client.Orderly named
  housed : client.Housed
  old : channel < client.nextChannel
  address_eq : ∀ own, (channel, own) ∈ client.router.live → own = address
  notOther : channel ∉ client.others

variable {channel : ChannelId} {address : Address}

theorem Part.attends (h : Part platform named client next)
    (hattends : client.Attends named channel address) :
    next.Attends named channel address where
  orderly := h.orderly hattends.orderly
  housed := h.housed hattends.housed
  old := hattends.old.trans_le h.nextChannel_le
  address_eq own hlive :=
    hattends.address_eq own (h.live_of_old hattends.old hlive)
  notOther hother :=
    hattends.notOther (h.others_of_old hattends.old hother)

theorem attends_of_parts (h : Parts platform named client next)
    (hattends : client.Attends named channel address) :
    next.Attends named channel address := by
  induction h with
  | refl => exact hattends
  | tail _ hlast ih => exact hlast.attends ih

theorem Attends.live_of_accepted {message : CastMessage} {reply : Reply}
    (hattends : client.Attends named channel address)
    (hstring : message.payloadType = .string)
    (h : client.onMessage platform channel message reply =
      some (.ok (), next)) :
    (channel, address) ∈ client.router.live := by
  obtain ⟨handled, htext⟩ :=
    onText_of_accepted hattends.notOther hstring h
  unfold onText at htext
  split at htext
  next => cases htext
  next id own hfind =>
    have hfound := List.find?_some hfind
    obtain rfl : id = channel := of_decide_eq_true hfound
    have hmem := List.mem_of_find?_eq_some hfind
    exact hattends.address_eq own hmem ▸ hmem

/-- An answer that is heard in a run settles the request it answers, for the
rest of the run. -/
theorem settled_of_moves {moves : List Move} {message : CastMessage}
    {reply : Reply} {response : Response}
    (hattends : client.Attends named channel address)
    (hhash : named (hashSenderId platform)) (hcounted : client.Counted)
    (hnames : ∀ move ∈ moves, Move.Named named move)
    (hexec : exec (perform platform) client moves = some last)
    (haccepted : Along (perform platform) (Move.Accepted platform) client
      moves)
    (hdrawn : last.receiverChannel.requests.drawn < 2 ^ 64)
    (hheard : .hear channel message reply ∈ moves)
    (hrequest : address.namespaceId = receiverNamespace ∨
      address.namespaceId = mediaNamespace)
    (hstring : message.payloadType = .string)
    (hresponse : incoming platform.rapid message.payloadUtf8 =
      .ok (some response)) (hid : response.requestId ≠ 0)
    (hasked : response.requestId ≤
      client.receiverChannel.requests.requestId) :
    response.requestId ∉ last.awaited (requestTable channel address) := by
  obtain ⟨early, late, rfl⟩ := List.append_of_mem hheard
  rw [List.forall_mem_append, List.forall_mem_cons] at hnames
  obtain ⟨hearly, hhear, hlate⟩ := hnames
  rw [exec_append] at hexec
  obtain ⟨before, hbefore, hrest⟩ := Option.bind_eq_some_iff.mp hexec
  obtain ⟨after, hafter, hlast⟩ := exec_cons_eq_some.mp hrest
  obtain ⟨heard, hreturned⟩ :=
    ((along_append.mp haccepted).2 before hbefore).1
  obtain rfl : heard = after := by
    rw [perform, hreturned] at hafter
    exact Option.some.inj hafter
  -- the answer comes between two parts of the run
  have hfirst := parts_of_moves hattends.orderly hhash hearly hbefore
  have hmid := attends_of_parts hfirst hattends
  have hsecond := parts_of_perform hmid.orderly hhash hhear hafter
  have hthird := parts_of_moves
    (orderly_of_parts hsecond hmid.orderly) hhash hlate hlast
  have hagree := drawn_of_parts hfirst hcounted.drawn
  have hagreeLater := drawn_of_parts hsecond hagree.1
  have hdrawnLater := Nat.lt_of_le_of_lt
    (drawn_of_parts hthird hagreeLater.1).2 hdrawn
  obtain ⟨hcountedMid, hsteps⟩ := hcounted.parts hfirst
    (Nat.lt_of_le_of_lt hagreeLater.2 hdrawnLater)
  obtain ⟨hcountedLater, hstep⟩ :=
    hcountedMid.parts hsecond hdrawnLater
  have haskedMid := UInt64.le_trans hasked (requestId_le_of_steps hsteps)
  have hsettled := settled_of_hear hmid.orderly hhash hcountedMid
    hmid.housed (hmid.live_of_accepted hstring hreturned) hmid.notOther
    hrequest hstring hresponse hid haskedMid hdrawnLater hreturned
  exact notMem_awaited_of_steps
    (UInt64.le_trans haskedMid (requestId_le_of_steps hstep)) hsettled
    (hcountedLater.parts hthird hdrawn).2

/-! ## Heartbeats -/

/-- What the heartbeat channel has sent. -/
def beats (client : ChromecastClient) : List Json :=
  client.heartbeatChannel.frames

/-- What an event makes the heartbeat channel send. -/
def beatsOf (platform : Platform) (client : ChromecastClient)
    (event : Event) : List Json :=
  match event.heartbeat with
  | none => []
  | some step => client.heartbeatChannel.sent platform.rapid step

theorem Destroyed.beats_eq (h : Destroyed client next) :
    next.beats = client.beats := by
  rw [h.rest]
  rfl

theorem LaunchCase.beats_eq {player : Option PlayerId}
    (h : LaunchCase platform client next player) :
    next.beats = client.beats := by
  cases player with
  | none =>
      cases h with
      | refused hnext =>
          rw [hnext]
          rfl
  | some player =>
      apply h.keeps
      · exact fun _ _ hcurrent _ => hcurrent
      · exact fun _ _ _ hcurrent => hcurrent
      · exact fun _ _ hcurrent hdestroyed => hdestroyed.beats_eq.trans hcurrent
      · exact fun _ _ hcurrent => hcurrent
      · rfl

theorem InitializeCase.beats_eq {player : PlayerId} {cause : Cause}
    {info : ApplicationInfo} {current : DefaultMediaPlayer}
    {connecting sending : Outcome Unit}
    (h : InitializeCase platform player cause info current sending client
      next connecting) : next.beats = client.beats := by
  cases h with
  | refused _ fault mid hcreated hnext =>
      rw [hnext, hcreated.rest]
      rfl
  | unconnected fault mid after hcreated hafter hnext =>
      rw [hnext, hcreated.rest]
      rfl
  | connected mid after _ address channels hcreated hafter hchannel
      haddress hchannels hnext =>
      rw [hnext, hcreated.rest]
      rfl

theorem beats_of_step {event : Event}
    (h : client.step platform event = some next) :
    next.beats = client.beats ++ client.beatsOf platform event := by
  have hsame : beatsOf platform client event = [] →
      next.beats = client.beats →
      next.beats = client.beats ++ client.beatsOf platform event := by
    intro hnothing hbeats
    rw [hnothing, List.append_nil, hbeats]
  cases step_cases h with
  | makePlayer | register | asyncConnect | connectFailed | connected
  | closeFailed | closeRaised | closed | refused | operated | received
  | mediaMessage | expireReceiver | fireReceiver | expireMedia
  | fireMedia => exact hsame rfl rfl
  | release player current _ hcurrent hnext =>
      refine hsame rfl ?_
      exact keeps_of_dropped (fun _ _ _ hkept => hkept)
        (fun _ _ hkept hdestroyed => hdestroyed.beats_eq.trans hkept) (by rfl)
        hnext
  | unregister channel _ hnext => exact hsame rfl hnext.beats_eq
  | launch player hasCallback sending _ hcase => exact hsame rfl hcase.beats_eq
  | request event channel hevent =>
      cases event <;> first
        | exact hevent.elim
        | exact hsame rfl rfl
  | initialized payload ending connecting sending cause player info current
      _ hmessage hcurrent hcase => exact hsame rfl hcase.beats_eq
  | heartbeat event step channel hevent hnot hstep =>
      unfold beatsOf
      rw [hevent]
      exact HeartbeatChannel.frames_of_step hstep
  | heartbeatTimer event step channel hevent htimer hstep =>
      unfold beatsOf
      rw [hevent]
      exact HeartbeatChannel.frames_of_step hstep

def pongs (client : ChromecastClient) : ℕ :=
  client.beats.countP HeartbeatChannel.isPong

theorem pongs_of_beats {more : List Json}
    (h : next.beats = client.beats ++ more) :
    next.pongs = client.pongs + more.countP HeartbeatChannel.isPong := by
  unfold pongs
  rw [h, List.countP_append]

/-- The timers send PINGs. -/
theorem pongs_of_call {event : Event} (hlocal : Endpoint.IsLocal event)
    (h : client.step platform event = some next) :
    next.pongs = client.pongs := by
  have hnothing : (client.beatsOf platform event).countP
      HeartbeatChannel.isPong = 0 := by
    unfold beatsOf
    cases event with
    | runSend wait sending =>
        cases sending with
        | error fault => rfl
        | ok _ =>
            simp only [Event.heartbeat, HeartbeatChannel.sent]
            split_ifs <;> rfl
    | heartbeatMessage => exact hlocal.elim
    | _ => rfl
  rw [pongs_of_beats (beats_of_step h), hnothing, Nat.add_zero]

theorem beats_of_onText {payload : StdString} {reply : Reply}
    {handled : Bool} (hequipped : client.Equipped)
    (hother : channel ∉ client.others)
    (h : client.onText platform channel payload reply =
      some (.ok handled, next)) :
    next.beats = client.beats ++
      if channel = 1 ∧ HeartbeatChannel.isPing platform.rapid payload then
        [HeartbeatChannel.pong] else [] := by
  have hsilent : channel ≠ 1 → next.beats = client.beats →
      next.beats = client.beats ++
        if channel = 1 ∧ HeartbeatChannel.isPing platform.rapid payload then
          [HeartbeatChannel.pong] else [] := by
    intro hne hsame
    rw [if_neg fun hping => hne hping.1, List.append_nil, hsame]
  have hreturned : returned (Except.ok handled, next) = some next := rfl
  unfold onText at h
  split at h
  next => cases h
  next id own hfind =>
    have hfound := List.find?_some hfind
    obtain rfl : id = channel := of_decide_eq_true hfound
    have hlive := List.mem_of_find?_eq_some hfind
    have hne : own.namespaceId ≠ heartbeatNamespace → id ≠ 1 := by
      rintro hnamespace rfl
      rw [hequipped.address_eq hlive hequipped.heartbeat] at hnamespace
      exact hnamespace rfl
    split_ifs at h with hreceiver hheartbeat hmedia
    · have hstep : client.step platform (.receiverMessage payload
          reply.ending reply.connecting reply.sending) = some next := by
        rw [step, h, Option.bind_some, hreturned]
      refine hsilent (hne ?_) ((beats_of_step hstep).trans
        (List.append_nil _))
      rw [hreceiver]
      decide
    · rw [hequipped.eq_heartbeat hlive hheartbeat hother]
      obtain ⟨hhandled, hnext⟩ := Prod.mk.inj (Option.some.inj h)
      rw [← hnext]
      refine (HeartbeatChannel.frames_of_handled hhandled).trans ?_
      simp only [true_and]
      rfl
    · have hstep : client.step platform (.mediaMessage id payload
          reply.ending) = some next := by
        rw [step, h, Option.bind_some, hreturned]
      exact hsilent (hne hheartbeat) ((beats_of_step hstep).trans
        (List.append_nil _))
    · cases h
      exact hsilent (hne hheartbeat) rfl

/-- Each PING that the heartbeat channel hears is answered at once. -/
theorem pongs_of_hear {message : CastMessage} {reply : Reply}
    (hequipped : client.Equipped) (horderly : client.Orderly named)
    (h : client.onMessage platform channel message reply =
      some (.ok (), next)) :
    next.pongs = client.pongs +
      if channel = 1 ∧ message.IsPing platform.rapid then 1 else 0 := by
  by_cases hother : channel ∈ client.others
  · have hforeign := horderly.others channel hother
    have hne : channel ≠ 1 := by
      rintro rfl
      exact absurd hforeign (by decide)
    unfold onMessage at h
    rw [if_pos hother] at h
    split_ifs at h
    obtain ⟨-, hnext⟩ := Prod.mk.inj (Option.some.inj h)
    rw [if_neg fun hping => hne hping.1, Nat.add_zero, hnext]
  · cases htype : message.payloadType with
    | binary =>
        have hping : ¬message.IsPing platform.rapid := by
          rintro ⟨hstring, -⟩
          rw [htype] at hstring
          cases hstring
        unfold onMessage at h
        rw [if_neg hother, htype] at h
        obtain ⟨-, hnext⟩ := Prod.mk.inj (Option.some.inj h)
        rw [if_neg fun hboth => hping hboth.2, Nat.add_zero, hnext]
    | string =>
        obtain ⟨handled, htext⟩ := onText_of_accepted hother htype h
        rw [pongs_of_beats (beats_of_onText hequipped hother htext)]
        have hiff : (channel = 1 ∧ HeartbeatChannel.isPing platform.rapid
            message.payloadUtf8 = true) ↔
              (channel = 1 ∧ message.IsPing platform.rapid) := by
          rw [CastMessage.IsPing, htype]
          simp
        by_cases hping : channel = 1 ∧ message.IsPing platform.rapid
        · rw [if_pos (hiff.mpr hping), if_pos hping]
          rfl
        · rw [if_neg (mt hiff.mp hping), if_neg hping]
          rfl

/-- In a run, as many PONGs as PINGs that are heard. -/
theorem pongs_of_moves {moves : List Move} (hequipped : client.Equipped)
    (horderly : client.Orderly named)
    (hhash : named (hashSenderId platform))
    (hnames : ∀ move ∈ moves, Move.Named named move)
    (hexec : exec (perform platform) client moves = some last)
    (haccepted : Along (perform platform) (Move.Accepted platform) client
      moves) :
    last.pongs = client.pongs +
      (moves.filterMap (Endpoint.heardBy 1)).countP
        fun message => message.IsPing platform.rapid := by
  induction moves generalizing client with
  | nil =>
      cases hexec
      rfl
  | cons move rest ih =>
      obtain ⟨mid, hmid, hrest⟩ := exec_cons_eq_some.mp hexec
      rw [List.forall_mem_cons] at hnames
      have hparts := parts_of_perform horderly hhash hnames.1 hmid
      rw [ih (equipped_of_parts hparts hequipped)
        (orderly_of_parts hparts horderly) hnames.2 hrest
        (haccepted.2 mid hmid)]
      cases move with
      | call event =>
          rw [pongs_of_call haccepted.1 hmid,
            List.filterMap_cons_none (by rfl)]
      | hear channel message reply =>
          obtain ⟨next, hnext⟩ := haccepted.1
          obtain rfl : next = mid := by
            rw [perform, hnext] at hmid
            exact Option.some.inj hmid
          rw [pongs_of_hear hequipped horderly hnext]
          by_cases hchannel : channel = 1
          · have hheard : Endpoint.heardBy 1
                (.hear channel message reply) = some message :=
              if_pos hchannel
            rw [List.filterMap_cons_some hheard, List.countP_cons]
            simp only [hchannel, true_and, decide_eq_true_eq]
            omega
          · have hheard : Endpoint.heardBy 1
                (.hear channel message reply) = none := if_neg hchannel
            rw [List.filterMap_cons_none hheard,
              if_neg fun hping => hchannel hping.1, Nat.add_zero]

theorem accepted_of_hearAll {message : CastMessage}
    {handler : ChannelId → Outcome Unit} {replies : ChannelId → Reply}
    {channels : List ChannelId}
    (hreturns : ∀ channel ∈ channels, handler channel = .ok ())
    (h : client.hearAll platform message handler replies channels =
      some next) :
    Along (perform platform) (Move.Accepted platform) client
      (channels.map fun channel =>
        .hear channel message (replies channel)) := by
  induction channels generalizing client with
  | nil => trivial
  | cons channel rest ih =>
      rw [List.forall_mem_cons] at hreturns
      unfold hearAll at h
      split at h
      next => cases h
      next outcome mid hmid =>
        split_ifs at h with houtcome
        rw [houtcome, hreturns.1] at hmid
        refine ⟨⟨mid, hmid⟩, fun after hafter => ?_⟩
        rw [perform, hmid] at hafter
        cases hafter
        exact ih hreturns.2 h

end ChromecastClient

/-- A delivery that does not raise calls handlers which return. -/
theorem handler_of_deliver {strings : StringCompare}
    {handler : ChannelId → Outcome Unit} {message : CastMessage}
    {map : ChannelMap}
    (h : (deliver strings handler message map).outcome = .ok ()) :
    ∀ channel ∈ (deliver strings handler message map).receivers,
      handler channel = .ok () := by
  have hreceivable := deliver_outcome_iff.mp h
  intro channel hchannel
  by_cases hbroadcast : message.address.destination = wildcard
  · have hall := hreceivable.2 hbroadcast
    rw [deliver, if_neg (not_not.mpr hbroadcast),
      (broadcast_spec handler message map).2.2 hall] at hchannel
    exact hall channel hchannel
  · obtain ⟨entry, hfind, hreturns⟩ := hreceivable.1 hbroadcast
    rw [deliver, if_pos hbroadcast, hfind] at hchannel
    rw [List.mem_singleton.mp hchannel]
    exact hreturns

namespace Endpoint

variable {codec : ProtobufCodec} {platform : Platform}
  {endpoint next : Endpoint}

theorem accepted_of_dispatch {completion : ReadCompletion}
    {replies : ChannelId → Reply} {connection : Connection}
    {messages : List CastMessage} {client after : ChromecastClient}
    (hreturns : ∀ message ∈ messages, ∀ channel ∈
      receivers platform completion message connection,
        completion.handler channel = .ok ())
    (h : dispatch platform completion replies connection messages client =
      some after) :
    Along (ChromecastClient.perform platform)
      (ChromecastClient.Move.Accepted platform) client
      (messages.flatMap fun message =>
        (receivers platform completion message connection).map
          fun channel => .hear channel message (replies channel)) := by
  induction messages generalizing client with
  | nil => trivial
  | cons message rest ih =>
      rw [List.forall_mem_cons] at hreturns
      obtain ⟨mid, hmid, hrest⟩ := Option.bind_eq_some_iff.mp h
      rw [List.flatMap_cons]
      refine along_append.mpr
        ⟨ChromecastClient.accepted_of_hearAll hreturns.1 hmid,
          fun current hcurrent => ?_⟩
      rw [ChromecastClient.exec_of_hearAll hmid] at hcurrent
      cases hcurrent
      exact ih hreturns.2 hrest

/-- The connection calls nobody to follow the client. -/
theorem calls_of_follow {before after : ChromecastClient}
    {connection : Connection}
    (h : follow codec platform before after connection = some next) :
    next.connection.calls = connection.calls := by
  unfold follow at h
  dsimp only at h
  split_ifs at h
  cases h
  rfl

theorem accepted_of_step {event : Event}
    (hstep : endpoint.step codec platform event = some next)
    (hcalls : ∀ call ∈ next.connection.calls, call.2 = .ok ()) :
    Along (ChromecastClient.perform platform)
      (ChromecastClient.Move.Accepted platform) endpoint.client
      (endpoint.moves codec platform event) := by
  cases event with
  | call event =>
      simp only [step, Option.ite_none_right_eq_some] at hstep
      exact ⟨hstep.1, fun _ _ => trivial⟩
  | taken index count => trivial
  | read index completion replies =>
      simp only [step] at hstep
      rw [moves]
      split at hstep
      next => cases hstep
      next read hread =>
        obtain ⟨after, hafter, hfollow⟩ := Option.bind_eq_some_iff.mp hstep
        rw [calls_of_follow hfollow] at hcalls
        refine accepted_of_dispatch (fun message hmessage => ?_) hafter
        obtain ⟨op, -, -, hcase⟩ := Connection.readCompleted_eq_some hread
        have hnothing : read.calls = endpoint.connection.calls →
            endpoint.connection.dispatchedSince read = [] := by
          intro hsame
          rw [Connection.dispatchedSince, hsame, List.drop_length]
          rfl
        rcases hcase.calls_eq with hsame | ⟨other, hadded⟩
        · rw [hnothing hsame] at hmessage
          cases hmessage
        · have houtcome := hcalls _
            (hadded ▸ List.mem_append_right _ (List.mem_singleton_self _))
          have hother : message = other := by
            rw [Connection.dispatchedSince, hadded] at hmessage
            simpa [Connection.stored] using hmessage
          rw [hother]
          exact handler_of_deliver houtcome

end Endpoint

end LibChromecast
