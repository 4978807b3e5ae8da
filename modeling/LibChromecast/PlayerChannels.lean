import LibChromecast.AnsweredRequests
import LibChromecast.ChromecastClient
import LibChromecast.ReceiverJoins
import LibChromecast.Routing

/-!
# What players do to their channels

One lemma for each function of a player: what a message does to a request
channel, what is left when a channel is destroyed, and the ways an
`Initialize` takes.
-/

namespace LibChromecast

open Foundation Foundation.Transition

/-! ## Requests -/

namespace RetryTimer

variable {ι κ : Type}

/-- The handler has still to run without error. -/
def Armed (timer : RetryTimer ι κ) : Prop :=
  timer.state = .waiting ∨ timer.state = .queued

instance (timer : RetryTimer ι κ) : Decidable timer.Armed :=
  inferInstanceAs (Decidable (_ ∨ _))

end RetryTimer

namespace Requests

variable {ι κ : Type}

/-- No retry handler has still to run. -/
def Unarmed (world : Requests ι κ) : Prop :=
  ∀ timer ∈ world.timers, ¬timer.Armed

instance (world : Requests ι κ) : Decidable world.Unarmed :=
  inferInstanceAs (Decidable (∀ timer ∈ world.timers, ¬timer.Armed))

theorem unarmed_cancelTimer {timers : List (RetryTimer ι κ)}
    (h : ∀ timer ∈ timers, ¬timer.Armed) (index : ℕ) :
    ∀ timer ∈ cancelTimer index timers, ¬timer.Armed := by
  intro timer hmem
  obtain ⟨position, hposition⟩ := List.mem_iff_getElem?.mp hmem
  rw [cancelTimer, List.getElem?_modify] at hposition
  obtain ⟨old, hold, hchange⟩ := Option.map_eq_some_iff.mp hposition
  have hidle := h old (List.mem_of_getElem? hold)
  by_cases hindex : index = position
  · rw [if_pos hindex] at hchange
    subst hchange
    unfold RetryTimer.Armed at hidle ⊢
    cases hstate : old.state <;> simp [hstate, TimerState.cancel] at hidle ⊢
  · rw [if_neg hindex] at hchange
    subst hchange
    exact hidle

variable [DecidableEq ι] {world next : Requests ι κ}

/-- An answer, or nothing, happened to the requests. -/
inductive Received (world : Requests ι κ) : Requests ι κ → Prop
  | same : Received world world
  | answered (channel : ι) (requestId : UInt64) :
      Received world (world.onResponse channel requestId).2

theorem Received.unarmed (h : Received world next) (hidle : world.Unarmed) :
    next.Unarmed := by
  cases h with
  | same => exact hidle
  | answered channel requestId =>
      unfold onResponse
      dsimp only
      split
      · exact hidle
      · exact unarmed_cancelTimer hidle _

/-- An answer sends nothing. -/
theorem Received.documentsSince (h : Received world next) :
    world.documentsSince next = [] := by
  cases h with
  | same => simp [Requests.documentsSince, documents]
  | answered channel requestId =>
      unfold onResponse
      dsimp only
      split
      · simp [Requests.documentsSince, documents]
      · simp [Requests.documentsSince, documents]

theorem received_onMessage (rapid : RapidJson) (channel : ι)
    (payload : StdString) (override : Response → Option (Outcome Bool)) :
    Received world (world.onMessage rapid channel payload override).2 := by
  unfold onMessage
  split
  next => exact .same
  next => exact .same
  next response _ =>
    split
    next => exact .same
    next => exact .answered channel response.requestId

theorem unarmed_destroyChannel (h : world.Unarmed) (channel : ι) :
    (world.destroyChannel channel).Unarmed := by
  have hall : ∀ (entries : RequestMap κ) (timers : List (RetryTimer ι κ)),
      (∀ timer ∈ timers, ¬timer.Armed) →
        ∀ timer ∈ entries.foldl
          (fun timers entry => cancelTimer entry.2.retryTimer timers) timers,
            ¬timer.Armed := by
    intro entries
    induction entries with
    | nil => exact fun _ hidle => hidle
    | cons entry rest ih =>
        exact fun timers hidle => ih _ (unarmed_cancelTimer hidle _)
  exact hall _ _ h

omit [DecidableEq ι] in
theorem not_expire_of_unarmed (h : world.Unarmed) (timer : ℕ) :
    world.expire timer = none := by
  unfold expire
  cases htimer : world.timers[timer]? with
  | none => rfl
  | some found =>
      have hidle := h found (List.mem_of_getElem? htimer)
      have hstate : found.state ≠ .waiting := fun hwaiting =>
        hidle (Or.inl hwaiting)
      simp [hstate]

theorem not_fire_of_unarmed (h : world.Unarmed) (rapid : RapidJson)
    (timer : ℕ) (sending : Outcome Unit) :
    world.fire rapid timer sending = none := by
  unfold fire
  cases htimer : world.timers[timer]? with
  | none => rfl
  | some found =>
      have hidle := h found (List.mem_of_getElem? htimer)
      have hstate : found.state ≠ .queued := fun hqueued =>
        hidle (Or.inr hqueued)
      simp [hstate]

end Requests

/-! ## Messages -/

namespace ReceiverChannel

variable {α : Type} (rapid : RapidJson) (getId : α → StdString)

theorem onReceiverStatus_requests (ending : Outcome Unit)
    (status : ReceiverStatus) (channel : ReceiverChannel α) :
    (channel.onReceiverStatus getId ending status).2.requests =
      channel.requests := by
  unfold onReceiverStatus
  dsimp only
  split
  · rfl
  · split_ifs
    · rfl
    · split <;> rfl

theorem invoke_requests (ending : Outcome Unit) (message : Json)
    (callback : ReceiverCallback α) (channel : ReceiverChannel α) :
    (channel.invoke rapid getId ending message callback).2.requests =
      channel.requests := by
  cases callback with
  | availability appIds hasCallback =>
      rw [invoke]
      split <;> rfl
  | status hasCallback =>
      rw [invoke]
      split <;> rfl
  | launch => rfl
  | join call application =>
      rw [invoke]
      split
      next => rfl
      next status _ =>
        unfold onJoinStatus
        dsimp only
        split
        · rfl
        · split_ifs
          · rfl
          · split <;> rfl
  | volume hasCallback =>
      rw [invoke]
      split <;> rfl

theorem onMessage_requests (ending : Outcome Unit) (payload : StdString)
    (channel : ReceiverChannel α) :
    Requests.Received channel.requests
      (channel.onMessage rapid getId ending payload).2.requests := by
  unfold onMessage
  split
  next => exact .same
  next => exact .same
  next response _ =>
    unfold onResponse
    split_ifs
    · split
      next => exact .same
      next =>
        dsimp only
        rw [invoke_requests]
        exact .answered () response.requestId
    · split
      next => exact .same
      next =>
        dsimp only
        rw [onReceiverStatus_requests]
        exact .same

end ReceiverChannel

/-- What a message to the receiver channel makes it initialize. -/
inductive MessageCase (channel : ReceiverChannel PlayerId) :
    ReceiverChannel PlayerId → Option (Cause × PlayerId × ApplicationInfo) →
      Prop
  | silent (next : ReceiverChannel PlayerId)
      (happlication : next.application = channel.application)
      (hpending : next.pending = channel.pending) :
      MessageCase channel next none
  | broadcast (next : ReceiverChannel PlayerId) (player : PlayerId)
      (info : ApplicationInfo)
      (happlication : channel.application = some player)
      (hnext : next.application = some player)
      (howner : channel.pending = channel.owner)
      (hpending : next.pending = none) :
      MessageCase channel next
        (some (.broadcast channel.owner channel.waiting, player, info))
  | join (next : ReceiverChannel PlayerId) (call : ℕ) (player : PlayerId)
      (info : ApplicationInfo) (hnone : channel.application = none)
      (hnext : next.application = some player)
      (hpending : next.pending = channel.pending) :
      MessageCase channel next (some (.join call, player, info))

namespace ChromecastClient

theorem initialization?_append {channel next : ReceiverChannel PlayerId}
    {more : List (ReceiverChannel.Observed PlayerId)}
    (hobserved : next.observed = channel.observed ++ more) :
    initialization? channel next = initializing? more := by
  unfold initialization?
  rw [hobserved, List.drop_left]

theorem silent_case {channel next : ReceiverChannel PlayerId}
    {more : List (ReceiverChannel.Observed PlayerId)}
    (hobserved : next.observed = channel.observed ++ more)
    (hmore : initializing? more = none)
    (happlication : next.application = channel.application)
    (hpending : next.pending = channel.pending) :
    MessageCase channel next (initialization? channel next) := by
  rw [initialization?_append hobserved, hmore]
  exact .silent next happlication hpending

theorem message_case (rapid : RapidJson) (payload : StdString)
    (ending : Outcome Unit) (channel : ReceiverChannel PlayerId) :
    MessageCase channel
      (channel.onMessage rapid getId ending payload).2
      (initialization? channel
        (channel.onMessage rapid getId ending payload).2) := by
  have hcase := ReceiverChannel.onMessage_case rapid getId payload ending
    channel
  generalize (channel.onMessage rapid getId ending payload).2 = next at hcase
  cases hcase with
  | requested event requests =>
      exact silent_case (List.append_nil _).symm rfl rfl rfl
  | stored event requests status =>
      exact silent_case (List.append_nil _).symm rfl rfl rfl
  | initialized payload ending response status player info _ _ _ hplayer
      hlaunching =>
      rw [initialization?_append rfl]
      exact .broadcast _ player info hplayer hplayer (if_pos hlaunching) rfl
  | answered payload ending response entry call application status next _ _
      _ _ hjoin =>
      cases hjoin with
      | refused => exact silent_case rfl rfl rfl rfl
      | initialized player info hgiven hnone =>
          rw [initialization?_append rfl]
          exact .join _ call player info hnone rfl rfl

/-! ## Channels that are destroyed -/

/-- Channels were destroyed, and nothing else happened. -/
structure Destroyed (client next : ChromecastClient) : Prop where
  rest : next = { client with
    router := next.router
    mediaChannels := next.mediaChannels }
  live : ∀ object ∈ next.router.live, object ∈ client.router.live
  registered : ∀ entry ∈ next.router.channelAddressToChannel,
    entry ∈ client.router.channelAddressToChannel
  unarmed : client.mediaChannels.requests.Unarmed →
    next.mediaChannels.requests.Unarmed

theorem Destroyed.refl (client : ChromecastClient) :
    Destroyed client client :=
  ⟨rfl, fun _ h => h, fun _ h => h, id⟩

theorem Destroyed.trans {client mid next : ChromecastClient}
    (hfirst : Destroyed client mid) (hsecond : Destroyed mid next) :
    Destroyed client next where
  rest := by
    rw [hsecond.rest, hfirst.rest]
  live object hobject := hfirst.live object (hsecond.live object hobject)
  registered entry hentry :=
    hfirst.registered entry (hsecond.registered entry hentry)
  unarmed hidle := hsecond.unarmed (hfirst.unarmed hidle)

theorem subset_of_destroy {strings : StringCompare} {channel : ChannelId}
    {router next : Router} (h : router.destroy strings channel = some next) :
    (∀ object ∈ next.live, object ∈ router.live) ∧
      ∀ entry ∈ next.channelAddressToChannel,
        entry ∈ router.channelAddressToChannel := by
  obtain ⟨-, entry, -, -, hlive, herased⟩ := Router.destroy_inserted h
  refine ⟨fun object hobject => ?_, fun other hother =>
    herased.mem_iff.mpr (Or.inr hother)⟩
  rw [hlive] at hobject
  exact List.mem_of_mem_filter hobject

section Destroyed

variable {platform : Platform} {client next : ChromecastClient}

theorem destroyed_of_destroyChannel {channel : ChannelId}
    (h : client.destroyChannel platform channel = some next) :
    Destroyed client next := by
  obtain ⟨router, hrouter, rfl⟩ := Option.map_eq_some_iff.mp h
  obtain ⟨hlive, hregistered⟩ := subset_of_destroy hrouter
  exact ⟨rfl, hlive, hregistered,
    fun hidle => Requests.unarmed_destroyChannel hidle (.media channel)⟩

theorem destroyed_of_reset {owned : Option ChannelId}
    (h : client.reset platform owned = some next) :
    Destroyed client next := by
  cases owned with
  | none =>
      cases h
      exact .refl client
  | some channel => exact destroyed_of_destroyChannel h

theorem destroyed_of_destroyPlayer {player : PlayerId}
    {current : DefaultMediaPlayer}
    (h : client.destroyPlayer platform player current = some next) :
    Destroyed (client.setPlayer player
      { current with connection := none, mediaChannel := none }) next := by
  obtain ⟨mid, hmid, hnext⟩ := Option.bind_eq_some_iff.mp h
  exact (destroyed_of_reset hmid).trans (destroyed_of_reset hnext)

/-- A player whose last reference was dropped loses its channels. -/
theorem dropped_cases {player : PlayerId}
    (h : client.dropped platform player = some next) :
    next = client ∨
      ∃ current, client.players player = some current ∧
        client.receiverChannel.application ≠ some player ∧
        Destroyed (client.setPlayer player
          { current with connection := none, mediaChannel := none })
          next := by
  unfold dropped at h
  split at h
  next => cases h
  next current hcurrent =>
    split_ifs at h with hkept
    · cases h
      exact Or.inl rfl
    · push Not at hkept
      exact Or.inr ⟨current, hcurrent, hkept.2,
        destroyed_of_destroyPlayer h⟩

/-- The client once `OnStopped` of a player returned. -/
def recordStop (player : PlayerId) (client : ChromecastClient) :
    ChromecastClient :=
  { client with
    stops := client.stops ++ [{
      player
      channels := (client.makers.filter
        fun made => made.2 = player).map Prod.fst
      registered := client.router.channelAddressToChannel
      frames := client.frames }] }

theorem onStopped_cases {player : PlayerId}
    (h : client.onStopped platform player = some next) :
    ∃ current stopped, client.players player = some current ∧
      Destroyed (client.setPlayer player { current with
        mediaChannel := none }) stopped ∧
      next = stopped.recordStop player := by
  unfold onStopped at h
  split at h
  next => cases h
  next current hcurrent =>
    obtain ⟨stopped, hstopped, rfl⟩ := Option.map_eq_some_iff.mp h
    exact ⟨current, stopped, hcurrent, destroyed_of_reset hstopped, rfl⟩

end Destroyed

/-! ## Channels that are created -/

/-- The namespaces of the client's own channels. -/
def ownNamespaces : List StdString :=
  [receiverNamespace, heartbeatNamespace, connectionNamespace]

/-- The client while its members are constructed. -/
structure Constructed (memory : Memory) (client : ChromecastClient) :
    Prop where
  rest : client = {
    router := client.router
    nextChannel := client.nextChannel
    receiverChannel := .construct memory }
  live : ∀ object ∈ client.router.live, object.1 < client.nextChannel
  registered : ∀ entry ∈ client.router.channelAddressToChannel,
    ∃ namespaceId ∈ ownNamespaces,
      entry.1 = (ownAddress namespaceId).swap

theorem Constructed.registerOwn {platform : Platform} {memory : Memory}
    {client next : ChromecastClient} {namespaceId : StdString}
    (h : Constructed memory client) (hown : namespaceId ∈ ownNamespaces)
    (hnext : client.registerOwn platform namespaceId = some next) :
    Constructed memory next := by
  unfold ChromecastClient.registerOwn at hnext
  split at hnext
  next router hconstruct =>
    cases hnext
    obtain ⟨-, hcase⟩ := Router.construct_inserted hconstruct
    rcases hcase with ⟨fault, entry, hfault, -⟩ | ⟨-, hlive, hregistered⟩
    · cases hfault
    · refine ⟨?_, fun object hobject => ?_, fun entry hentry => ?_⟩
      · conv_lhs => rw [h.rest]
      · change object.1 < client.nextChannel + 1
        change object ∈ router.live at hobject
        rw [hlive] at hobject
        rcases List.mem_cons.mp hobject with rfl | hold
        · exact Nat.lt_succ_self _
        · exact Nat.lt_succ_of_lt (h.live object hold)
      · rcases hregistered.mem_iff.mp hentry with rfl | hold
        · exact ⟨namespaceId, hown, rfl⟩
        · exact h.registered entry hold
  next => cases hnext

theorem constructed {platform : Platform} {memory : Memory}
    {client : ChromecastClient}
    (h : construct platform memory = some client) :
    Constructed memory client := by
  obtain ⟨second, hsecond, hthird⟩ := Option.bind_eq_some_iff.mp h
  obtain ⟨first, hfirst, hsecond⟩ := Option.bind_eq_some_iff.mp hsecond
  have hempty : Constructed memory
      { receiverChannel := .construct memory } := by
    refine ⟨rfl, fun object hobject => ?_, fun entry hentry => ?_⟩
    · cases hobject
    · cases hentry
  have hreceiver := hempty.registerOwn (by simp [ownNamespaces]) hfirst
  have hheartbeat := hreceiver.registerOwn (by simp [ownNamespaces]) hsecond
  exact hheartbeat.registerOwn (by simp [ownNamespaces]) hthird

/-- A player has made a channel, or tried to. -/
structure Replaced (player : PlayerId) (address : Address)
    (client next : ChromecastClient) : Prop where
  rest : next = { client with
    router := next.router
    nextChannel := client.nextChannel + 1
    mediaChannels := next.mediaChannels
    makers := next.makers
    players := next.players }
  makers : ∀ made, made ∈ next.makers → made ∈ client.makers ∨
    made = (client.nextChannel, player)
  makers_mono : ∀ made ∈ client.makers, made ∈ next.makers
  players : ∀ other, other ≠ player →
    next.players other = client.players other
  live : ∀ object ∈ next.router.live, object ∈ client.router.live ∨
    object = (client.nextChannel, address)
  registered : ∀ entry ∈ next.router.channelAddressToChannel,
    entry ∈ client.router.channelAddressToChannel ∨
      (entry = (address.swap, client.nextChannel) ∧
        (client.nextChannel, player) ∈ next.makers)
  unarmed : client.mediaChannels.requests.Unarmed →
    next.mediaChannels.requests.Unarmed

inductive ReplaceCase (platform : Platform) (player : PlayerId)
    (address : Address)
    (store : DefaultMediaPlayer → ChannelId → DefaultMediaPlayer)
    (client next : ChromecastClient) : Outcome Unit → Prop
  | refused (fault : Fault) (current : DefaultMediaPlayer)
      (entry : Address × ChannelId)
      (hcurrent : client.players player = some current)
      (hfind : client.router.channelAddressToChannel.find? platform.strings
        address.swap = some entry)
      (hnext : next = { client with
        nextChannel := client.nextChannel + 1 }) :
      ReplaceCase platform player address store client next (.error fault)
  | replaced (current : DefaultMediaPlayer)
      (hcurrent : client.players player = some current)
      (hnew : client.nextChannel ∉ client.router.live.map Prod.fst)
      (hplayer : next.players player =
        some (store current client.nextChannel))
      (hmade : (client.nextChannel, player) ∈ next.makers) :
      ReplaceCase platform player address store client next (.ok ())

theorem replaceChannel_cases {platform : Platform} {player : PlayerId}
    {address : Address} {owned : DefaultMediaPlayer → Option ChannelId}
    {store : DefaultMediaPlayer → ChannelId → DefaultMediaPlayer}
    {client next : ChromecastClient} {outcome : Outcome Unit}
    (h : client.replaceChannel platform player address owned store =
      some (outcome, next)) :
    Replaced player address client next ∧
      ReplaceCase platform player address store client next outcome := by
  unfold replaceChannel at h
  split at h
  next current fault router hcurrent hconstruct =>
    cases h
    obtain ⟨-, hcase⟩ := Router.construct_inserted hconstruct
    rcases hcase with ⟨other, entry, hfault, hrouter, hfind⟩ | ⟨hok, -⟩
    · cases hfault
      subst hrouter
      exact ⟨⟨rfl, fun _ => Or.inl, fun _ h => h, fun _ _ => rfl,
        fun _ => Or.inl, fun _ => Or.inl, id⟩,
        .refused _ current entry hcurrent hfind rfl⟩
    · cases hok
  next current router hcurrent hconstruct =>
    obtain ⟨after, hreset, heq⟩ := Option.map_eq_some_iff.mp h
    cases heq
    obtain ⟨hnew, hcase⟩ := Router.construct_inserted hconstruct
    rcases hcase with ⟨fault, entry, hfault, -⟩ | ⟨-, hlive, hregistered⟩
    · cases hfault
    · have hdestroyed := destroyed_of_reset hreset
      have hmade : (client.nextChannel, player) ∈ next.makers := by
        rw [hdestroyed.rest]
        exact List.mem_append_right _ (List.mem_singleton.mpr rfl)
      refine ⟨⟨?_, ?_, ?_, ?_, ?_, ?_, hdestroyed.unarmed⟩, ?_⟩
      · rw [hdestroyed.rest]
        rfl
      · intro made hmem
        rw [hdestroyed.rest] at hmem
        exact (List.mem_append.mp hmem).imp_right List.mem_singleton.mp
      · intro made hmem
        rw [hdestroyed.rest]
        exact List.mem_append_left _ hmem
      · intro other hother
        rw [hdestroyed.rest]
        exact Function.update_of_ne hother _ _
      · intro object hobject
        have hmem := hdestroyed.live object hobject
        change object ∈ router.live at hmem
        rw [hlive] at hmem
        exact (List.mem_cons.mp hmem).symm
      · intro entry hentry
        have hmem := hregistered.mem_iff.mp
          (hdestroyed.registered entry hentry)
        exact hmem.symm.imp_right fun hnew => ⟨hnew, hmade⟩
      · refine .replaced current hcurrent hnew ?_ hmade
        rw [hdestroyed.rest]
        exact Function.update_self _ _ _
  next => cases h

/-- The sender id of the media channel of a player. -/
def mediaSenderId (senderId : StdString) (current : DefaultMediaPlayer) :
    StdString :=
  if current.senderId = [] then senderId else current.senderId

/-- What `CreateChannels` leaves, whether or not it raised. -/
structure Created (platform : Platform) (player : PlayerId)
    (senderId receiverId : StdString) (current : DefaultMediaPlayer)
    (client next : ChromecastClient) (created : Outcome Unit) : Prop where
  rest : next = { client with
    router := next.router
    nextChannel := next.nextChannel
    mediaChannels := next.mediaChannels
    makers := next.makers
    players := next.players }
  nextChannel : client.nextChannel < next.nextChannel
  makers : ∀ made, made ∈ next.makers → made ∈ client.makers ∨
    (made.2 = player ∧ client.nextChannel ≤ made.1 ∧
      made.1 < next.nextChannel)
  makers_mono : ∀ made ∈ client.makers, made ∈ next.makers
  players : ∀ other, other ≠ player →
    next.players other = client.players other
  owner : ∃ after, next.players player = some after ∧
    (after.connection.isSome = true ∨
      (next.makers = client.makers ∧ after.connection = current.connection))
  made : created = .ok () → ∃ channel, (channel, player) ∈ next.makers
  media : created = .ok () → ∃ after channel,
    next.players player = some after ∧ after.mediaChannel = some channel ∧
      (channel, player) ∈ next.makers ∧
      ∀ address, (channel, address) ∈ next.router.live →
        address = ⟨mediaSenderId senderId current, receiverId,
          mediaNamespace⟩
  live : ∀ object ∈ next.router.live, object ∈ client.router.live ∨
    (client.nextChannel ≤ object.1 ∧ object.1 < next.nextChannel ∧
      (object.2 = ⟨senderId, receiverId, connectionNamespace⟩ ∨
        (created = .ok () ∧
          object.2 = ⟨mediaSenderId senderId current, receiverId,
            mediaNamespace⟩)))
  registered : ∀ entry ∈ next.router.channelAddressToChannel,
    entry ∈ client.router.channelAddressToChannel ∨
      (entry.2, player) ∈ next.makers
  unarmed : client.mediaChannels.requests.Unarmed →
    next.mediaChannels.requests.Unarmed
  /-- Only an address in use is refused. -/
  free : platform.strings.UnitValued →
    (∀ entry ∈ client.router.channelAddressToChannel,
      entry.1 ≠ ⟨receiverId, senderId, connectionNamespace⟩ ∧
        entry.1 ≠ ⟨receiverId, mediaSenderId senderId current,
          mediaNamespace⟩) → created = .ok ()

theorem eq_of_find? {strings : StringCompare}
    (hunit : strings.UnitValued) {map : ChannelMap} {address : Address}
    {entry : Address × ChannelId}
    (h : map.find? strings address = some entry) : entry.1 = address := by
  obtain ⟨hbelow, habove⟩ := OrderedMap.not_lt_of_find? h
  exact Address.eq_of_not_less hunit hbelow habove

section Initialize

variable {platform : Platform} {player : PlayerId}
  {senderId receiverId : StdString} {client next : ChromecastClient}
  {created : Outcome Unit}

theorem created_of_refused {fault : Fault}
    (hconnection : client.createConnectionChannel platform player senderId
      receiverId = some (.error fault, next)) :
    ∃ current, client.players player = some current ∧
      Created platform player senderId receiverId current client next
        (.error fault) := by
  obtain ⟨-, hcase⟩ := replaceChannel_cases hconnection
  cases hcase with
  | refused _ current entry hcurrent hfind hnext =>
      refine ⟨current, hcurrent, ?_⟩
      subst hnext
      exact {
        rest := rfl
        nextChannel := Nat.lt_succ_self _
        makers := fun _ => Or.inl
        makers_mono := fun _ hmem => hmem
        players := fun _ _ => rfl
        owner := ⟨current, hcurrent, Or.inr ⟨rfl, rfl⟩⟩
        made := by
          intro hok
          cases hok
        media := by
          intro hok
          cases hok
        live := fun _ => Or.inl
        registered := fun _ => Or.inl
        unarmed := id
        free := by
          intro hunit hfree
          have hkey := eq_of_find? hunit hfind
          have hmem := OrderedMap.mem_of_find? _ hfind
          exact absurd hkey (hfree entry hmem).1 }

/-- The connection channel is there, and the media channel may be refused. -/
theorem created_of_connected {mid : ChromecastClient}
    (hconnection : client.createConnectionChannel platform player senderId
      receiverId = some (.ok (), mid))
    (h : mid.createMediaChannel platform player senderId receiverId =
      some (created, next)) :
    ∃ current, client.players player = some current ∧
      Created platform player senderId receiverId current client next
        created := by
  obtain ⟨hmid, hconnected⟩ := replaceChannel_cases hconnection
  cases hconnected with
  | replaced current hcurrent hnew hplayer hmade =>
  unfold createMediaChannel at h
  rw [hplayer] at h
  dsimp only at h
  obtain ⟨hnext, hcase⟩ := replaceChannel_cases h
  have hfirst : client.nextChannel < mid.nextChannel := by
    rw [hmid.rest]
    exact Nat.lt_succ_self _
  have hsecond : mid.nextChannel < next.nextChannel := by
    rw [hnext.rest]
    exact Nat.lt_succ_self _
  have hboth := Nat.lt_trans hfirst hsecond
  refine ⟨current, hcurrent, ?_⟩
  exact {
    rest := by
      rw [hnext.rest]
      unfold setPlayer
      rw [hmid.rest]
    nextChannel := hboth
    makers := by
      intro made hmem
      rcases hnext.makers made hmem with hold | rfl
      · rcases hmid.makers made hold with holder | rfl
        · exact Or.inl holder
        · exact Or.inr ⟨rfl, Nat.le_refl _, hboth⟩
      · exact Or.inr ⟨rfl, Nat.le_of_lt hfirst, hsecond⟩
    makers_mono := fun made hmem =>
      hnext.makers_mono made (hmid.makers_mono made hmem)
    players := by
      intro other hother
      rw [hnext.players other hother]
      exact (Function.update_of_ne hother _ _).trans
        (hmid.players other hother)
    owner := by
      cases hcase with
      | refused _ _ entry _ hfind hsame =>
          rw [hsame]
          exact ⟨_, Function.update_self _ _ _, Or.inl rfl⟩
      | replaced after hafter _ hstored =>
          have hsame := (Function.update_self _ _ _).symm.trans hafter
          cases hsame
          exact ⟨_, hstored, Or.inl rfl⟩
    made := fun _ => ⟨client.nextChannel, hnext.makers_mono _ hmade⟩
    media := by
      intro hok
      cases hcase with
      | refused => cases hok
      | replaced after hafter hunused hstored hstoredBy =>
          refine ⟨_, _, hstored, rfl, hstoredBy, fun address hmem => ?_⟩
          rcases hnext.live _ hmem with hold | heq
          · exact absurd (List.mem_map_of_mem hold) hunused
          · exact (Prod.mk.inj heq).2
    live := by
      intro object hobject
      have hstep : object ∈ mid.router.live ∨ (created = .ok () ∧
          object = (mid.nextChannel, ⟨mediaSenderId senderId current,
            receiverId, mediaNamespace⟩)) := by
        cases hcase with
        | refused _ _ entry _ hfind hsame =>
            rw [hsame] at hobject
            exact Or.inl hobject
        | replaced =>
            exact (hnext.live object hobject).imp_right
              fun hnew => ⟨rfl, hnew⟩
      rcases hstep with hold | ⟨hok, rfl⟩
      · rcases hmid.live object hold with holder | rfl
        · exact Or.inl holder
        · exact Or.inr ⟨Nat.le_refl _, hboth, Or.inl rfl⟩
      · exact Or.inr ⟨Nat.le_of_lt hfirst, hsecond, Or.inr ⟨hok, rfl⟩⟩
    registered := by
      intro entry hentry
      rcases hnext.registered entry hentry with hold | ⟨rfl, hnew⟩
      · rcases hmid.registered entry hold with holder | ⟨rfl, hnew⟩
        · exact Or.inl holder
        · exact Or.inr (hnext.makers_mono _ hnew)
      · exact Or.inr hnew
    unarmed := fun hidle => hnext.unarmed (hmid.unarmed hidle)
    free := by
      intro hunit hfree
      cases hcase with
      | replaced => rfl
      | refused _ _ entry _ hfind =>
          have hkey := eq_of_find? hunit hfind
          have hmem := OrderedMap.mem_of_find? _ hfind
          rcases hmid.registered entry hmem with hold | ⟨rfl, -⟩
          · exact absurd hkey (hfree entry hold).2
          · have hname := congrArg Address.namespaceId hkey
            cases (show connectionNamespace ≠ mediaNamespace by decide)
              hname }

theorem createChannels_cases
    (h : client.createChannels platform player senderId receiverId =
      some (created, next)) :
    ∃ current, client.players player = some current ∧
      Created platform player senderId receiverId current client next
        created := by
  unfold createChannels at h
  split at h
  next => cases h
  next fault mid hconnection =>
    cases h
    exact created_of_refused hconnection
  next mid hconnection => exact created_of_connected hconnection h

def controlDocument (type : String) : Json :=
  Json.null.set (lit "type") (.ofString (lit type))

/-- The CONNECT frame of a player. -/
def connectFrame (platform : Platform) (player : PlayerId)
    (info : ApplicationInfo) : Frame :=
  ⟨.player player,
    ⟨hashSenderId platform, info.transportId, connectionNamespace⟩,
    controlDocument "CONNECT"⟩

/-- The client once `CreateChannels` was called in an `Initialize`. -/
def recordCreation (cause : Cause) (created : Outcome Unit)
    (client : ChromecastClient) : ChromecastClient :=
  { client with creations := client.creations ++ [(cause, created)] }

inductive InitializeCase (platform : Platform) (player : PlayerId)
    (cause : Cause) (info : ApplicationInfo) (current : DefaultMediaPlayer)
    (sending : Outcome Unit) (client next : ChromecastClient) :
    Outcome Unit → Prop
  | refused (connecting : Outcome Unit) (fault : Fault)
      (mid : ChromecastClient)
      (hcreated : Created platform player (hashSenderId platform)
        info.transportId current client mid (.error fault))
      (hnext : next = mid.recordCreation cause (.error fault)) :
      InitializeCase platform player cause info current sending client next
        connecting
  | unconnected (fault : Fault) (mid : ChromecastClient)
      (after : DefaultMediaPlayer)
      (hcreated : Created platform player (hashSenderId platform)
        info.transportId current client mid (.ok ()))
      (hafter : mid.players player = some after)
      (hnext : next = (mid.recordCreation cause (.ok ())).setPlayer player
        { after with sessionId := info.sessionId }) :
      InitializeCase platform player cause info current sending client next
        (.error fault)
  | connected (mid : ChromecastClient) (after : DefaultMediaPlayer)
      (channel : ChannelId) (address : Address) (channels : Channels)
      (hcreated : Created platform player (hashSenderId platform)
        info.transportId current client mid (.ok ()))
      (hafter : mid.players player = some after)
      (hchannel : after.mediaChannel = some channel)
      (haddress : mid.mediaAddress? channel = some address)
      (hchannels : channels = (mid.mediaChannels.getStatus platform.rapid
        channel true sending).2)
      (hnext : next = (((mid.recordCreation cause (.ok ())).setPlayer player
        { after with sessionId := info.sessionId }).issue
          [connectFrame platform player info]).setMediaChannels channel
            address channels) :
      InitializeCase platform player cause info current sending client next
        (.ok ())

theorem onMediaChannel_cases {α : Type} {channel : ChannelId}
    {call : Channels → Outcome α × Channels} {outcome : Outcome α}
    (h : client.onMediaChannel channel call = some (outcome, next)) :
    ∃ address, client.mediaAddress? channel = some address ∧
      outcome = (call client.mediaChannels).1 ∧
      next = client.setMediaChannels channel address
        (call client.mediaChannels).2 := by
  obtain ⟨address, haddress, heq⟩ := Option.map_eq_some_iff.mp h
  cases heq
  exact ⟨address, haddress, rfl, rfl⟩

theorem initializePlayer_cases {cause : Cause} {info : ApplicationInfo}
    {connecting sending outcome : Outcome Unit}
    (h : client.initializePlayer platform player cause info connecting
      sending = some (outcome, next)) :
    ∃ current, client.players player = some current ∧
      InitializeCase platform player cause info current sending client next
        connecting := by
  unfold initializePlayer at h
  split at h
  next => cases h
  next created mid hcreate =>
    obtain ⟨current, hcurrent, hcreated⟩ := createChannels_cases hcreate
    refine ⟨current, hcurrent, ?_⟩
    cases created with
    | error fault =>
        cases h
        exact .refused connecting fault mid hcreated rfl
    | ok _ =>
        obtain ⟨after, hafter, -⟩ := hcreated.owner
        have hconnect : (mid.recordCreation cause (.ok ())).connectPlayer
            platform player info connecting =
              some (((mid.recordCreation cause (.ok ())).setPlayer player
                { after with sessionId := info.sessionId }).sendControl
                  (.player player) ⟨hashSenderId platform,
                    info.transportId, connectionNamespace⟩ "CONNECT"
                    connecting) := by
          unfold connectPlayer
          exact congrArg _ hafter
        dsimp only at h
        unfold recordCreation at hconnect
        rw [hconnect] at h
        cases connecting with
        | error fault =>
            cases h
            exact .unconnected fault mid after hcreated hafter rfl
        | ok _ =>
            simp only [sendControl] at h
            unfold getMediaStatus at h
            split at h
            next => cases h
            next channel hchannel =>
              obtain ⟨address, haddress, -, rfl⟩ := onMediaChannel_cases h
              simp only [issue, setPlayer, Function.update_self,
                Option.bind_some] at hchannel
              exact .connected mid after channel address _ hcreated hafter
                hchannel haddress rfl rfl

end Initialize

end ChromecastClient

end LibChromecast
