import LibChromecast.ClientSteps

/-!
# CONNECT before use

A virtual connection is a pair of a source and a destination id.  `Initialize`
opens the one of the sender id it makes up; the media channel of a player
speaks for the sender id the player was constructed with.  So its frames are
introduced only where the two agree.
-/

namespace LibChromecast

open Foundation Foundation.Transition

/-! ## Frames and their connections -/

namespace Frame

/-- The receiver channel, the heartbeat channel or a channel of a player
issued it. -/
def IsTraffic (frame : Frame) : Prop :=
  match frame.issuer with
  | .receiverChannel | .heartbeatChannel | .player _ => True
  | .connectionChannel | .other => False

end Frame

/-- There is a CONNECT frame on the pair, and no CLOSE frame after it. -/
def IsOpen (pair : StdString × StdString) : List Frame → Prop
  | [] => False
  | frame :: rest => IsOpen pair rest ∨
      (frame.pair = pair ∧ frame.IsConnect ∧
        ∀ later ∈ rest, later.pair = pair → ¬later.IsClose)

/-- Each frame of `frames` is preceded by a CONNECT frame on its pair with no
CLOSE frame in between; `before` was issued before. -/
def IntroducedAfter (before : List Frame) : List Frame → Prop
  | [] => True
  | frame :: rest =>
      (frame.IsTraffic → ¬frame.IsConnect → IsOpen frame.pair before) ∧
        IntroducedAfter (before ++ [frame]) rest

def Introduced (frames : List Frame) : Prop := IntroducedAfter [] frames

section Frames

variable {pair : StdString × StdString} {before frames more : List Frame}

theorem not_isClose_of_isConnect {frame : Frame}
    (hconnect : frame.IsConnect) : ¬frame.IsClose := by
  intro hclose
  have hsame := hconnect.2.symm.trans hclose.2
  cases (show lit "CONNECT" ≠ lit "CLOSE" by decide)
    (Json.string.inj (Option.some.inj hsame))

theorem IsOpen.append (h : IsOpen pair frames)
    (hclose : ∀ frame ∈ more, frame.pair = pair → ¬frame.IsClose) :
    IsOpen pair (frames ++ more) := by
  induction frames with
  | nil => exact h.elim
  | cons frame rest ih =>
      rcases h with hrest | ⟨hpair, hconnect, hnone⟩
      · exact Or.inl (ih hrest)
      · refine Or.inr ⟨hpair, hconnect, fun later hlater => ?_⟩
        rcases List.mem_append.mp hlater with hold | hnew
        · exact hnone later hold
        · exact hclose later hnew

theorem isOpen_connect {frame : Frame} (hconnect : frame.IsConnect) :
    IsOpen frame.pair (frames ++ [frame]) := by
  induction frames with
  | nil =>
      exact Or.inr ⟨rfl, hconnect,
        fun later hlater => absurd hlater List.not_mem_nil⟩
  | cons first rest ih => exact Or.inl ih

theorem isOpen_of_snoc {frame : Frame}
    (h : IsOpen pair (frames ++ [frame])) :
    IsOpen pair frames ∨ frame.pair = pair := by
  induction frames with
  | nil =>
      rcases h with hnone | ⟨hpair, -⟩
      · exact hnone.elim
      · exact Or.inr hpair
  | cons first rest ih =>
      rcases h with hrest | ⟨hpair, hconnect, hnone⟩
      · exact (ih hrest).imp_left Or.inl
      · refine Or.inl (Or.inr ⟨hpair, hconnect, fun later hlater => ?_⟩)
        exact hnone later (List.mem_append_left _ hlater)

theorem introducedAfter_append :
    IntroducedAfter before (frames ++ more) ↔
      IntroducedAfter before frames ∧
        IntroducedAfter (before ++ frames) more := by
  induction frames generalizing before with
  | nil => simp [IntroducedAfter]
  | cons frame rest ih =>
      rw [List.cons_append, IntroducedAfter, IntroducedAfter, ih, and_assoc,
        List.append_assoc]
      rfl

/-- Frames on connections that are open, and which close none. -/
theorem Introduced.append (h : Introduced frames)
    (hclose : ∀ frame ∈ more, ¬frame.IsClose)
    (hopen : ∀ frame ∈ more, frame.IsTraffic → ¬frame.IsConnect →
      IsOpen frame.pair frames) : Introduced (frames ++ more) := by
  refine introducedAfter_append.mpr ⟨h, ?_⟩
  rw [List.nil_append]
  clear h
  induction more generalizing frames with
  | nil => trivial
  | cons frame rest ih =>
      refine ⟨hopen frame List.mem_cons_self, ?_⟩
      refine ih (fun later hlater => hclose later
        (List.mem_cons_of_mem _ hlater)) fun later hlater htraffic hnot => ?_
      have hbefore := hopen later (List.mem_cons_of_mem _ hlater) htraffic
        hnot
      refine hbefore.append fun other hother _ => ?_
      rw [List.mem_singleton.mp hother]
      exact hclose frame List.mem_cons_self

end Frames

namespace ChromecastClient

/-! ## The condition -/

/-- The virtual connection of an address. -/
def pairOf (address : Address) : StdString × StdString :=
  (address.source, address.destination)

/-- The virtual connection of the client's own channels. -/
def ownPair : StdString × StdString := (sender0, receiver0)

/-- The connection channel has sent CONNECT, and not CLOSE since. -/
abbrev Opened (client : ChromecastClient) : Prop :=
  IsOpen ownPair client.frames

def Event.IsOperation : Event → Prop
  | .launch .. | .join .. | .getAppAvailabillity .. | .getStatus ..
  | .mute .. | .setVolume .. | .operate .. => True
  | _ => False

/-- Operations are started only after `AsyncConnect` reported success and
before `Close` is called. -/
def InOrder (client : ChromecastClient) (event : Event) : Prop :=
  event.IsOperation → client.connected = true

/-- The connection of the media channel that a player makes is the one whose
CONNECT is sent, or is open. -/
def Agrees (platform : Platform) (connecting : Outcome Unit)
    (current : DefaultMediaPlayer) (info : ApplicationInfo)
    (frames : List Frame) : Prop :=
  (connecting = .ok () ∧
      mediaSenderId (hashSenderId platform) current =
        hashSenderId platform) ∨
    IsOpen (mediaSenderId (hashSenderId platform) current,
      info.transportId) frames

/-- Every player that is initialized agrees with the CONNECT it sends, and
handlers speak on the client's own connection only while it is open. -/
def Introduces (platform : Platform) (client : ChromecastClient) :
    Event → Prop
  | .receiverMessage payload ending connecting _ =>
      ∀ start ∈ initialization? client.receiverChannel
        (client.receiverChannel.onMessage platform.rapid getId ending
          payload).2,
        ∀ current ∈ client.players start.2.1,
          Agrees platform connecting current start.2.2 client.frames
  | .heartbeatMessage payload sending =>
      sending = .ok () → HeartbeatChannel.isPing platform.rapid payload →
        client.Opened
  | .runSend wait sending =>
      sending = .ok () →
        (client.heartbeatChannel.heartbeatSendTimer.complete wait).map
          Prod.fst = some false → client.Opened
  | .fireReceiver _ sending => sending = .ok () → client.Opened
  | .fireMedia timer sending =>
      sending = .ok () → ∀ channel ∈ client.timerChannel timer,
        ∀ address ∈ client.mediaAddress? channel,
          pairOf address = ownPair → client.Opened
  | _ => True

/-! ## The invariant -/

/-- Each media channel of a player speaks on a connection that is open, or on
the client's own; that one is open while the client is connected. -/
structure Introducing (client : ChromecastClient) : Prop where
  made : ∀ made ∈ client.makers, made.1 < client.nextChannel
  live : ∀ object ∈ client.router.live, object.1 < client.nextChannel
  media : ∀ made ∈ client.makers, ∀ object ∈ client.router.live,
    object.1 = made.1 → object.2.namespaceId = mediaNamespace →
      pairOf object.2 = ownPair ∨ IsOpen (pairOf object.2) client.frames
  opened : client.connected = true → client.Opened
  introduced : Introduced client.frames

/-- Frames were issued, and maybe channels destroyed. -/
structure Issues (client next : ChromecastClient) (more : List Frame) :
    Prop where
  frames : next.frames = client.frames ++ more
  makers : next.makers = client.makers
  live : ∀ object ∈ next.router.live, object ∈ client.router.live
  nextChannel : next.nextChannel = client.nextChannel
  connected : next.connected = true → client.connected = true

section Introducing

variable {platform : Platform} {client next : ChromecastClient}
  {more : List Frame}

theorem Introducing.issues (h : client.Introducing)
    (hissues : Issues client next more)
    (hclose : ∀ frame ∈ more, ¬frame.IsClose)
    (hopen : ∀ frame ∈ more, frame.IsTraffic → ¬frame.IsConnect →
      IsOpen frame.pair client.frames) : next.Introducing where
  made made hmade := by
    rw [hissues.makers] at hmade
    rw [hissues.nextChannel]
    exact h.made made hmade
  live object hobject := by
    rw [hissues.nextChannel]
    exact h.live object (hissues.live object hobject)
  media made hmade object hobject hsame hmedia := by
    rw [hissues.makers] at hmade
    rw [hissues.frames]
    apply (h.media made hmade object (hissues.live object hobject) hsame
      hmedia).imp_right
    intro hpair
    exact hpair.append fun frame hframe _ => hclose frame hframe
  opened hconnected := by
    unfold Opened
    rw [hissues.frames]
    exact (h.opened (hissues.connected hconnected)).append
      fun frame hframe _ => hclose frame hframe
  introduced := by
    rw [hissues.frames]
    exact h.introduced.append hclose hopen

/-- Nothing was issued. -/
theorem Introducing.keeps (h : client.Introducing)
    (hissues : Issues client next []) : next.Introducing :=
  h.issues hissues (fun _ hframe => absurd hframe List.not_mem_nil)
    fun _ hframe => absurd hframe List.not_mem_nil

theorem Destroyed.issues (h : Destroyed client next) :
    Issues client next [] := by
  have hlive := h.live
  rw [h.rest]
  exact ⟨(List.append_nil _).symm, rfl, hlive, rfl, id⟩

theorem Introducing.dropped {player : PlayerId} (h : client.Introducing)
    (hdropped : client.dropped platform player = some next) :
    next.Introducing :=
  keeps_of_dropped (fun _ _ _ hcurrent => ⟨hcurrent.made, hcurrent.live,
      hcurrent.media, hcurrent.opened, hcurrent.introduced⟩)
    (fun _ _ hcurrent hdestroyed => hcurrent.keeps hdestroyed.issues) h
    hdropped

/-- What the receiver channel sends is introduced while the client's own
connection is open. -/
theorem Introducing.setReceiverChannel (h : client.Introducing)
    {channel : ReceiverChannel PlayerId}
    (hopen : client.receiverChannel.requests.documentsSince
      channel.requests ≠ [] → client.Opened) :
    (client.setReceiverChannel channel).Introducing := by
  refine h.issues ⟨rfl, rfl, fun _ => id, rfl, id⟩ ?_ ?_
  · intro frame hframe hclosed
    obtain ⟨document, -, rfl⟩ := List.mem_map.mp hframe
    exact (show receiverNamespace ≠ connectionNamespace by decide)
      hclosed.1
  · intro frame hframe _ _
    obtain ⟨document, hdocument, rfl⟩ := List.mem_map.mp hframe
    exact hopen (List.ne_nil_of_mem hdocument)

theorem exists_player_of_isTraffic {channel : ChannelId} {address : Address}
    {document : Json}
    (h : Frame.IsTraffic ⟨client.issuerOf channel, address, document⟩) :
    ∃ player, client.issuerOf channel = .player player := by
  unfold Frame.IsTraffic issuerOf at *
  cases hfind : client.makers.find? fun made => made.1 = channel with
  | none => simp [hfind] at h
  | some made => exact ⟨made.2, rfl⟩

theorem Introducing.setMediaChannels (h : client.Introducing)
    {channel : ChannelId} {address : Address} {channels : Channels}
    (haddress : client.mediaAddress? channel = some address)
    (hopen : client.mediaChannels.requests.documentsSince
      channels.requests ≠ [] → pairOf address = ownPair → client.Opened) :
    (client.setMediaChannels channel address channels).Introducing := by
  obtain ⟨hlive, hmedia⟩ := mediaAddress?_eq_some haddress
  refine h.issues ⟨rfl, rfl, fun _ => id, rfl, id⟩ ?_ ?_
  · intro frame hframe hclosed
    obtain ⟨document, -, rfl⟩ := List.mem_map.mp hframe
    have hname := hclosed.1.symm.trans hmedia
    cases (show connectionNamespace ≠ mediaNamespace by decide) hname
  · intro frame hframe htraffic _
    obtain ⟨document, hdocument, rfl⟩ := List.mem_map.mp hframe
    obtain ⟨player, hplayer⟩ := exists_player_of_isTraffic htraffic
    have hmade := mem_makers_of_issuerOf hplayer
    rcases h.media _ hmade _ hlive rfl hmedia with hown | hpair
    · have hopened := hopen (List.ne_nil_of_mem hdocument) hown
      change IsOpen (pairOf address) client.frames
      rw [hown]
      exact hopened
    · exact hpair

theorem Introducing.created {player : PlayerId} {receiverId : StdString}
    {current : DefaultMediaPlayer} {mid : ChromecastClient}
    {created : Outcome Unit}
    (h : (client.issue more).Introducing)
    (hcreated : Created platform player (hashSenderId platform) receiverId
      current client mid created)
    (hopen : created = .ok () →
      IsOpen (mediaSenderId (hashSenderId platform) current, receiverId)
        (client.frames ++ more)) : (mid.issue more).Introducing := by
  have hcount := hcreated.nextChannel
  have hframes : mid.frames = client.frames := by
    rw [hcreated.rest]
  have hconnected : mid.connected = client.connected := by
    rw [hcreated.rest]
  have hsame : (mid.issue more).frames = (client.issue more).frames :=
    congrArg (· ++ more) hframes
  refine ⟨fun made hmade => ?_, fun object hobject => ?_, ?_, ?_, ?_⟩
  · rcases hcreated.makers made hmade with hold | ⟨-, -, hbound⟩
    · exact Nat.lt_trans (h.made made hold) hcount
    · exact hbound
  · rcases hcreated.live object hobject with hold | ⟨-, hbound, -⟩
    · exact Nat.lt_trans (h.live object hold) hcount
    · exact hbound
  · intro made hmade object hobject hid hmedia
    rw [hsame]
    rcases hcreated.makers made hmade with hold | ⟨-, hnew, -⟩
    · have hbelow : made.1 < client.nextChannel := h.made made hold
      rcases hcreated.live object hobject with holder | ⟨hlater, -⟩
      · exact h.media made hold object holder hid hmedia
      · rw [hid] at hlater
        exact absurd hlater (Nat.not_le_of_lt hbelow)
    · rcases hcreated.live object hobject with holder | ⟨-, -, haddress⟩
      · have hbelow : object.1 < client.nextChannel := h.live object holder
        rw [hid] at hbelow
        exact absurd hnew (Nat.not_le_of_lt hbelow)
      · rcases haddress with hconnection | ⟨hok, hmade⟩
        · rw [hconnection] at hmedia
          cases (show connectionNamespace ≠ mediaNamespace by decide) hmedia
        · rw [hmade]
          exact Or.inr (hopen hok)
  · intro hnow
    have hopened := h.opened (hconnected.symm.trans hnow)
    unfold Opened at hopened ⊢
    rw [hsame]
    exact hopened
  · rw [hsame]
    exact h.introduced

theorem isConnect_connectFrame (platform : Platform) (player : PlayerId)
    (info : ApplicationInfo) :
    (connectFrame platform player info).IsConnect := ⟨rfl, rfl⟩

theorem Introducing.initialized {player : PlayerId} {cause : Cause}
    {info : ApplicationInfo} {current : DefaultMediaPlayer}
    {connecting sending : Outcome Unit} (h : client.Introducing)
    (hcase : InitializeCase platform player cause info current sending client
      next connecting)
    (hagrees : Agrees platform connecting current info client.frames) :
    next.Introducing := by
  have hunissued : (client.issue []).Introducing :=
    h.keeps ⟨by simp [issue], rfl, fun _ => id, rfl, id⟩
  cases hcase with
  | refused _ fault mid hcreated hnext =>
      have hmid := hunissued.created hcreated fun hok => by cases hok
      rw [hnext]
      exact hmid.keeps
        ⟨by simp [issue, recordCreation], rfl, fun _ => id, rfl, id⟩
  | unconnected fault mid after hcreated hafter hnext =>
      have hmid := hunissued.created hcreated fun _ => by
        rw [List.append_nil]
        exact hagrees.resolve_left fun hboth => by cases hboth.1
      rw [hnext]
      exact hmid.keeps
        ⟨by simp [issue, recordCreation, setPlayer], rfl, fun _ => id, rfl,
          id⟩
  | connected mid after channel address channels hcreated hafter hchannel
      haddress hchannels hnext =>
      have hconnect := isConnect_connectFrame platform player info
      have hissued : (client.issue
          [connectFrame platform player info]).Introducing := by
        refine h.issues ⟨rfl, rfl, fun _ => id, rfl, id⟩ ?_ ?_
        · intro frame hframe
          rw [List.mem_singleton.mp hframe]
          exact not_isClose_of_isConnect hconnect
        · intro frame hframe _ hnot
          rw [List.mem_singleton.mp hframe] at hnot
          exact absurd hconnect hnot
      have hopen : IsOpen (mediaSenderId (hashSenderId platform) current,
          info.transportId)
          (client.frames ++ [connectFrame platform player info]) := by
        rcases hagrees with ⟨-, hsame⟩ | hopen
        · rw [hsame]
          exact isOpen_connect hconnect
        · apply hopen.append
          intro frame hframe _
          rw [List.mem_singleton.mp hframe]
          exact not_isClose_of_isConnect hconnect
      have hmid := hissued.created hcreated fun _ => hopen
      have hset : (((mid.recordCreation cause (.ok ())).setPlayer player
          { after with sessionId := info.sessionId }).issue
            [connectFrame platform player info]).Introducing :=
        ⟨hmid.made, hmid.live, hmid.media, hmid.opened, hmid.introduced⟩
      rw [hnext]
      apply hset.setMediaChannels haddress
      intro _ hown
      obtain ⟨other, made, hother, hmade, -, hthere⟩ := hcreated.media rfl
      cases hafter.symm.trans hother
      cases hchannel.symm.trans hmade
      have hspoken := hthere address (mediaAddress?_eq_some haddress).1
      rw [hspoken] at hown
      have hframes : mid.frames = client.frames := by
        rw [hcreated.rest]
      change IsOpen ownPair
        (mid.frames ++ [connectFrame platform player info])
      rw [hframes, ← hown]
      exact hopen

theorem Introducing.closing (h : client.Introducing) :
    client.closing.Introducing where
  made := h.made
  live := h.live
  media made hmade object hobject hid hmedia := by
    by_cases hown : pairOf object.2 = ownPair
    · exact Or.inl hown
    · have hpair := (h.media made hmade object hobject hid hmedia).resolve_left
        hown
      refine Or.inr (hpair.append fun frame hframe hsame => ?_)
      rw [List.mem_singleton.mp hframe] at hsame
      exact absurd hsame.symm hown
  opened hconnected := absurd hconnected Bool.false_ne_true
  introduced := by
    refine introducedAfter_append.mpr ⟨h.introduced, ?_, trivial⟩
    intro htraffic
    exact htraffic.elim

theorem Introducing.started (h : client.Introducing) :
    client.started.Introducing := by
  let frame : Frame := ⟨.connectionChannel, ownAddress connectionNamespace,
    controlDocument "CONNECT"⟩
  have hconnect : frame.IsConnect := ⟨rfl, rfl⟩
  have hissued : (client.issue [frame]).Introducing := by
    refine h.issues ⟨rfl, rfl, fun _ => id, rfl, id⟩ ?_ ?_
    · intro other hother
      rw [List.mem_singleton.mp hother]
      exact not_isClose_of_isConnect hconnect
    · intro other hother _ hnot
      rw [List.mem_singleton.mp hother] at hnot
      exact absurd hconnect hnot
  exact ⟨hissued.made, hissued.live, hissued.media,
    fun _ => isOpen_connect hconnect, hissued.introduced⟩

theorem Introducing.register (h : client.Introducing) {address : Address}
    {outcome : Outcome Unit} {router : Router}
    (hconstruct : client.router.construct platform.strings client.nextChannel
      address = some (outcome, router)) :
    Introducing { client with
      router
      nextChannel := client.nextChannel + 1
      others := client.nextChannel :: client.others } := by
  obtain ⟨-, hcase⟩ := Router.construct_inserted hconstruct
  have hlive : ∀ object ∈ router.live, object ∈ client.router.live ∨
      object.1 = client.nextChannel := by
    intro object hobject
    rcases hcase with ⟨_, _, -, rfl, -⟩ | ⟨-, hlive, -⟩
    · exact Or.inl hobject
    · rw [hlive] at hobject
      rcases List.mem_cons.mp hobject with rfl | hold
      · exact Or.inr rfl
      · exact Or.inl hold
  refine ⟨fun made hmade => Nat.lt_succ_of_lt (h.made made hmade),
    fun object hobject => ?_, ?_, h.opened, h.introduced⟩
  · rcases hlive object hobject with hold | hnew
    · exact Nat.lt_succ_of_lt (h.live object hold)
    · exact Nat.lt_succ_of_le (Nat.le_of_eq hnew)
  · intro made hmade object hobject hid hmedia
    rcases hlive object hobject with hold | hnew
    · exact h.media made hmade object hold hid hmedia
    · have hbelow : made.1 < client.nextChannel := h.made made hmade
      exact absurd (hid.symm.trans hnew) (Nat.ne_of_lt hbelow)

theorem Introducing.setHeartbeatChannel (h : client.Introducing)
    {channel : HeartbeatChannel}
    (hopen : channel.frames.drop client.heartbeatChannel.frames.length ≠ [] →
      client.Opened) : (client.setHeartbeatChannel channel).Introducing := by
  refine h.issues ⟨rfl, rfl, fun _ => id, rfl, id⟩ ?_ ?_
  · intro frame hframe hclosed
    obtain ⟨document, -, rfl⟩ := List.mem_map.mp hframe
    exact (show heartbeatNamespace ≠ connectionNamespace by decide)
      hclosed.1
  · intro frame hframe _ _
    obtain ⟨document, hdocument, rfl⟩ := List.mem_map.mp hframe
    exact hopen (List.ne_nil_of_mem hdocument)

theorem sends_of_onMessage (rapid : RapidJson) (payload : StdString)
    (sending : Outcome Unit) (channel : HeartbeatChannel) :
    (channel.onMessage rapid payload sending).2.frames = channel.frames ∨
      (sending = .ok () ∧ HeartbeatChannel.isPing rapid payload) := by
  rcases channel.onMessage_cases rapid payload sending with
    ⟨-, hsame⟩ | ⟨⟨hping, hsent⟩, -⟩
  · exact Or.inl (congrArg HeartbeatChannel.frames hsame)
  · exact Or.inr ⟨hsent, hping⟩

/-- The heartbeat channel sends for a PING, and from its send timer. -/
theorem sends_of_step {rapid : RapidJson} {aborted : ErrorCode}
    {channel after : HeartbeatChannel} {event : HeartbeatChannel.Event}
    (hstep : channel.step rapid aborted event = some after)
    (hsent : after.frames.drop channel.frames.length ≠ []) :
    (∃ payload, event = .message payload (.ok ()) ∧
        HeartbeatChannel.isPing rapid payload) ∨
      ∃ wait, event = .runSend wait (.ok ()) ∧
        (channel.heartbeatSendTimer.complete wait).map Prod.fst =
          some false := by
  cases event with
  | elapse duration =>
      cases hstep
      simp at hsent
  | start =>
      cases hstep
      exact absurd List.drop_length hsent
  | message payload sending =>
      have hcase := sends_of_onMessage rapid payload sending channel
      simp only [HeartbeatChannel.step] at hstep
      split at hstep
      next => cases hstep
      next outcome last _ hmessage =>
        cases hstep
        rw [hmessage] at hcase
        rcases hcase with hsame | ⟨rfl, hping⟩
        · have hframes : last.hear.frames = channel.frames := hsame
          rw [hframes, List.drop_length] at hsent
          exact absurd rfl hsent
        · exact Or.inl ⟨payload, rfl, hping⟩
  | expireSend index =>
      obtain ⟨timer, -, rfl⟩ := Option.map_eq_some_iff.mp hstep
      simp at hsent
  | expireReceive index =>
      obtain ⟨timer, -, rfl⟩ := Option.map_eq_some_iff.mp hstep
      simp at hsent
  | runSend index sending =>
      obtain ⟨⟨error, timer⟩, hcomplete, rfl⟩ :=
        Option.map_eq_some_iff.mp hstep
      cases error with
      | true => exact absurd List.drop_length hsent
      | false =>
          cases sending with
          | error fault => exact absurd List.drop_length hsent
          | ok _ => exact Or.inr ⟨index, rfl, by rw [hcomplete]; rfl⟩
  | runReceive index closing =>
      obtain ⟨⟨error, timer⟩, -, rfl⟩ := Option.map_eq_some_iff.mp hstep
      cases error <;> cases closing <;> exact absurd List.drop_length hsent
  | close =>
      cases hstep
      simp at hsent

theorem documentsSince_fire_error {ι κ : Type} [DecidableEq ι]
    {world next : Requests ι κ} {rapid : RapidJson} {timer : ℕ}
    {fault : Fault}
    (h : world.fire rapid timer (.error fault) = some next) :
    world.documentsSince next = [] := by
  unfold Requests.fire at h
  split at h
  next => cases h
  next found _ =>
    split_ifs at h
    cases h
    simp [Requests.documentsSince, Requests.request, Requests.setTimer,
      Requests.documents]

theorem documentsSince_expire {ι κ : Type} {world next : Requests ι κ}
    {timer : ℕ} (h : world.expire timer = some next) :
    world.documentsSince next = [] := by
  unfold Requests.expire at h
  split at h
  next => cases h
  next found _ =>
    split_ifs at h
    cases h
    simp [Requests.documentsSince, Requests.setTimer, Requests.documents]

theorem Introducing.launched {player : Option PlayerId}
    (h : client.Introducing) (hconnected : client.connected = true)
    (hcase : LaunchCase platform client next player) : next.Introducing := by
  cases player with
  | none =>
      cases hcase with
      | refused hnext =>
          rw [hnext]
          exact h.setReceiverChannel fun _ => h.opened hconnected
  | some player =>
      have hboth : next.Introducing ∧ next.connected = true := by
        apply hcase.keeps
        · rintro current channel ⟨hcurrent, hstill⟩ -
          exact ⟨hcurrent.setReceiverChannel fun _ => hcurrent.opened hstill,
            hstill⟩
        · rintro current other changed ⟨hcurrent, hstill⟩
          exact ⟨⟨hcurrent.made, hcurrent.live, hcurrent.media,
            hcurrent.opened, hcurrent.introduced⟩, hstill⟩
        · rintro current after ⟨hcurrent, hstill⟩ hdestroyed
          refine ⟨hcurrent.keeps hdestroyed.issues, ?_⟩
          rw [hdestroyed.rest]
          exact hstill
        · rintro current other ⟨hcurrent, hstill⟩
          exact ⟨⟨hcurrent.made, hcurrent.live, hcurrent.media,
            hcurrent.opened, hcurrent.introduced⟩, hstill⟩
        · exact ⟨h, hconnected⟩
      exact hboth.1

theorem frames_setReceiverChannel_onMessage (payload : StdString)
    (ending : Outcome Unit) (client : ChromecastClient) :
    (client.setReceiverChannel (client.receiverChannel.onMessage
      platform.rapid getId ending payload).2).frames = client.frames := by
  change client.frames ++ List.map _
    (client.receiverChannel.requests.documentsSince _) = client.frames
  rw [(ReceiverChannel.onMessage_requests platform.rapid getId ending payload
    client.receiverChannel).documentsSince]
  exact List.append_nil _

theorem Introducing.step {event : Event} (h : client.Introducing)
    (horder : client.InOrder event)
    (hintroduces : client.Introduces platform event)
    (hstep : client.step platform event = some next) :
    next.Introducing := by
  cases step_cases hstep with
  | makePlayer player senderId hnew =>
      exact ⟨h.made, h.live, h.media, h.opened, h.introduced⟩
  | release player current next hcurrent hnext =>
      have hset : (client.setPlayer player
          { current with held := false }).Introducing :=
        ⟨h.made, h.live, h.media, h.opened, h.introduced⟩
      exact hset.dropped hnext
  | register address outcome router hconstruct =>
      exact h.register hconstruct
  | unregister channel next hnext => exact h.keeps hnext.issues
  | asyncConnect validAddress =>
      exact ⟨h.made, h.live, h.media, h.opened, h.introduced⟩
  | connectFailed error sending hfailed =>
      exact ⟨h.made, h.live, h.media, h.opened, h.introduced⟩
  | connected =>
      have hcounted : Introducing { client with
          connecting := client.connecting - 1 } :=
        ⟨h.made, h.live, h.media, h.opened, h.introduced⟩
      exact hcounted.started
  | closeFailed fault closing =>
      exact ⟨h.made, h.live, h.media,
        fun hopen => absurd hopen Bool.false_ne_true, h.introduced⟩
  | closeRaised fault => exact h.closing
  | closed =>
      exact ⟨h.closing.made, h.closing.live, h.closing.media,
        h.closing.opened, h.closing.introduced⟩
  | launch player hasCallback sending next hcase =>
      exact h.launched (horder trivial) hcase
  | request event channel hevent hasks happlication hpending =>
      have hoperation : event.IsOperation := by
        cases event <;> first | exact hevent.elim | exact trivial
      exact h.setReceiverChannel fun _ => h.opened (horder hoperation)
  | refused player operation hasCallback sending => exact h
  | operated player operation hasCallback sending channel address channels
      current hcurrent hchannel hsendable haddress =>
      exact h.setMediaChannels haddress
        fun _ _ => h.opened (horder trivial)
  | received payload ending connecting sending hsilent happlication
      hpending =>
      have hreceived := ReceiverChannel.onMessage_requests platform.rapid
        getId ending payload client.receiverChannel
      exact h.setReceiverChannel
        fun hsent => absurd hreceived.documentsSince hsent
  | initialized payload ending connecting sending cause player info current
      next hmessage hcurrent hcase =>
      have hreceived := ReceiverChannel.onMessage_requests platform.rapid
        getId ending payload client.receiverChannel
      have hset := h.setReceiverChannel
        fun hsent => absurd hreceived.documentsSince hsent
      apply hset.initialized hcase
      rw [frames_setReceiverChannel_onMessage]
      exact hintroduces _ hmessage current hcurrent
  | mediaMessage channel payload ending address channels haddress
      hreceived =>
      exact h.setMediaChannels haddress
        fun hsent => absurd hreceived.documentsSince hsent
  | heartbeat event step channel hevent hnot hchannel =>
      refine h.setHeartbeatChannel fun hsent => ?_
      rcases sends_of_step hchannel hsent with ⟨payload, rfl, hping⟩ |
        ⟨wait, rfl, hcomplete⟩
      · cases event <;> cases hevent
        exact hintroduces rfl hping
      · cases event <;> cases hevent
        exact absurd trivial hnot
  | heartbeatTimer event step channel hevent htimer hchannel =>
      have hset : (client.setHeartbeatChannel channel).Introducing := by
        apply h.setHeartbeatChannel
        intro hsent
        rcases sends_of_step hchannel hsent with ⟨payload, rfl, hping⟩ |
          ⟨wait, rfl, hcomplete⟩
        · cases event <;> cases hevent
          exact htimer.elim
        · cases event <;> cases hevent
          exact hintroduces rfl hcomplete
      exact ⟨hset.made, hset.live, hset.media, hset.opened,
        hset.introduced⟩
  | expireReceiver timer requests hexpire =>
      exact h.setReceiverChannel
        fun hsent => absurd (documentsSince_expire hexpire) hsent
  | fireReceiver timer sending requests hfire =>
      have hset : (client.setReceiverChannel
          { client.receiverChannel with requests }).Introducing := by
        apply h.setReceiverChannel
        intro hsent
        cases sending with
        | ok _ => exact hintroduces rfl
        | error fault =>
            exact absurd (documentsSince_fire_error hfire) hsent
      exact ⟨hset.made, hset.live, hset.media, hset.opened,
        hset.introduced⟩
  | expireMedia timer requests hexpire =>
      exact ⟨h.made, h.live, h.media, h.opened, h.introduced⟩
  | fireMedia timer sending channel address requests hchannel hfire
      haddress =>
      have hset : (client.setMediaChannels channel address
          { client.mediaChannels with requests }).Introducing := by
        apply h.setMediaChannels haddress
        intro hsent hown
        cases sending with
        | ok _ => exact hintroduces rfl channel hchannel address haddress hown
        | error fault =>
            exact absurd (documentsSince_fire_error hfire) hsent
      exact ⟨hset.made, hset.live, hset.media, hset.opened,
        hset.introduced⟩

/-- Every frame of the client's own channels and of its players is preceded by
CONNECT, if each player that is initialized has no sender id of its own, or
the one its CONNECT is sent for. -/
theorem introduced_of_run {memory : Memory} {events : List Event}
    (hconstruct : construct platform memory = some client)
    (horder : Along (ChromecastClient.step platform) InOrder client events)
    (hintroduces : Along (ChromecastClient.step platform)
      (Introduces platform) client events) :
    Throughout (ChromecastClient.step platform)
      (fun current => Introduced current.frames) client events := by
  have hstart : client.Introducing := by
    have hconstructed := constructed hconstruct
    have hlive := hconstructed.live
    rw [hconstructed.rest]
    exact ⟨fun made hmade => absurd hmade List.not_mem_nil, hlive,
      fun made hmade => absurd hmade List.not_mem_nil,
      fun hopen => absurd hopen Bool.false_ne_true, trivial⟩
  have hthroughout : Throughout (ChromecastClient.step platform) Introducing
      client events := throughout_of_along
    (fun current event next hcurrent hevent hstep =>
      hcurrent.step hevent.1 hevent.2 hstep) hstart
    (horder.and hintroduces)
  exact throughout_mono (fun current hcurrent => hcurrent.introduced)
    hthroughout

/-! ## Players that do not agree -/

theorem documentsSince_getStatus (rapid : RapidJson) (channel : ChannelId)
    (channels : Channels) :
    channels.requests.documentsSince
      (channels.getStatus rapid channel true (.ok ())).2.requests ≠ [] := by
  simp [Channels.getStatus, Channels.request, Requests.userRequest,
    Requests.request, Requests.documentsSince, Requests.documents]

/-- The first frame that a media channel adds. -/
theorem isOpen_of_introduced {channel : ChannelId} {address : Address}
    {channels : Channels} {player : PlayerId}
    (hmade : (channel, player) ∈ client.makers)
    (haddress : client.mediaAddress? channel = some address)
    (hsent : client.mediaChannels.requests.documentsSince
      channels.requests ≠ [])
    (h : Introduced
      (client.setMediaChannels channel address channels).frames) :
    IsOpen (pairOf address) client.frames := by
  obtain ⟨document, rest, hdocuments⟩ := List.exists_cons_of_ne_nil hsent
  have hadded := (introducedAfter_append.mp h).2
  rw [hdocuments] at hadded
  apply hadded.1
  · unfold Frame.IsTraffic issuerOf
    cases hfind : client.makers.find? fun made => made.1 = channel with
    | some made => exact trivial
    | none =>
        have hnot := List.find?_eq_none.mp hfind _ hmade
        simp at hnot
  · intro hconnect
    have hmedia := (mediaAddress?_eq_some haddress).2
    cases (show connectionNamespace ≠ mediaNamespace by decide)
      (hconnect.1.symm.trans hmedia)

/-- A player that was initialized, and does not agree, asks for its status
without CONNECT. -/
theorem not_introduced_of_disagrees {payload : StdString}
    {ending : Outcome Unit} {cause : Cause}
    {player : PlayerId} {info : ApplicationInfo}
    {current : DefaultMediaPlayer} {created : List (Cause × Outcome Unit)}
    (hcurrent : client.players player = some current)
    (hmessage : initialization? client.receiverChannel
      (client.receiverChannel.onMessage platform.rapid getId ending
        payload).2 = some (cause, player, info))
    (hdisagrees : ¬Agrees platform (.ok ()) current info client.frames)
    (hstep : client.step platform
      (.receiverMessage payload ending (.ok ()) (.ok ())) = some next)
    (hcreated : next.creations = created ++ [(cause, .ok ())]) :
    ¬Introduced next.frames := by
  intro hintroduced
  cases step_cases hstep with
  | request event channel hevent => exact hevent
  | heartbeat event step channel hevent => cases hevent
  | heartbeatTimer event step channel hevent => cases hevent
  | received payload ending connecting sending hsilent =>
      rw [hmessage] at hsilent
      cases hsilent
  | initialized payload ending connecting sending _ _ _ other _ hother
      hfound hcase =>
      cases hmessage.symm.trans hother
      cases hcurrent.symm.trans hfound
      cases hcase with
      | refused _ fault mid hmade hnext =>
          rw [hnext] at hcreated
          have hlast := List.append_inj_right' hcreated rfl
          cases hlast
      | connected mid after channel address channels hmade hafter hchannel
          haddress hchannels hnext =>
          obtain ⟨owner, own, howner, hown, hmaker, hthere⟩ := hmade.media rfl
          cases hafter.symm.trans howner
          cases hchannel.symm.trans hown
          have haddressed := hthere address
            (mediaAddress?_eq_some haddress).1
          have hframes : mid.frames = client.frames := by
            rw [hmade.rest]
            exact frames_setReceiverChannel_onMessage payload ending client
          rw [hnext] at hintroduced
          have hsent := documentsSince_getStatus platform.rapid channel
            mid.mediaChannels
          rw [← hchannels] at hsent
          have hopen := @isOpen_of_introduced
            (((mid.recordCreation cause (.ok ())).setPlayer player
              { after with sessionId := info.sessionId }).issue
                [connectFrame platform player info])
            channel address channels player hmaker haddress hsent hintroduced
          change IsOpen (pairOf address)
            (mid.frames ++ [connectFrame platform player info]) at hopen
          rw [hframes, haddressed] at hopen
          apply hdisagrees
          rcases isOpen_of_snoc hopen with hbefore | hpair
          · exact Or.inr hbefore
          · exact Or.inl ⟨rfl, (congrArg Prod.fst hpair).symm⟩

end Introducing

end ChromecastClient

/-! ## Runs -/

instance (frame : Frame) : Decidable frame.IsTraffic :=
  match h : frame.issuer with
  | .receiverChannel | .heartbeatChannel | .player _ =>
      .isTrue (by simp [Frame.IsTraffic, h])
  | .connectionChannel | .other => .isFalse (by simp [Frame.IsTraffic, h])

def decidableIsText (text : StdString) :
    (value? : Option Json) → Decidable (value? = some (.ofString text))
  | some (.string other) => decidable_of_iff (other = cStr text)
      ⟨fun h => by rw [h]; rfl, fun h => Json.string.inj (Option.some.inj h)⟩
  | none => .isFalse (by simp)
  | some .null | some (.bool _) | some (.uint _) | some (.negInt _)
  | some (.double _) | some (.array _) | some (.object _) =>
      .isFalse (by simp [Json.ofString])

instance (frame : Frame) (type : String) :
    Decidable (frame.IsControl type) :=
  have := decidableIsText (lit type) (frame.document.find? (lit "type"))
  inferInstanceAs (Decidable (_ ∧ _))

def decidableIsOpen (pair : StdString × StdString) :
    (frames : List Frame) → Decidable (IsOpen pair frames)
  | [] => .isFalse id
  | frame :: rest =>
      have := decidableIsOpen pair rest
      inferInstanceAs (Decidable (_ ∨ (frame.pair = pair ∧ frame.IsConnect ∧
        ∀ later ∈ rest, later.pair = pair → ¬later.IsClose)))

instance (pair : StdString × StdString) (frames : List Frame) :
    Decidable (IsOpen pair frames) := decidableIsOpen pair frames

def decidableIntroducedAfter :
    (before frames : List Frame) → Decidable (IntroducedAfter before frames)
  | _, [] => .isTrue trivial
  | before, frame :: rest =>
      have := decidableIntroducedAfter (before ++ [frame]) rest
      inferInstanceAs (Decidable ((_ → _ → IsOpen frame.pair before) ∧ _))

instance (frames : List Frame) : Decidable (Introduced frames) :=
  decidableIntroducedAfter [] frames

namespace ChromecastClient

instance (event : Event) : Decidable event.IsOperation :=
  match event with
  | .launch .. | .join .. | .getAppAvailabillity .. | .getStatus ..
  | .mute .. | .setVolume .. | .operate .. => .isTrue trivial
  | .makePlayer .. | .release _ | .register _ | .unregister _
  | .asyncConnect _ | .connectCompleted .. | .close .. | .receiverMessage ..
  | .mediaMessage .. | .heartbeatMessage .. | .elapse _ | .expireSend _
  | .runSend .. | .expireReceive _ | .runReceive .. | .expireReceiver _
  | .fireReceiver .. | .expireMedia _ | .fireMedia .. => .isFalse id

instance (client : ChromecastClient) (event : Event) :
    Decidable (client.InOrder event) :=
  inferInstanceAs (Decidable (_ → _))

instance (platform : Platform) (connecting : Outcome Unit)
    (current : DefaultMediaPlayer) (info : ApplicationInfo)
    (frames : List Frame) :
    Decidable (Agrees platform connecting current info frames) :=
  inferInstanceAs (Decidable (_ ∨ _))

instance (platform : Platform) (client : ChromecastClient) (event : Event) :
    Decidable (client.Introduces platform event) :=
  match event with
  | .receiverMessage payload ending connecting _ =>
      inferInstanceAs (Decidable (∀ start ∈ initialization?
        client.receiverChannel (client.receiverChannel.onMessage
          platform.rapid getId ending payload).2,
        ∀ current ∈ client.players start.2.1,
          Agrees platform connecting current start.2.2 client.frames))
  | .heartbeatMessage .. => inferInstanceAs (Decidable (_ → _ → _))
  | .runSend .. => inferInstanceAs (Decidable (_ → _ → _))
  | .fireReceiver .. => inferInstanceAs (Decidable (_ → _))
  | .fireMedia timer _ => inferInstanceAs (Decidable (_ →
      ∀ channel ∈ client.timerChannel timer,
        ∀ address ∈ client.mediaAddress? channel,
          pairOf address = ownPair → client.Opened))
  | .makePlayer .. | .release _ | .register _ | .unregister _
  | .asyncConnect _ | .connectCompleted .. | .close .. | .launch ..
  | .join .. | .getAppAvailabillity .. | .getStatus .. | .mute ..
  | .setVolume .. | .operate .. | .mediaMessage .. | .elapse _
  | .expireSend _ | .expireReceive _ | .runReceive .. | .expireReceiver _
  | .expireMedia _ => .isTrue trivial

/-- A player is launched and asked for its status. -/
def launchedRun (senderId : StdString) : List Event :=
  [.makePlayer 0 senderId, .asyncConnect true,
    .connectCompleted false (.ok ()), .launch (some 0) true (.ok ()),
    .receiverMessage playerStatus (.ok ()) (.ok ()) (.ok ())]

theorem introduced_of_run_launched :
    ∃ client, construct textPlatform ReceiverChannel.cleared = some client ∧
      Throughout (step textPlatform)
        (fun current => Introduced current.frames) client
        (launchedRun []) := by
  have hsome : (construct textPlatform ReceiverChannel.cleared).any
      (fun client => decide (Along (step textPlatform) InOrder client
          (launchedRun [])) &&
        decide (Along (step textPlatform) (Introduces textPlatform) client
          (launchedRun []))) := by decide +kernel
  obtain ⟨client, hconstruct, hboth⟩ := (Option.any_eq_true _ _).mp hsome
  obtain ⟨horder, hintroduces⟩ := (Bool.and_eq_true _ _).mp hboth
  exact ⟨client, hconstruct, introduced_of_run hconstruct
    (of_decide_eq_true horder) (of_decide_eq_true hintroduces)⟩

/-- A player with a sender id of its own asks for its status on a connection
for which no CONNECT was sent. -/
theorem not_introduced_senderId :
    ∃ client, construct textPlatform ReceiverChannel.cleared = some client ∧
      Along (step textPlatform) InOrder client (launchedRun (lit "me")) ∧
      (exec (step textPlatform) client (launchedRun (lit "me"))).isSome ∧
      ¬Throughout (step textPlatform)
        (fun current => Introduced current.frames) client
        (launchedRun (lit "me")) := by
  apply exists_of_any
  decide +kernel

end ChromecastClient

end LibChromecast
