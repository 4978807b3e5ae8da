import LibChromecast.ClientLinks
import LibChromecast.HeardMessages

/-!
# What the device brings about

A client and its device once more, and now what the client makes of what it
hears.  An answer of the device releases the request it answers for good, and
every PING of the device comes back to it as one PONG.
-/

namespace LibChromecast

open Foundation Foundation.LengthPrefix Foundation.Transition Relation

/-! ## Messages with the same content -/

namespace CastMessage

/-- A text whose `type` is PONG. -/
def IsPong (rapid : RapidJson) (message : CastMessage) : Prop :=
  message.payloadType = .string ∧
    HeartbeatChannel.isPong (rapid.parseMessage message.payloadUtf8) = true

instance (rapid : RapidJson) (message : CastMessage) :
    Decidable (message.IsPong rapid) :=
  inferInstanceAs (Decidable (_ ∧ _))

variable {rapid : RapidJson} {a b : CastMessage}

theorem SameContent.payloadUtf8_eq (hsame : SameContent a b)
    (hstring : b.payloadType = .string) : a.payloadUtf8 = b.payloadUtf8 := by
  obtain ⟨-, htype, hpayload⟩ := hsame
  unfold payload at hpayload
  rw [htype, hstring] at hpayload
  exact hpayload

theorem SameContent.isPing_iff (hsame : SameContent a b) :
    a.IsPing rapid ↔ b.IsPing rapid := by
  unfold IsPing
  rw [hsame.2.1]
  refine and_congr_right fun hstring => ?_
  rw [hsame.payloadUtf8_eq hstring]

theorem SameContent.isPong_iff (hsame : SameContent a b) :
    a.IsPong rapid ↔ b.IsPong rapid := by
  unfold IsPong
  rw [hsame.2.1]
  refine and_congr_right fun hstring => ?_
  rw [hsame.payloadUtf8_eq hstring]

theorem IsFor.namespaceId_eq {own : Address} (hfor : a.IsFor own) :
    own.namespaceId = a.address.namespaceId := by
  unfold IsFor at hfor
  split_ifs at hfor
  · exact hfor.2
  · exact hfor.2.2

variable {heard messages : List CastMessage}

theorem exists_of_sameContent
    (hsame : List.Forall₂ SameContent heard messages)
    (hmem : b ∈ messages) : ∃ a ∈ heard, SameContent a b := by
  obtain ⟨index, hindex, rfl⟩ := List.mem_iff_getElem.mp hmem
  have hheard : index < heard.length := hsame.length_eq ▸ hindex
  exact ⟨heard[index], List.getElem_mem _, hsame.get hheard hindex⟩

theorem countP_of_sameContent {condition : CastMessage → Prop}
    [DecidablePred condition]
    (hcondition : ∀ a b, SameContent a b → (condition a ↔ condition b))
    (hsame : List.Forall₂ SameContent heard messages) :
    heard.countP (condition ·) = messages.countP (condition ·) := by
  rw [List.countP_eq_length_filter, List.countP_eq_length_filter]
  exact (List.rel_filter (fun a b hab => by
    simpa using hcondition a b hab) hsame).length_eq

end CastMessage

namespace Link.Piped

variable {messages more heard : List CastMessage} {address : Address}
  {skipped : ℕ} {drained : Prop}

/-- What comes late enough is heard. -/
theorem exists_of_mem
    (h : Piped (messages ++ more) heard address skipped drained)
    (hskipped : skipped ≤ messages.length) (hdrained : drained)
    {message : CastMessage} (hmem : message ∈ more)
    (hfor : message.IsFor address) :
    ∃ received ∈ heard, CastMessage.SameContent received message := by
  obtain ⟨earlier, meanwhile, later, hsplit, hlength, hheard, hall⟩ := h
  rw [hall hdrained, List.append_nil] at hsplit
  have hmeanwhile : meanwhile = messages.drop skipped ++ more := by
    rw [← List.drop_append_of_le_length hskipped, hsplit, ← hlength,
      List.drop_left]
  refine CastMessage.exists_of_sameContent hheard (List.mem_filter.mpr ⟨?_,
    decide_eq_true hfor⟩)
  rw [hmeanwhile]
  exact List.mem_append_right _ hmem

/-- How many of a kind are heard, when nothing is skipped. -/
theorem countP_heard {condition : CastMessage → Prop}
    [DecidablePred condition]
    (hcondition : ∀ a b, CastMessage.SameContent a b →
      (condition a ↔ condition b))
    (h : Piped messages heard address 0 drained) :
    heard.countP (condition ·) ≤
        (messages.filter (·.IsFor address)).countP (condition ·) ∧
      (drained → heard.countP (condition ·) =
        (messages.filter (·.IsFor address)).countP (condition ·)) := by
  obtain ⟨earlier, meanwhile, later, hsplit, hlength, hheard, hall⟩ := h
  obtain rfl := List.eq_nil_of_length_eq_zero hlength
  rw [List.nil_append] at hsplit
  rw [CastMessage.countP_of_sameContent hcondition hheard, hsplit,
    List.filter_append, List.countP_append]
  refine ⟨Nat.le_add_right _ _, fun hdrained => ?_⟩
  rw [hall hdrained]
  rfl

end Link.Piped

/-! ## The client in a run of the link -/

namespace Endpoint

variable {codec : ProtobufCodec} {platform : Platform}
  {endpoint next : Endpoint}

theorem calls_of_step {event : Event}
    (hstep : endpoint.step codec platform event = some next) :
    endpoint.connection.calls <+: next.connection.calls := by
  cases event with
  | call event =>
      simp only [step, Option.ite_none_right_eq_some] at hstep
      obtain ⟨after, -, hfollow⟩ := Option.bind_eq_some_iff.mp hstep.2
      rw [calls_of_follow hfollow]
  | taken index count =>
      obtain ⟨outgoing, -, rfl⟩ := Option.map_eq_some_iff.mp hstep
      exact List.prefix_rfl
  | read index completion replies =>
      simp only [step] at hstep
      split at hstep
      next => cases hstep
      next read hread =>
        obtain ⟨after, -, hfollow⟩ := Option.bind_eq_some_iff.mp hstep
        obtain ⟨op, -, -, hcase⟩ := Connection.readCompleted_eq_some hread
        rw [calls_of_follow hfollow]
        rcases hcase.calls_eq with hsame | ⟨message, hadded⟩
        · exact hsame ▸ List.prefix_rfl
        · exact hadded ▸ List.prefix_append _ _

theorem equipped_of_ready {memory : Memory} {garbage : Fin 4 → UInt8}
    (hready : ready platform memory garbage = some endpoint) :
    endpoint.client.Equipped := by
  obtain ⟨client, hclient, rfl⟩ := Option.map_eq_some_iff.mp hready
  have hequipped := ChromecastClient.equipped_of_construct hclient
  exact ⟨⟨hequipped.nodup, hequipped.placed⟩, hequipped.receiver,
    hequipped.heartbeat, hequipped.connection⟩

theorem counted_of_ready {memory : Memory} {garbage : Fin 4 → UInt8}
    (hready : ready platform memory garbage = some endpoint) :
    endpoint.client.Counted := by
  obtain ⟨client, hclient, rfl⟩ := Option.map_eq_some_iff.mp hready
  rw [(ChromecastClient.constructed hclient).rest]
  exact ⟨Requests.consistent_empty, Requests.consistent_empty, rfl, rfl⟩

end Endpoint

namespace ClientLink

/-- What the device has written. -/
def told (codec : ProtobufCodec) (events : List Event) : List CastMessage :=
  (events.filterMap Event.onDevice).filterMap
    (Connection.Event.written codec)

/-- A run, for the client: what it does, while no `OnMessage` raises. -/
structure Performs (codec : ProtobufCodec) (platform : Platform)
    (named : StdString → Prop) (first last : ClientLink)
    (moves : List ChromecastClient.Move) : Prop where
  exec : exec (ChromecastClient.perform platform) first.endpoint.client
    moves = some last.endpoint.client
  named : ∀ move ∈ moves, move.Named named
  accepted : Along (ChromecastClient.perform platform)
    (ChromecastClient.Move.Accepted platform) first.endpoint.client moves

section Performs

variable {codec : ProtobufCodec} {platform : Platform}
  {named : StdString → Prop}
  {ours theirs : Connection → Connection.Event → Prop}
  {state last : ClientLink}

theorem calls_of_run {events : List Event}
    (hrun : exec (step codec platform) state events = some last) :
    state.endpoint.connection.calls <+: last.endpoint.connection.calls := by
  induction events generalizing state with
  | nil =>
      cases hrun
      exact List.prefix_rfl
  | cons event rest ih =>
      obtain ⟨next, hstep, hrest⟩ := exec_cons_eq_some.mp hrun
      refine List.IsPrefix.trans ?_ (ih hrest)
      cases event with
      | client event =>
          simp only [step, Option.ite_none_right_eq_some] at hstep
          obtain ⟨after, hafter, rfl⟩ := Option.map_eq_some_iff.mp hstep.2
          exact Endpoint.calls_of_step hafter
      | device event =>
          simp only [step, Option.ite_none_right_eq_some] at hstep
          obtain ⟨after, -, rfl⟩ := Option.map_eq_some_iff.mp hstep.2
          exact List.prefix_rfl

theorem performs_of_run {events : List Event}
    (hhash : named (ChromecastClient.hashSenderId platform))
    (hrouter : state.endpoint.connection.router =
      state.endpoint.client.router)
    (horderly : state.endpoint.client.Orderly named)
    (hkeeps : Along (step codec platform) (Keeps named ours theirs) state
      events)
    (hrun : exec (step codec platform) state events = some last)
    (hcalls : ∀ call ∈ last.endpoint.connection.calls, call.2 = .ok ()) :
    Performs codec platform named state last
      (outputs (step codec platform) (moves codec platform) state
        events) := by
  induction events generalizing state with
  | nil =>
      cases hrun
      exact ⟨rfl, by simp, trivial⟩
  | cons event rest ih =>
      obtain ⟨next, hstep, hrest⟩ := exec_cons_eq_some.mp hrun
      have hkept := hstep
      rw [outputs_cons_of_step hkept]
      cases event with
      | client event =>
          simp only [step, Option.ite_none_right_eq_some] at hstep
          obtain ⟨after, hafter, rfl⟩ := Option.map_eq_some_iff.mp hstep.2
          obtain ⟨issued, hwired⟩ := Endpoint.wired_of_step hrouter horderly
            hhash hkeeps.1.1 hafter
          have hnamed : ∀ move ∈ state.endpoint.moves codec platform event,
              move.Named named := Endpoint.named_moves hkeeps.1.1
          have hparts := ChromecastClient.parts_of_moves horderly hhash
            hnamed hwired.client
          have hlater := ih hwired.router
            (ChromecastClient.orderly_of_parts hparts horderly)
            (hkeeps.2 _ hkept) hrest
          have hhere := Endpoint.accepted_of_step hafter fun call hcall =>
            hcalls call ((calls_of_run hrest).subset hcall)
          refine ⟨?_, List.forall_mem_append.mpr ⟨hnamed, hlater.named⟩,
            along_append.mpr ⟨hhere, fun mid hmid => ?_⟩⟩
          · rw [exec_append]
            exact Option.bind_eq_some_iff.mpr
              ⟨_, hwired.client, hlater.exec⟩
          · have hsame := hwired.client.symm.trans hmid
            cases hsame
            exact hlater.accepted
      | device event =>
          simp only [step, Option.ite_none_right_eq_some] at hstep
          obtain ⟨after, -, rfl⟩ := Option.map_eq_some_iff.mp hstep.2
          have hlater := ih (by exact hrouter) (by exact horderly)
            (hkeeps.2 _ hkept) hrest
          exact ⟨hlater.exec, hlater.named, hlater.accepted⟩

end Performs

/-! ## Answers -/

theorem told_append (codec : ProtobufCodec) (before after : List Event) :
    told codec (before ++ after) = told codec before ++ told codec after := by
  unfold told
  rw [List.filterMap_append, List.filterMap_append]

theorem endpoint_of_ready {platform : Platform} {memory : Memory}
    {garbage : Side → Fin 4 → UInt8} {state : ClientLink}
    (hready : ready platform memory garbage = some state) :
    Endpoint.ready platform memory (garbage .left) = some state.endpoint := by
  obtain ⟨endpoint, hendpoint, rfl⟩ := Option.map_eq_some_iff.mp hready
  exact hendpoint

theorem mem_of_heardBy {channel : ChannelId} {message : CastMessage}
    {moves : List ChromecastClient.Move}
    (h : message ∈ moves.filterMap (Endpoint.heardBy channel)) :
    ∃ reply, .hear channel message reply ∈ moves := by
  obtain ⟨move, hmove, hheard⟩ := List.mem_filterMap.mp h
  cases move with
  | call event => cases hheard
  | hear other text reply =>
      simp only [Endpoint.heardBy, Option.ite_none_right_eq_some,
        Option.some.injEq] at hheard
      obtain ⟨rfl, rfl⟩ := hheard
      exact ⟨reply, hmove⟩

/-- Before the middle, no more is dispatched than was written. -/
theorem Linked.calls_le {codec : ProtobufCodec} {platform : Platform}
    {named : StdString → Prop}
    {ours : Connection → Connection.Event → Prop}
    {garbage : Side → Fin 4 → UInt8} {before after : List Event}
    {middle last : ClientLink} {early late : List Link.Event}
    (h : Linked codec platform named ours (Connection.Sends codec) garbage
      middle last before after early late)
    (hlistens : Along (Link.step codec platform.strings)
      (Link.At .left Link.Listens) (Link.ready garbage) (early ++ late))
    (hcalls : ∀ call ∈ last.endpoint.connection.calls, call.2 = .ok ()) :
    middle.endpoint.connection.calls.length ≤
      (told codec before).length := by
  have hgrows : middle.endpoint.connection.calls <+:
      last.endpoint.connection.calls := (Connection.run_grows
    ((Link.component .left).exec h.follows.exec)).2
  have hsends : Along (Link.step codec platform.strings)
      (Link.At Side.left.other (Connection.Sends codec))
      (Link.ready garbage) early := (along_append.mp h.theirs).1
  have hcount := (Link.dispatched_of_run h.exec hsends
    (along_append.mp hlistens).1 fun call hcall =>
      hcalls call (hgrows.subset hcall)).2.1
  have hdevice : Link.eventsAt .right early =
      before.filterMap Event.onDevice := by
    have hwhole := h.device
    rw [Link.eventsAt_append, List.filterMap_append,
      h.follows.device] at hwhole
    exact List.append_cancel_right hwhole
  unfold told
  rw [← hdevice]
  exact hcount

/-- What the device writes after the middle to a channel that lives from then
on is handed to it once everything is read. -/
theorem Linked.hear_of_told {codec : ProtobufCodec} {platform : Platform}
    {named : StdString → Prop} {garbage : Side → Fin 4 → UInt8}
    {before after : List Event} {middle last : ClientLink}
    {early late : List Link.Event} {channel : ChannelId} {address : Address}
    {message : CastMessage}
    (h : Linked codec platform named Link.Listens (Connection.Sends codec)
      garbage middle last before after early late)
    (hunit : platform.strings.UnitValued)
    (hcalls : ∀ call ∈ last.endpoint.connection.calls, call.2 = .ok ())
    (hdrained : last.link.Drained .left)
    (hlive : (channel, address) ∈ middle.endpoint.client.router.live)
    (hkept : (channel, address) ∈ last.endpoint.client.router.live)
    (htold : message ∈ told codec after) (hfor : message.IsFor address) :
    ∃ received reply, CastMessage.SameContent received message ∧
      .hear channel received reply ∈
        outputs (step codec platform) (moves codec platform) middle after := by
  have hthere : (channel, address) ∈
      (middle.link.ends .left).router.live := by
    rw [← h.router] at hlive
    exact hlive
  have hspared := (h.follows.spared channel address (h.numbered _ hlive)
    hkept).2
  have hpiped := h.piped .left hunit h.theirs h.ours hcalls hthere hspared
  have hwritten : Link.written codec Side.left.other (early ++ late) =
      told codec before ++ told codec after := by
    rw [← told_append, told, ← h.device]
    rfl
  rw [hwritten] at hpiped
  obtain ⟨received, hreceived, hsame⟩ := hpiped.exists_of_mem
    (h.calls_le h.ours hcalls) hdrained htold hfor
  have hinbox := h.follows.heard channel
  rw [heard] at hinbox
  obtain ⟨reply, hmove⟩ := mem_of_heardBy (hinbox ▸ hreceived)
  exact ⟨received, reply, hsame, hmove⟩

/-- An answer settles for good the request it answers.  In any run in which no
channel of the client has the wildcard as its own source, no probe of the
client fails and none of the device succeeds, the device's writes are served
in order and fit, and no call of `OnMessage` raises: if the device writes an
answer to a request channel that was there before and is still there in the
end, and all that it writes has been read, then the request of that id is not
pending on the channel any more, whatever else was sent, answered and
retransmitted meanwhile. -/
theorem settled_of_drained {codec : ProtobufCodec} {platform : Platform}
    (hunit : platform.strings.UnitValued)
    {memory : Memory} {garbage : Side → Fin 4 → UInt8}
    {before after : List Event} {start middle last : ClientLink}
    {channel : ChannelId} {address : Address} {message : CastMessage}
    {response : Response}
    (hready : ready platform memory garbage = some start)
    (hbefore : exec (step codec platform) start before = some middle)
    (hafter : exec (step codec platform) middle after = some last)
    (hkeeps : Along (step codec platform)
      (Keeps (· ≠ wildcard) Link.Listens (Connection.Sends codec)) start
      (before ++ after))
    (hcalls : ∀ call ∈ last.endpoint.connection.calls, call.2 = .ok ())
    (hdrained : last.link.Drained .left)
    (hdrawn : last.endpoint.client.receiverChannel.requests.drawn < 2 ^ 64)
    (hlive : (channel, address) ∈ middle.endpoint.client.router.live)
    (hkept : (channel, address) ∈ last.endpoint.client.router.live)
    (hother : channel ∉ middle.endpoint.client.others)
    (hrequest : address.namespaceId = receiverNamespace ∨
      address.namespaceId = mediaNamespace)
    (htold : message ∈ told codec after) (hfor : message.IsFor address)
    (hstring : message.payloadType = .string)
    (hresponse : incoming platform.rapid message.payloadUtf8 =
      .ok (some response)) (hid : response.requestId ≠ 0)
    (hasked : response.requestId ≤
      middle.endpoint.client.receiverChannel.requests.requestId) :
    response.requestId ∉ last.endpoint.client.awaited
      (ChromecastClient.requestTable channel address) := by
  have hsender : ChromecastClient.sender0 ≠ wildcard := by decide
  have hhash := ChromecastClient.hashSenderId_ne_wildcard platform
  obtain ⟨early, late, hlinked⟩ := linked_of_run
    (fun _ event hissued hnames => Connection.listens_of_issued hissued
      hnames) hsender hhash hready hbefore hafter hkeeps
  -- the answer is heard after the middle, and the client makes this of it
  obtain ⟨received, reply, hsame, hmove⟩ := hlinked.hear_of_told hunit hcalls
    hdrained hlive hkept htold hfor
  have hendpoint := endpoint_of_ready hready
  have hrouter := Endpoint.router_of_ready hendpoint
  have horderly : start.endpoint.client.Orderly (· ≠ wildcard) :=
    Endpoint.orderly_of_ready hendpoint
  obtain ⟨hearly, hlate⟩ := along_append.mp hkeeps
  have hgrows := calls_of_run hafter
  have hfirst := performs_of_run hhash hrouter horderly hearly hbefore
    fun call hcall => hcalls call (hgrows.subset hcall)
  have hparts := ChromecastClient.parts_of_moves horderly hhash hfirst.named
    hfirst.exec
  have horderlyMiddle := ChromecastClient.orderly_of_parts hparts horderly
  have hperforms := performs_of_run hhash hlinked.router horderlyMiddle
    (hlate middle hbefore) hafter hcalls
  have hcounted := Endpoint.counted_of_ready hendpoint
  have hdrawnMiddle := ChromecastClient.drawn_of_parts hparts hcounted.drawn
  have hdrawnLast :=
    ChromecastClient.drawn_of_parts hlinked.follows.parts hdrawnMiddle.1
  have hhoused := ChromecastClient.housed_of_parts hparts
    (Endpoint.equipped_of_ready hendpoint).toHoused
  rw [← hsame.payloadUtf8_eq hstring] at hresponse
  exact ChromecastClient.settled_of_moves
    { orderly := horderlyMiddle
      housed := hhoused
      old := hlinked.numbered _ hlive
      address_eq := fun own hown => hhoused.address_eq hown hlive
      notOther := hother }
    hhash (hcounted.parts hparts (hdrawnLast.2.trans_lt hdrawn)).1
    hperforms.named hperforms.exec hperforms.accepted hdrawn hmove hrequest
    (hsame.2.1.trans hstring) hresponse hid hasked

/-- The device answers the first request on the receiver channel. -/
def statusMessage : CastMessage :=
  textMessage (ChromecastClient.ownAddress receiverNamespace).swap
    (lit "\x7b\"requestId\":1,\"type\":\"RECEIVER_STATUS\"," ++
      lit "\"status\":\x7b\"volume\":\x7b\"muted\":false,\"level\":1\x7d," ++
      lit "\"isStandBy\":false,\"applications\":[]\x7d\x7d")

def asked : List Event :=
  [.client (.call (.connectCompleted false (.ok ()))),
    .client (.call (.getStatus true (.ok ())))]

/-- The answer, written at once and read in three parts. -/
def answeredStatus : List Event :=
  let body := Outgoing.savedBody googleCodec statusMessage
  let read (bytes : List UInt8) (error : Bool) : Event :=
    .client (.read 0 ⟨error, bytes, none, fun _ => .ok ()⟩ fun _ => {})
  [.device (.write (.asyncWrite statusMessage)),
    .device (.write (.writeSome 0 (body.length + 4))),
    read (encodeBigEndian32 body.length) false,
    read (body.take 9) true, read (body.drop 9) false]

theorem answer_of_any {outcome : Outcome (Option Response)}
    {condition : Response → Bool}
    (h : outcome.toOption.any fun response => response.any condition) :
    ∃ response, outcome = .ok (some response) ∧ condition response := by
  obtain ⟨answer, hanswer, hany⟩ := (Option.any_eq_true _ _).mp h
  obtain ⟨response, rfl, hcondition⟩ := (Option.any_eq_true _ _).mp hany
  cases outcome with
  | error fault => cases hanswer
  | ok answer =>
      cases hanswer
      exact ⟨response, rfl, hcondition⟩

theorem settled_of_drained_asked :
    ∃ start middle last response,
      ready ChromecastClient.textPlatform ReceiverChannel.cleared
          (fun _ _ => 7) = some start ∧
        exec (step googleCodec ChromecastClient.textPlatform) start asked =
          some middle ∧
        exec (step googleCodec ChromecastClient.textPlatform) middle
          answeredStatus = some last ∧
        incoming textJson statusMessage.payloadUtf8 =
          .ok (some response) ∧
        response.requestId ∈ middle.endpoint.client.awaited none ∧
        response.requestId ∉ last.endpoint.client.awaited
          (ChromecastClient.requestTable 0
            (ChromecastClient.ownAddress receiverNamespace)) := by
  have hsome : (ready ChromecastClient.textPlatform ReceiverChannel.cleared
      (fun _ _ => 7)).any fun start =>
        (exec (step googleCodec ChromecastClient.textPlatform) start
          asked).any fun middle =>
          (exec (step googleCodec ChromecastClient.textPlatform) middle
            answeredStatus).any fun last =>
              decide (Along (step googleCodec ChromecastClient.textPlatform)
                  (Keeps (· ≠ wildcard) Link.Listens
                    (Connection.Sends googleCodec)) start
                  (asked ++ answeredStatus) ∧
                (∀ call ∈ last.endpoint.connection.calls, call.2 = .ok ()) ∧
                last.endpoint.client.receiverChannel.requests.drawn <
                  2 ^ 64 ∧
                (0, ChromecastClient.ownAddress receiverNamespace) ∈
                  middle.endpoint.client.router.live ∧
                (0, ChromecastClient.ownAddress receiverNamespace) ∈
                  last.endpoint.client.router.live ∧
                0 ∉ middle.endpoint.client.others ∧
                middle.endpoint.client.awaited none = [1] ∧
                middle.endpoint.client.receiverChannel.requests.requestId =
                  1 ∧
                last.device.outgoing.pending = [] ∧
                last.endpoint.connection.received =
                  last.device.outgoing.sent ∧
                ∀ op ∈ last.endpoint.connection.reads, 0 < op.size) := by
    decide +kernel
  have hanswer : (incoming textJson statusMessage.payloadUtf8).toOption.any
      fun response => response.any fun response =>
        decide (response.requestId = 1) := by
    decide +kernel
  obtain ⟨start, hready, hany⟩ := (Option.any_eq_true _ _).mp hsome
  obtain ⟨middle, hmiddle, hany⟩ := (Option.any_eq_true _ _).mp hany
  obtain ⟨last, hlast, hfacts⟩ := (Option.any_eq_true _ _).mp hany
  obtain ⟨response, hresponse, hone⟩ := answer_of_any hanswer
  have hid : response.requestId = 1 := of_decide_eq_true hone
  obtain ⟨hkeeps, hcalls, hdrawn, hlive, hkept, hother, hawaited, hcounter,
    hpending, hread, hwaits⟩ := of_decide_eq_true hfacts
  have htold : statusMessage ∈ told googleCodec answeredStatus := by
    rw [told, List.mem_filterMap]
    refine ⟨.write (.asyncWrite statusMessage), ?_, rfl⟩
    simp [answeredStatus, Event.onDevice]
  have hasked : response.requestId ≤
      middle.endpoint.client.receiverChannel.requests.requestId := by
    rw [hid, hcounter]
    exact UInt64.le_refl 1
  refine ⟨start, middle, last, response, hready, hmiddle, hlast, hresponse,
    ?_, ?_⟩
  · rw [hawaited, hid]
    exact List.mem_singleton_self _
  · exact settled_of_drained StringCompare.unit_unitValued
      hready hmiddle hlast hkeeps hcalls ⟨hpending, hread, hwaits⟩ hdrawn
      hlive hkept hother (Or.inl rfl) htold (by decide) rfl hresponse
      (by rw [hid]; decide) hasked

end ClientLink

/-! ## Heartbeats on the wire -/

namespace HeartbeatChannel

/-- What the heartbeat channel may send. -/
def IsBeat (document : Json) : Prop := document = ping ∨ document = pong

theorem isBeat_of_sent {rapid : RapidJson} {channel : HeartbeatChannel}
    {event : Event} {document : Json}
    (hsent : document ∈ channel.sent rapid event) : IsBeat document := by
  cases event with
  | message payload sending =>
      cases sending with
      | error fault => cases hsent
      | ok _ =>
          simp only [sent] at hsent
          split_ifs at hsent
          · exact Or.inr (List.mem_singleton.mp hsent)
          · cases hsent
  | runSend wait sending =>
      cases sending with
      | error fault => cases hsent
      | ok _ =>
          simp only [sent] at hsent
          split_ifs at hsent
          · exact Or.inl (List.mem_singleton.mp hsent)
          · cases hsent
  | elapse | start | expireSend | expireReceive | runReceive | close =>
      cases hsent

end HeartbeatChannel

namespace ChromecastClient

variable {platform : Platform} {named : StdString → Prop}
  {client next last : ChromecastClient}

def beatFrame (document : Json) : Frame :=
  ⟨.heartbeatChannel, ownAddress heartbeatNamespace, document⟩

/-- The frames of the heartbeat's namespace are what its channel sent. -/
def Beating (client : ChromecastClient) : Prop :=
  client.frames.filter (·.address.namespaceId = heartbeatNamespace) =
    client.beats.map beatFrame

theorem Beating.of_append {more : List Frame} (h : client.Beating)
    (hframes : next.frames = client.frames ++ more)
    (hbeats : next.beats = client.beats)
    (hmore : ∀ frame ∈ more,
      frame.address.namespaceId ≠ heartbeatNamespace) : next.Beating := by
  have hnothing : more.filter
      (·.address.namespaceId = heartbeatNamespace) = [] :=
    List.filter_eq_nil_iff.mpr fun frame hframe => by
      simpa using hmore frame hframe
  unfold Beating
  rw [hframes, hbeats, List.filter_append, hnothing, List.append_nil]
  exact h

theorem Part.beating (h : Part platform named client next)
    (hbeating : client.Beating) : next.Beating := by
  have hsame : next.frames = client.frames → next.beats = client.beats →
      next.Beating := by
    intro hframes hbeats
    refine hbeating.of_append (hframes.trans (List.append_nil _).symm) hbeats
      fun frame hframe => ?_
    cases hframe
  cases h with
  | unseen _ hunmoved => exact hsame hunmoved.frames hunmoved.heartbeat
  | receiver channel =>
      refine hbeating.of_append (by rfl) rfl (List.forall_mem_map.mpr
        fun document _ => ?_)
      change receiverNamespace ≠ heartbeatNamespace
      decide
  | media channel address channels haddress =>
      refine hbeating.of_append (by rfl) rfl (List.forall_mem_map.mpr
        fun document _ => ?_)
      change address.namespaceId ≠ heartbeatNamespace
      rw [(mediaAddress?_eq_some haddress).2]
      decide
  | heartbeat channel hframes =>
      obtain ⟨more, hmore⟩ := hframes
      unfold Beating
      have hbeats : (client.setHeartbeatChannel channel).beats =
          client.beats ++ more := hmore.symm
      have hadded : (client.setHeartbeatChannel channel).frames =
          client.frames ++ more.map beatFrame := by
        unfold setHeartbeatChannel
        rw [← hmore, List.drop_left]
        rfl
      rw [hbeats, hadded, List.filter_append, List.map_append, hbeating]
      congr 1
      refine List.filter_eq_self.mpr (List.forall_mem_map.mpr
        fun document _ => ?_)
      exact decide_eq_true rfl
  | control issuer address type hnamespace =>
      refine hbeating.of_append (by rfl) rfl (List.forall_mem_singleton.mpr ?_)
      change address.namespaceId ≠ heartbeatNamespace
      rw [hnamespace]
      decide
  | expired | constructed => exact hsame rfl rfl
  | destroyed _ _ _ hnext =>
      obtain ⟨router, -, rfl⟩ := Option.map_eq_some_iff.mp hnext
      exact hsame rfl rfl

theorem beating_of_parts (h : Parts platform named client next)
    (hbeating : client.Beating) : next.Beating := by
  induction h with
  | refl => exact hbeating
  | tail _ hlast ih => exact hlast.beating ih

/-- Nothing else than PING and PONG was sent. -/
def Regular (client : ChromecastClient) : Prop :=
  ∀ document ∈ client.beats, HeartbeatChannel.IsBeat document

theorem Regular.step {event : Event} (h : client.Regular)
    (hstep : client.step platform event = some next) : next.Regular := by
  unfold Regular
  rw [beats_of_step hstep, List.forall_mem_append]
  refine ⟨h, fun document hdocument => ?_⟩
  unfold beatsOf at hdocument
  split at hdocument
  next => cases hdocument
  next => exact HeartbeatChannel.isBeat_of_sent hdocument

theorem Regular.perform {move : Move} (h : client.Regular)
    (hmove : client.perform platform move = some next) : next.Regular := by
  cases move with
  | call event => exact h.step hmove
  | hear channel message reply =>
      obtain ⟨⟨outcome, after⟩, hheard, rfl⟩ :=
        Option.map_eq_some_iff.mp hmove
      rcases step_of_onMessage hheard with hsame | ⟨event, -, hstep⟩
      · change after.Regular
        rw [hsame]
        exact h
      · exact h.step hstep

/-- What the other end of the heartbeat channel is sent. -/
theorem Beating.filter_messages (h : client.Beating) (rapid : RapidJson) :
    (client.frames.map (Frame.message rapid)).filter
        (·.IsFor (ownAddress heartbeatNamespace).swap) =
      client.beats.map fun document => (beatFrame document).message rapid := by
  have hsame : client.frames.filter
      (fun frame => (frame.message rapid).IsFor
        (ownAddress heartbeatNamespace).swap) =
      client.frames.filter
        (·.address.namespaceId = heartbeatNamespace) := by
    refine List.filter_congr fun frame hframe => decide_eq_decide.mpr
      ⟨fun hfor => hfor.namespaceId_eq.symm, fun hnamespace => ?_⟩
    have hbeat : frame ∈ client.beats.map beatFrame :=
      h ▸ List.mem_filter.mpr ⟨hframe, decide_eq_true hnamespace⟩
    obtain ⟨document, -, rfl⟩ := List.mem_map.mp hbeat
    have hunicast : receiver0 ≠ wildcard := by decide
    exact (CastMessage.isFor_of_unicast hunicast _).mpr rfl
  rw [List.filter_map]
  change (client.frames.filter fun frame => (frame.message rapid).IsFor
    (ownAddress heartbeatNamespace).swap).map _ = _
  rw [hsame, h, List.map_map]
  rfl

/-- On the wire a PONG is what it was. -/
theorem Regular.pongs_eq {rapid : RapidJson} (h : client.Regular)
    (hping : rapid.copy HeartbeatChannel.ping = HeartbeatChannel.ping)
    (hpong : rapid.copy HeartbeatChannel.pong = HeartbeatChannel.pong) :
    (client.beats.map fun document =>
      (beatFrame document).message rapid).countP (·.IsPong rapid) =
        client.pongs := by
  unfold pongs
  rw [List.countP_map]
  refine List.countP_congr fun document hdocument => ?_
  have hcopy : rapid.copy document = document := by
    rcases h document hdocument with rfl | rfl
    · exact hping
    · exact hpong
  have hiff : ((beatFrame document).message rapid).IsPong rapid ↔
      HeartbeatChannel.isPong (rapid.copy document) = true :=
    and_iff_right rfl
  rw [Function.comp_apply, decide_eq_true_eq, hiff, hcopy]

end ChromecastClient

namespace ClientLink

variable {codec : ProtobufCodec} {platform : Platform} {memory : Memory}
  {garbage : Side → Fin 4 → UInt8} {start last : ClientLink}

theorem beats_of_ready (hready : ready platform memory garbage = some start) :
    start.endpoint.client.beats = [] ∧ start.endpoint.client.frames = [] := by
  obtain ⟨client, hclient, hstart⟩ :=
    Option.map_eq_some_iff.mp (endpoint_of_ready hready)
  rw [← hstart, (ChromecastClient.constructed hclient).rest]
  exact ⟨rfl, rfl⟩

theorem beating_of_run {ours theirs : Connection → Connection.Event → Prop}
    {events : List Event}
    (hready : ready platform memory garbage = some start)
    (hrun : exec (step codec platform) start events = some last)
    (hkeeps : Along (step codec platform)
      (Keeps (· ≠ wildcard) ours theirs) start events)
    (hcalls : ∀ call ∈ last.endpoint.connection.calls, call.2 = .ok ()) :
    last.endpoint.client.Beating ∧ last.endpoint.client.Regular := by
  have hhash := ChromecastClient.hashSenderId_ne_wildcard platform
  have hendpoint := endpoint_of_ready hready
  have horderly : start.endpoint.client.Orderly (· ≠ wildcard) :=
    Endpoint.orderly_of_ready hendpoint
  obtain ⟨hbeats, hframes⟩ := beats_of_ready hready
  have hperforms := performs_of_run hhash
    (Endpoint.router_of_ready hendpoint) horderly hkeeps hrun hcalls
  constructor
  · refine ChromecastClient.beating_of_parts
      (ChromecastClient.parts_of_moves horderly hhash hperforms.named
        hperforms.exec) ?_
    unfold ChromecastClient.Beating
    rw [hbeats, hframes]
    rfl
  · refine exec_invariant ChromecastClient.Regular
      (fun _ _ _ hregular hmove => hregular.perform hmove) ?_ hperforms.exec
    unfold ChromecastClient.Regular
    rw [hbeats]
    exact fun document hdocument => absurd hdocument List.not_mem_nil

/-- PINGs for the heartbeat channel of the client. -/
def pings (platform : Platform) (messages : List CastMessage) : ℕ :=
  (messages.filter (·.IsFor
    (ChromecastClient.ownAddress heartbeatNamespace))).countP
      (·.IsPing platform.rapid)

theorem pongs_of_run {events : List Event}
    (hunit : platform.strings.UnitValued)
    (hready : ready platform memory garbage = some start)
    (hrun : exec (step codec platform) start events = some last)
    (hkeeps : Along (step codec platform)
      (Keeps (· ≠ wildcard) Link.Listens (Connection.Sends codec)) start
      events)
    (hcalls : ∀ call ∈ last.endpoint.connection.calls, call.2 = .ok ()) :
    last.endpoint.client.pongs ≤ pings platform (told codec events) ∧
      (last.link.Drained .left →
        last.endpoint.client.pongs =
          pings platform (told codec events)) := by
  have hsender : ChromecastClient.sender0 ≠ wildcard := by decide
  have hhash := ChromecastClient.hashSenderId_ne_wildcard platform
  have hendpoint := endpoint_of_ready hready
  have hequipped := Endpoint.equipped_of_ready hendpoint
  have horderly : start.endpoint.client.Orderly (· ≠ wildcard) :=
    Endpoint.orderly_of_ready hendpoint
  obtain ⟨early, late, hlinked⟩ := linked_of_run
    (fun _ event hissued hnames => Connection.listens_of_issued hissued
      hnames) hsender hhash hready (exec_nil ..) hrun hkeeps
  have hlast := ChromecastClient.equipped_of_parts hlinked.follows.parts
    hequipped
  have hthere : (1, ChromecastClient.ownAddress heartbeatNamespace) ∈
      (start.link.ends .left).router.live := by
    have hlive := hequipped.heartbeat
    rw [← hlinked.router] at hlive
    exact hlive
  have hspared := (hlinked.follows.spared 1 _
    (hlinked.numbered _ hequipped.heartbeat) hlast.heartbeat).2
  have hpiped := hlinked.piped .left hunit hlinked.theirs hlinked.ours hcalls
    hthere hspared
  have hwritten : Link.written codec Side.left.other (early ++ late) =
      told codec events := by
    rw [told, ← List.nil_append events, ← hlinked.device]
    rfl
  have hnone : (start.link.ends .left).calls.length = 0 := by
    obtain ⟨client, -, hstart⟩ := Option.map_eq_some_iff.mp hendpoint
    change start.endpoint.connection.calls.length = 0
    rw [← hstart]
    rfl
  rw [hwritten, hnone] at hpiped
  have hcount := hpiped.countP_heard fun a b hsame =>
    (hsame.isPing_iff : a.IsPing platform.rapid ↔ b.IsPing platform.rapid)
  have hperforms := performs_of_run hhash hlinked.router horderly hkeeps hrun
    hcalls
  have hpongs := ChromecastClient.pongs_of_moves hequipped horderly hhash
    hperforms.named hperforms.exec hperforms.accepted
  have hbegun : start.endpoint.client.pongs = 0 := by
    rw [ChromecastClient.pongs, (beats_of_ready hready).1]
    rfl
  have hinbox := hlinked.follows.heard 1
  rw [heard] at hinbox
  rw [hbegun, Nat.zero_add, hinbox] at hpongs
  rw [hpongs]
  exact hcount

theorem keeps_imp {named : StdString → Prop}
    {ours theirs less fewer : Connection → Connection.Event → Prop}
    {state : ClientLink} {event : Event}
    (hours : ∀ connection event, ours connection event →
      less connection event)
    (htheirs : ∀ connection event, theirs connection event →
      fewer connection event)
    (h : state.Keeps named ours theirs event) :
    state.Keeps named less fewer event := by
  cases event with
  | client event =>
      exact ⟨h.1, fun completion hcompletion =>
        hours _ _ (h.2 completion hcompletion)⟩
  | device event => exact htheirs _ _ h

/-- The events of the client's end in a round trip. -/
def Ours (connection : Connection) (event : Connection.Event) : Prop :=
  connection.Plain event ∧ Link.Listens connection event

instance (connection : Connection) (event : Connection.Event) :
    Decidable (Ours connection event) :=
  inferInstanceAs (Decidable (_ ∧ _))

/-- The events of the device in a round trip. -/
def Theirs (codec : ProtobufCodec) (connection : Connection)
    (event : Connection.Event) : Prop :=
  connection.Sends codec event ∧ Link.Listens connection event

instance (codec : ProtobufCodec) (connection : Connection)
    (event : Connection.Event) : Decidable (Theirs codec connection event) :=
  inferInstanceAs (Decidable (_ ∧ _))

/-- Every PING comes back as one PONG.  Take any run of a client and a device
in which no read comes up short, writes are served in order, messages fit, no
call of `OnMessage` raises and no channel has the wildcard as its own source,
and a channel of the device at the other end of the heartbeat channel which is
made before anything arrives there and lives to the end.  It is never handed
more PONGs than the device wrote PINGs; and once both directions are drained
it has been handed exactly as many. -/
theorem pings_answered (hunit : platform.strings.UnitValued)
    (hping : platform.rapid.copy HeartbeatChannel.ping =
      HeartbeatChannel.ping)
    (hpong : platform.rapid.copy HeartbeatChannel.pong =
      HeartbeatChannel.pong)
    {before after : List Event} {middle : ClientLink} {channel : ChannelId}
    (hready : ready platform memory garbage = some start)
    (hbefore : exec (step codec platform) start before = some middle)
    (hafter : exec (step codec platform) middle after = some last)
    (hkeeps : Along (step codec platform)
      (Keeps (· ≠ wildcard) Ours (Theirs codec)) start (before ++ after))
    (hfits : ∀ frame ∈ last.endpoint.client.frames,
      (Outgoing.savedBody codec (frame.message platform.rapid)).length <
        codedInputLimit)
    (hours : ∀ call ∈ last.endpoint.connection.calls, call.2 = .ok ())
    (htheirs : ∀ call ∈ last.device.calls, call.2 = .ok ())
    (hquiet : middle.device.calls = [])
    (hlive : (channel, (ChromecastClient.ownAddress
      heartbeatNamespace).swap) ∈ middle.device.router.live)
    (hkept : .destroy channel ∉ after.filterMap Event.onDevice) :
    (middle.device.inbox codec platform.strings channel
        (after.filterMap Event.onDevice)).countP (·.IsPong platform.rapid) ≤
        pings platform (told codec (before ++ after)) ∧
      (last.link.Drained .left → last.link.Drained .right →
        (middle.device.inbox codec platform.strings channel
          (after.filterMap Event.onDevice)).countP
            (·.IsPong platform.rapid) =
          pings platform (told codec (before ++ after))) := by
  have hsender : ChromecastClient.sender0 ≠ wildcard := by decide
  have hhash := ChromecastClient.hashSenderId_ne_wildcard platform
  have hrun : exec (step codec platform) start (before ++ after) =
      some last := by
    rw [exec_append, hbefore, Option.bind_some, hafter]
  -- the client answers what it hears
  obtain ⟨hmost, hall⟩ := pongs_of_run hunit hready hrun
    (hkeeps.imp fun _ _ hhere => keeps_imp (fun _ _ hlocal => hlocal.2)
      (fun _ _ hdevice => hdevice.1) hhere) hours
  -- the device hears what the client sends
  obtain ⟨early, late, hlinked⟩ := linked_of_run
    (fun _ event hissued hnames => ⟨Connection.plain_of_issued hissued,
      Connection.listens_of_issued hissued hnames⟩)
    hsender hhash hready hbefore hafter hkeeps
  have hsends := along_sends (hlinked.ours.imp fun state event hhere selected
    hselect => (hhere selected hselect).1) (by
      rw [hlinked.written]
      exact List.forall_mem_map.mpr hfits)
  have hlistens := hlinked.theirs.imp fun state event hhere selected
    hselect => (hhere selected hselect).2
  have hpiped := hlinked.piped .right hunit hsends hlistens htheirs hlive
    (hlinked.follows.device ▸ hkept)
  have hnone : (middle.link.ends .right).calls.length = 0 := by
    change middle.device.calls.length = 0
    rw [hquiet]
    rfl
  rw [hnone, hlinked.follows.device] at hpiped
  have hwritten : Link.written codec Side.right.other (early ++ late) =
      last.endpoint.client.frames.map (Frame.message platform.rapid) :=
    hlinked.written
  rw [hwritten] at hpiped
  have hcount := hpiped.countP_heard fun a b hsame =>
    (hsame.isPong_iff : a.IsPong platform.rapid ↔ b.IsPong platform.rapid)
  obtain ⟨hbeating, hregular⟩ :=
    beating_of_run hready hrun hkeeps hours
  rw [hbeating.filter_messages, hregular.pongs_eq hping hpong] at hcount
  refine ⟨hcount.1.trans hmost, fun hleft hright => ?_⟩
  exact (hcount.2 hright).trans (hall hleft)

/-- The channels of the device. -/
def listening : List Event :=
  [.device (.construct 0
      (ChromecastClient.ownAddress heartbeatNamespace).swap),
    .device (.construct 1
      (ChromecastClient.ownAddress connectionNamespace).swap)]

/-- A PING to the client, and the CONNECT and the PONG it sends. -/
def roundTrip : List Event :=
  let bodyOf (namespaceId : StdString) (document : Json) : List UInt8 :=
    Outgoing.savedBody googleCodec (textMessage
      (ChromecastClient.ownAddress namespaceId) (textJson.toString document))
  let ping := Outgoing.savedBody googleCodec Endpoint.pingMessage
  let connect := bodyOf connectionNamespace
    (ChromecastClient.controlDocument "CONNECT")
  let pong := bodyOf heartbeatNamespace HeartbeatChannel.pong
  let ours (bytes : List UInt8) : Event :=
    .client (.read 0 ⟨false, bytes, none, fun _ => .ok ()⟩ fun _ => {})
  let theirs (bytes : List UInt8) : Event :=
    .device (.readCompleted 0 ⟨false, bytes, none, fun _ => .ok ()⟩)
  [.client (.call (.connectCompleted false (.ok ()))),
    .device (.write (.asyncWrite Endpoint.pingMessage)),
    .device (.write (.writeSome 0 (ping.length + 4))),
    ours (encodeBigEndian32 ping.length), ours ping,
    .client (.taken 0 (connect.length + 4)),
    theirs (encodeBigEndian32 connect.length), theirs connect,
    .client (.taken 0 (pong.length + 4)),
    theirs (encodeBigEndian32 pong.length), theirs pong]

theorem pings_answered_roundTrip :
    ∃ start middle last,
      ready ChromecastClient.textPlatform ReceiverChannel.cleared
          (fun _ _ => 7) = some start ∧
        exec (step googleCodec ChromecastClient.textPlatform) start
          listening = some middle ∧
        exec (step googleCodec ChromecastClient.textPlatform) middle
          roundTrip = some last ∧
        last.link.Drained .left ∧ last.link.Drained .right ∧
        pings ChromecastClient.textPlatform
          (told googleCodec (listening ++ roundTrip)) = 1 ∧
        (middle.device.inbox googleCodec .unit 0
          (roundTrip.filterMap Event.onDevice)).countP
            (·.IsPong textJson) = 1 := by
  have hsome : (ready ChromecastClient.textPlatform ReceiverChannel.cleared
      (fun _ _ => 7)).any fun start =>
        (exec (step googleCodec ChromecastClient.textPlatform) start
          listening).any fun middle =>
          (exec (step googleCodec ChromecastClient.textPlatform) middle
            roundTrip).any fun last =>
              decide (Along (step googleCodec ChromecastClient.textPlatform)
                  (Keeps (· ≠ wildcard) Ours (Theirs googleCodec)) start
                  (listening ++ roundTrip) ∧
                (∀ frame ∈ last.endpoint.client.frames,
                  (Outgoing.savedBody googleCodec
                    (frame.message textJson)).length < codedInputLimit) ∧
                (∀ call ∈ last.endpoint.connection.calls, call.2 = .ok ()) ∧
                (∀ call ∈ last.device.calls, call.2 = .ok ()) ∧
                middle.device.calls.length = 0 ∧
                (0, (ChromecastClient.ownAddress
                  heartbeatNamespace).swap) ∈ middle.device.router.live ∧
                last.device.outgoing.pending = [] ∧
                last.endpoint.connection.received =
                  last.device.outgoing.sent ∧
                (∀ op ∈ last.endpoint.connection.reads, 0 < op.size) ∧
                last.endpoint.connection.outgoing.pending = [] ∧
                last.device.received =
                  last.endpoint.connection.outgoing.sent ∧
                ∀ op ∈ last.device.reads, 0 < op.size) := by
    decide +kernel
  have hone : pings ChromecastClient.textPlatform
      (told googleCodec (listening ++ roundTrip)) = 1 := by
    decide +kernel
  obtain ⟨start, hready, hany⟩ := (Option.any_eq_true _ _).mp hsome
  obtain ⟨middle, hmiddle, hany⟩ := (Option.any_eq_true _ _).mp hany
  obtain ⟨last, hlast, hfacts⟩ := (Option.any_eq_true _ _).mp hany
  obtain ⟨hkeeps, hfits, hours, htheirs, hquiet, hlive, hpending, hread,
    hwaits, hpendingOurs, hreadTheirs, hwaitsTheirs⟩ :=
    of_decide_eq_true hfacts
  have hleft : last.link.Drained .left := ⟨hpending, hread, hwaits⟩
  have hright : last.link.Drained .right :=
    ⟨hpendingOurs, hreadTheirs, hwaitsTheirs⟩
  refine ⟨start, middle, last, hready, hmiddle, hlast, hleft, hright, hone,
    ?_⟩
  rw [← hone]
  exact (pings_answered StringCompare.unit_unitValued
    (by rfl) (by rfl) hready hmiddle hlast hkeeps hfits hours htheirs
    (List.eq_nil_of_length_eq_zero hquiet) hlive
    (by simp [roundTrip, Event.onDevice])).2 hleft hright

end ClientLink

end LibChromecast
