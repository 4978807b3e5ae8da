import LibChromecast.Endpoints

/-!
# Runs of a client on its connection

A run of the whole is a run of the client and a run of the connection which
agree on what is sent, on what is heard and on the channels that are there.
What is known of clients and of connections then holds of both together.
-/

namespace LibChromecast

open Foundation Foundation.LengthPrefix Foundation.Transition Relation

/-! ## One step on both sides -/

namespace Connection

variable {codec : ProtobufCodec} {strings : StringCompare}

/-- The client makes or destroys a channel. -/
def Event.IsRouting : Event → Prop
  | .construct _ _ | .destroy _ => True
  | .write _ | .readCompleted _ _ => False

/-- The client makes or destroys a channel, or sends. -/
def Event.IsIssued : Event → Prop
  | .construct _ _ | .destroy _ | .write (.asyncWrite _) => True
  | .write (.writeSome _ _) | .readCompleted _ _ => False

/-- A channel that is constructed has such a source of its own. -/
def Event.Names (named : StdString → Prop) : Event → Prop
  | .construct _ address => named address.source
  | _ => True

theorem Event.IsRouting.isIssued {event : Event} (h : event.IsRouting) :
    event.IsIssued := by
  cases event with
  | construct | destroy => trivial
  | write | readCompleted => exact h.elim

theorem Event.IsRouting.written {event : Event} (h : event.IsRouting) :
    event.written codec = none := by
  cases event with
  | construct | destroy => rfl
  | write | readCompleted => exact h.elim

theorem exec_writeAll (messages : List CastMessage)
    (connection : Connection) :
    exec (Connection.step codec strings) connection
        (messages.map fun message => .write (.asyncWrite message)) =
      some (connection.writeAll codec messages) := by
  induction messages generalizing connection with
  | nil => rfl
  | cons message rest ih =>
      rw [List.map_cons, exec_cons_eq_some]
      exact ⟨{ connection with
        outgoing := (connection.outgoing.asyncWrite codec message).2 }, rfl,
        ih _⟩

theorem written_writeAll {messages : List CastMessage}
    (hsaved : ∀ message ∈ messages, (message.save codec).isOk) :
    (messages.map fun message =>
        Event.write (.asyncWrite message)).filterMap (Event.written codec) =
      messages := by
  induction messages with
  | nil => rfl
  | cons message rest ih =>
      have hhere := hsaved message (List.mem_cons_self ..)
      cases hsave : message.save codec with
      | error fault =>
          rw [hsave] at hhere
          cases hhere
      | ok body =>
          rw [List.map_cons,
            List.filterMap_cons_some (Event.written_of_ok hsave),
            ih fun other hother => hsaved other (List.mem_cons_of_mem _ hother)]

end Connection

namespace ChromecastClient

variable {platform : Platform} {named : StdString → Prop}
  {client next : ChromecastClient}

/-- The channels that come and go between two states, as events of the
connection. -/
structure Routes (codec : ProtobufCodec) (platform : Platform)
    (named : StdString → Prop) (client next : ChromecastClient)
    (routing : List Connection.Event) : Prop where
  each : ∀ event ∈ routing, event.IsRouting ∧ event.Names named
  nextChannel : client.nextChannel ≤ next.nextChannel
  /-- A channel that is still there was not destroyed meanwhile. -/
  spared : ∀ channel address, channel < client.nextChannel →
    (channel, address) ∈ next.router.live →
      (channel, address) ∈ client.router.live ∧
        Connection.Event.destroy channel ∉ routing
  exec : ∀ connection : Connection, connection.router = client.router →
    exec (Connection.step codec platform.strings) connection routing =
      some { connection with router := next.router }

theorem routing_of_parts (codec : ProtobufCodec)
    (h : Parts platform named client next) :
    ∃ routing, Routes codec platform named client next routing := by
  induction h with
  | refl =>
      refine ⟨[], by simp, Nat.le_refl _, ?_, fun connection hrouter => ?_⟩
      · exact fun channel address _ hlive => ⟨hlive, List.not_mem_nil⟩
      · rw [← hrouter]
        rfl
  | @tail mid last _ hlast ih =>
      obtain ⟨routing, hroutes⟩ := ih
      have hsame : last.router = mid.router →
          last.nextChannel = mid.nextChannel →
          ∃ routing, Routes codec platform named client last routing := by
        intro hrouter hnext
        refine ⟨routing, hroutes.each, hnext ▸ hroutes.nextChannel, ?_, ?_⟩
        · rw [hrouter]
          exact hroutes.spared
        · rw [hrouter]
          exact hroutes.exec
      have hone : ∀ event : Connection.Event,
          event.IsRouting ∧ event.Names named →
          mid.nextChannel ≤ last.nextChannel →
          (∀ channel address, channel < mid.nextChannel →
            (channel, address) ∈ last.router.live →
              (channel, address) ∈ mid.router.live ∧
                event ≠ .destroy channel) →
          (∀ connection : Connection, connection.router = mid.router →
            connection.step codec platform.strings event =
              some { connection with router := last.router }) →
          ∃ routing, Routes codec platform named client last routing := by
        intro event hevent hmore hspared hstep
        refine ⟨routing ++ [event], ?_, hroutes.nextChannel.trans hmore, ?_,
          fun connection hstart => ?_⟩
        · rw [List.forall_mem_append, List.forall_mem_singleton]
          exact ⟨hroutes.each, hevent⟩
        · intro channel address hold hlive
          obtain ⟨hmid, hother⟩ := hspared channel address
            (hold.trans_le hroutes.nextChannel) hlive
          obtain ⟨hstart, hbefore⟩ :=
            hroutes.spared channel address hold hmid
          refine ⟨hstart, fun hmem => ?_⟩
          rcases List.mem_append.mp hmem with hearlier | hhere
          · exact hbefore hearlier
          · exact hother (List.mem_singleton.mp hhere).symm
        · rw [exec_append, hroutes.exec connection hstart, Option.bind_some,
            exec_cons_eq_some]
          exact ⟨_, hstep { connection with router := mid.router } rfl, rfl⟩
      cases hlast with
      | unseen _ hunmoved =>
          exact hsame hunmoved.router hunmoved.nextChannel
      | receiver => exact hsame rfl rfl
      | media => exact hsame rfl rfl
      | heartbeat => exact hsame rfl rfl
      | control => exact hsame rfl rfl
      | expired => exact hsame rfl rfl
      | constructed address _ outcome router hsource _ hconstruct =>
          apply hone (.construct mid.nextChannel address) ⟨trivial, hsource⟩
            (Nat.le_succ _)
          · intro channel own hold hlive
            refine ⟨?_, by simp⟩
            obtain ⟨-, hcase⟩ := Router.construct_inserted hconstruct
            rcases hcase with ⟨_, _, -, hsame, -⟩ | ⟨-, hadded, -⟩
            · exact hsame ▸ hlive
            · change (channel, own) ∈ router.live at hlive
              rw [hadded] at hlive
              rcases List.mem_cons.mp hlive with heq | hthere
              · exact absurd (Prod.mk.inj heq).1 hold.ne
              · exact hthere
          · intro connection hrouter
            simp only [Connection.step]
            rw [hrouter, hconstruct]
            rfl
      | destroyed channel _ _ hnext =>
          obtain ⟨router, hrouter, rfl⟩ := Option.map_eq_some_iff.mp hnext
          apply hone (.destroy channel) ⟨trivial, trivial⟩ (Nat.le_refl _)
          · intro other own _ hlive
            obtain ⟨_, _, -, -, hfiltered, -⟩ :=
              Router.destroy_inserted hrouter
            change (other, own) ∈ router.live at hlive
            rw [hfiltered, List.mem_filter] at hlive
            refine ⟨hlive.1, ?_⟩
            rintro ⟨⟩
            simp at hlive
          · intro connection hstart
            simp only [Connection.step]
            rw [hstart, hrouter]

/-- A part only adds frames. -/
theorem Part.frames (h : Part platform named client next) :
    client.frames <+: next.frames := by
  cases h with
  | unseen _ hunmoved => rw [hunmoved.frames]
  | receiver => exact List.prefix_append _ _
  | media => exact List.prefix_append _ _
  | heartbeat => exact List.prefix_append _ _
  | control => exact List.prefix_append _ _
  | expired => exact List.prefix_rfl
  | constructed => exact List.prefix_rfl
  | destroyed channel _ _ hnext =>
      obtain ⟨router, -, rfl⟩ := Option.map_eq_some_iff.mp hnext
      exact List.prefix_rfl

theorem frames_of_parts (h : Parts platform named client next) :
    client.frames <+: next.frames := by
  induction h with
  | refl => exact List.prefix_rfl
  | tail _ hlast ih => exact ih.trans hlast.frames

/-! ### Moves -/

theorem step_of_onText {channel : ChannelId} {payload : StdString}
    {reply : Reply} {outcome : Outcome Bool}
    (h : client.onText platform channel payload reply =
      some (outcome, next)) (hviolated : outcome ≠ .error .violated) :
    next = client ∨ ∃ event, (∀ named, Event.Named named event) ∧
      client.step platform event = some next := by
  have hreturned : returned (outcome, next) = some next := by
    unfold returned
    split
    next heq => exact absurd (Prod.mk.inj heq).1 hviolated
    next heq => rw [(Prod.mk.inj heq).2]
  unfold onText at h
  split at h
  next => cases h
  next address _ =>
    split_ifs at h
    · refine Or.inr ⟨.receiverMessage payload reply.ending reply.connecting
        reply.sending, fun _ => trivial, ?_⟩
      rw [step, h, Option.bind_some, hreturned]
    · refine Or.inr ⟨.heartbeatMessage payload reply.sending,
        fun _ => trivial, ?_⟩
      obtain ⟨houtcome, hnext⟩ := Prod.mk.inj (Option.some.inj h)
      have hmessage : client.heartbeatChannel.step platform.rapid
          platform.aborted (.message payload reply.sending) =
            some (client.heartbeatChannel.onMessage platform.rapid payload
              reply.sending).2.hear := by
        simp only [HeartbeatChannel.step]
        split
        next heq =>
          rw [heq] at houtcome
          exact absurd houtcome.symm hviolated
        next heq => rw [heq]
      rw [step, heartbeatStep, hmessage, ← hnext]
      rfl
    · refine Or.inr ⟨.mediaMessage channel payload reply.ending,
        fun _ => trivial, ?_⟩
      rw [step, h, Option.bind_some, hreturned]
    · cases h
      exact Or.inl rfl

/-- What a channel hears is a step of the client, or leaves it alone. -/
theorem step_of_onMessage {channel : ChannelId} {message : CastMessage}
    {reply : Reply} {outcome : Outcome Unit}
    (h : client.onMessage platform channel message reply =
      some (outcome, next)) :
    next = client ∨ ∃ event, (∀ named, Event.Named named event) ∧
      client.step platform event = some next := by
  unfold onMessage at h
  split_ifs at h
  · cases h
    exact Or.inl rfl
  · cases hpayload : message.payloadType with
    | binary =>
        simp only [hpayload] at h
        cases h
        exact Or.inl rfl
    | string =>
        simp only [hpayload] at h
        split at h
        next => cases h
        next => cases h
        next fault after hviolated hhandled =>
          cases h
          refine step_of_onText hhandled fun heq => ?_
          cases heq
          exact hviolated rfl
        next after hhandled =>
          cases h
          exact step_of_onText hhandled (by simp)
        next after hhandled =>
          cases h
          exact step_of_onText hhandled (by simp)

/-- The sender ids and the own sources which a move brings. -/
def Move.Named (named : StdString → Prop) : Move → Prop
  | .call event => event.Named named
  | .hear .. => True

theorem parts_of_perform {move : Move} (horderly : client.Orderly named)
    (hhash : named (hashSenderId platform)) (hmove : move.Named named)
    (h : client.perform platform move = some next) :
    Parts platform named client next := by
  cases move with
  | call event => exact parts_of_step horderly hhash hmove h
  | hear channel message reply =>
      obtain ⟨⟨outcome, last⟩, hlast, rfl⟩ := Option.map_eq_some_iff.mp h
      rcases step_of_onMessage hlast with rfl | ⟨event, hevent, hstep⟩
      · exact .refl
      · exact parts_of_step horderly hhash (hevent named) hstep

theorem parts_of_moves {moves : List Move}
    (horderly : client.Orderly named)
    (hhash : named (hashSenderId platform))
    (hmoves : ∀ move ∈ moves, Move.Named named move)
    (h : exec (perform platform) client moves = some next) :
    Parts platform named client next := by
  induction moves generalizing client with
  | nil =>
      cases h
      exact .refl
  | cons move rest ih =>
      obtain ⟨mid, hmid, hrest⟩ := exec_cons_eq_some.mp h
      have hfirst := parts_of_perform horderly hhash
        (hmoves move (List.mem_cons_self ..)) hmid
      exact hfirst.trans (ih (orderly_of_parts hfirst horderly)
        (fun other hother => hmoves other (List.mem_cons_of_mem _ hother))
        hrest)

theorem exec_of_hearAll {message : CastMessage}
    {handler : ChannelId → Outcome Unit} {replies : ChannelId → Reply}
    {channels : List ChannelId}
    (h : client.hearAll platform message handler replies channels =
      some next) :
    exec (perform platform) client (channels.map fun channel =>
      .hear channel message (replies channel)) = some next := by
  induction channels generalizing client with
  | nil => exact h
  | cons channel rest ih =>
      unfold hearAll at h
      split at h
      next => cases h
      next outcome mid hmid =>
        split_ifs at h
        rw [List.map_cons, exec_cons_eq_some]
        exact ⟨mid, by rw [perform, hmid]; rfl, ih h⟩

end ChromecastClient

namespace Endpoint

/-- The completion on the wire that an event starts with. -/
def Event.onWire : Event → Option Connection.Event
  | .call _ => none
  | .taken index count => some (.write (.writeSome index count))
  | .read index completion _ => some (.readCompleted index completion)

/-- The message of a call of `OnMessage` of a channel. -/
def heardBy (channel : ChannelId) : ChromecastClient.Move → Option CastMessage
  | .call _ => none
  | .hear other message _ => if other = channel then some message else none

/-- What the connection does to follow the client: the channels that come and
go, and the calls of `AsyncWrite`. -/
structure Issues (codec : ProtobufCodec) (platform : Platform)
    (named : StdString → Prop) (before after : ChromecastClient)
    (issued : List Connection.Event) : Prop where
  each : ∀ event ∈ issued, event.IsIssued ∧ event.Names named
  written : issued.filterMap (Connection.Event.written codec) =
    sentSince platform.rapid before after
  nextChannel : before.nextChannel ≤ after.nextChannel
  spared : ∀ channel address, channel < before.nextChannel →
    (channel, address) ∈ after.router.live →
      (channel, address) ∈ before.router.live ∧
        Connection.Event.destroy channel ∉ issued

/-- A step, as steps of the client and of the connection: the completion, and
then `issued`, which the client makes of it. -/
structure Wired (codec : ProtobufCodec) (platform : Platform)
    (named : StdString → Prop) (endpoint next : Endpoint) (event : Event)
    (issued : List Connection.Event) : Prop extends
    Issues codec platform named endpoint.client next.client issued where
  client : exec (ChromecastClient.perform platform) endpoint.client
    (endpoint.moves codec platform event) = some next.client
  connection : exec (Connection.step codec platform.strings)
    endpoint.connection (event.onWire.toList ++ issued) =
      some next.connection
  router : next.connection.router = next.client.router

variable {codec : ProtobufCodec} {platform : Platform}
  {named : StdString → Prop} {endpoint next last : Endpoint}

theorem issues_of_follow {before after : ChromecastClient}
    {connection : Connection}
    (hparts : ChromecastClient.Parts platform named before after)
    (hrouter : connection.router = before.router)
    (h : follow codec platform before after connection = some next) :
    next.client = after ∧ next.connection.router = after.router ∧
      ∃ issued, Issues codec platform named before after issued ∧
        exec (Connection.step codec platform.strings) connection issued =
          some next.connection := by
  unfold follow at h
  dsimp only at h
  split_ifs at h with hsaved
  cases h
  obtain ⟨routing, hroutes⟩ :=
    ChromecastClient.routing_of_parts codec hparts
  refine ⟨rfl, rfl, routing ++ (sentSince platform.rapid before after).map
    fun message => .write (.asyncWrite message),
    ⟨?_, ?_, hroutes.nextChannel, ?_⟩, ?_⟩
  · rw [List.forall_mem_append]
    refine ⟨fun event hevent => ⟨(hroutes.each event hevent).1.isIssued,
      (hroutes.each event hevent).2⟩, ?_⟩
    intro event hevent
    obtain ⟨message, -, rfl⟩ := List.mem_map.mp hevent
    exact ⟨trivial, trivial⟩
  · rw [List.filterMap_append, Connection.written_writeAll hsaved]
    rw [List.filterMap_eq_nil_iff.mpr fun event hevent =>
      (hroutes.each event hevent).1.written]
    rfl
  · intro channel address hold hlive
    obtain ⟨hstart, hspared⟩ := hroutes.spared channel address hold hlive
    refine ⟨hstart, fun hmem => ?_⟩
    rcases List.mem_append.mp hmem with hrouting | hwrite
    · exact hspared hrouting
    · obtain ⟨message, -, heq⟩ := List.mem_map.mp hwrite
      cases heq
  · rw [exec_append, hroutes.exec connection hrouter, Option.bind_some,
      Connection.exec_writeAll]

theorem exec_of_dispatch {completion : ReadCompletion}
    {replies : ChannelId → Reply} {connection : Connection}
    {messages : List CastMessage} {client after : ChromecastClient}
    (h : dispatch platform completion replies connection messages client =
      some after) :
    exec (ChromecastClient.perform platform) client
      (messages.flatMap fun message =>
        (receivers platform completion message connection).map
          fun channel => .hear channel message (replies channel)) =
        some after := by
  induction messages generalizing client with
  | nil => exact h
  | cons message rest ih =>
      obtain ⟨mid, hmid, hrest⟩ := Option.bind_eq_some_iff.mp h
      rw [List.flatMap_cons, exec_append,
        ChromecastClient.exec_of_hearAll hmid, Option.bind_some]
      exact ih hrest

/-- What is named by an event. -/
def Event.Named (named : StdString → Prop) : Event → Prop
  | .call event => event.Named named
  | .taken .. | .read .. => True

theorem Event.named_true (event : Event) :
    event.Named fun _ => True := by
  cases event with
  | call event => exact event.named_true
  | taken | read => trivial

theorem named_moves {event : Event} (hevent : event.Named named) :
    ∀ move ∈ endpoint.moves codec platform event, move.Named named := by
  intro move hmove
  cases event with
  | call event =>
      rw [List.mem_singleton.mp hmove]
      exact hevent
  | taken index count => cases hmove
  | read index completion replies =>
      simp only [moves] at hmove
      split at hmove
      next => cases hmove
      next =>
        obtain ⟨message, -, hlater⟩ := List.mem_flatMap.mp hmove
        obtain ⟨channel, -, rfl⟩ := List.mem_map.mp hlater
        trivial

theorem wired_of_step {event : Event}
    (hrouter : endpoint.connection.router = endpoint.client.router)
    (horderly : endpoint.client.Orderly named)
    (hhash : named (ChromecastClient.hashSenderId platform))
    (hevent : event.Named named)
    (hstep : endpoint.step codec platform event = some next) :
    ∃ issued, Wired codec platform named endpoint next event issued := by
  cases event with
  | call event =>
      simp only [step, Option.ite_none_right_eq_some] at hstep
      obtain ⟨after, hafter, hfollow⟩ :=
        Option.bind_eq_some_iff.mp hstep.2
      obtain ⟨rfl, hsame, issued, hissued, hexec⟩ :=
        issues_of_follow (ChromecastClient.parts_of_step horderly hhash hevent
          hafter) hrouter hfollow
      exact ⟨issued, {
        toIssues := hissued
        client := exec_cons_eq_some.mpr ⟨_, hafter, rfl⟩
        connection := hexec
        router := hsame }⟩
  | taken index count =>
      obtain ⟨outgoing, houtgoing, rfl⟩ := Option.map_eq_some_iff.mp hstep
      refine ⟨[], {
        client := rfl
        connection := ?_
        each := by simp
        written := by simp [sentSince]
        router := hrouter
        nextChannel := Nat.le_refl _
        spared := fun _ _ _ hlive => ⟨hlive, List.not_mem_nil⟩ }⟩
      rw [List.append_nil]
      refine exec_cons_eq_some.mpr ⟨_, ?_, rfl⟩
      simp only [Connection.step, Outgoing.step]
      rw [houtgoing]
  | read index completion replies =>
      simp only [step] at hstep
      split at hstep
      next => cases hstep
      next read hread =>
        obtain ⟨after, hafter, hfollow⟩ := Option.bind_eq_some_iff.mp hstep
        have hexec : exec (ChromecastClient.perform platform)
            endpoint.client (endpoint.moves codec platform
              (.read index completion replies)) = some after := by
          rw [moves, hread]
          exact exec_of_dispatch hafter
        have hparts := ChromecastClient.parts_of_moves horderly hhash
          (named_moves hevent) hexec
        have hkept : read.router = endpoint.client.router := by
          obtain ⟨op, -, -, hcase⟩ :=
            Connection.readCompleted_eq_some hread
          rw [hcase.router_eq]
          exact hrouter
        obtain ⟨rfl, hsame, issued, hissued, hwire⟩ :=
          issues_of_follow hparts hkept hfollow
        exact ⟨issued, {
          toIssues := hissued
          client := hexec
          connection := exec_cons_eq_some.mpr ⟨read, hread, hwire⟩
          router := hsame }⟩

/-- What the client issues does not read. -/
theorem inbox_issued {channel : ChannelId} {connection : Connection}
    {issued : List Connection.Event}
    (hissued : ∀ event ∈ issued, event.IsIssued) :
    connection.inbox codec platform.strings channel issued = [] := by
  induction issued generalizing connection with
  | nil => rfl
  | cons event rest ih =>
      unfold Connection.inbox outputs
      split
      next => rfl
      next after _ =>
        have hhere : connection.hears codec platform.strings channel event =
            [] := by
          cases event with
          | construct | destroy | write => rfl
          | readCompleted => exact (hissued _ (List.mem_cons_self ..)).elim
        rw [hhere, List.nil_append]
        exact ih fun other hother =>
          hissued other (List.mem_cons_of_mem _ hother)

theorem filterMap_heardBy (channel : ChannelId) (message : CastMessage)
    (replies : ChannelId → Reply) (channels : List ChannelId) :
    (channels.map fun other => ChromecastClient.Move.hear other message
        (replies other)).filterMap (heardBy channel) =
      (channels.filter (· = channel)).map fun _ => message := by
  induction channels with
  | nil => rfl
  | cons other rest ih =>
      by_cases hother : other = channel
      · simp [heardBy, hother, ih]
      · simp [heardBy, hother, ih]

/-- A channel of the client hears what the connection calls it with. -/
theorem heard_moves (channel : ChannelId) (event : Event)
    (endpoint : Endpoint) :
    (endpoint.moves codec platform event).filterMap (heardBy channel) =
      event.onWire.toList.flatMap
        (endpoint.connection.hears codec platform.strings channel) := by
  cases event with
  | call event => rfl
  | taken index count => rfl
  | read index completion replies =>
      simp only [moves, Event.onWire, Option.toList_some,
        List.flatMap_cons, List.flatMap_nil, List.append_nil,
        Connection.hears]
      cases endpoint.connection.readCompleted codec platform.strings index
          completion with
      | none => rfl
      | some read =>
          simp only [Connection.dispatchedSince, List.filterMap_flatMap,
            List.flatMap_map, receivers]
          congr 1
          funext call
          exact filterMap_heardBy channel call.1 replies _

/-! ## Runs -/

theorem sentSince_trans {rapid : RapidJson}
    {first middle last : ChromecastClient}
    (hfirst : first.frames <+: middle.frames)
    (hlast : middle.frames <+: last.frames) :
    sentSince rapid first last =
      sentSince rapid first middle ++ sentSince rapid middle last := by
  obtain ⟨before, hbefore⟩ := hfirst
  obtain ⟨after, hafter⟩ := hlast
  unfold sentSince
  rw [← hafter, ← hbefore, List.append_assoc, List.drop_left' rfl,
    List.drop_left' rfl, ← List.append_assoc, List.drop_left' rfl,
    List.map_append]

/-- A run, as runs of the client and of the connection. -/
structure Refines (codec : ProtobufCodec) (platform : Platform)
    (first last : Endpoint) (moves : List ChromecastClient.Move)
    (wire : List Connection.Event) : Prop where
  client : exec (ChromecastClient.perform platform) first.client moves =
    some last.client
  connection : exec (Connection.step codec platform.strings)
    first.connection wire = some last.connection
  /-- The connection sends what the client sends, in this order. -/
  written : wire.filterMap (Connection.Event.written codec) =
    sentSince platform.rapid first.client last.client
  /-- A channel of the client hears what the connection calls it with, in this
  order. -/
  heard : ∀ channel, moves.filterMap (heardBy channel) =
    first.connection.inbox codec platform.strings channel wire
  router : last.connection.router = last.client.router
  frames : first.client.frames <+: last.client.frames

theorem Wired.written_onWire {event : Event}
    {issued : List Connection.Event}
    (h : Wired codec platform named endpoint next event issued) :
    (event.onWire.toList ++ issued).filterMap
        (Connection.Event.written codec) =
      sentSince platform.rapid endpoint.client next.client := by
  rw [List.filterMap_append, h.written]
  cases event <;> rfl

theorem Wired.inbox {event : Event} {issued : List Connection.Event}
    (h : Wired codec platform named endpoint next event issued)
    (channel : ChannelId) :
    endpoint.connection.inbox codec platform.strings channel
        (event.onWire.toList ++ issued) =
      (endpoint.moves codec platform event).filterMap (heardBy channel) := by
  have hconnection := h.connection
  rw [exec_append] at hconnection
  obtain ⟨mid, hmid, -⟩ := Option.bind_eq_some_iff.mp hconnection
  rw [Connection.inbox, outputs_append hmid]
  have hissued : mid.inbox codec platform.strings channel issued = [] :=
    inbox_issued fun event hevent => (h.each event hevent).1
  unfold Connection.inbox at hissued
  rw [hissued, List.append_nil, heard_moves]
  cases hwire : event.onWire with
  | none => rfl
  | some first =>
      rw [hwire] at hmid
      obtain ⟨after, hafter, -⟩ := exec_cons_eq_some.mp hmid
      rw [Option.toList_some, outputs_cons_of_step hafter, outputs_nil]
      simp

theorem Refines.refl (codec : ProtobufCodec)
    (hrouter : endpoint.connection.router = endpoint.client.router) :
    Refines codec platform endpoint endpoint [] [] where
  client := rfl
  connection := rfl
  written := by simp [sentSince]
  heard _ := rfl
  router := hrouter
  frames := List.prefix_rfl

theorem Wired.refines {event : Event} {issued : List Connection.Event}
    (h : Wired codec platform named endpoint next event issued)
    (hparts : ChromecastClient.Parts platform named endpoint.client
      next.client) :
    Refines codec platform endpoint next
      (endpoint.moves codec platform event)
      (event.onWire.toList ++ issued) where
  client := h.client
  connection := h.connection
  written := h.written_onWire
  heard channel := (h.inbox channel).symm
  router := h.router
  frames := ChromecastClient.frames_of_parts hparts

theorem Refines.trans {firstMoves laterMoves : List ChromecastClient.Move}
    {firstWire laterWire : List Connection.Event}
    (hfirst : Refines codec platform endpoint next firstMoves firstWire)
    (hlater : Refines codec platform next last laterMoves laterWire) :
    Refines codec platform endpoint last (firstMoves ++ laterMoves)
      (firstWire ++ laterWire) where
  client := by
    rw [exec_append, hfirst.client, Option.bind_some]
    exact hlater.client
  connection := by
    rw [exec_append, hfirst.connection, Option.bind_some]
    exact hlater.connection
  written := by
    rw [List.filterMap_append, hfirst.written, hlater.written]
    exact (sentSince_trans hfirst.frames hlater.frames).symm
  heard channel := by
    rw [List.filterMap_append, hfirst.heard, hlater.heard,
      Connection.inbox, Connection.inbox, Connection.inbox,
      outputs_append hfirst.connection]
  router := hlater.router
  frames := hfirst.frames.trans hlater.frames

theorem refines_of_run {events : List Event}
    (hrouter : endpoint.connection.router = endpoint.client.router)
    (horderly : endpoint.client.Orderly fun _ => True)
    (hrun : exec (step codec platform) endpoint events = some last) :
    ∃ wire, Refines codec platform endpoint last
      (outputs (step codec platform) (moves codec platform) endpoint events)
      wire := by
  induction events generalizing endpoint with
  | nil =>
      cases hrun
      exact ⟨[], .refl codec hrouter⟩
  | cons event rest ih =>
      obtain ⟨next, hstep, hrest⟩ := exec_cons_eq_some.mp hrun
      obtain ⟨issued, hwired⟩ := wired_of_step hrouter horderly trivial
        event.named_true hstep
      have hparts := ChromecastClient.parts_of_moves horderly trivial
        (named_moves event.named_true) hwired.client
      obtain ⟨wire, hlater⟩ := ih hwired.router
        (ChromecastClient.orderly_of_parts hparts horderly) hrest
      rw [outputs_cons_of_step hstep]
      exact ⟨_, (hwired.refines hparts).trans hlater⟩

theorem orderly_of_ready {memory : Memory} {garbage : Fin 4 → UInt8}
    (hready : ready platform memory garbage = some endpoint) :
    endpoint.client.Orderly named := by
  obtain ⟨client, hclient, rfl⟩ := Option.map_eq_some_iff.mp hready
  have horderly : client.Orderly named :=
    ChromecastClient.orderly_of_construct hclient
  exact ⟨horderly.players, horderly.others, horderly.nextChannel⟩

theorem router_of_ready {memory : Memory} {garbage : Fin 4 → UInt8}
    (hready : ready platform memory garbage = some endpoint) :
    endpoint.connection.router = endpoint.client.router := by
  obtain ⟨client, -, rfl⟩ := Option.map_eq_some_iff.mp hready
  rfl

/-- Every run of a client on its connection, from the handshake on and
whatever bytes arrive, is a run of the client and one of the connection which
agree: each channel of the client is called with the messages of its inbox, in
their order, and `AsyncWrite` is called with the frames of the client, in
theirs. -/
theorem refines_of_ready {memory : Memory} {garbage : Fin 4 → UInt8}
    {events : List Event}
    (hready : ready platform memory garbage = some endpoint)
    (hrun : exec (step codec platform) endpoint events = some last) :
    ∃ wire, Refines codec platform endpoint last
      (outputs (step codec platform) (moves codec platform) endpoint events)
      wire :=
  refines_of_run (router_of_ready hready) (orderly_of_ready hready) hrun

/-- The device asks whether the client is there. -/
def pingMessage : CastMessage :=
  textMessage (ChromecastClient.ownAddress heartbeatNamespace).swap
    (lit "\x7b\"type\":\"PING\"\x7d")

/-- The client connects and reads a PING in three parts. -/
def pinged : List Event :=
  let body := Outgoing.savedBody googleCodec pingMessage
  let read (bytes : List UInt8) (error : Bool) : Event :=
    .read 0 ⟨error, bytes, none, fun _ => .ok ()⟩ fun _ => {}
  [.call (.connectCompleted false (.ok ())),
    read (encodeBigEndian32 body.length) false, read (body.take 9) true,
    .taken 0 6, read (body.drop 9) false]

theorem refines_of_ready_pinged :
    ∃ endpoint last, ready ChromecastClient.textPlatform
        ReceiverChannel.cleared (fun _ => 7) = some endpoint ∧
      exec (step googleCodec ChromecastClient.textPlatform) endpoint pinged =
        some last ∧
      last.client.frames.map Frame.issuer =
        [.connectionChannel, .heartbeatChannel] ∧
      ∃ wire, Refines googleCodec ChromecastClient.textPlatform endpoint last
        (outputs (step googleCodec ChromecastClient.textPlatform)
          (moves googleCodec ChromecastClient.textPlatform) endpoint pinged)
        wire := by
  have hsome : (ready ChromecastClient.textPlatform ReceiverChannel.cleared
      (fun _ => 7)).any fun endpoint =>
        (exec (step googleCodec ChromecastClient.textPlatform) endpoint
          pinged).any fun last =>
            decide (last.client.frames.map Frame.issuer =
              [.connectionChannel, .heartbeatChannel]) := by
    decide +kernel
  obtain ⟨endpoint, hready, hany⟩ := (Option.any_eq_true _ _).mp hsome
  obtain ⟨last, hlast, hframes⟩ := (Option.any_eq_true _ _).mp hany
  exact ⟨endpoint, last, hready, hlast, of_decide_eq_true hframes,
    refines_of_ready hready hlast⟩

end Endpoint

end LibChromecast
