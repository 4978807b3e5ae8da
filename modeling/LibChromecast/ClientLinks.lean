import LibChromecast.EndpointRuns

/-!
# A client and a device

A client on its connection, and a device at the other end of the transport:
any `ChromecastConnection` whose channels, handlers and writes the environment
decides.  Both directions of the link are pipes, so what the client sends
arrives at the channels of the device in the order in which it was sent, and
what the device writes is handed to the channels of the client.
-/

namespace LibChromecast

open Foundation Foundation.LengthPrefix Foundation.Transition Relation

/-! ## The events of one end -/

namespace Link

variable {codec : ProtobufCodec} {strings : StringCompare} {side other : Side}
  {link : Link} {events : List Connection.Event} {next : Connection}
  {condition : Connection → Connection.Event → Prop}

/-- Events of one end alone. -/
def eventsOf (side : Side) (events : List Connection.Event) : List Event :=
  events.map fun event => ⟨side, event⟩

def setEnd (side : Side) (connection : Connection) (link : Link) : Link :=
  ⟨Function.update link.ends side connection⟩

theorem setEnd_ends_self (connection : Connection) :
    (link.setEnd side connection).ends side = connection :=
  Function.update_self _ _ _

theorem setEnd_ends_of_ne (hne : other ≠ side) (connection : Connection) :
    (link.setEnd side connection).ends other = link.ends other :=
  Function.update_of_ne hne _ _

theorem exec_eventsOf
    (hcarried : Along (Connection.step codec strings)
      (fun connection event => Carried
        (link.ends side.other).outgoing.sent connection.received event)
      (link.ends side) events)
    (hrun : exec (Connection.step codec strings) (link.ends side) events =
      some next) :
    exec (step codec strings) link (eventsOf side events) =
      some (link.setEnd side next) := by
  induction events generalizing link with
  | nil =>
      cases hrun
      simp [eventsOf, setEnd]
  | cons event rest ih =>
      obtain ⟨mid, hmid, hrest⟩ := exec_cons_eq_some.mp hrun
      have hstep : link.step codec strings ⟨side, event⟩ =
          some (link.setEnd side mid) := by
        unfold step
        rw [if_pos hcarried.1, hmid]
        rfl
      have hlater : exec (step codec strings) (link.setEnd side mid)
          (eventsOf side rest) =
            some ((link.setEnd side mid).setEnd side next) := by
        apply ih
        · rw [setEnd_ends_self, setEnd_ends_of_ne side.other_ne]
          exact hcarried.2 mid hmid
        · rw [setEnd_ends_self]
          exact hrest
      have hsame : (link.setEnd side mid).setEnd side next =
          link.setEnd side next := by simp [setEnd]
      exact exec_cons_eq_some.mpr ⟨_, hstep, hsame ▸ hlater⟩

/-- What holds along the events of one end. -/
theorem along_eventsOf
    (halong : Along (Connection.step codec strings) condition
      (link.ends side) events) :
    Along (step codec strings) (At side condition) link
      (eventsOf side events) := by
  induction events generalizing link with
  | nil => trivial
  | cons event rest ih =>
      refine ⟨fun selected hselect => ?_, fun after hafter => ?_⟩
      · simp only [selectAt, if_pos, Option.some.injEq] at hselect
        exact hselect ▸ halong.1
      · obtain ⟨-, moved, hmoved, hnext⟩ := step_eq_some hafter
        apply ih
        rw [hnext, Function.update_self]
        exact halong.2 moved hmoved

/-- The other end has no part in it. -/
theorem along_eventsOf_other (hne : other ≠ side) (link : Link)
    (events : List Connection.Event) :
    Along (step codec strings) (At other condition) link
      (eventsOf side events) := by
  induction events generalizing link with
  | nil => trivial
  | cons event rest ih =>
      refine ⟨fun selected hselect => ?_, fun after _ => ih after⟩
      unfold selectAt at hselect
      rw [if_neg (Ne.symm hne)] at hselect
      cases hselect

theorem eventsAt_eventsOf (side : Side) (events : List Connection.Event) :
    eventsAt side (eventsOf side events) = events := by
  induction events with
  | nil => rfl
  | cons event rest ih => simp_all [eventsAt, eventsOf, selectAt]

theorem eventsAt_eventsOf_other (hne : other ≠ side)
    (events : List Connection.Event) :
    eventsAt other (eventsOf side events) = [] := by
  induction events with
  | nil => rfl
  | cons event rest ih =>
      simp_all [eventsAt, eventsOf, selectAt, Ne.symm hne]

theorem eventsAt_append (side : Side) (before after : List Event) :
    eventsAt side (before ++ after) =
      eventsAt side before ++ eventsAt side after :=
  List.filterMap_append ..

end Link

namespace Connection

/-- No probe disturbs the stream, and writes are served in order. -/
structure Plain (connection : Connection) (event : Event) : Prop where
  inOrder : connection.WritesInOrder event
  noProbe : connection.NoProbe event

instance (connection : Connection) (event : Event) :
    Decidable (Plain connection event) :=
  decidable_of_iff (connection.WritesInOrder event ∧
      connection.NoProbe event) ⟨fun h => ⟨h.1, h.2⟩, fun h => ⟨h.1, h.2⟩⟩

theorem plain_of_issued {connection : Connection} {event : Event}
    (hissued : event.IsIssued) : connection.Plain event := by
  cases event with
  | construct | destroy => exact ⟨trivial, trivial⟩
  | readCompleted => exact hissued.elim
  | write event =>
      cases event with
      | asyncWrite => exact ⟨trivial, trivial⟩
      | writeSome => exact hissued.elim

theorem listens_of_issued {connection : Connection} {event : Event}
    (hissued : event.IsIssued) (hnames : event.Names (· ≠ wildcard)) :
    Link.Listens connection event := by
  cases event with
  | construct channel address => exact ⟨trivial, hnames⟩
  | destroy | write => exact ⟨trivial, trivial⟩
  | readCompleted => exact hissued.elim

end Connection

/-! ## The machine -/

structure ClientLink where
  endpoint : Endpoint
  device : Connection

namespace ClientLink

inductive Event where
  | client (event : Endpoint.Event)
  | device (event : Connection.Event)

def Event.onDevice : Event → Option Connection.Event
  | .client _ => none
  | .device event => some event

/-- The two connections. -/
def link (state : ClientLink) : Link where
  ends
    | .left => state.endpoint.connection
    | .right => state.device

section Step

variable (codec : ProtobufCodec) (platform : Platform)

/-- Either end reads bytes which the socket of the other one took. -/
def step (state : ClientLink) : Event → Option ClientLink
  | .client event =>
      if ∀ completion ∈ event.onWire, Link.Carried
          state.device.outgoing.sent state.endpoint.connection.received
          completion then
        (state.endpoint.step codec platform event).map
          fun endpoint => { state with endpoint }
      else none
  | .device event =>
      if Link.Carried state.endpoint.connection.outgoing.sent
          state.device.received event then
        (state.device.step codec platform.strings event).map
          fun device => { state with device }
      else none

/-- What the client does in a step. -/
def moves (state : ClientLink) : Event → List ChromecastClient.Move
  | .client event => state.endpoint.moves codec platform event
  | .device _ => []

/-- The calls of `OnMessage` of a channel of the client in a run. -/
def heard (channel : ChannelId) (state : ClientLink)
    (events : List Event) : List CastMessage :=
  (outputs (step codec platform) (moves codec platform) state
    events).filterMap (Endpoint.heardBy channel)

/-- A device at the other end of a client that has just connected. -/
def ready (memory : Memory) (garbage : Side → Fin 4 → UInt8) :
    Option ClientLink :=
  (Endpoint.ready platform memory (garbage .left)).map fun endpoint =>
    ⟨endpoint, .ready (garbage .right)⟩

end Step

/-- The completions of the client's connection meet `ours`, the events of the
device meet `theirs`, and names are as they should be. -/
def Keeps (named : StdString → Prop)
    (ours theirs : Connection → Connection.Event → Prop)
    (state : ClientLink) : Event → Prop
  | .client event => event.Named named ∧ ∀ completion ∈ event.onWire,
      ours state.endpoint.connection completion
  | .device event => theirs state.device event

instance (named : StdString → Prop) [DecidablePred named] :
    (event : ChromecastClient.Event) → Decidable (event.Named named)
  | .makePlayer _ senderId =>
      inferInstanceAs (Decidable (senderId = [] ∨ named senderId))
  | .register address => inferInstanceAs (Decidable (named address.source))
  | .release _ | .unregister _ | .connectCompleted .. | .asyncConnect _
  | .receiverMessage .. | .mediaMessage .. | .heartbeatMessage ..
  | .close .. | .launch .. | .join .. | .getAppAvailabillity ..
  | .getStatus .. | .mute .. | .setVolume .. | .operate .. | .elapse _
  | .expireSend _ | .runSend .. | .expireReceive _ | .runReceive ..
  | .expireReceiver _ | .fireReceiver .. | .expireMedia _
  | .fireMedia .. => .isTrue trivial

instance (named : StdString → Prop) [DecidablePred named] :
    (event : Endpoint.Event) → Decidable (event.Named named)
  | .call event => inferInstanceAs (Decidable (event.Named named))
  | .taken .. | .read .. => .isTrue trivial

instance (named : StdString → Prop)
    (ours theirs : Connection → Connection.Event → Prop)
    [DecidablePred named]
    [∀ connection event, Decidable (ours connection event)]
    [∀ connection event, Decidable (theirs connection event)]
    (state : ClientLink) :
    (event : Event) → Decidable (Keeps named ours theirs state event)
  | .client event => inferInstanceAs (Decidable (event.Named named ∧
      ∀ completion ∈ event.onWire,
        ours state.endpoint.connection completion))
  | .device event => inferInstanceAs (Decidable (theirs state.device event))

/-- A run, as a run of the link and the moves of the client. -/
structure Follows (codec : ProtobufCodec) (platform : Platform)
    (named : StdString → Prop)
    (ours theirs : Connection → Connection.Event → Prop)
    (first last : ClientLink) (events : List Event)
    (wire : List Link.Event) : Prop where
  exec : exec (Link.step codec platform.strings) first.link wire =
    some last.link
  ours : Along (Link.step codec platform.strings) (Link.At .left ours)
    first.link wire
  theirs : Along (Link.step codec platform.strings) (Link.At .right theirs)
    first.link wire
  written : (Link.eventsAt .left wire).filterMap
      (Connection.Event.written codec) =
    Endpoint.sentSince platform.rapid first.endpoint.client
      last.endpoint.client
  device : Link.eventsAt .right wire = events.filterMap Event.onDevice
  heard : ∀ channel, first.heard codec platform channel events =
    first.endpoint.connection.inbox codec platform.strings channel
      (Link.eventsAt .left wire)
  router : last.endpoint.connection.router = last.endpoint.client.router
  parts : ChromecastClient.Parts platform named first.endpoint.client
    last.endpoint.client
  spared : ∀ channel address, channel < first.endpoint.client.nextChannel →
    (channel, address) ∈ last.endpoint.client.router.live →
      (channel, address) ∈ first.endpoint.client.router.live ∧
        Connection.Event.destroy channel ∉ Link.eventsAt .left wire

section Follows

variable {codec : ProtobufCodec} {platform : Platform}
  {named : StdString → Prop}
  {ours theirs : Connection → Connection.Event → Prop}
  {state next last : ClientLink}

theorem Follows.refl
    (hrouter : state.endpoint.connection.router =
      state.endpoint.client.router) :
    Follows codec platform named ours theirs state state [] [] where
  exec := rfl
  ours := trivial
  theirs := trivial
  written := by simp [Link.eventsAt, Endpoint.sentSince]
  device := rfl
  heard _ := rfl
  router := hrouter
  parts := .refl
  spared _ _ _ hlive := ⟨hlive, List.not_mem_nil⟩

theorem Follows.trans {before after : List Event}
    {early late : List Link.Event}
    (hfirst : Follows codec platform named ours theirs state next before early)
    (hbefore : Transition.exec (step codec platform) state before =
      some next)
    (hlater : Follows codec platform named ours theirs next last after late) :
    Follows codec platform named ours theirs state last (before ++ after)
      (early ++ late) where
  exec := by
    rw [exec_append, hfirst.exec, Option.bind_some]
    exact hlater.exec
  ours := along_append.mpr ⟨hfirst.ours, fun mid hmid => by
    rw [hfirst.exec] at hmid
    cases hmid
    exact hlater.ours⟩
  theirs := along_append.mpr ⟨hfirst.theirs, fun mid hmid => by
    rw [hfirst.exec] at hmid
    cases hmid
    exact hlater.theirs⟩
  written := by
    rw [Link.eventsAt_append, List.filterMap_append, hfirst.written,
      hlater.written]
    exact (Endpoint.sentSince_trans
      (ChromecastClient.frames_of_parts hfirst.parts)
      (ChromecastClient.frames_of_parts hlater.parts)).symm
  device := by
    rw [Link.eventsAt_append, List.filterMap_append, hfirst.device,
      hlater.device]
  heard channel := by
    have hleft : Transition.exec (Connection.step codec platform.strings)
        state.endpoint.connection (Link.eventsAt .left early) =
          some next.endpoint.connection :=
      (Link.component .left).exec hfirst.exec
    rw [ClientLink.heard, outputs_append hbefore, List.filterMap_append,
      Link.eventsAt_append, Connection.inbox, outputs_append hleft]
    exact congrArg₂ _ (hfirst.heard channel) (hlater.heard channel)
  router := hlater.router
  parts := hfirst.parts.trans hlater.parts
  spared channel address hold hlive := by
    obtain ⟨hmid, hlate⟩ := hlater.spared channel address
      (hold.trans_le (ChromecastClient.nextChannel_of_parts hfirst.parts))
      hlive
    obtain ⟨hstart, hearly⟩ := hfirst.spared channel address hold hmid
    refine ⟨hstart, ?_⟩
    rw [Link.eventsAt_append, List.mem_append, not_or]
    exact ⟨hearly, hlate⟩

/-! ## Steps -/

/-- What holds of the completion, and of whatever the client issues. -/
theorem along_wire {event : Endpoint.Event} {endpoint after : Endpoint}
    {issued : List Connection.Event}
    {condition : Connection → Connection.Event → Prop}
    (hwired : Endpoint.Wired codec platform named endpoint after event
      issued)
    (hissued : ∀ connection, ∀ other : Connection.Event, other.IsIssued →
      other.Names named → condition connection other)
    (hwire : ∀ completion ∈ event.onWire,
      condition endpoint.connection completion) :
    Along (Connection.step codec platform.strings) condition
      endpoint.connection (event.onWire.toList ++ issued) := by
  have hlater : ∀ connection, Along (Connection.step codec platform.strings)
      condition connection issued :=
    along_of_forall fun other hother connection =>
      hissued connection other (hwired.each other hother).1
        (hwired.each other hother).2
  cases honwire : event.onWire with
  | none => exact hlater _
  | some completion =>
      exact ⟨hwire completion honwire, fun mid _ => hlater mid⟩

theorem carried_of_issued {sent : List UInt8} (connection : Connection)
    (other : Connection.Event) (hissued : other.IsIssued) :
    Link.Carried sent connection.received other := by
  cases other with
  | construct | destroy | write => trivial
  | readCompleted => exact hissued.elim

theorem follows_of_client {event : Endpoint.Event}
    (hissued : ∀ connection, ∀ other : Connection.Event, other.IsIssued →
      other.Names named → ours connection other)
    (hhash : named (ChromecastClient.hashSenderId platform))
    (hrouter : state.endpoint.connection.router =
      state.endpoint.client.router)
    (horderly : state.endpoint.client.Orderly named)
    (hkeeps : state.Keeps named ours theirs (.client event))
    (hstep : state.step codec platform (.client event) = some next) :
    ∃ wire, Follows codec platform named ours theirs state next
      [.client event] wire := by
  have hkept := hstep
  simp only [step, Option.ite_none_right_eq_some] at hstep
  obtain ⟨hcarried, hmoved⟩ := hstep
  obtain ⟨after, hafter, rfl⟩ := Option.map_eq_some_iff.mp hmoved
  obtain ⟨issued, hwired⟩ := Endpoint.wired_of_step hrouter horderly hhash
    hkeeps.1 hafter
  have hparts := ChromecastClient.parts_of_moves horderly hhash
    (Endpoint.named_moves hkeeps.1) hwired.client
  refine ⟨Link.eventsOf .left (event.onWire.toList ++ issued), ?_⟩
  have hexec : Transition.exec (Link.step codec platform.strings) state.link
      (Link.eventsOf .left (event.onWire.toList ++ issued)) =
        some (state.link.setEnd .left after.connection) :=
    Link.exec_eventsOf (along_wire hwired
      (fun connection other hother _ =>
        carried_of_issued connection other hother) hcarried)
      hwired.connection
  have hlink : state.link.setEnd .left after.connection =
      ({ state with endpoint := after } : ClientLink).link := by
    unfold Link.setEnd link
    congr 1
    funext side
    cases side <;> rfl
  exact {
    exec := hlink ▸ hexec
    ours := Link.along_eventsOf (along_wire hwired hissued hkeeps.2)
    theirs := Link.along_eventsOf_other (by decide) _ _
    written := by
      rw [Link.eventsAt_eventsOf]
      exact hwired.written_onWire
    device := Link.eventsAt_eventsOf_other (by decide) _
    heard := fun channel => by
      rw [Link.eventsAt_eventsOf, hwired.inbox, heard,
        outputs_cons_of_step hkept, outputs_nil, List.append_nil]
      rfl
    router := hwired.router
    parts := hparts
    spared := fun channel address hold hlive => by
      obtain ⟨hstart, hspared⟩ := hwired.spared channel address hold hlive
      refine ⟨hstart, ?_⟩
      rw [Link.eventsAt_eventsOf, List.mem_append, not_or]
      refine ⟨?_, hspared⟩
      cases event <;> simp [Endpoint.Event.onWire] }

theorem follows_of_device {event : Connection.Event}
    (hrouter : state.endpoint.connection.router =
      state.endpoint.client.router)
    (hkeeps : state.Keeps named ours theirs (.device event))
    (hstep : state.step codec platform (.device event) = some next) :
    Follows codec platform named ours theirs state next [.device event]
      [⟨.right, event⟩] := by
  have hkept := hstep
  simp only [step, Option.ite_none_right_eq_some] at hstep
  obtain ⟨hcarried, hmoved⟩ := hstep
  obtain ⟨after, hafter, rfl⟩ := Option.map_eq_some_iff.mp hmoved
  have hexec : Transition.exec (Link.step codec platform.strings) state.link
      (Link.eventsOf .right [event]) =
        some (state.link.setEnd .right after) := by
    have halong : Along (Connection.step codec platform.strings)
        (fun connection event => Link.Carried
          state.endpoint.connection.outgoing.sent connection.received event)
        state.device [event] := ⟨hcarried, fun _ _ => trivial⟩
    exact Link.exec_eventsOf halong
      (exec_cons_eq_some.mpr ⟨after, hafter, rfl⟩)
  have hlink : state.link.setEnd .right after =
      ({ state with device := after } : ClientLink).link := by
    unfold Link.setEnd link
    congr 1
    funext side
    cases side <;> rfl
  exact {
    exec := hlink ▸ hexec
    ours := Link.along_eventsOf_other (by decide) _ [event]
    theirs := by
      have halong : Along (Connection.step codec platform.strings) theirs
          (state.link.ends .right) [event] := ⟨hkeeps, fun _ _ => trivial⟩
      exact Link.along_eventsOf halong
    written := by simp [Link.eventsAt, Link.selectAt, Endpoint.sentSince]
    device := rfl
    heard := fun channel => by
      rw [heard, outputs_cons_of_step hkept]
      rfl
    router := hrouter
    parts := .refl
    spared := fun channel address _ hlive =>
      ⟨hlive, by simp [Link.eventsAt, Link.selectAt]⟩ }

theorem follows_of_run {events : List Event}
    (hissued : ∀ connection, ∀ other : Connection.Event, other.IsIssued →
      other.Names named → ours connection other)
    (hhash : named (ChromecastClient.hashSenderId platform))
    (hrouter : state.endpoint.connection.router =
      state.endpoint.client.router)
    (horderly : state.endpoint.client.Orderly named)
    (hkeeps : Along (step codec platform) (Keeps named ours theirs) state
      events)
    (hrun : Transition.exec (step codec platform) state events = some last) :
    ∃ wire, Follows codec platform named ours theirs state last events
      wire := by
  induction events generalizing state with
  | nil =>
      cases hrun
      exact ⟨[], .refl hrouter⟩
  | cons event rest ih =>
      obtain ⟨next, hstep, hrest⟩ := exec_cons_eq_some.mp hrun
      have hone : Transition.exec (step codec platform) state [event] =
          some next := exec_cons_eq_some.mpr ⟨next, hstep, rfl⟩
      cases event with
      | client event =>
          obtain ⟨wire, hfirst⟩ :=
            follows_of_client hissued hhash hrouter horderly hkeeps.1 hstep
          obtain ⟨later, hlater⟩ := ih hfirst.router
            (ChromecastClient.orderly_of_parts hfirst.parts horderly)
            (hkeeps.2 next hstep) hrest
          exact ⟨wire ++ later, hfirst.trans hone hlater⟩
      | device event =>
          have hfirst := follows_of_device hrouter hkeeps.1 hstep
          obtain ⟨later, hlater⟩ := ih hfirst.router
            (ChromecastClient.orderly_of_parts hfirst.parts horderly)
            (hkeeps.2 next hstep) hrest
          exact ⟨_, hfirst.trans hone hlater⟩

/-! ## The start -/

/-- From two connections that are ready to the client and its device. -/
theorem link_of_ready (codec : ProtobufCodec) {memory : Memory}
    {garbage : Side → Fin 4 → UInt8}
    (hsender : named ChromecastClient.sender0)
    (hready : ready platform memory garbage = some state) :
    state.endpoint.connection.router = state.endpoint.client.router ∧
      state.endpoint.client.Orderly named ∧
      state.endpoint.client.frames = [] ∧
      (∀ object ∈ state.endpoint.client.router.live,
        object.1 < state.endpoint.client.nextChannel) ∧
      ∃ routing : List Connection.Event,
        (∀ event ∈ routing, event.IsRouting ∧ event.Names named) ∧
          Transition.exec (Link.step codec platform.strings)
            (Link.ready garbage) (Link.eventsOf .left routing) =
              some state.link := by
  obtain ⟨endpoint, hendpoint, rfl⟩ := Option.map_eq_some_iff.mp hready
  obtain ⟨client, hclient, rfl⟩ := Option.map_eq_some_iff.mp hendpoint
  have hmade := ChromecastClient.constructed hclient
  obtain ⟨routing, hroutes⟩ := ChromecastClient.routing_of_parts codec
    (ChromecastClient.parts_of_construct hsender hclient)
  have horderly : client.Orderly named :=
    ChromecastClient.orderly_of_construct hclient
  refine ⟨rfl, ⟨horderly.players, horderly.others, horderly.nextChannel⟩, ?_,
    hmade.live, routing, hroutes.each, ?_⟩
  · change client.frames = []
    rw [hmade.rest]
  · have hexec := hroutes.exec (.ready (garbage .left)) rfl
    have hstart : Transition.exec (Link.step codec platform.strings)
        (Link.ready garbage) (Link.eventsOf .left routing) =
          some ((Link.ready garbage).setEnd .left
            { Connection.ready (garbage .left) with
              router := client.router }) := by
      refine Link.exec_eventsOf (along_of_forall (fun event hevent
        connection => ?_) _) hexec
      exact carried_of_issued connection event
        (hroutes.each event hevent).1.isIssued
    rw [hstart]
    unfold Link.setEnd link Link.ready
    congr 2
    funext side
    cases side <;> rfl

/-- The link under a run in two parts, from two connections that are ready
on: `early` leads to the state in the middle, and `late` from there on. -/
structure Linked (codec : ProtobufCodec) (platform : Platform)
    (named : StdString → Prop)
    (ours theirs : Connection → Connection.Event → Prop)
    (garbage : Side → Fin 4 → UInt8) (middle last : ClientLink)
    (before after : List Event) (early late : List Link.Event) : Prop where
  follows : Follows codec platform named ours theirs middle last after late
  exec : exec (Link.step codec platform.strings) (Link.ready garbage) early =
    some middle.link
  ours : Along (Link.step codec platform.strings) (Link.At .left ours)
    (Link.ready garbage) (early ++ late)
  theirs : Along (Link.step codec platform.strings) (Link.At .right theirs)
    (Link.ready garbage) (early ++ late)
  written : Link.written codec .left (early ++ late) =
    last.endpoint.client.frames.map (Frame.message platform.rapid)
  device : Link.eventsAt .right (early ++ late) =
    (before ++ after).filterMap Event.onDevice
  numbered : middle.endpoint.client.Numbered
  router : middle.endpoint.connection.router = middle.endpoint.client.router

theorem linked_of_run {memory : Memory} {garbage : Side → Fin 4 → UInt8}
    {before after : List Event} {start middle : ClientLink}
    (hissued : ∀ connection, ∀ event : Connection.Event, event.IsIssued →
      event.Names named → ours connection event)
    (hsender : named ChromecastClient.sender0)
    (hhash : named (ChromecastClient.hashSenderId platform))
    (hready : ready platform memory garbage = some start)
    (hbefore : Transition.exec (step codec platform) start before =
      some middle)
    (hafter : Transition.exec (step codec platform) middle after = some last)
    (hkeeps : Along (step codec platform) (Keeps named ours theirs) start
      (before ++ after)) :
    ∃ early late, Linked codec platform named ours theirs garbage middle last
      before after early late := by
  obtain ⟨hrouter, horderly, hframes, hlive, routing, heach, hrouting⟩ :=
    link_of_ready codec hsender hready
  obtain ⟨hearly, hlate⟩ := along_append.mp hkeeps
  obtain ⟨first, hfirst⟩ :=
    follows_of_run hissued hhash hrouter horderly hearly hbefore
  obtain ⟨late, hlater⟩ := follows_of_run hissued hhash hfirst.router
    (ChromecastClient.orderly_of_parts hfirst.parts horderly)
    (hlate middle hbefore) hafter
  have hwhole := hfirst.trans hbefore hlater
  have hstart : ∀ {condition : Connection → Connection.Event → Prop}
      {side : Side} {wire : List Link.Event},
      Along (Link.step codec platform.strings) (Link.At side condition)
        (Link.ready garbage) (Link.eventsOf .left routing) →
      Along (Link.step codec platform.strings) (Link.At side condition)
        start.link wire →
      Along (Link.step codec platform.strings) (Link.At side condition)
        (Link.ready garbage) (Link.eventsOf .left routing ++ wire) := by
    intro condition side wire hmade hwire
    refine along_append.mpr ⟨hmade, fun link hlink => ?_⟩
    rw [hrouting] at hlink
    cases hlink
    exact hwire
  refine ⟨Link.eventsOf .left routing ++ first, late, {
    exec := ?_
    ours := ?_
    theirs := ?_
    written := ?_
    device := ?_
    numbered := ChromecastClient.numbered_of_parts hfirst.parts hlive
    router := hfirst.router
    follows := hlater }⟩
  · rw [exec_append, hrouting, Option.bind_some]
    exact hfirst.exec
  · rw [List.append_assoc]
    refine hstart (Link.along_eventsOf (along_of_forall ?_ _)) hwhole.ours
    exact fun event hevent connection => hissued connection event
      (heach event hevent).1.isIssued (heach event hevent).2
  · rw [List.append_assoc]
    exact hstart (Link.along_eventsOf_other (by decide) _ _) hwhole.theirs
  · have hquiet : routing.filterMap (Connection.Event.written codec) = [] :=
      List.filterMap_eq_nil_iff.mpr fun event hevent =>
        (heach event hevent).1.written
    rw [List.append_assoc, Link.written, Link.eventsAt_append,
      Link.eventsAt_eventsOf, List.filterMap_append, hquiet, hwhole.written,
      Endpoint.sentSince, hframes]
    rfl
  · rw [List.append_assoc, Link.eventsAt_append, hwhole.device,
      Link.eventsAt_eventsOf_other (by decide)]
    rfl

theorem Linked.run {garbage : Side → Fin 4 → UInt8}
    {before after : List Event} {middle : ClientLink}
    {early late : List Link.Event}
    (h : Linked codec platform named ours theirs garbage middle last before
      after early late) :
    Transition.exec (Link.step codec platform.strings) (Link.ready garbage)
      (early ++ late) = some last.link := by
  rw [exec_append, h.exec, Option.bind_some]
  exact h.follows.exec

/-- What a channel of one end hears is what comes up for it. -/
theorem Linked.piped {garbage : Side → Fin 4 → UInt8}
    {before after : List Event} {middle : ClientLink}
    {early late : List Link.Event} {channel : ChannelId} {address : Address}
    (side : Side) (hunit : platform.strings.UnitValued)
    (h : Linked codec platform named ours theirs garbage middle last before
      after early late)
    (hsends : Along (Link.step codec platform.strings)
      (Link.At side.other (Connection.Sends codec)) (Link.ready garbage)
      (early ++ late))
    (hlistens : Along (Link.step codec platform.strings)
      (Link.At side Link.Listens) (Link.ready garbage) (early ++ late))
    (hcalls : ∀ call ∈ (last.link.ends side).calls, call.2 = .ok ())
    (hlive : (channel, address) ∈ (middle.link.ends side).router.live)
    (hkept : .destroy channel ∉ Link.eventsAt side late) :
    Link.Piped (Link.written codec side.other (early ++ late))
      ((middle.link.ends side).inbox codec platform.strings channel
        (Link.eventsAt side late)) address
      (middle.link.ends side).calls.length (last.link.Drained side) := by
  obtain ⟨hcontents, hcount, hall⟩ :=
    Link.dispatched_of_run h.run hsends hlistens hcalls
  have hgrows := (Connection.run_grows
    ((Link.component side).exec h.follows.exec)).2
  exact Link.piped_of_dispatched hgrows hcontents hcount hall
    (Link.inbox_of_listens hunit h.exec h.follows.exec hlistens hcalls hlive
      hkept)

end Follows

/-! ## From the client to the device -/

/-- A sender whose messages fit. -/
theorem along_sends {codec : ProtobufCodec} {strings : StringCompare}
    {side : Side} {link : Link} {wire : List Link.Event}
    (hplain : Along (Link.step codec strings)
      (Link.At side Connection.Plain) link wire)
    (hfits : ∀ message ∈ Link.written codec side wire,
      (Outgoing.savedBody codec message).length < codedInputLimit) :
    Along (Link.step codec strings)
      (Link.At side (Connection.Sends codec)) link wire := by
  apply hplain.imp_of_mem
  intro current event hevent hhere selected hselect
  refine ⟨(hhere selected hselect).inOrder, (hhere selected hselect).noProbe,
    ?_⟩
  cases selected with
  | construct | destroy | readCompleted => trivial
  | write selected =>
      cases selected with
      | writeSome => trivial
      | asyncWrite message =>
          change (Outgoing.savedBody codec message).length < codedInputLimit
          cases hsave : message.save codec with
          | error fault =>
              rw [Outgoing.savedBody, hsave]
              exact Nat.succ_pos _
          | ok body =>
              apply hfits message
              exact List.mem_filterMap.mpr ⟨_,
                List.mem_filterMap.mpr ⟨event, hevent, hselect⟩,
                Connection.Event.written_of_ok hsave⟩

/-- What the client sends arrives.  Take any run of a client and a device in
which no probe of the client succeeds, its writes are served in order and its
messages fit, the device listens, and no call of `OnMessage` of the device
raises.  A channel of the device which lives through `after` is then called,
during `after`, exactly with the messages for its address among the frames
which the channels of the client issued and which came up meanwhile: in the
order in which they were issued, across all channels and timers, each once. -/
theorem device_hears {codec : ProtobufCodec} {platform : Platform}
    (hunit : platform.strings.UnitValued) {memory : Memory}
    {garbage : Side → Fin 4 → UInt8} {before after : List Event}
    {start middle last : ClientLink} {channel : ChannelId}
    {address : Address}
    (hready : ready platform memory garbage = some start)
    (hbefore : exec (step codec platform) start before = some middle)
    (hafter : exec (step codec platform) middle after = some last)
    (hkeeps : Along (step codec platform)
      (Keeps (fun _ => True) Connection.Plain Link.Listens) start
      (before ++ after))
    (hfits : ∀ frame ∈ last.endpoint.client.frames,
      (Outgoing.savedBody codec (frame.message platform.rapid)).length <
        codedInputLimit)
    (hcalls : ∀ call ∈ last.device.calls, call.2 = .ok ())
    (hlive : (channel, address) ∈ middle.device.router.live)
    (hkept : .destroy channel ∉ after.filterMap Event.onDevice) :
    Link.Piped (last.endpoint.client.frames.map
        (Frame.message platform.rapid))
      (middle.device.inbox codec platform.strings channel
        (after.filterMap Event.onDevice))
      address middle.device.calls.length (last.link.Drained .right) := by
  obtain ⟨early, late, hlinked⟩ := linked_of_run
    (fun _ event hissued _ => Connection.plain_of_issued hissued)
    trivial trivial hready hbefore hafter hkeeps
  have hsends := along_sends hlinked.ours (by
    rw [hlinked.written]
    exact List.forall_mem_map.mpr hfits)
  rw [← hlinked.written, ← hlinked.follows.device]
  exact hlinked.piped .right hunit hsends hlinked.theirs hcalls hlive
    (hlinked.follows.device ▸ hkept)

/-- The device reads the CONNECT of the client, in three parts. -/
def greeted : List Event :=
  let body := Outgoing.savedBody googleCodec (textMessage
    (ChromecastClient.ownAddress connectionNamespace)
    (textJson.toString (ChromecastClient.controlDocument "CONNECT")))
  let read (bytes : List UInt8) (error : Bool) : Event :=
    .device (.readCompleted 0 ⟨error, bytes, none, fun _ => .ok ()⟩)
  [.client (.call (.connectCompleted false (.ok ()))), .client (.taken 0 20),
    read (encodeBigEndian32 body.length) false, read (body.take 9) true,
    .client (.taken 0 (body.length - 16)), read (body.drop 9) false]

theorem device_hears_greeted :
    ∃ start middle last,
      ready ChromecastClient.textPlatform ReceiverChannel.cleared
          (fun _ _ => 7) = some start ∧
        exec (step googleCodec ChromecastClient.textPlatform) start
          [.device (.construct 0
            (ChromecastClient.ownAddress connectionNamespace).swap)] =
              some middle ∧
        exec (step googleCodec ChromecastClient.textPlatform) middle
          greeted = some last ∧
        (middle.device.inbox googleCodec .unit 0
          (greeted.filterMap Event.onDevice)).length = 1 ∧
        Link.Piped (last.endpoint.client.frames.map
            (Frame.message textJson))
          (middle.device.inbox googleCodec .unit 0
            (greeted.filterMap Event.onDevice))
          (ChromecastClient.ownAddress connectionNamespace).swap
          middle.device.calls.length (last.link.Drained .right) := by
  have hsome : (ready ChromecastClient.textPlatform ReceiverChannel.cleared
      (fun _ _ => 7)).any fun start =>
        (exec (step googleCodec ChromecastClient.textPlatform) start
          [.device (.construct 0 (ChromecastClient.ownAddress
            connectionNamespace).swap)]).any fun middle =>
          (exec (step googleCodec ChromecastClient.textPlatform) middle
            greeted).any fun last =>
              decide (Along (step googleCodec ChromecastClient.textPlatform)
                  (Keeps (fun _ => True) Connection.Plain Link.Listens) start
                  ([.device (.construct 0 (ChromecastClient.ownAddress
                    connectionNamespace).swap)] ++ greeted) ∧
                (∀ frame ∈ last.endpoint.client.frames,
                  (Outgoing.savedBody googleCodec
                    (frame.message textJson)).length < codedInputLimit) ∧
                (∀ call ∈ last.device.calls, call.2 = .ok ()) ∧
                (0, (ChromecastClient.ownAddress
                  connectionNamespace).swap) ∈ middle.device.router.live ∧
                (middle.device.inbox googleCodec .unit 0
                  (greeted.filterMap Event.onDevice)).length = 1) := by
    decide +kernel
  obtain ⟨start, hready, hany⟩ := (Option.any_eq_true _ _).mp hsome
  obtain ⟨middle, hmiddle, hany⟩ := (Option.any_eq_true _ _).mp hany
  obtain ⟨last, hlast, hfacts⟩ := (Option.any_eq_true _ _).mp hany
  obtain ⟨hkeeps, hfits, hcalls, hlive, hheard⟩ := of_decide_eq_true hfacts
  exact ⟨start, middle, last, hready, hmiddle, hlast, hheard,
    device_hears StringCompare.unit_unitValued hready hmiddle hlast hkeeps
      hfits hcalls hlive (by simp [greeted, Event.onDevice])⟩

/-! ## From the device to the client -/

/-- What the device writes arrives as well, with the ends exchanged, where no
channel of the client has the wildcard as its own source: a channel of the
client which is there in the middle and in the end is called, during
`after`, exactly with the messages for its address which came up meanwhile, in
the order in which the device wrote them. -/
theorem client_hears {codec : ProtobufCodec} {platform : Platform}
    (hunit : platform.strings.UnitValued)
    {memory : Memory} {garbage : Side → Fin 4 → UInt8}
    {before after : List Event} {start middle last : ClientLink}
    {channel : ChannelId} {address : Address}
    (hready : ready platform memory garbage = some start)
    (hbefore : exec (step codec platform) start before = some middle)
    (hafter : exec (step codec platform) middle after = some last)
    (hkeeps : Along (step codec platform)
      (Keeps (· ≠ wildcard) Link.Listens (Connection.Sends codec)) start
      (before ++ after))
    (hcalls : ∀ call ∈ last.endpoint.connection.calls, call.2 = .ok ())
    (hlive : (channel, address) ∈ middle.endpoint.client.router.live)
    (hkept : (channel, address) ∈ last.endpoint.client.router.live) :
    Link.Piped (((before ++ after).filterMap Event.onDevice).filterMap
        (Connection.Event.written codec))
      (middle.heard codec platform channel after) address
      middle.endpoint.connection.calls.length
      (last.link.Drained .left) := by
  have hsender : ChromecastClient.sender0 ≠ wildcard := by decide
  have hhash := ChromecastClient.hashSenderId_ne_wildcard platform
  obtain ⟨early, late, hlinked⟩ := linked_of_run
    (fun _ event hissued hnames => Connection.listens_of_issued hissued
      hnames) hsender hhash hready hbefore hafter hkeeps
  have hthere : (channel, address) ∈
      (middle.link.ends .left).router.live := by
    rw [← hlinked.router] at hlive
    exact hlive
  have hspared := (hlinked.follows.spared channel address
    (hlinked.numbered _ hlive) hkept).2
  rw [← hlinked.device, hlinked.follows.heard]
  exact hlinked.piped .left hunit hlinked.theirs hlinked.ours hcalls
    hthere hspared

/-- The device sends PING, and the client reads it in three parts. -/
def answered : List Event :=
  let body := Outgoing.savedBody googleCodec Endpoint.pingMessage
  let read (bytes : List UInt8) (error : Bool) : Event :=
    .client (.read 0 ⟨error, bytes, none, fun _ => .ok ()⟩ fun _ => {})
  [.device (.write (.asyncWrite Endpoint.pingMessage)),
    .device (.write (.writeSome 0 20)),
    read (encodeBigEndian32 body.length) false, read (body.take 9) true,
    .device (.write (.writeSome 0 (body.length - 16))),
    read (body.drop 9) false]

theorem client_hears_answered :
    ∃ start middle last,
      ready ChromecastClient.textPlatform ReceiverChannel.cleared
          (fun _ _ => 7) = some start ∧
        exec (step googleCodec ChromecastClient.textPlatform) start
          [.client (.call (.connectCompleted false (.ok ())))] =
            some middle ∧
        exec (step googleCodec ChromecastClient.textPlatform) middle
          answered = some last ∧
        (middle.heard googleCodec ChromecastClient.textPlatform 1
          answered).length = 1 ∧
        Link.Piped (((([.client (.call (.connectCompleted false
            (.ok ())))] : List Event) ++ answered).filterMap
              Event.onDevice).filterMap
                (Connection.Event.written googleCodec))
          (middle.heard googleCodec ChromecastClient.textPlatform 1 answered)
          (ChromecastClient.ownAddress heartbeatNamespace)
          middle.endpoint.connection.calls.length
          (last.link.Drained .left) := by
  have hsome : (ready ChromecastClient.textPlatform ReceiverChannel.cleared
      (fun _ _ => 7)).any fun start =>
        (exec (step googleCodec ChromecastClient.textPlatform) start
          [.client (.call (.connectCompleted false (.ok ())))]).any
            fun middle =>
          (exec (step googleCodec ChromecastClient.textPlatform) middle
            answered).any fun last =>
              decide (Along (step googleCodec ChromecastClient.textPlatform)
                  (Keeps (· ≠ wildcard) Link.Listens
                    (Connection.Sends googleCodec)) start
                  ([.client (.call (.connectCompleted false (.ok ())))] ++
                    answered) ∧
                (∀ call ∈ last.endpoint.connection.calls, call.2 = .ok ()) ∧
                (1, ChromecastClient.ownAddress heartbeatNamespace) ∈
                  middle.endpoint.client.router.live ∧
                (1, ChromecastClient.ownAddress heartbeatNamespace) ∈
                  last.endpoint.client.router.live ∧
                (middle.heard googleCodec ChromecastClient.textPlatform 1
                  answered).length = 1) := by
    decide +kernel
  obtain ⟨start, hready, hany⟩ := (Option.any_eq_true _ _).mp hsome
  obtain ⟨middle, hmiddle, hany⟩ := (Option.any_eq_true _ _).mp hany
  obtain ⟨last, hlast, hfacts⟩ := (Option.any_eq_true _ _).mp hany
  obtain ⟨hkeeps, hcalls, hlive, hkept, hheard⟩ := of_decide_eq_true hfacts
  exact ⟨start, middle, last, hready, hmiddle, hlast, hheard,
    client_hears StringCompare.unit_unitValued hready hmiddle
      hlast hkeeps hcalls hlive hkept⟩

end ClientLink

end LibChromecast
