import LibChromecast.Broadcasts
import LibChromecast.OutgoingStream

/-!
# How long the chain of reads goes on

The next read is started by the last statement of a callback that first
decodes and dispatches, so the chain is as long as nothing before it raises.
What it dispatches to may change the map: a channel that is called may
construct channels and destroy channels, itself included, before it returns.
Here the handlers therefore run as events of their own, and the loop of a
broadcast goes through the map as they leave it.

A call is open from the event that makes it to `returned` or `raised`; the
reader waits for it, since the body that is dispatched was the only read.  The
liveness probe of a short read succeeds: the socket reports no error.

`gone` is not in the source: the channels that were destroyed, from which new
objects are distinct.
-/

namespace LibChromecast

open Foundation Foundation.Transition Foundation.Cursor

namespace Connection

/-- One read is outstanding, and every body read was handed to `OnMessage`. -/
structure Reading (codec : ProtobufCodec) (connection : Connection) :
    Prop where
  one_read : connection.reads.length = 1
  handed : List.Forall₂
    (fun call body => CastMessage.load codec {} body = .ok call.1)
    connection.calls connection.bodies

theorem eraseIdx_eq_nil {connection : Connection}
    (hone : connection.reads.length = 1) {index : ℕ} {op : ReadOp}
    (hop : connection.reads[index]? = some op) :
    connection.reads.eraseIdx index = [] := by
  obtain ⟨only, honly⟩ := List.length_eq_one_iff.mp hone
  rw [honly] at hop ⊢
  cases index with
  | zero => rfl
  | succ n => simp at hop

end Connection

structure LiveConnection where
  connection : Connection
  message : CastMessage := {}
  loop : Loop := .idle
  gone : List ChannelId := []

/-- A read that completes, with a probe that succeeds if it is short.  How the
handlers end is not known at that time. -/
abbrev ReadCompletion.alive (error : Bool) (bytes : List UInt8) :
    ReadCompletion :=
  ⟨error, bytes, none, fun _ => .ok ()⟩

namespace LiveConnection

abbrev map (state : LiveConnection) : ChannelMap :=
  state.connection.router.channelAddressToChannel

def ready (garbage : Fin 4 → UInt8) : LiveConnection :=
  { connection := .ready garbage }

/-- `OnMessage` ends, and the callback of `StartReadingData` with it. -/
def ended (outcome : Outcome Unit) (state : LiveConnection) :
    LiveConnection :=
  let connection := { state.connection with
    calls := state.connection.calls ++ [(state.message, outcome)] }
  { state with
    loop := .idle
    connection := match outcome with
      | .error fault => connection.escape fault
      | .ok () => connection.startReadingPacketLength }

def call (entry : Address × ChannelId) (state : LiveConnection) :
    LiveConnection :=
  { state with loop := .calling entry }

/-- The loop over the map, with these entries still before it. -/
def goOn (entries : ChannelMap) (state : LiveConnection) : LiveConnection :=
  match Broadcasting.nextCall state.message entries with
  | none => state.ended (.ok ())
  | some entry => state.call entry

/-- `ChromecastConnection::OnMessage` up to the first call of a channel. -/
def onMessage (strings : StringCompare) (state : LiveConnection) :
    LiveConnection :=
  if state.message.address.destination ≠ wildcard then
    match state.map.find? strings state.message.address with
    | some entry => state.call entry
    | none => state.ended (onUnrecognizedAddress state.message)
  else state.goOn state.map

/-- The callback `StartReadingData` passes on, up to that call. -/
def packetDataRead (codec : ProtobufCodec) (strings : StringCompare)
    (state : LiveConnection) : LiveConnection :=
  let body := state.connection.currentPacket.body
  let connection := { state.connection with
    bodies := state.connection.bodies ++ [body] }
  match CastMessage.load codec {} body with
  | .error fault => { state with connection := connection.escape fault }
  | .ok message => { state with connection, message }.onMessage strings

/-- The read completes a body. -/
def EndsBody (op : ReadOp) (error : Bool) (bytes : List UInt8) : Prop :=
  op.target = .packetData ∧ error = false ∧ op.size = bytes.length

instance (op : ReadOp) (error : Bool) (bytes : List UInt8) :
    Decidable (EndsBody op error bytes) :=
  inferInstanceAs (Decidable (_ ∧ _ ∧ _))

/-- The outstanding read `index` completes while no handler is running. -/
def readCompleted (codec : ProtobufCodec) (strings : StringCompare)
    (index : ℕ) (error : Bool) (bytes : List UInt8)
    (state : LiveConnection) : Option LiveConnection :=
  match state.connection.reads[index]? with
  | none => none
  | some op =>
      let completion := ReadCompletion.alive error bytes
      let connection := state.connection.stored op index completion
      if state.loop ≠ .idle ∨ op.size < bytes.length then none
      else if EndsBody op error bytes then
        some ({ state with connection }.packetDataRead codec strings)
      else
        some { state with
          connection := connection.readHandler codec strings op completion }

/-- The handler of a channel returns: a unicast is over, the loop of a
broadcast advances. -/
def returned (state : LiveConnection) : Option LiveConnection :=
  match state.loop with
  | .calling entry =>
      if state.message.address.destination ≠ wildcard then
        some (state.ended (.ok ()))
      else
        match after? entry state.map with
        | some rest => some (state.goOn rest)
        | none => some { state with loop := .lost }
  | .idle | .lost => none

def raised (fault : Fault) (state : LiveConnection) :
    Option LiveConnection :=
  match state.loop with
  | .calling _ => some (state.ended (.error fault))
  | .idle | .lost => none

inductive Event where
  | construct (channel : ChannelId) (address : Address)
  | destroy (channel : ChannelId)
  | write (event : Outgoing.Event)
  | readCompleted (index : ℕ) (error : Bool) (bytes : List UInt8)
  | returned
  | raised (fault : Fault)

def step (codec : ProtobufCodec) (strings : StringCompare)
    (state : LiveConnection) : Event → Option LiveConnection
  | .construct channel address =>
      if state.loop = .lost ∨ channel ∈ state.gone then none
      else
        (state.connection.step codec strings
          (.construct channel address)).map
            fun connection => { state with connection }
  | .destroy channel =>
      if state.loop = .lost then none
      else
        (state.connection.step codec strings (.destroy channel)).map
          fun connection => { state with
            connection
            gone := channel :: state.gone }
  | .write event =>
      if state.loop = .lost then none
      else
        (state.connection.step codec strings (.write event)).map
          fun connection => { state with connection }
  | .readCompleted index error bytes =>
      state.readCompleted codec strings index error bytes
  | .returned => state.returned
  | .raised fault => state.raised fault

/-! ## What a step can do -/

/-- The body in the packet was handed on. -/
def taken (state : LiveConnection) : LiveConnection :=
  { state with connection := { state.connection with
      bodies := state.connection.bodies ++
        [state.connection.currentPacket.body] } }

inductive BodyCase (codec : ProtobufCodec) (strings : StringCompare)
    (state : LiveConnection) : LiveConnection → Prop
  | undecodable (fault : Fault)
      (hload : CastMessage.load codec {}
        state.connection.currentPacket.body = .error fault) :
      BodyCase codec strings state { state.taken with
        connection := state.taken.connection.escape fault }
  | unrecognized (message : CastMessage) (fault : Fault)
      (hload : CastMessage.load codec {}
        state.connection.currentPacket.body = .ok message)
      (hunicast : message.address.destination ≠ wildcard)
      (hfind : state.map.find? strings message.address = none) :
      BodyCase codec strings state
        ({ state.taken with message }.ended (.error fault))
  | unheard (message : CastMessage)
      (hload : CastMessage.load codec {}
        state.connection.currentPacket.body = .ok message)
      (hbroadcast : message.address.destination = wildcard) :
      BodyCase codec strings state
        ({ state.taken with message }.ended (.ok ()))
  | called (message : CastMessage) (entry : Address × ChannelId)
      (hload : CastMessage.load codec {}
        state.connection.currentPacket.body = .ok message)
      (hmem : entry ∈ state.map)
      (hfind : message.address.destination ≠ wildcard →
        state.map.find? strings message.address = some entry) :
      BodyCase codec strings state
        ({ state.taken with message }.call entry)

/-- The loop ends, or stops at an entry it had before it. -/
theorem goOn_cases (state : LiveConnection) (entries : ChannelMap) :
    state.goOn entries = state.ended (.ok ()) ∨
      ∃ entry ∈ entries, state.goOn entries = state.call entry := by
  unfold goOn
  rw [Broadcasting.nextCall_eq_find?]
  cases hfind : List.find?
      (fun entry => state.message.Reaches entry.1.swap) entries with
  | none => exact Or.inl rfl
  | some entry =>
      exact Or.inr ⟨entry, List.mem_of_find?_eq_some hfind, rfl⟩

theorem onMessage_cases (strings : StringCompare) (state : LiveConnection) :
    (state.message.address.destination = wildcard ∧
      state.onMessage strings = state.goOn state.map) ∨
    (state.message.address.destination ≠ wildcard ∧
      state.map.find? strings state.message.address = none ∧
      state.onMessage strings =
        state.ended (onUnrecognizedAddress state.message)) ∨
    ∃ entry, state.message.address.destination ≠ wildcard ∧
      state.map.find? strings state.message.address = some entry ∧
      state.onMessage strings = state.call entry := by
  unfold onMessage
  by_cases hbroadcast : state.message.address.destination = wildcard
  · exact Or.inl ⟨hbroadcast, if_neg (not_not_intro hbroadcast)⟩
  · rw [if_pos hbroadcast]
    cases hfind : state.map.find? strings state.message.address with
    | none => exact Or.inr (Or.inl ⟨hbroadcast, rfl, rfl⟩)
    | some entry =>
        exact Or.inr (Or.inr ⟨entry, hbroadcast, rfl, rfl⟩)

theorem bodyCase_packetDataRead (codec : ProtobufCodec)
    (strings : StringCompare) (state : LiveConnection) :
    BodyCase codec strings state (state.packetDataRead codec strings) := by
  unfold packetDataRead
  cases hload : CastMessage.load codec {}
      state.connection.currentPacket.body with
  | error fault =>
      simp only [hload]
      exact .undecodable fault hload
  | ok message =>
      simp only [hload]
      change BodyCase codec strings state
        ({ state.taken with message }.onMessage strings)
      rcases onMessage_cases strings { state.taken with message } with
        ⟨hbroadcast, hnext⟩ | ⟨hunicast, hfind, hnext⟩ |
          ⟨entry, hunicast, hfind, hnext⟩
      · rcases goOn_cases { state.taken with message } state.map with
          hends | ⟨entry, hmem, hcalls⟩
        · rw [hnext]
          exact hends ▸ .unheard message hload hbroadcast
        · rw [hnext]
          exact hcalls ▸ .called message entry hload hmem
            fun hunicast => absurd hbroadcast hunicast
      · rw [hnext]
        exact .unrecognized message _ hload hunicast hfind
      · rw [hnext]
        exact .called message entry hload (OrderedMap.mem_of_find? _ hfind)
          fun _ => hfind

/-- The state in which the handler of a completed read runs. -/
def stored (op : ReadOp) (index : ℕ) (error : Bool) (bytes : List UInt8)
    (state : LiveConnection) : LiveConnection :=
  { state with
    connection := state.connection.stored op index (.alive error bytes) }

inductive StepCase (codec : ProtobufCodec) (strings : StringCompare)
    (state : LiveConnection) : Event → LiveConnection → Prop
  | construct (channel : ChannelId) (address : Address)
      (outcome : Outcome Unit) (router : Router)
      (hloop : state.loop ≠ .lost) (hnew : channel ∉ state.gone)
      (h : state.connection.router.construct strings channel address =
        some (outcome, router)) :
      StepCase codec strings state (.construct channel address)
        { state with connection := { state.connection with router } }
  | destroy (channel : ChannelId) (router : Router)
      (hloop : state.loop ≠ .lost)
      (h : state.connection.router.destroy strings channel =
        some router) :
      StepCase codec strings state (.destroy channel)
        { state with
          connection := { state.connection with router }
          gone := channel :: state.gone }
  | write (event : Outgoing.Event) (outgoing : Outgoing)
      (hloop : state.loop ≠ .lost) :
      StepCase codec strings state (.write event)
        { state with connection := { state.connection with outgoing } }
  | partRead (index : ℕ) (error : Bool) (bytes : List UInt8) (op : ReadOp)
      (started : ReadOp) (connection : Connection)
      (hidle : state.loop = .idle)
      (hop : state.connection.reads[index]? = some op)
      (hpart : ¬EndsBody op error bytes)
      (hreads : connection.reads =
        state.connection.reads.eraseIdx index ++ [started])
      (hrouter : connection.router = state.connection.router)
      (hbodies : connection.bodies = state.connection.bodies)
      (hcalls : connection.calls = state.connection.calls) :
      StepCase codec strings state (.readCompleted index error bytes)
        { state with connection }
  | bodyRead (index : ℕ) (error : Bool) (bytes : List UInt8) (op : ReadOp)
      (next : LiveConnection) (hidle : state.loop = .idle)
      (hop : state.connection.reads[index]? = some op)
      (hends : EndsBody op error bytes)
      (hbody : BodyCase codec strings (state.stored op index error bytes)
        next) :
      StepCase codec strings state (.readCompleted index error bytes) next
  | ended (entry : Address × ChannelId)
      (hcalling : state.loop = .calling entry)
      (hlast : state.message.address.destination = wildcard →
        entry ∈ state.map) :
      StepCase codec strings state .returned (state.ended (.ok ()))
  | advanced (entry later : Address × ChannelId)
      (hcalling : state.loop = .calling entry)
      (hbroadcast : state.message.address.destination = wildcard)
      (hmem : entry ∈ state.map) (hlater : later ∈ state.map) :
      StepCase codec strings state .returned (state.call later)
  | lost (entry : Address × ChannelId)
      (hcalling : state.loop = .calling entry)
      (hbroadcast : state.message.address.destination = wildcard)
      (hgone : entry ∉ state.map) :
      StepCase codec strings state .returned { state with loop := .lost }
  | raised (fault : Fault) (entry : Address × ChannelId)
      (hcalling : state.loop = .calling entry) :
      StepCase codec strings state (.raised fault)
        (state.ended (.error fault))

theorem endsBody_iff {op : ReadOp} {error : Bool} {bytes : List UInt8} :
    EndsBody op error bytes ↔
      op.target = .packetData ∧
        ¬(ReadCompletion.alive error bytes).Short op := by
  simp [EndsBody, ReadCompletion.Short]

theorem step_cases {codec : ProtobufCodec} {strings : StringCompare}
    {state next : LiveConnection} {event : Event}
    (h : state.step codec strings event = some next) :
    StepCase codec strings state event next := by
  cases event with
  | construct channel address =>
      simp only [step] at h
      split_ifs at h with hloop
      rw [not_or] at hloop
      obtain ⟨connection, hconstruct, rfl⟩ := Option.map_eq_some_iff.mp h
      cases Connection.step_cases hconstruct with
      | construct _ _ outcome router hrouter =>
          exact .construct channel address outcome router hloop.1 hloop.2
            hrouter
  | destroy channel =>
      simp only [step] at h
      split_ifs at h with hloop
      obtain ⟨connection, hdestroy, rfl⟩ := Option.map_eq_some_iff.mp h
      cases Connection.step_cases hdestroy with
      | destroy _ router hrouter =>
          exact .destroy channel router hloop hrouter
  | write event =>
      simp only [step] at h
      split_ifs at h with hloop
      obtain ⟨connection, hwrite, rfl⟩ := Option.map_eq_some_iff.mp h
      cases Connection.step_cases hwrite with
      | write _ outgoing => exact .write event outgoing hloop
  | readCompleted index error bytes =>
      simp only [step, readCompleted] at h
      split at h
      next => contradiction
      next op hop =>
        split_ifs at h with hsize hends
        all_goals rw [not_or, not_not] at hsize
        all_goals obtain ⟨hidle, -⟩ := hsize
        · cases h
          exact .bodyRead index error bytes op _ hidle hop hends
            (bodyCase_packetDataRead codec strings
              (state.stored op index error bytes))
        · cases h
          have hread := Connection.readStep_readHandler codec strings op
            (.alive error bytes)
            (state.connection.stored op index (.alive error bytes))
          generalize Connection.readHandler codec strings op _ _ =
            connection at hread ⊢
          have hpart : ¬(op.target = .packetData ∧
              ¬(ReadCompletion.alive error bytes).Short op) :=
            fun h => hends (endsBody_iff.mpr h)
          cases hread with
          | probeFailed hshort code hprobe => cases hprobe
          | resumed =>
              exact .partRead index error bytes op _ _ hidle hop hends rfl
                rfl rfl rfl
          | lengthRead =>
              exact .partRead index error bytes op _ _ hidle hop hends rfl
                rfl rfl rfl
          | undecodable hfull htarget =>
              exact absurd ⟨htarget, hfull⟩ hpart
          | undelivered hfull htarget =>
              exact absurd ⟨htarget, hfull⟩ hpart
          | dispatched hfull htarget =>
              exact absurd ⟨htarget, hfull⟩ hpart
  | returned =>
      simp only [step, returned] at h
      split at h
      next entry hcalling =>
        split_ifs at h with hunicast
        · cases h
          exact .ended entry hcalling fun h => absurd h hunicast
        · have hbroadcast := not_not.mp hunicast
          split at h
          next rest hafter =>
            cases h
            have hsuffix := after?_suffix hafter
            have hmem := hsuffix.subset (List.mem_cons_self ..)
            rcases state.goOn_cases rest with hnext | ⟨later, hin, hnext⟩
            · rw [hnext]
              exact .ended entry hcalling fun _ => hmem
            · rw [hnext]
              exact .advanced entry later hcalling hbroadcast hmem
                (hsuffix.subset (List.mem_cons_of_mem _ hin))
          next hafter =>
            cases h
            exact .lost entry hcalling hbroadcast
              (after?_eq_none_iff.mp hafter)
      next => contradiction
      next => contradiction
  | raised fault =>
      simp only [step, raised] at h
      split at h
      next entry hcalling =>
        cases h
        exact .raised fault entry hcalling
      next => contradiction
      next => contradiction

/-! ## What a run keeps -/

/-- Exactly one read is outstanding whenever no handler is running, and every
body read was handed to `OnMessage`. -/
structure Reads (codec : ProtobufCodec) (state : LiveConnection) :
    Prop where
  standing : state.loop ≠ .lost
  reading : state.loop = .idle → state.connection.Reading codec

/-- A call is open: the body it is for is the last one, and its dispatch is
not recorded yet. -/
structure Dispatching (codec : ProtobufCodec) (state : LiveConnection) :
    Prop where
  unread : state.connection.reads = []
  handed : ∃ earlier body, state.connection.bodies = earlier ++ [body] ∧
    CastMessage.load codec {} body = .ok state.message ∧
    List.Forall₂
      (fun call body => CastMessage.load codec {} body = .ok call.1)
      state.connection.calls earlier

/-- The map is that of the live channels, and the entry a call was made for
is in it or was erased with its channel. -/
structure Consistent (codec : ProtobufCodec) (strings : StringCompare)
    (state : LiveConnection) : Prop where
  registered : state.connection.router.Registered strings
  gone : ∀ channel ∈ state.gone,
    channel ∉ state.connection.router.live.map Prod.fst
  calling : ∀ entry, state.loop = .calling entry →
    state.Dispatching codec ∧
      (entry ∈ state.map ∨ entry.2 ∈ state.gone)

theorem reads_ready (codec : ProtobufCodec) (garbage : Fin 4 → UInt8) :
    (ready garbage).Reads codec :=
  ⟨Loop.noConfusion, fun _ => ⟨rfl, .nil⟩⟩

theorem consistent_ready (codec : ProtobufCodec) (strings : StringCompare)
    (garbage : Fin 4 → UInt8) :
    (ready garbage).Consistent codec strings :=
  ⟨Router.registered_empty, fun _ h => absurd h List.not_mem_nil,
    fun _ h => Loop.noConfusion h⟩

/-- The message is for some channel: a broadcast, or a unicast to one that
exists. -/
def Recognized (message : CastMessage) (router : Router) : Prop :=
  message.address.destination = wildcard ∨
    ∃ object ∈ router.live, message.Addresses object.2

def Decodes (codec : ProtobufCodec) (router : Router) (body : List UInt8) :
    Prop :=
  ∃ message ∈ (CastMessage.load codec {} body).toOption,
    Recognized message router

/-- A body that is completed decodes and its message is recognized, no handler
raises, and the channel which a broadcast has called is still there when it
returns. -/
def Handled (codec : ProtobufCodec) (state : LiveConnection) :
    Event → Prop
  | .readCompleted index error bytes =>
      ∀ op ∈ state.connection.reads[index]?, EndsBody op error bytes →
        Decodes codec state.connection.router
          (state.connection.currentPacket.store op.target op.offset
            bytes).body
  | .returned => ∀ entry ∈ state.loop.called,
      state.message.address.destination = wildcard →
        entry.2 ∉ state.gone
  | .raised _ => False
  | .construct _ _ | .destroy _ | .write _ => True

/-- No channel has the wildcard for its own source. -/
def OwnSourceNamed (_ : LiveConnection) : Event → Prop
  | .construct _ address => address.source ≠ wildcard
  | .destroy _ | .write _ | .readCompleted _ _ _ | .returned
  | .raised _ => True

section Decidable

instance (message : CastMessage) (own : Address) :
    Decidable (message.Addresses own) :=
  inferInstanceAs (Decidable (_ ∧ _ ∧ _))

instance (message : CastMessage) (router : Router) :
    Decidable (Recognized message router) :=
  inferInstanceAs (Decidable (message.address.destination = wildcard ∨
    ∃ object ∈ router.live, message.Addresses object.2))

instance (codec : ProtobufCodec) (router : Router) (body : List UInt8) :
    Decidable (Decodes codec router body) :=
  inferInstanceAs (Decidable
    (∃ message ∈ (CastMessage.load codec {} body).toOption,
      Recognized message router))

instance (codec : ProtobufCodec) (state : LiveConnection) :
    (event : Event) → Decidable (state.Handled codec event)
  | .readCompleted index error bytes =>
      inferInstanceAs (Decidable
        (∀ op ∈ state.connection.reads[index]?, EndsBody op error bytes →
          Decodes codec state.connection.router
            (state.connection.currentPacket.store op.target op.offset
              bytes).body))
  | .returned =>
      inferInstanceAs (Decidable (∀ entry ∈ state.loop.called,
        state.message.address.destination = wildcard →
          entry.2 ∉ state.gone))
  | .raised _ => .isFalse id
  | .construct _ _ => .isTrue trivial
  | .destroy _ => .isTrue trivial
  | .write _ => .isTrue trivial

instance (state : LiveConnection) :
    (event : Event) → Decidable (state.OwnSourceNamed event)
  | .construct _ address =>
      inferInstanceAs (Decidable (address.source ≠ wildcard))
  | .destroy _ => .isTrue trivial
  | .write _ => .isTrue trivial
  | .readCompleted _ _ _ => .isTrue trivial
  | .returned => .isTrue trivial
  | .raised _ => .isTrue trivial

end Decidable

section Step

variable {codec : ProtobufCodec} {strings : StringCompare}
  {state next : LiveConnection} {event : Event}

theorem mem_toOption {α : Type} {x : Outcome α} {a : α} :
    a ∈ x.toOption ↔ x = .ok a := by
  cases x <;> simp [Except.toOption]

theorem Dispatching.ended (h : state.Dispatching codec)
    (outcome : Outcome Unit) :
    List.Forall₂
      (fun call body => CastMessage.load codec {} body = .ok call.1)
      (state.connection.calls ++ [(state.message, outcome)])
      state.connection.bodies := by
  obtain ⟨earlier, body, hbodies, hload, hearlier⟩ := h.handed
  rw [hbodies]
  exact List.rel_append hearlier (.cons hload .nil)

/-- A dispatch that ends well starts the next read, and any other none. -/
theorem Dispatching.ended_reads_iff (h : state.Dispatching codec)
    (outcome : Outcome Unit) :
    (state.ended outcome).Reads codec ↔ outcome = .ok () := by
  have hnone := h.unread
  cases outcome with
  | error fault =>
      refine iff_of_false (fun hnext => ?_) (by simp)
      have hone := (hnext.reading rfl).one_read
      simp [LiveConnection.ended, Connection.escape, hnone] at hone
  | ok _ =>
      refine iff_of_true ⟨Loop.noConfusion, fun _ => ⟨?_, ?_⟩⟩ rfl
      · simp [LiveConnection.ended, Connection.startReadingPacketLength,
          Connection.startReading, hnone]
      · exact h.ended (.ok ())

theorem Dispatching.call (h : state.Dispatching codec)
    (entry : Address × ChannelId) :
    (state.call entry).Dispatching codec := ⟨h.unread, h.handed⟩

theorem call_reads (entry : Address × ChannelId) :
    (state.call entry).Reads codec :=
  ⟨Loop.noConfusion, Loop.noConfusion⟩

/-- A body that decodes is dispatched, with no read outstanding. -/
theorem dispatching_taken {index : ℕ} {error : Bool} {bytes : List UInt8}
    {op : ReadOp} {message : CastMessage}
    (hreading : state.connection.Reading codec)
    (hop : state.connection.reads[index]? = some op)
    (hload : CastMessage.load codec {}
      (state.stored op index error bytes).connection.currentPacket.body =
        .ok message) :
    { (state.stored op index error bytes).taken with
      message }.Dispatching codec where
  unread := Connection.eraseIdx_eq_nil hreading.one_read hop
  handed := ⟨_, _, rfl, hload, hreading.handed⟩

/-- What the end of a body leads to, by what `Handled` asks of it. -/
theorem BodyCase.reads_iff {index : ℕ} {error : Bool} {bytes : List UInt8}
    {op : ReadOp} (hunit : strings.UnitValued)
    (hregistered : state.connection.router.Registered strings)
    (hidle : state.loop = .idle)
    (hreading : state.connection.Reading codec)
    (hop : state.connection.reads[index]? = some op)
    (hbody : BodyCase codec strings (state.stored op index error bytes)
      next) :
    next.Reads codec ↔
      Decodes codec state.connection.router
        (state.stored op index error
          bytes).connection.currentPacket.body := by
  simp only [Decodes, mem_toOption]
  cases hbody with
  | undecodable fault hload =>
      apply iff_of_false
      · intro hnext
        have hone := (hnext.reading hidle).one_read
        have hnone := Connection.eraseIdx_eq_nil hreading.one_read hop
        simp [taken, stored, Connection.stored, Connection.escape,
          hnone] at hone
      · rintro ⟨message, hmessage, -⟩
        have hboth := hload.symm.trans hmessage
        contradiction
  | unrecognized message fault hload hunicast hfind =>
      rw [(dispatching_taken hreading hop hload).ended_reads_iff]
      refine iff_of_false (by simp) ?_
      rintro ⟨other, hother, hrecognized⟩
      cases hload.symm.trans hother
      rcases hrecognized with hbroadcast | ⟨object, hobject, haddresses⟩
      · exact hunicast hbroadcast
      · rw [CastMessage.addresses_iff] at haddresses
        exact (hregistered.find?_eq_none_iff hunit _ hunicast).mp hfind
          object.1 (haddresses ▸ hobject)
  | unheard message hload hbroadcast =>
      rw [(dispatching_taken hreading hop hload).ended_reads_iff]
      exact iff_of_true rfl ⟨message, hload, Or.inl hbroadcast⟩
  | called message entry hload hmem hfind =>
      refine iff_of_true (call_reads entry) ⟨message, hload, ?_⟩
      by_cases hbroadcast : message.address.destination = wildcard
      · exact Or.inl hbroadcast
      · obtain ⟨-, hlive⟩ := (hregistered.find?_eq_some_iff hunit _
          hbroadcast entry).mp (hfind hbroadcast)
        exact Or.inr ⟨_, hlive, (CastMessage.addresses_iff _ _).mpr rfl⟩

/-- A channel whose entry is in the map has not been destroyed. -/
theorem Consistent.not_gone (h : state.Consistent codec strings)
    {entry : Address × ChannelId} (hmem : entry ∈ state.map) :
    entry.2 ∉ state.gone := by
  intro hgone
  have hlive := (h.registered.bound entry.1 entry.2).mp hmem
  exact h.gone entry.2 hgone (List.mem_map_of_mem hlive)

theorem reads_step_iff (hunit : strings.UnitValued)
    (h : state.Consistent codec strings) (hreads : state.Reads codec)
    (hstep : state.step codec strings event = some next) :
    next.Reads codec ↔ state.Handled codec event := by
  cases step_cases hstep with
  | construct channel address outcome router hloop hnew hconstruct =>
      exact iff_of_true ⟨hloop, fun hidle =>
        ⟨(hreads.reading hidle).1, (hreads.reading hidle).2⟩⟩ trivial
  | destroy channel router hloop hdestroy =>
      exact iff_of_true ⟨hloop, fun hidle =>
        ⟨(hreads.reading hidle).1, (hreads.reading hidle).2⟩⟩ trivial
  | write event outgoing hloop =>
      exact iff_of_true ⟨hloop, fun hidle =>
        ⟨(hreads.reading hidle).1, (hreads.reading hidle).2⟩⟩ trivial
  | partRead index error bytes op started connection hidle hop hpart
      hstarted hrouter hbodies hcalls =>
      have hreading := hreads.reading hidle
      have hnone := Connection.eraseIdx_eq_nil hreading.one_read hop
      refine iff_of_true ⟨hreads.standing, fun _ => ⟨?_, ?_⟩⟩ ?_
      · change connection.reads.length = 1
        rw [hstarted, hnone]
        rfl
      · change List.Forall₂ _ connection.calls connection.bodies
        rw [hcalls, hbodies]
        exact hreading.handed
      · intro other hother hends
        rw [hop, Option.mem_some_iff] at hother
        exact absurd (hother ▸ hends) hpart
  | bodyRead index error bytes op next hidle hop hends hbody =>
      rw [hbody.reads_iff hunit h.registered hidle (hreads.reading hidle)
        hop]
      simp only [Handled, hop, Option.mem_some_iff, forall_eq', hends,
        forall_true_left]
      rfl
  | ended entry hcalling hlast =>
      obtain ⟨hdispatching, -⟩ := h.calling entry hcalling
      rw [hdispatching.ended_reads_iff]
      refine iff_of_true rfl fun other hother hbroadcast => ?_
      rw [hcalling, Loop.called, Option.mem_some_iff] at hother
      exact hother ▸ h.not_gone (hlast hbroadcast)
  | advanced entry later hcalling hbroadcast hmem hlater =>
      refine iff_of_true (call_reads later) fun other hother _ => ?_
      rw [hcalling, Loop.called, Option.mem_some_iff] at hother
      exact hother ▸ h.not_gone hmem
  | lost entry hcalling hbroadcast hgone =>
      refine iff_of_false (fun hnext => hnext.standing rfl) fun hhandled => ?_
      obtain ⟨-, hmem | hdestroyed⟩ := h.calling entry hcalling
      · exact hgone hmem
      · refine hhandled entry ?_ hbroadcast hdestroyed
        rw [hcalling]
        rfl
  | raised fault entry hcalling =>
      obtain ⟨hdispatching, -⟩ := h.calling entry hcalling
      rw [hdispatching.ended_reads_iff]
      exact iff_of_false (by simp) id

/-- A channel that is constructed is a new one. -/
theorem Consistent.construct (hunit : strings.UnitValued)
    (h : state.Consistent codec strings) {channel : ChannelId}
    {address : Address} {outcome : Outcome Unit} {router : Router}
    (hnamed : address.source ≠ wildcard) (hnew : channel ∉ state.gone)
    (hconstruct : state.connection.router.construct strings channel address =
      some (outcome, router)) :
    { state with
      connection := { state.connection with
        router } }.Consistent codec strings := by
  obtain ⟨-, hinserted⟩ := Router.construct_inserted hconstruct
  refine ⟨h.registered.construct hunit hnamed hconstruct, ?_, ?_⟩
  · intro other hother hlive
    change other ∈ router.live.map Prod.fst at hlive
    rcases hinserted with ⟨_, _, -, hsame, -⟩ | ⟨-, hadded, -⟩
    · rw [hsame] at hlive
      exact h.gone other hother hlive
    · rw [hadded, List.map_cons, List.mem_cons] at hlive
      rcases hlive with rfl | hold
      · exact hnew hother
      · exact h.gone other hother hold
  · intro entry hcalling
    obtain ⟨hdispatching, hplace⟩ := h.calling entry hcalling
    refine ⟨⟨hdispatching.unread, hdispatching.handed⟩,
      hplace.imp_left fun hmem => ?_⟩
    change entry ∈ router.channelAddressToChannel
    rcases hinserted with ⟨_, _, -, hsame, -⟩ | ⟨-, -, hmore⟩
    · rw [hsame]
      exact hmem
    · exact hmore.mem_iff.mpr (Or.inr hmem)

/-- The entry that is erased is that of the channel, which is gone. -/
theorem Consistent.destroy (hunit : strings.UnitValued)
    (h : state.Consistent codec strings) {channel : ChannelId}
    {router : Router}
    (hdestroy : state.connection.router.destroy strings channel =
      some router) :
    { state with
      connection := { state.connection with router }
      gone := channel :: state.gone }.Consistent codec strings := by
  obtain ⟨address, hlive, herased⟩ :=
    h.registered.destroy_inserted hunit hdestroy
  refine ⟨h.registered.of_destroy hunit hdestroy, ?_, ?_⟩
  · intro other hother hmem
    change other ∈ router.live.map Prod.fst at hmem
    obtain ⟨object, hobject, rfl⟩ := List.mem_map.mp hmem
    rw [hlive, List.mem_filter, decide_eq_true_iff] at hobject
    rcases List.mem_cons.mp hother with hself | hold
    · exact hobject.2 hself
    · exact h.gone _ hold (List.mem_map_of_mem hobject.1)
  · intro entry hcalling
    obtain ⟨hdispatching, hplace⟩ := h.calling entry hcalling
    refine ⟨⟨hdispatching.unread, hdispatching.handed⟩, ?_⟩
    rcases hplace with hmem | hgone
    · rcases herased.mem_iff.mp hmem with rfl | hstays
      · exact Or.inr (List.mem_cons_self ..)
      · exact Or.inl hstays
    · exact Or.inr (List.mem_cons_of_mem _ hgone)

theorem Consistent.step (hunit : strings.UnitValued)
    (h : state.Consistent codec strings) (hreads : state.Reads codec)
    (hnamed : state.OwnSourceNamed event)
    (hstep : state.step codec strings event = some next)
    (hnext : next.Reads codec) : next.Consistent codec strings := by
  have hidle : ∀ {other : LiveConnection}, other.loop = .idle →
      ∀ entry, other.loop = .calling entry →
        other.Dispatching codec ∧
          (entry ∈ other.map ∨ entry.2 ∈ other.gone) := by
    intro other hloop entry hcalling
    rw [hloop] at hcalling
    contradiction
  cases step_cases hstep with
  | construct channel address outcome router hloop hnew hconstruct =>
      exact h.construct hunit hnamed hnew hconstruct
  | destroy channel router hloop hdestroy =>
      exact h.destroy hunit hdestroy
  | write event outgoing hloop =>
      refine ⟨h.registered, h.gone, fun entry hcalling => ?_⟩
      obtain ⟨hdispatching, hplace⟩ := h.calling entry hcalling
      exact ⟨⟨hdispatching.unread, hdispatching.handed⟩, hplace⟩
  | partRead index error bytes op started connection hloop hop hpart
      hstarted hrouter =>
      refine ⟨?_, ?_, hidle hloop⟩
      · change connection.router.Registered strings
        rw [hrouter]
        exact h.registered
      · change ∀ channel ∈ state.gone,
          channel ∉ connection.router.live.map Prod.fst
        rw [hrouter]
        exact h.gone
  | bodyRead index error bytes op next hloop hop hends hbody =>
      cases hbody with
      | undecodable => exact ⟨h.registered, h.gone, hidle hloop⟩
      | unrecognized => exact ⟨h.registered, h.gone, hidle rfl⟩
      | unheard => exact ⟨h.registered, h.gone, hidle rfl⟩
      | called message entry hload hmem =>
          refine ⟨h.registered, h.gone, fun other hcalling => ?_⟩
          cases hcalling
          exact ⟨(dispatching_taken (hreads.reading hloop) hop hload).call
            entry, Or.inl hmem⟩
  | ended entry hcalling => exact ⟨h.registered, h.gone, hidle rfl⟩
  | advanced entry later hcalling hbroadcast hmem hlater =>
      obtain ⟨hdispatching, -⟩ := h.calling entry hcalling
      refine ⟨h.registered, h.gone, fun other hother => ?_⟩
      cases hother
      exact ⟨hdispatching.call later, Or.inl hlater⟩
  | lost entry hcalling => exact absurd rfl hnext.standing
  | raised fault entry hcalling => exact ⟨h.registered, h.gone, hidle rfl⟩

end Step

/-- The reader keeps exactly one read outstanding while no handler is running,
and hands every body to `OnMessage`, throughout exactly those runs in which
every body is handled. -/
theorem reads_throughout_iff {codec : ProtobufCodec}
    {strings : StringCompare} (hunit : strings.UnitValued)
    {garbage : Fin 4 → UInt8} {events : List Event}
    (hnamed : Along (step codec strings) OwnSourceNamed (ready garbage)
      events) :
    Throughout (step codec strings) (Reads codec) (ready garbage) events ↔
      Along (step codec strings)
        (fun state event => (state.step codec strings event).isSome →
          state.Handled codec event)
        (ready garbage) events := by
  refine throughout_iff_along_of_along (Consistent codec strings) ?_ ?_
    (reads_ready codec garbage) (consistent_ready codec strings garbage)
    hnamed
  · intro state event next h hreads hnamed hstep hnext
    exact h.step hunit hreads hnamed hstep hnext
  · intro state event next h hreads hstep
    exact reads_step_iff hunit h hreads hstep

/-- A message to every channel of the namespace. -/
def announcement : CastMessage :=
  { address := ⟨lit "r", wildcard, lit "n"⟩ }

/-- The first channel a broadcast calls constructs a third one and destroys
the second. -/
def replaced : List Event :=
  let body := Outgoing.savedBody googleCodec announcement
  [.construct 0 ⟨lit "s", lit "r", lit "n"⟩,
    .construct 1 ⟨lit "t", lit "r", lit "n"⟩,
    .readCompleted 0 false (LengthPrefix.encodeBigEndian32 body.length),
    .readCompleted 0 false body,
    .construct 2 ⟨lit "u", lit "r", lit "n"⟩, .destroy 1, .returned,
    .returned]

theorem reads_throughout_iff_replaced :
    (exec (step googleCodec .unit) (ready fun _ => 7) replaced).map
        (fun last => (last.loop, last.connection.calls)) =
      some (.idle, [(announcement, .ok ())]) ∧
    Throughout (step googleCodec .unit) (Reads googleCodec)
      (ready fun _ => 7) replaced :=
  ⟨by decide +kernel,
    (reads_throughout_iff StringCompare.unit_unitValued
      (by decide +kernel)).mpr (by decide +kernel)⟩

/-- After a zero-length frame nothing is read any more. -/
theorem reading_stops :
    ∃ last, exec (step googleCodec .unit) (ready fun _ => 0)
        [.readCompleted 0 false [0, 0, 0, 0],
          .readCompleted 0 false []] = some last ∧
      last.loop = .idle ∧ last.connection.reads = [] ∧
      ¬last.Reads googleCodec := by
  refine ⟨_, rfl, rfl, rfl, ?_⟩
  intro hreads
  have hone := (hreads.reading rfl).one_read
  contradiction

/-- Once the chain is cut it stays cut: whatever happens to the connection,
`OnMessage` is not called again. -/
theorem calls_eq_of_stopped {codec : ProtobufCodec}
    {strings : StringCompare} {state last : LiveConnection}
    {events : List Event} (hidle : state.loop = .idle)
    (hstopped : state.connection.reads = [])
    (hrun : exec (step codec strings) state events = some last) :
    last.connection.calls = state.connection.calls := by
  have hinv : last.loop = .idle ∧ last.connection.reads = [] ∧
      last.connection.calls = state.connection.calls := by
    refine exec_invariant
      (fun current : LiveConnection => current.loop = .idle ∧
        current.connection.reads = [] ∧
          current.connection.calls = state.connection.calls)
      ?_ ⟨hidle, hstopped, rfl⟩ hrun
    rintro current event next ⟨hloop, hreads, hcalls⟩ h
    cases step_cases h with
    | construct => exact ⟨hloop, hreads, hcalls⟩
    | destroy => exact ⟨hloop, hreads, hcalls⟩
    | write => exact ⟨hloop, hreads, hcalls⟩
    | partRead index error bytes op started connection hidle hop =>
        rw [hreads] at hop
        simp at hop
    | bodyRead index error bytes op next hidle hop =>
        rw [hreads] at hop
        simp at hop
    | ended entry hcalling =>
        rw [hloop] at hcalling
        contradiction
    | advanced entry later hcalling =>
        rw [hloop] at hcalling
        contradiction
    | lost entry hcalling =>
        rw [hloop] at hcalling
        contradiction
    | raised fault entry hcalling =>
        rw [hloop] at hcalling
        contradiction
  exact hinv.2.2

/-! ## Handlers that leave the map alone -/

def Event.ofOutcome : Outcome Unit → Event
  | .ok () => .returned
  | .error fault => .raised fault

section Frozen

variable {codec : ProtobufCodec} {strings : StringCompare}
  {state : LiveConnection}

theorem goOn_call (entry : Address × ChannelId) (entries : ChannelMap) :
    (state.call entry).goOn entries = state.goOn entries := by
  have hmessage : (state.call entry).message = state.message := rfl
  unfold goOn
  rw [hmessage]
  cases Broadcasting.nextCall state.message entries <;> rfl

/-- The loop calls the channels `broadcast` calls, and ends as it does. -/
theorem exec_goOn (handler : ChannelId → Outcome Unit)
    (hbroadcast : state.message.address.destination = wildcard)
    (hnodup : state.map.Nodup) (entries : ChannelMap) :
    ∀ front : ChannelMap, state.map = front ++ entries →
      exec (step codec strings) (state.goOn entries)
          ((broadcast handler state.message entries).receivers.map
            fun channel => .ofOutcome (handler channel)) =
        some (state.ended
          (broadcast handler state.message entries).outcome) := by
  induction entries with
  | nil =>
      intro front hmap
      rfl
  | cons entry rest ih =>
      intro front hmap
      have hrest : state.map = (front ++ [entry]) ++ rest := by
        rw [hmap]
        simp
      by_cases hreaches : state.message.Reaches entry.1.swap
      · have hcall : state.goOn (entry :: rest) = state.call entry := by
          rw [goOn, Broadcasting.nextCall_eq_find?, List.find?_cons]
          simp [hreaches]
        rw [hcall, broadcast_cons_of_reaches handler rest hreaches]
        cases hhandler : handler entry.2 with
        | error fault =>
            simp only [List.map_cons, List.map_nil, hhandler]
            rw [exec_singleton]
            rfl
        | ok _ =>
            have hreturned : (state.call entry).step codec strings
                .returned = some (state.goOn rest) := by
              change (state.call entry).returned = _
              have hafter : after? entry (state.call entry).map =
                  some rest := by
                change after? entry state.map = _
                rw [hmap]
                exact after?_append (hmap ▸ hnodup)
              have hcalling : (state.call entry).loop = .calling entry := rfl
              unfold returned
              rw [hcalling]
              simp only [hafter, goOn_call]
              exact if_neg (not_not_intro hbroadcast)
            simp only [List.map_cons, hhandler]
            rw [exec_cons, Event.ofOutcome, hreturned, Option.bind_some]
            exact ih (front ++ [entry]) hrest
      · have hskip : state.goOn (entry :: rest) = state.goOn rest := by
          rw [goOn, goOn, Broadcasting.nextCall_eq_find?,
            Broadcasting.nextCall_eq_find?, List.find?_cons]
          simp [hreaches]
        rw [hskip, broadcast_cons_of_not_reaches handler rest hreaches]
        exact ih (front ++ [entry]) hrest

/-- `OnMessage` calls the channels `deliver` calls, and ends as it does. -/
theorem exec_onMessage (codec : ProtobufCodec) (strings : StringCompare)
    (state : LiveConnection) (handler : ChannelId → Outcome Unit)
    (hnodup : state.map.Nodup) :
    exec (step codec strings) (state.onMessage strings)
        ((deliver strings handler state.message state.map).receivers.map
          fun channel => .ofOutcome (handler channel)) =
      some (state.ended
        (deliver strings handler state.message state.map).outcome) := by
  unfold deliver
  rcases onMessage_cases strings state with
    ⟨hbroadcast, hnext⟩ | ⟨hunicast, hfind, hnext⟩ |
      ⟨entry, hunicast, hfind, hnext⟩
  · rw [hnext, if_neg (not_not_intro hbroadcast)]
    exact exec_goOn handler hbroadcast hnodup state.map [] rfl
  · rw [hnext, if_pos hunicast]
    simp only [hfind]
    rfl
  · rw [hnext, if_pos hunicast]
    simp only [hfind, List.map_cons, List.map_nil]
    rw [exec_singleton]
    cases handler entry.2 with
    | error fault => rfl
    | ok _ => exact if_pos hunicast

/-- The callback of a body, with all that its handlers do. -/
theorem exec_packetDataRead (codec : ProtobufCodec)
    (strings : StringCompare) (state : LiveConnection)
    (handler : ChannelId → Outcome Unit) (hidle : state.loop = .idle)
    (hnodup : state.map.Nodup) :
    ∃ (receivers : List ChannelId) (last : LiveConnection),
      exec (step codec strings) (state.packetDataRead codec strings)
          (receivers.map fun channel => .ofOutcome (handler channel)) =
        some last ∧ last.loop = .idle ∧
      last.connection =
        state.connection.packetDataRead codec strings handler := by
  unfold packetDataRead Connection.packetDataRead
  cases hload : CastMessage.load codec {}
      state.connection.currentPacket.body with
  | error fault =>
      simp only [hload]
      exact ⟨[], _, rfl, hidle, rfl⟩
  | ok message =>
      simp only [hload]
      refine ⟨_, _, exec_onMessage codec strings
        { state.taken with message } handler hnodup, rfl, ?_⟩
      unfold Connection.onMessage
      dsimp only [taken, map]
      cases (deliver strings handler message
        state.connection.router.channelAddressToChannel).outcome <;> rfl

theorem step_readCompleted (codec : ProtobufCodec) (strings : StringCompare)
    {index : ℕ} (error : Bool) {bytes : List UInt8} {op : ReadOp}
    (hidle : state.loop = .idle)
    (hop : state.connection.reads[index]? = some op)
    (hsize : bytes.length ≤ op.size) :
    state.step codec strings (.readCompleted index error bytes) =
      if EndsBody op error bytes then
        some ((state.stored op index error bytes).packetDataRead codec
          strings)
      else some { state with
        connection := (state.connection.stored op index
          (.alive error bytes)).readHandler codec strings op
            (.alive error bytes) } := by
  simp only [step, readCompleted, hop]
  exact if_neg (not_or.mpr ⟨not_not_intro hidle, Nat.not_lt.mpr hsize⟩)

/-- Where the handlers leave the map alone, the completion of a read and the
ends of the calls it makes are one step of the connection. -/
theorem exec_of_readCompleted {index : ℕ} {error : Bool}
    {bytes : List UInt8} {handler : ChannelId → Outcome Unit}
    {next : Connection} (hidle : state.loop = .idle)
    (hnodup : state.map.Nodup)
    (hstep : state.connection.step codec strings
      (.readCompleted index ⟨error, bytes, none, handler⟩) = some next) :
    ∃ (receivers : List ChannelId) (last : LiveConnection),
      exec (step codec strings) state (.readCompleted index error bytes ::
          receivers.map fun channel => .ofOutcome (handler channel)) =
        some last ∧ last.loop = .idle ∧ last.connection = next := by
  simp only [Connection.step, Connection.readCompleted] at hstep
  cases hop : state.connection.reads[index]? with
  | none => simp [hop] at hstep
  | some op =>
      simp only [hop] at hstep
      split_ifs at hstep with hsize
      cases hstep
      have hlive := step_readCompleted codec strings error hidle hop hsize
      by_cases hends : EndsBody op error bytes
      · rw [if_pos hends] at hlive
        obtain ⟨receivers, last, hexec, hloop, hlast⟩ :=
          exec_packetDataRead codec strings
            (state.stored op index error bytes) handler hidle hnodup
        refine ⟨receivers, last, ?_, hloop, ?_⟩
        · rw [exec_cons, hlive, Option.bind_some, hexec]
        · rw [hlast]
          obtain ⟨htarget, herror, hfull⟩ := hends
          unfold Connection.readHandler
          rw [if_neg (by simp [herror, hfull])]
          simp only [htarget, stored, Connection.stored]
      · rw [if_neg hends] at hlive
        refine ⟨[], { state with
            connection := (state.connection.stored op index
              (.alive error bytes)).readHandler codec strings op
                (.alive error bytes) }, ?_, hidle, ?_⟩
        · rw [List.map_nil, exec_singleton, hlive]
        · unfold Connection.readHandler
          dsimp only [ReadCompletion.alive, Connection.stored]
          by_cases hshort : error = true ∨ op.size ≠ bytes.length
          · rw [if_pos hshort, if_pos hshort]
          · rw [if_neg hshort, if_neg hshort]
            cases htarget : op.target with
            | packetLength => rfl
            | packetData =>
                simp only [not_or, Bool.not_eq_true, not_not] at hshort
                exact absurd ⟨htarget, hshort⟩ hends

end Frozen

end LiveConnection

end LibChromecast
