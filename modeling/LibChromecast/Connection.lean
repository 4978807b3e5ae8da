import LibChromecast.Foundation.Transition
import LibChromecast.Outgoing
import LibChromecast.Router

/-!
# The connection

`ChromecastConnection` after its handshake: the chain of reads which
`StartReadingPacketLength`, `StartReadingData` and `StartReading` keep alive,
together with the outgoing stream and the channel map.

A read is an `async_read` into a packet buffer at an offset, where the source
has a moving pointer.  `readCompleted` is the completion of one read with the
handler it runs.  What the environment decides is in the event: the bytes
stored, the error codes and how the handlers of the channels end.  A fault
that leaves a handler reaches the caller of `io_service::run`, who may run the
event loop again, so the run goes on.  A broadcast goes over the map it began
with; what the handlers of the channels do comes as the next events, after the
whole of it.

`received`, `bodies` and `calls` are not in the source: the bytes taken off
the transport, the bodies read to their end, and the calls of `OnMessage` with
their outcomes.
-/

namespace LibChromecast

open Foundation Foundation.LengthPrefix

/-- `CastPacket`: the raw bytes of `length`, a `big_uint32_t`, and the buffer
behind `data`. -/
structure CastPacket where
  length : List UInt8
  data : List UInt8

inductive ReadTarget where
  | packetLength
  | packetData
deriving DecidableEq

namespace CastPacket

/-- What `sputn` takes from the buffer: `length` bytes. -/
def body (packet : CastPacket) : List UInt8 :=
  packet.data.take (decodeBigEndian32 packet.length)

theorem body_eq_data {packet : CastPacket}
    (hdata : packet.data.length = decodeBigEndian32 packet.length) :
    packet.body = packet.data := by
  rw [body, ← hdata, List.take_length]

def overwrite (buffer : List UInt8) (offset : ℕ) (bytes : List UInt8) :
    List UInt8 :=
  buffer.take offset ++ bytes ++ buffer.drop (offset + bytes.length)

def store (packet : CastPacket) (target : ReadTarget) (offset : ℕ)
    (bytes : List UInt8) : CastPacket :=
  match target with
  | .packetLength =>
      { packet with length := overwrite packet.length offset bytes }
  | .packetData =>
      { packet with data := overwrite packet.data offset bytes }

theorem length_overwrite {buffer bytes : List UInt8} {offset : ℕ}
    (hfits : offset + bytes.length ≤ buffer.length) :
    (overwrite buffer offset bytes).length = buffer.length := by
  simp only [overwrite, List.length_append, List.length_take,
    List.length_drop]
  omega

theorem take_overwrite {buffer bytes : List UInt8} {offset : ℕ}
    (hfits : offset + bytes.length ≤ buffer.length) :
    (overwrite buffer offset bytes).take (offset + bytes.length) =
      buffer.take offset ++ bytes := by
  unfold overwrite
  apply List.take_left'
  simp only [List.length_append, List.length_take]
  omega

end CastPacket

structure ReadOp where
  target : ReadTarget
  offset : ℕ
  size : ℕ
deriving DecidableEq

structure Connection where
  currentPacket : CastPacket
  reads : List ReadOp := []
  outgoing : Outgoing := {}
  router : Router := {}
  faults : List Fault := []
  received : List UInt8 := []
  bodies : List (List UInt8) := []
  calls : List (CastMessage × Outcome Unit) := []

/-- What the environment decides about the completion of a read: its error
code, the bytes stored, the error code of the liveness probe if one is made,
and how the `OnMessage` of each channel ends if it is called. -/
structure ReadCompletion where
  error : Bool
  bytes : List UInt8
  probeError : Option ErrorCode
  handler : ChannelId → Outcome Unit

def ReadCompletion.Short (completion : ReadCompletion) (op : ReadOp) : Prop :=
  completion.error = true ∨ op.size ≠ completion.bytes.length

namespace Connection

def startReading (target : ReadTarget) (offset size : ℕ)
    (connection : Connection) : Connection :=
  { connection with reads := connection.reads ++ [⟨target, offset, size⟩] }

def startReadingPacketLength (connection : Connection) : Connection :=
  connection.startReading .packetLength 0 4

def startReadingData (connection : Connection) : Connection :=
  connection.startReading .packetData 0
    (decodeBigEndian32 connection.currentPacket.length)

def escape (fault : Fault) (connection : Connection) : Connection :=
  { connection with faults := connection.faults ++ [fault] }

/-- The callback `StartReadingPacketLength` passes on: `make_unique<byte[]>`
zeroes the new buffer. -/
def packetLengthRead (connection : Connection) : Connection :=
  let packetLength := decodeBigEndian32 connection.currentPacket.length
  startReadingData { connection with
    currentPacket := { connection.currentPacket with
      data := List.replicate packetLength 0 } }

/-- `ChromecastConnection::OnMessage`, recorded. -/
def onMessage (strings : StringCompare) (handler : ChannelId → Outcome Unit)
    (message : CastMessage) (connection : Connection) :
    Outcome Unit × Connection :=
  let delivery :=
    deliver strings handler message connection.router.channelAddressToChannel
  (delivery.outcome, { connection with
    calls := connection.calls ++ [(message, delivery.outcome)] })

/-- The callback `StartReadingData` passes on.  The next read is started by
its last statement. -/
def packetDataRead (codec : ProtobufCodec) (strings : StringCompare)
    (handler : ChannelId → Outcome Unit) (connection : Connection) :
    Connection :=
  let connection := { connection with
    bodies := connection.bodies ++ [connection.currentPacket.body] }
  match CastMessage.load codec {} connection.currentPacket.body with
  | .error fault => connection.escape fault
  | .ok message =>
      match connection.onMessage strings handler message with
      | (.error fault, connection) => connection.escape fault
      | (.ok (), connection) => connection.startReadingPacketLength

/-- The handler of `StartReading`, once the bytes have been stored. -/
def readHandler (codec : ProtobufCodec) (strings : StringCompare)
    (op : ReadOp) (completion : ReadCompletion) (connection : Connection) :
    Connection :=
  let bytesTransferred := completion.bytes.length
  if completion.error ∨ op.size ≠ bytesTransferred then
    match connection.outgoing.ensureConnectionIsAlive
        completion.probeError with
    | (.error fault, outgoing) =>
        { connection with outgoing }.escape fault
    | (.ok (), outgoing) =>
        { connection with outgoing }.startReading op.target
          (op.offset + bytesTransferred) (op.size - bytesTransferred)
  else
    match op.target with
    | .packetLength => connection.packetLengthRead
    | .packetData =>
        connection.packetDataRead codec strings completion.handler

/-- The outstanding read `index` completes: it stores a prefix of what it
asked for, and its handler runs. -/
def readCompleted (codec : ProtobufCodec) (strings : StringCompare)
    (index : ℕ) (completion : ReadCompletion) (connection : Connection) :
    Option Connection :=
  match connection.reads[index]? with
  | none => none
  | some op =>
      if completion.bytes.length ≤ op.size then
        some ({ connection with
          reads := connection.reads.eraseIdx index
          currentPacket := connection.currentPacket.store op.target
            op.offset completion.bytes
          received := connection.received ++ completion.bytes
        }.readHandler codec strings op completion)
      else none

inductive ReadStep (codec : ProtobufCodec) (strings : StringCompare)
    (op : ReadOp) (completion : ReadCompletion) (connection : Connection) :
    Connection → Prop
  | probeFailed (hshort : completion.Short op)
      (error : ErrorCode) (hprobe : completion.probeError = some error)
      (fault : Fault) :
      ReadStep codec strings op completion connection
        (connection.escape fault)
  | resumed (hshort : completion.Short op)
      (hprobe : completion.probeError = none) :
      ReadStep codec strings op completion connection
        ({ connection with
          outgoing := { connection.outgoing with
            sent := connection.outgoing.sent ++ [0] }
        }.startReading op.target (op.offset + completion.bytes.length)
          (op.size - completion.bytes.length))
  | lengthRead (hfull : ¬completion.Short op)
      (htarget : op.target = .packetLength) :
      ReadStep codec strings op completion connection
        connection.packetLengthRead
  | undecodable (hfull : ¬completion.Short op)
      (htarget : op.target = .packetData) (fault : Fault)
      (hload : CastMessage.load codec {} connection.currentPacket.body =
        .error fault) :
      ReadStep codec strings op completion connection
        ({ connection with
          bodies := connection.bodies ++ [connection.currentPacket.body]
        }.escape fault)
  | undelivered (hfull : ¬completion.Short op)
      (htarget : op.target = .packetData) (message : CastMessage)
      (fault : Fault)
      (hload : CastMessage.load codec {} connection.currentPacket.body =
        .ok message)
      (houtcome : (deliver strings completion.handler message
        connection.router.channelAddressToChannel).outcome = .error fault) :
      ReadStep codec strings op completion connection
        ({ connection with
          bodies := connection.bodies ++ [connection.currentPacket.body]
          calls := connection.calls ++ [(message, Except.error fault)]
        }.escape fault)
  | dispatched (hfull : ¬completion.Short op)
      (htarget : op.target = .packetData) (message : CastMessage)
      (hload : CastMessage.load codec {} connection.currentPacket.body =
        .ok message)
      (houtcome : (deliver strings completion.handler message
        connection.router.channelAddressToChannel).outcome = .ok ()) :
      ReadStep codec strings op completion connection
        { connection with
          bodies := connection.bodies ++ [connection.currentPacket.body]
          calls := connection.calls ++ [(message, Except.ok ())]
        }.startReadingPacketLength

theorem readStep_readHandler (codec : ProtobufCodec)
    (strings : StringCompare) (op : ReadOp) (completion : ReadCompletion)
    (connection : Connection) :
    ReadStep codec strings op completion connection
      (connection.readHandler codec strings op completion) := by
  unfold readHandler
  dsimp only
  by_cases hshort : completion.Short op
  · rw [if_pos (by exact hshort)]
    cases hprobe : completion.probeError with
    | some error => exact .probeFailed hshort error hprobe _
    | none => exact .resumed hshort hprobe
  · rw [if_neg (by exact hshort)]
    cases htarget : op.target with
    | packetLength => exact .lengthRead hshort htarget
    | packetData =>
        unfold packetDataRead onMessage
        cases hload : CastMessage.load codec {}
            connection.currentPacket.body with
        | error fault =>
            simp only [hload]
            exact .undecodable hshort htarget fault hload
        | ok message =>
            cases houtcome : (deliver strings completion.handler message
                connection.router.channelAddressToChannel).outcome with
            | error fault =>
                simp only [hload, houtcome]
                exact .undelivered hshort htarget message fault hload
                  houtcome
            | ok _ =>
                simp only [hload, houtcome]
                exact .dispatched hshort htarget message hload houtcome

def stored (op : ReadOp) (index : ℕ) (completion : ReadCompletion)
    (connection : Connection) : Connection :=
  { connection with
    reads := connection.reads.eraseIdx index
    currentPacket := connection.currentPacket.store op.target
      op.offset completion.bytes
    received := connection.received ++ completion.bytes }

/-- What a read completion can do: store the bytes, then one `ReadStep`. -/
theorem readCompleted_eq_some {codec : ProtobufCodec}
    {strings : StringCompare} {index : ℕ} {completion : ReadCompletion}
    {connection next : Connection}
    (h : connection.readCompleted codec strings index completion =
      some next) :
    ∃ op, connection.reads[index]? = some op ∧
      completion.bytes.length ≤ op.size ∧
      ReadStep codec strings op completion
        (connection.stored op index completion) next := by
  unfold readCompleted at h
  cases hop : connection.reads[index]? with
  | none => simp [hop] at h
  | some op =>
      simp only [hop] at h
      split_ifs at h with hsize
      cases h
      exact ⟨op, rfl, hsize, readStep_readHandler codec strings op
        completion (connection.stored op index completion)⟩

/-- The connection when its handshake has succeeded: `OnConnectionReady` has
started the first read, nothing was sent and no channel is registered.  The
four bytes of the packet length are not initialised. -/
def ready (garbage : Fin 4 → UInt8) : Connection :=
  startReadingPacketLength { currentPacket := ⟨List.ofFn garbage, []⟩ }

/-! ## Runs -/

inductive Event where
  | construct (channel : ChannelId) (address : Address)
  | destroy (channel : ChannelId)
  | write (event : Outgoing.Event)
  | readCompleted (index : ℕ) (completion : ReadCompletion)

def step (codec : ProtobufCodec) (strings : StringCompare)
    (connection : Connection) : Event → Option Connection
  | .construct channel address =>
      match connection.router.construct strings channel address with
      | none => none
      | some (_, router) => some { connection with router }
  | .destroy channel =>
      match connection.router.destroy strings channel with
      | none => none
      | some router => some { connection with router }
  | .write event =>
      match connection.outgoing.step codec event with
      | none => none
      | some outgoing => some { connection with outgoing }
  | .readCompleted index completion =>
      connection.readCompleted codec strings index completion

inductive StepCase (codec : ProtobufCodec) (strings : StringCompare)
    (connection : Connection) : Event → Connection → Prop
  | construct (channel : ChannelId) (address : Address)
      (outcome : Outcome Unit) (router : Router)
      (h : connection.router.construct strings channel address =
        some (outcome, router)) :
      StepCase codec strings connection (.construct channel address)
        { connection with router }
  | destroy (channel : ChannelId) (router : Router)
      (h : connection.router.destroy strings channel = some router) :
      StepCase codec strings connection (.destroy channel)
        { connection with router }
  | write (event : Outgoing.Event) (outgoing : Outgoing)
      (h : connection.outgoing.step codec event = some outgoing) :
      StepCase codec strings connection (.write event)
        { connection with outgoing }
  | readCompleted (index : ℕ) (completion : ReadCompletion) (op : ReadOp)
      (next : Connection) (hop : connection.reads[index]? = some op)
      (hsize : completion.bytes.length ≤ op.size)
      (hread : ReadStep codec strings op completion
        (connection.stored op index completion) next) :
      StepCase codec strings connection (.readCompleted index completion)
        next

theorem step_cases {codec : ProtobufCodec} {strings : StringCompare}
    {connection next : Connection} {event : Event}
    (h : connection.step codec strings event = some next) :
    StepCase codec strings connection event next := by
  cases event with
  | construct channel address =>
      simp only [step] at h
      split at h
      next => contradiction
      next outcome router hconstruct =>
        cases h
        exact .construct channel address outcome router hconstruct
  | destroy channel =>
      simp only [step] at h
      split at h
      next => contradiction
      next router hdestroy =>
        cases h
        exact .destroy channel router hdestroy
  | write event =>
      simp only [step] at h
      split at h
      next => contradiction
      next outgoing hwrite =>
        cases h
        exact .write event outgoing hwrite
  | readCompleted index completion =>
      obtain ⟨op, hop, hsize, hread⟩ := readCompleted_eq_some h
      exact .readCompleted index completion op next hop hsize hread

end Connection

end LibChromecast
