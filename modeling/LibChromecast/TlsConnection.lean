import Mathlib.Data.List.Range
import LibChromecast.Connection

/-!
# Connecting

`TLSConnection` below `ChromecastConnection`, from its construction on: any
number of calls of `AsyncConnect`, each of which starts a connect and, when
that succeeds, a handshake.  The handlers are bound to the object and not to
the call: they find in `_connection_callback` what the last call left there.

Every handshake that succeeds starts a chain of reads, whether or not another
one is going.  All chains share `_current_packet`, and a read of a body holds
a pointer into the buffer that was there when it was started.  Buffers are
numbered as they are allocated.  A read that completes into one which has been
replaced writes to freed memory, and a body is read past the end of its buffer
if another chain has stored a greater length meanwhile; there is no state
after either.

A call of `AsyncConnect` is named by its number.  What a callback does comes
as the next events, and how it ends makes no difference: the call is the last
thing the handlers do.

`attempts` and `finished` are not in the source: which of the accepted calls
passed a callback that is set, and which of them came to an end, how, and with
which callback.
-/

namespace LibChromecast

open Foundation Foundation.LengthPrefix Foundation.Transition

/-- The end of an attempt, with the call whose callback was invoked. -/
structure Finish where
  attempt : ℕ
  error : Bool
  callback : Option ℕ
deriving DecidableEq

structure TlsConnection where
  connection : Connection
  connectionCallback : Option ℕ := none
  connecting : List ℕ := []
  handshaking : List ℕ := []
  /-- The number of the buffer behind `_current_packet.data`. -/
  buffer : ℕ := 0
  /-- The buffers into which the outstanding reads point. -/
  pointers : List ℕ := []
  attempts : List Bool := []
  finished : List Finish := []

namespace TlsConnection

/-- A constructed connection.  The four bytes of the packet length are not
initialised. -/
def construct (garbage : Fin 4 → UInt8) : TlsConnection where
  connection := { currentPacket := ⟨List.ofFn garbage, []⟩ }

/-- `AsyncConnect`, with what it returns.  `validAddress` tells whether
`from_string` accepts the address. -/
def asyncConnect (validAddress hasCallback : Bool) (tls : TlsConnection) :
    Bool × TlsConnection :=
  if validAddress then
    (true, { tls with
      connectionCallback := if hasCallback then some tls.attempts.length
        else none
      connecting := tls.connecting ++ [tls.attempts.length]
      attempts := tls.attempts ++ [hasCallback] })
  else (false, tls)

/-- `if (_connection_callback) _connection_callback(error)`. -/
def report (attempt : ℕ) (error : Bool) (tls : TlsConnection) :
    TlsConnection :=
  { tls with
    finished := tls.finished ++ [⟨attempt, error, tls.connectionCallback⟩] }

def onConnectCompleted (attempt : ℕ) (error : Bool) (tls : TlsConnection) :
    TlsConnection :=
  if error then tls.report attempt error
  else { tls with handshaking := tls.handshaking ++ [attempt] }

/-- `OnConnectionReady`. -/
def onConnectionReady (tls : TlsConnection) : TlsConnection :=
  { tls with
    connection := tls.connection.startReadingPacketLength
    pointers := tls.pointers ++ [tls.buffer] }

def onHandshake (attempt : ℕ) (error : Bool) (tls : TlsConnection) :
    TlsConnection :=
  if error then tls.report attempt error
  else tls.onConnectionReady.report attempt error

/-- The length of a packet was read: `make_unique` replaces the buffer. -/
def Renews (op : ReadOp) (completion : ReadCompletion) : Prop :=
  op.target = .packetLength ∧ ¬completion.Short op

instance (op : ReadOp) (completion : ReadCompletion) :
    Decidable (Renews op completion) :=
  inferInstanceAs (Decidable (op.target = .packetLength ∧
    ¬(completion.error = true ∨ op.size ≠ completion.bytes.length)))

/-- A body was read to its end, and the length in place is not that of its
buffer but a greater one. -/
def Overruns (op : ReadOp) (completion : ReadCompletion)
    (packet : CastPacket) : Prop :=
  op.target = .packetData ∧ ¬completion.Short op ∧
    packet.data.length < decodeBigEndian32 packet.length

instance (op : ReadOp) (completion : ReadCompletion) (packet : CastPacket) :
    Decidable (Overruns op completion packet) :=
  inferInstanceAs (Decidable (op.target = .packetData ∧
    ¬(completion.error = true ∨ op.size ≠ completion.bytes.length) ∧
    packet.data.length < decodeBigEndian32 packet.length))

/-- An outstanding read completes, and its handler starts the next one, if
any. -/
def readCompleted (codec : ProtobufCodec) (strings : StringCompare)
    (index : ℕ) (completion : ReadCompletion) (tls : TlsConnection) :
    Option TlsConnection :=
  match tls.connection.reads[index]?, tls.pointers[index]? with
  | some op, some pointer =>
      if op.target = .packetData ∧ pointer ≠ tls.buffer ∨
          Overruns op completion tls.connection.currentPacket then none
      else
        let buffer :=
          if Renews op completion then tls.buffer + 1 else tls.buffer
        let pointer :=
          if Renews op completion then tls.buffer + 1 else pointer
        (tls.connection.readCompleted codec strings index completion).map
          fun connection => { tls with
            connection
            buffer
            pointers := tls.pointers.eraseIdx index ++
              (connection.reads.drop (tls.connection.reads.length - 1)).map
                fun _ => pointer }
  | _, _ => none

/-! ## Runs -/

inductive Event where
  | asyncConnect (validAddress hasCallback : Bool)
  | connectCompleted (index : ℕ) (error : Bool)
  | handshakeCompleted (index : ℕ) (error : Bool)
  | readCompleted (index : ℕ) (completion : ReadCompletion)
  | construct (channel : ChannelId) (address : Address)
  | destroy (channel : ChannelId)
  | write (event : Outgoing.Event)

def step (codec : ProtobufCodec) (strings : StringCompare)
    (tls : TlsConnection) : Event → Option TlsConnection
  | .asyncConnect validAddress hasCallback =>
      some (tls.asyncConnect validAddress hasCallback).2
  | .connectCompleted index error =>
      match tls.connecting[index]? with
      | none => none
      | some attempt => some ({ tls with
          connecting := tls.connecting.eraseIdx index
        }.onConnectCompleted attempt error)
  | .handshakeCompleted index error =>
      match tls.handshaking[index]? with
      | none => none
      | some attempt => some ({ tls with
          handshaking := tls.handshaking.eraseIdx index
        }.onHandshake attempt error)
  | .readCompleted index completion =>
      tls.readCompleted codec strings index completion
  | .construct channel address =>
      (tls.connection.step codec strings (.construct channel address)).map
        fun connection => { tls with connection }
  | .destroy channel =>
      (tls.connection.step codec strings (.destroy channel)).map
        fun connection => { tls with connection }
  | .write event =>
      (tls.connection.step codec strings (.write event)).map
        fun connection => { tls with connection }

variable {codec : ProtobufCodec} {strings : StringCompare}

/-! ## What a step can do -/

/-- What the completion of a read leaves: the connection made its step, and
the pointer of the next read follows. -/
structure ReadDone (codec : ProtobufCodec) (strings : StringCompare)
    (tls : TlsConnection) (index : ℕ) (completion : ReadCompletion)
    (op : ReadOp) (pointer : ℕ) (connection : Connection) : Prop where
  op_eq : tls.connection.reads[index]? = some op
  pointer_eq : tls.pointers[index]? = some pointer
  live : op.target = .packetData → pointer = tls.buffer
  fits : completion.bytes.length ≤ op.size
  read : Connection.ReadStep codec strings op completion
    (tls.connection.stored op index completion) connection

/-- The events of a connection which touch neither its reads nor its packet. -/
def Aside (before after : Connection) : Prop :=
  after.reads = before.reads ∧ after.faults = before.faults ∧
    after.currentPacket = before.currentPacket

inductive StepCase (codec : ProtobufCodec) (strings : StringCompare)
    (tls : TlsConnection) : Event → TlsConnection → Prop
  | rejected (hasCallback : Bool) :
      StepCase codec strings tls (.asyncConnect false hasCallback) tls
  | accepted (hasCallback : Bool) :
      StepCase codec strings tls (.asyncConnect true hasCallback)
        { tls with
          connectionCallback := if hasCallback then
            some tls.attempts.length else none
          connecting := tls.connecting ++ [tls.attempts.length]
          attempts := tls.attempts ++ [hasCallback] }
  | unreached (index attempt : ℕ)
      (hattempt : tls.connecting[index]? = some attempt) :
      StepCase codec strings tls (.connectCompleted index true)
        ({ tls with
          connecting := tls.connecting.eraseIdx index
        }.report attempt true)
  | reached (index attempt : ℕ)
      (hattempt : tls.connecting[index]? = some attempt) :
      StepCase codec strings tls (.connectCompleted index false)
        { tls with
          connecting := tls.connecting.eraseIdx index
          handshaking := tls.handshaking ++ [attempt] }
  | refused (index attempt : ℕ)
      (hattempt : tls.handshaking[index]? = some attempt) :
      StepCase codec strings tls (.handshakeCompleted index true)
        ({ tls with
          handshaking := tls.handshaking.eraseIdx index
        }.report attempt true)
  | secured (index attempt : ℕ)
      (hattempt : tls.handshaking[index]? = some attempt) :
      StepCase codec strings tls (.handshakeCompleted index false)
        ({ tls with
          handshaking := tls.handshaking.eraseIdx index
        }.onConnectionReady.report attempt false)
  | read (index : ℕ) (completion : ReadCompletion) (op : ReadOp)
      (pointer : ℕ) (connection : Connection)
      (hdone : ReadDone codec strings tls index completion op pointer
        connection) :
      StepCase codec strings tls (.readCompleted index completion)
        { tls with
          connection
          buffer := if Renews op completion then tls.buffer + 1
            else tls.buffer
          pointers := tls.pointers.eraseIdx index ++
            (connection.reads.drop (tls.connection.reads.length - 1)).map
              fun _ => if Renews op completion then tls.buffer + 1
                else pointer }
  | aside (event : Event) (connection : Connection)
      (haside : Aside tls.connection connection)
      (hevent : ∀ index completion, event ≠ .readCompleted index completion)
      (hfinish : ∀ index error, event ≠ .connectCompleted index error ∧
        event ≠ .handshakeCompleted index error) :
      StepCase codec strings tls event { tls with connection }

theorem aside_of_step {before after : Connection} {event : Connection.Event}
    (hevent : ∀ index completion, event ≠ .readCompleted index completion)
    (hstep : before.step codec strings event = some after) :
    Aside before after := by
  cases Connection.step_cases hstep with
  | construct => exact ⟨rfl, rfl, rfl⟩
  | destroy => exact ⟨rfl, rfl, rfl⟩
  | write => exact ⟨rfl, rfl, rfl⟩
  | readCompleted index completion => exact absurd rfl (hevent _ _)

theorem step_cases {tls next : TlsConnection} {event : Event}
    (hstep : tls.step codec strings event = some next) :
    StepCase codec strings tls event next := by
  cases event with
  | asyncConnect validAddress hasCallback =>
      cases validAddress with
      | false =>
          cases hstep
          exact .rejected hasCallback
      | true =>
          cases hstep
          exact .accepted hasCallback
  | connectCompleted index error =>
      simp only [step] at hstep
      cases hattempt : tls.connecting[index]? with
      | none => simp [hattempt] at hstep
      | some attempt =>
          simp only [hattempt] at hstep
          cases error with
          | true =>
              cases hstep
              exact .unreached index attempt hattempt
          | false =>
              cases hstep
              exact .reached index attempt hattempt
  | handshakeCompleted index error =>
      simp only [step] at hstep
      cases hattempt : tls.handshaking[index]? with
      | none => simp [hattempt] at hstep
      | some attempt =>
          simp only [hattempt] at hstep
          cases error with
          | true =>
              cases hstep
              exact .refused index attempt hattempt
          | false =>
              cases hstep
              exact .secured index attempt hattempt
  | readCompleted index completion =>
      simp only [step, readCompleted] at hstep
      split at hstep
      next op pointer hop hpointer =>
        by_cases hundefined : op.target = .packetData ∧
            pointer ≠ tls.buffer ∨
              Overruns op completion tls.connection.currentPacket
        · rw [if_pos hundefined] at hstep
          contradiction
        rw [if_neg hundefined] at hstep
        obtain ⟨connection, hread, rfl⟩ :=
          Option.map_eq_some_iff.mp hstep
        obtain ⟨op', hop', hsize, hread⟩ :=
          Connection.readCompleted_eq_some hread
        rw [hop] at hop'
        cases hop'
        refine .read index completion op pointer connection
          ⟨hop, hpointer, fun htarget => ?_, hsize, hread⟩
        by_contra hother
        exact hundefined (Or.inl ⟨htarget, hother⟩)
      next => contradiction
  | construct channel address =>
      obtain ⟨connection, hmoved, rfl⟩ := Option.map_eq_some_iff.mp hstep
      refine .aside _ connection (aside_of_step ?_ hmoved) ?_ ?_ <;> simp
  | destroy channel =>
      obtain ⟨connection, hmoved, rfl⟩ := Option.map_eq_some_iff.mp hstep
      refine .aside _ connection (aside_of_step ?_ hmoved) ?_ ?_ <;> simp
  | write event =>
      obtain ⟨connection, hmoved, rfl⟩ := Option.map_eq_some_iff.mp hstep
      refine .aside _ connection (aside_of_step ?_ hmoved) ?_ ?_ <;> simp

end TlsConnection

end LibChromecast
