import LibChromecast.CastMessage
import LibChromecast.Foundation.LengthPrefix

/-!
# The outgoing byte stream

`ChromecastConnection::AsyncWrite` hands one buffer, the big-endian length and
the body, to `boost::asio::async_write` and returns.  The composed operation
transfers the buffer with any number of `write_some` calls; operations that
are outstanding together take their turns in the order of the event loop.
`TLSConnection::EnsureConnectionIsAlive` writes to the same socket.  An
operation that ends with an error, after which the stream is of no use, has no
event: the run ends before it.

`issued` is not in the source: it lists the frames passed to `async_write`, in
call order.
-/

namespace LibChromecast

open Foundation.LengthPrefix

structure WriteOp where
  frame : List UInt8
  transferred : ℕ
deriving DecidableEq

def WriteOp.remaining (op : WriteOp) : List UInt8 :=
  op.frame.drop op.transferred

structure Outgoing where
  pending : List WriteOp := []
  sent : List UInt8 := []
  issued : List (List UInt8) := []
  completions : List (Outcome Unit) := []

/-- The buffer `AsyncWrite` fills: the message is serialized twice, first for
its size. -/
def frameOf (codec : ProtobufCodec) (message : CastMessage) :
    Outcome (List UInt8) := do
  let messageBuffer ← message.save codec
  let packetSize := encodeBigEndian32 messageBuffer.length
  let body ← message.save codec
  pure (packetSize ++ body)

/-- The completion handler of `AsyncWrite` for a buffer of `size` bytes:
`total_size` has 32 bits, `bytes_transferred` has not. -/
def writeCompleted (size : ℕ) (error : Option ErrorCode)
    (bytesTransferred : ℕ) : Outcome Unit := do
  let totalSize := size % 2 ^ 32
  throwOnErrorCode error
    (lit "failed to write packet data: " ++
      (error.elim [] ErrorCode.message))
  throwOnError (totalSize ≠ bytesTransferred)
    (lit "could only write " ++ lit (toString bytesTransferred) ++
      lit " out of " ++ lit (toString totalSize) ++ lit " bytes")

namespace Outgoing

def asyncWrite (codec : ProtobufCodec) (message : CastMessage)
    (out : Outgoing) : Outcome Unit × Outgoing :=
  match frameOf codec message with
  | .error fault => (.error fault, out)
  | .ok frame =>
      (.ok (), { out with
        pending := out.pending ++ [⟨frame, 0⟩]
        issued := out.issued ++ [frame] })

/-- One `write_some` of the outstanding operation `index`: the socket takes
the next `count` bytes.  The operation completes with its last byte. -/
def writeSome (index count : ℕ) (out : Outgoing) : Option Outgoing :=
  match out.pending[index]? with
  | none => none
  | some op =>
      if 0 < count ∧ count ≤ op.remaining.length then
        let sent := out.sent ++ op.remaining.take count
        let transferred := op.transferred + count
        if transferred = op.frame.length then
          some { out with
            sent := sent
            pending := out.pending.eraseIdx index
            completions := out.completions ++
              [writeCompleted op.frame.length none transferred] }
        else
          some { out with
            sent := sent
            pending := out.pending.set index { op with transferred } }
      else none

/-- `TLSConnection::EnsureConnectionIsAlive`: one zero byte through the
socket's own `write_some`.  `error` is the error code it reports. -/
def ensureConnectionIsAlive (error : Option ErrorCode) (out : Outgoing) :
    Outcome Unit × Outgoing :=
  match throwOnErrorCode error (lit "invalid application") with
  | .error fault => (.error fault, out)
  | .ok () => (.ok (), { out with sent := out.sent ++ [0] })

inductive Event where
  | asyncWrite (message : CastMessage)
  | writeSome (index count : ℕ)

def step (codec : ProtobufCodec) (out : Outgoing) : Event → Option Outgoing
  | .asyncWrite message => some (out.asyncWrite codec message).2
  | .writeSome index count => out.writeSome index count

/-- The bytes of outstanding writes the socket has not taken yet, in the
order of the operations. -/
def untransferred (out : Outgoing) : List UInt8 :=
  out.pending.flatMap WriteOp.remaining

end Outgoing

end LibChromecast
