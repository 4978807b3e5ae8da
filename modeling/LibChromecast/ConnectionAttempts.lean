import Mathlib.Data.List.Perm.Basic
import LibChromecast.GoogleCastMessage
import LibChromecast.TlsConnection

/-!
# Attempts and the reads they start

Three results on all runs of a connection from its construction on.

`accounted_of_run` counts: every accepted call of `AsyncConnect` is under way
or finished, and never twice, and a chain of reads goes on until a fault ends
it.  `ownCallbacks_throughout_iff` says when an attempt that ends reports to
its own caller, `pointsLive_throughout_iff` when no read is left with a
pointer to a buffer that is gone.  Both fail only when attempts overlap with
each other, or with the reads of an earlier one.
-/

namespace LibChromecast

open Foundation Foundation.LengthPrefix Foundation.Transition

namespace TlsConnection

variable {codec : ProtobufCodec} {strings : StringCompare}

/-! ## Accounting -/

def successes (tls : TlsConnection) : ℕ :=
  (tls.finished.filter fun finish => !finish.error).length

structure Accounted (tls : TlsConnection) : Prop where
  once : (tls.finished.map Finish.attempt ++
    (tls.handshaking ++ tls.connecting)).Perm
      (List.range tls.attempts.length)
  pointers : tls.pointers.length = tls.connection.reads.length
  chains : tls.connection.reads.length + tls.connection.faults.length =
    tls.successes

theorem accounted_construct (garbage : Fin 4 → UInt8) :
    (construct garbage).Accounted :=
  ⟨List.Perm.refl _, rfl, rfl⟩

theorem perm_cons_eraseIdx {attempts : List ℕ} {index attempt : ℕ}
    (h : attempts[index]? = some attempt) :
    (attempt :: attempts.eraseIdx index).Perm attempts := by
  obtain ⟨hindex, rfl⟩ := List.getElem?_eq_some_iff.mp h
  exact List.getElem_cons_eraseIdx_perm hindex

/-- A read that completes is followed by at most one other, and otherwise by a
fault. -/
theorem readStep_count {op : ReadOp} {completion : ReadCompletion}
    {connection next : Connection}
    (h : Connection.ReadStep codec strings op completion connection next) :
    (∃ started, next.reads = connection.reads ++ [started] ∧
        next.faults = connection.faults) ∨
      (next.reads = connection.reads ∧ ∃ fault,
        next.faults = connection.faults ++ [fault]) := by
  cases h with
  | probeFailed _ _ _ fault => exact .inr ⟨rfl, fault, rfl⟩
  | resumed => exact .inl ⟨_, rfl, rfl⟩
  | lengthRead => exact .inl ⟨_, rfl, rfl⟩
  | undecodable _ _ fault => exact .inr ⟨rfl, fault, rfl⟩
  | undelivered _ _ _ fault => exact .inr ⟨rfl, fault, rfl⟩
  | dispatched => exact .inl ⟨_, rfl, rfl⟩

theorem ReadDone.index_lt {tls : TlsConnection} {index : ℕ}
    {completion : ReadCompletion} {op : ReadOp} {pointer : ℕ}
    {connection : Connection}
    (h : ReadDone codec strings tls index completion op pointer
      connection) : index < tls.connection.reads.length :=
  (List.getElem?_eq_some_iff.mp h.op_eq).1

/-- What is outstanding after the completion of a read: the others, and the
one it started, if any. -/
theorem ReadDone.reads_eq {tls : TlsConnection} {index : ℕ}
    {completion : ReadCompletion} {op : ReadOp} {pointer : ℕ}
    {connection : Connection}
    (h : ReadDone codec strings tls index completion op pointer
      connection) :
    connection.reads = tls.connection.reads.eraseIdx index ++
      connection.reads.drop (tls.connection.reads.length - 1) := by
  have hindex := h.index_lt
  have hlength : (tls.connection.reads.eraseIdx index).length =
      tls.connection.reads.length - 1 := by
    rw [List.length_eraseIdx_of_lt hindex]
  rcases readStep_count h.read with ⟨started, hreads, -⟩ | ⟨hreads, -⟩
  · rw [hreads, ← hlength]
    change _ = _ ++ List.drop _ (tls.connection.reads.eraseIdx index ++ _)
    rw [List.drop_left' rfl]
    rfl
  · rw [hreads, ← hlength]
    change _ = _ ++ List.drop _ (tls.connection.reads.eraseIdx index)
    rw [List.drop_length, List.append_nil]
    rfl

theorem successes_report (tls : TlsConnection) (attempt : ℕ)
    (error : Bool) :
    (tls.report attempt error).successes =
      tls.successes + if error then 0 else 1 := by
  cases error <;> simp [successes, report]

theorem Accounted.step {tls next : TlsConnection} {event : Event}
    (h : tls.Accounted) (hstep : tls.step codec strings event = some next) :
    next.Accounted := by
  cases step_cases hstep with
  | rejected => exact h
  | accepted hasCallback =>
      refine ⟨?_, h.pointers, h.chains⟩
      rw [List.length_append, List.length_singleton, List.range_succ,
        ← List.append_assoc, ← List.append_assoc]
      refine List.Perm.append_right _ ?_
      rw [List.append_assoc]
      exact h.once
  | unreached index attempt hattempt =>
      refine ⟨?_, h.pointers, ?_⟩
      · refine List.Perm.trans ?_ h.once
        have hperm := perm_cons_eraseIdx hattempt
        simp only [report, List.map_append, List.map_cons, List.map_nil,
          List.append_assoc, List.singleton_append]
        refine List.Perm.append_left _ ?_
        exact List.perm_middle.symm.trans (hperm.append_left _)
      · rw [successes_report]
        exact h.chains
  | reached index attempt hattempt =>
      refine ⟨?_, h.pointers, h.chains⟩
      refine List.Perm.trans ?_ h.once
      have hperm := perm_cons_eraseIdx hattempt
      simp only [List.append_assoc, List.singleton_append]
      exact (hperm.append_left _).append_left _
  | refused index attempt hattempt =>
      refine ⟨?_, h.pointers, ?_⟩
      · refine List.Perm.trans ?_ h.once
        have hperm := perm_cons_eraseIdx hattempt
        simp only [report, List.map_append, List.map_cons, List.map_nil,
          List.append_assoc, List.singleton_append]
        exact (hperm.append_right _).append_left _
      · rw [successes_report]
        exact h.chains
  | secured index attempt hattempt =>
      refine ⟨?_, ?_, ?_⟩
      · refine List.Perm.trans ?_ h.once
        have hperm := perm_cons_eraseIdx hattempt
        simp only [report, onConnectionReady, List.map_append, List.map_cons,
          List.map_nil, List.append_assoc, List.singleton_append]
        exact (hperm.append_right _).append_left _
      · have hpointers := h.pointers
        simp [report, onConnectionReady,
          Connection.startReadingPacketLength, Connection.startReading,
          hpointers]
      · rw [successes_report]
        have hchains := h.chains
        simp only [onConnectionReady, report, successes,
          Connection.startReadingPacketLength, Connection.startReading,
          List.length_append, List.length_singleton] at hchains ⊢
        simp only [Bool.false_eq_true, if_false]
        omega
  | read index completion op pointer connection hdone =>
      have hindex := hdone.index_lt
      have hreads := congrArg List.length hdone.reads_eq
      refine ⟨h.once, ?_, ?_⟩
      · rw [List.length_append, List.length_map,
          List.length_eraseIdx_of_lt (h.pointers ▸ hindex), h.pointers]
        rw [List.length_append, List.length_eraseIdx_of_lt hindex] at hreads
        exact hreads.symm
      · have hchains := h.chains
        have herase := List.length_eraseIdx_add_one hindex
        rcases readStep_count hdone.read with
          ⟨started, hstarted, hfaults⟩ | ⟨hnone, fault, hfaults⟩
        · have hcount : connection.reads.length =
              (tls.connection.reads.eraseIdx index).length + 1 := by
            rw [hstarted]
            exact List.length_append
          rw [hfaults, hcount, herase]
          exact hchains
        · have hcount : connection.faults.length =
              tls.connection.faults.length + 1 := by
            rw [hfaults]
            exact List.length_append
          have hsame : connection.reads.length =
              (tls.connection.reads.eraseIdx index).length := by
            rw [hnone]
            rfl
          change connection.reads.length + connection.faults.length = _
          rw [hcount, hsame]
          change _ = tls.successes
          omega
  | aside event connection haside =>
      refine ⟨h.once, ?_, ?_⟩
      · rw [haside.1]
        exact h.pointers
      · rw [haside.1, haside.2.1]
        exact h.chains

/-- In every run, whatever attempts are made and however they and the reads
end: each accepted call of `AsyncConnect` is either finished or still under
way, and in one place only; and as many chains of reads are alive as
handshakes have succeeded, less one for each fault that left a handler. -/
theorem accounted_of_run {garbage : Fin 4 → UInt8} {events : List Event}
    {last : TlsConnection}
    (hrun : exec (step codec strings) (construct garbage) events =
      some last) : last.Accounted :=
  exec_invariant Accounted (fun _ _ _ h hstep => h.step hstep)
    (accounted_construct garbage) hrun

def brokenPipe : ErrorCode := ⟨32, lit "Broken pipe"⟩

/-- Two attempts overlap: the first one fails, the second one succeeds, and
the first read is ended by a fault. -/
theorem accounted_of_run_overlapping :
    ∃ last, exec (step googleCodec .unit) (construct fun _ => 0)
        [.asyncConnect true true, .asyncConnect false true,
          .asyncConnect true false, .connectCompleted 0 true,
          .connectCompleted 0 false, .handshakeCompleted 0 false,
          .readCompleted 0
            ⟨true, [], some brokenPipe, fun _ => .ok ()⟩] = some last ∧
      last.finished.length = 2 ∧ last.Accounted := by
  obtain ⟨last, hrun, hlength⟩ : ∃ last,
      exec (step googleCodec .unit) (construct fun _ => 0)
          [.asyncConnect true true, .asyncConnect false true,
            .asyncConnect true false, .connectCompleted 0 true,
            .connectCompleted 0 false, .handshakeCompleted 0 false,
            .readCompleted 0
              ⟨true, [], some brokenPipe, fun _ => .ok ()⟩] =
                some last ∧ last.finished.length = 2 := ⟨_, rfl, rfl⟩
  exact ⟨last, hrun, hlength, accounted_of_run hrun⟩

/-! ## Whose callback is invoked -/

/-- The callback an attempt should report to: its own, if it is set. -/
def ownCallback (attempt : ℕ) (tls : TlsConnection) : Option ℕ :=
  if tls.attempts[attempt]? = some true then some attempt else none

/-- Whoever was told how an attempt ended is the one who made it. -/
def OwnCallbacks (tls : TlsConnection) : Prop :=
  ∀ finish ∈ tls.finished, finish.callback = tls.ownCallback finish.attempt

instance (tls : TlsConnection) : Decidable tls.OwnCallbacks :=
  inferInstanceAs (Decidable (∀ finish ∈ tls.finished,
    finish.callback = tls.ownCallback finish.attempt))

/-- The attempt is the last one that was made, or neither of the two has a
callback. -/
def Current (attempt : ℕ) (tls : TlsConnection) : Prop :=
  attempt + 1 = tls.attempts.length ∨
    (tls.attempts[attempt]? = some false ∧
      tls.attempts.getLast? = some false)

instance (attempt : ℕ) (tls : TlsConnection) :
    Decidable (tls.Current attempt) :=
  inferInstanceAs (Decidable (_ ∨ _))

/-- The event ends no attempt, or one which is current. -/
def EndsCurrent (tls : TlsConnection) : Event → Prop
  | .connectCompleted index error =>
      error = true →
        ∀ attempt ∈ tls.connecting[index]?, tls.Current attempt
  | .handshakeCompleted index _ =>
      ∀ attempt ∈ tls.handshaking[index]?, tls.Current attempt
  | _ => True

instance (tls : TlsConnection) :
    (event : Event) → Decidable (tls.EndsCurrent event)
  | .connectCompleted index error =>
      inferInstanceAs (Decidable (error = true →
        ∀ attempt ∈ tls.connecting[index]?, tls.Current attempt))
  | .handshakeCompleted index _ =>
      inferInstanceAs (Decidable
        (∀ attempt ∈ tls.handshaking[index]?, tls.Current attempt))
  | .asyncConnect _ _ => .isTrue trivial
  | .readCompleted _ _ => .isTrue trivial
  | .construct _ _ => .isTrue trivial
  | .destroy _ => .isTrue trivial
  | .write _ => .isTrue trivial

/-- What the callback slot holds: the callback of the last attempt. -/
structure Slotted (tls : TlsConnection) : Prop where
  accounted : tls.Accounted
  slot : tls.connectionCallback =
    if tls.attempts.getLast? = some true then
      some (tls.attempts.length - 1) else none

theorem slotted_construct (garbage : Fin 4 → UInt8) :
    (construct garbage).Slotted :=
  ⟨accounted_construct garbage, rfl⟩

theorem Slotted.step {tls next : TlsConnection} {event : Event}
    (h : tls.Slotted) (hstep : tls.step codec strings event = some next) :
    next.Slotted := by
  refine ⟨h.accounted.step hstep, ?_⟩
  cases step_cases hstep with
  | rejected => exact h.slot
  | accepted hasCallback => cases hasCallback <;> simp
  | unreached => exact h.slot
  | reached => exact h.slot
  | refused => exact h.slot
  | secured => exact h.slot
  | read => exact h.slot
  | aside => exact h.slot

/-- An attempt that was made finds its own callback in the slot exactly if it
is current. -/
theorem Slotted.callback_eq_iff {tls : TlsConnection} (h : tls.Slotted)
    {attempt : ℕ} (hattempt : attempt < tls.attempts.length) :
    tls.connectionCallback = tls.ownCallback attempt ↔
      tls.Current attempt := by
  have hget := List.getElem?_eq_getElem hattempt
  have hne : tls.attempts ≠ [] := List.ne_nil_of_length_pos (by omega)
  have hlast := List.getLast?_eq_some_getLast hne
  have hlastGet : tls.attempts.getLast? =
      tls.attempts[tls.attempts.length - 1]? := List.getLast?_eq_getElem?
  rw [h.slot, ownCallback, Current]
  by_cases hcurrent : attempt + 1 = tls.attempts.length
  · have hindex : attempt = tls.attempts.length - 1 := by omega
    rw [hlastGet, ← hindex]
    exact iff_of_true rfl (.inl hcurrent)
  · have hindex : tls.attempts.length - 1 ≠ attempt := by omega
    rw [hget, hlast]
    cases tls.attempts[attempt] <;> cases tls.attempts.getLast hne <;>
      simp [hcurrent, hindex]

theorem Slotted.attempt_lt {tls : TlsConnection} (h : tls.Slotted)
    {attempt : ℕ} (hmem : attempt ∈ tls.finished.map Finish.attempt ++
      (tls.handshaking ++ tls.connecting)) :
    attempt < tls.attempts.length :=
  List.mem_range.mp ((h.accounted.once.mem_iff).mp hmem)

theorem ownCallbacks_report_iff {tls : TlsConnection} {attempt : ℕ}
    {error : Bool} (hown : tls.OwnCallbacks) :
    (tls.report attempt error).OwnCallbacks ↔
      tls.connectionCallback = tls.ownCallback attempt := by
  constructor
  · intro hreported
    exact hreported ⟨attempt, error, tls.connectionCallback⟩
      (List.mem_append_right _ (List.mem_singleton_self _))
  · intro hcallback finish hfinish
    rcases List.mem_append.mp hfinish with hold | hnew
    · exact hown finish hold
    · rw [List.mem_singleton.mp hnew]
      exact hcallback

theorem ownCallbacks_step_iff {tls next : TlsConnection} {event : Event}
    (h : tls.Slotted) (hown : tls.OwnCallbacks)
    (hstep : tls.step codec strings event = some next) :
    next.OwnCallbacks ↔ tls.EndsCurrent event := by
  cases step_cases hstep with
  | rejected => exact iff_of_true hown trivial
  | accepted hasCallback =>
      refine iff_of_true ?_ trivial
      intro finish hfinish
      have hlt := h.attempt_lt (List.mem_append_left _
        (List.mem_map_of_mem hfinish))
      rw [hown finish hfinish, ownCallback, ownCallback,
        List.getElem?_append_left hlt]
  | unreached index attempt hattempt =>
      have hlt := h.attempt_lt (List.mem_append_right _
        (List.mem_append_right _ (List.mem_of_getElem? hattempt)))
      have hcurrent := h.callback_eq_iff hlt
      simp only [EndsCurrent, hattempt, Option.mem_def, Option.some.injEq,
        forall_eq', true_imp_iff]
      exact (ownCallbacks_report_iff hown).trans hcurrent
  | reached => exact iff_of_true hown fun herror => by contradiction
  | refused index attempt hattempt =>
      have hlt := h.attempt_lt (List.mem_append_right _
        (List.mem_append_left _ (List.mem_of_getElem? hattempt)))
      have hcurrent := h.callback_eq_iff hlt
      simp only [EndsCurrent, hattempt, Option.mem_def, Option.some.injEq,
        forall_eq']
      exact (ownCallbacks_report_iff hown).trans hcurrent
  | secured index attempt hattempt =>
      have hlt := h.attempt_lt (List.mem_append_right _
        (List.mem_append_left _ (List.mem_of_getElem? hattempt)))
      have hcurrent := h.callback_eq_iff hlt
      simp only [EndsCurrent, hattempt, Option.mem_def, Option.some.injEq,
        forall_eq']
      exact (ownCallbacks_report_iff hown).trans hcurrent
  | read => exact iff_of_true hown trivial
  | aside event connection haside hevent hfinish =>
      refine iff_of_true hown ?_
      cases event with
      | connectCompleted index error => exact absurd rfl (hfinish _ _).1
      | handshakeCompleted index error => exact absurd rfl (hfinish _ _).2
      | asyncConnect => trivial
      | readCompleted => trivial
      | construct => trivial
      | destroy => trivial
      | write => trivial

/-- How an attempt ended is told to its own caller, and to nobody else, for
every attempt of a run, exactly if no attempt ends after a later call of
`AsyncConnect` was accepted, unless neither passed a callback. -/
theorem ownCallbacks_throughout_iff (garbage : Fin 4 → UInt8)
    (events : List Event) :
    Throughout (step codec strings) OwnCallbacks (construct garbage)
        events ↔
      Along (step codec strings)
        (fun tls event => (tls.step codec strings event).isSome →
          tls.EndsCurrent event)
        (construct garbage) events := by
  apply throughout_iff_along Slotted
  · intro tls event next h _ hstep _
    exact h.step hstep
  · intro tls event next h hown hstep
    exact ownCallbacks_step_iff h hown hstep
  · intro finish hfinish
    contradiction
  · exact slotted_construct garbage

/-- The first of two overlapping attempts fails, and the second one's caller
is told so; the second one succeeds, and its caller is told again. -/
example : (exec (step googleCodec .unit) (construct fun _ => 0)
    [.asyncConnect true true, .asyncConnect true true,
      .connectCompleted 0 true, .connectCompleted 0 false,
      .handshakeCompleted 0 false]).map TlsConnection.finished =
        some [⟨0, true, some 1⟩, ⟨1, false, some 1⟩] := by
  decide

/-! ## Where the outstanding reads point -/

/-- The read stays inside the packet length, or inside the buffer which is
behind `_current_packet.data` now. -/
def Points (tls : TlsConnection) (op : ReadOp) (pointer : ℕ) : Prop :=
  match op.target with
  | .packetLength => op.offset + op.size ≤ 4
  | .packetData =>
      pointer = tls.buffer ∧
        op.offset + op.size ≤ tls.connection.currentPacket.data.length

/-- No outstanding read can store a byte outside of memory that is its own. -/
def PointsLive (tls : TlsConnection) : Prop :=
  ∀ (index : ℕ) (op : ReadOp) (pointer : ℕ),
    tls.connection.reads[index]? = some op →
      tls.pointers[index]? = some pointer → tls.Points op pointer

/-- When the length of a packet has been read, no read of another body is
outstanding. -/
def NoneReplaced (tls : TlsConnection) : Event → Prop
  | .readCompleted index completion =>
      ∀ op ∈ tls.connection.reads[index]?, Renews op completion →
        ∀ other ∈ tls.connection.reads.eraseIdx index,
          other.target = .packetLength
  | _ => True

/-- What is known of a state besides its pointers. -/
structure Shaped (tls : TlsConnection) : Prop where
  accounted : tls.Accounted
  length_eq : tls.connection.currentPacket.length.length = 4

theorem shaped_construct (garbage : Fin 4 → UInt8) :
    (construct garbage).Shaped :=
  ⟨accounted_construct garbage, rfl⟩

theorem Points.congr {tls other : TlsConnection} {op : ReadOp}
    {pointer : ℕ} (h : tls.Points op pointer)
    (hbuffer : other.buffer = tls.buffer)
    (hdata : other.connection.currentPacket.data.length =
      tls.connection.currentPacket.data.length) :
    other.Points op pointer := by
  unfold Points at h ⊢
  cases htarget : op.target with
  | packetLength => simpa only [htarget] using h
  | packetData => simpa only [htarget, hbuffer, hdata] using h

section Read

variable {tls : TlsConnection} {index : ℕ} {completion : ReadCompletion}
  {op : ReadOp} {pointer : ℕ} {connection : Connection}
  (hdone : ReadDone codec strings tls index completion op pointer
    connection)
  (hpoints : tls.Points op pointer)

include hdone hpoints in
/-- A read that points where it may keeps the sizes of what it writes to. -/
theorem ReadDone.sizes
    (hlength : tls.connection.currentPacket.length.length = 4) :
    (tls.connection.stored op index
        completion).currentPacket.length.length = 4 ∧
      (tls.connection.stored op index
          completion).currentPacket.data.length =
        tls.connection.currentPacket.data.length := by
  have hfits := hdone.fits
  unfold Points at hpoints
  unfold Connection.stored CastPacket.store
  cases htarget : op.target with
  | packetLength =>
      simp only [htarget] at hpoints ⊢
      exact ⟨(CastPacket.length_overwrite (by omega)).trans hlength, trivial⟩
  | packetData =>
      simp only [htarget] at hpoints ⊢
      exact ⟨hlength, CastPacket.length_overwrite (by omega)⟩

include hdone hpoints in
/-- The read that follows points where it may: into the buffer which was just
allocated, on in the same place, or at the length of the next packet. -/
theorem ReadDone.started_points {next : TlsConnection}
    (hconnection : next.connection = connection)
    (hlength : tls.connection.currentPacket.length.length = 4)
    (hbuffer : next.buffer = if Renews op completion then tls.buffer + 1
      else tls.buffer) :
    ∀ started ∈ connection.reads.drop (tls.connection.reads.length - 1),
      next.Points started
        (if Renews op completion then tls.buffer + 1 else pointer) := by
  have hindex := hdone.index_lt
  have hcount : tls.connection.reads.length - 1 =
      (tls.connection.reads.eraseIdx index).length := by
    rw [List.length_eraseIdx_of_lt hindex]
  obtain ⟨-, hdata⟩ := hdone.sizes hpoints hlength
  have hfits := hdone.fits
  intro started hstarted
  rw [hcount] at hstarted
  unfold Points
  rw [hconnection, hbuffer]
  cases hdone.read with
  | probeFailed =>
      change started ∈ List.drop _
        (tls.connection.reads.eraseIdx index) at hstarted
      rw [List.drop_length] at hstarted
      contradiction
  | undecodable =>
      change started ∈ List.drop _
        (tls.connection.reads.eraseIdx index) at hstarted
      rw [List.drop_length] at hstarted
      contradiction
  | undelivered =>
      change started ∈ List.drop _
        (tls.connection.reads.eraseIdx index) at hstarted
      rw [List.drop_length] at hstarted
      contradiction
  | dispatched =>
      change started ∈ List.drop _
        (tls.connection.reads.eraseIdx index ++ [⟨.packetLength, 0, 4⟩])
          at hstarted
      rw [List.drop_left' rfl, List.mem_singleton] at hstarted
      subst hstarted
      exact Nat.le_refl 4
  | lengthRead hfull htarget =>
      change started ∈ List.drop _
        (tls.connection.reads.eraseIdx index ++ [⟨.packetData, 0, _⟩])
          at hstarted
      rw [List.drop_left' rfl, List.mem_singleton] at hstarted
      subst hstarted
      rw [if_pos (show Renews op completion from ⟨htarget, hfull⟩),
        if_pos (show Renews op completion from ⟨htarget, hfull⟩)]
      refine ⟨rfl, ?_⟩
      simp [Connection.packetLengthRead, Connection.startReadingData,
        Connection.startReading]
  | resumed hshort =>
      change started ∈ List.drop _
        (tls.connection.reads.eraseIdx index ++
          [⟨op.target, op.offset + completion.bytes.length,
            op.size - completion.bytes.length⟩]) at hstarted
      rw [List.drop_left' rfl, List.mem_singleton] at hstarted
      subst hstarted
      have hkeeps : ¬Renews op completion := fun h => h.2 hshort
      rw [if_neg hkeeps, if_neg hkeeps]
      unfold Points at hpoints
      cases htarget : op.target with
      | packetLength =>
          simp only [htarget] at hpoints ⊢
          omega
      | packetData =>
          simp only [htarget] at hpoints ⊢
          refine ⟨hpoints.1, ?_⟩
          change _ ≤ (tls.connection.stored op index
            completion).currentPacket.data.length
          rw [hdata]
          omega

end Read

/-- Two lists that run in parallel, one entry of each dropped and one added:
an entry is an old one or the new one. -/
theorem parallel_cases {α β : Type} {as : List α} {bs : List β}
    {index at' : ℕ} {more : List α} {new b : β} {a : α}
    (hlength : as.length = bs.length) (hindex : index < as.length)
    (ha : (as.eraseIdx index ++ more)[at']? = some a)
    (hb : (bs.eraseIdx index ++ more.map fun _ => new)[at']? = some b) :
    (∃ old, old ≠ index ∧ as[old]? = some a ∧ bs[old]? = some b ∧
        a ∈ as.eraseIdx index) ∨
      (a ∈ more ∧ b = new) := by
  have herase : (as.eraseIdx index).length =
      (bs.eraseIdx index).length := by
    rw [List.length_eraseIdx_of_lt hindex,
      List.length_eraseIdx_of_lt (hlength ▸ hindex), hlength]
  by_cases hold : at' < (as.eraseIdx index).length
  · rw [List.getElem?_append_left hold] at ha
    rw [List.getElem?_append_left (herase ▸ hold)] at hb
    have hmem := List.mem_of_getElem? ha
    rw [List.getElem?_eraseIdx] at ha hb
    by_cases hbefore : at' < index
    · rw [if_pos hbefore] at ha hb
      exact .inl ⟨at', Nat.ne_of_lt hbefore, ha, hb, hmem⟩
    · rw [if_neg hbefore] at ha hb
      exact .inl ⟨at' + 1, by omega, ha, hb, hmem⟩
  · rw [List.getElem?_append_right (by omega)] at ha
    rw [List.getElem?_append_right (by omega)] at hb
    rw [List.getElem?_map] at hb
    refine .inr ⟨List.mem_of_getElem? ha, ?_⟩
    obtain ⟨-, -, rfl⟩ := Option.map_eq_some_iff.mp hb
    rfl

theorem pointsLive_step_iff {tls next : TlsConnection} {event : Event}
    (h : tls.Shaped) (hlive : tls.PointsLive)
    (hstep : tls.step codec strings event = some next) :
    next.PointsLive ↔ tls.NoneReplaced event := by
  have hpointers := h.accounted.pointers
  cases step_cases hstep with
  | rejected => exact iff_of_true hlive trivial
  | accepted => exact iff_of_true hlive trivial
  | unreached => exact iff_of_true hlive trivial
  | reached => exact iff_of_true hlive trivial
  | refused => exact iff_of_true hlive trivial
  | secured attempt at' hattempt =>
      refine iff_of_true ?_ trivial
      intro index op pointer hop hpointer
      change (tls.connection.reads ++ [⟨.packetLength, 0, 4⟩])[index]? =
        some op at hop
      change (tls.pointers ++ [tls.buffer])[index]? = some pointer
        at hpointer
      by_cases hold : index < tls.connection.reads.length
      · rw [List.getElem?_append_left hold] at hop
        rw [List.getElem?_append_left (hpointers ▸ hold)] at hpointer
        exact hlive index op pointer hop hpointer
      · rw [List.getElem?_append_right (by omega)] at hop
        have hnew := List.mem_singleton.mp (List.mem_of_getElem? hop)
        subst hnew
        exact Nat.le_refl 4
  | read index completion op pointer connection hdone =>
      have hpoints := hlive index op pointer hdone.op_eq hdone.pointer_eq
      have hindex := hdone.index_lt
      obtain ⟨-, hdata⟩ := hdone.sizes hpoints h.length_eq
      simp only [NoneReplaced, hdone.op_eq, Option.mem_def,
        Option.some.injEq, forall_eq']
      constructor
      · intro hnext hrenews other hother
        -- a read of another body would still hold the number of its buffer
        by_contra hbody
        have htarget : other.target = .packetData := by
          cases hcase : other.target with
          | packetLength => exact absurd hcase hbody
          | packetData => rfl
        obtain ⟨at', hat⟩ := List.getElem?_of_mem hother
        have hlt := (List.getElem?_eq_some_iff.mp hat).1
        have hpointerLt : at' < (tls.pointers.eraseIdx index).length := by
          rw [List.length_eraseIdx_of_lt (hpointers ▸ hindex), hpointers,
            ← List.length_eraseIdx_of_lt hindex]
          exact hlt
        have hpointer := List.getElem?_eq_getElem hpointerLt
        generalize (tls.pointers.eraseIdx index)[at'] = old at hpointer
        have hread : connection.reads[at']? = some other := by
          rw [hdone.reads_eq, List.getElem?_append_left hlt, hat]
        have hnew := hnext at' other old hread
          (by rw [List.getElem?_append_left hpointerLt, hpointer])
        have hold : tls.Points other old := by
          rw [List.getElem?_eraseIdx] at hat hpointer
          by_cases hbefore : at' < index
          · rw [if_pos hbefore] at hat hpointer
            exact hlive _ _ _ hat hpointer
          · rw [if_neg hbefore] at hat hpointer
            exact hlive _ _ _ hat hpointer
        simp only [Points, htarget, if_pos hrenews] at hnew hold
        omega
      · intro hcondition at' started pointer' hread hpointer'
        rw [hdone.reads_eq] at hread
        rcases parallel_cases hpointers.symm hindex hread hpointer' with
          ⟨old, -, hop, hold, hmem⟩ | ⟨hmem, rfl⟩
        · have hpointsOld := hlive old started pointer' hop hold
          by_cases hrenews : Renews op completion
          · have htarget := hcondition hrenews started hmem
            unfold Points at hpointsOld ⊢
            simpa only [htarget] using hpointsOld
          · refine hpointsOld.congr (if_neg hrenews) ?_
            rw [← hdata]
            cases hdone.read with
            | lengthRead hfull htarget =>
                exact absurd ⟨htarget, hfull⟩ hrenews
            | probeFailed => rfl
            | resumed => rfl
            | undecodable => rfl
            | undelivered => rfl
            | dispatched => rfl
        · exact hdone.started_points hpoints rfl h.length_eq rfl started
            hmem
  | aside event connection haside hevent =>
      refine iff_of_true ?_ ?_
      · intro index op pointer hop hpointer
        rw [haside.1] at hop
        exact (hlive index op pointer hop hpointer).congr rfl
          (by rw [haside.2.2])
      · cases event with
        | readCompleted index completion => exact absurd rfl (hevent _ _)
        | asyncConnect => trivial
        | connectCompleted => trivial
        | handshakeCompleted => trivial
        | construct => trivial
        | destroy => trivial
        | write => trivial

theorem Shaped.step {tls next : TlsConnection} {event : Event}
    (h : tls.Shaped) (hlive : tls.PointsLive)
    (hstep : tls.step codec strings event = some next) : next.Shaped := by
  refine ⟨h.accounted.step hstep, ?_⟩
  cases step_cases hstep with
  | rejected => exact h.length_eq
  | accepted => exact h.length_eq
  | unreached => exact h.length_eq
  | reached => exact h.length_eq
  | refused => exact h.length_eq
  | secured => exact h.length_eq
  | read index completion op pointer connection hdone =>
      have hpoints := hlive index op pointer hdone.op_eq hdone.pointer_eq
      obtain ⟨hlength, -⟩ := hdone.sizes hpoints h.length_eq
      change connection.currentPacket.length.length = 4
      rw [← hlength]
      cases hdone.read <;> rfl
  | aside event connection haside =>
      change connection.currentPacket.length.length = 4
      rw [haside.2.2]
      exact h.length_eq

/-- No read stores outside the packet length and the buffer that is in place,
in any state of a run, exactly if no length of a packet is read to its end
while a read of another body is outstanding. -/
theorem pointsLive_throughout_iff (garbage : Fin 4 → UInt8)
    (events : List Event) :
    Throughout (step codec strings) PointsLive (construct garbage) events ↔
      Along (step codec strings)
        (fun tls event => (tls.step codec strings event).isSome →
          tls.NoneReplaced event)
        (construct garbage) events := by
  apply throughout_iff_along Shaped
  · intro tls event next h hlive hstep _
    exact h.step hlive hstep
  · intro tls event next h hlive hstep
    exact pointsLive_step_iff h hlive hstep
  · intro index op pointer hop _
    change ([] : List ReadOp)[index]? = some op at hop
    simp at hop
  · exact shaped_construct garbage

/-! ## One attempt -/

/-- What happens after the handshake, as events of the whole. -/
def Event.ofConnection : Connection.Event → Event
  | .construct channel address => .construct channel address
  | .destroy channel => .destroy channel
  | .write event => .write event
  | .readCompleted index completion => .readCompleted index completion

/-- One chain of reads, none of which points astray, and no length stored
while it reads a body. -/
structure OneChain (tls : TlsConnection) : Prop where
  shaped : tls.Shaped
  live : tls.PointsLive
  one : tls.connection.reads.length ≤ 1
  whole : ∀ op ∈ tls.connection.reads, op.target = .packetData →
    tls.connection.currentPacket.data.length =
      decodeBigEndian32 tls.connection.currentPacket.length

theorem OneChain.noneReplaced {tls : TlsConnection} (h : tls.OneChain)
    (event : Connection.Event) :
    tls.NoneReplaced (.ofConnection event) := by
  cases event with
  | readCompleted index completion =>
      intro op hop _ other hother
      have hindex := (List.getElem?_eq_some_iff.mp hop).1
      have hone := h.one
      have hlength := List.length_pos_of_mem hother
      rw [List.length_eraseIdx_of_lt hindex] at hlength
      omega
  | construct => trivial
  | destroy => trivial
  | write => trivial

/-- A read of a body goes on in the buffer that was allocated for it. -/
theorem OneChain.whole_of_step {tls next : TlsConnection} {event : Event}
    (h : tls.OneChain) (hstep : tls.step codec strings event = some next)
    {started : ReadOp} (hstarted : started ∈ next.connection.reads)
    (htarget : started.target = .packetData) :
    next.connection.currentPacket.data.length =
      decodeBigEndian32 next.connection.currentPacket.length := by
  have hwhole := h.whole
  cases step_cases hstep with
  | rejected => exact hwhole started hstarted htarget
  | accepted => exact hwhole started hstarted htarget
  | unreached => exact hwhole started hstarted htarget
  | reached => exact hwhole started hstarted htarget
  | refused => exact hwhole started hstarted htarget
  | secured =>
      rcases List.mem_append.mp hstarted with hold | hnew
      · exact hwhole started hold htarget
      · rw [List.mem_singleton.mp hnew] at htarget
        contradiction
  | read index completion op pointer connection hdone =>
      change started ∈ connection.reads at hstarted
      change connection.currentPacket.data.length = _
      have hindex := hdone.index_lt
      have hone := h.one
      have hpoints := h.live index op pointer hdone.op_eq hdone.pointer_eq
      have hsizes := hdone.sizes hpoints h.shaped.length_eq
      have hnone : tls.connection.reads.eraseIdx index = [] := by
        rw [← List.length_eq_zero_iff, List.length_eraseIdx_of_lt hindex]
        omega
      cases hdone.read with
      | probeFailed => simp [Connection.stored, Connection.escape,
          hnone] at hstarted
      | undecodable => simp [Connection.stored, Connection.escape,
          hnone] at hstarted
      | undelivered => simp [Connection.stored, Connection.escape,
          hnone] at hstarted
      | dispatched =>
          change started ∈ tls.connection.reads.eraseIdx index ++
            [⟨.packetLength, 0, 4⟩] at hstarted
          rw [hnone, List.nil_append, List.mem_singleton] at hstarted
          rw [hstarted] at htarget
          contradiction
      | lengthRead =>
          simp [Connection.packetLengthRead, Connection.startReadingData,
            Connection.startReading]
      | resumed hshort hprobe =>
          change started ∈ tls.connection.reads.eraseIdx index ++
            [⟨op.target, _, _⟩] at hstarted
          rw [hnone, List.nil_append, List.mem_singleton] at hstarted
          rw [hstarted] at htarget
          have hbefore := hwhole op (List.mem_of_getElem? hdone.op_eq)
            htarget
          change op.target = .packetData at htarget
          change (tls.connection.stored op index
            completion).currentPacket.data.length = _
          rw [hsizes.2, hbefore]
          simp [Connection.startReading, Connection.stored,
            CastPacket.store, htarget]
  | aside event connection haside =>
      change connection.currentPacket.data.length =
        decodeBigEndian32 connection.currentPacket.length
      rw [haside.2.2]
      exact hwhole started (haside.1 ▸ hstarted) htarget

theorem OneChain.step {tls next : TlsConnection} {event : Connection.Event}
    (h : tls.OneChain)
    (hstep : tls.step codec strings (.ofConnection event) = some next) :
    next.OneChain := by
  refine ⟨h.shaped.step h.live hstep,
    (pointsLive_step_iff h.shaped h.live hstep).mpr (h.noneReplaced event),
    ?_, fun started hstarted htarget =>
      h.whole_of_step hstep hstarted htarget⟩
  have hone := h.one
  cases event with
  | readCompleted index completion =>
      cases step_cases hstep with
      | read index completion op pointer connection hdone =>
          have hindex := hdone.index_lt
          have herase := List.length_eraseIdx_of_lt hindex
          change connection.reads.length ≤ 1
          rcases readStep_count hdone.read with ⟨started, hstarted, -⟩ |
            ⟨hnone, -⟩
          · have hcount : connection.reads.length =
                (tls.connection.reads.eraseIdx index).length + 1 := by
              rw [hstarted]
              exact List.length_append
            omega
          · have hcount : connection.reads.length =
                (tls.connection.reads.eraseIdx index).length := by
              rw [hnone]
              rfl
            omega
      | aside event connection haside hevent =>
          exact absurd rfl (hevent _ _)
  | construct =>
      cases step_cases hstep with
      | aside event connection haside => exact haside.1 ▸ hone
  | destroy =>
      cases step_cases hstep with
      | aside event connection haside => exact haside.1 ▸ hone
  | write =>
      cases step_cases hstep with
      | aside event connection haside => exact haside.1 ▸ hone

/-- With one chain the whole does what its connection does: no pointer is
stale. -/
theorem OneChain.connection_step {tls : TlsConnection} (h : tls.OneChain)
    (event : Connection.Event) :
    (tls.step codec strings (.ofConnection event)).map
        TlsConnection.connection =
      tls.connection.step codec strings event := by
  have hwrap : ∀ moved : Option Connection,
      (moved.map fun connection =>
        ({ tls with connection } : TlsConnection)).map
          TlsConnection.connection = moved := by
    intro moved
    cases moved <;> rfl
  cases event with
  | construct channel address => exact hwrap _
  | destroy channel => exact hwrap _
  | write event => exact hwrap _
  | readCompleted index completion =>
      change (tls.readCompleted codec strings index completion).map _ =
        tls.connection.readCompleted codec strings index completion
      unfold readCompleted
      cases hop : tls.connection.reads[index]? with
      | none => simp [Connection.readCompleted, hop]
      | some op =>
          have hindex := (List.getElem?_eq_some_iff.mp hop).1
          rw [← h.shaped.accounted.pointers] at hindex
          have hpointer := List.getElem?_eq_getElem hindex
          have hpoints := h.live index op _ hop hpointer
          have hdefined : ¬(op.target = .packetData ∧
                tls.pointers[index] ≠ tls.buffer ∨
              Overruns op completion tls.connection.currentPacket) := by
            rintro (⟨htarget, hstale⟩ | ⟨htarget, -, hoverrun⟩)
            · simp only [Points, htarget] at hpoints
              exact hstale hpoints.1
            · have hdata := h.whole op (List.mem_of_getElem? hop) htarget
              omega
          simp only [hpointer]
          rw [if_neg hdefined]
          cases tls.connection.readCompleted codec strings index
            completion <;> rfl

theorem OneChain.connection_exec {tls : TlsConnection} (h : tls.OneChain)
    (events : List Connection.Event) :
    (exec (TlsConnection.step codec strings) tls
        (events.map Event.ofConnection)).map TlsConnection.connection =
      exec (Connection.step codec strings) tls.connection events := by
  induction events generalizing tls with
  | nil => rfl
  | cons event rest ih =>
      rw [List.map_cons, exec_cons, exec_cons, ← h.connection_step event]
      cases hstep : tls.step codec strings (.ofConnection event) with
      | none => rfl
      | some next => exact ih (h.step hstep)

theorem OneChain.throughout {tls : TlsConnection} (h : tls.OneChain)
    (events : List Connection.Event) :
    Throughout (TlsConnection.step codec strings) PointsLive tls
      (events.map Event.ofConnection) := by
  induction events generalizing tls with
  | nil => exact h.live
  | cons event rest ih =>
      exact ⟨h.live, fun next hstep => ih (h.step hstep)⟩

/-- A call of `AsyncConnect` which succeeds. -/
def attempt (hasCallback : Bool) : List Event :=
  [.asyncConnect true hasCallback, .connectCompleted 0 false,
    .handshakeCompleted 0 false]

/-- The connection after that, at the start of its only chain. -/
def connected (garbage : Fin 4 → UInt8) (hasCallback : Bool) :
    TlsConnection where
  connection := .ready garbage
  connectionCallback := if hasCallback then some 0 else none
  pointers := [0]
  attempts := [hasCallback]
  finished := [⟨0, false, if hasCallback then some 0 else none⟩]

theorem exec_attempt (garbage : Fin 4 → UInt8) (hasCallback : Bool) :
    exec (step codec strings) (construct garbage) (attempt hasCallback) =
      some (connected garbage hasCallback) := rfl

theorem oneChain_connected (garbage : Fin 4 → UInt8) (hasCallback : Bool) :
    (connected garbage hasCallback).OneChain where
  shaped := ⟨⟨List.Perm.refl _, rfl, rfl⟩, rfl⟩
  live := by
    intro index op pointer hop _
    have honly : op = ⟨.packetLength, 0, 4⟩ :=
      List.mem_singleton.mp (List.mem_of_getElem? hop)
    rw [honly]
    exact Nat.le_refl 4
  one := Nat.le_refl 1
  whole := by
    intro op hop htarget
    rw [List.mem_singleton.mp hop] at htarget
    contradiction

/-- After a single attempt, the whole connection goes through the runs of the
connection after its handshake and no others, and no read ever points astray:
the machine that starts with `ready` leaves nothing out. -/
theorem exec_of_ready (garbage : Fin 4 → UInt8) (hasCallback : Bool)
    (events : List Connection.Event) :
    (exec (step codec strings) (construct garbage)
        (attempt hasCallback ++ events.map Event.ofConnection)).map
          TlsConnection.connection =
        exec (Connection.step codec strings) (.ready garbage) events ∧
      Throughout (step codec strings) PointsLive (construct garbage)
        (attempt hasCallback ++ events.map Event.ofConnection) := by
  have hchain := oneChain_connected garbage hasCallback
  constructor
  · rw [exec_append, exec_attempt, Option.bind_some]
    exact hchain.connection_exec events
  · have hnone : ∀ tls : TlsConnection, tls.connection.reads = [] →
        tls.PointsLive := by
      intro tls hreads index op pointer hop _
      rw [hreads] at hop
      simp at hop
    refine ⟨hnone _ rfl, fun first hfirst => ?_⟩
    cases hfirst
    refine ⟨hnone _ rfl, fun second hsecond => ?_⟩
    cases hsecond
    refine ⟨hnone _ rfl, fun third hthird => ?_⟩
    cases hthird
    exact hchain.throughout events

end TlsConnection

end LibChromecast
