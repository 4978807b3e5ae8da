import LibChromecast.OutgoingStream
import LibChromecast.Routing

/-!
# The chain of reads

What the reader of a connection keeps through every fragmentation of its
input: one read is outstanding, and the bytes received so far are the frames
of the bodies read, followed by what the current frame's buffers hold before
the offset of that read.

The framing round trip follows, because a stream of frames determines its
bodies.
-/

namespace LibChromecast

open Foundation Foundation.LengthPrefix Foundation.Transition

namespace Connection

variable {codec : ProtobufCodec} {strings : StringCompare}

/-! ## The reader's invariant -/

def Resumes (connection : Connection) (op : ReadOp) : Prop :=
  match op.target with
  | .packetLength =>
      op.offset + op.size = 4 ∧
        connection.received =
          bigEndian32.frames connection.bodies ++
            connection.currentPacket.length.take op.offset
  | .packetData =>
      connection.currentPacket.data.length =
          decodeBigEndian32 connection.currentPacket.length ∧
        op.offset + op.size = connection.currentPacket.data.length ∧
        connection.received =
          bigEndian32.frames connection.bodies ++
            (connection.currentPacket.length ++
              connection.currentPacket.data.take op.offset)

structure Aligned (connection : Connection) : Prop where
  length_eq : connection.currentPacket.length.length = 4
  bodies_lt : ∀ body ∈ connection.bodies, body.length < 2 ^ 32
  resumes : ∃ op, connection.reads = [op] ∧ connection.Resumes op

theorem aligned_ready (garbage : Fin 4 → UInt8) :
    (ready garbage).Aligned where
  length_eq := rfl
  bodies_lt := by
    intro body hbody
    contradiction
  resumes := ⟨⟨.packetLength, 0, 4⟩, rfl, rfl, rfl⟩

theorem Aligned.incomplete {connection : Connection}
    (haligned : connection.Aligned)
    (hwaits : ∀ op ∈ connection.reads, 0 < op.size) :
    ∃ rest, bigEndian32.Incomplete rest ∧
      connection.received =
        bigEndian32.frames connection.bodies ++ rest := by
  obtain ⟨op, hreads, hresumes⟩ := haligned.resumes
  have hsize : 0 < op.size := by
    apply hwaits
    rw [hreads]
    exact List.mem_singleton_self op
  have hlength := haligned.length_eq
  unfold Resumes at hresumes
  cases htarget : op.target with
  | packetLength =>
      simp only [htarget] at hresumes
      refine ⟨_, Or.inl ?_, hresumes.2⟩
      change (connection.currentPacket.length.take op.offset).length < 4
      rw [List.length_take]
      omega
  | packetData =>
      simp only [htarget] at hresumes
      obtain ⟨hdata, hoffset, hreceived⟩ := hresumes
      refine ⟨_, Or.inr ?_, hreceived⟩
      have hheader : (connection.currentPacket.length ++
          connection.currentPacket.data.take op.offset).take 4 =
            connection.currentPacket.length :=
        List.take_left' hlength
      change _ < 4 + decodeBigEndian32 (List.take 4 _)
      rw [hheader, ← hdata, List.length_append, List.length_take]
      omega

/-- Storing the bytes of a completion moves the end of the received bytes to
where the next read has to resume. -/
theorem Resumes.stored {connection : Connection} {op : ReadOp}
    (hlength : connection.currentPacket.length.length = 4)
    (hresumes : connection.Resumes op) {completion : ReadCompletion}
    (hsize : completion.bytes.length ≤ op.size) (index : ℕ) :
    let next := connection.stored op index completion
    next.currentPacket.length.length = 4 ∧
      next.Resumes ⟨op.target, op.offset + completion.bytes.length,
        op.size - completion.bytes.length⟩ := by
  unfold Resumes at hresumes
  cases htarget : op.target with
  | packetLength =>
      simp only [htarget] at hresumes
      obtain ⟨hoffset, hreceived⟩ := hresumes
      have hfits : op.offset + completion.bytes.length ≤
          connection.currentPacket.length.length := by omega
      simp only [Connection.stored, Resumes, htarget, CastPacket.store,
        CastPacket.length_overwrite hfits, CastPacket.take_overwrite hfits,
        hreceived, List.append_assoc, hlength, and_true, true_and]
      omega
  | packetData =>
      simp only [htarget] at hresumes
      obtain ⟨hdata, hoffset, hreceived⟩ := hresumes
      have hfits : op.offset + completion.bytes.length ≤
          connection.currentPacket.data.length := by omega
      simp only [Connection.stored, Resumes, htarget, CastPacket.store,
        CastPacket.length_overwrite hfits, CastPacket.take_overwrite hfits,
        hreceived, List.append_assoc, hlength, hdata, and_true, true_and]
      omega

theorem Resumes.frame_complete {connection : Connection} {offset : ℕ}
    (hlength : connection.currentPacket.length.length = 4)
    (hresumes : connection.Resumes ⟨.packetData, offset, 0⟩) :
    connection.currentPacket.body.length < 2 ^ 32 ∧
      connection.received = bigEndian32.frames
        (connection.bodies ++ [connection.currentPacket.body]) := by
  simp only [Resumes, Nat.add_zero] at hresumes
  obtain ⟨hdata, hoffset, hreceived⟩ := hresumes
  rw [CastPacket.body_eq_data hdata]
  refine ⟨hdata ▸ decodeBigEndian32_lt hlength, ?_⟩
  have hframe := bigEndian32.frame_of_decode hlength hdata
  rw [hreceived, hoffset, List.take_length, bigEndian32.frames_append,
    LengthHeader.frames_cons, LengthHeader.frames_nil, List.append_nil,
    hframe]

/-- A full read of a body ends the frame. -/
theorem Resumes.body_complete {connection : Connection} {op : ReadOp}
    {completion : ReadCompletion}
    (hresumes : connection.Resumes ⟨op.target,
      op.offset + completion.bytes.length,
      op.size - completion.bytes.length⟩)
    (hlength : connection.currentPacket.length.length = 4)
    (hlt : ∀ body ∈ connection.bodies, body.length < 2 ^ 32)
    (hfull : ¬completion.Short op) (htarget : op.target = .packetData) :
    (∀ body ∈ connection.bodies ++ [connection.currentPacket.body],
        body.length < 2 ^ 32) ∧
      connection.received = bigEndian32.frames
        (connection.bodies ++ [connection.currentPacket.body]) := by
  simp only [ReadCompletion.Short, not_or, not_not] at hfull
  rw [hfull.2, htarget, Nat.sub_self] at hresumes
  obtain ⟨hdata, hframes⟩ := hresumes.frame_complete hlength
  exact ⟨List.forall_mem_append.mpr
    ⟨hlt, List.forall_mem_singleton.mpr hdata⟩, hframes⟩

/-! ## The framing round trip -/

def ProbeSucceeds (_ : Connection) : Event → Prop
  | .readCompleted _ completion => completion.probeError = none
  | _ => True

instance (connection : Connection) :
    (event : Event) → Decidable (ProbeSucceeds connection event)
  | .construct _ _ => .isTrue trivial
  | .destroy _ => .isTrue trivial
  | .write _ => .isTrue trivial
  | .readCompleted _ completion =>
      inferInstanceAs (Decidable (completion.probeError = none))

def Dispatched (codec : ProtobufCodec) (call : CastMessage × Outcome Unit)
    (body : List UInt8) : Prop :=
  CastMessage.load codec {} body = .ok call.1 ∧ call.2 = .ok ()

/-- The reader while the input is a prefix of a good stream and no call of
`OnMessage` has raised: each body read was dispatched. -/
structure Dispatching (codec : ProtobufCodec) (connection : Connection) :
    Prop where
  aligned : connection.Aligned
  dispatched : List.Forall₂ (Dispatched codec) connection.calls
    connection.bodies

theorem dispatching_ready (garbage : Fin 4 → UInt8) :
    (ready garbage).Dispatching codec :=
  ⟨aligned_ready garbage, .nil⟩

theorem bodies_prefix {bodies sent : List (List UInt8)}
    (rest : List UInt8)
    (hbodies : ∀ body ∈ bodies, body.length < 2 ^ 32)
    (hsent : ∀ body ∈ sent, body.length < 2 ^ 32)
    (hbegins : bigEndian32.frames bodies ++ rest <+:
      bigEndian32.frames sent) : bodies <+: sent := by
  obtain ⟨later, hlater⟩ := hbegins
  rw [List.append_assoc] at hlater
  obtain ⟨more, hmore, -⟩ := bigEndian32.frames_prefix hbodies hsent
    (by decide) hlater
  exact ⟨more, hmore.symm⟩

theorem Dispatching.readStep {connection next : Connection}
    {index : ℕ} {completion : ReadCompletion} {op : ReadOp}
    (hdispatching : connection.Dispatching codec)
    (hop : connection.reads[index]? = some op)
    (hsize : completion.bytes.length ≤ op.size)
    (hread : ReadStep codec strings op completion
      (connection.stored op index completion) next)
    (hprobe : completion.probeError = none)
    {sent : List (List UInt8)}
    (hsent : ∀ body ∈ sent, body.length < 2 ^ 32)
    (hloads : ∀ body ∈ sent, ∃ message,
      CastMessage.load codec {} body = .ok message)
    (hreceived : next.received <+: bigEndian32.frames sent)
    (hcalls : ∀ call ∈ next.calls, call.2 = .ok ()) :
    next.Dispatching codec := by
  obtain ⟨only, hreads, hresumes⟩ := hdispatching.aligned.resumes
  have hindex : index = 0 ∧ op = only := by
    rw [hreads] at hop
    cases index with
    | zero => simpa [eq_comm] using hop
    | succ n => simp at hop
  obtain ⟨rfl, rfl⟩ := hindex
  obtain ⟨hlength, hafter⟩ :=
    hresumes.stored hdispatching.aligned.length_eq hsize 0
  have hnone : (connection.stored op 0 completion).reads = [] := by
    simp [stored, hreads]
  have hbodies : (connection.stored op 0 completion).bodies =
      connection.bodies := rfl
  have hlt := hdispatching.aligned.bodies_lt
  have hfull := hafter.body_complete hlength hlt
  cases hread with
  | probeFailed hshort error hfailed fault =>
      rw [hprobe] at hfailed
      contradiction
  | resumed hshort =>
      refine ⟨⟨hlength, hlt, ?_⟩, hdispatching.dispatched⟩
      refine ⟨⟨op.target, op.offset + completion.bytes.length,
        op.size - completion.bytes.length⟩, ?_, hafter⟩
      simp [startReading, hnone]
  | lengthRead hfull htarget =>
      simp only [ReadCompletion.Short, not_or, not_not] at hfull
      rw [hfull.2, htarget, Nat.sub_self] at hafter
      simp only [Resumes, Nat.add_zero] at hafter
      refine ⟨⟨hlength, hlt, ?_⟩, hdispatching.dispatched⟩
      refine ⟨⟨.packetData, 0, decodeBigEndian32
        (connection.stored op 0 completion).currentPacket.length⟩, ?_, ?_⟩
      · simp [packetLengthRead, startReadingData, startReading, hnone]
      · simp [Resumes, packetLengthRead, startReadingData, startReading,
          hafter.2, hafter.1, List.take_of_length_le, hlength]
  | undecodable hnotShort htarget fault hload =>
      obtain ⟨hdata, hframes⟩ := hfull hnotShort htarget
      have hprefix : connection.bodies ++
          [(connection.stored op 0 completion).currentPacket.body] <+:
            sent := by
        apply bodies_prefix [] hdata hsent
        rw [List.append_nil, ← hframes]
        exact hreceived
      have hmem := hprefix.subset (List.mem_append_right _
        (List.mem_singleton_self _))
      obtain ⟨message, hmessage⟩ := hloads _ hmem
      rw [hload] at hmessage
      contradiction
  | undelivered hnotShort htarget message fault hload houtcome =>
      have hraised := hcalls (message, .error fault) (by simp [escape])
      contradiction
  | dispatched hnotShort htarget message hload houtcome =>
      obtain ⟨hdata, hframes⟩ := hfull hnotShort htarget
      refine ⟨⟨hlength, hdata, ?_⟩, ?_⟩
      · refine ⟨⟨.packetLength, 0, 4⟩, ?_, rfl, ?_⟩
        · simp [startReadingPacketLength, startReading, hnone]
        · simpa [startReadingPacketLength, startReading, hbodies]
            using hframes
      · exact List.rel_append hdispatching.dispatched
          (.cons ⟨hload, rfl⟩ .nil)

theorem step_grows {connection next : Connection} {event : Event}
    (h : connection.step codec strings event = some next) :
    connection.received <+: next.received ∧
      connection.calls <+: next.calls := by
  cases step_cases h with
  | construct => exact ⟨List.prefix_rfl, List.prefix_rfl⟩
  | destroy => exact ⟨List.prefix_rfl, List.prefix_rfl⟩
  | write => exact ⟨List.prefix_rfl, List.prefix_rfl⟩
  | readCompleted index completion op next hop hsize hread =>
      cases hread with
      | probeFailed => exact ⟨List.prefix_append _ _, List.prefix_rfl⟩
      | resumed => exact ⟨List.prefix_append _ _, List.prefix_rfl⟩
      | lengthRead => exact ⟨List.prefix_append _ _, List.prefix_rfl⟩
      | undecodable => exact ⟨List.prefix_append _ _, List.prefix_rfl⟩
      | undelivered =>
          exact ⟨List.prefix_append _ _, List.prefix_append _ _⟩
      | dispatched =>
          exact ⟨List.prefix_append _ _, List.prefix_append _ _⟩

theorem run_grows {connection last : Connection} {events : List Event}
    (hrun : exec (Connection.step codec strings) connection events =
      some last) :
    connection.received <+: last.received ∧
      connection.calls <+: last.calls := by
  refine exec_relation
    (fun before after : Connection => before.received <+: after.received ∧
      before.calls <+: after.calls) ?_ ?_ ?_ hrun
  · intro state
    exact ⟨List.prefix_rfl, List.prefix_rfl⟩
  · intro a b c hab hbc
    exact ⟨hab.1.trans hbc.1, hab.2.trans hbc.2⟩
  · intro state event next hstep
    exact step_grows hstep

/-- The reader dispatches throughout a run whose input is a prefix of a stream
of loadable bodies, as long as no probe and no call of `OnMessage` raises. -/
theorem Dispatching.run {connection last : Connection}
    {events : List Event}
    (hdispatching : connection.Dispatching codec)
    (hrun : exec (Connection.step codec strings) connection events =
      some last)
    (hprobe : Along (Connection.step codec strings) ProbeSucceeds
      connection events)
    {sent : List (List UInt8)}
    (hsent : ∀ body ∈ sent, body.length < 2 ^ 32)
    (hloads : ∀ body ∈ sent, ∃ message,
      CastMessage.load codec {} body = .ok message)
    (hreceived : last.received <+: bigEndian32.frames sent)
    (hcalls : ∀ call ∈ last.calls, call.2 = .ok ()) :
    last.Dispatching codec := by
  induction events generalizing connection with
  | nil =>
      cases hrun
      exact hdispatching
  | cons event rest ih =>
      obtain ⟨next, hstep, hrest⟩ := exec_cons_eq_some.mp hrun
      have hgrows := run_grows hrest
      refine ih ?_ hrest (hprobe.2 next hstep)
      have haligned := hdispatching.aligned
      cases step_cases hstep with
      | construct =>
          exact ⟨⟨haligned.1, haligned.2, haligned.3⟩,
            hdispatching.dispatched⟩
      | destroy =>
          exact ⟨⟨haligned.1, haligned.2, haligned.3⟩,
            hdispatching.dispatched⟩
      | write =>
          exact ⟨⟨haligned.1, haligned.2, haligned.3⟩,
            hdispatching.dispatched⟩
      | readCompleted index completion op next hop hsize hread =>
          exact hdispatching.readStep hop hsize hread hprobe.1 hsent hloads
            (hgrows.1.trans hreceived)
            (fun call hcall => hcalls call (hgrows.2.subset hcall))

theorem Aligned.received_eq {connection : Connection}
    (haligned : connection.Aligned) :
    ∃ rest, connection.received =
      bigEndian32.frames connection.bodies ++ rest := by
  obtain ⟨op, -, hresumes⟩ := haligned.resumes
  unfold Resumes at hresumes
  cases htarget : op.target with
  | packetLength =>
      simp only [htarget] at hresumes
      exact ⟨_, hresumes.2⟩
  | packetData =>
      simp only [htarget] at hresumes
      exact ⟨_, hresumes.2.2⟩

/-- Any fragmentation of the frames of accepted messages is dispatched message
by message: at any moment the calls of `OnMessage` carry the contents of the
first messages, and of all of them once every byte is received and no read
of zero bytes is still to complete. -/
theorem calls_of_stream {writes : List Outgoing.Event} {sender : Outgoing}
    {garbage : Fin 4 → UInt8} {events : List Event} {last : Connection}
    (haccepted : ∀ message ∈ writes.filterMap Outgoing.Event.message,
      Outgoing.Accepted codec message)
    (hsend : exec (Outgoing.step codec) {} writes = some sender)
    (hrun : exec (Connection.step codec strings) (ready garbage) events =
      some last)
    (hprobe : Along (Connection.step codec strings) ProbeSucceeds
      (ready garbage) events)
    (hreceived : last.received <+: sender.issued.flatten)
    (hcalls : ∀ call ∈ last.calls, call.2 = .ok ()) :
    ∃ done, done <+: writes.filterMap Outgoing.Event.message ∧
      List.Forall₂
        (fun message call => CastMessage.SameContent call.1 message)
        done last.calls ∧
      (last.received = sender.issued.flatten →
        (∀ op ∈ last.reads, 0 < op.size) →
          done = writes.filterMap Outgoing.Event.message) := by
  have hissued := Outgoing.issued_of_run haccepted hsend
  generalize writes.filterMap Outgoing.Event.message = messages
    at haccepted hissued ⊢
  have hframes : sender.issued.flatten = bigEndian32.frames
      (messages.map (Outgoing.savedBody codec)) := by
    rw [hissued]
    simp [LengthHeader.frames, List.flatMap, Function.comp_def]
  have hlt : ∀ body ∈ messages.map (Outgoing.savedBody codec),
      body.length < 2 ^ 32 := by
    intro body hbody
    obtain ⟨message, hmessage, rfl⟩ := List.mem_map.mp hbody
    have hlimit := (haccepted message hmessage).save_eq.2
    unfold codedInputLimit at hlimit
    omega
  have hloads : ∀ body ∈ messages.map (Outgoing.savedBody codec),
      ∃ message, CastMessage.load codec {} body = .ok message := by
    intro body hbody
    obtain ⟨message, hmessage, rfl⟩ := List.mem_map.mp hbody
    obtain ⟨loaded, hload, -⟩ := (haccepted message hmessage).load
    exact ⟨loaded, hload⟩
  rw [hframes] at hreceived ⊢
  have hdispatching := (dispatching_ready garbage).run hrun hprobe hlt
    hloads hreceived hcalls
  have haligned := hdispatching.aligned
  -- the bodies read so far are the first ones sent
  obtain ⟨rest, hrest⟩ := haligned.received_eq
  have hbodies : last.bodies <+: messages.map (Outgoing.savedBody codec) :=
    bodies_prefix rest haligned.bodies_lt hlt (hrest ▸ hreceived)
  have htake : last.bodies =
      (messages.take last.bodies.length).map (Outgoing.savedBody codec) := by
    rw [List.map_take]
    exact List.prefix_iff_eq_take.mp hbodies
  refine ⟨messages.take last.bodies.length, List.take_prefix _ _, ?_, ?_⟩
  · have hdone := hdispatching.dispatched.flip
    rw [htake, List.forall₂_map_left_iff] at hdone
    have hboth := (List.forall₂_and_left _ _).mpr
      ⟨fun message hmessage =>
        haccepted message (List.mem_of_mem_take hmessage), hdone⟩
    apply hboth.imp
    intro message call hmessage
    obtain ⟨loaded, hload, hsame⟩ := hmessage.1.load
    have hcall : CastMessage.load codec {}
        (Outgoing.savedBody codec message) = .ok call.1 := hmessage.2.1
    rw [hcall] at hload
    cases hload
    exact hsame
  · intro hall hwaits
    obtain ⟨tail, hincomplete, htail⟩ := haligned.incomplete hwaits
    have hsame := bigEndian32.frames_append_inj haligned.bodies_lt hlt
      (by decide) hincomplete (htail ▸ hall)
    rw [hsame.1, List.length_map, List.take_length]

def sampleReply : CastMessage :=
  { CastMessage.sample with payloadUtf8 := lit "hi" }

/-- The frames of two messages, each part of a frame cut in two or three. -/
def sampleFragments : List Event :=
  let read (error : Bool) (bytes : List UInt8) : Event :=
    .readCompleted 0 ⟨error, bytes, none, fun _ => .ok ()⟩
  [.construct 0 ⟨lit "s", lit "r", lit "n"⟩,
    read true [0, 0], read false [0, 15],
    read false [8, 0, 18],
    read false [1, 114, 26, 1, 115, 34, 1, 110, 40, 0, 50, 0],
    read false [0], read true [0, 0], read false [17],
    read false [8, 0, 18, 1, 114, 26, 1, 115, 34],
    read false [1, 110, 40, 0, 50, 2, 104, 105]]

theorem calls_of_stream_sample :
    ∃ sender last,
      exec (Outgoing.step googleCodec) {}
          [.asyncWrite .sample, .asyncWrite sampleReply] = some sender ∧
        exec (Connection.step googleCodec .unit) (ready fun _ => 7)
          sampleFragments = some last ∧
        List.Forall₂
          (fun message call => CastMessage.SameContent call.1 message)
          [.sample, sampleReply] last.calls := by
  have haccepted : ∀ message ∈
      [Outgoing.Event.asyncWrite .sample, .asyncWrite sampleReply].filterMap
        Outgoing.Event.message, Outgoing.Accepted googleCodec message := by
    intro message hmessage
    change message ∈ [CastMessage.sample, sampleReply] at hmessage
    rw [List.mem_cons, List.mem_singleton] at hmessage
    rcases hmessage with rfl | rfl
    · exact ⟨[8, 0, 18, 1, 114, 26, 1, 115, 34, 1, 110, 40, 0, 50, 0], rfl,
        by decide⟩
    · exact ⟨[8, 0, 18, 1, 114, 26, 1, 115, 34, 1, 110, 40, 0, 50, 2, 104,
        105], rfl, by decide⟩
  obtain ⟨sender, hsend, hissued⟩ : ∃ sender,
      exec (Outgoing.step googleCodec) {}
          [.asyncWrite .sample, .asyncWrite sampleReply] = some sender ∧
        sender.issued = [[0, 0, 0, 15, 8, 0, 18, 1, 114, 26, 1, 115, 34, 1,
            110, 40, 0, 50, 0],
          [0, 0, 0, 17, 8, 0, 18, 1, 114, 26, 1, 115, 34, 1, 110, 40, 0, 50,
            2, 104, 105]] := ⟨_, rfl, rfl⟩
  obtain ⟨last, hrun, hreceived, hcalls, hwaits⟩ : ∃ last,
      exec (Connection.step googleCodec .unit) (ready fun _ => 7)
          sampleFragments = some last ∧
        last.received = sender.issued.flatten ∧
        (∀ call ∈ last.calls, call.2 = .ok ()) ∧
        ∀ op ∈ last.reads, 0 < op.size := by
    rw [hissued]
    refine ⟨_, rfl, rfl, ?_, ?_⟩ <;> decide
  obtain ⟨done, -, hdone, hcomplete⟩ := calls_of_stream haccepted hsend hrun
    (by decide) (hreceived ▸ List.prefix_rfl) hcalls
  rw [hcomplete hreceived hwaits] at hdone
  exact ⟨sender, last, hsend, hrun, hdone⟩

end Connection

end LibChromecast
