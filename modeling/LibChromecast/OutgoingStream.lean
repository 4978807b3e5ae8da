import Mathlib.Data.List.Perm.Basic
import LibChromecast.Connection
import LibChromecast.GoogleCastMessage

/-!
# What the peer reads

Two questions about the outgoing bytes.  Composed writes that are outstanding
together share the socket: the stream is whole frames as long as no write
goes on while another one is part way through, which is what `Exclusive` asks
and nothing in the source enforces.  And the liveness probe of the reader
writes a byte of its own, so that the stream is the frames alone exactly as
long as no probe succeeds.
-/

namespace LibChromecast

open Foundation Foundation.LengthPrefix Foundation.Transition

def CastMessage.sample : CastMessage :=
  { address := ⟨lit "r", lit "s", lit "n"⟩ }

namespace Outgoing

variable {codec : ProtobufCodec}

/-! ## The frames issued -/

def Event.message : Event → Option CastMessage
  | .asyncWrite message => some message
  | .writeSome _ _ => none

def savedBody (codec : ProtobufCodec) (message : CastMessage) :
    List UInt8 :=
  (message.save codec).toOption.getD []

/-- `Serialize` accepts the message, and the body is one a coded stream can
read back. -/
def Accepted (codec : ProtobufCodec) (message : CastMessage) : Prop :=
  ∃ body, message.save codec = .ok body ∧ body.length < codedInputLimit

theorem Accepted.save_eq {message : CastMessage}
    (haccepted : Accepted codec message) :
    message.save codec = .ok (savedBody codec message) ∧
      (savedBody codec message).length < codedInputLimit := by
  obtain ⟨body, hsave, hlimit⟩ := haccepted
  simpa [savedBody, hsave, Except.toOption] using hlimit

theorem Accepted.load {message : CastMessage}
    (haccepted : Accepted codec message) :
    ∃ loaded, CastMessage.load codec {} (savedBody codec message) =
        .ok loaded ∧ CastMessage.SameContent loaded message := by
  obtain ⟨hsave, hlimit⟩ := haccepted.save_eq
  exact CastMessage.load_save codec hsave hlimit {}

theorem frameOf_of_save {message : CastMessage} {body : List UInt8}
    (hsave : message.save codec = .ok body) :
    frameOf codec message = .ok (bigEndian32.frame body) := by
  simp only [frameOf, hsave, bind, Except.bind, pure, Except.pure]
  rfl

theorem writeSome_eq_some {index count : ℕ} {out next : Outgoing}
    (h : out.writeSome index count = some next) :
    ∃ before op after, out.pending = before ++ op :: after ∧
      before.length = index ∧ 0 < count ∧
      next.sent = out.sent ++ op.remaining.take count ∧
      next.issued = out.issued ∧
      ((op.transferred + count = op.frame.length ∧
          next.pending = before ++ after) ∨
        (op.transferred + count < op.frame.length ∧
          next.pending = before ++
            { op with transferred := op.transferred + count } ::
              after)) := by
  unfold writeSome at h
  dsimp only at h
  split at h
  next => contradiction
  next op hop =>
    obtain ⟨hindex, hget⟩ := List.getElem?_eq_some_iff.mp hop
    have hsplit : out.pending =
        out.pending.take index ++ op :: out.pending.drop (index + 1) := by
      rw [← hget, ← List.drop_eq_getElem_cons hindex,
        List.take_append_drop]
    have hbefore : (out.pending.take index).length = index := by
      rw [List.length_take]
      omega
    split_ifs at h with hcount hlast
    · cases h
      refine ⟨_, op, _, hsplit, hbefore, hcount.1, rfl, rfl,
        Or.inl ⟨hlast, ?_⟩⟩
      exact List.eraseIdx_eq_take_drop_succ ..
    · cases h
      refine ⟨_, op, _, hsplit, hbefore, hcount.1, rfl, rfl,
        Or.inr ⟨?_, ?_⟩⟩
      · have hroom := hcount.2
        rw [WriteOp.remaining, List.length_drop] at hroom
        omega
      · dsimp only
        rw [List.set_eq_take_append_cons_drop, if_pos hindex]

/-- The frames issued by a run of writes are those of the messages handed to
`AsyncWrite`, in call order. -/
theorem issued_of_run {out last : Outgoing} {writes : List Event}
    (haccepted : ∀ message ∈ writes.filterMap Event.message,
      Accepted codec message)
    (hrun : exec (Outgoing.step codec) out writes = some last) :
    last.issued = out.issued ++
      (writes.filterMap Event.message).map
        fun message => bigEndian32.frame (savedBody codec message) := by
  induction writes generalizing out with
  | nil =>
      cases hrun
      simp
  | cons event rest ih =>
      obtain ⟨next, hstep, hrest⟩ := exec_cons_eq_some.mp hrun
      cases event with
      | asyncWrite message =>
          have hmessages : (Event.asyncWrite message :: rest).filterMap
              Event.message = message :: rest.filterMap Event.message := rfl
          rw [hmessages] at haccepted ⊢
          have hframe := frameOf_of_save
            (haccepted message (List.mem_cons_self ..)).save_eq.1
          cases hstep
          rw [ih (fun m hm => haccepted m (List.mem_cons_of_mem _ hm)) hrest]
          simp [asyncWrite, hframe]
      | writeSome index count =>
          have hmessages : (Event.writeSome index count :: rest).filterMap
              Event.message = rest.filterMap Event.message := rfl
          rw [hmessages] at haccepted ⊢
          obtain ⟨-, -, -, -, -, -, -, hissued, -⟩ :=
            writeSome_eq_some hstep
          rw [ih haccepted hrest, hissued]

/-! ## Outstanding writes -/

def partialBytes (out : Outgoing) : List UInt8 :=
  out.pending.flatMap fun op => op.frame.take op.transferred

/-- The peer can read the stream frame by frame: it is whole frames, followed
by the beginning of at most one outstanding one, and every frame issued is
whole or outstanding. -/
structure Contiguous (out : Outgoing) : Prop where
  framed : ∀ frame ∈ out.issued, ∃ body : List UInt8,
    body.length < 2 ^ 32 ∧ frame = encodeBigEndian32 body.length ++ body
  sent_eq : ∃ whole begun,
    out.sent = List.flatten whole ++ begun ∧
      (whole ++ out.pending.map WriteOp.frame).Perm out.issued ∧
      (begun = [] ∨ ∃ op ∈ out.pending, begun <+: op.frame)

/-- A write goes on only while no other one is part way through, and a body
is one whose length has 32 bits. -/
def Exclusive (codec : ProtobufCodec) (out : Outgoing) : Event → Prop
  | .asyncWrite message => (savedBody codec message).length < 2 ^ 32
  | .writeSome index _ =>
      ∀ op ∈ out.pending.eraseIdx index, op.transferred = 0

instance (out : Outgoing) :
    (event : Event) → Decidable (Exclusive codec out event)
  | .asyncWrite message =>
      inferInstanceAs
        (Decidable ((savedBody codec message).length < 2 ^ 32))
  | .writeSome index _ =>
      inferInstanceAs
        (Decidable (∀ op ∈ out.pending.eraseIdx index, op.transferred = 0))

/-- What holds as long as writes are exclusive: one outstanding write at most
is begun, and the stream is whole frames and what was taken of it. -/
structure Serialized (out : Outgoing) : Prop where
  framed : ∀ frame ∈ out.issued, ∃ body : List UInt8,
    body.length < 2 ^ 32 ∧ frame = encodeBigEndian32 body.length ++ body
  one_begun : out.pending.Pairwise fun a b =>
    a.transferred = 0 ∨ b.transferred = 0
  sent_eq : ∃ whole, out.sent = List.flatten whole ++ out.partialBytes ∧
    (whole ++ out.pending.map WriteOp.frame).Perm out.issued

theorem partialBytes_eq_nil {ops : List WriteOp}
    (hzero : ∀ op ∈ ops, op.transferred = 0) :
    (ops.flatMap fun op => op.frame.take op.transferred) = [] := by
  rw [List.flatMap_eq_nil_iff]
  intro op hop
  rw [hzero op hop, List.take_zero]

theorem partialBytes_eq_take {before after : List WriteOp} {op : WriteOp}
    (hzero : ∀ other ∈ before ++ after, other.transferred = 0) :
    ((before ++ op :: after).flatMap fun op =>
      op.frame.take op.transferred) = op.frame.take op.transferred := by
  rw [List.forall_mem_append] at hzero
  rw [List.flatMap_append, List.flatMap_cons,
    partialBytes_eq_nil hzero.1, partialBytes_eq_nil hzero.2,
    List.nil_append, List.append_nil]

theorem pairwise_of_others {before after : List WriteOp} {op : WriteOp}
    (hzero : ∀ other ∈ before ++ after, other.transferred = 0) :
    (before ++ op :: after).Pairwise fun a b =>
      a.transferred = 0 ∨ b.transferred = 0 := by
  rw [List.forall_mem_append] at hzero
  rw [List.pairwise_append, List.pairwise_cons]
  refine ⟨?_, ⟨?_, ?_⟩, ?_⟩
  · exact List.pairwise_of_forall_mem_list fun a ha _ _ =>
      Or.inl (hzero.1 a ha)
  · intro b hb
    exact Or.inr (hzero.2 b hb)
  · exact List.pairwise_of_forall_mem_list fun a ha _ _ =>
      Or.inl (hzero.2 a ha)
  · intro a ha b _
    exact Or.inl (hzero.1 a ha)

theorem begun_or_nil {ops : List WriteOp}
    (hone : ops.Pairwise fun a b =>
      a.transferred = 0 ∨ b.transferred = 0) :
    (ops.flatMap fun op => op.frame.take op.transferred) = [] ∨
      ∃ op ∈ ops,
        (ops.flatMap fun op => op.frame.take op.transferred) <+:
          op.frame := by
  induction ops with
  | nil => exact Or.inl rfl
  | cons first rest ih =>
      obtain ⟨hfirst, hrest⟩ := List.pairwise_cons.mp hone
      rw [List.flatMap_cons]
      by_cases hbegun : first.transferred = 0
      · rw [hbegun, List.take_zero, List.nil_append]
        rcases ih hrest with hnil | ⟨op, hop, hprefix⟩
        · exact Or.inl hnil
        · exact Or.inr ⟨op, List.mem_cons_of_mem _ hop, hprefix⟩
      · have hzero : ∀ op ∈ rest, op.transferred = 0 := by
          intro op hop
          exact (hfirst op hop).resolve_left hbegun
        refine Or.inr ⟨first, List.mem_cons_self .., ?_⟩
        rw [partialBytes_eq_nil hzero, List.append_nil]
        exact List.take_prefix _ _

theorem Serialized.contiguous {out : Outgoing} (h : out.Serialized) :
    out.Contiguous := by
  obtain ⟨whole, hsent, hperm⟩ := h.sent_eq
  exact ⟨h.framed, whole, out.partialBytes, hsent, hperm,
    begun_or_nil h.one_begun⟩

theorem serialized_empty : ({} : Outgoing).Serialized where
  framed := by
    intro frame hframe
    contradiction
  one_begun := List.Pairwise.nil
  sent_eq := ⟨[], rfl, List.Perm.refl _⟩

theorem Serialized.asyncWrite {out : Outgoing} (h : out.Serialized)
    (message : CastMessage)
    (hlength : (savedBody codec message).length < 2 ^ 32) :
    (out.asyncWrite codec message).2.Serialized := by
  cases hsave : message.save codec with
  | error fault =>
      have hframe : frameOf codec message = .error fault := by
        simp [frameOf, hsave, bind, Except.bind]
      simpa [Outgoing.asyncWrite, hframe] using h
  | ok body =>
      simp only [Outgoing.asyncWrite, frameOf_of_save hsave]
      obtain ⟨whole, hsent, hperm⟩ := h.sent_eq
      refine ⟨?_, ?_, whole, ?_, ?_⟩
      · rw [List.forall_mem_append, List.forall_mem_singleton]
        refine ⟨h.framed, body, ?_, rfl⟩
        simpa [savedBody, hsave, Except.toOption] using hlength
      · rw [List.pairwise_append]
        refine ⟨h.one_begun, List.pairwise_singleton _ _, ?_⟩
        intro a _ b hb
        rw [List.mem_singleton.mp hb]
        exact Or.inr rfl
      · simpa [partialBytes] using hsent
      · rw [List.map_append, ← List.append_assoc]
        exact hperm.append_right _

theorem Serialized.writeSome {out next : Outgoing} (h : out.Serialized)
    {index count : ℕ}
    (hexclusive : Exclusive codec out (.writeSome index count))
    (hwrite : out.writeSome index count = some next) :
    next.Serialized := by
  obtain ⟨before, op, after, hpending, rfl, hcount, hsent, hissued, hlast⟩ :=
    writeSome_eq_some hwrite
  have hzero : ∀ other ∈ before ++ after, other.transferred = 0 := by
    simpa [Exclusive, hpending, List.eraseIdx_append_of_length_le]
      using hexclusive
  obtain ⟨whole, hwhole, hperm⟩ := h.sent_eq
  have hstream : next.sent =
      whole.flatten ++ op.frame.take (op.transferred + count) := by
    have hbegun : out.partialBytes = op.frame.take op.transferred := by
      rw [partialBytes, hpending]
      exact partialBytes_eq_take hzero
    rw [hsent, hwhole, hbegun, List.append_assoc, List.take_add]
    rfl
  rw [hpending] at hperm
  rcases hlast with ⟨hend, hnext⟩ | ⟨-, hnext⟩
  · refine ⟨hissued ▸ h.framed, ?_, whole ++ [op.frame], ?_, ?_⟩
    · rw [hnext]
      exact List.pairwise_of_forall_mem_list fun a ha _ _ =>
        Or.inl (hzero a ha)
    · rw [hstream, hend, List.take_length, partialBytes, hnext,
        partialBytes_eq_nil hzero]
      simp
    · rw [hnext, hissued]
      refine List.Perm.trans ?_ hperm
      simp only [List.map_append, List.map_cons, List.append_assoc,
        List.singleton_append]
      exact List.perm_middle.symm.append_left _
  · refine ⟨hissued ▸ h.framed, ?_, whole, ?_, ?_⟩
    · rw [hnext]
      exact pairwise_of_others hzero
    · rw [hstream, partialBytes, hnext, partialBytes_eq_take hzero]
    · rw [hnext, hissued]
      simpa using hperm

/-- In every run whose writes are exclusive, what has reached the peer is
contiguous at every moment. -/
theorem contiguous_throughout {events : List Event}
    (hexclusive : Along (Outgoing.step codec) (Exclusive codec) {}
      events) :
    Throughout (Outgoing.step codec) Contiguous {} events := by
  have hserialized : Throughout (Outgoing.step codec) Serialized {}
      events := by
    refine throughout_of_along ?_ serialized_empty hexclusive
    intro out event next hout hevent hstep
    cases event with
    | asyncWrite message =>
        cases hstep
        exact hout.asyncWrite message hevent
    | writeSome index count => exact hout.writeSome hevent hstep
  exact throughout_mono (fun _ hout => hout.contiguous) hserialized

theorem contiguous_throughout_sample :
    Throughout (Outgoing.step googleCodec) Contiguous {}
      [.asyncWrite .sample, .asyncWrite .sample, .writeSome 0 4,
        .writeSome 0 15, .writeSome 0 19] :=
  contiguous_throughout (by decide)

/-- Two writes of one message take turns: the peer reads a body that begins
with the second frame's length. -/
theorem not_contiguous_sample :
    ∃ last, exec (Outgoing.step googleCodec) {}
        [.asyncWrite .sample, .asyncWrite .sample, .writeSome 0 4,
          .writeSome 1 19, .writeSome 0 15] = some last ∧
      ¬last.Contiguous := by
  let header : List UInt8 := [0, 0, 0, 15]
  let body : List UInt8 :=
    [8, 0, 18, 1, 114, 26, 1, 115, 34, 1, 110, 40, 0, 50, 0]
  obtain ⟨last, hrun, hpending, hissued, hstream⟩ : ∃ last,
      exec (Outgoing.step googleCodec) {}
          [.asyncWrite .sample, .asyncWrite .sample, .writeSome 0 4,
            .writeSome 1 19, .writeSome 0 15] = some last ∧
        last.pending = [] ∧
        last.issued = List.replicate 2 (header ++ body) ∧
        last.sent = header ++ (header ++ body) ++ body :=
    ⟨_, rfl, rfl, rfl, rfl⟩
  refine ⟨last, hrun, ?_⟩
  intro hcontiguous
  obtain ⟨whole, begun, hsent, hperm, hbegun⟩ := hcontiguous.sent_eq
  rw [hpending] at hperm hbegun
  rw [hissued, List.map_nil, List.append_nil, List.perm_replicate] at hperm
  have hnil : begun = [] := by simpa using hbegun
  rw [hperm, hnil, hstream] at hsent
  exact absurd hsent (by decide)

end Outgoing

/-! ## The liveness probe -/

namespace Connection

variable {codec : ProtobufCodec} {strings : StringCompare}

def WritesAlone (connection : Connection) : Event → Prop
  | .write (.asyncWrite _) => connection.outgoing.pending = []
  | _ => True

instance (connection : Connection) :
    (event : Event) → Decidable (WritesAlone connection event)
  | .write (.asyncWrite _) =>
      inferInstanceAs (Decidable (connection.outgoing.pending = []))
  | .write (.writeSome _ _) => .isTrue trivial
  | .construct _ _ => .isTrue trivial
  | .destroy _ => .isTrue trivial
  | .readCompleted _ _ => .isTrue trivial

def serialStep (codec : ProtobufCodec) (strings : StringCompare)
    (connection : Connection) (event : Event) : Option Connection :=
  if WritesAlone connection event then
    connection.step codec strings event
  else none

/-- The bytes written are the frames passed to `AsyncWrite`, up to what is
outstanding of the last one. -/
def WritesFrames (connection : Connection) : Prop :=
  connection.outgoing.sent ++ connection.outgoing.untransferred =
    connection.outgoing.issued.flatten

/-- The event is not a short read which a successful probe recovers. -/
def NoProbe (connection : Connection) : Event → Prop
  | .readCompleted index completion =>
      ∀ op, connection.reads[index]? = some op → completion.Short op →
        completion.probeError ≠ none
  | _ => True

theorem ReadStep.writesFrames_iff {op : ReadOp}
    {completion : ReadCompletion} {connection next : Connection}
    (h : ReadStep codec strings op completion connection next)
    (hframes : connection.WritesFrames) :
    next.WritesFrames ↔
      (completion.Short op → completion.probeError ≠ none) := by
  cases h with
  | probeFailed hshort error hprobe =>
      refine iff_of_true hframes fun _ => ?_
      rw [hprobe]
      exact Option.some_ne_none error
  | resumed hshort hprobe =>
      apply iff_of_false
      · intro hnext
        unfold WritesFrames at hnext hframes
        have hlength : connection.outgoing.sent.length + 1 +
            connection.outgoing.untransferred.length =
              connection.outgoing.issued.flatten.length := by
          rw [← List.length_singleton (a := (0 : UInt8)),
            ← List.length_append, ← List.length_append]
          exact congrArg List.length hnext
        have hsame := congrArg List.length hframes
        rw [List.length_append] at hsame
        omega
      · intro hfailed
        exact hfailed hshort hprobe
  | lengthRead hfull =>
      exact iff_of_true hframes fun hshort => absurd hshort hfull
  | undecodable hfull =>
      exact iff_of_true hframes fun hshort => absurd hshort hfull
  | undelivered hfull =>
      exact iff_of_true hframes fun hshort => absurd hshort hfull
  | dispatched hfull =>
      exact iff_of_true hframes fun hshort => absurd hshort hfull

theorem pending_le_one {connection next : Connection} {event : Event}
    (hone : connection.outgoing.pending.length ≤ 1)
    (h : connection.serialStep codec strings event = some next) :
    next.outgoing.pending.length ≤ 1 := by
  unfold serialStep at h
  split_ifs at h with halone
  cases step_cases h with
  | construct => exact hone
  | destroy => exact hone
  | write event outgoing hwrite =>
      cases event with
      | asyncWrite message =>
          have hnone : connection.outgoing.pending = [] := halone
          cases hwrite
          unfold Outgoing.asyncWrite
          cases frameOf codec message with
          | error fault => exact hone
          | ok frame => simp [hnone]
      | writeSome index count =>
          obtain ⟨before, op, after, hpending, -, -, -, -, hlast⟩ :=
            Outgoing.writeSome_eq_some hwrite
          have hlength : (before ++ op :: after).length ≤ 1 := by
            rw [← hpending]
            exact hone
          simp only [List.length_append, List.length_cons] at hlength
          rcases hlast with ⟨-, hnext⟩ | ⟨-, hnext⟩ <;>
            simp only [hnext, List.length_append, List.length_cons] <;>
            omega
  | readCompleted index completion op next hop hsize hread =>
      cases hread <;> exact hone

/-- A serial step keeps the stream the frames alone exactly when it does not
recover a short read. -/
theorem writesFrames_step_iff {connection next : Connection} {event : Event}
    (hone : connection.outgoing.pending.length ≤ 1)
    (hframes : connection.WritesFrames)
    (h : connection.serialStep codec strings event = some next) :
    next.WritesFrames ↔ NoProbe connection event := by
  unfold serialStep at h
  split_ifs at h with halone
  cases step_cases h with
  | construct => exact iff_of_true hframes trivial
  | destroy => exact iff_of_true hframes trivial
  | write event outgoing hwrite =>
      apply iff_of_true
      · unfold WritesFrames Outgoing.untransferred at hframes ⊢
        cases event with
        | asyncWrite message =>
            have hnone : connection.outgoing.pending = [] := halone
            cases hwrite
            unfold Outgoing.asyncWrite
            cases frameOf codec message with
            | error fault => exact hframes
            | ok frame =>
                rw [hnone] at hframes
                simp only [hnone, List.nil_append, List.flatMap_cons,
                  List.flatMap_nil, List.append_nil, List.flatten_append,
                  List.flatten_cons, List.flatten_nil,
                  WriteOp.remaining, List.drop_zero] at hframes ⊢
                rw [hframes]
        | writeSome index count =>
            obtain ⟨before, op, after, hpending, -, -, hsent, hissued,
              hlast⟩ := Outgoing.writeSome_eq_some hwrite
            have hlength : (before ++ op :: after).length ≤ 1 := by
              rw [← hpending]
              exact hone
            have hbefore : before = [] := by
              apply List.eq_nil_of_length_eq_zero
              simp only [List.length_append, List.length_cons] at hlength
              omega
            have hafter : after = [] := by
              apply List.eq_nil_of_length_eq_zero
              simp only [List.length_append, List.length_cons] at hlength
              omega
            rw [hpending, hbefore, hafter] at hframes
            simp only [List.nil_append, List.flatMap_cons,
              List.flatMap_nil, List.append_nil] at hframes
            rcases hlast with ⟨hend, hnext⟩ | ⟨-, hnext⟩
            · have hall : op.remaining.take count = op.remaining := by
                apply List.take_of_length_le
                rw [WriteOp.remaining, List.length_drop]
                omega
              rw [hsent, hissued, hnext, hbefore, hafter, hall]
              simpa using hframes
            · rw [hsent, hissued, hnext, hbefore, hafter, ← hframes]
              simp only [List.nil_append, List.flatMap_cons,
                List.flatMap_nil, List.append_nil, List.append_assoc,
                WriteOp.remaining]
              rw [← List.drop_drop, List.take_append_drop]
      · trivial
  | readCompleted index completion op next hop hsize hread =>
      rw [hread.writesFrames_iff hframes]
      constructor
      · intro hprobe other hother hshort
        rw [hop] at hother
        cases hother
        exact hprobe hshort
      · intro hprobe
        exact hprobe op hop

/-- The bytes written are the frames passed to `AsyncWrite` throughout exactly
those serial runs in which no short read is recovered. -/
theorem writesFrames_throughout_iff (garbage : Fin 4 → UInt8)
    (events : List Event) :
    Throughout (serialStep codec strings) WritesFrames (ready garbage)
        events ↔
      Along (serialStep codec strings)
        (fun connection event =>
          (connection.serialStep codec strings event).isSome →
            NoProbe connection event)
        (ready garbage) events := by
  apply throughout_iff_along fun connection : Connection =>
    connection.outgoing.pending.length ≤ 1
  · intro connection event next hone _ hstep _
    exact pending_le_one hone hstep
  · intro connection event next hone hframes hstep
    exact writesFrames_step_iff hone hframes hstep
  · rfl
  · exact Nat.zero_le 1

/-- A read of the length ends with an error after no byte, the probe succeeds,
and a message is written: the peer's length is off by one byte. -/
theorem not_writesFrames_sample :
    ∃ last, exec (serialStep googleCodec .unit) (ready fun _ => 0)
        [.readCompleted 0 ⟨true, [], none, fun _ => .ok ()⟩,
          .write (.asyncWrite .sample), .write (.writeSome 0 19)] =
            some last ∧
      last.outgoing.pending = [] ∧
      last.outgoing.sent = 0 :: last.outgoing.issued.flatten ∧
      ¬last.WritesFrames := by
  refine ⟨_, rfl, rfl, rfl, ?_⟩
  intro hframes
  have hlength := congrArg List.length hframes
  contradiction

end Connection

end LibChromecast
