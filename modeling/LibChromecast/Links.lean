import LibChromecast.Inboxes
import LibChromecast.OutgoingStream

/-!
# Two connections back to back

Two `ChromecastConnection` objects over one full-duplex transport that is
reliable and keeps the order: a read stores the bytes which the peer's socket
took next.  Both ends write, read, probe, construct and destroy channels in
any interleaving; a broadcast goes over a list of channels which is fixed when
it begins, and what its handlers do comes after the whole of it.

Seen from above, the link carries one first-in-first-out pipe for each channel
address.  `inbox_of_link` says when it does.
-/

namespace LibChromecast

open Foundation Foundation.LengthPrefix Foundation.Transition

namespace Connection

variable {codec : ProtobufCodec} {strings : StringCompare}

/-! ## The sending end -/

/-- Outstanding writes are served in the order of the calls. -/
def WritesInOrder (_ : Connection) : Event → Prop
  | .write (.writeSome index _) => index = 0
  | _ => True

instance (connection : Connection) :
    (event : Event) → Decidable (WritesInOrder connection event)
  | .write (.writeSome index _) => inferInstanceAs (Decidable (index = 0))
  | .write (.asyncWrite _) => .isTrue trivial
  | .construct _ _ => .isTrue trivial
  | .destroy _ => .isTrue trivial
  | .readCompleted _ _ => .isTrue trivial

/-- What is serialized stays below the limit of the peer's coded stream. -/
def BodiesFit (codec : ProtobufCodec) (_ : Connection) : Event → Prop
  | .write (.asyncWrite message) =>
      (Outgoing.savedBody codec message).length < codedInputLimit
  | _ => True

instance (connection : Connection) :
    (event : Event) → Decidable (BodiesFit codec connection event)
  | .write (.asyncWrite message) => inferInstanceAs
      (Decidable ((Outgoing.savedBody codec message).length <
        codedInputLimit))
  | .write (.writeSome _ _) => .isTrue trivial
  | .construct _ _ => .isTrue trivial
  | .destroy _ => .isTrue trivial
  | .readCompleted _ _ => .isTrue trivial

instance (connection : Connection) :
    (event : Event) → Decidable (NoProbe connection event)
  | .readCompleted index completion =>
      match hop : connection.reads[index]? with
      | none => .isTrue fun op h => by simp [hop] at h
      | some op =>
          decidable_of_iff
            ((completion.error = true ∨
              op.size ≠ completion.bytes.length) →
                completion.probeError ≠ none) (by
              simp only [NoProbe, hop, Option.some.injEq, forall_eq',
                ReadCompletion.Short])
  | .write _ => .isTrue trivial
  | .construct _ _ => .isTrue trivial
  | .destroy _ => .isTrue trivial

structure Sends (codec : ProtobufCodec) (connection : Connection)
    (event : Event) : Prop where
  inOrder : connection.WritesInOrder event
  noProbe : connection.NoProbe event
  fits : connection.BodiesFit codec event

instance (connection : Connection) (event : Event) :
    Decidable (Sends codec connection event) :=
  decidable_of_iff (connection.WritesInOrder event ∧
      connection.NoProbe event ∧ connection.BodiesFit codec event)
    ⟨fun h => ⟨h.1, h.2.1, h.2.2⟩, fun h => ⟨h.1, h.2, h.3⟩⟩

/-- The message of a call of `AsyncWrite` that does not raise. -/
def Event.written (codec : ProtobufCodec) : Event → Option CastMessage
  | .write (.asyncWrite message) =>
      match message.save codec with
      | .ok _ => some message
      | .error _ => none
  | _ => none

theorem Event.written_of_ok {message : CastMessage} {body : List UInt8}
    (hsave : message.save codec = .ok body) :
    Event.written codec (.write (.asyncWrite message)) = some message := by
  simp only [Event.written, hsave]

theorem Event.written_of_error {message : CastMessage} {fault : Fault}
    (hsave : message.save codec = .error fault) :
    Event.written codec (.write (.asyncWrite message)) = none := by
  simp only [Event.written, hsave]

def framesOf (codec : ProtobufCodec) (messages : List CastMessage) :
    List (List UInt8) :=
  messages.map fun message =>
    bigEndian32.frame (Outgoing.savedBody codec message)

theorem mem_written {events : List Event} {message : CastMessage}
    (hmem : message ∈ events.filterMap (Event.written codec)) :
    ∃ body, Event.write (.asyncWrite message) ∈ events ∧
      message.save codec = .ok body := by
  obtain ⟨event, hevent, hwritten⟩ := List.mem_filterMap.mp hmem
  cases event with
  | write event =>
      cases event with
      | asyncWrite other =>
          cases hsave : other.save codec with
          | error fault =>
              rw [Event.written_of_error hsave] at hwritten
              contradiction
          | ok body =>
              rw [Event.written_of_ok hsave, Option.some.injEq] at hwritten
              subst hwritten
              exact ⟨body, hevent, hsave⟩
      | writeSome index count => simp [Event.written] at hwritten
  | construct => simp [Event.written] at hwritten
  | destroy => simp [Event.written] at hwritten
  | readCompleted => simp [Event.written] at hwritten

/-- A step of a sender keeps the stream the frames issued, and issues the
frame of the message it writes. -/
theorem WritesFrames.sends {connection next : Connection} {event : Event}
    (hframes : connection.WritesFrames)
    (hsends : connection.Sends codec event)
    (hstep : connection.step codec strings event = some next) :
    next.WritesFrames ∧ next.outgoing.issued =
      connection.outgoing.issued ++
        framesOf codec (event.written codec).toList := by
  have hnone : framesOf codec [] = [] := rfl
  cases step_cases hstep with
  | construct => exact ⟨hframes, (List.append_nil _).symm⟩
  | destroy => exact ⟨hframes, (List.append_nil _).symm⟩
  | write event outgoing hwrite =>
      cases event with
      | asyncWrite message =>
          cases hwrite
          unfold WritesFrames Outgoing.untransferred at hframes ⊢
          unfold Outgoing.asyncWrite
          cases hsave : message.save codec with
          | error fault =>
              have hframe : frameOf codec message = .error fault := by
                simp only [frameOf, hsave, bind, Except.bind]
              rw [Event.written_of_error hsave, hframe]
              exact ⟨hframes, (List.append_nil _).symm⟩
          | ok body =>
              have hbody : Outgoing.savedBody codec message = body := by
                simp [Outgoing.savedBody, hsave, Except.toOption]
              rw [Event.written_of_ok hsave,
                Outgoing.frameOf_of_save hsave]
              refine ⟨?_, by simp [framesOf, hbody]⟩
              simp only [List.flatMap_append, List.flatMap_cons,
                List.flatMap_nil, List.append_nil, WriteOp.remaining,
                List.drop_zero, List.flatten_append, List.flatten_cons,
                List.flatten_nil, ← List.append_assoc]
              rw [← hframes]
      | writeSome index count =>
          have hindex : index = 0 := hsends.inOrder
          obtain ⟨before, op, after, hpending, hbefore, hcount, hsent,
            hissued, hlast⟩ := Outgoing.writeSome_eq_some hwrite
          have hhead : before = [] :=
            List.length_eq_zero_iff.mp (hbefore.trans hindex)
          subst hhead
          unfold WritesFrames Outgoing.untransferred at hframes ⊢
          refine ⟨?_, by simp [hissued, Event.written, hnone]⟩
          rw [hpending] at hframes
          dsimp only
          rw [hsent, hissued, ← hframes]
          rcases hlast with ⟨hwhole, hnext⟩ | ⟨hpart, hnext⟩
          · have hall : op.remaining.take count = op.remaining := by
              apply List.take_of_length_le
              rw [WriteOp.remaining, List.length_drop]
              omega
            rw [hnext, hall]
            simp
          · have hrest : WriteOp.remaining
                { op with transferred := op.transferred + count } =
                  op.remaining.drop count := by
              simp [WriteOp.remaining, List.drop_drop]
            rw [hnext]
            simp only [List.nil_append, List.flatMap_cons, hrest,
              List.append_assoc]
            rw [← List.append_assoc (List.take _ _),
              List.take_append_drop]
  | readCompleted index completion op next hop hsize hread =>
      have hstored : (connection.stored op index completion).WritesFrames :=
        hframes
      have hprobe := hsends.noProbe op hop
      refine ⟨(hread.writesFrames_iff hstored).mpr hprobe, ?_⟩
      cases hread <;> simp [Event.written, hnone] <;> rfl

theorem writesFrames_of_run {connection last : Connection}
    {events : List Event} (hframes : connection.WritesFrames)
    (hsends : Along (Connection.step codec strings) (Sends codec)
      connection events)
    (hrun : exec (Connection.step codec strings) connection events =
      some last) :
    last.WritesFrames ∧ last.outgoing.issued =
      connection.outgoing.issued ++
        framesOf codec (events.filterMap (Event.written codec)) := by
  induction events generalizing connection with
  | nil =>
      cases hrun
      exact ⟨hframes, by simp [framesOf]⟩
  | cons event rest ih =>
      obtain ⟨next, hstep, hrest⟩ := exec_cons_eq_some.mp hrun
      obtain ⟨hnext, hissued⟩ := hframes.sends hsends.1 hstep
      obtain ⟨hlast, hlater⟩ := ih hnext (hsends.2 next hstep) hrest
      refine ⟨hlast, ?_⟩
      rw [hlater, hissued, List.append_assoc]
      congr 1
      cases hwritten : event.written codec with
      | none =>
          rw [List.filterMap_cons_none hwritten]
          rfl
      | some message =>
          rw [List.filterMap_cons_some hwritten]
          rfl

end Connection

/-! ## The link -/

inductive Side where
  | left
  | right
deriving DecidableEq

def Side.other : Side → Side
  | .left => .right
  | .right => .left

theorem Side.other_ne (side : Side) : side.other ≠ side := by
  cases side <;> decide

structure Link where
  ends : Side → Connection

namespace Link

structure Event where
  side : Side
  event : Connection.Event

/-- A read stores bytes which the peer's socket took and nobody has read. -/
def Carried (sent received : List UInt8) : Connection.Event → Prop
  | .readCompleted _ completion => received ++ completion.bytes <+: sent
  | _ => True

instance (sent received : List UInt8) :
    (event : Connection.Event) → Decidable (Carried sent received event)
  | .readCompleted _ completion => inferInstanceAs
      (Decidable (received ++ completion.bytes <+: sent))
  | .write _ => .isTrue trivial
  | .construct _ _ => .isTrue trivial
  | .destroy _ => .isTrue trivial

def step (codec : ProtobufCodec) (strings : StringCompare) (link : Link)
    (event : Event) : Option Link :=
  if Carried (link.ends event.side.other).outgoing.sent
      (link.ends event.side).received event.event then
    ((link.ends event.side).step codec strings event.event).map
      fun next => ⟨Function.update link.ends event.side next⟩
  else none

/-- Both ends after their handshakes. -/
def ready (garbage : Side → Fin 4 → UInt8) : Link :=
  ⟨fun side => .ready (garbage side)⟩

def selectAt (side : Side) (event : Event) : Option Connection.Event :=
  if event.side = side then some event.event else none

/-- The events of one end. -/
def eventsAt (side : Side) (events : List Event) : List Connection.Event :=
  events.filterMap (selectAt side)

/-- Nothing is under way to this end: what the peer wrote was transferred and
read, and no read of zero bytes is still to complete. -/
structure Drained (side : Side) (link : Link) : Prop where
  transferred : (link.ends side.other).outgoing.pending = []
  read : (link.ends side).received = (link.ends side.other).outgoing.sent
  waits : ∀ op ∈ (link.ends side).reads, 0 < op.size

variable {codec : ProtobufCodec} {strings : StringCompare}

theorem step_eq_some {link next : Link} {event : Event}
    (hstep : link.step codec strings event = some next) :
    Carried (link.ends event.side.other).outgoing.sent
        (link.ends event.side).received event.event ∧
      ∃ moved, (link.ends event.side).step codec strings event.event =
          some moved ∧
        next.ends = Function.update link.ends event.side moved := by
  unfold step at hstep
  split_ifs at hstep with hcarried
  obtain ⟨moved, hmoved, rfl⟩ := Option.map_eq_some_iff.mp hstep
  exact ⟨hcarried, moved, hmoved, rfl⟩

theorem component (side : Side) :
    Component (step codec strings) (Connection.step codec strings)
      (fun link => link.ends side) (selectAt side) where
  moves {link event next selected} hstep hselect := by
    obtain ⟨-, moved, hmoved, hnext⟩ := step_eq_some hstep
    unfold selectAt at hselect
    split_ifs at hselect with hside
    subst hside
    cases hselect
    rw [hmoved, hnext, Function.update_self]
  stays {link event next} hstep hselect := by
    obtain ⟨-, moved, -, hnext⟩ := step_eq_some hstep
    unfold selectAt at hselect
    split_ifs at hselect with hside
    rw [hnext, Function.update_of_ne (Ne.symm hside)]

/-- `condition` holds of the events of one end. -/
def At (side : Side) (condition : Connection → Connection.Event → Prop)
    (link : Link) (event : Event) : Prop :=
  ∀ selected, selectAt side event = some selected →
    condition (link.ends side) selected

instance (side : Side) (condition : Connection → Connection.Event → Prop)
    [∀ connection event, Decidable (condition connection event)]
    (link : Link) (event : Event) :
    Decidable (At side condition link event) :=
  if hside : event.side = side then
    decidable_of_iff (condition (link.ends side) event.event)
      (by simp [At, selectAt, hside])
  else .isTrue fun selected hselect => by simp [selectAt, hside] at hselect

/-! ## The transport -/

theorem received_of_step {sent : List UInt8} {connection next : Connection}
    {event : Connection.Event} (hread : connection.received <+: sent)
    (hcarried : Carried sent connection.received event)
    (hstep : connection.step codec strings event = some next) :
    next.received <+: sent := by
  cases Connection.step_cases hstep with
  | construct => exact hread
  | destroy => exact hread
  | write => exact hread
  | readCompleted index completion op next hop hsize hstep =>
      have hstored : (connection.stored op index completion).received <+:
          sent := hcarried
      cases hstep <;> exact hstored

theorem sent_of_step {connection next : Connection}
    {event : Connection.Event}
    (hstep : connection.step codec strings event = some next) :
    connection.outgoing.sent <+: next.outgoing.sent := by
  cases Connection.step_cases hstep with
  | construct => exact List.prefix_rfl
  | destroy => exact List.prefix_rfl
  | write event outgoing hwrite =>
      cases event with
      | asyncWrite message =>
          cases hwrite
          unfold Outgoing.asyncWrite
          cases frameOf codec message <;> exact List.prefix_rfl
      | writeSome index count =>
          obtain ⟨before, op, after, -, -, -, hsent, -⟩ :=
            Outgoing.writeSome_eq_some hwrite
          exact ⟨_, hsent.symm⟩
  | readCompleted index completion op next hop hsize hstep =>
      cases hstep with
      | resumed => exact List.prefix_append _ _
      | probeFailed => exact List.prefix_rfl
      | lengthRead => exact List.prefix_rfl
      | undecodable => exact List.prefix_rfl
      | undelivered => exact List.prefix_rfl
      | dispatched => exact List.prefix_rfl

/-- No byte is made up on the way, at either end. -/
def Faithful (link : Link) : Prop :=
  ∀ side, (link.ends side).received <+: (link.ends side.other).outgoing.sent

theorem Faithful.step {link next : Link} {event : Event}
    (hfaithful : link.Faithful)
    (hstep : link.step codec strings event = some next) :
    next.Faithful := by
  obtain ⟨hcarried, moved, hmoved, hnext⟩ := step_eq_some hstep
  have hother := event.side.other_ne
  intro side
  rw [hnext]
  by_cases hside : side = event.side
  · subst hside
    rw [Function.update_self, Function.update_of_ne hother]
    exact received_of_step (hfaithful _) hcarried hmoved
  · have hopposite : side.other = event.side := by
      cases hevent : event.side <;> cases side <;> simp_all [Side.other]
    rw [Function.update_of_ne hside, hopposite, Function.update_self]
    have hread := hfaithful side
    rw [hopposite] at hread
    exact hread.trans (sent_of_step hmoved)

/-! ## The pipes -/

/-- A listening end: no probe fails, and no channel of it has the wildcard as
its own source. -/
structure Listens (connection : Connection) (event : Connection.Event) :
    Prop where
  probe : connection.ProbeSucceeds event
  named : connection.OwnSourcesNamed event

instance (connection : Connection) (event : Connection.Event) :
    Decidable (Listens connection event) :=
  decidable_of_iff (connection.ProbeSucceeds event ∧
      connection.OwnSourcesNamed event)
    ⟨fun h => ⟨h.1, h.2⟩, fun h => ⟨h.1, h.2⟩⟩

/-- The messages one end wrote: what was handed to `AsyncWrite` without
raising, in call order. -/
def written (codec : ProtobufCodec) (side : Side) (events : List Event) :
    List CastMessage :=
  (eventsAt side events).filterMap (Connection.Event.written codec)

section Run

variable {side : Side} {garbage : Side → Fin 4 → UInt8}
  {events : List Event} {last : Link}
  (hrun : exec (step codec strings) (ready garbage) events = some last)
  (hsends : Along (step codec strings)
    (At side.other (Connection.Sends codec)) (ready garbage) events)

include hrun hsends in
theorem accepted_of_run : ∀ message ∈ written codec side.other events,
    Outgoing.Accepted codec message := by
  have hsender := (component side.other).along hrun hsends
  have hsent := (component side.other).exec hrun
  intro message hmessage
  obtain ⟨body, hevent, hsave⟩ := Connection.mem_written hmessage
  obtain ⟨current, hcurrent⟩ := hsender.exists_of_mem hsent hevent
  have hfits : (Outgoing.savedBody codec message).length <
      codedInputLimit := hcurrent.fits
  refine ⟨body, hsave, ?_⟩
  simpa [Outgoing.savedBody, hsave, Except.toOption] using hfits

include hrun hsends in
/-- The stream of the sending end is the frames of what it wrote, up to what
is outstanding, and the other end has read a first part of it. -/
theorem received_of_run :
    (last.ends side).received <+: bigEndian32.frames
        ((written codec side.other events).map
          (Outgoing.savedBody codec)) ∧
      (last.Drained side → (last.ends side).received =
        bigEndian32.frames ((written codec side.other events).map
          (Outgoing.savedBody codec))) := by
  have hstart : ((ready garbage).ends side.other).WritesFrames := rfl
  obtain ⟨hframes, hissued⟩ := Connection.writesFrames_of_run hstart
    ((component side.other).along hrun hsends)
    ((component side.other).exec hrun)
  have hflatten : (last.ends side.other).outgoing.issued.flatten =
      bigEndian32.frames ((written codec side.other events).map
        (Outgoing.savedBody codec)) := by
    have hready : ((ready garbage).ends side.other).outgoing.issued =
      [] := rfl
    rw [hissued, hready, List.nil_append]
    simp [Connection.framesOf, written, eventsAt, LengthHeader.frames,
      List.flatMap, Function.comp_def]
  have hfaithful : last.Faithful := exec_invariant Faithful
    (fun link event next hlink hstep => hlink.step hstep)
    (fun _ => List.prefix_rfl) hrun
  unfold Connection.WritesFrames at hframes
  rw [← hflatten, ← hframes]
  refine ⟨(hfaithful side).trans (List.prefix_append _ _), ?_⟩
  intro hdrained
  rw [hdrained.read, Outgoing.untransferred, hdrained.transferred]
  simp

include hrun hsends in
/-- The reader has dispatched a first part of the messages, and all of them
once nothing is under way. -/
theorem dispatched_of_run
    (hlistens : Along (step codec strings) (At side Listens)
      (ready garbage) events)
    (hcalls : ∀ call ∈ (last.ends side).calls, call.2 = .ok ()) :
    List.Forall₂ CastMessage.SameContent
        ((last.ends side).calls.map Prod.fst)
        ((written codec side.other events).take
          (last.ends side).calls.length) ∧
      (last.ends side).calls.length ≤
        (written codec side.other events).length ∧
      (last.Drained side → (last.ends side).calls.length =
        (written codec side.other events).length) := by
  have haccepted := accepted_of_run hrun hsends
  obtain ⟨hreceived, hall⟩ := received_of_run hrun hsends
  generalize written codec side.other events = messages
    at haccepted hreceived hall ⊢
  have hlt : ∀ body ∈ messages.map (Outgoing.savedBody codec),
      body.length < 2 ^ 32 := by
    intro body hbody
    obtain ⟨message, hmessage, rfl⟩ := List.mem_map.mp hbody
    have hlimit := (haccepted message hmessage).save_eq.2
    unfold codedInputLimit at hlimit
    omega
  have hloads : ∀ body ∈ messages.map (Outgoing.savedBody codec),
      ∃ message, CastMessage.load codec {} body = .ok message := by
    intro body hbody
    obtain ⟨message, hmessage, rfl⟩ := List.mem_map.mp hbody
    obtain ⟨loaded, hload, -⟩ := (haccepted message hmessage).load
    exact ⟨loaded, hload⟩
  have hlistener := (component side).along hrun hlistens
  have hdispatching : (last.ends side).Dispatching codec := by
    apply (Connection.dispatching_ready (garbage side)).run
      ((component side).exec hrun) _ hlt hloads hreceived hcalls
    exact hlistener.imp fun _ _ hhere => hhere.probe
  have haligned := hdispatching.aligned
  have hcount := hdispatching.dispatched.length_eq
  obtain ⟨rest, hrest⟩ := haligned.received_eq
  have hbodies : (last.ends side).bodies <+:
      messages.map (Outgoing.savedBody codec) :=
    Connection.bodies_prefix rest haligned.bodies_lt hlt
      (hrest ▸ hreceived)
  have htake : (last.ends side).bodies =
      (messages.take (last.ends side).calls.length).map
        (Outgoing.savedBody codec) := by
    rw [hcount, List.map_take]
    exact List.prefix_iff_eq_take.mp hbodies
  refine ⟨?_, ?_, ?_⟩
  · have hdone := hdispatching.dispatched.flip
    rw [htake, List.forall₂_map_left_iff] at hdone
    have hboth := (List.forall₂_and_left _ _).mpr
      ⟨fun message hmessage =>
        haccepted message (List.mem_of_mem_take hmessage), hdone⟩
    rw [List.forall₂_map_left_iff]
    apply List.Forall₂.flip
    apply hboth.imp
    rintro message call ⟨haccept, hcall⟩
    obtain ⟨loaded, hload, hsame⟩ := haccept.load
    have hloaded : CastMessage.load codec {}
        (Outgoing.savedBody codec message) = .ok call.1 := hcall.1
    rw [hloaded] at hload
    cases hload
    exact hsame
  · have hlength := hbodies.length_le
    rw [List.length_map] at hlength
    omega
  · intro hdrained
    obtain ⟨tail, hincomplete, htail⟩ := haligned.incomplete hdrained.waits
    have hsame := bigEndian32.frames_append_inj haligned.bodies_lt hlt
      (by decide) hincomplete (htail ▸ hall hdrained)
    rw [hcount, hsame.1, List.length_map]

end Run

/-- What a channel of this address has heard of the messages of its peer: in
the order in which they were written, each once, those for it among the ones
that came after `skipped` others and up to some of the last.  Nothing is left
once all is drained. -/
def Piped (messages heard : List CastMessage) (address : Address)
    (skipped : ℕ) (drained : Prop) : Prop :=
  ∃ earlier meanwhile later,
    messages = earlier ++ meanwhile ++ later ∧
      earlier.length = skipped ∧
      List.Forall₂ CastMessage.SameContent heard
        (meanwhile.filter (·.IsFor address)) ∧
      (drained → later = [])

theorem piped_of_dispatched {messages heard : List CastMessage}
    {middle last : Connection} {address : Address} {drained : Prop}
    (hgrows : middle.calls <+: last.calls)
    (hcontents : List.Forall₂ CastMessage.SameContent
      (last.calls.map Prod.fst) (messages.take last.calls.length))
    (hcount : last.calls.length ≤ messages.length)
    (hall : drained → last.calls.length = messages.length)
    (hheard : heard = (Connection.dispatchedSince middle last).filter
      (·.IsFor address)) :
    Piped messages heard address middle.calls.length drained := by
  have hle := hgrows.length_le
  refine ⟨(messages.take last.calls.length).take middle.calls.length,
    (messages.take last.calls.length).drop middle.calls.length,
    messages.drop last.calls.length, ?_, ?_, ?_, ?_⟩
  · rw [List.take_append_drop, List.take_append_drop]
  · rw [List.length_take, List.length_take]
    omega
  · rw [hheard, Connection.dispatchedSince, List.map_drop]
    exact List.rel_filter
      (fun call message hsame => by simpa using hsame.isFor_iff address)
      (List.forall₂_drop _ hcontents)
  · intro hdrained
    rw [hall hdrained, List.drop_length]

/-- The channels that come and go beside it make no difference to a channel
of a listening end. -/
theorem inbox_of_listens (hunit : strings.UnitValued) {side : Side}
    {garbage : Side → Fin 4 → UInt8} {before after : List Event}
    {middle last : Link} {channel : ChannelId} {address : Address}
    (hbefore : exec (step codec strings) (ready garbage) before =
      some middle)
    (hafter : exec (step codec strings) middle after = some last)
    (hlistens : Along (step codec strings) (At side Listens)
      (ready garbage) (before ++ after))
    (hcalls : ∀ call ∈ (last.ends side).calls, call.2 = .ok ())
    (hlive : (channel, address) ∈ (middle.ends side).router.live)
    (hkept : .destroy channel ∉ eventsAt side after) :
    (middle.ends side).inbox codec strings channel (eventsAt side after) =
      (Connection.dispatchedSince (middle.ends side)
        (last.ends side)).filter (·.IsFor address) := by
  obtain ⟨hearly, hlate⟩ := along_append.mp hlistens
  have hnamed : Along (Connection.step codec strings)
      Connection.OwnSourcesNamed ((ready garbage).ends side)
      (eventsAt side before) :=
    ((component side).along hbefore hearly).imp fun _ _ hhere => hhere.named
  have hreg : (middle.ends side).router.Registered strings :=
    exec_invariant_along
      (fun _ _ _ hreg hnamed hstep =>
        Connection.step_registered hunit hreg hnamed hstep)
      Router.registered_empty hnamed ((component side).exec hbefore)
  have hafterwards : Along (Connection.step codec strings)
      Connection.OwnSourcesNamed (middle.ends side)
      (eventsAt side after) :=
    ((component side).along hafter (hlate middle hbefore)).imp
      fun _ _ hhere => hhere.named
  exact Connection.inbox_of_run hunit hreg hlive hkept hafterwards
    ((component side).exec hafter) hcalls

/-- Each channel address is a pipe of its own.  Take any run of the link in
which the sending end keeps to `Sends`, the listening end to `Listens`, and no
call of `OnMessage` raises, and a channel that is there when `before` is over
and lives through `after`.  The connection calls its `OnMessage`, during
`after`, exactly with the messages for its address among those which the peer
wrote and which came up meanwhile: in the order in which they were written,
each once, whatever else was registered, destroyed or delivered.  Once nothing
is under way, that is everything the peer wrote after the messages which had
come up before. -/
theorem inbox_of_link (hunit : strings.UnitValued) {side : Side}
    {garbage : Side → Fin 4 → UInt8} {before after : List Event}
    {middle last : Link} {channel : ChannelId} {address : Address}
    (hbefore : exec (step codec strings) (ready garbage) before =
      some middle)
    (hafter : exec (step codec strings) middle after = some last)
    (hsends : Along (step codec strings)
      (At side.other (Connection.Sends codec)) (ready garbage)
      (before ++ after))
    (hlistens : Along (step codec strings) (At side Listens)
      (ready garbage) (before ++ after))
    (hcalls : ∀ call ∈ (last.ends side).calls, call.2 = .ok ())
    (hlive : (channel, address) ∈ (middle.ends side).router.live)
    (hkept : .destroy channel ∉ eventsAt side after) :
    Piped (written codec side.other (before ++ after))
      ((middle.ends side).inbox codec strings channel (eventsAt side after))
      address (middle.ends side).calls.length (last.Drained side) := by
  have hrun : exec (step codec strings) (ready garbage) (before ++ after) =
      some last := by
    rw [exec_append, hbefore, Option.bind_some, hafter]
  obtain ⟨hcontents, hcount, hall⟩ :=
    dispatched_of_run hrun hsends hlistens hcalls
  have hgrows := (Connection.run_grows ((component side).exec hafter)).2
  exact piped_of_dispatched hgrows hcontents hcount hall
    (inbox_of_listens hunit hbefore hafter hlistens hcalls hlive hkept)

/-- One end writes a message in two parts, and the other one reads it in
three. -/
def sampleTransfer : List Event :=
  [⟨.left, .write (.asyncWrite .sample)⟩, ⟨.left, .write (.writeSome 0 6)⟩,
    ⟨.right, .readCompleted 0 ⟨false, [0, 0, 0, 15], none,
      fun _ => .ok ()⟩⟩,
    ⟨.right, .readCompleted 0 ⟨true, [8], none, fun _ => .ok ()⟩⟩,
    ⟨.left, .write (.writeSome 0 13)⟩,
    ⟨.right, .readCompleted 0 ⟨false,
      [0, 18, 1, 114, 26, 1, 115, 34, 1, 110, 40, 0, 50, 0], none,
      fun _ => .ok ()⟩⟩]

theorem inbox_of_link_sample :
    ∃ middle last,
      exec (step googleCodec .unit) (ready fun _ _ => 7)
          [⟨.right, .construct 0 ⟨lit "s", lit "r", lit "n"⟩⟩] =
            some middle ∧
        exec (step googleCodec .unit) middle sampleTransfer = some last ∧
        last.Drained .right ∧
        Piped (written googleCodec .left
            (⟨.right, .construct 0 ⟨lit "s", lit "r", lit "n"⟩⟩ ::
              sampleTransfer))
          ((middle.ends .right).inbox googleCodec .unit 0
            (eventsAt .right sampleTransfer))
          ⟨lit "s", lit "r", lit "n"⟩ 0 (last.Drained .right) := by
  obtain ⟨middle, hbefore, hlive, hnone⟩ : ∃ middle,
      exec (step googleCodec .unit) (ready fun _ _ => 7)
          [⟨.right, .construct 0 ⟨lit "s", lit "r", lit "n"⟩⟩] =
            some middle ∧
        (0, ⟨lit "s", lit "r", lit "n"⟩) ∈ (middle.ends .right).router.live ∧
        (middle.ends .right).calls = [] := by
    refine ⟨_, rfl, ?_, rfl⟩
    decide
  obtain ⟨last, hafter, hcalls, hdrained⟩ : ∃ last,
      exec (step googleCodec .unit) middle sampleTransfer = some last ∧
        (∀ call ∈ (last.ends .right).calls, call.2 = .ok ()) ∧
        last.Drained .right := by
    cases hbefore
    refine ⟨_, rfl, ?_, ⟨rfl, rfl, ?_⟩⟩ <;> decide
  have hpiped := inbox_of_link StringCompare.unit_unitValued hbefore hafter
    (by decide) (by decide) hcalls hlive
    (by simp [sampleTransfer, eventsAt, selectAt])
  rw [hnone] at hpiped
  exact ⟨middle, last, hbefore, hafter, hdrained, hpiped⟩

end Link

end LibChromecast
