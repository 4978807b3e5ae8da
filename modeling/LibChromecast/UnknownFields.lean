import LibChromecast.GeneratedParser

/-!
# Writing what was read

What the generated class writes is as long as `ByteSize` says, and reading it
into another message is `MergeFrom`.  That includes the fields nobody knows:
whatever a message has been through, its `_unknown_fields_` are fields which
every parser of the class keeps as they are.  So a body that was read can be
written again, in no more bytes, and nothing is lost.
-/

namespace LibChromecast

open Foundation.ProtobufWire

namespace GeneratedCastMessage

open ChromeCastMessage (protocolVersionNumber payloadTypeNumber writeOptional)

variable (runtime : WireRuntime)

/-! ## What is written -/

def writeEnum (tag : ℕ) : Option ℕ → List UInt8
  | none => []
  | some value => runtime.writeVarint tag ++ runtime.writeVarint value

/-- A member is written if its has-bit is set, and the unknown fields are
written behind the members. -/
def serializeWithCachedSizes (message : GeneratedCastMessage) : List UInt8 :=
  writeEnum runtime 8 (message.protocolVersion.map protocolVersionNumber) ++
    (writeOptional runtime 18 message.sourceId ++
    (writeOptional runtime 26 message.destinationId ++
    (writeOptional runtime 34 message.namespaceId ++
    (writeEnum runtime 40 (message.payloadType.map payloadTypeNumber) ++
    (writeOptional runtime 50 message.payloadUtf8 ++
    (writeOptional runtime 58 message.payloadBinary ++
      message.unknownFields))))))

/-- `CodedOutputStream::VarintSize32`. -/
def varintSize32 (value : ℕ) : ℕ :=
  if value < 2 ^ 7 then 1
  else if value < 2 ^ 14 then 2
  else if value < 2 ^ 21 then 3
  else if value < 2 ^ 28 then 4
  else 5

def enumSize : Option ℕ → ℕ
  | none => 0
  | some value => 1 + varintSize32 value

/-- `StringSize`, `BytesSize`: the size of the text is taken as a `uint32`. -/
def stringSize : Option StdString → ℕ
  | none => 0
  | some text =>
      1 + (varintSize32 (text.length % 2 ^ 32) + text.length % 2 ^ 32)

/-- `ByteSize`, as long as the sum is an `int`. -/
def byteSize (message : GeneratedCastMessage) : ℕ :=
  enumSize (message.protocolVersion.map protocolVersionNumber) +
    (stringSize message.sourceId + (stringSize message.destinationId +
    (stringSize message.namespaceId +
    (enumSize (message.payloadType.map payloadTypeNumber) +
    (stringSize message.payloadUtf8 + (stringSize message.payloadBinary +
      message.unknownFields.length))))))

def mergeFrom (message other : GeneratedCastMessage) :
    GeneratedCastMessage where
  toPartialCastMessage :=
    message.toPartialCastMessage.mergeFrom other.toPartialCastMessage
  unknownFields := message.unknownFields ++ other.unknownFields

/-- What a message can go through: its members are set and cleared, another
message is merged into it, and a stream is read into it. -/
inductive Built : GeneratedCastMessage → Prop
  | empty : Built {}
  | assign {message : GeneratedCastMessage} (members : PartialCastMessage)
      (hbuilt : Built message) :
      Built { message with toPartialCastMessage := members }
  | mergeFrom {message other : GeneratedCastMessage}
      (hbuilt : Built message) (hother : Built other) :
      Built (message.mergeFrom other)
  | read {message after : GeneratedCastMessage}
      (buffered : List UInt8 → Bool) (bytes : List UInt8)
      (hbuilt : Built message)
      (hread : message.mergePartialFromCodedStream runtime buffered bytes =
        some after) : Built after

/-! ## Its size -/

variable {runtime}

theorem length_writeVarint {value : ℕ} (hvalue : value < 2 ^ 32) :
    (runtime.writeVarint value).length = varintSize32 value := by
  rw [WireRuntime.length_writeVarint hvalue]
  unfold writeVarint varintSize32
  split_ifs with h7 h14 h21 h28
  · exact length_writeVarintAux 0 (by omega) (by omega) (by omega)
  · exact length_writeVarintAux 1 (by omega) (by omega) (by omega)
  · exact length_writeVarintAux 2 (by omega) (by omega) (by omega)
  · exact length_writeVarintAux 3 (by omega) (by omega) (by omega)
  · exact length_writeVarintAux 4 (by omega) (by omega) (by omega)

theorem length_writeEnum {tag : ℕ} (htag : tag < 2 ^ 7) {α : Type}
    (number : α → ℕ) (hnumber : ∀ value, number value < 2 ^ 32)
    (value : Option α) :
    (writeEnum runtime tag (value.map number)).length =
      enumSize (value.map number) := by
  cases value with
  | none => rfl
  | some value =>
      have hhead : (runtime.writeVarint tag).length = 1 := by
        rw [length_writeVarint (by omega), varintSize32, if_pos htag]
      rw [Option.map_some, writeEnum, List.length_append, hhead,
        length_writeVarint (hnumber value)]
      rfl

theorem length_writeOptional {tag : ℕ} (htag : tag < 2 ^ 7)
    (text : Option StdString)
    (htext : (writeOptional runtime tag text).length < 2 ^ 31) :
    (writeOptional runtime tag text).length = stringSize text := by
  cases text with
  | none => rfl
  | some text =>
      have hhead : (runtime.writeVarint tag).length = 1 := by
        rw [length_writeVarint (by omega), varintSize32, if_pos htag]
      simp only [writeOptional, WireRuntime.writeString,
        List.length_append] at htext ⊢
      have hmod : text.length % 2 ^ 32 = text.length :=
        Nat.mod_eq_of_lt (by omega)
      rw [hhead, hmod, length_writeVarint (by omega), stringSize, hmod]

theorem length_serializeWithCachedSizes (message : GeneratedCastMessage)
    (hlength : (message.serializeWithCachedSizes runtime).length < 2 ^ 31) :
    (message.serializeWithCachedSizes runtime).length = message.byteSize := by
  simp only [serializeWithCachedSizes, List.length_append] at hlength
  unfold serializeWithCachedSizes byteSize
  simp only [List.length_append]
  rw [length_writeEnum (by decide) _
      ChromeCastMessage.protocolVersionNumber_lt,
    length_writeEnum (by decide) _ ChromeCastMessage.payloadTypeNumber_lt,
    length_writeOptional (by decide) message.sourceId (by omega),
    length_writeOptional (by decide) message.destinationId (by omega),
    length_writeOptional (by decide) message.namespaceId (by omega),
    length_writeOptional (by decide) message.payloadUtf8 (by omega),
    length_writeOptional (by decide) message.payloadBinary (by omega)]

/-- A complete message without unknown fields is written as the library's
messages are. -/
theorem serializeWithCachedSizes_of_complete {message : GeneratedCastMessage}
    {record : ChromeCastMessage} (hunknown : message.unknownFields = [])
    (hcomplete : message.complete = some record) :
    message.serializeWithCachedSizes runtime = record.serialize runtime := by
  obtain ⟨⟨version, source, destination, namespaceId, type, utf8, binary⟩,
    unknown⟩ := message
  simp only [PartialCastMessage.complete, Option.bind_eq_bind,
    Option.bind_eq_some_iff] at hcomplete
  obtain ⟨version, rfl, source, rfl, destination, rfl, namespaceId, rfl,
    type, rfl, hrecord⟩ := hcomplete
  cases hrecord
  subst hunknown
  simp only [serializeWithCachedSizes, ChromeCastMessage.serialize,
    Option.map_some, writeEnum, writeOptional, List.append_assoc,
    List.append_nil]

/-! ## The unknown fields -/

/-- A field which every message keeps as it is. -/
def Foreign (runtime : WireRuntime) (bytes : List UInt8) : Prop :=
  ∀ message : GeneratedCastMessage,
    (switch runtime).Round message bytes (message.keep bytes)

/-- The unknown fields are a sequence of foreign ones. -/
def Clean (runtime : WireRuntime) (message : GeneratedCastMessage) :
    Prop :=
  ∃ items : List (List UInt8), message.unknownFields = items.flatten ∧
    ∀ item ∈ items, Foreign runtime item

section Unknown

variable {case : Case} {message after other : GeneratedCastMessage}
  {bytes tail rest front kept : List UInt8} {tag value : ℕ}

theorem Case.tag_lt (case : Case) : case.tag < 2 ^ 32 := by
  cases case <;> decide

/-- The field that is written for a case is read by it. -/
theorem round_of_case (case : Case) {body : List UInt8}
    (hread : ∀ rest,
      case.read runtime message (body ++ rest) = some (after, rest)) :
    (switch runtime).Round message (runtime.writeVarint case.tag ++ body)
      after :=
  FieldSwitch.round_of_read
    (runtime.spells_writeVarint case.tag_lt) hread

theorem foreign_protocolVersion (hvalue : value < 2 ^ 32)
    (hunknown : value ≠ 0) :
    Foreign runtime (runtime.writeVarint 8 ++ runtime.writeVarint value) := by
  intro message
  refine round_of_case .protocolVersion fun rest => ?_
  rw [Case.read, WireRuntime.readVarint32_write hvalue, Option.map_some,
    readProtocolVersion, if_neg hunknown]

theorem foreign_payloadType (hvalue : value + 2 < 2 ^ 32) :
    Foreign runtime
      (runtime.writeVarint 40 ++ runtime.writeVarint (value + 2)) := by
  intro message
  refine round_of_case .payloadType fun rest => ?_
  rw [Case.read, WireRuntime.readVarint32_write hvalue]
  rfl

theorem foreign_of_keepField (hzero : tag ≠ 0) (htype : tag % 8 ≠ 4)
    (htag : tag < 2 ^ 32) (hunknown : Case.ofTag tag = none)
    (hkept : runtime.keepField tag bytes = some (kept, rest)) :
    Foreign runtime kept := by
  intro message
  obtain ⟨front, body, -, rfl, -, hagain⟩ := runtime.keepField_again hkept
  refine FieldSwitch.round_of_skip (runtime.spells_writeVarint htag) hzero
    htype hunknown fun rest => ?_
  change message.skip runtime tag (body ++ rest) = _
  rw [skip, hagain, Option.map_some]

theorem Clean.keep (h : message.Clean runtime)
    (hforeign : Foreign runtime bytes) :
    (message.keep bytes).Clean runtime := by
  obtain ⟨items, hitems, hall⟩ := h
  refine ⟨items ++ [bytes], ?_, fun item hitem => ?_⟩
  · rw [List.flatten_append, ← hitems, List.flatten_singleton]
    rfl
  · rcases List.mem_append.mp hitem with hitem | hitem
    · exact hall item hitem
    · rwa [List.mem_singleton.mp hitem]

theorem Clean.of_unknownFields (h : message.Clean runtime)
    (hsame : after.unknownFields = message.unknownFields) :
    after.Clean runtime := by
  obtain ⟨items, hitems, hall⟩ := h
  exact ⟨items, hsame.trans hitems, hall⟩

theorem Clean.mergeFrom (h : message.Clean runtime)
    (hother : other.Clean runtime) :
    (message.mergeFrom other).Clean runtime := by
  obtain ⟨items, hitems, hall⟩ := h
  obtain ⟨more, hmore, hothers⟩ := hother
  refine ⟨items ++ more, ?_, fun item hitem => ?_⟩
  · rw [List.flatten_append, ← hitems, ← hmore]
    rfl
  · exact (List.mem_append.mp hitem).elim (hall item) (hothers item)

theorem Clean.readProtocolVersion (h : message.Clean runtime)
    (hvalue : value < 2 ^ 32) :
    (message.readProtocolVersion runtime value).Clean runtime := by
  unfold GeneratedCastMessage.readProtocolVersion
  split_ifs with hzero
  · exact h.of_unknownFields rfl
  · exact h.keep (foreign_protocolVersion hvalue hzero)

theorem Clean.readPayloadType (h : message.Clean runtime)
    (hvalue : value < 2 ^ 32) :
    (message.readPayloadType runtime value).Clean runtime := by
  rcases value with _ | _ | value
  · exact h.of_unknownFields rfl
  · exact h.of_unknownFields rfl
  · exact h.keep (foreign_payloadType hvalue)

theorem Clean.read (h : message.Clean runtime)
    (hread : case.read runtime message bytes = some (after, rest)) :
    after.Clean runtime := by
  rcases Case.read_cases hread with ⟨value, hvalue, hcase⟩ | ⟨text, -, hcase⟩
  · obtain ⟨front, -, hspells⟩ :=
      (runtime.recognizes_varint32 bytes value rest).mp hvalue
    rcases hcase with ⟨-, rfl⟩ | ⟨-, rfl⟩
    · exact h.readProtocolVersion hspells.lt
    · exact h.readPayloadType hspells.lt
  · rcases hcase with ⟨-, rfl⟩ | ⟨-, rfl⟩ | ⟨-, rfl⟩ | ⟨-, rfl⟩ | ⟨-, rfl⟩ <;>
      exact h.of_unknownFields rfl

theorem Clean.skip (h : message.Clean runtime)
    (htag : runtime.readTag bytes = (tag, tail)) (hzero : tag ≠ 0)
    (htype : tag % 8 ≠ 4) (hunknown : Case.ofTag tag = none)
    (hskip : message.skip runtime tag tail = some (after, rest)) :
    after.Clean runtime := by
  obtain ⟨kept, hkept, rfl⟩ := skip_eq_some hskip
  obtain ⟨head, -, hhead⟩ := (runtime.readTag_eq_iff hzero).mp htag
  exact h.keep
    (foreign_of_keepField hzero htype hhead.lt hunknown hkept)

theorem Built.clean (h : message.Built runtime) : message.Clean runtime := by
  induction h with
  | empty => exact ⟨[], rfl, by simp⟩
  | assign members _ ih => exact ih.of_unknownFields rfl
  | mergeFrom _ _ ih ihOther => exact ih.mergeFrom ihOther
  | read buffered bytes _ hread ih =>
      rw [mergePartialFromCodedStream_eq] at hread
      obtain ⟨-, hclean⟩ := FieldSwitch.loop_invariant
        (P := fun message _ => Clean runtime message)
        (fun _ hcase hclean => hclean.read hcase)
        (fun htag hzero htype hunknown hskip hclean =>
          hclean.skip htag hzero htype hunknown hskip) hread ih
      exact hclean

end Unknown

/-! ## Reading it back -/

section Back

variable {message : GeneratedCastMessage}

/-- What is written of a text: nothing, or the field that sets it.  `member`
is the message with a value for the text. -/
theorem rounds_writeOptional (runtime : WireRuntime) (case : Case)
    (member : Option StdString → GeneratedCastMessage)
    (hread : ∀ old bytes, case.read runtime (member old) bytes =
      (runtime.readString bytes).map fun r => (member (some r.1), r.2))
    (old text : Option StdString)
    (htext : (writeOptional runtime case.tag text).length < 2 ^ 31) :
    (switch runtime).Rounds (member old)
      (writeOptional runtime case.tag text) (member (text.or old)) := by
  cases text with
  | none => exact .nil _
  | some text =>
      simp only [writeOptional, WireRuntime.writeString,
        List.length_append] at htext
      refine .single (round_of_case case fun rest => ?_)
      rw [hread, WireRuntime.readString_write (by omega)]
      rfl

theorem rounds_writeEnum (runtime : WireRuntime) (case : Case) {α : Type}
    (number : α → ℕ)
    (hnumber : ∀ value, number value < 2 ^ 32)
    (member : Option α → GeneratedCastMessage)
    (hread : ∀ old value bytes rest,
      runtime.readVarint32 bytes = some (number value, rest) →
        case.read runtime (member old) bytes =
          some (member (some value), rest))
    (old value : Option α) :
    (switch runtime).Rounds (member old)
      (writeEnum runtime case.tag (value.map number))
      (member (value.or old)) := by
  cases value with
  | none => exact .nil _
  | some value =>
      exact .single (round_of_case case fun rest => hread old value _ _
        (WireRuntime.readVarint32_write (hnumber value)))

theorem rounds_unknown {items : List (List UInt8)}
    (hall : ∀ item ∈ items, Foreign runtime item)
    (message : GeneratedCastMessage) :
    (switch runtime).Rounds message items.flatten
      (message.keep items.flatten) := by
  induction items generalizing message with
  | nil =>
      have hsame : message.keep [] = message := by
        rw [keep, List.append_nil]
      rw [List.flatten_nil, hsame]
      exact .nil message
  | cons item items ih =>
      have hmore := ih (fun other hother => hall other
        (List.mem_cons_of_mem _ hother)) (message.keep item)
      rw [List.flatten_cons]
      have hboth := FieldSwitch.Rounds.cons
        (hall item (List.mem_cons_self ..) message) hmore
      rwa [keep, keep, List.append_assoc] at hboth

/-- Member after member and then the unknown fields: the loop merges. -/
theorem rounds_serialize (h : message.Clean runtime)
    (hlength : (message.serializeWithCachedSizes runtime).length < 2 ^ 31)
    (into : GeneratedCastMessage) :
    (switch runtime).Rounds into (message.serializeWithCachedSizes runtime)
      (into.mergeFrom message) := by
  obtain ⟨⟨version, source, destination, namespaceId, type, utf8, binary⟩,
    unknown⟩ := message
  obtain ⟨items, rfl, hall⟩ := h
  simp only [serializeWithCachedSizes, List.length_append] at hlength
  have hversion := rounds_writeEnum runtime .protocolVersion _
    ChromeCastMessage.protocolVersionNumber_lt
    (fun member => { into with protocolVersion := member })
    (fun old value bytes rest hread => by
      rw [Case.read, hread]
      cases value
      rfl) into.protocolVersion version
  have hsource := rounds_writeOptional runtime .sourceId
    (fun member => { into with
      protocolVersion := version.or into.protocolVersion
      sourceId := member })
    (fun _ _ => rfl) into.sourceId source (by simp only [Case.tag]; omega)
  have hdestination := rounds_writeOptional runtime .destinationId
    (fun member => { into with
      protocolVersion := version.or into.protocolVersion
      sourceId := source.or into.sourceId
      destinationId := member })
    (fun _ _ => rfl) into.destinationId destination
    (by simp only [Case.tag]; omega)
  have hnamespace := rounds_writeOptional runtime .namespaceId
    (fun member => { into with
      protocolVersion := version.or into.protocolVersion
      sourceId := source.or into.sourceId
      destinationId := destination.or into.destinationId
      namespaceId := member })
    (fun _ _ => rfl) into.namespaceId namespaceId
    (by simp only [Case.tag]; omega)
  have htype := rounds_writeEnum runtime .payloadType _
    ChromeCastMessage.payloadTypeNumber_lt
    (fun member => { into with
      protocolVersion := version.or into.protocolVersion
      sourceId := source.or into.sourceId
      destinationId := destination.or into.destinationId
      namespaceId := namespaceId.or into.namespaceId
      payloadType := member })
    (fun old value bytes rest hread => by
      rw [Case.read, hread]
      cases value <;> rfl) into.payloadType type
  have hutf8 := rounds_writeOptional runtime .payloadUtf8
    (fun member => { into with
      protocolVersion := version.or into.protocolVersion
      sourceId := source.or into.sourceId
      destinationId := destination.or into.destinationId
      namespaceId := namespaceId.or into.namespaceId
      payloadType := type.or into.payloadType
      payloadUtf8 := member })
    (fun _ _ => rfl) into.payloadUtf8 utf8 (by simp only [Case.tag]; omega)
  have hbinary := rounds_writeOptional runtime .payloadBinary
    (fun member => { into with
      protocolVersion := version.or into.protocolVersion
      sourceId := source.or into.sourceId
      destinationId := destination.or into.destinationId
      namespaceId := namespaceId.or into.namespaceId
      payloadType := type.or into.payloadType
      payloadUtf8 := utf8.or into.payloadUtf8
      payloadBinary := member })
    (fun _ _ => rfl) into.payloadBinary binary
    (by simp only [Case.tag]; omega)
  exact hversion.append (hsource.append (hdestination.append
    (hnamespace.append (htype.append (hutf8.append (hbinary.append
      (rounds_unknown hall _)))))))

/-- Whatever a message has been through: `SerializeWithCachedSizes` writes as
many bytes as `ByteSize` says, and a parser that reads them merges the message,
unknown fields and all, into the one it reads into.  If there are none and the
required members are set, they are the bytes of the library's message. -/
theorem merge_serialize_of_built (hbuilt : message.Built runtime)
    (hlength : (message.serializeWithCachedSizes runtime).length < 2 ^ 31) :
    (message.serializeWithCachedSizes runtime).length = message.byteSize ∧
      (∀ buffered (into : GeneratedCastMessage),
        into.mergePartialFromCodedStream runtime buffered
            (message.serializeWithCachedSizes runtime) =
          some (into.mergeFrom message)) ∧
      ∀ record, message.unknownFields = [] →
        message.complete = some record →
          record.serialize runtime =
            message.serializeWithCachedSizes runtime := by
  refine ⟨length_serializeWithCachedSizes message hlength,
    fun buffered into => ?_, fun record hunknown hcomplete =>
      (serializeWithCachedSizes_of_complete hunknown hcomplete).symm⟩
  rw [mergePartialFromCodedStream_eq]
  exact (rounds_serialize hbuilt.clean hlength into).loop
    (Nat.lt_succ_self _)

set_option maxRecDepth 2000 in
/-- A message that was read, with a padded number nobody knows, merged into
one with another source. -/
theorem merge_serialize_of_built_padded :
    mergePartialFromCodedStream wireRuntime (fun _ => true)
        { sourceId := some [97], payloadType := some .string }
        [18, 1, 98, 120, 5] =
      some
        { sourceId := some [98]
          payloadType := some .string
          unknownFields := [120, 5] } := by
  have hread : mergePartialFromCodedStream wireRuntime (fun _ => false) {}
      [120, 133, 0, 18, 1, 98] =
        some { sourceId := some [98], unknownFields := [120, 5] } := rfl
  obtain ⟨-, hmerge, -⟩ := merge_serialize_of_built
    (.read _ _ .empty hread) (by decide)
  exact hmerge _ _

end Back

/-! ## What is written again -/

section Again

variable {case : Case} {message after : GeneratedCastMessage}
  {bytes tail rest : List UInt8} {tag : ℕ}

@[simp] theorem length_keep :
    ((message.keep bytes).serializeWithCachedSizes runtime).length =
      (message.serializeWithCachedSizes runtime).length + bytes.length := by
  simp only [serializeWithCachedSizes, keep, List.length_append]
  omega

/-- Setting an enumerator, or keeping one that is not known, writes no more
than its field. -/
theorem length_readProtocolVersion (runtime : WireRuntime)
    (message : GeneratedCastMessage)
    (value : ℕ) :
    ((message.readProtocolVersion runtime
        value).serializeWithCachedSizes runtime).length ≤
      (message.serializeWithCachedSizes runtime).length +
        (runtime.writeVarint 8 ++ runtime.writeVarint value).length := by
  unfold readProtocolVersion
  split_ifs with hzero
  · subst hzero
    simp only [serializeWithCachedSizes, List.length_append, Option.map_some,
      writeEnum, protocolVersionNumber]
    omega
  · rw [length_keep]

theorem length_readPayloadType (runtime : WireRuntime)
    (message : GeneratedCastMessage)
    (value : ℕ) :
    ((message.readPayloadType runtime
        value).serializeWithCachedSizes runtime).length ≤
      (message.serializeWithCachedSizes runtime).length +
        (runtime.writeVarint 40 ++ runtime.writeVarint value).length := by
  rcases value with _ | _ | value
  · simp only [readPayloadType, serializeWithCachedSizes, List.length_append,
      Option.map_some, writeEnum, payloadTypeNumber]
    omega
  · simp only [readPayloadType, serializeWithCachedSizes, List.length_append,
      Option.map_some, writeEnum, payloadTypeNumber, Nat.zero_add]
    omega
  · exact Nat.le_of_eq length_keep

theorem length_of_read (htag : runtime.readTag bytes = (case.tag, tail))
    (hread : case.read runtime message tail = some (after, rest)) :
    (after.serializeWithCachedSizes runtime).length + rest.length ≤
      (message.serializeWithCachedSizes runtime).length + bytes.length := by
  obtain ⟨head, rfl, hhead⟩ := (runtime.readTag_eq_iff
    (by cases case <;> decide)).mp htag
  have hheadLength := runtime.length_writeVarint_le hhead
  rcases Case.read_cases hread with ⟨value, hvalue, hcase⟩ |
    ⟨text, htext, hcase⟩
  · obtain ⟨front, rfl, hspells⟩ :=
      (runtime.recognizes_varint32 tail value rest).mp hvalue
    have hfront := runtime.length_writeVarint_le hspells
    rcases hcase with ⟨rfl, rfl⟩ | ⟨rfl, rfl⟩
    · have hset := length_readProtocolVersion runtime message value
      simp only [List.length_append, Case.tag] at hset hheadLength ⊢
      omega
    · have hset := length_readPayloadType runtime message value
      simp only [List.length_append, Case.tag] at hset hheadLength ⊢
      omega
  · obtain ⟨front, rfl, hspells⟩ :=
      (runtime.recognizes_string tail text rest).mp htext
    have hfront := runtime.length_writeString_le hspells
    rcases hcase with ⟨rfl, rfl⟩ | ⟨rfl, rfl⟩ | ⟨rfl, rfl⟩ | ⟨rfl, rfl⟩ |
      ⟨rfl, rfl⟩ <;>
    · simp only [serializeWithCachedSizes, List.length_append, writeOptional,
        Case.tag] at hheadLength ⊢
      omega

theorem length_after_skip (htag : runtime.readTag bytes = (tag, tail))
    (hzero : tag ≠ 0)
    (hskip : message.skip runtime tag tail = some (after, rest)) :
    (after.serializeWithCachedSizes runtime).length + rest.length ≤
      (message.serializeWithCachedSizes runtime).length + bytes.length := by
  obtain ⟨head, rfl, hhead⟩ := (runtime.readTag_eq_iff hzero).mp htag
  obtain ⟨kept, hkept, rfl⟩ := skip_eq_some hskip
  obtain ⟨front, body, rfl, rfl, hbody, -⟩ := runtime.keepField_again hkept
  have hheadLength := runtime.length_writeVarint_le hhead
  rw [length_keep]
  simp only [List.length_append]
  omega

/-- What was read takes no more bytes when it is written. -/
theorem length_of_merge {buffered : List UInt8 → Bool}
    (hmerge : message.mergePartialFromCodedStream runtime buffered bytes =
      some after) :
    (after.serializeWithCachedSizes runtime).length ≤
      (message.serializeWithCachedSizes runtime).length + bytes.length := by
  rw [mergePartialFromCodedStream_eq] at hmerge
  obtain ⟨rest, hrest⟩ := FieldSwitch.loop_invariant
    (P := fun state rest => (state.serializeWithCachedSizes runtime).length +
        rest.length ≤
      (message.serializeWithCachedSizes runtime).length + bytes.length)
    (fun htag hread hlength =>
      Nat.le_trans (length_of_read htag hread) hlength)
    (fun htag hzero _ _ hskip hlength =>
      Nat.le_trans (length_after_skip htag hzero hskip) hlength)
    hmerge (Nat.le_refl _)
  omega

theorem mergeFrom_empty (message : GeneratedCastMessage) :
    mergeFrom {} message = message := by
  obtain ⟨⟨version, source, destination, namespaceId, type, utf8, binary⟩,
    unknown⟩ := message
  simp [mergeFrom, PartialCastMessage.mergeFrom]

/-- A body that is accepted can be written again: in no more bytes, with the
unknown fields, and whoever parses that gets the same message. -/
theorem parse_serialize_of_parse {buffered : List UInt8 → Bool}
    (hparse : parse runtime buffered bytes = some message) :
    (message.serializeWithCachedSizes runtime).length = message.byteSize ∧
      message.byteSize ≤ bytes.length ∧
      ∀ again, parse runtime again
          (message.serializeWithCachedSizes runtime) =
        some message := by
  unfold parse at hparse
  obtain ⟨result, hmerge, hresult⟩ := Option.bind_eq_some_iff.mp hparse
  split_ifs at hresult with hcomplete
  cases hresult
  have hwritten := length_of_merge hmerge
  have hempty : serializeWithCachedSizes runtime {} = [] := rfl
  rw [hempty, List.length_nil, Nat.zero_add] at hwritten
  have hlimit := Nat.le_trans hwritten (List.length_take_le ..)
  have hbytes := Nat.le_trans hwritten (List.length_take_le' ..)
  have hsmall : (message.serializeWithCachedSizes runtime).length < 2 ^ 31 :=
    Nat.lt_of_le_of_lt hlimit (by decide)
  have hsize := length_serializeWithCachedSizes message hsmall
  refine ⟨hsize, hsize ▸ hbytes, fun again => ?_⟩
  have hclean : message.Clean runtime :=
    (Built.read buffered _ .empty hmerge).clean
  have hloop := (rounds_serialize hclean hsmall {}).loop
    (Nat.lt_succ_self _)
  unfold parse
  rw [List.take_of_length_le hlimit, mergePartialFromCodedStream_eq, hloop,
    mergeFrom_empty]
  exact if_pos hcomplete

/-- A complete body with a padded number, an enumerator and a group which
nobody knows. -/
theorem parse_serialize_of_parse_unknown :
    parse wireRuntime (fun _ => false)
        [8, 0, 18, 0, 26, 0, 34, 0, 40, 0, 120, 5, 40, 7, 123, 120, 1, 124] =
      some
        { protocolVersion := some .version210
          sourceId := some []
          destinationId := some []
          namespaceId := some []
          payloadType := some .string
          unknownFields := [120, 5, 40, 7, 123, 120, 1, 124] } := by
  have hparse : parse wireRuntime (fun _ => true)
      [120, 133, 0, 40, 7, 8, 0, 18, 0, 123, 120, 129, 0, 124, 40, 0, 26, 0,
        34, 0] =
        some
          { protocolVersion := some .version210
            sourceId := some []
            destinationId := some []
            namespaceId := some []
            payloadType := some .string
            unknownFields := [120, 5, 40, 7, 123, 120, 1, 124] } := rfl
  obtain ⟨-, -, hagain⟩ := parse_serialize_of_parse hparse
  exact hagain _

end Again

end GeneratedCastMessage

end LibChromecast
