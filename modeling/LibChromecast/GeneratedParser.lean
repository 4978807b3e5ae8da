import LibChromecast.Foundation.FieldLoop
import LibChromecast.Foundation.WireRuntime
import LibChromecast.MessageGrammar

/-!
# The generated parser

The generated class with all that its parser does.  `parse` of a complete
message reads a tag for every field and skips what it does not know.  The
generated `MergePartialFromCodedStream` looks for the next field in field order
first and jumps behind the test of its tag, and it keeps in `_unknown_fields_`
the fields without a case and the enumerators it does not know.  None of it
makes a difference to what is accepted and to what the members hold.
-/

namespace LibChromecast

open Foundation.ProtobufWire

/-- The generated class: the members with their has-bits, and
`_unknown_fields_`. -/
structure GeneratedCastMessage extends PartialCastMessage where
  unknownFields : StdString := []

namespace GeneratedCastMessage

variable (runtime : WireRuntime)

/-! ## The switch -/

/-- The cases of the switch which name a field. -/
inductive Case where
  | protocolVersion
  | sourceId
  | destinationId
  | namespaceId
  | payloadType
  | payloadUtf8
  | payloadBinary

namespace Case

def tag : Case → ℕ
  | .protocolVersion => 8
  | .sourceId => 18
  | .destinationId => 26
  | .namespaceId => 34
  | .payloadType => 40
  | .payloadUtf8 => 50
  | .payloadBinary => 58

def ofTag : ℕ → Option Case
  | 8 => some .protocolVersion
  | 18 => some .sourceId
  | 26 => some .destinationId
  | 34 => some .namespaceId
  | 40 => some .payloadType
  | 50 => some .payloadUtf8
  | 58 => some .payloadBinary
  | _ => none

def following : Case → Option Case
  | .protocolVersion => some .sourceId
  | .sourceId => some .destinationId
  | .destinationId => some .namespaceId
  | .namespaceId => some .payloadType
  | .payloadType => some .payloadUtf8
  | .payloadUtf8 => some .payloadBinary
  | .payloadBinary => none

end Case

/-- What is written to the stream on `_unknown_fields_`. -/
def keep (bytes : List UInt8) (message : GeneratedCastMessage) :
    GeneratedCastMessage :=
  { message with unknownFields := message.unknownFields ++ bytes }

def readProtocolVersion (value : ℕ) (message : GeneratedCastMessage) :
    GeneratedCastMessage :=
  if value = 0 then { message with protocolVersion := some .version210 }
  else message.keep (runtime.writeVarint 8 ++ runtime.writeVarint value)

def readPayloadType (value : ℕ) (message : GeneratedCastMessage) :
    GeneratedCastMessage :=
  match value with
  | 0 => { message with payloadType := some .string }
  | 1 => { message with payloadType := some .binary }
  | _ => message.keep (runtime.writeVarint 40 ++ runtime.writeVarint value)

/-- What stands behind the label of a case. -/
def Case.read (case : Case) (message : GeneratedCastMessage)
    (bytes : List UInt8) : Option (GeneratedCastMessage × List UInt8) :=
  match case with
  | .protocolVersion => (runtime.readVarint32 bytes).map fun r =>
      (message.readProtocolVersion runtime r.1, r.2)
  | .sourceId => (runtime.readString bytes).map fun r =>
      ({ message with sourceId := some r.1 }, r.2)
  | .destinationId => (runtime.readString bytes).map fun r =>
      ({ message with destinationId := some r.1 }, r.2)
  | .namespaceId => (runtime.readString bytes).map fun r =>
      ({ message with namespaceId := some r.1 }, r.2)
  | .payloadType => (runtime.readVarint32 bytes).map fun r =>
      (message.readPayloadType runtime r.1, r.2)
  | .payloadUtf8 => (runtime.readString bytes).map fun r =>
      ({ message with payloadUtf8 := some r.1 }, r.2)
  | .payloadBinary => (runtime.readString bytes).map fun r =>
      ({ message with payloadBinary := some r.1 }, r.2)

/-- The default label, behind the test of the tag. -/
def skip (tag : ℕ) (message : GeneratedCastMessage) (bytes : List UInt8) :
    Option (GeneratedCastMessage × List UInt8) :=
  (runtime.keepField tag bytes).map fun r => (message.keep r.1, r.2)

section Reading

variable {runtime} {case : Case} {message after : GeneratedCastMessage}
  {bytes rest : List UInt8} {tag : ℕ}

theorem Case.ofTag_eq_some_iff :
    Case.ofTag tag = some case ↔ tag = case.tag := by
  constructor
  · intro h
    unfold Case.ofTag at h
    split at h <;> first
      | (cases h; rfl)
      | cases h
  · rintro rfl
    cases case <;> rfl

/-- A case reads a varint or a text, and what follows is the rest. -/
theorem Case.read_cases
    (h : case.read runtime message bytes = some (after, rest)) :
    (∃ value, runtime.readVarint32 bytes = some (value, rest) ∧
      (case = .protocolVersion ∧
          after = message.readProtocolVersion runtime value ∨
        case = .payloadType ∧
          after = message.readPayloadType runtime value)) ∨
    ∃ text, runtime.readString bytes = some (text, rest) ∧
      (case = .sourceId ∧ after = { message with sourceId := some text } ∨
        case = .destinationId ∧
          after = { message with destinationId := some text } ∨
        case = .namespaceId ∧
          after = { message with namespaceId := some text } ∨
        case = .payloadUtf8 ∧
          after = { message with payloadUtf8 := some text } ∨
        case = .payloadBinary ∧
          after = { message with payloadBinary := some text }) := by
  cases case with
  | protocolVersion | payloadType =>
      obtain ⟨⟨value, last⟩, hvalue, hsome⟩ := Option.map_eq_some_iff.mp h
      cases hsome
      exact Or.inl ⟨value, hvalue, by simp⟩
  | sourceId | destinationId | namespaceId | payloadUtf8 | payloadBinary =>
      obtain ⟨⟨text, last⟩, htext, hsome⟩ := Option.map_eq_some_iff.mp h
      cases hsome
      exact Or.inr ⟨text, htext, by simp⟩

theorem Case.length_of_read
    (h : case.read runtime message bytes = some (after, rest)) :
    rest.length ≤ bytes.length := by
  rcases Case.read_cases h with ⟨value, hvalue, -⟩ | ⟨text, htext, -⟩
  · exact runtime.recognizes_varint32.length_le hvalue
  · exact runtime.recognizes_string.length_le htext

theorem skip_eq_some
    (h : message.skip runtime tag bytes = some (after, rest)) :
    ∃ kept, runtime.keepField tag bytes = some (kept, rest) ∧
      after = message.keep kept := by
  obtain ⟨⟨kept, last⟩, hkept, hsome⟩ := Option.map_eq_some_iff.mp h
  cases hsome
  exact ⟨kept, hkept, rfl⟩

theorem length_of_skip
    (h : message.skip runtime tag bytes = some (after, rest)) :
    rest.length ≤ bytes.length := by
  obtain ⟨kept, hkept, -⟩ := skip_eq_some h
  obtain ⟨front, body, rfl, -⟩ := runtime.keepField_again hkept
  rw [List.length_append]
  exact Nat.le_add_left _ _

end Reading

def switch : FieldSwitch Case GeneratedCastMessage where
  runtime := runtime
  tag := Case.tag
  ofTag := Case.ofTag
  following := Case.following
  read := Case.read runtime
  skip tag message bytes := message.skip runtime tag bytes
  ofTag_eq_some_iff := Case.ofTag_eq_some_iff
  tag_pos case := by cases case <;> decide
  tag_lt case := by cases case <;> decide
  length_of_read := Case.length_of_read
  length_of_skip := length_of_skip

/-- `MergePartialFromCodedStream`. -/
def mergePartialFromCodedStream (buffered : List UInt8 → Bool)
    (message : GeneratedCastMessage) (bytes : List UInt8) :
    Option GeneratedCastMessage :=
  (switch runtime).jumping buffered (bytes.length + 1) none message bytes

/-- `ParseFromCodedStream`: into a message that was cleared, up to the limit of
the stream, and then `IsInitialized`. -/
def parse (buffered : List UInt8 → Bool) (bytes : List UInt8) :
    Option GeneratedCastMessage := do
  let message ← mergePartialFromCodedStream runtime buffered {}
    (bytes.take codedInputLimit)
  if message.complete.isSome then some message else none

/-! ## The members -/

section Members

variable {case : Case} {message : GeneratedCastMessage}
  {bytes rest : List UInt8} {tag : ℕ}

@[simp] theorem toPartialCastMessage_readProtocolVersion (value : ℕ) :
    (message.readProtocolVersion runtime value).toPartialCastMessage =
      message.toPartialCastMessage.readProtocolVersion value := by
  unfold readProtocolVersion PartialCastMessage.readProtocolVersion
  split_ifs <;> rfl

@[simp] theorem toPartialCastMessage_readPayloadType (value : ℕ) :
    (message.readPayloadType runtime value).toPartialCastMessage =
      message.toPartialCastMessage.readPayloadType value := by
  unfold readPayloadType PartialCastMessage.readPayloadType
  rcases value with _ | _ | value <;> rfl

variable {runtime}

theorem Case.known_eq_none (hunknown : Case.ofTag tag = none) :
    WireField.known tag = none := by
  unfold Case.ofTag at hunknown
  unfold WireField.known
  split at hunknown <;> simp_all

theorem mergePartial_of_tag (fuel : ℕ)
    (htag : runtime.readTag bytes = (case.tag, rest)) :
    PartialCastMessage.mergePartial runtime (fuel + 1)
        message.toPartialCastMessage bytes =
      (case.read runtime message rest).bind fun r =>
        PartialCastMessage.mergePartial runtime fuel
          r.1.toPartialCastMessage r.2 := by
  cases case with
  | protocolVersion | payloadType =>
      rw [PartialCastMessage.mergePartial_of_varint fuel _ rfl htag,
        Case.read, Option.bind_map]
      simp only [Function.comp_def, toPartialCastMessage_readProtocolVersion,
        toPartialCastMessage_readPayloadType]
      rfl
  | sourceId | destinationId | namespaceId | payloadUtf8 | payloadBinary =>
      rw [PartialCastMessage.mergePartial_of_text fuel _ rfl htag,
        Case.read, Option.bind_map]
      rfl

theorem mergePartial_of_unknown (fuel : ℕ)
    (htag : runtime.readTag bytes = (tag, rest))
    (hunknown : Case.ofTag tag = none) (hgoes : ¬(tag = 0 ∨ tag % 8 = 4)) :
    PartialCastMessage.mergePartial runtime (fuel + 1)
        message.toPartialCastMessage bytes =
      (message.skip runtime tag rest).bind fun r =>
        PartialCastMessage.mergePartial runtime fuel
          r.1.toPartialCastMessage r.2 := by
  rw [PartialCastMessage.mergePartial_of_unknown fuel _
      (Case.known_eq_none hunknown) htag, if_neg hgoes,
    ← runtime.keepField_skips, skip, Option.bind_map, Option.bind_map]
  rfl

/-- The loop without jumps leaves the same members as the one that forgets what
it skips. -/
theorem loop_members (runtime : WireRuntime) (fuel : ℕ)
    (message : GeneratedCastMessage) (bytes : List UInt8) :
    ((switch runtime).loop fuel message bytes).map toPartialCastMessage =
      PartialCastMessage.mergePartial runtime fuel
        message.toPartialCastMessage bytes := by
  induction fuel generalizing message bytes with
  | zero => rfl
  | succ fuel ih =>
      cases htag : runtime.readTag bytes with
      | mk tag rest =>
        cases hcase : Case.ofTag tag with
        | some case =>
            have hnumber := Case.ofTag_eq_some_iff.mp hcase
            subst hnumber
            have hswitch : (switch runtime).runtime.readTag bytes =
                ((switch runtime).tag case, rest) := htag
            rw [mergePartial_of_tag fuel htag,
              FieldSwitch.loop_of_tag hswitch, Option.map_bind]
            exact Option.bind_congr fun r _ => ih r.1 r.2
        | none =>
            have hswitch : (switch runtime).runtime.readTag bytes =
                (tag, rest) := htag
            by_cases hends : tag = 0 ∨ tag % 8 = 4
            · rw [PartialCastMessage.mergePartial_of_unknown fuel _
                  (Case.known_eq_none hcase) htag, if_pos hends,
                FieldSwitch.loop_of_end hswitch hcase hends]
              rfl
            · rw [mergePartial_of_unknown fuel htag hcase hends,
                FieldSwitch.loop_of_unknown hswitch hcase hends,
                Option.map_bind]
              exact Option.bind_congr fun r _ => ih r.1 r.2

theorem mergePartialFromCodedStream_eq (buffered : List UInt8 → Bool)
    (message : GeneratedCastMessage) (bytes : List UInt8) :
    message.mergePartialFromCodedStream runtime buffered bytes =
      (switch runtime).loop (bytes.length + 1) message bytes :=
  (FieldSwitch.jumping_eq buffered _).1 message bytes (Nat.lt_succ_self _)

/-- Whatever the bytes are, and whatever of them is buffered when the parser
looks for the next field: with its jumps, and with the unknown fields kept, it
accepts the same and reads the same members. -/
theorem complete_parse (runtime : WireRuntime) (buffered : List UInt8 → Bool)
    (bytes : List UInt8) :
    ((parse runtime buffered bytes).bind fun message => message.complete) =
      ChromeCastMessage.parse runtime bytes := by
  have hcomplete : ∀ message : GeneratedCastMessage,
      ((if message.complete.isSome then some message else none).bind
        fun message => message.complete) = message.complete := by
    intro message
    cases hrecord : message.complete with
    | none => rfl
    | some record => exact hrecord
  have hlength := List.length_take_le' codedInputLimit bytes
  have hmembers := loop_members runtime (bytes.length + 1) {}
    (bytes.take codedInputLimit)
  rw [FieldSwitch.loop_congr_fuel (by omega) (Nat.lt_succ_self _),
    ← mergePartialFromCodedStream_eq buffered] at hmembers
  unfold parse ChromeCastMessage.parse
  rw [← hmembers]
  cases mergePartialFromCodedStream runtime buffered {}
      (bytes.take codedInputLimit) with
  | none => rfl
  | some message => exact hcomplete message

end Members

end GeneratedCastMessage

end LibChromecast
