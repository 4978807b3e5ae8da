import LibChromecast.CastMessage
import LibChromecast.Foundation.WireRuntime

/-!
# The generated codec

`extensions::core_api::cast_channel::CastMessage` of the generated
`google_cast_message.cpp`: the fields are written in field order, and read in
any order, the last occurrence of a field winning.  Unknown fields and
enumerators are skipped; a zero tag or an END_GROUP tag ends the message.
The coded stream stops at its 64 MiB limit.  `runtime` is the protobuf library
that the generated code calls.
-/

namespace LibChromecast

open Foundation.ProtobufWire

section Runtime

variable (runtime : WireRuntime)

/-- The generated class while it is being read: `_has_bits_` and the values. -/
structure PartialCastMessage where
  protocolVersion : Option ProtocolVersion := none
  sourceId : Option StdString := none
  destinationId : Option StdString := none
  namespaceId : Option StdString := none
  payloadType : Option PayloadType := none
  payloadUtf8 : Option StdString := none
  payloadBinary : Option StdString := none

namespace PartialCastMessage

/-- `set_protocol_version`, when the value is an enumerator. -/
def readProtocolVersion (value : ℕ) (record : PartialCastMessage) :
    PartialCastMessage :=
  if value = 0 then { record with protocolVersion := some .version210 }
  else record

/-- `set_payload_type`, when the value is an enumerator. -/
def readPayloadType (value : ℕ) (record : PartialCastMessage) :
    PartialCastMessage :=
  match value with
  | 0 => { record with payloadType := some .string }
  | 1 => { record with payloadType := some .binary }
  | _ => record

/-- `MergePartialFromCodedStream`.  Every round consumes a tag, so the fuel of
`parse` is enough. -/
def mergePartial : ℕ → PartialCastMessage → List UInt8 →
    Option PartialCastMessage
  | 0, _, _ => none
  | fuel + 1, record, bytes =>
      match runtime.readTag bytes with
      | (8, rest) => do
          let (value, rest) ← runtime.readVarint32 rest
          mergePartial fuel (record.readProtocolVersion value) rest
      | (18, rest) => do
          let (text, rest) ← runtime.readString rest
          mergePartial fuel { record with sourceId := some text } rest
      | (26, rest) => do
          let (text, rest) ← runtime.readString rest
          mergePartial fuel { record with destinationId := some text } rest
      | (34, rest) => do
          let (text, rest) ← runtime.readString rest
          mergePartial fuel { record with namespaceId := some text } rest
      | (40, rest) => do
          let (value, rest) ← runtime.readVarint32 rest
          mergePartial fuel (record.readPayloadType value) rest
      | (50, rest) => do
          let (text, rest) ← runtime.readString rest
          mergePartial fuel { record with payloadUtf8 := some text } rest
      | (58, rest) => do
          let (text, rest) ← runtime.readString rest
          mergePartial fuel { record with payloadBinary := some text } rest
      | (tag, rest) =>
          if tag = 0 ∨ tag % 8 = 4 then some record
          else do
            let rest ← runtime.skipField tag rest
            mergePartial fuel record rest

/-- `IsInitialized`, with the complete record. -/
def complete (record : PartialCastMessage) : Option ChromeCastMessage := do
  let protocolVersion ← record.protocolVersion
  let sourceId ← record.sourceId
  let destinationId ← record.destinationId
  let namespaceId ← record.namespaceId
  let payloadType ← record.payloadType
  pure {
    protocolVersion, sourceId, destinationId, namespaceId, payloadType
    payloadUtf8 := record.payloadUtf8
    payloadBinary := record.payloadBinary }

end PartialCastMessage

namespace ChromeCastMessage

def protocolVersionNumber : ProtocolVersion → ℕ
  | .version210 => 0

def payloadTypeNumber : PayloadType → ℕ
  | .string => 0
  | .binary => 1

def writeOptional (tag : ℕ) : Option StdString → List UInt8
  | none => []
  | some text => runtime.writeVarint tag ++ runtime.writeString text

def serialize (record : ChromeCastMessage) : List UInt8 :=
  runtime.writeVarint 8 ++
    (runtime.writeVarint (protocolVersionNumber record.protocolVersion) ++
  (runtime.writeVarint 18 ++ (runtime.writeString record.sourceId ++
  (runtime.writeVarint 26 ++ (runtime.writeString record.destinationId ++
  (runtime.writeVarint 34 ++ (runtime.writeString record.namespaceId ++
  (runtime.writeVarint 40 ++
    (runtime.writeVarint (payloadTypeNumber record.payloadType) ++
  (writeOptional runtime 50 record.payloadUtf8 ++
    writeOptional runtime 58 record.payloadBinary))))))))))

def parse (bytes : List UInt8) : Option ChromeCastMessage := do
  let record ← PartialCastMessage.mergePartial runtime (bytes.length + 1) {}
    (bytes.take codedInputLimit)
  record.complete

end ChromeCastMessage

end Runtime

/-! ## Fields -/

/-- A field as it is read; one that is skipped is named by its tag. -/
inductive WireField where
  | protocolVersion (value : ℕ)
  | sourceId (text : StdString)
  | destinationId (text : StdString)
  | namespaceId (text : StdString)
  | payloadType (value : ℕ)
  | payloadUtf8 (text : StdString)
  | payloadBinary (text : StdString)
  | unknown (tag : ℕ)
deriving DecidableEq

namespace WireField

/-- What reading the field does to the record. -/
def apply (record : PartialCastMessage) : WireField → PartialCastMessage
  | .protocolVersion value => record.readProtocolVersion value
  | .sourceId text => { record with sourceId := some text }
  | .destinationId text => { record with destinationId := some text }
  | .namespaceId text => { record with namespaceId := some text }
  | .payloadType value => record.readPayloadType value
  | .payloadUtf8 text => { record with payloadUtf8 := some text }
  | .payloadBinary text => { record with payloadBinary := some text }
  | .unknown _ => record

/-- What stands behind the tag of a field that is not skipped. -/
inductive Body where
  | varint (make : ℕ → WireField)
  | text (make : StdString → WireField)

/-- The cases of the parser's switch. -/
def known : ℕ → Option Body
  | 8 => some (.varint .protocolVersion)
  | 18 => some (.text .sourceId)
  | 26 => some (.text .destinationId)
  | 34 => some (.text .namespaceId)
  | 40 => some (.varint .payloadType)
  | 50 => some (.text .payloadUtf8)
  | 58 => some (.text .payloadBinary)
  | _ => none

end WireField

namespace PartialCastMessage

variable {runtime : WireRuntime} {bytes rest : List UInt8} {tag : ℕ}

section Rounds

variable (fuel : ℕ) (record : PartialCastMessage)

/-- A case that reads a number. -/
theorem mergePartial_of_varint {make : ℕ → WireField}
    (hknown : WireField.known tag = some (.varint make))
    (htag : runtime.readTag bytes = (tag, rest)) :
    mergePartial runtime (fuel + 1) record bytes =
      (runtime.readVarint32 rest).bind fun r =>
        mergePartial runtime fuel ((make r.1).apply record) r.2 := by
  rw [mergePartial, htag]
  unfold WireField.known at hknown
  split at hknown <;> cases hknown <;> rfl

/-- A case that reads a text. -/
theorem mergePartial_of_text {make : StdString → WireField}
    (hknown : WireField.known tag = some (.text make))
    (htag : runtime.readTag bytes = (tag, rest)) :
    mergePartial runtime (fuel + 1) record bytes =
      (runtime.readString rest).bind fun r =>
        mergePartial runtime fuel ((make r.1).apply record) r.2 := by
  rw [mergePartial, htag]
  unfold WireField.known at hknown
  split at hknown <;> cases hknown <;> rfl

/-- The default label. -/
theorem mergePartial_of_unknown (hknown : WireField.known tag = none)
    (htag : runtime.readTag bytes = (tag, rest)) :
    mergePartial runtime (fuel + 1) record bytes =
      if tag = 0 ∨ tag % 8 = 4 then some record
      else (runtime.skipField tag rest).bind fun rest =>
        mergePartial runtime fuel record rest := by
  rw [mergePartial, htag]
  unfold WireField.known at hknown
  split at hknown
  case h_8 h8 h18 h26 h34 h40 h50 h58 =>
    split
    case h_8 heq =>
      cases heq
      rfl
    all_goals
      next heq =>
        cases heq
        contradiction
  all_goals cases hknown

theorem mergePartial_nil :
    mergePartial runtime (fuel + 1) record [] = some record := by
  have hzero := runtime.readTag_nil
  cases htag : runtime.readTag [] with
  | mk tag rest =>
    rw [htag] at hzero
    subst hzero
    rw [mergePartial_of_unknown fuel record rfl htag, if_pos (Or.inl rfl)]

end Rounds

/-! ## The round trip -/

section Written

variable (fuel : ℕ) (record : PartialCastMessage) (rest : List UInt8)

theorem mergePartial_writeVarint {make : ℕ → WireField} {value : ℕ}
    (hknown : WireField.known tag = some (.varint make)) (hzero : tag ≠ 0)
    (htag : tag < 2 ^ 32) (hvalue : value < 2 ^ 32) :
    mergePartial runtime (fuel + 1) record
        (runtime.writeVarint tag ++ (runtime.writeVarint value ++ rest)) =
      mergePartial runtime fuel ((make value).apply record) rest := by
  rw [mergePartial_of_varint fuel record hknown
      (WireRuntime.readTag_write hzero htag),
    WireRuntime.readVarint32_write hvalue, Option.bind_some]

theorem mergePartial_writeString {make : StdString → WireField}
    {text : StdString} (hknown : WireField.known tag = some (.text make))
    (hzero : tag ≠ 0) (htag : tag < 2 ^ 32) (htext : text.length < 2 ^ 31) :
    mergePartial runtime (fuel + 1) record
        (runtime.writeVarint tag ++ (runtime.writeString text ++ rest)) =
      mergePartial runtime fuel ((make text).apply record) rest := by
  rw [mergePartial_of_text fuel record hknown
      (WireRuntime.readTag_write hzero htag),
    WireRuntime.readString_write htext, Option.bind_some]

end Written

end PartialCastMessage

namespace ChromeCastMessage

open PartialCastMessage

variable {runtime : WireRuntime}

theorem protocolVersionNumber_lt (version : ProtocolVersion) :
    protocolVersionNumber version < 2 ^ 32 := by
  cases version
  decide

theorem payloadTypeNumber_lt (type : PayloadType) :
    payloadTypeNumber type < 2 ^ 32 := by
  cases type <;> decide

theorem mergePartial_payloads (fuel : ℕ) (record : PartialCastMessage)
    (utf8 binary : Option StdString)
    (hutf8 : record.payloadUtf8 = none)
    (hbinary : record.payloadBinary = none)
    (hutf8Length : ∀ text, utf8 = some text → text.length < 2 ^ 31)
    (hbinaryLength : ∀ text, binary = some text → text.length < 2 ^ 31) :
    mergePartial runtime (fuel + 3) record
        (writeOptional runtime 50 utf8 ++ writeOptional runtime 58 binary) =
      some { record with payloadUtf8 := utf8, payloadBinary := binary } := by
  obtain ⟨version, source, destination, namespaceId, type, _, _⟩ := record
  subst hutf8
  subst hbinary
  have hpayloadUtf8 : WireField.known 50 = some (.text .payloadUtf8) := rfl
  have hpayloadBinary : WireField.known 58 = some (.text .payloadBinary) :=
    rfl
  have hlast : ∀ fuel record, record.payloadBinary = none →
      mergePartial runtime (fuel + 2) record
          (writeOptional runtime 58 binary) =
        some { record with payloadBinary := binary } := by
    intro fuel record hnone
    cases binary with
    | none =>
        rw [writeOptional, mergePartial_nil, ← hnone]
    | some text =>
        rw [writeOptional, ← List.append_nil (runtime.writeString text),
          mergePartial_writeString _ _ _ hpayloadBinary (by decide)
            (by decide) (hbinaryLength text rfl),
          mergePartial_nil]
        rfl
  cases utf8 with
  | none =>
      rw [writeOptional, List.nil_append, hlast (fuel + 1) _ rfl]
  | some text =>
      rw [writeOptional, List.append_assoc,
        mergePartial_writeString _ _ _ hpayloadUtf8 (by decide) (by decide)
          (hutf8Length text rfl),
        hlast fuel _ rfl]
      rfl

theorem lengths_of_serialize {record : ChromeCastMessage}
    (hlimit : (record.serialize runtime).length < codedInputLimit) :
    record.sourceId.length < 2 ^ 31 ∧
      record.destinationId.length < 2 ^ 31 ∧
      record.namespaceId.length < 2 ^ 31 ∧
      (∀ text, record.payloadUtf8 = some text → text.length < 2 ^ 31) ∧
      (∀ text, record.payloadBinary = some text → text.length < 2 ^ 31) := by
  simp only [serialize, WireRuntime.writeString, codedInputLimit,
    List.length_append] at hlimit
  refine ⟨by omega, by omega, by omega, ?_, ?_⟩ <;>
    · intro text htext
      rw [htext] at hlimit
      simp only [writeOptional, WireRuntime.writeString,
        List.length_append] at hlimit
      omega

/-- The fuel of `parse` is enough for the five required fields, the two
payloads and the end. -/
theorem exists_fuel (runtime : WireRuntime) (record : ChromeCastMessage) :
    ∃ fuel, (record.serialize runtime).length + 1 = fuel + 3 + 5 := by
  have hpos : ∀ n, n < 2 ^ 32 → 0 < (runtime.writeVarint n).length :=
    fun n hn => WireRuntime.length_writeVarint_pos hn
  have h8 := hpos 8 (by decide)
  have h18 := hpos 18 (by decide)
  have h26 := hpos 26 (by decide)
  have h34 := hpos 34 (by decide)
  have h40 := hpos 40 (by decide)
  have hversion := hpos _ (protocolVersionNumber_lt record.protocolVersion)
  have htype := hpos _ (payloadTypeNumber_lt record.payloadType)
  refine ⟨(record.serialize runtime).length - 7, ?_⟩
  simp only [serialize, List.length_append]
  omega

/-- What is serialized below the limit of the coded stream is parsed back. -/
theorem parse_serialize (record : ChromeCastMessage)
    (hlimit : (record.serialize runtime).length < codedInputLimit) :
    parse runtime (record.serialize runtime) = some record := by
  obtain ⟨hsource, hdestination, hnamespace, hutf8, hbinary⟩ :=
    lengths_of_serialize hlimit
  obtain ⟨fuel, hfuel⟩ := exists_fuel runtime record
  have hprotocolVersion : WireField.known 8 =
      some (.varint .protocolVersion) := rfl
  have hsourceId : WireField.known 18 = some (.text .sourceId) := rfl
  have hdestinationId : WireField.known 26 = some (.text .destinationId) :=
    rfl
  have hnamespaceId : WireField.known 34 = some (.text .namespaceId) := rfl
  have hpayloadType : WireField.known 40 = some (.varint .payloadType) := rfl
  unfold parse
  rw [List.take_of_length_le (Nat.le_of_lt hlimit), hfuel]
  unfold serialize
  rw [mergePartial_writeVarint _ _ _ hprotocolVersion (by decide) (by decide)
      (protocolVersionNumber_lt _),
    mergePartial_writeString _ _ _ hsourceId (by decide) (by decide)
      hsource,
    mergePartial_writeString _ _ _ hdestinationId (by decide) (by decide)
      hdestination,
    mergePartial_writeString _ _ _ hnamespaceId (by decide) (by decide)
      hnamespace,
    mergePartial_writeVarint _ _ _ hpayloadType (by decide) (by decide)
      (payloadTypeNumber_lt _),
    mergePartial_payloads _ _ _ _ ?_ ?_ hutf8 hbinary]
  · obtain ⟨version, source, destination, namespaceId, type, utf8,
      binary⟩ := record
    cases version
    cases type <;> rfl
  all_goals
    cases record.payloadType <;> rfl

/-- The generated class over a protobuf library. -/
def codec (runtime : WireRuntime) : ProtobufCodec where
  serialize record := some (record.serialize runtime)
  parse := parse runtime
  parse_serialize record bytes hserialize hlimit := by
    cases hserialize
    exact parse_serialize record hlimit

end ChromeCastMessage

def googleCodec : ProtobufCodec := ChromeCastMessage.codec wireRuntime

/-! ## Saving a loaded message -/

/-- The codec stores the record and parses it back. -/
def ProtobufCodec.Keeps (codec : ProtobufCodec)
    (record : ChromeCastMessage) : Prop :=
  ∃ bytes, codec.serialize record = some bytes ∧
    codec.parse bytes = some record

/-- A binary message without bytes. -/
def ChromeCastMessage.EmptyBinary (record : ChromeCastMessage) : Prop :=
  record.payloadType = .binary ∧ record.payloadBinary.getD [] = []

namespace CastMessage

variable {codec : ProtobufCodec} {self message : CastMessage}
  {body : List UInt8}

/-- The fields that `Serialize` stores. -/
structure SameStored (a b : CastMessage) : Prop where
  protocolVersion : a.protocolVersion = b.protocolVersion
  address : a.address = b.address
  payloadType : a.payloadType = b.payloadType
  payload : a.payload = b.payload

theorem toRecord_of_emptyBinary (htype : message.payloadType = .binary)
    (hempty : message.payloadBinary = []) :
    message.toRecord = raise
      (.stdException (lit "cannot send a empty binary message")) := by
  unfold toRecord
  rw [htype, if_pos hempty]

theorem exists_toRecord (hsendable : message.payloadType = .binary →
    message.payloadBinary ≠ []) :
    ∃ record, message.toRecord = .ok record := by
  unfold toRecord
  cases htype : message.payloadType with
  | string => exact ⟨_, rfl⟩
  | binary =>
      dsimp only
      rw [if_neg (hsendable htype)]
      exact ⟨_, rfl⟩

/-- The record of a message, loaded into any object. -/
theorem sameStored_ofRecord {record : ChromeCastMessage}
    (hrecord : message.toRecord = .ok record) (other : CastMessage) :
    SameStored (other.ofRecord record) message := by
  have hversion : ∀ version : ProtocolVersion,
      ProtocolVersion.version210 = version := by
    intro version
    cases version
    rfl
  unfold toRecord at hrecord
  cases htype : message.payloadType with
  | string =>
      rw [htype] at hrecord
      cases hrecord
      exact ⟨hversion _, rfl, htype.symm, by simp [payload, ofRecord, htype]⟩
  | binary =>
      rw [htype] at hrecord
      dsimp only at hrecord
      split_ifs at hrecord
      · cases hrecord
      · cases hrecord
        exact ⟨hversion _, rfl, htype.symm,
          by simp [payload, ofRecord, htype]⟩

theorem load_eq_ok : self.load codec body = .ok message ↔
    ∃ record, codec.parse body = some record ∧
      self.ofRecord record = message := by
  unfold load
  cases codec.parse body with
  | none => simp [raise]
  | some record => simp [pure, Except.pure]

/-- What a body was loaded to is saved, and read back by any other object,
unless it is a binary message without bytes: that one cannot be sent. -/
theorem save_of_load (hload : self.load codec body = .ok message)
    (hkeeps : ∀ stored, message.toRecord = .ok stored →
      codec.Keeps stored) :
    ∃ record, codec.parse body = some record ∧
      (record.EmptyBinary → message.save codec = raise
        (.stdException (lit "cannot send a empty binary message"))) ∧
      (¬record.EmptyBinary → ∃ saved, message.save codec = .ok saved ∧
        ∀ other : CastMessage, ∃ again,
          other.load codec saved = .ok again ∧
            SameStored again message) := by
  obtain ⟨record, hparse, rfl⟩ := load_eq_ok.mp hload
  refine ⟨record, hparse, ?_, ?_⟩
  · rintro ⟨htype, hempty⟩
    have hbinary : (self.ofRecord record).payloadType = .binary := by
      simp [ofRecord, htype]
    have hnone : (self.ofRecord record).payloadBinary = [] := by
      simp [ofRecord, htype, hempty]
    rw [save, toRecord_of_emptyBinary hbinary hnone]
    rfl
  · intro hsendable
    have hfull : (self.ofRecord record).payloadType = .binary →
        (self.ofRecord record).payloadBinary ≠ [] := by
      cases htype : record.payloadType with
      | string => simp [ofRecord, htype]
      | binary =>
          intro _ hnone
          simp only [ofRecord, htype] at hnone
          exact hsendable ⟨htype, hnone⟩
    obtain ⟨stored, hstored⟩ := exists_toRecord hfull
    obtain ⟨saved, hserialize, hback⟩ := hkeeps stored hstored
    refine ⟨saved, ?_, fun other => ?_⟩
    · simp only [save, hstored, bind, Except.bind, hserialize]
      rfl
    · exact ⟨other.ofRecord stored,
        load_eq_ok.mpr ⟨stored, hback, rfl⟩,
        sameStored_ofRecord hstored other⟩

def helloBody : List UInt8 :=
  [8, 0, 18, 1, 115, 26, 1, 114, 34, 1, 110, 40, 0, 50, 2, 104, 105]

theorem save_of_load_hello :
    ∃ message saved, load googleCodec {} helloBody = .ok message ∧
      message.save googleCodec = .ok saved ∧
      ∀ other : CastMessage, ∃ again,
        other.load googleCodec saved = .ok again ∧
          SameStored again message := by
  obtain ⟨message, hload, hrecord⟩ : ∃ message,
      load googleCodec {} helloBody = .ok message ∧
        message.toRecord = .ok ⟨.version210, lit "s", lit "r", lit "n",
          .string, some (lit "hi"), none⟩ := ⟨_, rfl, rfl⟩
  obtain ⟨record, hparse, -, hsaved⟩ := save_of_load hload fun stored h => by
    rw [hrecord, Except.ok.injEq] at h
    subst h
    exact ⟨helloBody, by decide +kernel, by decide +kernel⟩
  have hstring : record.payloadType = .string := by
    have hknown : (googleCodec.parse helloBody).map
        ChromeCastMessage.payloadType = some .string := by
      decide +kernel
    rw [hparse] at hknown
    exact Option.some_inj.mp hknown
  obtain ⟨saved, hsave, hagain⟩ := hsaved fun hempty => by
    rw [ChromeCastMessage.EmptyBinary, hstring] at hempty
    exact absurd hempty.1 (by decide)
  exact ⟨message, saved, hload, hsave, hagain⟩

/-- A binary body without payload is accepted and cannot be saved, and the
payload of the other type is what the target held before. -/
theorem not_save_of_load :
    (∃ message fault,
      load googleCodec {}
          [8, 0, 18, 1, 115, 26, 1, 114, 34, 1, 110, 40, 1] = .ok message ∧
        message.save googleCodec = .error fault) ∧
      ∃ message again, load googleCodec {} helloBody = .ok message ∧
        message.save googleCodec = .ok helloBody ∧
        load googleCodec { payloadBinary := [1] } helloBody = .ok again ∧
        again ≠ message := by
  refine ⟨⟨_, _, rfl, rfl⟩, ⟨_, _, rfl, rfl, rfl, ?_⟩⟩
  decide

end CastMessage

end LibChromecast
