import LibChromecast.Foundation.OrderedMap
import LibChromecast.StdString

/-!
# Cast messages

`CastMessage`, its address with the hand-written order that keys the channel
map, and `Serialize` in both directions.  The record that travels is the
generated protobuf class; its codec is a parameter whose one law says that it
parses back every complete record it serialized.
-/

namespace LibChromecast

def wildcard : StdString := lit "*"

structure Address where
  source : StdString
  destination : StdString
  namespaceId : StdString
deriving DecidableEq

namespace Address

def toString (address : Address) : StdString :=
  lit "Source: " ++ address.source ++ lit "\n" ++
    lit "Destination: " ++ address.destination ++ lit "\n" ++
    lit "Namespace: " ++ address.namespaceId ++ lit "\n"

/-- `CastMessage::Address::operator<`.  The first two comparisons test the
result of `compare` against -1, the last one uses `operator<` of strings. -/
def less (strings : StringCompare) (self other : Address) : Bool :=
  let sourceIdCompare := strings.compare self.source other.source
  if sourceIdCompare ≠ 0 then sourceIdCompare == -1
  else
    let namespaceIdCompare :=
      strings.compare self.namespaceId other.namespaceId
    if namespaceIdCompare ≠ 0 then namespaceIdCompare == -1
    else if self.destination = wildcard then
      decide (other.destination ≠ wildcard)
    else decide (strings.compare self.destination other.destination < 0)

def swap (address : Address) : Address :=
  { address with
    source := address.destination, destination := address.source }

@[simp] theorem swap_source (address : Address) :
    address.swap.source = address.destination := rfl

@[simp] theorem swap_destination (address : Address) :
    address.swap.destination = address.source := rfl

@[simp] theorem swap_namespaceId (address : Address) :
    address.swap.namespaceId = address.namespaceId := rfl

@[simp] theorem swap_swap (address : Address) :
    address.swap.swap = address := rfl

theorem swap_injective {a b : Address} (h : a.swap = b.swap) : a = b := by
  rw [← swap_swap a, h, swap_swap]

/-- The comparison of the source, away from the wildcard, is the
lexicographic order of source, namespace and destination. -/
theorem less_iff {strings : StringCompare} (hunit : strings.UnitValued)
    {a b : Address} (ha : a.destination ≠ wildcard) :
    a.less strings b = true ↔
      unitCompare a.source b.source < 0 ∨
        (a.source = b.source ∧
          (unitCompare a.namespaceId b.namespaceId < 0 ∨
            (a.namespaceId = b.namespaceId ∧
              unitCompare a.destination b.destination < 0))) := by
  simp only [less, hunit.compare_eq]
  rcases unitCompare_cases a.source b.source with hs | hs | hs
  · have hne : a.source ≠ b.source := by
      intro h
      rw [h, unitCompare_self] at hs
      contradiction
    simp [hs]
  · have hsource := eq_of_unitCompare_eq_zero hs
    rcases unitCompare_cases a.namespaceId b.namespaceId with hn | hn | hn
    · simp [hsource, hn]
    · have hname := eq_of_unitCompare_eq_zero hn
      simp [hsource, hname, ha]
    · have hne : a.namespaceId ≠ b.namespaceId := by
        intro h
        rw [h, unitCompare_self] at hn
        contradiction
      simp [hsource, hn, hne]
  · have hne : a.source ≠ b.source := by
      intro h
      rw [h, unitCompare_self] at hs
      contradiction
    simp [hs, hne]

open Foundation.OrderedMap in
theorem less_strictTotalOn {strings : StringCompare}
    (hunit : strings.UnitValued) :
    StrictTotalOn (fun a b : Address => a.less strings b)
      (fun address => address.destination ≠ wildcard) where
  irrefl a ha := by
    rw [← Bool.not_eq_true, less_iff hunit ha]
    simp
  trans a b c ha hb _ hab hbc := by
    rw [less_iff hunit ha] at hab ⊢
    rw [less_iff hunit hb] at hbc
    rcases hab with hab | ⟨hab, hab'⟩
    · rcases hbc with hbc | ⟨hbc, -⟩
      · exact Or.inl (unitCompare_trans hab hbc)
      · exact Or.inl (hbc ▸ hab)
    · rcases hbc with hbc | ⟨hbc, hbc'⟩
      · exact Or.inl (hab ▸ hbc)
      · refine Or.inr ⟨hab.trans hbc, ?_⟩
        rcases hab' with hab' | ⟨hab', hab''⟩
        · rcases hbc' with hbc' | ⟨hbc', -⟩
          · exact Or.inl (unitCompare_trans hab' hbc')
          · exact Or.inl (hbc' ▸ hab')
        · rcases hbc' with hbc' | ⟨hbc', hbc''⟩
          · exact Or.inl (hab' ▸ hbc')
          · exact Or.inr ⟨hab'.trans hbc', unitCompare_trans hab'' hbc''⟩
  total a b ha hb hab hba := by
    rw [← Bool.not_eq_true, less_iff hunit ha] at hab
    rw [← Bool.not_eq_true, less_iff hunit hb] at hba
    simp only [not_or, not_and] at hab hba
    have hequal : ∀ x y : StdString, ¬unitCompare x y < 0 →
        ¬unitCompare y x < 0 → x = y := by
      intro x y hxy hyx
      rw [unitCompare_swap] at hyx
      exact eq_of_unitCompare_eq_zero (by omega)
    have hsource := hequal _ _ hab.1 hba.1
    have hname := hequal _ _ (hab.2 hsource).1 (hba.2 hsource.symm).1
    have hdest := hequal _ _ ((hab.2 hsource).2 hname)
      ((hba.2 hsource.symm).2 hname.symm)
    cases a
    cases b
    simp_all

/-- Addresses that are equivalent are equal, the wildcard included. -/
theorem eq_of_not_less {strings : StringCompare}
    (hunit : strings.UnitValued) {a b : Address}
    (hab : a.less strings b = false) (hba : b.less strings a = false) :
    a = b := by
  have hsource : a.source = b.source := by
    rcases unitCompare_cases a.source b.source with hs | hs | hs
    · simp [less, hunit.compare_eq, hs] at hab
    · exact eq_of_unitCompare_eq_zero hs
    · have hswap : unitCompare b.source a.source = -1 := by
        rw [unitCompare_swap, hs]
      simp [less, hunit.compare_eq, hswap] at hba
  have hname : a.namespaceId = b.namespaceId := by
    rcases unitCompare_cases a.namespaceId b.namespaceId with hn | hn | hn
    · simp [less, hunit.compare_eq, hsource, hn] at hab
    · exact eq_of_unitCompare_eq_zero hn
    · have hswap : unitCompare b.namespaceId a.namespaceId = -1 := by
        rw [unitCompare_swap, hn]
      simp [less, hunit.compare_eq, hsource, hswap] at hba
  have hdest : a.destination = b.destination := by
    by_cases ha : a.destination = wildcard
    · by_cases hb : b.destination = wildcard
      · rw [ha, hb]
      · simp [less, hunit.compare_eq, hsource, hname, ha, hb] at hab
    · by_cases hb : b.destination = wildcard
      · simp [less, hunit.compare_eq, hsource, hname, ha, hb] at hba
      · simp only [less, hunit.compare_eq, hsource, hname, ha, hb,
          unitCompare_self, ne_eq, not_true_eq_false, if_false,
          decide_eq_false_iff_not] at hab hba
        rw [unitCompare_swap] at hba
        exact eq_of_unitCompare_eq_zero (by omega)
  cases a
  cases b
  simp_all

end Address

/-! ## The message -/

inductive ProtocolVersion where
  | version210
deriving DecidableEq

inductive PayloadType where
  | string
  | binary
deriving DecidableEq

/-- `CastMessage`.  The source leaves `payload_type` uninitialised in a fresh
object; everybody sets it before it is read. -/
structure CastMessage where
  protocolVersion : ProtocolVersion := .version210
  address : Address := ⟨[], [], []⟩
  payloadType : PayloadType := .string
  payloadUtf8 : StdString := []
  payloadBinary : List UInt8 := []
deriving DecidableEq

/-- The generated class `extensions::core_api::cast_channel::CastMessage` of a
complete record: the required fields are set, the payloads are optional. -/
structure ChromeCastMessage where
  protocolVersion : ProtocolVersion
  sourceId : StdString
  destinationId : StdString
  namespaceId : StdString
  payloadType : PayloadType
  payloadUtf8 : Option StdString
  payloadBinary : Option StdString
deriving DecidableEq

/-- The limit of `CodedInputStream`: 64 MiB. -/
def codedInputLimit : ℕ := 64 * 2 ^ 20

/-- The generated codec: `SerializeToCodedStream`, which may fail, and
`ParseFromCodedStream`, which rejects incomplete and malformed records. -/
structure ProtobufCodec where
  serialize : ChromeCastMessage → Option (List UInt8)
  parse : List UInt8 → Option ChromeCastMessage
  parse_serialize : ∀ record bytes, serialize record = some bytes →
    bytes.length < codedInputLimit → parse bytes = some record

namespace CastMessage

/-- The bytes of a binary payload as `ToString` prints them: a space after
every fifth one and a line end after every tenth. -/
def printBinary : ℕ → List UInt8 → StdString
  | _, [] => []
  | count, byte :: rest =>
      byte ::
        ((if (count + 1) % 10 = 0 then lit "\n"
          else if (count + 1) % 5 = 0 then lit " " else []) ++
        printBinary (count + 1) rest)

def toString (message : CastMessage) : StdString :=
  message.address.toString ++ lit "\n" ++ lit "Payload: " ++ lit "\n" ++
    (match message.payloadType with
      | .string => message.payloadUtf8
      | .binary => printBinary 0 message.payloadBinary) ++ lit "\n"

def toRecord (message : CastMessage) : Outcome ChromeCastMessage :=
  match message.payloadType with
  | .string =>
      pure {
        protocolVersion := .version210
        sourceId := message.address.source
        destinationId := message.address.destination
        namespaceId := message.address.namespaceId
        payloadType := .string
        payloadUtf8 := some message.payloadUtf8
        payloadBinary := none }
  | .binary =>
      if message.payloadBinary = [] then
        raise (.stdException (lit "cannot send a empty binary message"))
      else
        pure {
          protocolVersion := .version210
          sourceId := message.address.source
          destinationId := message.address.destination
          namespaceId := message.address.namespaceId
          payloadType := .binary
          payloadUtf8 := none
          payloadBinary := some message.payloadBinary }

/-- `CastMessage::Serialize` in save mode: the bytes it appends. -/
def save (codec : ProtobufCodec) (message : CastMessage) :
    Outcome (List UInt8) := do
  let record ← message.toRecord
  match codec.serialize record with
  | none => raise (.stdException (lit "could not store message"))
  | some bytes => pure bytes

/-- The assignments of `Serialize` in load mode.  The payload of the other
type keeps its earlier content. -/
def ofRecord (self : CastMessage) (record : ChromeCastMessage) :
    CastMessage :=
  let loaded : CastMessage := { self with
    protocolVersion := record.protocolVersion
    address := ⟨record.sourceId, record.destinationId, record.namespaceId⟩ }
  match record.payloadType with
  | .string => { loaded with
      payloadType := .string
      payloadUtf8 := record.payloadUtf8.getD [] }
  | .binary => { loaded with
      payloadType := .binary
      payloadBinary := record.payloadBinary.getD [] }

/-- `CastMessage::Serialize` in load mode, into the object `self`. -/
def load (codec : ProtobufCodec) (self : CastMessage)
    (bytes : List UInt8) : Outcome CastMessage :=
  match codec.parse bytes with
  | none => raise (.stdException (lit "could not load message"))
  | some record => pure (self.ofRecord record)

def payload (message : CastMessage) : StdString :=
  match message.payloadType with
  | .string => message.payloadUtf8
  | .binary => message.payloadBinary

def SameContent (a b : CastMessage) : Prop :=
  a.address = b.address ∧ a.payloadType = b.payloadType ∧
    a.payload = b.payload

/-- Loading what was saved gives the content back, whatever the object held
before. -/
theorem load_save (codec : ProtobufCodec) {message : CastMessage}
    {bytes : List UInt8} (hsave : message.save codec = .ok bytes)
    (hlimit : bytes.length < codedInputLimit) (self : CastMessage) :
    ∃ loaded, self.load codec bytes = .ok loaded ∧
      SameContent loaded message := by
  cases hrecord : message.toRecord with
  | error fault =>
      simp [save, hrecord, bind, Except.bind] at hsave
  | ok record =>
      have hserialize : codec.serialize record = some bytes := by
        simp only [save, hrecord, bind, Except.bind] at hsave
        split at hsave
        next hnone => cases hsave
        next stored hsome =>
          cases hsave
          exact hsome
      have hparse := codec.parse_serialize record bytes hserialize hlimit
      refine ⟨self.ofRecord record, by simp [load, hparse, pure, Except.pure],
        ?_⟩
      cases htype : message.payloadType with
      | string =>
          simp only [toRecord, htype, pure, Except.pure,
            Except.ok.injEq] at hrecord
          subst record
          simp [SameContent, ofRecord, payload, htype]
      | binary =>
          simp only [toRecord, htype] at hrecord
          split_ifs at hrecord
          · cases hrecord
          · simp only [pure, Except.pure, Except.ok.injEq] at hrecord
            subst record
            simp [SameContent, ofRecord, payload, htype]

end CastMessage

end LibChromecast
