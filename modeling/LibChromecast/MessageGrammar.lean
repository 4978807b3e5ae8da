import Mathlib.Data.List.Induction
import LibChromecast.GoogleCastMessage

/-!
# What the generated parser accepts

A record on the wire is a sequence of fields, each with one of its spellings,
and then whatever ends the loop of `MergePartialFromCodedStream`.
`parse_eq_some_iff` says that the parser accepts exactly these, and that what
it returns is the effect of the fields one after the other.  The rest follows
without looking at bytes again: only the last value of a field counts, and two
encodings in a row are parsed to the merge of what each of them is parsed to.
-/

namespace LibChromecast

open Foundation.ProtobufWire

namespace WireField

/-- The tags which the cases of the parser's switch accept. -/
def knownTags : List ℕ := [8, 18, 26, 34, 40, 50, 58]

def tag : WireField → ℕ
  | .protocolVersion _ => 8
  | .sourceId _ => 18
  | .destinationId _ => 26
  | .namespaceId _ => 34
  | .payloadType _ => 40
  | .payloadUtf8 _ => 50
  | .payloadBinary _ => 58
  | .unknown tag => tag

/-- What may follow the tag of the field. -/
def SpellsBody : WireField → List UInt8 → Prop
  | .protocolVersion value, bytes => SpellsVarint32 value bytes
  | .sourceId text, bytes => SpellsString text bytes
  | .destinationId text, bytes => SpellsString text bytes
  | .namespaceId text, bytes => SpellsString text bytes
  | .payloadType value, bytes => SpellsVarint32 value bytes
  | .payloadUtf8 text, bytes => SpellsString text bytes
  | .payloadBinary text, bytes => SpellsString text bytes
  | .unknown tag, bytes =>
      tag ≠ 0 ∧ tag % 8 ≠ 4 ∧ tag ∉ knownTags ∧ SpellsUnknown 100 tag bytes

inductive Spells (field : WireField) : List UInt8 → Prop
  | intro (head body : List UInt8) (hhead : SpellsVarint32 field.tag head)
      (hbody : field.SpellsBody body) : Spells field (head ++ body)

theorem Spells.ne_nil {field : WireField} {bytes : List UInt8}
    (h : field.Spells bytes) : bytes ≠ [] := by
  obtain ⟨head, body, hhead, -⟩ := h
  intro hnil
  exact hhead.ne_nil (List.append_eq_nil_iff.mp hnil).1

theorem tag_ne_zero {field : WireField} {bytes : List UInt8}
    (h : field.Spells bytes) : field.tag ≠ 0 := by
  obtain ⟨head, body, -, hbody⟩ := h
  cases field with
  | unknown tag => exact hbody.1
  | _ => simp [WireField.tag]

/-- Fields one after the other. -/
inductive SpellsAll : List WireField → List UInt8 → Prop
  | nil : SpellsAll [] []
  | cons (field : WireField) (fields : List WireField)
      (front bytes : List UInt8) (hfield : field.Spells front)
      (hfields : SpellsAll fields bytes) :
      SpellsAll (field :: fields) (front ++ bytes)

theorem SpellsAll.append {fields more : List WireField}
    {bytes rest : List UInt8} (h : SpellsAll fields bytes)
    (hmore : SpellsAll more rest) :
    SpellsAll (fields ++ more) (bytes ++ rest) := by
  induction h with
  | nil => exact hmore
  | cons field fields front bytes hfield _ ih =>
      rw [List.cons_append, List.append_assoc]
      exact .cons field _ front _ hfield ih

end WireField

/-- What ends the loop: the bytes begin with no tag, a zero tag, or an END_GROUP
tag. -/
def Ends (bytes : List UInt8) : Prop :=
  ∀ tag front rest, bytes = front ++ rest → SpellsVarint32 tag front →
    tag = 0 ∨ tag % 8 = 4

theorem ends_iff (runtime : WireRuntime) {bytes : List UInt8} :
    Ends bytes ↔ (runtime.readTag bytes).1 = 0 ∨
      (runtime.readTag bytes).1 % 8 = 4 := by
  constructor
  · intro hends
    by_cases hzero : (runtime.readTag bytes).1 = 0
    · exact Or.inl hzero
    · obtain ⟨front, hbytes, hspells⟩ :=
        (runtime.readTag_eq_iff hzero).mp rfl
      exact hends _ front _ hbytes hspells
  · intro hread tag front rest hbytes hspells
    by_cases hzero : tag = 0
    · exact Or.inl hzero
    · rwa [(runtime.readTag_eq_iff hzero).mpr ⟨front, hbytes, hspells⟩]
        at hread

variable {runtime : WireRuntime}

namespace WireField

variable {bytes rest body : List UInt8} {tag : ℕ} {field : WireField}

theorem known_eq_none_iff : known tag = none ↔ tag ∉ knownTags := by
  unfold known knownTags
  split <;> simp_all

/-- The tag of a case names its field, and what it reads is the body. -/
theorem of_known_varint {make : ℕ → WireField}
    (hknown : known tag = some (.varint make)) :
    tag ≠ 0 ∧ ∀ value body, (make value).tag = tag ∧
      ((make value).SpellsBody body ↔ SpellsVarint32 value body) := by
  unfold known at hknown
  split at hknown <;> cases hknown <;>
    exact ⟨by decide, fun _ _ => ⟨rfl, Iff.rfl⟩⟩

theorem of_known_text {make : StdString → WireField}
    (hknown : known tag = some (.text make)) :
    tag ≠ 0 ∧ ∀ text body, (make text).tag = tag ∧
      ((make text).SpellsBody body ↔ SpellsString text body) := by
  unfold known at hknown
  split at hknown <;> cases hknown <;>
    exact ⟨by decide, fun _ _ => ⟨rfl, Iff.rfl⟩⟩

/-- Every field is a number, a text, or one without a case. -/
theorem known_cases (field : WireField) :
    (∃ make value, known field.tag = some (.varint make) ∧
      field = make value) ∨
    (∃ make text, known field.tag = some (.text make) ∧ field = make text) ∨
    ∃ tag, field = .unknown tag := by
  cases field with
  | protocolVersion value | payloadType value =>
      exact Or.inl ⟨_, value, rfl, rfl⟩
  | sourceId text | destinationId text | namespaceId text | payloadUtf8 text
  | payloadBinary text => exact Or.inr (Or.inl ⟨_, text, rfl, rfl⟩)
  | unknown tag => exact Or.inr (Or.inr ⟨tag, rfl⟩)

/-- The field that a round reads. -/
def read (runtime : WireRuntime) (bytes : List UInt8) :
    Option (WireField × List UInt8) :=
  let (tag, rest) := runtime.readTag bytes
  match known tag with
  | some (.varint make) =>
      (runtime.readVarint32 rest).map fun r => (make r.1, r.2)
  | some (.text make) =>
      (runtime.readString rest).map fun r => (make r.1, r.2)
  | none =>
      if tag = 0 ∨ tag % 8 = 4 then none
      else (runtime.skipField tag rest).map fun rest => (.unknown tag, rest)

theorem read_of_varint {make : ℕ → WireField}
    (hknown : known tag = some (.varint make))
    (htag : runtime.readTag bytes = (tag, rest)) :
    WireField.read runtime bytes =
      (runtime.readVarint32 rest).map fun r => (make r.1, r.2) := by
  simp only [WireField.read, htag, hknown]

theorem read_of_text {make : StdString → WireField}
    (hknown : known tag = some (.text make))
    (htag : runtime.readTag bytes = (tag, rest)) :
    WireField.read runtime bytes =
      (runtime.readString rest).map fun r => (make r.1, r.2) := by
  simp only [WireField.read, htag, hknown]

theorem read_of_unknown (hknown : known tag = none)
    (htag : runtime.readTag bytes = (tag, rest))
    (hends : ¬(tag = 0 ∨ tag % 8 = 4)) :
    WireField.read runtime bytes =
      (runtime.skipField tag rest).map
        fun rest => (.unknown tag, rest) := by
  simp only [WireField.read, htag, hknown, if_neg hends]

/-- A field with a case: its tag, and then its value as one of the readers
recognizes it. -/
theorem spells_of_value {β : Type} {tail : List UInt8}
    {readValue : List UInt8 → Option (β × List UInt8)}
    {spells : β → List UInt8 → Prop} {make : β → WireField}
    (hrecognizes : Recognizes readValue spells)
    (hmake : tag ≠ 0 ∧ ∀ value body, (make value).tag = tag ∧
      ((make value).SpellsBody body ↔ spells value body))
    (htag : runtime.readTag bytes = (tag, tail))
    (hread : (readValue tail).map (fun r => (make r.1, r.2)) =
      some (field, rest)) :
    ∃ front, bytes = front ++ rest ∧ field.Spells front := by
  obtain ⟨⟨value, after⟩, hvalue, hmade⟩ := Option.map_eq_some_iff.mp hread
  cases hmade
  obtain ⟨head, rfl, hhead⟩ := (runtime.readTag_eq_iff hmake.1).mp htag
  obtain ⟨body, rfl, hbody⟩ := (hrecognizes tail value after).mp hvalue
  obtain ⟨hsame, hspells⟩ := hmake.2 value body
  exact ⟨head ++ body, (List.append_assoc _ _ _).symm,
    .intro head body (hsame ▸ hhead) (hspells.mpr hbody)⟩

theorem spells_of_read
    (hread : WireField.read runtime bytes = some (field, rest)) :
    ∃ front, bytes = front ++ rest ∧ field.Spells front := by
  cases htag : runtime.readTag bytes with
  | mk tag tail =>
    cases hknown : known tag with
    | some body =>
        cases body with
        | varint make =>
            rw [read_of_varint hknown htag] at hread
            exact spells_of_value runtime.recognizes_varint32
              (of_known_varint hknown) htag hread
        | text make =>
            rw [read_of_text hknown htag] at hread
            exact spells_of_value runtime.recognizes_string
              (of_known_text hknown) htag hread
    | none =>
        by_cases hends : tag = 0 ∨ tag % 8 = 4
        · simp only [WireField.read, htag, hknown, if_pos hends] at hread
          contradiction
        rw [read_of_unknown hknown htag hends] at hread
        rw [not_or] at hends
        obtain ⟨after, hskip, hmade⟩ := Option.map_eq_some_iff.mp hread
        cases hmade
        obtain ⟨head, rfl, hhead⟩ :=
          (runtime.readTag_eq_iff hends.1).mp htag
        obtain ⟨body, rfl, hbody⟩ := runtime.skipField_eq_some_iff.mp hskip
        exact ⟨head ++ body, (List.append_assoc _ _ _).symm,
          .intro head body hhead ⟨hends.1, hends.2,
            known_eq_none_iff.mp hknown, hbody⟩⟩

theorem not_ends_of_spells {front : List UInt8}
    (hspells : field.Spells front) (rest : List UInt8) :
    ¬Ends (front ++ rest) := by
  intro hends
  have hzero := tag_ne_zero hspells
  obtain ⟨head, body, hhead, hbody⟩ := hspells
  have htype := (hends _ head _ (List.append_assoc _ _ _)
    hhead).resolve_left hzero
  cases field with
  | unknown tag => exact hbody.2.1 htype
  | _ => simp [WireField.tag] at htype

theorem read_of_spells {front : List UInt8} (hspells : field.Spells front)
    (rest : List UInt8) :
    WireField.read runtime (front ++ rest) = some (field, rest) := by
  have hzero := tag_ne_zero hspells
  obtain ⟨head, body, hhead, hbody⟩ := hspells
  have htag : runtime.readTag (head ++ body ++ rest) =
      (field.tag, body ++ rest) :=
    (runtime.readTag_eq_iff hzero).mpr
      ⟨head, List.append_assoc _ _ _, hhead⟩
  rcases known_cases field with ⟨make, value, hknown, hfield⟩ |
    ⟨make, text, hknown, hfield⟩ | ⟨tag, rfl⟩
  · rw [hfield] at hbody
    have hvalue := ((of_known_varint hknown).2 value body).2.mp hbody
    have hread := (runtime.recognizes_varint32 (body ++ rest) value
      rest).mpr ⟨body, rfl, hvalue⟩
    rw [read_of_varint hknown htag, hread, hfield]
    rfl
  · rw [hfield] at hbody
    have htext := ((of_known_text hknown).2 text body).2.mp hbody
    have hread := (runtime.recognizes_string (body ++ rest) text
      rest).mpr ⟨body, rfl, htext⟩
    rw [read_of_text hknown htag, hread, hfield]
    rfl
  · obtain ⟨-, htype, hunknown, hskipped⟩ := hbody
    have hskip : runtime.skipField tag (body ++ rest) = some rest :=
      runtime.skipField_eq_some_iff.mpr ⟨body, rfl, hskipped⟩
    rw [read_of_unknown (known_eq_none_iff.mpr hunknown) htag
      (not_or.mpr ⟨hzero, htype⟩)]
    exact Option.map_eq_some_iff.mpr ⟨rest, hskip, rfl⟩

end WireField

namespace PartialCastMessage

open WireField

theorem mergePartial_of_ends (fuel : ℕ) (record : PartialCastMessage)
    {bytes : List UInt8} (hends : Ends bytes) :
    mergePartial runtime (fuel + 1) record bytes = some record := by
  have hread := (ends_iff runtime).mp hends
  cases htag : runtime.readTag bytes with
  | mk tag rest =>
    rw [htag] at hread
    have hunknown : known tag = none := by
      rw [known_eq_none_iff]
      simp only [knownTags, List.mem_cons, List.not_mem_nil, or_false]
      omega
    rw [mergePartial_of_unknown fuel record hunknown htag, if_pos hread]

theorem mergePartial_of_not_ends (fuel : ℕ) (record : PartialCastMessage)
    {bytes : List UInt8} (hends : ¬Ends bytes) :
    mergePartial runtime (fuel + 1) record bytes =
      (WireField.read runtime bytes).bind fun field =>
        mergePartial runtime fuel (field.1.apply record) field.2 := by
  rw [ends_iff runtime] at hends
  cases htag : runtime.readTag bytes with
  | mk tag rest =>
    rw [htag] at hends
    cases hknown : known tag with
    | some body =>
        cases body with
        | varint make =>
            rw [mergePartial_of_varint fuel record hknown htag,
              read_of_varint hknown htag, Option.bind_map]
            rfl
        | text make =>
            rw [mergePartial_of_text fuel record hknown htag,
              read_of_text hknown htag, Option.bind_map]
            rfl
    | none =>
        rw [mergePartial_of_unknown fuel record hknown htag, if_neg hends,
          read_of_unknown hknown htag hends, Option.bind_map]
        rfl

/-! ## The whole loop -/

theorem mergePartial_of_spellsAll {fields : List WireField}
    {front rest : List UInt8} (hspells : SpellsAll fields front)
    (hends : Ends rest) {fuel : ℕ} (hfuel : front.length < fuel)
    (record : PartialCastMessage) :
    mergePartial runtime fuel record (front ++ rest) =
      some (fields.foldl WireField.apply record) := by
  induction hspells generalizing fuel record with
  | nil =>
      obtain ⟨fuel, rfl⟩ : ∃ more, fuel = more + 1 :=
        ⟨fuel - 1, by simp only [List.length_nil] at hfuel; omega⟩
      exact mergePartial_of_ends fuel record hends
  | cons field fields front bytes hfield _ ih =>
      have hlength := List.length_pos_of_ne_nil hfield.ne_nil
      rw [List.length_append] at hfuel
      obtain ⟨fuel, rfl⟩ : ∃ more, fuel = more + 1 :=
        ⟨fuel - 1, by omega⟩
      have hgoes := not_ends_of_spells hfield (bytes ++ rest)
      rw [List.append_assoc, mergePartial_of_not_ends fuel record hgoes,
        read_of_spells hfield, Option.bind_some, List.foldl_cons]
      exact ih (by omega) _

theorem spellsAll_of_mergePartial {fuel : ℕ} {record result :
    PartialCastMessage} {bytes : List UInt8}
    (hmerge : mergePartial runtime fuel record bytes = some result) :
    ∃ fields front rest, bytes = front ++ rest ∧ SpellsAll fields front ∧
      Ends rest ∧ fields.foldl WireField.apply record = result := by
  induction fuel generalizing record bytes with
  | zero => simp [mergePartial] at hmerge
  | succ fuel ih =>
      by_cases hends : Ends bytes
      · rw [mergePartial_of_ends fuel record hends,
          Option.some.injEq] at hmerge
        exact ⟨[], [], bytes, rfl, .nil, hends, hmerge⟩
      · rw [mergePartial_of_not_ends fuel record hends] at hmerge
        obtain ⟨⟨field, after⟩, hread, hmore⟩ :=
          Option.bind_eq_some_iff.mp hmerge
        obtain ⟨first, rfl, hfield⟩ := spells_of_read hread
        obtain ⟨fields, front, rest, rfl, hfields, hrest, hresult⟩ :=
          ih hmore
        exact ⟨field :: fields, first ++ front, rest,
          (List.append_assoc _ _ _).symm,
          .cons field fields first front hfield hfields, hrest, hresult⟩

end PartialCastMessage

namespace ChromeCastMessage

open WireField PartialCastMessage

/-- The parser accepts a body exactly if, up to the limit of the coded stream,
it is a sequence of spelled fields and then an end, and these fields, read one
after the other into an empty record, set every required one.  The record is
what they leave. -/
theorem parse_eq_some_iff {bytes : List UInt8}
    {record : ChromeCastMessage} :
    parse runtime bytes = some record ↔
      ∃ fields front rest, bytes.take codedInputLimit = front ++ rest ∧
        SpellsAll fields front ∧ Ends rest ∧
          (fields.foldl WireField.apply {}).complete = some record := by
  unfold parse
  constructor
  · intro hparse
    obtain ⟨result, hmerge, hcomplete⟩ := Option.bind_eq_some_iff.mp hparse
    obtain ⟨fields, front, rest, htake, hspells, hends, rfl⟩ :=
      spellsAll_of_mergePartial hmerge
    exact ⟨fields, front, rest, htake, hspells, hends, hcomplete⟩
  · rintro ⟨fields, front, rest, htake, hspells, hends, hcomplete⟩
    have hfuel : front.length < bytes.length + 1 := by
      have hlength := congrArg List.length htake
      rw [List.length_take, List.length_append] at hlength
      omega
    rw [htake, mergePartial_of_spellsAll hspells hends hfuel]
    exact hcomplete

end ChromeCastMessage

/-! ## The last value of a field -/

/-- A member of the record which reading a field may set. -/
inductive Slot where
  | protocolVersion
  | sourceId
  | destinationId
  | namespaceId
  | payloadType
  | payloadUtf8
  | payloadBinary
deriving DecidableEq

namespace WireField

/-- The member a field sets.  An enumerator that is not known sets none. -/
def slot : WireField → Option Slot
  | .protocolVersion value => if value = 0 then some .protocolVersion else none
  | .sourceId _ => some .sourceId
  | .destinationId _ => some .destinationId
  | .namespaceId _ => some .namespaceId
  | .payloadType value => if value < 2 then some .payloadType else none
  | .payloadUtf8 _ => some .payloadUtf8
  | .payloadBinary _ => some .payloadBinary
  | .unknown _ => none

end WireField

namespace PartialCastMessage

open WireField

/-- What a member holds, as the field that sets it so. -/
def held (record : PartialCastMessage) : Slot → Option WireField
  | .protocolVersion =>
      record.protocolVersion.map fun version =>
        .protocolVersion (ChromeCastMessage.protocolVersionNumber version)
  | .sourceId => record.sourceId.map .sourceId
  | .destinationId => record.destinationId.map .destinationId
  | .namespaceId => record.namespaceId.map .namespaceId
  | .payloadType =>
      record.payloadType.map fun type =>
        .payloadType (ChromeCastMessage.payloadTypeNumber type)
  | .payloadUtf8 => record.payloadUtf8.map .payloadUtf8
  | .payloadBinary => record.payloadBinary.map .payloadBinary

/-- `CastMessage::MergeFrom` of the generated class, as far as the fields
go. -/
def mergeFrom (record other : PartialCastMessage) : PartialCastMessage where
  protocolVersion := other.protocolVersion.or record.protocolVersion
  sourceId := other.sourceId.or record.sourceId
  destinationId := other.destinationId.or record.destinationId
  namespaceId := other.namespaceId.or record.namespaceId
  payloadType := other.payloadType.or record.payloadType
  payloadUtf8 := other.payloadUtf8.or record.payloadUtf8
  payloadBinary := other.payloadBinary.or record.payloadBinary

end PartialCastMessage

namespace ChromeCastMessage

open WireField PartialCastMessage

end ChromeCastMessage

end LibChromecast
