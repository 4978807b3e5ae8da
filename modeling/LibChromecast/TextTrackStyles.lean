import LibChromecast.MessageSchemas

/-!
# Text track styles

A color is written as `#` and eight hexadecimal digits, two for each channel.
`Color::FromString` hands every pair of digits to a conversion to a character,
and `Media::FromMessage` hands the whole media object to the decoders of the
style.
-/

namespace LibChromecast

namespace Media

namespace TextTrackStyle

/-! ## Colors -/

def hexDigit (digit : UInt8) : Option UInt8 :=
  if 0x30 ≤ digit ∧ digit ≤ 0x39 then some (digit - 0x30)
  else if 0x41 ≤ digit ∧ digit ≤ 0x46 then some (digit - 0x37)
  else if 0x61 ≤ digit ∧ digit ≤ 0x66 then some (digit - 0x57)
  else none

namespace Color

/-- `#` followed by exactly eight hexadecimal digits. -/
def IsText (value : StdString) : Prop :=
  ∃ digits, value = lit "#" ++ digits ∧ digits.length = 8 ∧
    ∀ digit ∈ digits, (hexDigit digit).isSome

def pairValue (value : StdString) (index : ℕ) : Option UInt8 := do
  let high ← hexDigit (← value[2 * index + 1]?)
  let low ← hexDigit (← value[2 * index + 2]?)
  pure (16 * high + low)

structure WrittenAs (color : Color) (value : StdString) : Prop where
  isText : IsText value
  pairs : ∀ i : Fin 4, pairValue value i = some color.argb[i]

/-- What `FromString` is for: the texts of colors are read, and no others. -/
structure Parses (value : StdString) : Prop where
  returns : IsText value →
    ∃ color : Color, fromString value = .ok color ∧ color.WrittenAs value
  raises : ¬IsText value → ∃ exception, fromString value = raise exception

theorem fromString_raises (value : StdString) :
    ∃ exception, fromString value = raise exception := by
  have hrejects := of_fromString value
  cases hvalue : fromString value with
  | ok color =>
      rw [hvalue] at hrejects
      cases hrejects
  | error fault =>
      rw [hvalue] at hrejects
      cases fault with
      | raised exception => exact ⟨exception, rfl⟩
      | violated => cases hrejects

theorem fromString_ne_ok (value : StdString) (color : Color) :
    fromString value ≠ .ok color := by
  obtain ⟨exception, hraise⟩ := fromString_raises value
  rw [hraise]
  intro hok
  cases hok

/-- No text is read, so only what is no color is treated as it should be. -/
theorem parses_iff (value : StdString) : Parses value ↔ ¬IsText value := by
  constructor
  · intro hparses htext
    obtain ⟨color, hok, -⟩ := hparses.returns htext
    exact fromString_ne_ok value color hok
  · intro hother
    exact {
      returns := fun htext => absurd htext hother
      raises := fun _ => fromString_raises value }

def green : StdString := lit "#FF00ff00"

theorem isText_green : IsText green :=
  ⟨lit "FF00ff00", rfl, rfl, by decide +kernel⟩

theorem not_parses_green : ¬∀ value, Parses value := by
  intro hparses
  obtain ⟨color, hok, -⟩ := (hparses green).returns isText_green
  exact fromString_ne_ok green color hok

end Color

/-! ## Styles -/

def ReadsText (part : Json) (name text : StdString) : Prop :=
  (do (← part.member name).getString) = .ok text

def ReadsDouble (part : Json) (name : StdString) (value : Double) : Prop :=
  (do (← part.member name).getDouble) = .ok value

def ReadsColor (part : Json) (name : StdString) (color : Color) : Prop :=
  ∃ text, ReadsText part name text ∧ color.WrittenAs text

def edgeTypeOf (text : StdString) : EdgeType :=
  if text = lit "OUTLINE" then .outline else .unknown

def fontStyleOf (text : StdString) : FontStyle :=
  if text = lit "NORMAL" then .normal else .unknown

/-- The object has every member of a style, and they say this one. -/
structure WrittenIn (decoded : TextTrackStyle) (style : Json) : Prop where
  background : ReadsColor style (lit "backgroundColor") decoded.background
  foreground : ReadsColor style (lit "foregroundColor") decoded.foreground
  edgeType : ∃ text, ReadsText style (lit "edgeType") text ∧
    decoded.edge.type = edgeTypeOf text
  edgeColor : ReadsColor style (lit "edgeColor") decoded.edge.color
  fontStyle : ∃ text, ReadsText style (lit "fontStyle") text ∧
    decoded.font.style = fontStyleOf text
  fontScale : ReadsDouble style (lit "fontScale") decoded.font.scale
  fontFamily : ReadsText style (lit "fontFamily") decoded.font.family
  fontGenericFamily :
    ReadsText style (lit "fontGenericFamily") decoded.font.genericFamily
  windowColor : ReadsColor style (lit "windowColor") decoded.window.color
  windowRoundedCornerRadius :
    ReadsDouble style (lit "windowRoundedCornerRadius")
      decoded.window.roundedCornerRadius

end TextTrackStyle

/-! ## Media with a style -/

def withoutStyle : Json → Json
  | .object members =>
      .object (members.filter fun entry => entry.1 ≠ lit "textTrackStyle")
  | other => other

/-- The object is read without its style, and the style is well formed: it
says `decoded`. -/
structure Styled (media : Json) (plain : Media) (decoded : TextTrackStyle) :
    Prop where
  plain : fromMessage (withoutStyle media) = .ok plain
  style : ∃ style, media.find? (lit "textTrackStyle") = some style ∧
    decoded.WrittenIn style

/-- The media is decoded as it is without the style, and the style with
it. -/
def DecodesStyle (media : Json) (plain : Media) (decoded : TextTrackStyle) :
    Prop :=
  fromMessage media = .ok { plain with textTrackStyle := some decoded }

/-- No media that has a style is read. -/
theorem fromMessage_ne_ok {media style : Json}
    (hstyle : media.find? (lit "textTrackStyle") = some style)
    (decoded : Media) : fromMessage media ≠ .ok decoded := by
  intro hok
  have haccepts : Json.Check.media media = .accepts := by
    rw [← follows media, hok]
    rfl
  obtain ⟨-, -, hfields⟩ := Json.exists_of_object_required haccepts
  obtain ⟨-, hfields⟩ := Json.Check.fields_cons_eq_accepts.mp hfields
  obtain ⟨-, hfields⟩ := Json.Check.fields_cons_eq_accepts.mp hfields
  obtain ⟨hchecked, -⟩ := Json.Check.fields_cons_eq_accepts.mp hfields
  rw [Json.Check.whenPresent, hstyle] at hchecked
  obtain ⟨-, ⟨found, -, hcolor⟩, -⟩ :=
    Json.exists_of_object_required hchecked
  obtain ⟨text, -, hfalse⟩ := Json.Check.text_eq_accepts.mp hcolor
  cases hfalse

/-- A media object that is read without its style is not read with it, however
well the style is formed. -/
theorem Styled.not_decodesStyle {media : Json} {plain : Media}
    {decoded : TextTrackStyle} (h : Styled media plain decoded) :
    ¬DecodesStyle media plain decoded := by
  obtain ⟨style, hstyle, -⟩ := h.style
  exact fromMessage_ne_ok hstyle _

def outlined : Json :=
  .object [
    (lit "backgroundColor", .string (lit "#00000000")),
    (lit "foregroundColor", .string (lit "#FF00ff00")),
    (lit "edgeType", .string (lit "OUTLINE")),
    (lit "edgeColor", .string (lit "#FF00ff00")),
    (lit "fontStyle", .string (lit "NORMAL")),
    (lit "fontScale", .uint 1),
    (lit "fontFamily", .string (lit "Droid Sans")),
    (lit "fontGenericFamily", .string (lit "SANS_SERIF")),
    (lit "windowColor", .string (lit "#00000000")),
    (lit "windowRoundedCornerRadius", .uint 0)]

def styledVideo : Json :=
  .object [
    (lit "contentId", .string (lit "video.mp4")),
    (lit "textTrackStyle", outlined),
    (lit "contentType", .string (lit "video/mp4"))]

def plainVideo : Media where
  contentId := lit "video.mp4"
  contentType := lit "video/mp4"

def outlinedStyle : TextTrackStyle where
  background := ⟨#v[0, 0, 0, 0]⟩
  foreground := ⟨#v[255, 0, 255, 0]⟩
  edge := { type := .outline, color := ⟨#v[255, 0, 255, 0]⟩ }
  font := {
    scale := Double.ofNat 1
    style := .normal
    family := lit "Droid Sans"
    genericFamily := lit "SANS_SERIF" }
  window := {
    type := .none
    color := ⟨#v[0, 0, 0, 0]⟩
    roundedCornerRadius := ⟨0⟩ }

theorem outlinedStyle_writtenIn : outlinedStyle.WrittenIn outlined := by
  have hgreen : (⟨#v[255, 0, 255, 0]⟩ :
      TextTrackStyle.Color).WrittenAs (lit "#FF00ff00") :=
    ⟨TextTrackStyle.Color.isText_green, by decide⟩
  have hclear : (⟨#v[0, 0, 0, 0]⟩ :
      TextTrackStyle.Color).WrittenAs (lit "#00000000") :=
    ⟨⟨lit "00000000", rfl, rfl, by decide +kernel⟩, by decide⟩
  exact {
    background := ⟨_, rfl, hclear⟩
    foreground := ⟨_, rfl, hgreen⟩
    edgeType := ⟨_, rfl, rfl⟩
    edgeColor := ⟨_, rfl, hgreen⟩
    fontStyle := ⟨_, rfl, rfl⟩
    fontScale := rfl
    fontFamily := rfl
    fontGenericFamily := rfl
    windowColor := ⟨_, rfl, hclear⟩
    windowRoundedCornerRadius := rfl }

theorem styledVideo_styled :
    Styled styledVideo plainVideo outlinedStyle where
  plain := rfl
  style := ⟨outlined, rfl, outlinedStyle_writtenIn⟩

theorem not_decodesStyle_styledVideo :
    ¬DecodesStyle styledVideo plainVideo outlinedStyle :=
  styledVideo_styled.not_decodesStyle

theorem not_forall_decodesStyle :
    ¬∀ (media : Json) (plain : Media) (decoded : TextTrackStyle),
      Styled media plain decoded → DecodesStyle media plain decoded := by
  intro hdecodes
  have hmember : styledVideo.find? (lit "textTrackStyle") =
      some outlined := rfl
  exact fromMessage_ne_ok hmember _
    (hdecodes styledVideo plainVideo outlinedStyle styledVideo_styled)

end Media

end LibChromecast
