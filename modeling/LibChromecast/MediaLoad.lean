import Mathlib.Data.List.TakeWhile
import LibChromecast.MediaChannel

/-!
# What LOAD carries

`Media::ToMessage` writes the content, the stream type and the tracks into the
member `media`, and the metadata next to it.  `Media::FromMessage` looks for
the metadata inside, does not read the stream type, and `Load` drops the
autoplay flag.
-/

namespace LibChromecast

open Foundation Foundation.Transition

theorem cStr_cStr (text : StdString) : cStr (cStr text) = cStr text :=
  List.takeWhile_idem

theorem cStr_of_not_mem {text : StdString} (hnul : 0 ∉ text) :
    cStr text = text := by
  apply List.takeWhile_eq_self_iff.mpr
  intro byte hbyte
  have hne : byte ≠ 0 := fun hzero => hnul (hzero ▸ hbyte)
  simpa using hne

namespace Json

@[simp] theorem getString_ofString (text : StdString) :
    (ofString text).getString = .ok (cStr text) := by
  rw [ofString, getString, cStr_cStr]
  rfl

@[simp] theorem getUint32_ofUint32 (value : UInt32) :
    (ofUint32 value).getUint32 = .ok value := by
  have hlt : value.toUInt64.toNat < 2 ^ 32 := value.toNat_lt
  rw [ofUint32, getUint32, if_pos hlt]
  simp [pure, Except.pure]

end Json

namespace Media

/-! ## Tracks -/

namespace Track

/-- The track with every text cut at its first NUL. -/
def cut (track : Track) : Track :=
  { track with
    contentId := cStr track.contentId
    contentType := cStr track.contentType
    name := cStr track.name
    language := cStr track.language
    subType := cStr track.subType }

theorem fromMessage_toMessage {track : Track} (htext : track.type = .text)
    (message : Json) :
    ∃ written, track.toMessage message = .ok written ∧
      fromMessage written = .ok track.cut := by
  refine ⟨_, by rw [toMessage, if_pos htext]; rfl, ?_⟩
  unfold fromMessage cut
  simp +decide [Json.member_set_of_ne, bind, Except.bind, pure,
    Except.pure, htext]

theorem toMessage_raises {track : Track} (htext : track.type ≠ .text)
    (message : Json) :
    track.toMessage message =
      raise (.runtimeError (lit "unknown track type")) := by
  unfold toMessage
  rw [if_neg htext]
  rfl

/-- No text contains a NUL. -/
structure NulFree (track : Track) : Prop where
  contentId : 0 ∉ track.contentId
  contentType : 0 ∉ track.contentType
  name : 0 ∉ track.name
  language : 0 ∉ track.language
  subType : 0 ∉ track.subType

theorem NulFree.cut_eq {track : Track} (h : track.NulFree) :
    track.cut = track := by
  unfold cut
  rw [cStr_of_not_mem h.contentId, cStr_of_not_mem h.contentType,
    cStr_of_not_mem h.name, cStr_of_not_mem h.language,
    cStr_of_not_mem h.subType]

theorem exists_written {tracks : List Track}
    (htext : ∀ track ∈ tracks, track.type = .text) :
    ∃ written, tracks.mapM (fun track => track.toMessage (.string [])) =
        .ok written ∧
      (Json.array written).mapItems fromMessage =
        .ok (tracks.map cut) := by
  simp only [Json.mapItems_array]
  induction tracks with
  | nil => exact ⟨[], rfl, rfl⟩
  | cons track rest ih =>
      have hfirst := htext track List.mem_cons_self
      obtain ⟨first, htrack, hread⟩ :=
        fromMessage_toMessage hfirst (.string [])
      obtain ⟨more, hmore, hrest⟩ := ih fun other hother =>
        htext other (List.mem_cons_of_mem _ hother)
      refine ⟨first :: more, ?_, ?_⟩
      · rw [List.mapM_cons, htrack, hmore]
        rfl
      · rw [List.mapM_cons, hread, hrest]
        rfl

end Track

/-! ## The member `media` -/

/-- No text that is sent contains a NUL. -/
structure NulFree (media : Media) : Prop where
  contentId : 0 ∉ media.contentId
  contentType : 0 ∉ media.contentType
  tracks : ∀ track ∈ media.tracks, track.NulFree
  title : 0 ∉ media.metaData.title
  images : ∀ image ∈ media.metaData.images, 0 ∉ image.url

theorem NulFree.tracks_cut {media : Media} (h : media.NulFree) :
    media.tracks.map Track.cut = media.tracks := by
  have heach : ∀ track ∈ media.tracks, track.cut = id track :=
    fun track htrack => (h.tracks track htrack).cut_eq
  rw [List.map_congr_left heach, List.map_id]

/-- What is written is the content and the tracks, and the metadata next to
them. -/
theorem exists_part {media : Media} {message : Json}
    (hnew : message.find? (lit "media") = none)
    (htext : ∀ track ∈ media.tracks, track.type = .text)
    (unset : StreamType) :
    ∃ part, media.toMessage unset message =
        .ok (media.metaData.toMessage (message.set (lit "media") part)) ∧
      fromMessage part = .ok {
        contentId := cStr media.contentId
        contentType := cStr media.contentType
        tracks := media.tracks.map Track.cut } := by
  obtain ⟨written, hwritten, hread⟩ := Track.exists_written htext
  have hstart := Json.get_touch_of_new hnew
  refine ⟨((((Json.string []).set (lit "contentId")
    (.ofString media.contentId)).set (lit "contentType")
    (.ofString media.contentType)).set (lit "streamType")
    (.ofString (streamTypeText media.streamType unset))).set (lit "tracks")
    (.array written), ?_, ?_⟩
  · unfold toMessage
    rw [hstart, hwritten]
    rfl
  · unfold fromMessage
    simp +decide [Json.member_set_of_ne, Json.hasMember_of_isObject,
      Json.find?_set_of_ne, hread, bind, Except.bind, pure, Except.pure]

def writeImages (images : List Image) (part : Json) : Json :=
  images.foldl
    (fun part image => part.set (lit "url") (.ofString image.url)) part

theorem writeImages_ne_array (images : List Image) {part : Json}
    (hnot : ∀ items, part ≠ .array items) (items : List Json) :
    writeImages images part ≠ .array items := by
  unfold writeImages
  induction images generalizing part with
  | nil => exact hnot items
  | cons image rest ih =>
      apply ih
      intro written hwritten
      have hobject : (part.set (lit "url") (.ofString image.url)).IsObject :=
        Json.isObject_set _ _ _
      dsimp only at hwritten
      rw [hwritten] at hobject
      exact hobject

theorem mapItems_of_ne_array {α : Type} {read : Json → Outcome α}
    {value : Json} (hnot : ∀ items, value ≠ .array items) :
    value.mapItems read = Json.violation := by
  cases value with
  | array items => exact absurd rfl (hnot items)
  | _ => rfl

/-- The reference `metadata_part["images"]` of a message. -/
def MetaData.imagesPart (message : Json) : Json :=
  (((message.find? (lit "metadata")).getD (.string [])).find?
    (lit "images")).getD (.string [])

/-- The images that are read are those the writer left in the member. -/
theorem MetaData.fromMessage_toMessage_eq (metaData : MetaData)
    (message : Json) :
    fromMessage (metaData.toMessage message) =
      ((writeImages metaData.images (imagesPart message)).mapItems
        Image.fromMessage).map fun images =>
          { metaData with title := cStr metaData.title, images } := by
  unfold fromMessage toMessage writeImages imagesPart
  rw [Json.member_update_self]
  simp +decide [Json.member_update_of_ne, Json.member_set_of_ne,
    Json.member_update_self, Json.find?_set_of_ne, bind, Except.bind]
  rfl

/-- What is written as metadata is never read back: `images` is no array. -/
theorem MetaData.fromMessage_toMessage (metaData : MetaData)
    {message : Json} (hnew : message.find? (lit "metadata") = none) :
    fromMessage (metaData.toMessage message) = Json.violation := by
  have hpart : imagesPart message = .string [] := by
    rw [imagesPart, hnew]
    rfl
  have hstring : ∀ items, Json.string [] ≠ .array items := by
    intro items hitems
    cases hitems
  rw [fromMessage_toMessage_eq, hpart,
    mapItems_of_ne_array (writeImages_ne_array metaData.images hstring)]
  rfl

theorem MetaData.find?_toMessage (metaData : MetaData) (message : Json)
    {name : StdString} (hname : name ≠ lit "metadata") :
    (metaData.toMessage message).find? name = message.find? name :=
  Json.find?_update_of_ne hname _ _

end Media

/-! ## LOAD -/

/-- The document carries the autoplay flag, and the media where
`Media::FromMessage` looks for it. -/
structure CarriesMedia (media : Media) (autoplay : Bool) (document : Json) :
    Prop where
  autoplay : document.find? (lit "autoplay") = some (.bool autoplay)
  media : ∃ part recovered, document.find? (lit "media") = some part ∧
    Media.fromMessage part = .ok recovered ∧
    recovered.contentId = media.contentId ∧
    recovered.contentType = media.contentType ∧
    recovered.streamType = media.streamType ∧
    recovered.tracks = media.tracks ∧
    recovered.metaData = media.metaData

namespace Channels

variable (rapid : RapidJson) (channels : Channels) (channel : ℕ)
  (hasCallback : Bool) (media : Media) (autoplay : Bool)
  (unset : Media.StreamType)

/-- `Load` sends one frame, with this document. -/
def LoadSends (document : Json) : Prop :=
  (channels.load rapid channel hasCallback (.ok ()) media autoplay
      unset).2.requests.trace =
    channels.requests.trace ++
      [.frame (.media channel) channels.requests.requested.length document]

theorem loadSends_iff {message : Json}
    (hmessage : media.toMessage unset (typed "LOAD") = .ok message)
    (document : Json) :
    LoadSends rapid channels channel hasCallback media autoplay unset
        document ↔
      document = message.set (lit "requestId")
        (.uint (channels.requests.requestId + 1)) := by
  unfold LoadSends load
  rw [hmessage]
  simp [request, Requests.userRequest, Requests.request, eq_comm]

/-- The content and the tracks of the media are sent.  The autoplay flag is
not, and the stream type and the metadata are not where they are looked
for. -/
theorem load_not_carriesMedia
    (htext : ∀ track ∈ media.tracks, track.type = .text)
    (hnul : media.NulFree) :
    (∃ document part,
      LoadSends rapid channels channel hasCallback media autoplay unset
          document ∧
        document.find? (lit "media") = some part ∧
        Media.fromMessage part = .ok {
          contentId := media.contentId
          contentType := media.contentType
          tracks := media.tracks } ∧
        document.find? (lit "autoplay") = none) ∧
    ∀ document,
      LoadSends rapid channels channel hasCallback media autoplay unset
        document →
        ¬CarriesMedia media autoplay document := by
  have hnew : (typed "LOAD").find? (lit "media") = none := rfl
  obtain ⟨part, hmessage, hpart⟩ := media.exists_part hnew htext unset
  rw [cStr_of_not_mem hnul.contentId, cStr_of_not_mem hnul.contentType,
    hnul.tracks_cut] at hpart
  have hsends := loadSends_iff rapid channels channel hasCallback media
    autoplay unset hmessage
  have hautoplay : ∀ document,
      LoadSends rapid channels channel hasCallback media autoplay unset
        document → document.find? (lit "autoplay") = none := by
    intro document hdocument
    rw [(hsends document).mp hdocument,
      Json.find?_set_of_ne (by decide),
      Media.MetaData.find?_toMessage _ _ (by decide),
      Json.find?_set_of_ne (by decide)]
    rfl
  constructor
  · have hdocument := (hsends _).mpr rfl
    refine ⟨_, part, hdocument, ?_, hpart, hautoplay _ hdocument⟩
    rw [Json.find?_set_of_ne (by decide),
      Media.MetaData.find?_toMessage _ _ (by decide),
      Json.find?_set_self]
  · intro document hdocument hcarries
    have hnone := hautoplay document hdocument
    rw [hcarries.autoplay] at hnone
    cases hnone

/-- A video with one text track. -/
def trackedVideo : Media where
  contentId := lit "video.mp4"
  contentType := lit "video/mp4"
  streamType := some .buffered
  tracks := [{
    id := 1
    type := .text
    contentId := lit "video.vtt"
    contentType := lit "text/vtt"
    name := lit "English"
    language := lit "en"
    subType := lit "SUBTITLES" }]

theorem trackedVideo_nulFree : trackedVideo.NulFree where
  contentId := by decide
  contentType := by decide
  tracks := by
    intro track htrack
    rw [List.mem_singleton.mp htrack]
    constructor <;> decide
  title := by decide
  images := by
    intro image himage
    cases himage

theorem load_not_carriesMedia_trackedVideo :
    (∃ document part,
      LoadSends textJson {} 0 true trackedVideo true .live document ∧
        document.find? (lit "media") = some part ∧
        Media.fromMessage part = .ok {
          contentId := trackedVideo.contentId
          contentType := trackedVideo.contentType
          tracks := trackedVideo.tracks } ∧
        document.find? (lit "autoplay") = none) ∧
    ∀ document,
      LoadSends textJson {} 0 true trackedVideo true .live document →
        ¬CarriesMedia trackedVideo true document := by
  apply load_not_carriesMedia textJson {} 0 true trackedVideo true .live
  · decide
  · exact trackedVideo_nulFree

/-- The document which loads this video carries no flag. -/
theorem not_load_carriesMedia :
    ¬∀ (media : Media) (autoplay : Bool) (unset : Media.StreamType),
      (∀ track ∈ media.tracks, track.type = .text) → media.NulFree →
        ∃ document,
          LoadSends textJson {} 0 true media autoplay unset document ∧
            CarriesMedia media autoplay document := by
  intro hcarried
  obtain ⟨document, hsends, hcarries⟩ :=
    hcarried trackedVideo true .live (by decide) trackedVideo_nulFree
  obtain ⟨written, hwritten⟩ : ∃ written,
      trackedVideo.toMessage .live (typed "LOAD") = .ok written := ⟨_, rfl⟩
  have hdocument := (loadSends_iff textJson {} 0 true trackedVideo true
    .live hwritten document).mp hsends
  have hflag := hcarries.autoplay
  rw [hdocument, Json.find?_set_of_ne (by decide)] at hflag
  have hnone : written.find? (lit "autoplay") = none := by
    cases hwritten
    rfl
  rw [hnone] at hflag
  cases hflag

end Channels

end LibChromecast
