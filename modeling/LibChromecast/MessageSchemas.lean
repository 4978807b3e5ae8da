import LibChromecast.JsonSchema
import LibChromecast.MediaMessages
import LibChromecast.ReceiverMessages

/-!
# The checks of the messages

What the decoders of `receiver_messages.cpp` and `media_messages.cpp` ask of a
document, in the order in which they read it.
-/

namespace LibChromecast

open Json

namespace Json.Check

/-! ## Receiver messages -/

def volume : Check :=
  object [required (lit "muted") bool, required (lit "level") number]

def basicReceiverStatus : List Check :=
  [required (lit "volume") volume, required (lit "isStandBy") bool,
    optional (lit "isActiveInput") bool]

def applicationInfo : Check :=
  object [
    required (lit "appId") string,
    required (lit "displayName") string,
    required (lit "sessionId") string,
    required (lit "statusText") string,
    optional (lit "transportId") string,
    required (lit "namespaces")
      (array (object [required (lit "name") string]))]

def receiverStatus : Check :=
  object [
    required (lit "type") (text (· = lit "RECEIVER_STATUS")),
    required (lit "status") (object (basicReceiverStatus ++
      [optional (lit "applications") (head applicationInfo)]))]

/-! ## Media messages -/

def track : Check :=
  object [
    required (lit "type") string,
    required (lit "trackId") uint32,
    required (lit "trackContentId") string,
    required (lit "trackContentType") string,
    required (lit "name") string,
    required (lit "language") string,
    required (lit "subtype") string]

/-- No text is accepted as a color, so nothing behind the first one is
read. -/
def textTrackStyle : Check :=
  object [required (lit "backgroundColor") (text fun _ => false)]

def metaData : Check :=
  object [
    required (lit "type") uint32,
    required (lit "title") string,
    required (lit "metadataType") uint32,
    required (lit "images") (array (object [required (lit "url") string]))]

def media : Check :=
  object [
    required (lit "contentId") string,
    required (lit "contentType") string,
    optional (lit "tracks") (array track),
    whenPresent (lit "textTrackStyle") textTrackStyle,
    optional (lit "metadata") metaData]

def mediaItem : Check :=
  object [
    required (lit "itemId") uint32,
    required (lit "autoplay") bool,
    required (lit "startTime") number,
    required (lit "activeTrackIds") (array uint32),
    required (lit "media") media]

/-- A text that one of the tables translates. -/
def key {α : Type} (table : List (StdString × α)) : Check :=
  text fun name => (table.lookup name).isSome

def jsonStatus : Check :=
  object [
    required (lit "mediaSessionId") uint32,
    required (lit "playbackRate") uint32,
    required (lit "currentTime") number,
    required (lit "supportedMediaCommands") uint32,
    required (lit "volume") volume,
    required (lit "currentItemId") uint32,
    required (lit "playerState") (key playerJsonStateToState),
    optional (lit "repeatMode") (key playerJsonRepeatModeToRepeatMode),
    optional (lit "media") media,
    optional (lit "items") (array mediaItem)]

def mediaStatus : Check :=
  object [
    required (lit "type") (text (· = lit "MEDIA_STATUS")),
    required (lit "status") (array jsonStatus)]

end Json.Check

/-! ## Receiver decoders -/

/-- The volume is read member by member from one object. -/
theorem of_volume {β : Type} {use : Bool → Double → Outcome β}
    {verdict : Verdict} {volume : Json}
    (huse : ∀ muted level, Verdict.of (use muted level) = verdict) :
    Verdict.of (volume.member (lit "muted") >>= fun found =>
      found.getBool >>= fun muted =>
      volume.member (lit "level") >>= fun found =>
      found.getDouble >>= fun level => use muted level) =
      (Check.volume volume).seq verdict := by
  by_cases hobject : volume.IsObject
  · rw [Check.volume, object_of_isObject hobject]
    simp only [Check.fields, Verdict.seq_accepts, Verdict.seq_assoc]
    refine of_required hobject fun found => ?_
    refine of_read follows_getBool fun muted => ?_
    refine of_required hobject fun found => ?_
    exact of_read follows_getDouble (huse muted)
  · rw [Check.volume, object_of_not_object hobject]
    exact of_member_of_not_object hobject _

theorem ApplicationInfo.follows :
    Follows ApplicationInfo.fromMessage Check.applicationInfo := by
  have hnamespace : Follows (fun item : Json => do
      (← item.member (lit "name")).getString)
      (Check.object [Check.required (lit "name") Check.string]) := by
    apply follows_object
    · intro item hobject
      refine of_required hobject fun found => ?_
      rw [follows_getString found]
      exact (Verdict.seq_accepts _).symm
    · intro item hnot
      exact of_member_of_not_object hnot _
  apply follows_object
  · intro value hobject
    unfold ApplicationInfo.fromMessage
    refine of_required hobject fun found => ?_
    refine of_read follows_getString fun applicationId => ?_
    refine of_required hobject fun found => ?_
    refine of_read follows_getString fun displayName => ?_
    refine of_required hobject fun found => ?_
    refine of_read follows_getString fun sessionId => ?_
    refine of_required hobject fun found => ?_
    refine of_read follows_getString fun statusText => ?_
    have hrest : ∀ transportId, Verdict.of (do
        let namespacesValue ← value.member (lit "namespaces")
        let namespaces ← namespacesValue.mapItems fun item => do
          (← item.member (lit "name")).getString
        pure ({ applicationId, displayName, namespaces, sessionId, statusText,
                transportId } : ApplicationInfo)) =
        Check.fields [Check.required (lit "namespaces") (Check.array
          (Check.object [Check.required (lit "name") Check.string]))]
          value := by
      intro transportId
      refine of_required hobject fun found => ?_
      exact of_read (follows_mapItems hnamespace) fun _ => rfl
    refine of_optional hobject (fun found => ?_) (hrest [])
    exact of_read follows_getString hrest
  · intro value hnot
    exact of_member_of_not_object hnot _

/-- What is read after the basic status is read from the same object. -/
theorem BasicReceiverStatus.of_fromMessage {β : Type} {value : Json}
    {use : BasicReceiverStatus → Outcome β} {checks : List Check}
    (hobject : value.IsObject)
    (huse : ∀ status, Verdict.of (use status) = Check.fields checks value) :
    Verdict.of (fromMessage value >>= use) =
      Check.fields (Check.basicReceiverStatus ++ checks) value := by
  rw [fields_append, Verdict.of_bind fun status _ => huse status]
  congr 1
  unfold fromMessage
  refine of_required hobject fun volume => ?_
  refine of_volume fun muted level => ?_
  refine of_required hobject fun found => ?_
  refine of_read follows_getBool fun isStandby => ?_
  refine of_optional hobject (fun found => ?_) rfl
  exact of_read (follows_getBool.map some) fun _ => rfl

theorem ReceiverStatus.follows (rapid : RapidJson) :
    Follows (fromMessage rapid) Check.receiverStatus := by
  apply follows_object
  · intro value hobject
    unfold fromMessage
    refine of_required hobject fun found => ?_
    refine of_text (fun type htype => ?_) (fun type htype => ?_)
    · have hok : type = lit "RECEIVER_STATUS" := of_decide_eq_true htype
      simp only [hok, throwOnError]
      refine of_required hobject fun status => ?_
      rw [Check.fields, Verdict.seq_accepts]
      by_cases hstatus : status.IsObject
      · rw [object_of_isObject hstatus]
        refine BasicReceiverStatus.of_fromMessage hstatus fun basic => ?_
        refine of_optional hstatus (fun applications => ?_) rfl
        exact (congrArg Verdict.of (bind_assoc _ _ _).symm).trans
          (of_read (follows_head ApplicationInfo.follows) fun _ => rfl)
      · rw [object_of_not_object hstatus]
        apply Verdict.of_bind_of_breaks
        exact of_member_of_not_object hstatus _
    · have hno : type ≠ lit "RECEIVER_STATUS" := by
        simpa using htype
      apply Verdict.of_bind_of_rejects
      rw [decide_eq_true hno]
      rfl
  · intro value hnot
    exact of_member_of_not_object hnot _

/-! ## Media decoders -/

namespace Media

theorem Track.follows : Follows fromMessage Check.track := by
  apply follows_object
  · intro value hobject
    unfold fromMessage
    refine of_required hobject fun found => ?_
    refine of_read follows_getString fun trackType => ?_
    refine of_required hobject fun found => ?_
    refine of_read follows_getUint32 fun id => ?_
    refine of_required hobject fun found => ?_
    refine of_read follows_getString fun contentId => ?_
    refine of_required hobject fun found => ?_
    refine of_read follows_getString fun contentType => ?_
    refine of_required hobject fun found => ?_
    refine of_read follows_getString fun name => ?_
    refine of_required hobject fun found => ?_
    refine of_read follows_getString fun language => ?_
    refine of_required hobject fun found => ?_
    exact of_read follows_getString fun subType => rfl
  · intro value hnot
    exact of_member_of_not_object hnot _

namespace TextTrackStyle

/-- `lexical_cast` to a character takes no two digits. -/
theorem Color.of_fromString (value : StdString) :
    Verdict.of (Color.fromString value) = .rejects := by
  unfold Color.fromString
  by_cases hlength : value.length = 9
  · have htwo : ((value.drop 1).take 2).length = 2 := by
      rw [List.length_take, List.length_drop, hlength]
      rfl
    have hchannel : colorChannel value 1 = raise .badLexicalCast := by
      unfold colorChannel
      match hpair : (value.drop 1).take 2, htwo with
      | [first, second], _ => rfl
    rw [hchannel]
    split_ifs <;> rfl
  · simp [hlength, raise]
    rfl

theorem follows : Follows TextTrackStyle.fromMessage
    Check.textTrackStyle := by
  apply follows_object
  · intro value hobject
    unfold fromMessage
    refine of_required hobject fun found => ?_
    refine of_text (fun text htext => ?_) (fun text htext => ?_)
    · cases htext
    · apply Verdict.of_bind_of_rejects
      exact Color.of_fromString text
  · intro value hnot
    exact of_member_of_not_object hnot _

end TextTrackStyle

theorem Image.follows : Follows fromMessage
    (Check.object [Check.required (lit "url") Check.string]) := by
  apply follows_object
  · intro value hobject
    unfold fromMessage
    refine of_required hobject fun found => ?_
    exact of_read follows_getString fun url => rfl
  · intro value hnot
    exact of_member_of_not_object hnot _

/-- What is read of the member `metadata`. -/
def MetaData.ofPart (part : Json) : Outcome MetaData := do
  let type ← (← part.member (lit "type")).getUint32
  let title ← (← part.member (lit "title")).getString
  let metadataType ← (← part.member (lit "metadataType")).getUint32
  let images ← (← part.member (lit "images")).mapItems Image.fromMessage
  pure { type, metadataType, title, images }

theorem MetaData.follows : Follows ofPart Check.metaData := by
  apply follows_object
  · intro value hobject
    unfold ofPart
    refine of_required hobject fun found => ?_
    refine of_read follows_getUint32 fun type => ?_
    refine of_required hobject fun found => ?_
    refine of_read follows_getString fun title => ?_
    refine of_required hobject fun found => ?_
    refine of_read follows_getUint32 fun metadataType => ?_
    refine of_required hobject fun found => ?_
    exact of_read (follows_mapItems Image.follows) fun images => rfl
  · intro value hnot
    exact of_member_of_not_object hnot _

theorem MetaData.fromMessage_eq (value : Json) :
    fromMessage value = value.member (lit "metadata") >>= ofPart := rfl

theorem follows : Follows fromMessage Check.media := by
  apply follows_object
  · intro value hobject
    unfold fromMessage
    refine of_required hobject fun found => ?_
    refine of_read follows_getString fun contentId => ?_
    refine of_required hobject fun found => ?_
    refine of_read follows_getString fun contentType => ?_
    have hmetaData : ∀ tracks textTrackStyle, Verdict.of (do
        let metaData ←
          if ← value.hasMember (lit "metadata") then
            MetaData.fromMessage value
          else pure {}
        pure ({ contentId, contentType, tracks, textTrackStyle,
                metaData } : Media)) =
        Check.fields [Check.optional (lit "metadata") Check.metaData]
          value := by
      intro tracks textTrackStyle
      simp only [MetaData.fromMessage_eq, bind_assoc, pure_bind]
      refine of_optional hobject (fun found => ?_) rfl
      exact of_read MetaData.follows fun _ => rfl
    have hstyle : ∀ tracks, Verdict.of (do
        let textTrackStyle ←
          if ← value.hasMember (lit "textTrackStyle") then
            some <$> TextTrackStyle.fromMessage value
          else pure none
        let metaData ←
          if ← value.hasMember (lit "metadata") then
            MetaData.fromMessage value
          else pure {}
        pure ({ contentId, contentType, tracks, textTrackStyle,
                metaData } : Media)) =
        Check.fields [
          Check.whenPresent (lit "textTrackStyle") Check.textTrackStyle,
          Check.optional (lit "metadata") Check.metaData] value := by
      intro tracks
      refine of_whenPresent hobject ?_ (hmetaData tracks none)
      exact of_read (TextTrackStyle.follows.map some) (hmetaData tracks)
    refine of_optional hobject (fun found => ?_) (hstyle [])
    exact of_read (follows_mapItems Track.follows) hstyle
  · intro value hnot
    exact of_member_of_not_object hnot _

end Media

theorem MediaItem.follows : Follows fromMessage Check.mediaItem := by
  apply follows_object
  · intro value hobject
    unfold fromMessage
    refine of_required hobject fun found => ?_
    refine of_read follows_getUint32 fun id => ?_
    refine of_required hobject fun found => ?_
    refine of_read follows_getBool fun autoplay => ?_
    refine of_required hobject fun found => ?_
    refine of_read follows_getDouble fun startTime => ?_
    refine of_required hobject fun found => ?_
    refine of_read (follows_mapItems follows_getUint32)
      fun activeTrackIds => ?_
    refine of_required hobject fun found => ?_
    exact of_read Media.follows fun media => rfl
  · intro value hnot
    exact of_member_of_not_object hnot _

/-! ## Media status -/

theorem of_translate {α β : Type} {table : List (StdString × α)}
    {errorText : StdString} {use : α → Outcome β} {verdict : Verdict}
    {value : Json} (huse : ∀ a, Verdict.of (use a) = verdict) :
    Verdict.of (value.getString >>= fun text =>
      translate table errorText text >>= use) =
      (Check.key table value).seq verdict := by
  refine of_text (fun text haccept => ?_) (fun text hreject => ?_)
  · obtain ⟨found, hfound⟩ := Option.isSome_iff_exists.mp haccept
    unfold translate
    rw [hfound]
    exact huse found
  · have hnone : table.lookup text = none :=
      Option.not_isSome_iff_eq_none.mp hreject
    unfold translate
    rw [hnone]
    rfl

namespace MediaStatus

theorem follows_ofJsonStatus : Follows ofJsonStatus Check.jsonStatus := by
  apply follows_object
  · intro value hobject
    unfold ofJsonStatus
    refine of_required hobject fun found => ?_
    refine of_read follows_getUint32 fun sessionId => ?_
    refine of_required hobject fun found => ?_
    refine of_read follows_getUint32 fun playbackRate => ?_
    refine of_required hobject fun found => ?_
    refine of_read follows_getDouble fun currentTime => ?_
    refine of_required hobject fun found => ?_
    refine of_read follows_getUint32 fun supportedMediaCommands => ?_
    refine of_required hobject fun volume => ?_
    refine of_volume fun muted volumeLevel => ?_
    refine of_required hobject fun found => ?_
    refine of_read follows_getUint32 fun currentItemId => ?_
    refine of_required hobject fun found => ?_
    refine of_translate fun playerState => ?_
    have hitems : ∀ repeatMode media, Verdict.of (do
        let items ←
          if ← value.hasMember (lit "items") then do
            (← value.member (lit "items")).mapItems MediaItem.fromMessage
          else pure []
        pure ({
          valid := true, muted, volumeLevel, currentTime, sessionId
          playbackRate, currentItemId, playerState, supportedMediaCommands
          repeatMode, media, items } : MediaStatus)) =
        Check.fields [
          Check.optional (lit "items") (Check.array Check.mediaItem)]
          value := by
      intro repeatMode media
      refine of_optional hobject (fun found => ?_) rfl
      exact of_read (follows_mapItems MediaItem.follows) fun _ => rfl
    have hmedia : ∀ repeatMode, Verdict.of (do
        let media ←
          if ← value.hasMember (lit "media") then do
            Media.fromMessage (← value.member (lit "media"))
          else pure {}
        let items ←
          if ← value.hasMember (lit "items") then do
            (← value.member (lit "items")).mapItems MediaItem.fromMessage
          else pure []
        pure ({
          valid := true, muted, volumeLevel, currentTime, sessionId
          playbackRate, currentItemId, playerState, supportedMediaCommands
          repeatMode, media, items } : MediaStatus)) =
        Check.fields [
          Check.optional (lit "media") Check.media,
          Check.optional (lit "items") (Check.array Check.mediaItem)]
          value := by
      intro repeatMode
      refine of_optional hobject (fun found => ?_) (hitems repeatMode {})
      exact of_read Media.follows (hitems repeatMode)
    refine of_optional hobject (fun found => ?_) (hmedia .missing)
    exact of_translate hmedia
  · intro value hnot
    exact of_member_of_not_object hnot _

theorem follows : Follows fromMessage Check.mediaStatus := by
  apply follows_object
  · intro value hobject
    unfold fromMessage
    refine of_required hobject fun found => ?_
    refine of_text (fun type htype => ?_) (fun type htype => ?_)
    · have hok : type = lit "MEDIA_STATUS" := of_decide_eq_true htype
      simp only [hok, throwOnError]
      refine of_required hobject fun found => ?_
      exact of_read (follows_mapItems follows_ofJsonStatus) fun _ => rfl
    · have hno : type ≠ lit "MEDIA_STATUS" := by
        simpa using htype
      apply Verdict.of_bind_of_rejects
      rw [decide_eq_true hno]
      rfl
  · intro value hnot
    exact of_member_of_not_object hnot _

end MediaStatus

end LibChromecast
