import LibChromecast.JsonMessage

/-!
# Media messages

`Media`, `MediaStatus` and `MediaResponse` with their encoders and decoders.
A field the source leaves uninitialised is `none`.  Only `stream_type` is read
all the same: what its memory holds decides which text is written.
-/

namespace LibChromecast

namespace Media

/-! ## Tracks -/

inductive TrackType where
  | unknown
  | text
deriving DecidableEq

structure Track where
  id : UInt32
  type : TrackType
  contentId : StdString
  contentType : StdString
  name : StdString
  language : StdString
  subType : StdString
deriving DecidableEq

namespace Track

def toMessage (track : Track) (message : Json) : Outcome Json := do
  let message := message.set (lit "trackId") (.ofUint32 track.id)
  let message ←
    if track.type = .text then
      pure (message.set (lit "type") (.ofString (lit "TEXT")))
    else raise (.runtimeError (lit "unknown track type"))
  let message :=
    message.set (lit "trackContentId") (.ofString track.contentId)
  let message :=
    message.set (lit "trackContentType") (.ofString track.contentType)
  let message := message.set (lit "name") (.ofString track.name)
  let message := message.set (lit "language") (.ofString track.language)
  pure (message.set (lit "subtype") (.ofString track.subType))

def fromMessage (message : Json) : Outcome Track := do
  let trackType ← (← message.member (lit "type")).getString
  let type := if trackType = lit "TEXT" then TrackType.text else .unknown
  let id ← (← message.member (lit "trackId")).getUint32
  let contentId ← (← message.member (lit "trackContentId")).getString
  let contentType ← (← message.member (lit "trackContentType")).getString
  let name ← (← message.member (lit "name")).getString
  let language ← (← message.member (lit "language")).getString
  let subType ← (← message.member (lit "subtype")).getString
  pure { id, type, contentId, contentType, name, language, subType }

end Track

/-! ## Text track styles -/

namespace TextTrackStyle

structure Color where
  argb : Vector UInt8 4
deriving DecidableEq

/-- `boost::lexical_cast` to an `unsigned char`, which is a character. -/
def lexicalCastByte : StdString → Outcome UInt8
  | [byte] => pure byte
  | _ => raise .badLexicalCast

/-- `value.substr(pos, 2)`. -/
def colorChannel (value : StdString) (pos : ℕ) : Outcome UInt8 :=
  lexicalCastByte ((value.drop pos).take 2)

def Color.fromString (value : StdString) : Outcome Color := do
  if value.length ≠ 9 then
    raise (.runtimeError (lit "invalid color value " ++ value))
  if value.head? ≠ (lit "#").head? then
    raise (.runtimeError
      (lit "color value does not start with a # prefix" ++ value))
  let a ← colorChannel value 1
  let r ← colorChannel value 3
  let g ← colorChannel value 5
  let b ← colorChannel value 7
  pure ⟨#v[a, r, g, b]⟩

inductive EdgeType where
  | unknown
  | outline
deriving DecidableEq

structure Edge where
  type : EdgeType
  color : Color
deriving DecidableEq

/-- Any edge type is read as `outline`. -/
def Edge.fromMessage (message : Json) : Outcome Edge := do
  let edgeType ← (← message.member (lit "edgeType")).getString
  let type :=
    if edgeType ≠ lit "OUTLINE" then EdgeType.outline else .outline
  let edgeColor ← (← message.member (lit "edgeColor")).getString
  let color ← Color.fromString edgeColor
  pure { type, color }

inductive FontStyle where
  | unknown
  | normal
deriving DecidableEq

structure Font where
  scale : Double
  style : FontStyle
  family : StdString
  genericFamily : StdString
deriving DecidableEq

def Font.fromMessage (message : Json) : Outcome Font := do
  let fontStyle ← (← message.member (lit "fontStyle")).getString
  let style := if fontStyle = lit "NORMAL" then FontStyle.normal else .unknown
  let scale ← (← message.member (lit "fontScale")).getDouble
  let family ← (← message.member (lit "fontFamily")).getString
  let genericFamily ← (← message.member (lit "fontGenericFamily")).getString
  pure { scale, style, family, genericFamily }

inductive WindowType where
  | none
deriving DecidableEq

structure Window where
  type : WindowType
  color : Color
  roundedCornerRadius : Double
deriving DecidableEq

def Window.fromMessage (message : Json) : Outcome Window := do
  let windowColor ← (← message.member (lit "windowColor")).getString
  let color ← Color.fromString windowColor
  let roundedCornerRadius ←
    (← message.member (lit "windowRoundedCornerRadius")).getDouble
  pure { type := .none, color, roundedCornerRadius }

end TextTrackStyle

structure TextTrackStyle where
  background : TextTrackStyle.Color
  foreground : TextTrackStyle.Color
  edge : TextTrackStyle.Edge
  font : TextTrackStyle.Font
  window : TextTrackStyle.Window
deriving DecidableEq

def TextTrackStyle.fromMessage (message : Json) :
    Outcome TextTrackStyle := do
  let backgroundColor ← (← message.member (lit "backgroundColor")).getString
  let background ← Color.fromString backgroundColor
  let foregroundColor ← (← message.member (lit "foregroundColor")).getString
  let foreground ← Color.fromString foregroundColor
  let edge ← Edge.fromMessage message
  let font ← Font.fromMessage message
  let window ← Window.fromMessage message
  pure { background, foreground, edge, font, window }

/-! ## Metadata -/

structure Image where
  url : StdString
deriving DecidableEq

def Image.fromMessage (message : Json) : Outcome Image := do
  let url ← (← message.member (lit "url")).getString
  pure { url }

/-- `metadataType` is an `eMetadataType`, which holds any `uint32_t`. -/
structure MetaData where
  type : UInt32 := 0
  metadataType : UInt32 := 0
  title : StdString := []
  images : List Image := []
deriving DecidableEq

namespace MetaData

/-- Every image is written to the same member of `images`. -/
def toMessage (metaData : MetaData) (message : Json) : Json :=
  message.update (lit "metadata") fun part =>
    let part := part.set (lit "type") (.ofUint32 metaData.type)
    let part :=
      part.set (lit "metadataType") (.ofUint32 metaData.metadataType)
    let part := part.set (lit "title") (.ofString metaData.title)
    part.update (lit "images") fun images =>
      metaData.images.foldl
        (fun images image => images.set (lit "url") (.ofString image.url))
        images

def fromMessage (message : Json) : Outcome MetaData := do
  let part ← message.member (lit "metadata")
  let type ← (← part.member (lit "type")).getUint32
  let title ← (← part.member (lit "title")).getString
  let metadataType ← (← part.member (lit "metadataType")).getUint32
  let images ← (← part.member (lit "images")).mapItems Image.fromMessage
  pure { type, metadataType, title, images }

end MetaData

inductive StreamType where
  | buffered
  | live
deriving DecidableEq

end Media

/-! ## Media -/

structure Media where
  metaData : Media.MetaData := {}
  contentId : StdString := []
  contentType : StdString := []
  duration : Option Double := none
  streamType : Option Media.StreamType := none
  tracks : List Media.Track := []
  textTrackStyle : Option Media.TextTrackStyle := none
deriving DecidableEq

namespace Media

/-- The text of a stream type; of one that was not set, `unset` is what its
memory holds. -/
def streamTypeText (streamType : Option StreamType) (unset : StreamType) :
    StdString :=
  if streamType.getD unset = .buffered then lit "BUFFERED" else lit "LIVE"

/-- The metadata is written next to the member `media`, not into it. -/
def toMessage (media : Media) (unset : StreamType) (message : Json) :
    Outcome Json := do
  let part := (message.touch (lit "media")).get (lit "media")
  let part := part.set (lit "contentId") (.ofString media.contentId)
  let part := part.set (lit "contentType") (.ofString media.contentType)
  let part := part.set (lit "streamType")
    (.ofString (streamTypeText media.streamType unset))
  let tracks ← media.tracks.mapM fun track => track.toMessage (.string [])
  let part := part.set (lit "tracks") (.array tracks)
  pure (media.metaData.toMessage (message.set (lit "media") part))

/-- The members of a style are looked for in the media object itself. -/
def fromMessage (message : Json) : Outcome Media := do
  let contentId ← (← message.member (lit "contentId")).getString
  let contentType ← (← message.member (lit "contentType")).getString
  let tracks ←
    if ← message.hasMember (lit "tracks") then
      (← message.member (lit "tracks")).mapItems Track.fromMessage
    else pure []
  let textTrackStyle ←
    if ← message.hasMember (lit "textTrackStyle") then
      some <$> TextTrackStyle.fromMessage message
    else pure none
  let metaData ←
    if ← message.hasMember (lit "metadata") then
      MetaData.fromMessage message
    else pure {}
  pure { contentId, contentType, tracks, textTrackStyle, metaData }

end Media

structure MediaItem where
  id : UInt32
  autoplay : Bool
  startTime : Double
  activeTrackIds : List UInt32
  media : Media
deriving DecidableEq

def MediaItem.fromMessage (message : Json) : Outcome MediaItem := do
  let id ← (← message.member (lit "itemId")).getUint32
  let autoplay ← (← message.member (lit "autoplay")).getBool
  let startTime ← (← message.member (lit "startTime")).getDouble
  let activeTrackIds ←
    (← message.member (lit "activeTrackIds")).mapItems Json.getUint32
  let media ← Media.fromMessage (← message.member (lit "media"))
  pure { id, autoplay, startTime, activeTrackIds, media }

/-! ## Media status -/

inductive PlayerState where
  | idle
  | buffering
  | playing
  | paused
  | missing
deriving DecidableEq

inductive RepeatMode where
  | off
  | missing
deriving DecidableEq

def playerJsonStateToState : List (StdString × PlayerState) :=
  [(lit "PLAYING", .playing), (lit "BUFFERING", .buffering),
    (lit "PAUSED", .paused), (lit "IDLE", .idle)]

def playerJsonRepeatModeToRepeatMode : List (StdString × RepeatMode) :=
  [(lit "REPEAT_OFF", .off)]

/-- `find` in one of the tables above; the error names the text. -/
def translate {α : Type} (table : List (StdString × α))
    (errorText text : StdString) : Outcome α :=
  match table.lookup text with
  | some value => pure value
  | none => raise (.runtimeError (errorText ++ text))

structure MediaStatus where
  valid : Bool := false
  muted : Bool := false
  volumeLevel : Double := ⟨0⟩
  currentTime : Double := ⟨0⟩
  sessionId : UInt32 := 0
  playbackRate : UInt32 := 0
  currentItemId : UInt32 := 0
  playerState : PlayerState := .missing
  supportedMediaCommands : UInt32 := 0
  repeatMode : RepeatMode := .missing
  media : Media := {}
  items : List MediaItem := []
deriving DecidableEq

namespace MediaStatus

/-- One turn of the loop of `FromMessage`. -/
def ofJsonStatus (jsonStatus : Json) : Outcome MediaStatus := do
  let sessionId ← (← jsonStatus.member (lit "mediaSessionId")).getUint32
  let playbackRate ← (← jsonStatus.member (lit "playbackRate")).getUint32
  let currentTime ← (← jsonStatus.member (lit "currentTime")).getDouble
  let supportedMediaCommands ←
    (← jsonStatus.member (lit "supportedMediaCommands")).getUint32
  let volume ← jsonStatus.member (lit "volume")
  let muted ← (← volume.member (lit "muted")).getBool
  let volumeLevel ← (← volume.member (lit "level")).getDouble
  let currentItemId ← (← jsonStatus.member (lit "currentItemId")).getUint32
  let playState ← (← jsonStatus.member (lit "playerState")).getString
  let playerState ← translate playerJsonStateToState
    (lit "unrecognized play state ") playState
  let repeatMode ←
    if ← jsonStatus.hasMember (lit "repeatMode") then do
      let mode ← (← jsonStatus.member (lit "repeatMode")).getString
      translate playerJsonRepeatModeToRepeatMode
        (lit "unrecognized repeat mode ") mode
    else pure .missing
  let media ←
    if ← jsonStatus.hasMember (lit "media") then do
      Media.fromMessage (← jsonStatus.member (lit "media"))
    else pure {}
  let items ←
    if ← jsonStatus.hasMember (lit "items") then do
      (← jsonStatus.member (lit "items")).mapItems MediaItem.fromMessage
    else pure []
  pure {
    valid := true, muted, volumeLevel, currentTime, sessionId, playbackRate
    currentItemId, playerState, supportedMediaCommands, repeatMode, media
    items }

/-- Every status of the message is decoded, and the first one returned. -/
def fromMessage (message : Json) : Outcome MediaStatus := do
  let type ← (← message.member (lit "type")).getString
  throwOnError (type ≠ lit "MEDIA_STATUS")
    (lit "invalid message type, expected a receiver status message")
  let statuses ← (← message.member (lit "status")).mapItems ofJsonStatus
  pure (statuses.headD {})

end MediaStatus

/-! ## Media responses -/

structure MediaResponse where
  reason : StdString := []
  status : MediaStatus := {}
deriving DecidableEq

namespace MediaResponse

def succeeded (response : MediaResponse) : Bool := response.reason.isEmpty

def failed (response : MediaResponse) : Bool := !response.succeeded

def throwOnFailure (response : MediaResponse) : Outcome Unit :=
  if response.failed then raise (.runtimeError response.reason)
  else pure ()

def toString (response : MediaResponse) : StdString :=
  if response.reason.isEmpty then lit "success"
  else lit "failure, " ++ response.reason

def fromMessage (message : Json) : Outcome MediaResponse := do
  if ← message.hasMember (lit "status") then
    let status ← MediaStatus.fromMessage message
    pure { status }
  else
    let reason ← (← message.member (lit "reason")).getString
    pure { reason }

end MediaResponse

end LibChromecast
