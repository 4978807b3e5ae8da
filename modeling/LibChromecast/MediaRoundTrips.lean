import LibChromecast.MediaLoad

/-!
# Encoded and decoded again

A vector is assigned to a member element by element: the array grows by an
empty string, and the element writes itself over that string.  Tracks are
written so and are read back.  The images of the metadata are not: each one is
written to the member `images` itself, which is read as an array.
-/

namespace LibChromecast

namespace Json

/-! ## Assigning a vector -/

/-- `PushBack` of an empty string. -/
def pushBack : Json → Outcome Json
  | .array items => pure (.array (items ++ [.string []]))
  | _ => violation

/-- What is done to the reference `_value[index]`. -/
def updateItem (index : ℕ) (change : Json → Outcome Json) :
    Json → Outcome Json
  | .array items =>
      match items[index]? with
      | some item => do
          let changed ← change item
          pure (.array (items.set index changed))
      | none => violation
  | _ => violation

section Vector

variable {τ : Type} (toMessage : τ → Json → Outcome Json)

/-- One turn of the loop of `operator=(const std::vector<T>&)`. -/
def pushItem (value : Json) (item : τ) : Outcome Json := do
  let value ← value.pushBack
  let size ← value.size
  value.updateItem (size - 1) (toMessage item)

/-- `message[name] = items`: the loop starts with `SetArray`. -/
def assignVector (message : Json) (name : StdString) (items : List τ) :
    Outcome Json := do
  let written ← items.foldlM (pushItem toMessage) (.array [])
  pure (message.set name written)

/-- The elements written before stay what they are. -/
theorem pushItem_array (before : List Json) (item : τ) :
    (Json.array before).pushItem toMessage item =
      (toMessage item (.string [])).map fun written =>
        .array (before ++ [written]) := by
  have hlast : (before ++ [Json.string []]).length - 1 = before.length := by
    simp
  unfold pushItem
  simp only [pushBack, size, updateItem, pure_bind, hlast,
    List.getElem?_concat_length]
  cases toMessage item (.string []) with
  | error fault => rfl
  | ok written =>
      have hset : (before ++ [Json.string []]).set before.length written =
          before ++ [written] := by
        simp
      exact congrArg (fun items => Except.ok (Json.array items)) hset

theorem foldlM_pushItem (items : List τ) (before : List Json) :
    items.foldlM (pushItem toMessage) (.array before) =
      (items.mapM fun item => toMessage item (.string [])).map
        fun written => .array (before ++ written) := by
  induction items generalizing before with
  | nil => simp [Except.map, pure, Except.pure]
  | cons item rest ih =>
      rw [List.foldlM_cons, List.mapM_cons, pushItem_array]
      cases toMessage item (.string []) with
      | error fault => rfl
      | ok first =>
          have hrest := ih (before ++ [first])
          simp only [List.append_assoc, List.singleton_append] at hrest
          refine Eq.trans hrest ?_
          cases rest.mapM fun item => toMessage item (.string []) <;> rfl

theorem assignVector_eq (message : Json) (name : StdString)
    (items : List τ) :
    message.assignVector toMessage name items =
      (items.mapM fun item => toMessage item (.string [])).map
        fun written => message.set name (.array written) := by
  rw [assignVector, foldlM_pushItem]
  cases items.mapM fun item => toMessage item (.string []) <;> rfl

end Vector

end Json

namespace Media

/-! ## Tracks -/

namespace Track

theorem mapM_toMessage_raises {tracks : List Track}
    (hother : ∃ track ∈ tracks, track.type ≠ .text) :
    tracks.mapM (fun track => track.toMessage (.string [])) =
      raise (.runtimeError (lit "unknown track type")) := by
  induction tracks with
  | nil =>
      obtain ⟨track, htrack, -⟩ := hother
      cases htrack
  | cons first rest ih =>
      rw [List.mapM_cons]
      by_cases htext : first.type = .text
      · obtain ⟨written, hwritten, -⟩ :=
          fromMessage_toMessage htext (.string [])
        have hrest : ∃ track ∈ rest, track.type ≠ .text := by
          obtain ⟨track, htrack, hne⟩ := hother
          rcases List.mem_cons.mp htrack with rfl | hmem
          · exact absurd htext hne
          · exact ⟨track, hmem, hne⟩
        rw [hwritten, ih hrest]
        rfl
      · rw [toMessage_raises htext]
        rfl

/-- Text tracks assigned to a member are read back from it, cut at their first
NULs.  Others are not written. -/
theorem fromMessage_assignVector (tracks : List Track) (message : Json)
    (name : StdString) :
    ((∀ track ∈ tracks, track.type = .text) →
      ∃ written, message.assignVector toMessage name tracks = .ok written ∧
        (do (← written.member name).mapItems fromMessage) =
          .ok (tracks.map cut)) ∧
    ((∃ track ∈ tracks, track.type ≠ .text) →
      message.assignVector toMessage name tracks =
        raise (.runtimeError (lit "unknown track type"))) := by
  rw [Json.assignVector_eq]
  constructor
  · intro htext
    obtain ⟨items, hitems, hread⟩ := exists_written htext
    refine ⟨message.set name (.array items), ?_, ?_⟩
    · rw [hitems]
      rfl
    · rw [Json.member_set_self]
      exact hread
  · intro hother
    rw [mapM_toMessage_raises hother]
    rfl

def mixed : List Track :=
  [{ id := 1, type := .text, contentId := [], contentType := [],
      name := lit "en", language := [], subType := [] },
    { id := 2, type := .unknown, contentId := [], contentType := [],
      name := lit "de", language := [], subType := [] }]

theorem fromMessage_assignVector_mixed :
    (∃ written, (Json.string []).assignVector toMessage (lit "tracks")
        (mixed.take 1) = .ok written ∧
      (do (← written.member (lit "tracks")).mapItems fromMessage) =
        .ok ((mixed.take 1).map cut)) ∧
    (Json.string []).assignVector toMessage (lit "tracks") mixed =
      raise (.runtimeError (lit "unknown track type")) := by
  constructor
  · exact (fromMessage_assignVector (mixed.take 1) (.string [])
      (lit "tracks")).1 (by decide)
  · exact (fromMessage_assignVector mixed (.string [])
      (lit "tracks")).2 (by decide)

end Track

/-! ## Metadata -/

namespace MetaData

structure NulFree (metaData : MetaData) : Prop where
  title : 0 ∉ metaData.title
  images : ∀ image ∈ metaData.images, 0 ∉ image.url

/-- The message has an empty array of images in its metadata. -/
def HasNoImages (message : Json) : Prop :=
  ∃ part, message.find? (lit "metadata") = some part ∧
    part.find? (lit "images") = some (.array [])

theorem imagesPart_eq_iff (message : Json) :
    imagesPart message = .array [] ↔ HasNoImages message := by
  unfold imagesPart HasNoImages
  cases message.find? (lit "metadata") with
  | none => simp
  | some part => cases hfind : part.find? (lit "images") <;> simp [hfind]

theorem mapItems_eq_nil_iff (part : Json) :
    part.mapItems Image.fromMessage = .ok [] ↔ part = .array [] := by
  cases part with
  | array items =>
      rw [Json.mapItems_array]
      cases items with
      | nil => exact ⟨fun _ => rfl, fun _ => rfl⟩
      | cons first rest =>
          rw [List.mapM_cons]
          cases Image.fromMessage first <;>
            cases rest.mapM Image.fromMessage <;>
              simp [bind, Except.bind, pure, Except.pure]
  | _ => simp [Json.mapItems, Json.size, Json.violation, bind, Except.bind]

/-- One image is enough to leave an object in place of the array. -/
theorem mapItems_writeImages_iff (images : List Image) (part : Json) :
    (writeImages images part).mapItems Image.fromMessage = .ok images ↔
      images = [] ∧ part = .array [] := by
  cases images with
  | nil =>
      rw [← mapItems_eq_nil_iff]
      exact (and_iff_right rfl).symm
  | cons image rest =>
      have hobject : ∀ items,
          part.set (lit "url") (.ofString image.url) ≠ .array items := by
        intro items hitems
        have hset := Json.isObject_set part (lit "url") (.ofString image.url)
        rw [hitems] at hset
        exact hset
      have hread : (writeImages (image :: rest) part).mapItems
          Image.fromMessage = Json.violation :=
        mapItems_of_ne_array (writeImages_ne_array rest hobject)
      rw [hread]
      simp [Json.violation]

/-- Metadata is read back exactly if it has no images and is written over an
empty array of them. -/
theorem fromMessage_toMessage_iff {metaData : MetaData}
    (hnul : metaData.NulFree) (message : Json) :
    fromMessage (metaData.toMessage message) = .ok metaData ↔
      metaData.images = [] ∧ HasNoImages message := by
  rw [fromMessage_toMessage_eq, ← imagesPart_eq_iff,
    ← mapItems_writeImages_iff, cStr_of_not_mem hnul.title]
  cases (writeImages metaData.images (imagesPart message)).mapItems
      Image.fromMessage with
  | error fault => simp [Except.map]
  | ok images =>
      rw [Except.map, Except.ok.injEq, Except.ok.injEq]
      constructor
      · intro heq
        rw [← heq]
      · intro heq
        rw [heq]

def poster : MetaData where
  title := lit "video"
  images := [{ url := lit "poster.png" }]

theorem poster_nulFree : poster.NulFree where
  title := by decide
  images := by decide

theorem fromMessage_toMessage_poster :
    fromMessage (poster.toMessage (.string [])) = .ok poster ↔
      poster.images = [] ∧ HasNoImages (.string []) :=
  fromMessage_toMessage_iff poster_nulFree (.string [])

/-- Not even metadata without images is read back from a new message. -/
theorem not_fromMessage_toMessage :
    ¬∀ (metaData : MetaData) (message : Json), metaData.NulFree →
      fromMessage (metaData.toMessage message) = .ok metaData := by
  intro hread
  have hdefault : NulFree {} := by
    constructor <;> decide
  have hviolated := fromMessage_toMessage {} (Json.find?_string
    (lit "metadata") [])
  rw [hread {} (.string []) hdefault] at hviolated
  cases hviolated

end MetaData

end Media

end LibChromecast
