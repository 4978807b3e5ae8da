import LibChromecast.MediaChannel

/-!
# Messages on the wire and at `OnResponse`

`RequestChannel::OnMessage` reads a message through the accessor that creates
what it does not find, so a message without `type` or `reason` arrives at
`OnResponse` with an empty one.  What it is decoded to depends on little of
that.
-/

namespace LibChromecast

open Foundation Foundation.Transition

namespace Json

/-! ## What is on the wire -/

def HasType (document : Json) (type : StdString) : Prop :=
  ∃ text, document.member (lit "type") = .ok (.string text) ∧
    cStr text = type

def HasStatus (document : Json) : Prop :=
  document.hasMember (lit "status") = .ok true

instance (document : Json) : Decidable document.HasStatus :=
  inferInstanceAs
    (Decidable (document.hasMember (lit "status") = .ok true))

/-- A reason that is not empty when it is read. -/
def HasReason (document : Json) : Prop :=
  ∃ text, document.member (lit "reason") = .ok (.string text) ∧
    cStr text ≠ []

end Json

/-- The members of a message on the wire and at `OnResponse`. -/
structure Opened (members touched : List (StdString × Json))
    (requestId : UInt64) : Prop where
  requestId : Json.lookup (lit "requestId") members = some (.uint requestId)
  others : ∀ name, name ≠ lit "type" → name ≠ lit "reason" →
    Json.lookup name touched = Json.lookup name members
  type : Json.lookup (lit "type") touched =
    some ((Json.lookup (lit "type") members).getD (.string []))
  reason : Json.lookup (lit "reason") touched =
    some ((Json.lookup (lit "reason") members).getD (.string []))
  typeText : ∃ text,
    Json.lookup (lit "type") touched = some (.string text) ∧
      cStr text ≠ lit "INVALID_REQUEST"
  reasonText : ∃ text,
    Json.lookup (lit "reason") touched = some (.string text)

inductive IncomingCase (document : Json) : Outcome (Option Response) → Prop
  | violated : IncomingCase document (.error .violated)
  | invalidRequest (exception : Exception)
      (htype : document.HasType (lit "INVALID_REQUEST")) :
      IncomingCase document (.error (.raised exception))
  | response (members touched : List (StdString × Json))
      (requestId : UInt64) (hdocument : document = .object members)
      (hopened : Opened members touched requestId) :
      IncomingCase document (.ok (some ⟨requestId, .object touched⟩))

theorem getUint64_cases (value : Json) :
    value.getUint64 = .error .violated ∨ ∃ id, value = .uint id := by
  cases value with
  | uint id => exact Or.inr ⟨id, rfl⟩
  | _ => exact Or.inl rfl

theorem getString_cases (value : Json) :
    value.getString = .error .violated ∨ ∃ text, value = .string text := by
  cases value with
  | string text => exact Or.inr ⟨text, rfl⟩
  | _ => exact Or.inl rfl

theorem readHeader_object (members : List (StdString × Json)) :
    readHeader (.object members) = .error .violated ∨
      ∃ id text touched,
        Json.lookup (lit "requestId") members = some (.uint id) ∧
        (Json.object members).touch (lit "type") = .object touched ∧
        Json.lookup (lit "type") touched = some (.string text) ∧
        readHeader (.object members) =
          .ok (id, cStr text, .object touched) := by
  cases hid : Json.lookup (lit "requestId") members with
  | none =>
      obtain ⟨first, hfirst, -, hself⟩ :=
        Json.touch_object (lit "requestId") members
      have hbad : ((Json.object first).get (lit "requestId")).getUint64 =
          .error .violated := by
        rw [Json.get, hself, hid]
        rfl
      apply Or.inl
      unfold readHeader
      rw [hfirst]
      simp only [hbad]
      rfl
  | some value =>
      have hsame : (Json.object members).touch (lit "requestId") =
          .object members := Json.touch_of_isSome (by rw [hid]; rfl)
      have hget : (Json.object members).get (lit "requestId") = value := by
        rw [Json.get, hid]
        rfl
      rcases getUint64_cases value with hbad | ⟨id, rfl⟩
      · apply Or.inl
        unfold readHeader
        simp only [hsame, hget, hbad]
        rfl
      · obtain ⟨touched, htouched, -, htype⟩ :=
          Json.touch_object (lit "type") members
        have hread : (Json.object touched).get (lit "type") =
            (Json.lookup (lit "type") members).getD (.string []) := by
          rw [Json.get, htype]
          rfl
        have hheader : readHeader (.object members) = (do
            let text ← ((Json.object touched).get (lit "type")).getString
            pure (id, text, .object touched)) := by
          unfold readHeader
          simp only [hsame, hget, htouched]
          rfl
        rw [hheader, hread]
        rcases getString_cases
          ((Json.lookup (lit "type") members).getD (.string [])) with
          hbad | ⟨text, htext⟩
        · exact Or.inl (by rw [hbad]; rfl)
        · rw [htext] at htype ⊢
          exact Or.inr ⟨id, text, touched, rfl, htouched, htype, rfl⟩

theorem lookup_of_getD {name text : StdString}
    {members : List (StdString × Json)}
    (h : (Json.lookup name members).getD (.string []) = .string text)
    (htext : cStr text ≠ []) :
    Json.lookup name members = some (.string text) := by
  cases hlookup : Json.lookup name members with
  | none =>
      rw [hlookup, Option.getD_none, Json.string.injEq] at h
      rw [← h] at htext
      exact absurd rfl htext
  | some value =>
      rw [hlookup, Option.getD_some] at h
      rw [h]

theorem incoming_cases (rapid : RapidJson) (payload : StdString) :
    IncomingCase (rapid.parseMessage payload) (incoming rapid payload) := by
  unfold incoming
  cases hdocument : rapid.parseMessage payload with
  | object members =>
      rcases readHeader_object members with
        hbad | ⟨id, text, touched, hid, htouched, htype, hheader⟩
      · rw [hbad]
        exact .violated
      obtain ⟨other, hother, hsame, hself⟩ :=
        Json.touch_object (lit "type") members
      rw [htouched] at hother
      cases hother
      obtain ⟨last, hlast, hothers, hreason⟩ :=
        Json.touch_object (lit "reason") touched
      have hreasonType : lit "reason" ≠ lit "type" := by decide
      rw [hsame _ hreasonType] at hreason
      have hget : (Json.object last).get (lit "reason") =
          (Json.lookup (lit "reason") members).getD (.string []) := by
        rw [Json.get, hreason]
        rfl
      rw [hheader]
      simp only [hlast, hget]
      rcases getString_cases
        ((Json.lookup (lit "reason") members).getD (.string [])) with
        hbad | ⟨reason, htext⟩
      · rw [hbad]
        exact .violated
      rw [htext]
      have htypeLast : Json.lookup (lit "type") last =
          some (.string text) := by
        rw [hothers _ hreasonType.symm, htype]
      by_cases hinvalid : cStr text = lit "INVALID_REQUEST"
      · have hwire : Json.lookup (lit "type") members =
            some (.string text) := by
          refine lookup_of_getD (Option.some_inj.mp (hself.symm.trans htype))
            ?_
          rw [hinvalid]
          decide
        simp only [hinvalid, throwOnError]
        exact .invalidRequest _
          ⟨text, Json.member_eq_ok_iff.mpr ⟨members, rfl, hwire⟩, hinvalid⟩
      · simp only [hinvalid, throwOnError]
        refine .response members last id rfl ⟨hid, ?_, ?_, hreason, ?_, ?_⟩
        · intro name htypeName hreasonName
          rw [hothers name hreasonName, hsame name htypeName]
        · rw [htypeLast, ← htype, hself]
        · exact ⟨text, htypeLast, hinvalid⟩
        · exact ⟨reason, hreason.trans (congrArg some htext)⟩
  | _ => exact .violated

namespace Json

theorem getString_eq_ok {value : Json} {text : StdString} :
    value.getString = .ok text ↔
      ∃ whole, value = .string whole ∧ cStr whole = text := by
  cases value <;> simp [getString, violation, pure, Except.pure]

theorem hasType_iff {document : Json} {type : StdString} :
    document.HasType type ↔
      ∃ value, document.member (lit "type") = .ok value ∧
        value.getString = .ok type := by
  simp only [getString_eq_ok]
  constructor
  · rintro ⟨text, hmember, htext⟩
    exact ⟨.string text, hmember, text, rfl, htext⟩
  · rintro ⟨value, hmember, text, rfl, htext⟩
    exact ⟨text, hmember, htext⟩

instance (document : Json) (type : StdString) :
    Decidable (document.HasType type) :=
  decidable_of_iff
    ((document.member (lit "type") >>= getString) = .ok type)
    (bind_eq_ok.trans hasType_iff.symm)

theorem getUint64_eq_ok {value : Json} {number : UInt64} :
    value.getUint64 = .ok number ↔ value = .uint number := by
  cases value <;> simp [getUint64, violation, pure, Except.pure]

theorem HasType.unique {document : Json} {first second : StdString}
    (hfirst : document.HasType first) (hsecond : document.HasType second) :
    first = second := by
  obtain ⟨text, hmember, rfl⟩ := hfirst
  obtain ⟨text', hmember', rfl⟩ := hsecond
  rw [hmember, Except.ok.injEq, Json.string.injEq] at hmember'
  rw [hmember']

theorem hasStatus_object {members : List (StdString × Json)} :
    (Json.object members).HasStatus ↔
      (lookup (lit "status") members).isSome := by
  simp [HasStatus, hasMember, pure, Except.pure]

theorem hasReason_object {members : List (StdString × Json)} :
    (Json.object members).HasReason ↔
      ∃ text, lookup (lit "reason") members = some (.string text) ∧
        cStr text ≠ [] := by
  simp [HasReason, member_eq_ok_iff]

end Json

theorem MediaStatus.fromMessage_eq_ok {document : Json}
    {status : MediaStatus} :
    fromMessage document = .ok status ↔
      document.HasType (lit "MEDIA_STATUS") ∧
        ∃ value statuses, document.member (lit "status") = .ok value ∧
          value.mapItems ofJsonStatus = .ok statuses ∧
            status = statuses.headD {} := by
  unfold fromMessage
  simp only [bind_eq_ok, pure_eq_ok, throwOnError_eq_ok, Json.hasType_iff,
    decide_eq_false_iff_not, ne_eq, not_not]
  constructor
  · rintro ⟨type, htype, text, htext, -, rfl, value, hvalue, statuses,
      hstatuses, hstatus⟩
    exact ⟨⟨type, htype, htext⟩, value, statuses, hvalue, hstatuses,
      hstatus.symm⟩
  · rintro ⟨⟨type, htype, htext⟩, value, statuses, hvalue, hstatuses,
      hstatus⟩
    exact ⟨type, htype, _, htext, (), rfl, value, hvalue, statuses,
      hstatuses, hstatus.symm⟩

theorem Json.HasStatus.of_decoded {document : Json} {status : MediaStatus}
    (h : MediaStatus.fromMessage document = .ok status) :
    document.HasStatus := by
  obtain ⟨-, value, -, hvalue, -⟩ := MediaStatus.fromMessage_eq_ok.mp h
  obtain ⟨members, rfl, hlookup⟩ := Json.member_eq_ok_iff.mp hvalue
  rw [Json.hasStatus_object, hlookup]
  rfl

/-! ## At `OnResponse` -/

namespace Opened

variable {members touched : List (StdString × Json)} {requestId : UInt64}

theorem hasType_iff (h : Opened members touched requestId)
    {type : StdString} (htype : type ≠ []) :
    (Json.object touched).HasType type ↔
      (Json.object members).HasType type := by
  unfold Json.HasType
  simp only [Json.member_eq_ok_iff, Json.object.injEq, exists_eq_left']
  constructor
  · rintro ⟨text, hlookup, rfl⟩
    rw [h.type, Option.some_inj] at hlookup
    exact ⟨text, lookup_of_getD hlookup htype, rfl⟩
  · rintro ⟨text, hlookup, rfl⟩
    exact ⟨text, by rw [h.type, hlookup]; rfl, rfl⟩

theorem requestId_unique (h : Opened members touched requestId)
    {id : UInt64} (hid : (Json.object members).member (lit "requestId") =
      .ok (.uint id)) : requestId = id := by
  rw [Json.member_object, h.requestId, Except.ok.injEq,
    Json.uint.injEq] at hid
  exact hid

theorem not_invalid (h : Opened members touched requestId) :
    ¬(Json.object members).HasType (lit "INVALID_REQUEST") := by
  rw [← h.hasType_iff (by decide)]
  rintro ⟨text, hmember, hinvalid⟩
  obtain ⟨other, hother, hvalid⟩ := h.typeText
  simp only [Json.member_eq_ok_iff, Json.object.injEq, exists_eq_left',
    hother, Option.some_inj, Json.string.injEq] at hmember
  rw [hmember] at hvalid
  exact hvalid hinvalid

theorem lookup_status (h : Opened members touched requestId) :
    Json.lookup (lit "status") touched =
      Json.lookup (lit "status") members :=
  h.others _ (by decide) (by decide)

/-- The status is decoded as it is on the wire. -/
theorem fromMessage_eq_ok (h : Opened members touched requestId)
    {status : MediaStatus} :
    MediaStatus.fromMessage (.object touched) = .ok status ↔
      MediaStatus.fromMessage (.object members) = .ok status := by
  rw [MediaStatus.fromMessage_eq_ok, MediaStatus.fromMessage_eq_ok,
    h.hasType_iff (by decide)]
  simp only [Json.member_eq_ok_iff, Json.object.injEq, exists_eq_left',
    h.lookup_status]

theorem mediaStatus_cases (h : Opened members touched requestId) :
    (Channels.mediaStatus (.object touched) = .ok none ∧
        ¬(Json.object members).HasType (lit "MEDIA_STATUS")) ∨
      (∃ status,
        Channels.mediaStatus (.object touched) = .ok (some status) ∧
          MediaStatus.fromMessage (.object members) = .ok status) ∨
      ∃ fault, Channels.mediaStatus (.object touched) = .error fault ∧
        (Json.object members).HasType (lit "MEDIA_STATUS") ∧
          ∀ status, MediaStatus.fromMessage (.object members) ≠
            .ok status := by
  obtain ⟨text, htype, -⟩ := h.typeText
  have hread : Channels.mediaStatus (.object touched) =
      if cStr text = lit "MEDIA_STATUS" then
        some <$> MediaStatus.fromMessage (.object touched)
      else pure none := by
    unfold Channels.mediaStatus
    simp only [Json.unchecked, htype]
    rfl
  have hwire : (Json.object members).HasType (lit "MEDIA_STATUS") ↔
      cStr text = lit "MEDIA_STATUS" := by
    rw [← h.hasType_iff (by decide)]
    simp [Json.HasType, Json.member_eq_ok_iff, htype]
  rw [hread, hwire]
  split_ifs with hmedia
  · apply Or.inr
    cases hstatus : MediaStatus.fromMessage (.object touched) with
    | ok status =>
        exact Or.inl ⟨status, rfl, h.fromMessage_eq_ok.mp hstatus⟩
    | error fault =>
        refine Or.inr ⟨fault, rfl, hmedia, fun status hok => ?_⟩
        rw [h.fromMessage_eq_ok.mpr hok] at hstatus
        contradiction
  · exact Or.inl ⟨rfl, hmedia⟩

theorem mediaResponse_cases (h : Opened members touched requestId) :
    ((Json.object members).HasStatus ∧ ∀ response,
        MediaResponse.fromMessage (.object touched) = .ok response →
          ∃ status,
            MediaStatus.fromMessage (.object members) = .ok status ∧
              response = { status }) ∨
      (¬(Json.object members).HasStatus ∧ ∃ reason,
        MediaResponse.fromMessage (.object touched) = .ok { reason } ∧
          (reason ≠ [] ↔ (Json.object members).HasReason)) := by
  have hhas : (Json.object touched).hasMember (lit "status") =
      .ok (Json.lookup (lit "status") members).isSome := by
    rw [Json.hasMember, h.lookup_status]
    rfl
  rw [Json.hasStatus_object, Json.hasReason_object]
  by_cases hstatus : (Json.lookup (lit "status") members).isSome
  · refine Or.inl ⟨hstatus, fun response hresponse => ?_⟩
    rw [hstatus] at hhas
    unfold MediaResponse.fromMessage at hresponse
    simp only [hhas, bind_eq_ok, Except.ok.injEq, exists_eq_left',
      if_true, pure_eq_ok] at hresponse
    obtain ⟨status, hdecoded, hsame⟩ := hresponse
    exact ⟨status, h.fromMessage_eq_ok.mp hdecoded, hsame.symm⟩
  · refine Or.inr ⟨hstatus, ?_⟩
    obtain ⟨text, htext⟩ := h.reasonText
    have hread : MediaResponse.fromMessage (.object touched) =
        .ok { reason := cStr text } := by
      unfold MediaResponse.fromMessage
      rw [hhas, Bool.eq_false_iff.mpr hstatus, Json.member_object, htext]
      rfl
    refine ⟨cStr text, hread, ?_⟩
    rw [h.reason, Option.some_inj] at htext
    constructor
    · intro hreason
      exact ⟨text, lookup_of_getD htext hreason, hreason⟩
    · rintro ⟨other, hother, hreason⟩
      rw [hother, Option.getD_some, Json.string.injEq] at htext
      rw [← htext]
      exact hreason

end Opened

namespace Channels

variable {rapid : RapidJson}

inductive MessageCase (rapid : RapidJson) (channels : Channels)
    (payload : StdString) (ending : Outcome Unit) :
    ChannelRef → Outcome Bool × Channels → Prop
  | violated (channel : ChannelRef) :
      MessageCase rapid channels payload ending channel
        (.error .violated,
          channels.receive channel (rapid.parseMessage payload))
  | invalidRequest (channel : ChannelRef) (exception : Exception)
      (htype : (rapid.parseMessage payload).HasType
        (lit "INVALID_REQUEST")) :
      MessageCase rapid channels payload ending channel
        (.error (.raised exception),
          channels.receive channel (rapid.parseMessage payload))
  | receiver (index : ℕ) (members touched : List (StdString × Json))
      (requestId : UInt64)
      (hdocument : rapid.parseMessage payload = .object members)
      (hopened : Opened members touched requestId) :
      MessageCase rapid channels payload ending (.receiver index)
        ((channels.receive (.receiver index)
          (rapid.parseMessage payload)).receiverOnResponse rapid
            (.receiver index) ⟨requestId, .object touched⟩ ending)
  | media (index : ℕ) (members touched : List (StdString × Json))
      (requestId : UInt64)
      (hdocument : rapid.parseMessage payload = .object members)
      (hopened : Opened members touched requestId) :
      MessageCase rapid channels payload ending (.media index)
        ((channels.receive (.media index)
          (rapid.parseMessage payload)).mediaOnResponse (.media index)
            ⟨requestId, .object touched⟩ ending)

theorem message_cases (rapid : RapidJson) (channel : ChannelRef)
    (payload : StdString) (ending : Outcome Unit) (channels : Channels) :
    MessageCase rapid channels payload ending channel
      (channels.onMessage rapid channel payload ending) := by
  have hcases := incoming_cases rapid payload
  unfold onMessage
  revert hcases
  generalize incoming rapid payload = outcome
  intro hcases
  cases hcases with
  | violated => exact .violated channel
  | invalidRequest exception htype =>
      exact .invalidRequest channel exception htype
  | response members touched requestId hdocument hopened =>
      cases channel with
      | receiver index =>
          exact .receiver index members touched requestId hdocument hopened
      | media index =>
          exact .media index members touched requestId hdocument hopened

theorem unlessViolated_eq_some {α : Type} {result : Outcome α × Channels}
    {next : Channels} :
    unlessViolated result = some next ↔
      result.1 ≠ .error .violated ∧ result.2 = next := by
  obtain ⟨outcome, channels⟩ := result
  unfold unlessViolated
  split
  next => simp_all
  next hvalid => simp_all

/-! ## The callback of an entry -/

structure Invoked (channels next : Channels) : Prop where
  requests : next.requests = channels.requests
  received : next.received = channels.received
  sessions : next.sessions = channels.sessions

theorem invoked_handResponse (message : Json) (hasCallback : Bool)
    (ending : Outcome Unit) {use : MediaResponse → Channels → Channels}
    (huse : ∀ result current, Invoked current (use result current))
    (channels : Channels) :
    Invoked channels
      (channels.handResponse message hasCallback ending use).2 := by
  unfold handResponse
  cases MediaResponse.fromMessage message with
  | error fault => exact ⟨rfl, rfl, rfl⟩
  | ok result =>
      have hmore := huse result (channels.hand result)
      exact ⟨hmore.requests, hmore.received, hmore.sessions⟩

theorem invoked_invoke (channel : ChannelRef) (message : Json)
    (ending : Outcome Unit) (channels : Channels)
    (callback : ResponseCallback) :
    Invoked channels
      (channels.invoke channel message ending callback).2 := by
  have hsame : ∀ (_ : MediaResponse) (current : Channels),
      Invoked current current := fun _ _ => ⟨rfl, rfl, rfl⟩
  cases callback with
  | load hasCallback =>
      unfold invoke
      apply invoked_handResponse
      intro result current
      split_ifs <;> exact ⟨rfl, rfl, rfl⟩
  | session hasCallback => exact invoked_handResponse _ _ _ hsame _
  | status hasCallback =>
      cases hasCallback with
      | false => exact ⟨rfl, rfl, rfl⟩
      | true => exact invoked_handResponse _ _ _ hsame _
  | receiver => exact ⟨rfl, rfl, rfl⟩

end Channels

end LibChromecast
