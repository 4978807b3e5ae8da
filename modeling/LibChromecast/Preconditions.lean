import LibChromecast.HeartbeatChannel
import LibChromecast.MediaChannel
import LibChromecast.MessageSchemas
import LibChromecast.ReceiverChannel

/-!
# Payloads and accessor preconditions

The accessors of RapidJSON check nothing, and `operator[]` of a `JsonMessage`
creates what it does not find, so what `OnMessage` does with a payload hangs
on the kinds of the values in it.
-/

namespace LibChromecast

open Foundation Json

namespace Json

/-! ## Members that are created -/

theorem find?_touch_self (name : StdString) (document : Json) :
    (document.touch name).find? name =
      some ((document.find? name).getD (.string [])) := by
  cases document with
  | object members =>
      obtain ⟨touched, htouch, -, hself⟩ := touch_object name members
      rw [htouch]
      exact hself
  | _ => simp [touch, find?, lookup]

theorem find?_touch_of_ne {name other : StdString} (hne : other ≠ name)
    (document : Json) :
    (document.touch name).find? other = document.find? other := by
  cases document with
  | object members =>
      obtain ⟨touched, htouch, hothers, -⟩ := touch_object name members
      rw [htouch]
      exact hothers other hne
  | _ => simp [touch, find?, lookup, hne.symm]

theorem isObject_touch (name : StdString) (document : Json) :
    (document.touch name).IsObject := by
  obtain ⟨members, htouch, -⟩ := exists_touch name document
  rw [htouch]
  exact trivial

theorem get_eq_find? (name : StdString) (document : Json) :
    document.get name = (document.find? name).getD .null := by
  cases document <;> rfl

theorem get_touch (name : StdString) (document : Json) :
    (document.touch name).get name =
      (document.find? name).getD (.string []) := by
  rw [get_eq_find?, find?_touch_self]
  rfl

theorem find?_of_getUint64 {name : StdString} {document : Json}
    {number : UInt64} (h : (document.get name).getUint64 = .ok number) :
    document.find? name = some (.uint number) := by
  rw [get_eq_find?] at h
  cases hfind : document.find? name with
  | none =>
      rw [hfind] at h
      cases h
  | some value =>
      rw [hfind] at h
      cases value with
      | uint other => cases h; rfl
      | _ => cases h

theorem find?_of_getString {name text : StdString} {document : Json}
    (h : (document.get name).getString = .ok text) :
    ∃ whole, document.find? name = some (.string whole) := by
  rw [get_eq_find?] at h
  cases hfind : document.find? name with
  | none =>
      rw [hfind] at h
      cases h
  | some value =>
      rw [hfind] at h
      cases value with
      | string whole => exact ⟨whole, rfl⟩
      | _ => cases h

/-- The text of a member; a missing one is created empty. -/
def memberText (name : StdString) (document : Json) : StdString :=
  match document.find? name with
  | some (.string text) => cStr text
  | _ => []

/-- A member that is missing or a string. -/
def MissingOrText (name : StdString) (document : Json) : Prop :=
  Check.optional name Check.string document = .accepts

instance (name : StdString) (document : Json) :
    Decidable (document.MissingOrText name) :=
  inferInstanceAs (Decidable (_ = _))

theorem getString_getD {found : Option Json} {name : StdString}
    {document : Json} (hfound : document.find? name = found) :
    (found.getD (.string [])).getString =
      if document.MissingOrText name then .ok (document.memberText name)
      else violation := by
  unfold memberText MissingOrText Check.optional
  simp only [hfound]
  cases found with
  | none => rfl
  | some value => cases value <;> rfl

theorem text_of_missingOrText {name : StdString} {document : Json}
    (h : document.MissingOrText name) :
    ∃ text, some ((document.find? name).getD (.string [])) =
      some (Json.string text) := by
  unfold MissingOrText Check.optional at h
  cases hfind : document.find? name with
  | none => exact ⟨[], rfl⟩
  | some value =>
      simp only [hfind] at h
      cases value with
      | string text => exact ⟨text, rfl⟩
      | _ => cases h

theorem getString_get_touch {name : StdString} {document other : Json}
    (hsame : other.find? name = document.find? name) :
    ((other.touch name).get name).getString =
      if document.MissingOrText name then .ok (document.memberText name)
      else violation := by
  rw [get_touch, hsame]
  exact getString_getD rfl

end Json

/-! ## The header -/

/-- The document as it arrives at `OnResponse`. -/
def opened (document : Json) : Json :=
  ((document.touch (lit "requestId")).touch (lit "type")).touch (lit "reason")

/-- The members which every message of a request channel is asked for are
read. -/
structure HeaderReads (document : Json) (requestId : UInt64) : Prop where
  requestId : document.find? (lit "requestId") = some (.uint requestId)
  type : document.MissingOrText (lit "type")
  reason : document.MissingOrText (lit "reason")

section Header

variable {rapid : RapidJson} {payload : StdString} {requestId : UInt64}

theorem getString_header_type (document : Json) :
    (((document.touch (lit "requestId")).touch (lit "type")).get
        (lit "type")).getString =
      if document.MissingOrText (lit "type") then
        .ok (document.memberText (lit "type"))
      else violation :=
  getString_get_touch (find?_touch_of_ne (by decide) document)

theorem getString_header_reason (document : Json) :
    ((opened document).get (lit "reason")).getString =
      if document.MissingOrText (lit "reason") then
        .ok (document.memberText (lit "reason"))
      else violation := by
  have hsame : ((document.touch (lit "requestId")).touch
      (lit "type")).find? (lit "reason") =
        document.find? (lit "reason") :=
    (find?_touch_of_ne (by decide) _).trans
      (find?_touch_of_ne (by decide) document)
  exact getString_get_touch hsame

theorem incoming_of_headerReads
    (h : HeaderReads (rapid.parseMessage payload) requestId) :
    incoming rapid payload =
      if (rapid.parseMessage payload).memberText (lit "type") =
          lit "INVALID_REQUEST" then
        raise (.runtimeError (lit "invalid request, " ++
          (rapid.parseMessage payload).memberText (lit "reason")))
      else .ok (some ⟨requestId, opened (rapid.parseMessage payload)⟩) := by
  obtain ⟨hid, htype, hreason⟩ := h
  unfold incoming readHeader
  generalize rapid.parseMessage payload = document at *
  have htext := getString_header_type document
  have hwhy := getString_header_reason document
  unfold opened at hwhy
  rw [if_pos htype] at htext
  rw [if_pos hreason] at hwhy
  dsimp only
  rw [get_touch (lit "requestId"), hid, htext]
  simp only [Option.getD_some, getUint64, bind, Except.bind, pure,
    Except.pure, hwhy]
  by_cases hinvalid : document.memberText (lit "type") =
      lit "INVALID_REQUEST"
  · simp only [hinvalid, throwOnError]
    rfl
  · simp only [hinvalid, throwOnError]
    rfl

theorem incoming_of_not_headerReads
    (h : ∀ requestId, ¬HeaderReads (rapid.parseMessage payload) requestId) :
    incoming rapid payload = .error .violated := by
  unfold incoming readHeader
  generalize rapid.parseMessage payload = document at *
  have htext := getString_header_type document
  have hwhy := getString_header_reason document
  unfold opened at hwhy
  dsimp only
  rw [get_touch (lit "requestId"), htext]
  cases hid : document.find? (lit "requestId") with
  | none => rfl
  | some value =>
      cases value with
      | uint requestId =>
          by_cases htype : document.MissingOrText (lit "type")
          · have hreason : ¬document.MissingOrText (lit "reason") :=
              fun hreason => h requestId ⟨hid, htype, hreason⟩
            rw [if_neg hreason] at hwhy
            rw [if_pos htype]
            simp only [Option.getD_some, getUint64, bind, Except.bind, pure,
              Except.pure, hwhy]
            rfl
          · rw [if_neg htype]
            rfl
      | _ => rfl

end Header

/-! ## Checks at `OnResponse` -/

namespace Json

theorem find?_opened_type (document : Json) :
    (opened document).find? (lit "type") =
      some ((document.find? (lit "type")).getD (.string [])) := by
  unfold opened
  rw [find?_touch_of_ne (by decide), find?_touch_self,
    find?_touch_of_ne (by decide)]

theorem find?_opened_of_ne {document : Json} {name : StdString}
    (hid : name ≠ lit "requestId") (htype : name ≠ lit "type")
    (hreason : name ≠ lit "reason") :
    (opened document).find? name = document.find? name := by
  unfold opened
  rw [find?_touch_of_ne hreason, find?_touch_of_ne htype,
    find?_touch_of_ne hid]

theorem exists_opened_type {document : Json}
    (htype : document.MissingOrText (lit "type")) :
    ∃ type, (opened document).find? (lit "type") = some (.string type) := by
  rw [find?_opened_type]
  exact text_of_missingOrText htype

theorem exists_opened_reason {document : Json}
    (hreason : document.MissingOrText (lit "reason")) :
    ∃ reason,
      (opened document).find? (lit "reason") = some (.string reason) := by
  unfold opened
  rw [find?_touch_self, find?_touch_of_ne (by decide),
    find?_touch_of_ne (by decide)]
  exact text_of_missingOrText hreason

theorem isObject_of_find? {document value : Json} {name : StdString}
    (hfind : document.find? name = some value) : document.IsObject := by
  cases document with
  | object members => exact trivial
  | _ => cases hfind

/-- A type that has to be one of some texts is checked alike, whether a
missing one was created or not. -/
theorem check_opened {document : Json} (hobject : document.IsObject)
    {accept : StdString → Bool} (hempty : accept [] = false)
    {status : Check} :
    Check.object [Check.required (lit "type") (Check.text accept),
        Check.required (lit "status") status] (opened document) =
      Check.object [Check.required (lit "type") (Check.text accept),
        Check.required (lit "status") status] document := by
  have hopened : (opened document).IsObject := isObject_touch _ _
  rw [object_of_isObject hobject, object_of_isObject hopened]
  simp only [Check.fields, Check.required, find?_opened_type,
    find?_opened_of_ne (show lit "status" ≠ lit "requestId" by decide)
      (by decide) (by decide)]
  cases document.find? (lit "type") with
  | none =>
      have hrejects : Check.text accept (.string []) = .rejects := by
        simp [Check.text, cStr, hempty]
      simp [hrejects]
  | some value => rfl

/-- What the lambda of `GetAppAvailabillity` asks of an answer. -/
def Check.availability (appIds : List StdString) : Check := fun value =>
  match value.find? (lit "availability") with
  | none => .breaks
  | some availability =>
      each (fun appId =>
        object [required (cStr appId) string] availability) appIds

theorem follows_readAvailability (appIds : List StdString) :
    Follows (ReceiverChannel.readAvailability appIds)
      (Check.availability appIds) := by
  intro value
  unfold ReceiverChannel.readAvailability Check.availability
  have hunchecked : value.unchecked (lit "availability") =
      match value.find? (lit "availability") with
      | none => violation
      | some found => .ok found := by
    cases value with
    | object members =>
        simp only [unchecked, find?]
        cases lookup (lit "availability") members <;> rfl
    | _ => rfl
  rw [hunchecked]
  cases value.find? (lit "availability") with
  | none => rfl
  | some availability =>
      refine of_mapM (fun appId => ?_) appIds
      by_cases hobject : availability.IsObject
      · rw [object_of_isObject hobject]
        refine of_required hobject fun found => ?_
        exact of_read follows_getString fun text => rfl
      · rw [object_of_not_object hobject]
        exact of_member_of_not_object hobject _

end Json

/-! ## Messages -/

/-- How the user's code ends, and how a send does. -/
def thrown (ending : Except Exception Unit) : Outcome Unit :=
  ending.mapError .raised

theorem thrown_ne_violated (ending : Except Exception Unit) :
    thrown ending ≠ .error .violated := by
  cases ending <;> simp [thrown, Except.mapError]

/-- `requestId` and `type` can be read. -/
def Usable (document : Json) : Prop :=
  (∃ requestId, document.find? (lit "requestId") = some (.uint requestId)) ∧
    ∃ text, document.find? (lit "type") = some (.string text)

/-- A message is handled, or not, or something is raised; without a usable
header it is not handled. -/
def WellBehaved (document : Json) (outcome : Outcome Bool) : Prop :=
  outcome ≠ .error .violated ∧ (¬Usable document → outcome = .ok false)

/-- The header is read, and what is read of the message after it; a type is
missing only where nothing is done with the message. -/
def Reads (check : UInt64 → Check) (Unawaited : UInt64 → Prop)
    (document : Json) : Prop :=
  ∃ requestId, HeaderReads document requestId ∧
    (document.memberText (lit "type") = lit "INVALID_REQUEST" ∨
      check requestId document ≠ .breaks) ∧
    (document.find? (lit "type") = none → Unawaited requestId)

section Messages

variable {document : Json} {outcome : Outcome Bool}
  {check : UInt64 → Check} {Unawaited : UInt64 → Prop}

theorem HeaderReads.unique {first second : UInt64}
    (hfirst : HeaderReads document first)
    (hsecond : HeaderReads document second) : first = second := by
  have hsame := hfirst.requestId.symm.trans hsecond.requestId
  rwa [Option.some.injEq, Json.uint.injEq] at hsame

theorem HeaderReads.usable_iff {requestId : UInt64}
    (h : HeaderReads document requestId) :
    Usable document ↔ document.find? (lit "type") ≠ none := by
  constructor
  · rintro ⟨-, text, htext⟩ hnone
    rw [hnone] at htext
    cases htext
  · intro hthere
    obtain ⟨value, hvalue⟩ := Option.ne_none_iff_exists'.mp hthere
    have htype := h.type
    unfold MissingOrText Check.optional at htype
    simp only [hvalue] at htype
    cases value with
    | string text => exact ⟨⟨requestId, h.requestId⟩, text, hvalue⟩
    | _ => cases htype

/-- A message without a type is not one of an invalid request. -/
theorem valid_of_missing {document : Json}
    (hnone : document.find? (lit "type") = none) :
    document.memberText (lit "type") ≠ lit "INVALID_REQUEST" := by
  rw [memberText, hnone]
  decide

/-- The four ways a message takes. -/
theorem wellBehaved_iff
    (hunread : (∀ requestId, ¬HeaderReads document requestId) →
      outcome = .error .violated)
    (hinvalid : ∀ requestId, HeaderReads document requestId →
      document.memberText (lit "type") = lit "INVALID_REQUEST" →
        outcome ≠ .error .violated)
    (hchecked : ∀ requestId, HeaderReads document requestId →
      document.memberText (lit "type") ≠ lit "INVALID_REQUEST" →
        (outcome = .error .violated ↔ check requestId document = .breaks))
    (huntyped : ∀ requestId, HeaderReads document requestId →
      document.find? (lit "type") = none →
        (outcome = .ok false ↔ Unawaited requestId)) :
    WellBehaved document outcome ↔ Reads check Unawaited document := by
  by_cases hheader : ∃ requestId, HeaderReads document requestId
  · obtain ⟨requestId, hreads⟩ := hheader
    have hverdict : outcome ≠ .error .violated ↔
        (document.memberText (lit "type") = lit "INVALID_REQUEST" ∨
          check requestId document ≠ .breaks) := by
      by_cases htype :
          document.memberText (lit "type") = lit "INVALID_REQUEST"
      · simp [htype, hinvalid requestId hreads htype]
      · simp [htype, hchecked requestId hreads htype]
    have hunhandled : (¬Usable document → outcome = .ok false) ↔
        (document.find? (lit "type") = none → Unawaited requestId) := by
      rw [hreads.usable_iff, not_not]
      exact forall_congr' fun hnone => huntyped requestId hreads hnone
    unfold WellBehaved
    rw [hverdict, hunhandled]
    constructor
    · intro h
      exact ⟨requestId, hreads, h⟩
    · rintro ⟨other, hother, h⟩
      rw [hreads.unique hother]
      exact h
  · push Not at hheader
    constructor
    · intro h
      exact absurd (hunread hheader) h.1
    · rintro ⟨requestId, hreads, -⟩
      exact absurd hreads (hheader requestId)

theorem violated_iff_of_read {α β : Type} {read : Outcome α}
    {outcome : Outcome β} {verdict : Verdict}
    (hread : Verdict.of read = verdict)
    (herror : ∀ fault, read = .error fault → outcome = .error fault)
    (hok : ∀ value, read = .ok value → outcome ≠ .error .violated) :
    outcome = .error .violated ↔ verdict = .breaks := by
  rw [← hread, Verdict.of_eq_breaks]
  constructor
  · intro houtcome
    cases hresult : read with
    | ok value => exact absurd houtcome (hok value hresult)
    | error fault =>
        rw [herror fault hresult, Except.error.injEq] at houtcome
        rw [houtcome]
  · exact herror _

theorem map_eq_violated {α β : Type} {outcome : Outcome α} {f : α → β} :
    outcome.map f = .error .violated ↔ outcome = .error .violated := by
  cases outcome <;> simp [Except.map]

theorem map_true_ne_false (outcome : Outcome Unit) :
    outcome.map (fun _ => true) ≠ .ok false := by
  cases outcome <;> simp [Except.map]

theorem handed_ne_violated (hasCallback : Bool)
    (ending : Except Exception Unit) :
    (if hasCallback then thrown ending else pure ()) ≠ .error .violated := by
  cases hasCallback with
  | true => exact thrown_ne_violated ending
  | false => simp [pure, Except.pure]

end Messages

/-! ## Receiver channels -/

namespace ReceiverChannel

variable {α : Type} (rapid : RapidJson) (getId : α → StdString)
  (ending : Except Exception Unit) (channel : ReceiverChannel α)

/-- What the callback of an entry asks of the answer. -/
def callbackCheck : ReceiverCallback α → Check
  | .availability appIds _ => Check.availability appIds
  | .launch => fun _ => .accepts
  | .status _ | .join _ _ | .volume _ => Check.receiverStatus

/-- What `OnResponse` asks of a message. -/
def responseCheck (requestId : UInt64) : Check :=
  if requestId = 0 then Check.receiverStatus
  else
    match RequestMap.find? requestId
        (channel.requests.requestIdToRequest ()) with
    | none => fun _ => .accepts
    | some (_, request) => callbackCheck request.callback

/-- The id of no broadcast and of no pending request. -/
def Unawaited (requestId : UInt64) : Prop :=
  requestId ≠ 0 ∧
    RequestMap.find? requestId (channel.requests.requestIdToRequest ()) =
      none

theorem onJoinStatus_ne_violated (call : ℕ) (application : Option α)
    (status : ReceiverStatus) :
    (channel.onJoinStatus getId (thrown ending) call application status).1 ≠
      .error .violated := by
  unfold onJoinStatus
  dsimp only
  split
  next => exact thrown_ne_violated ending
  next =>
    split_ifs
    · exact thrown_ne_violated ending
    · split <;> exact thrown_ne_violated ending

theorem onReceiverStatus_ne_violated (status : ReceiverStatus) :
    (channel.onReceiverStatus getId (thrown ending) status).1 ≠
      .error .violated := by
  unfold onReceiverStatus
  dsimp only
  split
  next => simp
  next =>
    split_ifs
    · simp
    · split
      next => simp
      next => exact thrown_ne_violated ending

theorem invoke_violated_iff (message : Json)
    (callback : ReceiverCallback α) :
    (channel.invoke rapid getId (thrown ending) message callback).1 =
        .error .violated ↔ callbackCheck callback message = .breaks := by
  cases callback with
  | availability appIds hasCallback =>
      apply violated_iff_of_read (follows_readAvailability appIds message)
      · intro fault hfault
        simp only [invoke, hfault]
      · intro value hvalue
        simp only [invoke, hvalue]
        exact handed_ne_violated hasCallback ending
  | status hasCallback | volume hasCallback =>
      apply violated_iff_of_read (ReceiverStatus.follows rapid message)
      · intro fault hfault
        simp only [invoke, hfault]
      · intro status hstatus
        simp only [invoke, hstatus]
        exact handed_ne_violated hasCallback ending
  | launch => simp [invoke, callbackCheck]
  | join call application =>
      apply violated_iff_of_read (ReceiverStatus.follows rapid message)
      · intro fault hfault
        simp only [invoke, hfault]
      · intro status hstatus
        simp only [invoke, hstatus]
        exact onJoinStatus_ne_violated _ _ _ _ _ _

theorem onResponse_violated_iff (requestId : UInt64) (message : Json) :
    (channel.onResponse rapid getId (thrown ending)
        ⟨requestId, message⟩).1 = .error .violated ↔
      channel.responseCheck requestId message = .breaks := by
  unfold onResponse responseCheck
  by_cases hzero : requestId = 0
  · simp only [hzero, ne_eq, not_true_eq_false, if_false, if_true]
    apply violated_iff_of_read (ReceiverStatus.follows rapid message)
    · intro fault hfault
      simp only [hfault]
    · intro status hstatus
      simp only [hstatus, ne_eq, map_eq_violated]
      exact onReceiverStatus_ne_violated _ _ _ _
  · simp only [hzero, ne_eq, not_false_eq_true, if_true, if_false]
    cases RequestMap.find? requestId
        (channel.requests.requestIdToRequest ()) with
    | none => simp
    | some entry =>
        simp only [map_eq_violated]
        exact invoke_violated_iff _ _ _ _ _ _

theorem onResponse_unhandled_iff (requestId : UInt64) (message : Json) :
    (channel.onResponse rapid getId (thrown ending)
        ⟨requestId, message⟩).1 = .ok false ↔
      channel.Unawaited requestId := by
  unfold onResponse Unawaited
  by_cases hzero : requestId = 0
  · simp only [hzero, ne_eq, not_true_eq_false, if_false, false_and,
      iff_false]
    cases hstatus : ReceiverStatus.fromMessage rapid message with
    | ok status => exact map_true_ne_false _
    | error fault => simp
  · simp only [hzero, ne_eq, not_false_eq_true, if_true, true_and]
    cases RequestMap.find? requestId
        (channel.requests.requestIdToRequest ()) with
    | none => simp
    | some entry => simpa using map_true_ne_false _

/-- The check reads the same of a message on the wire and at
`OnResponse`. -/
theorem responseCheck_opened {document : Json} (hobject : document.IsObject)
    (requestId : UInt64) :
    channel.responseCheck requestId (opened document) =
      channel.responseCheck requestId document := by
  have hstatus : Check.receiverStatus (opened document) =
      Check.receiverStatus document := check_opened hobject rfl
  have havailability : ∀ appIds,
      Check.availability appIds (opened document) =
        Check.availability appIds document := by
    intro appIds
    unfold Check.availability
    rw [find?_opened_of_ne (by decide) (by decide) (by decide)]
  unfold responseCheck
  split_ifs
  · exact hstatus
  · cases RequestMap.find? requestId
        (channel.requests.requestIdToRequest ()) with
    | none => rfl
    | some entry =>
        cases hcallback : entry.2.callback <;> simp only [hcallback]
        · exact havailability _
        · exact hstatus
        · rfl
        · exact hstatus
        · exact hstatus

theorem wellBehaved_onMessage_iff (payload : StdString) :
    WellBehaved (rapid.parseMessage payload)
        (channel.onMessage rapid getId (thrown ending) payload).1 ↔
      Reads channel.responseCheck channel.Unawaited
        (rapid.parseMessage payload) := by
  apply wellBehaved_iff
  · intro hunread
    unfold onMessage
    rw [incoming_of_not_headerReads hunread]
  · intro requestId hreads hinvalid
    unfold onMessage
    rw [incoming_of_headerReads hreads, if_pos hinvalid]
    simp [raise]
  · intro requestId hreads hvalid
    unfold onMessage
    rw [incoming_of_headerReads hreads, if_neg hvalid,
      ← responseCheck_opened channel (isObject_of_find? hreads.requestId)]
    exact onResponse_violated_iff _ _ _ _ _ _
  · intro requestId hreads hnone
    unfold onMessage
    rw [incoming_of_headerReads hreads, if_neg (valid_of_missing hnone)]
    exact onResponse_unhandled_iff _ _ _ _ _ _

end ReceiverChannel

/-! ## Media channels -/

theorem handResponse_violated {message : Json}
    (hmessage : MediaResponse.fromMessage message ≠ .error .violated)
    (hasCallback : Bool) (ending : Except Exception Unit)
    (use : MediaResponse → Channels → Channels) (channels : Channels) :
    (channels.handResponse message hasCallback (thrown ending) use).1 ≠
      .error .violated := by
  unfold Channels.handResponse
  cases hresponse : MediaResponse.fromMessage message with
  | error fault =>
      rw [hresponse] at hmessage
      simpa using hmessage
  | ok result => exact handed_ne_violated hasCallback ending

namespace Channels

variable (ending : Except Exception Unit) (channels : Channels)

def Unawaited (channel : ChannelRef) (requestId : UInt64) : Prop :=
  requestId ≠ 0 ∧
    RequestMap.find? requestId
      (channels.requests.requestIdToRequest channel) = none

theorem invoke_ne_violated {message : Json}
    (hmessage : MediaResponse.fromMessage message ≠ .error .violated)
    (channel : ChannelRef) (callback : ResponseCallback) :
    (channels.invoke channel message (thrown ending) callback).1 ≠
      .error .violated := by
  cases callback with
  | load hasCallback => exact handResponse_violated hmessage _ _ _ _
  | session hasCallback => exact handResponse_violated hmessage _ _ _ _
  | status hasCallback =>
      cases hasCallback with
      | true =>
          simp only [invoke, if_true]
          exact handResponse_violated hmessage _ _ _ _
      | false => simp [invoke, pure, Except.pure]
  | receiver => exact thrown_ne_violated ending

theorem onResponse_decoded_ne_violated {message : Json}
    (hmessage : MediaResponse.fromMessage message ≠ .error .violated)
    (channel : ChannelRef) (requestId : UInt64) :
    (channels.onResponse channel ⟨requestId, message⟩ (thrown ending)).1 ≠
      .error .violated := by
  unfold onResponse
  dsimp only
  split
  next => simp
  next =>
    rw [ne_eq, map_eq_violated]
    exact invoke_ne_violated _ _ hmessage _ _

/-- A message whose type and reason are strings. -/
theorem mediaResponse_ne_violated {message : Json} {reason : StdString}
    (hreason : message.find? (lit "reason") = some (.string reason))
    (hstatus : Check.mediaStatus message ≠ .breaks) :
    MediaResponse.fromMessage message ≠ .error .violated := by
  have hdecoded : MediaStatus.fromMessage message ≠ .error .violated := by
    rw [ne_eq, ← Verdict.of_eq_breaks, MediaStatus.follows]
    exact hstatus
  unfold MediaResponse.fromMessage
  rw [hasMember_of_isObject (isObject_of_find? hreason),
    member_of_find? hreason]
  by_cases hmember : (message.find? (lit "status")).isSome = true
  · rw [hmember]
    cases hread : MediaStatus.fromMessage message with
    | ok status => simp [bind, Except.bind, pure, Except.pure]
    | error fault =>
        rw [hread] at hdecoded
        simpa [bind, Except.bind] using hdecoded
  · rw [Bool.eq_false_iff.mpr hmember]
    simp [bind, Except.bind, getString, pure, Except.pure]

theorem mediaStatus_eq {message : Json} {type : StdString}
    (htype : message.find? (lit "type") = some (.string type)) :
    mediaStatus message =
      if cStr type = lit "MEDIA_STATUS" then
        some <$> MediaStatus.fromMessage message
      else pure none := by
  cases message with
  | object members =>
      have hlookup : Json.lookup (lit "type") members =
          some (.string type) := htype
      simp only [mediaStatus, Json.unchecked, hlookup]
      rfl
  | _ => cases htype

theorem mediaStatus_violated_iff {message : Json} {type : StdString}
    (htype : message.find? (lit "type") = some (.string type)) :
    mediaStatus message = .error .violated ↔
      Check.mediaStatus message = .breaks := by
  rw [← Verdict.of_eq_breaks, mediaStatus_eq htype]
  split_ifs with hmedia
  · rw [MediaStatus.follows.map some message]
  · have hrejects : Check.mediaStatus message = .rejects := by
      unfold Check.mediaStatus
      rw [object_of_isObject (isObject_of_find? htype)]
      simp [Check.fields, Check.required, htype, Check.text, hmedia]
    simp [hrejects, Verdict.of, pure, Except.pure]

theorem mediaOnResponse_violated_iff {message : Json}
    {type reason : StdString}
    (htype : message.find? (lit "type") = some (.string type))
    (hreason : message.find? (lit "reason") = some (.string reason))
    (channel : ChannelRef) (requestId : UInt64) :
    (channels.mediaOnResponse channel ⟨requestId, message⟩
        (thrown ending)).1 = .error .violated ↔
      Check.mediaStatus message = .breaks := by
  rw [← mediaStatus_violated_iff htype]
  unfold mediaOnResponse
  cases hdecoded : mediaStatus message with
  | error fault => simp
  | ok status? =>
      have hstatus : Check.mediaStatus message ≠ .breaks := by
        rw [ne_eq, ← mediaStatus_violated_iff htype, hdecoded]
        simp
      by_cases hzero : requestId = 0
      · simp [hzero]
      · simp only [hzero, if_false, reduceCtorEq, iff_false]
        apply onResponse_decoded_ne_violated
        exact mediaResponse_ne_violated hreason hstatus

theorem mediaOnResponse_unhandled_iff {message : Json}
    (htype : message.find? (lit "type") = some (.string []))
    (channel : ChannelRef) (requestId : UInt64) :
    (channels.mediaOnResponse channel ⟨requestId, message⟩
        (thrown ending)).1 = .ok false ↔
      channels.Unawaited channel requestId := by
  have hnone : mediaStatus message = .ok none := by
    rw [mediaStatus_eq htype, if_neg (by decide)]
    rfl
  unfold mediaOnResponse Unawaited
  rw [hnone]
  by_cases hzero : requestId = 0
  · simp [hzero]
  · simp only [hzero, if_false, ne_eq, not_false_eq_true, true_and]
    unfold onResponse
    dsimp only
    cases RequestMap.find? requestId
        (channels.requests.requestIdToRequest channel) with
    | none => simp
    | some entry => simpa using map_true_ne_false _

/-- What `OnResponse` of a media channel asks of a message does not depend on
what is pending. -/
def mediaCheck (_requestId : UInt64) : Check := Check.mediaStatus

theorem wellBehaved_onMessage_iff (rapid : RapidJson) (index : ℕ)
    (payload : StdString) :
    WellBehaved (rapid.parseMessage payload)
        (channels.onMessage rapid (.media index) payload
          (thrown ending)).1 ↔
      Reads mediaCheck (channels.Unawaited (.media index))
        (rapid.parseMessage payload) := by
  apply wellBehaved_iff
  · intro hunread
    unfold onMessage
    rw [incoming_of_not_headerReads hunread]
  · intro requestId hreads hinvalid
    unfold onMessage
    rw [incoming_of_headerReads hreads, if_pos hinvalid]
    simp [raise]
  · intro requestId hreads hvalid
    obtain ⟨type, htype⟩ := exists_opened_type hreads.type
    obtain ⟨reason, hreason⟩ := exists_opened_reason hreads.reason
    have hsame : Check.mediaStatus (opened (rapid.parseMessage payload)) =
        Check.mediaStatus (rapid.parseMessage payload) :=
      check_opened (isObject_of_find? hreads.requestId) rfl
    unfold onMessage mediaCheck
    rw [incoming_of_headerReads hreads, if_neg hvalid, ← hsame]
    exact mediaOnResponse_violated_iff _ _ htype hreason _ _
  · intro requestId hreads hnone
    have htype : (opened (rapid.parseMessage payload)).find? (lit "type") =
        some (.string []) := by
      rw [find?_opened_type, hnone]
      rfl
    unfold onMessage
    rw [incoming_of_headerReads hreads, if_neg (valid_of_missing hnone)]
    exact mediaOnResponse_unhandled_iff _ _ htype _ _

end Channels

/-! ## Heartbeats -/

theorem HeartbeatChannel.onMessage_violated_iff (rapid : RapidJson)
    (ending : Except Exception Unit) (channel : HeartbeatChannel)
    (payload : StdString) :
    (channel.onMessage rapid payload (thrown ending)).1 ≠ .error .violated ↔
      (rapid.parseMessage payload).MissingOrText (lit "type") := by
  unfold HeartbeatChannel.onMessage
  dsimp only
  rw [getString_get_touch rfl]
  by_cases htype : (rapid.parseMessage payload).MissingOrText (lit "type")
  · simp only [htype, if_true, iff_true]
    split_ifs
    · simp
    · simp
    · cases ending <;> simp [thrown, Except.mapError, send]
  · simp [htype, violation]

/-- No accessor of the library is called outside its precondition, and no
message is handled whose header cannot be read, exactly where the payload has
members of the kinds that are read before anything is raised. -/
theorem onMessage_wellBehaved_iff {α : Type} (rapid : RapidJson)
    (getId : α → StdString) (ending : Except Exception Unit)
    (payload : StdString) :
    (∀ channel : ReceiverChannel α,
      WellBehaved (rapid.parseMessage payload)
          (channel.onMessage rapid getId (thrown ending) payload).1 ↔
        Reads channel.responseCheck channel.Unawaited
          (rapid.parseMessage payload)) ∧
      (∀ (channels : Channels) (index : ℕ),
        WellBehaved (rapid.parseMessage payload)
            (channels.onMessage rapid (.media index) payload
              (thrown ending)).1 ↔
          Reads Channels.mediaCheck (channels.Unawaited (.media index))
            (rapid.parseMessage payload)) ∧
      ∀ channel : HeartbeatChannel,
        (channel.onMessage rapid payload (thrown ending)).1 ≠
            .error .violated ↔
          (rapid.parseMessage payload).MissingOrText (lit "type") :=
  ⟨fun channel => channel.wellBehaved_onMessage_iff rapid getId ending
      payload,
    fun channels index => channels.wellBehaved_onMessage_iff ending rapid
      index payload,
    fun channel => channel.onMessage_violated_iff rapid ending payload⟩

/-- A request id which is no number, a text which is no JSON, and a type
which is no string. -/
theorem not_onMessage_wellBehaved :
    ¬WellBehaved (textJson.parseMessage (lit "\x7b\"requestId\":\"x\"\x7d"))
        ((ReceiverChannel.construct ⟨false, false, ⟨0⟩, false⟩ :
          ReceiverChannel Unit).onMessage textJson (fun _ => []) (.ok ())
            (lit "\x7b\"requestId\":\"x\"\x7d")).1 ∧
      ¬WellBehaved (textJson.parseMessage (lit "hello"))
        (({} : Channels).onMessage textJson (.media 0) (lit "hello")
          (.ok ())).1 ∧
      (({} : HeartbeatChannel).onMessage textJson
        (lit "\x7b\"type\":1\x7d") (.ok ())).1 = .error .violated := by
  refine ⟨fun h => h.1 (Verdict.of_eq_breaks.mp ?_),
    fun h => h.1 (Verdict.of_eq_breaks.mp ?_),
    Verdict.of_eq_breaks.mp ?_⟩
  · decide +kernel
  · decide +kernel
  · decide +kernel

end LibChromecast
