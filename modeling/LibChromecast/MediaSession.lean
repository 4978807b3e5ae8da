import LibChromecast.Answers
import LibChromecast.JsonText

/-!
# The tracked media session

`_last_status` is written for every status that decodes, and once more by the
lambda of `Load` for what it takes for a success.  The second write repeats
the first one when the answer has a status; for a failure without a reason it
forgets the status.
-/

namespace LibChromecast

open Foundation Foundation.Transition

namespace Channels

/-! ## What was reported last -/

def decoded (document : Json) : Option MediaStatus :=
  (MediaStatus.fromMessage document).toOption

def lastReported (received : List Json) : MediaStatus :=
  (received.filterMap decoded).getLast?.getD {}

theorem decoded_eq_some {document : Json} {status : MediaStatus} :
    decoded document = some status ↔
      MediaStatus.fromMessage document = .ok status := by
  unfold decoded
  cases MediaStatus.fromMessage document <;> simp [Except.toOption]

theorem decoded_eq_none {document : Json} :
    decoded document = none ↔
      ∀ status, MediaStatus.fromMessage document ≠ .ok status := by
  rw [Option.eq_none_iff_forall_ne_some]
  simp only [ne_eq, decoded_eq_some]

theorem decoded_of_not_hasType {document : Json}
    (htype : ¬document.HasType (lit "MEDIA_STATUS")) :
    decoded document = none := by
  rw [decoded_eq_none]
  intro status hstatus
  exact htype (MediaStatus.fromMessage_eq_ok.mp hstatus).1

theorem lastReported_append (received : List Json) (document : Json) :
    lastReported (received ++ [document]) =
      (decoded document).getD (lastReported received) := by
  unfold lastReported
  rw [List.filterMap_append]
  cases hdocument : decoded document with
  | none => simp [hdocument]
  | some status => simp [hdocument]

/-- The channel tracks the last status reported to it, and each session
request named the session of the last status reported by then. -/
structure Tracked (channels : Channels) : Prop where
  lastStatus : ∀ index, channels.lastStatus (.media index) =
    lastReported (channels.received (.media index))
  sessions : ∀ session ∈ channels.sessions,
    session.document.get (lit "mediaSessionId") =
      .ofUint32 (lastReported session.received).sessionId

variable {rapid : RapidJson}

/-! ## Operations -/

structure Operated (channel : ℕ) (channels next : Channels) : Prop where
  lastStatus : next.lastStatus = channels.lastStatus
  received : next.received = channels.received
  sessions : ∀ session ∈ next.sessions, session ∈ channels.sessions ∨
    (session.received = channels.received (.media channel) ∧
      session.document.get (lit "mediaSessionId") =
        .ofUint32 (channels.lastStatus (.media channel)).sessionId)

theorem operated_request (rapid : RapidJson) (channel : ℕ)
    (sending : Outcome Unit) (message : Json) (callback : ResponseCallback)
    (channels : Channels) :
    Operated channel channels
      (channels.request rapid channel sending message callback).2 :=
  ⟨rfl, rfl, fun _ hsession => Or.inl hsession⟩

theorem operated_sessionRequest (rapid : RapidJson) (channel : ℕ)
    (hasCallback : Bool) (sending : Outcome Unit) (message : Json)
    (channels : Channels) :
    Operated channel channels
      (channels.sessionRequest rapid channel hasCallback sending
        message).2 := by
  refine ⟨rfl, rfl, fun session hsession => ?_⟩
  rcases List.mem_append.mp hsession with hold | hnew
  · exact Or.inl hold
  · rw [List.mem_singleton.mp hnew]
    refine Or.inr ⟨rfl, ?_⟩
    have hne : lit "mediaSessionId" ≠ lit "requestId" := by decide
    rw [Json.get_set_of_ne hne, Json.get_set_self]

/-- The document of a session request is the one its frame carries. -/
theorem sessionRequest_trace (rapid : RapidJson) (channel : ℕ)
    (hasCallback : Bool) (message : Json) (channels : Channels) :
    ∃ session, (channels.sessionRequest rapid channel hasCallback (.ok ())
        message).2.sessions = channels.sessions ++ [session] ∧
      session.channel = channel ∧
      (channels.sessionRequest rapid channel hasCallback (.ok ())
        message).2.requests.trace = channels.requests.trace ++
          [.frame (.media channel) channels.requests.requested.length
            session.document] :=
  ⟨_, rfl, rfl, rfl⟩

theorem operated_operate (rapid : RapidJson) (channel : ℕ)
    (hasCallback : Bool) (sending : Outcome Unit) (channels : Channels)
    (operation : Operation) :
    Operated channel channels
      (channels.operate rapid channel hasCallback sending operation).2 := by
  cases operation with
  | load media autoplay unset =>
      rw [operate]
      unfold load
      cases media.toMessage unset (typed "LOAD") with
      | error fault => exact ⟨rfl, rfl, fun _ h => Or.inl h⟩
      | ok message => exact operated_request _ _ _ _ _ _
  | getStatus => exact operated_request _ _ _ _ _ _
  | _ => exact operated_sessionRequest _ _ _ _ _ _

theorem Tracked.operated {channel : ℕ} {channels next : Channels}
    (h : channels.Tracked) (hoperated : Operated channel channels next) :
    next.Tracked where
  lastStatus index := by
    rw [hoperated.lastStatus, hoperated.received]
    exact h.lastStatus index
  sessions session hsession := by
    rcases hoperated.sessions session hsession with
      hold | ⟨hreceived, hdocument⟩
    · exact h.sessions session hold
    · rw [hdocument, hreceived, h.lastStatus]

/-! ## Answers -/

/-- The lambda of a pending `Load` takes the message for a success with this
status. -/
def LoadSucceeds (channels : Channels) (channel : ChannelRef)
    (response : Response) (status : MediaStatus) : Prop :=
  ∃ key request hasCallback result,
    RequestMap.find? response.requestId
        (channels.requests.requestIdToRequest channel) =
      some (key, request) ∧
    request.callback = .load hasCallback ∧
    MediaResponse.fromMessage response.message = .ok result ∧
    result.succeeded = true ∧ result.status = status

theorem onResponse_lastStatus (channel : ChannelRef) (response : Response)
    (ending : Outcome Unit) (channels : Channels) :
    (∃ status, LoadSucceeds channels channel response status ∧
        (channels.onResponse channel response ending).2.lastStatus =
          Function.update channels.lastStatus channel status) ∨
      ((∀ status, ¬LoadSucceeds channels channel response status) ∧
        (channels.onResponse channel response ending).2.lastStatus =
          channels.lastStatus) := by
  unfold onResponse LoadSucceeds
  dsimp only
  cases hfind : RequestMap.find? response.requestId
      (channels.requests.requestIdToRequest channel) with
  | none => exact Or.inr ⟨by simp, rfl⟩
  | some entry =>
      obtain ⟨key, request⟩ := entry
      dsimp only
      cases hcallback : request.callback with
      | load hasCallback =>
          unfold invoke handResponse
          cases hresult : MediaResponse.fromMessage response.message with
          | error fault => exact Or.inr ⟨by simp, rfl⟩
          | ok result =>
              by_cases hsucceeded : result.succeeded = true
              · refine Or.inl ⟨result.status,
                  ⟨key, request, hasCallback, result, rfl, hcallback, rfl,
                    hsucceeded, rfl⟩, ?_⟩
                simp only [hsucceeded, if_true]
                rfl
              · refine Or.inr ⟨?_, ?_⟩
                · rintro status ⟨_, _, _, other, -, -, hother, hyes, -⟩
                  cases hother
                  exact hsucceeded hyes
                · simp only [hsucceeded]
                  rfl
      | session hasCallback =>
          refine Or.inr ⟨by simp_all, ?_⟩
          unfold invoke handResponse
          cases MediaResponse.fromMessage response.message <;> rfl
      | status hasCallback =>
          refine Or.inr ⟨by simp_all, ?_⟩
          unfold invoke handResponse
          cases hasCallback with
          | false => rfl
          | true => cases MediaResponse.fromMessage response.message <;> rfl
      | receiver => exact Or.inr ⟨by simp_all, rfl⟩

/-! ## Messages -/

structure Histories (channels next : Channels) : Prop where
  received : next.received = channels.received
  sessions : next.sessions = channels.sessions

theorem histories_onResponse (channel : ChannelRef) (response : Response)
    (ending : Outcome Unit) (channels : Channels) :
    Histories channels
      (channels.onResponse channel response ending).2 := by
  unfold onResponse
  dsimp only
  cases RequestMap.find? response.requestId
      (channels.requests.requestIdToRequest channel) with
  | none => exact ⟨rfl, rfl⟩
  | some entry =>
      have hafter := invoked_invoke channel response.message ending
        { channels with
          requests := (channels.requests.onResponse channel
            response.requestId).2 } entry.2.callback
      exact ⟨hafter.received, hafter.sessions⟩

theorem histories_mediaOnResponse (channel : ChannelRef)
    (response : Response) (ending : Outcome Unit) (channels : Channels) :
    Histories channels
      (channels.mediaOnResponse channel response ending).2 := by
  unfold mediaOnResponse
  cases mediaStatus response.message with
  | error fault => exact ⟨rfl, rfl⟩
  | ok status? =>
      cases status? with
      | none =>
          dsimp only
          split_ifs
          · exact ⟨rfl, rfl⟩
          · exact histories_onResponse _ _ _ _
      | some status =>
          dsimp only
          split_ifs
          · exact ⟨rfl, rfl⟩
          · have hafter := histories_onResponse channel response ending
              (channels.setLastStatus channel status)
            exact ⟨hafter.received, hafter.sessions⟩

theorem histories_receiverOnResponse (channel : ChannelRef)
    (response : Response) (ending : Outcome Unit) (channels : Channels) :
    Histories channels
      (channels.receiverOnResponse rapid channel response ending).2 := by
  unfold receiverOnResponse
  split_ifs
  · exact histories_onResponse _ _ _ _
  · cases ReceiverStatus.fromMessage rapid response.message <;>
      exact ⟨rfl, rfl⟩

/-- The payload answers a pending LOAD with a failure that gives no
reason. -/
structure Resets (rapid : RapidJson) (channels : Channels) (index : ℕ)
    (payload : StdString) : Prop where
  pending : ∃ id key request hasCallback,
    (rapid.parseMessage payload).member (lit "requestId") =
      .ok (.uint id) ∧ id ≠ 0 ∧
    RequestMap.find? id
        (channels.requests.requestIdToRequest (.media index)) =
      some (key, request) ∧
    request.callback = .load hasCallback
  valid : ¬(rapid.parseMessage payload).HasType (lit "INVALID_REQUEST")
  noReport : ¬(rapid.parseMessage payload).HasType (lit "MEDIA_STATUS")
  noStatus : ¬(rapid.parseMessage payload).HasStatus
  noReason : ¬(rapid.parseMessage payload).HasReason

/-- What the lambda of a pending `Load` makes of an answer: the status that
the channel has just remembered, or none at all. -/
theorem loadSucceeds_cases (channels : Channels) {current : Channels}
    {index : ℕ} {payload : StdString}
    {members touched : List (StdString × Json)} {requestId : UInt64}
    (hdocument : rapid.parseMessage payload = .object members)
    (hopened : Opened members touched requestId) (hid : requestId ≠ 0)
    (hrequests : current.requests = channels.requests)
    (hreport : (Json.object members).HasType (lit "MEDIA_STATUS") →
      (decoded (.object members)).isSome)
    {status : MediaStatus}
    (hload : LoadSucceeds current (.media index)
      ⟨requestId, .object touched⟩ status) :
    decoded (.object members) = some status ∨
      (Resets rapid channels index payload ∧ status = {}) := by
  obtain ⟨key, request, hasCallback, result, hfind, hcallback, hresult,
    hsucceeded, rfl⟩ := hload
  rw [hrequests] at hfind
  rcases hopened.mediaResponse_cases with
    ⟨-, hdecoded⟩ | ⟨hstatus, reason, hreason, hwire⟩
  · obtain ⟨status, hok, rfl⟩ := hdecoded result hresult
    exact Or.inl (decoded_eq_some.mpr hok)
  · rw [hreason, Except.ok.injEq] at hresult
    subst hresult
    have hempty : reason = [] := List.isEmpty_iff.mp hsucceeded
    refine Or.inr ⟨⟨?_, ?_, ?_, ?_, ?_⟩, rfl⟩
    · refine ⟨requestId, key, request, hasCallback, ?_, hid, hfind,
        hcallback⟩
      rw [hdocument]
      exact Json.member_eq_ok_iff.mpr ⟨members, rfl, hopened.requestId⟩
    · rw [hdocument]
      exact hopened.not_invalid
    · rw [hdocument]
      intro htype
      obtain ⟨status, hsome⟩ := Option.isSome_iff_exists.mp (hreport htype)
      exact hstatus (.of_decoded (decoded_eq_some.mp hsome))
    · rw [hdocument]
      exact hstatus
    · rw [hdocument, ← hwire]
      exact fun hne => hne hempty

theorem Resets.decoded_eq_none {channels : Channels} {index : ℕ}
    {payload : StdString} (h : Resets rapid channels index payload) :
    decoded (rapid.parseMessage payload) = none :=
  decoded_of_not_hasType h.noReport

theorem Resets.requestId_eq {channels : Channels} {index : ℕ}
    {payload : StdString} (h : Resets rapid channels index payload)
    {members touched : List (StdString × Json)} {requestId : UInt64}
    (hdocument : rapid.parseMessage payload = .object members)
    (hopened : Opened members touched requestId) :
    ∃ key request hasCallback, requestId ≠ 0 ∧
      RequestMap.find? requestId
          (channels.requests.requestIdToRequest (.media index)) =
        some (key, request) ∧
      request.callback = .load hasCallback := by
  obtain ⟨id, key, request, hasCallback, hmember, hid, hfind, hcallback⟩ :=
    h.pending
  rw [hdocument] at hmember
  have hsame := hopened.requestId_unique hmember
  subst hsame
  exact ⟨key, request, hasCallback, hid, hfind, hcallback⟩

theorem Resets.loadSucceeds {channels current : Channels} {index : ℕ}
    {payload : StdString} (h : Resets rapid channels index payload)
    {members touched : List (StdString × Json)} {requestId : UInt64}
    (hdocument : rapid.parseMessage payload = .object members)
    (hopened : Opened members touched requestId)
    (hrequests : current.requests = channels.requests) :
    LoadSucceeds current (.media index) ⟨requestId, .object touched⟩
      {} := by
  obtain ⟨key, request, hasCallback, -, hfind, hcallback⟩ :=
    h.requestId_eq hdocument hopened
  have hnoStatus := h.noStatus
  have hnoReason := h.noReason
  rw [hdocument] at hnoStatus hnoReason
  rcases hopened.mediaResponse_cases with
    ⟨hstatus, -⟩ | ⟨-, reason, hreason, hwire⟩
  · exact absurd hstatus hnoStatus
  · have hempty : reason = [] := by
      by_contra hne
      exact hnoReason (hwire.mp hne)
    subst hempty
    rw [← hrequests] at hfind
    exact ⟨key, request, hasCallback, _, hfind, hcallback, hreason, rfl,
      rfl⟩

theorem answered_lastStatus (channels current : Channels)
    {index : ℕ} {payload : StdString}
    {members touched : List (StdString × Json)} {requestId : UInt64}
    (ending : Outcome Unit)
    (hdocument : rapid.parseMessage payload = .object members)
    (hopened : Opened members touched requestId) (hid : requestId ≠ 0)
    (hrequests : current.requests = channels.requests)
    (hreport : (Json.object members).HasType (lit "MEDIA_STATUS") →
      (decoded (.object members)).isSome)
    (hcurrent : (decoded (.object members)).getD
      (current.lastStatus (.media index)) =
        current.lastStatus (.media index)) :
    (Resets rapid channels index payload ∧
      (current.onResponse (.media index) ⟨requestId, .object touched⟩
        ending).2.lastStatus =
          Function.update current.lastStatus (.media index) {}) ∨
      (¬Resets rapid channels index payload ∧
        (current.onResponse (.media index) ⟨requestId, .object touched⟩
          ending).2.lastStatus = current.lastStatus) := by
  rcases onResponse_lastStatus (.media index) ⟨requestId, .object touched⟩
    ending current with ⟨status, hload, hlast⟩ | ⟨hno, hlast⟩
  · rcases loadSucceeds_cases channels hdocument hopened hid hrequests
      hreport hload with hsome | ⟨hresets, rfl⟩
    · -- the second write repeats the first one
      rw [hsome, Option.getD_some] at hcurrent
      rw [hcurrent, Function.update_eq_self] at hlast
      refine Or.inr ⟨fun hresets => ?_, hlast⟩
      have hnone := hresets.decoded_eq_none
      rw [hdocument, hsome] at hnone
      exact absurd hnone (Option.some_ne_none status)
    · exact Or.inl ⟨hresets, hlast⟩
  · exact Or.inr ⟨fun hresets =>
      hno {} (hresets.loadSucceeds hdocument hopened hrequests), hlast⟩

/-- What `OnMessage` makes of `_last_status`. -/
def StatusAfter (rapid : RapidJson) (channels next : Channels) (index : ℕ)
    (payload : StdString) : Prop :=
  (Resets rapid channels index payload ∧ next.lastStatus =
      Function.update channels.lastStatus (.media index) {}) ∨
    (¬Resets rapid channels index payload ∧ next.lastStatus =
      Function.update channels.lastStatus (.media index)
        ((decoded (rapid.parseMessage payload)).getD
          (channels.lastStatus (.media index))))

theorem mediaOnResponse_lastStatus (channels : Channels) {index : ℕ}
    {payload : StdString} (ending : Outcome Unit)
    {members touched : List (StdString × Json)} {requestId : UInt64}
    (hdocument : rapid.parseMessage payload = .object members)
    (hopened : Opened members touched requestId) :
    StatusAfter rapid channels
      ((channels.receive (.media index)
        (rapid.parseMessage payload)).mediaOnResponse (.media index)
          ⟨requestId, .object touched⟩ ending).2 index payload := by
  have hnotResets : (Json.object members).HasType (lit "MEDIA_STATUS") →
      ¬Resets rapid channels index payload := by
    intro htype hresets
    rw [← hdocument] at htype
    exact hresets.noReport htype
  unfold StatusAfter mediaOnResponse
  rw [hdocument]
  rcases hopened.mediaStatus_cases with
    ⟨hread, hother⟩ | ⟨status, hread, hok⟩ | ⟨fault, hread, htype, hbad⟩
  · -- the message is no MEDIA_STATUS
    have hnone := decoded_of_not_hasType hother
    rw [hread, hnone, Option.getD_none, Function.update_eq_self]
    dsimp only
    split_ifs with hid
    · refine Or.inr ⟨fun hresets => ?_, rfl⟩
      obtain ⟨-, -, -, hne, -⟩ := hresets.requestId_eq hdocument hopened
      exact hne hid
    · exact answered_lastStatus channels _ ending hdocument hopened hid rfl
        (fun htype => absurd htype hother) (by rw [hnone]; rfl)
  · -- it is one, and it decodes
    have hsome := decoded_eq_some.mpr hok
    have htype := (MediaStatus.fromMessage_eq_ok.mp hok).1
    refine Or.inr ⟨hnotResets htype, ?_⟩
    rw [hread, hsome, Option.getD_some]
    dsimp only
    split_ifs with hid
    · rfl
    · rcases answered_lastStatus channels
        ((channels.receive (.media index)
          (.object members)).setLastStatus (.media index) status)
        ending hdocument hopened hid rfl (fun _ => by rw [hsome]; rfl)
        (by rw [hsome, setLastStatus_lastStatus, Function.update_self,
          Option.getD_some]) with ⟨hresets, -⟩ | ⟨-, hlast⟩
      · exact absurd hresets (hnotResets htype)
      · exact hlast
  · -- it is one, and decoding it raises
    rw [hread, decoded_eq_none.mpr hbad, Option.getD_none,
      Function.update_eq_self]
    exact Or.inr ⟨hnotResets htype, rfl⟩

theorem media_lastStatus {channels : Channels} {index : ℕ}
    {payload : StdString} {ending : Outcome Unit}
    (hended : (channels.onMessage rapid (.media index) payload ending).1 ≠
      .error .violated) :
    StatusAfter rapid channels
      (channels.onMessage rapid (.media index) payload ending).2 index
        payload := by
  have hcases := message_cases rapid (.media index) payload ending channels
  generalize channels.onMessage rapid (.media index) payload ending = result
    at hcases hended
  cases hcases with
  | violated => exact absurd rfl hended
  | invalidRequest _ exception htype =>
      have hnone : decoded (rapid.parseMessage payload) = none := by
        apply decoded_of_not_hasType
        intro hmedia
        exact absurd (htype.unique hmedia) (by decide)
      refine Or.inr ⟨fun hresets => hresets.valid htype, ?_⟩
      rw [hnone, Option.getD_none, Function.update_eq_self]
      rfl
  | media index members touched requestId hdocument hopened =>
      exact mediaOnResponse_lastStatus channels ending hdocument hopened

theorem histories_onMessage (rapid : RapidJson) (channel : ChannelRef)
    (payload : StdString) (ending : Outcome Unit) (channels : Channels) :
    Histories (channels.receive channel (rapid.parseMessage payload))
      (channels.onMessage rapid channel payload ending).2 := by
  have hcases := message_cases rapid channel payload ending channels
  generalize channels.onMessage rapid channel payload ending = result
    at hcases
  cases hcases with
  | violated => exact ⟨rfl, rfl⟩
  | invalidRequest => exact ⟨rfl, rfl⟩
  | receiver => exact histories_receiverOnResponse _ _ _ _
  | media => exact histories_mediaOnResponse _ _ _ _

theorem receiver_lastStatus (index : ℕ) (payload : StdString)
    (ending : Outcome Unit) (channels : Channels) (other : ℕ) :
    (channels.onMessage rapid (.receiver index) payload
        ending).2.lastStatus (.media other) =
      channels.lastStatus (.media other) := by
  have hcases := message_cases rapid (.receiver index) payload ending
    channels
  generalize channels.onMessage rapid (.receiver index) payload ending =
    result at hcases
  cases hcases with
  | violated => rfl
  | invalidRequest => rfl
  | receiver _ members touched requestId =>
      unfold receiverOnResponse
      split_ifs
      · rcases onResponse_lastStatus (.receiver index)
          ⟨requestId, .object touched⟩ ending
          (channels.receive (.receiver index)
            (rapid.parseMessage payload)) with
          ⟨status, -, hlast⟩ | ⟨-, hlast⟩
        · rw [hlast, Function.update_of_ne (by simp)]
          rfl
        · rw [hlast]
          rfl
      · cases ReceiverStatus.fromMessage rapid (.object touched) <;> rfl

/-! ## Runs -/

/-- An answer that resets the status finds it at its initial value. -/
def KeepsStatus (rapid : RapidJson) (channels : Channels) : Event → Prop
  | .message (.media index) payload _ =>
      Resets rapid channels index payload →
        channels.lastStatus (.media index) = {}
  | _ => True

theorem Tracked.of_same {channels next : Channels} (h : channels.Tracked)
    (hlast : next.lastStatus = channels.lastStatus)
    (hreceived : next.received = channels.received)
    (hsessions : next.sessions = channels.sessions) : next.Tracked where
  lastStatus index := by
    rw [hlast, hreceived]
    exact h.lastStatus index
  sessions := by
    rw [hsessions]
    exact h.sessions

theorem Tracked.update_iff {channels next : Channels}
    (h : channels.Tracked) {index : ℕ} {document : Json}
    {status : MediaStatus}
    (hhistories :
      Histories (channels.receive (.media index) document) next)
    (hlast : next.lastStatus =
      Function.update channels.lastStatus (.media index) status) :
    next.Tracked ↔ status =
      (decoded document).getD (channels.lastStatus (.media index)) := by
  have hself : lastReported (next.received (.media index)) =
      (decoded document).getD (channels.lastStatus (.media index)) := by
    rw [hhistories.received, receive_received, Function.update_self,
      lastReported_append, h.lastStatus index]
  constructor
  · intro hnext
    rw [← hself, ← hnext.lastStatus index, hlast, Function.update_self]
  · intro hstatus
    refine ⟨fun other => ?_, ?_⟩
    · by_cases hother : other = index
      · subst hother
        rw [hself, hlast, Function.update_self, hstatus]
      · have hne : ChannelRef.media other ≠ .media index := by
          simpa using hother
        rw [hhistories.received, receive_received, hlast,
          Function.update_of_ne hne, Function.update_of_ne hne]
        exact h.lastStatus other
    · rw [hhistories.sessions]
      exact h.sessions

theorem tracked_step_iff {channels next : Channels} {event : Event}
    (h : channels.Tracked)
    (hstep : channels.step rapid event = some next) :
    next.Tracked ↔ KeepsStatus rapid channels event := by
  cases event with
  | operation channel operation hasCallback sending =>
      obtain ⟨-, rfl⟩ := unlessViolated_eq_some.mp hstep
      exact iff_of_true
        (h.operated (operated_operate rapid channel hasCallback sending
          channels operation)) trivial
  | receiverRequest channel message sending =>
      cases hstep
      exact iff_of_true (h.of_same rfl rfl rfl) trivial
  | expire timer =>
      obtain ⟨requests, -, rfl⟩ := Option.map_eq_some_iff.mp hstep
      exact iff_of_true (h.of_same rfl rfl rfl) trivial
  | fire timer sending =>
      obtain ⟨requests, -, rfl⟩ := Option.map_eq_some_iff.mp hstep
      exact iff_of_true (h.of_same rfl rfl rfl) trivial
  | message channel payload ending =>
      obtain ⟨hended, rfl⟩ := unlessViolated_eq_some.mp hstep
      have hhistories :=
        histories_onMessage rapid channel payload ending channels
      cases channel with
      | receiver index =>
          refine iff_of_true ⟨fun other => ?_, ?_⟩ trivial
          · have hne : ChannelRef.media other ≠ .receiver index := by simp
            rw [receiver_lastStatus, hhistories.received, receive_received,
              Function.update_of_ne hne]
            exact h.lastStatus other
          · rw [hhistories.sessions]
            exact h.sessions
      | media index =>
          unfold KeepsStatus
          rcases media_lastStatus hended with
            ⟨hresets, hlast⟩ | ⟨hkeeps, hlast⟩
          · rw [h.update_iff hhistories hlast, hresets.decoded_eq_none,
              Option.getD_none]
            exact ⟨fun hsame _ => hsame.symm, fun hsame => (hsame hresets).symm⟩
          · rw [h.update_iff hhistories hlast]
            exact iff_of_true rfl fun hresets => absurd hresets hkeeps

theorem tracked_empty : Tracked {} where
  lastStatus _ := rfl
  sessions := by
    intro session hsession
    contradiction

/-- The last reported session is tracked at every moment of a run if and only
if no answer resets it. -/
theorem tracked_throughout_iff {events : List Event} :
    Throughout (Channels.step rapid) Tracked {} events ↔
      Along (Channels.step rapid)
        (fun channels event => (channels.step rapid event).isSome →
          KeepsStatus rapid channels event) {} events :=
  throughout_iff_along (fun _ => True) (fun _ _ _ _ _ _ _ => trivial)
    (fun _ _ _ _ htracked hstep => tracked_step_iff htracked hstep)
    tracked_empty trivial

def firstMedia : Media := { streamType := some .buffered }

/-- A LOAD is answered with the status of session 7, the next one is
cancelled, and then the session is paused. -/
def cancelledRun : List Event :=
  [.operation 0 (.load firstMedia true .live) true (.ok ()),
    .message (.media 0)
      (lit "\x7b\"requestId\":1,\"type\":\"MEDIA_STATUS\"," ++
      lit "\"status\":[\x7b\"mediaSessionId\":7,\"playbackRate\":1," ++
      lit "\"currentTime\":0,\"supportedMediaCommands\":15," ++
      lit "\"volume\":\x7b\"muted\":false,\"level\":1\x7d," ++
      lit "\"currentItemId\":1,\"playerState\":\"PLAYING\"\x7d]\x7d")
      (.ok ()),
    .operation 0 (.load firstMedia true .live) true (.ok ()),
    .message (.media 0)
      (lit "\x7b\"requestId\":2,\"type\":\"LOAD_CANCELLED\"\x7d") (.ok ()),
    .operation 0 .pause true (.ok ())]

/-- The session is reported, forgotten, and not named by the next request. -/
theorem not_tracked_cancelled :
    ∃ last session, exec (Channels.step textJson) {} cancelledRun =
        some last ∧
      (lastReported (last.received (.media 0))).sessionId = 7 ∧
      last.sessions = [session] ∧
      (session.document.get (lit "mediaSessionId")).getUint32 = .ok 0 ∧
      ¬last.Tracked := by
  have hrun : (exec (Channels.step textJson) {} cancelledRun).map
      (fun last => ((lastReported (last.received (.media 0))).sessionId,
        (last.lastStatus (.media 0)).sessionId,
        last.sessions.map fun session =>
          (session.document.get (lit "mediaSessionId")).getUint32)) =
        some (7, 0, [.ok 0]) := by
    decide +kernel
  obtain ⟨last, hlast, hvalues⟩ := Option.map_eq_some_iff.mp hrun
  simp only [Prod.mk.injEq, List.map_eq_singleton_iff] at hvalues
  obtain ⟨hreported, hstatus, session, hsession, hnamed⟩ := hvalues
  refine ⟨last, session, hlast, hreported, hsession, hnamed, ?_⟩
  intro htracked
  rw [htracked.lastStatus 0, hreported] at hstatus
  exact absurd hstatus (by decide)

end Channels

end LibChromecast
