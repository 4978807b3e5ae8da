import LibChromecast.Answers
import LibChromecast.JsonText
import LibChromecast.RequestCorrelation

/-!
# Answered requests

When an answer takes its request out for good: the key is gone, and the retry
handler never runs.  Three things keep it from doing so.  INVALID_REQUEST is
thrown before the request is looked up, a media channel decodes a status
before it looks the request up, and an expired timer cannot be cancelled.
-/

namespace LibChromecast

open Foundation Foundation.Transition

namespace Channels

variable {rapid : RapidJson}

/-! ## The requests of a process -/

theorem onResponse_requests (channel : ChannelRef) (response : Response)
    (ending : Outcome Unit) (channels : Channels) :
    (channels.onResponse channel response ending).2.requests =
      (channels.requests.onResponse channel response.requestId).2 := by
  unfold onResponse
  dsimp only
  cases hfind : RequestMap.find? response.requestId
      (channels.requests.requestIdToRequest channel) with
  | none =>
      unfold Requests.onResponse
      simp only [hfind]
  | some entry => exact (invoked_invoke _ _ _ _ _).requests

theorem onResponse_ne_violated (channel : ChannelRef) (id : UInt64)
    (world : Requests ChannelRef ResponseCallback) :
    (world.onResponse channel id).1 ≠ .error .violated := by
  unfold Requests.onResponse
  dsimp only
  split <;> simp

/-- How an overriding `OnResponse` ends where it does not call the base
one. -/
def overriding (rapid : RapidJson) (ending : Outcome Unit) :
    ChannelRef → Response → Option (Outcome Bool)
  | .receiver _, response =>
      if response.requestId ≠ 0 then none
      else
        match ReceiverStatus.fromMessage rapid response.message with
        | .error fault => some (.error fault)
        | .ok _ => some (ending.map fun _ => true)
  | .media _, response =>
      match mediaStatus response.message with
      | .error fault => some (.error fault)
      | .ok _ => if response.requestId = 0 then some (.ok true) else none

/-- To the requests, a message is one whose channel overrides `OnResponse` in
this way. -/
theorem onMessage_requests (channel : ChannelRef) (payload : StdString)
    (ending : Outcome Unit) (channels : Channels) :
    (channels.onMessage rapid channel payload ending).2.requests =
        (channels.requests.onMessage rapid channel payload
          (overriding rapid ending channel)).2 ∧
      ((channels.requests.onMessage rapid channel payload
          (overriding rapid ending channel)).1 = .error .violated →
        (channels.onMessage rapid channel payload ending).1 =
          .error .violated) := by
  unfold onMessage Requests.onMessage
  cases incoming rapid payload with
  | error fault => exact ⟨rfl, id⟩
  | ok response? =>
      cases response? with
      | none => exact ⟨rfl, id⟩
      | some response =>
          cases channel with
          | receiver index =>
              unfold receiverOnResponse overriding
              dsimp only
              split_ifs with hid
              · exact ⟨onResponse_requests _ _ _ _,
                  fun h => absurd h (onResponse_ne_violated _ _ _)⟩
              · cases ReceiverStatus.fromMessage rapid response.message <;>
                  exact ⟨rfl, id⟩
          | media index =>
              unfold mediaOnResponse overriding
              dsimp only
              cases mediaStatus response.message with
              | error fault => exact ⟨rfl, id⟩
              | ok status? =>
                  dsimp only
                  split_ifs with hid
                  · cases status? <;> exact ⟨rfl, id⟩
                  · refine ⟨?_, fun h =>
                      absurd h (onResponse_ne_violated _ _ _)⟩
                    cases status? <;> exact onResponse_requests _ _ _ _

theorem operate_requests (rapid : RapidJson) (channel : ℕ)
    (hasCallback : Bool) (sending : Outcome Unit) (channels : Channels)
    (operation : Operation) :
    (channels.operate rapid channel hasCallback sending
        operation).2.requests = channels.requests ∨
      ∃ message callback, (channels.operate rapid channel hasCallback
          sending operation).2.requests =
        (channels.requests.userRequest rapid (.media channel) message
          callback sending).2 := by
  cases operation with
  | load media autoplay unset =>
      rw [operate]
      unfold load
      cases media.toMessage unset (typed "LOAD") with
      | error fault => exact Or.inl rfl
      | ok message => exact Or.inr ⟨_, _, rfl⟩
  | _ => exact Or.inr ⟨_, _, rfl⟩

/-- The requests of a process run as the machine of requests does. -/
theorem simulates_requests (rapid : RapidJson) :
    Simulates (Channels.step rapid) (Requests.step rapid)
      Channels.requests := by
  intro channels event next hstep
  cases event with
  | operation channel operation hasCallback sending =>
      obtain ⟨-, rfl⟩ := unlessViolated_eq_some.mp hstep
      rcases operate_requests rapid channel hasCallback sending channels
        operation with hsame | ⟨message, callback, hmore⟩
      · exact ⟨[], by rw [hsame]; rfl⟩
      · refine ⟨[.request (.media channel) message callback sending], ?_⟩
        rw [exec_singleton, hmore]
        rfl
  | receiverRequest channel message sending =>
      cases hstep
      exact ⟨[.request (.receiver channel) message .receiver sending],
        exec_singleton _ _⟩
  | expire timer =>
      obtain ⟨requests, hrequests, rfl⟩ := Option.map_eq_some_iff.mp hstep
      exact ⟨[.expire timer], by rw [exec_singleton]; exact hrequests⟩
  | fire timer sending =>
      obtain ⟨requests, hrequests, rfl⟩ := Option.map_eq_some_iff.mp hstep
      exact ⟨[.fire timer sending], by rw [exec_singleton]; exact hrequests⟩
  | message channel payload ending =>
      obtain ⟨hended, rfl⟩ := unlessViolated_eq_some.mp hstep
      obtain ⟨hsame, hviolated⟩ :=
        onMessage_requests channel payload ending channels
      refine ⟨[.message channel payload (overriding rapid ending channel)],
        ?_⟩
      rw [exec_singleton, hsame, Requests.step]
      split
      next hbad =>
        refine absurd (hviolated ?_) hended
        rw [hbad]
      next hgood => rw [hgood]

end Channels

namespace Requests

variable {ι κ : Type}

/-! ## Timers -/

/-- The timer's handler has run or has been revoked. -/
def Settled (timers : List (RetryTimer ι κ)) (timer : ℕ) : Prop :=
  ∃ t, timers[timer]? = some t ∧ (t.state = .cancelled ∨ t.state = .fired)

def Queued (timers : List (RetryTimer ι κ)) (timer : ℕ) : Prop :=
  ∃ t, timers[timer]? = some t ∧ t.state = .queued

section Timers

variable {timers : List (RetryTimer ι κ)} {timer : ℕ}

theorem getElem?_cancelTimer (other index : ℕ) :
    (cancelTimer other timers)[index]? = timers[index]?.map fun t =>
      if other = index then { t with state := t.state.cancel } else t := by
  unfold cancelTimer
  rw [List.getElem?_modify]
  rfl

@[simp] theorem length_cancelTimer :
    (cancelTimer timer timers).length = timers.length := by
  unfold cancelTimer
  exact List.length_modify _ _ _

theorem Settled.cancelTimer (h : Settled timers timer) (other : ℕ) :
    Settled (cancelTimer other timers) timer := by
  obtain ⟨t, htimer, hstate⟩ := h
  unfold Settled
  rw [getElem?_cancelTimer, htimer]
  refine ⟨_, rfl, ?_⟩
  split_ifs
  · rcases hstate with hstate | hstate <;> simp [hstate, TimerState.cancel]
  · exact hstate

theorem Settled.append (h : Settled timers timer)
    (more : List (RetryTimer ι κ)) : Settled (timers ++ more) timer := by
  obtain ⟨t, htimer, hstate⟩ := h
  have hlt := (List.getElem?_eq_some_iff.mp htimer).1
  exact ⟨t, by rw [List.getElem?_append_left hlt, htimer], hstate⟩

theorem Settled.set_state (h : Settled timers timer) {other : ℕ}
    {t : RetryTimer ι κ} (hother : timers[other]? = some t)
    (hstate : t.state = .waiting ∨ t.state = .queued) (state : TimerState) :
    Settled (timers.modify other fun t => { t with state }) timer := by
  obtain ⟨t', htimer, hstate'⟩ := h
  have hne : other ≠ timer := by
    intro heq
    subst heq
    rw [hother, Option.some_inj] at htimer
    subst htimer
    rcases hstate with h | h <;> rcases hstate' with h' | h' <;>
      rw [h] at h' <;> contradiction
  refine ⟨t', ?_, hstate'⟩
  rw [List.getElem?_modify_ne _ _ hne, htimer]

theorem settled_cancelTimer_self (hlt : timer < timers.length) :
    Settled (cancelTimer timer timers) timer ↔ ¬Queued timers timer := by
  unfold Settled Queued
  rw [getElem?_cancelTimer, List.getElem?_eq_getElem hlt]
  simp only [Option.map_some, Option.some_inj, exists_eq_left', if_true]
  cases timers[timer].state <;> simp [TimerState.cancel]

theorem Queued.cancelTimer (h : Queued timers timer) (other : ℕ) :
    Queued (cancelTimer other timers) timer := by
  obtain ⟨t, htimer, hstate⟩ := h
  unfold Queued
  rw [getElem?_cancelTimer, htimer]
  refine ⟨_, rfl, ?_⟩
  split_ifs
  · simp [hstate, TimerState.cancel]
  · exact hstate

end Timers

variable [DecidableEq ι] {rapid : RapidJson}

theorem Settled.fire_eq_none {world : Requests ι κ} {timer : ℕ}
    (h : Settled world.timers timer) (sending : Outcome Unit) :
    world.fire rapid timer sending = none := by
  obtain ⟨t, htimer, hstate⟩ := h
  have hne : t.state ≠ .queued := by
    rcases hstate with hstate | hstate <;> simp [hstate]
  unfold fire
  simp only [htimer, hne, if_false]

theorem Queued.fire_ne_none {world : Requests ι κ} {timer : ℕ}
    (h : Queued world.timers timer) (sending : Outcome Unit) :
    world.fire rapid timer sending ≠ none := by
  obtain ⟨t, htimer, hstate⟩ := h
  unfold fire
  simp only [htimer, hstate, if_true]
  exact Option.some_ne_none _

theorem Settled.request {world : Requests ι κ} {timer : ℕ}
    (h : Settled world.timers timer) (channel : ι) (message : Json)
    (callback : κ) (call : ℕ) (sending : Outcome Unit) :
    Settled (world.request rapid channel message callback call
      sending).2.timers timer := by
  unfold Requests.request
  dsimp only
  cases RequestMap.find? (world.requestId + 1)
      (world.requestIdToRequest channel) with
  | none => exact h.append _
  | some replaced => exact (h.cancelTimer _).append _

theorem Settled.step {world next : Requests ι κ} {event : Event ι κ}
    {timer : ℕ} (h : Settled world.timers timer)
    (hstep : world.step rapid event = some next) :
    Settled next.timers timer := by
  cases step_cases hstep with
  | request channel message callback sending =>
      exact h.request channel message callback _ sending
  | expire other t htimer hstate =>
      exact h.set_state htimer (Or.inl hstate) .queued
  | fire other t sending htimer hstate =>
      refine Settled.request ?_ _ _ _ _ _
      exact h.set_state htimer (Or.inr hstate) .fired
  | unanswered => exact h
  | answered channel payload override response =>
      unfold Requests.onResponse
      dsimp only
      split
      · exact h
      · exact h.cancelTimer _

theorem Settled.silent {world later : Requests ι κ}
    {events : List (Event ι κ)} {timer : ℕ}
    (h : Settled world.timers timer)
    (hrun : exec (Requests.step rapid) world events = some later)
    (sending : Outcome Unit) : later.fire rapid timer sending = none := by
  have hlater : Settled later.timers timer :=
    exec_invariant
      (fun current : Requests ι κ => Settled current.timers timer)
      (fun _ _ _ hcurrent hstep => hcurrent.step hstep) h hrun
  exact hlater.fire_eq_none sending

def Timed (world : Requests ι κ) : Prop :=
  ∀ channel, ∀ entry ∈ world.requestIdToRequest channel,
    entry.2.retryTimer < world.timers.length

theorem Timed.request {world : Requests ι κ} (h : world.Timed)
    (hconsistent : world.Consistent) (hdrawn : world.drawn + 1 < 2 ^ 64)
    (channel : ι) (message : Json) (callback : κ) (call : ℕ)
    (sending : Outcome Unit) :
    (world.request rapid channel message callback call
      sending).2.Timed := by
  have hlength : world.timers.length <
      (world.request rapid channel message callback call
        sending).2.timers.length := by
    unfold Requests.request
    dsimp only
    cases RequestMap.find? (world.requestId + 1)
        (world.requestIdToRequest channel) <;> simp
  intro other entry hentry
  rcases (hconsistent.mem_request rapid hdrawn _ _ _ _ _ _ _).mp hentry with
    hold | ⟨-, hnew⟩
  · exact Nat.lt_trans (h other entry hold) hlength
  · rw [hnew]
    exact hlength

theorem Timed.step {world next : Requests ι κ} {event : Event ι κ}
    (h : world.Timed) (hconsistent : world.Consistent)
    (hstep : world.step rapid event = some next)
    (hdrawn : next.drawn < 2 ^ 64) : next.Timed := by
  cases step_cases hstep with
  | request channel message callback sending =>
      have hbefore : ({ world with
          requested := world.requested ++ [message] } :
            Requests ι κ).Timed := h
      exact hbefore.request ⟨hconsistent.counter, hconsistent.sorted,
        hconsistent.keys_le, hconsistent.wire⟩ hdrawn _ _ _ _ _
  | expire timer t =>
      intro channel entry hentry
      rw [setTimer, List.length_modify]
      exact h channel entry hentry
  | fire timer t sending =>
      have hbefore : (world.setTimer timer .fired).Timed := by
        intro channel entry hentry
        rw [setTimer, List.length_modify]
        exact h channel entry hentry
      exact hbefore.request ⟨hconsistent.counter, hconsistent.sorted,
        hconsistent.keys_le, hconsistent.wire⟩ hdrawn _ _ _ _ _
  | unanswered => exact h
  | answered channel payload override response =>
      have hlength : (world.onResponse channel
          response.requestId).2.timers.length = world.timers.length := by
        rcases onResponse_cases (hconsistent.sorted channel)
          response.requestId with ⟨-, hnone⟩ | ⟨request, -, hsome⟩
        · rw [hnone]
        · rw [hsome]
          exact length_cancelTimer
      intro other entry hentry
      rw [hlength]
      exact h other entry
        ((mem_onResponse_table hconsistent.sorted).mp hentry).1

theorem timed_of_run {last : Requests ι κ} {events : List (Event ι κ)}
    (hrun : exec (Requests.step rapid) {} events = some last)
    (hdrawn : last.drawn < 2 ^ 64) : last.Timed := by
  have hboth := exec_invariant
    (fun current : Requests ι κ => current.drawn < 2 ^ 64 →
      current.Consistent ∧ current.Timed) ?_ ?_ hrun hdrawn
  · exact hboth.2
  · intro current event next hcurrent hstep hnext
    obtain ⟨hconsistent, htimed⟩ :=
      hcurrent (Nat.lt_of_le_of_lt (drawn_le hstep) hnext)
    exact ⟨hconsistent.step hstep hnext,
      htimed.step hconsistent hstep hnext⟩
  · intro _
    refine ⟨consistent_empty, ?_⟩
    intro channel entry hentry
    contradiction

end Requests

namespace Channels

variable {rapid : RapidJson}

/-! ## Answers -/

/-- The request is no longer pending: its key is gone, and however the run
goes on, the retry handler of its timer cannot run. -/
structure Answered (rapid : RapidJson) (channel : ChannelRef)
    (id : UInt64) (timer : ℕ) (channels : Channels) : Prop where
  gone : ∀ entry ∈ channels.requests.requestIdToRequest channel,
    entry.1 ≠ id
  silent : ∀ events later sending,
    exec (Channels.step rapid) channels events = some later →
      later.requests.fire rapid timer sending = none

def Decodes (document : Json) : Prop :=
  ∃ status, MediaStatus.fromMessage document = .ok status

section Pending

variable {channels next : Channels} {channel : ChannelRef} {id : UInt64}
  {request : ChannelRequest ResponseCallback}
  (hentry : (id, request) ∈ channels.requests.requestIdToRequest channel)

include hentry

theorem not_answered_of_same
    (hnext : next.requests = channels.requests) :
    ¬Answered rapid channel id request.retryTimer next := by
  intro hanswered
  rw [← hnext] at hentry
  exact hanswered.gone _ hentry rfl

theorem answered_of_onResponse (hconsistent : channels.requests.Consistent)
    (htimed : channels.requests.Timed)
    (hnext : next.requests =
      (channels.requests.onResponse channel id).2) :
    Answered rapid channel id request.retryTimer next ↔
      ¬Requests.Queued channels.requests.timers request.retryTimer := by
  rw [hconsistent.answered hentry] at hnext
  have hlt := htimed channel _ hentry
  have hsettled := Requests.settled_cancelTimer_self hlt
  constructor
  · intro hanswered hqueued
    have hstill : Requests.Queued next.requests.timers
        request.retryTimer := by
      rw [hnext]
      exact hqueued.cancelTimer _
    exact hstill.fire_ne_none (.ok ())
      (hanswered.silent [] next (.ok ()) rfl)
  · intro hqueued
    have htimer : Requests.Settled next.requests.timers
        request.retryTimer := by
      rw [hnext]
      exact hsettled.mpr hqueued
    refine ⟨?_, ?_⟩
    · intro entry hmem
      rw [hnext, ← hconsistent.answered hentry] at hmem
      exact ((Requests.mem_onResponse_table hconsistent.sorted).mp hmem).2
        rfl
    · intro events later sending hrun
      obtain ⟨requestEvents, hrequests⟩ :=
        (simulates_requests rapid).exec hrun
      exact htimer.silent hrequests sending

theorem answered_of_mediaOnResponse
    (hconsistent : channels.requests.Consistent)
    (htimed : channels.requests.Timed) (hpositive : id ≠ 0)
    (current : Channels) (hcurrent : current.requests = channels.requests)
    {members touched : List (StdString × Json)}
    (hopened : Opened members touched id) (ending : Outcome Unit) :
    Answered rapid channel id request.retryTimer
        (current.mediaOnResponse channel ⟨id, .object touched⟩ ending).2 ↔
      ((Json.object members).HasType (lit "MEDIA_STATUS") →
          Decodes (.object members)) ∧
        ¬Requests.Queued channels.requests.timers request.retryTimer := by
  unfold mediaOnResponse
  rcases hopened.mediaStatus_cases with
    ⟨hread, hother⟩ | ⟨status, hread, hok⟩ | ⟨fault, hread, hmedia, hbad⟩
  · rw [hread]
    dsimp only
    rw [if_neg hpositive, answered_of_onResponse hentry hconsistent htimed
      (by rw [onResponse_requests, hcurrent])]
    exact (and_iff_right fun htype => absurd htype hother).symm
  · rw [hread]
    dsimp only
    rw [if_neg hpositive, answered_of_onResponse hentry hconsistent htimed
      (by rw [onResponse_requests, setLastStatus_requests, hcurrent])]
    exact (and_iff_right fun _ => ⟨status, hok⟩).symm
  · rw [hread]
    refine iff_of_false (not_answered_of_same hentry hcurrent) ?_
    rintro ⟨hdecodes, -⟩
    obtain ⟨status, hok⟩ := hdecodes hmedia
    exact hbad status hok

end Pending

/-- An answer with a string type that a channel processes to its end settles
the request it answers if and only if it is not INVALID_REQUEST, decodes in
case it is a media channel's MEDIA_STATUS, and finds the retry timer not
expired. -/
theorem answered_iff {events : List Event} {channels next : Channels}
    {channel : ChannelRef} {payload type : StdString} {id : UInt64}
    {request : ChannelRequest ResponseCallback} {ending : Outcome Unit}
    {outcome : Outcome Bool}
    (hrun : exec (Channels.step rapid) {} events = some channels)
    (hdrawn : channels.requests.drawn < 2 ^ 64)
    (hentry : (id, request) ∈ channels.requests.requestIdToRequest channel)
    (hid : (rapid.parseMessage payload).member (lit "requestId") =
      .ok (.uint id))
    (htype : (rapid.parseMessage payload).HasType type)
    (hmessage : channels.onMessage rapid channel payload ending =
      (outcome, next))
    (hended : outcome ≠ .error .violated) :
    Answered rapid channel id request.retryTimer next ↔
      type ≠ lit "INVALID_REQUEST" ∧
        (channel.isMedia = true → type = lit "MEDIA_STATUS" →
          Decodes (rapid.parseMessage payload)) ∧
        ¬Requests.Queued channels.requests.timers request.retryTimer := by
  obtain ⟨requestEvents, hrequests⟩ := (simulates_requests rapid).exec hrun
  have hconsistent : channels.requests.Consistent :=
    Requests.consistent_empty.run hrequests hdrawn
  have htimed := Requests.timed_of_run hrequests hdrawn
  have hpositive : id ≠ 0 := by
    have hempty : ∀ entry ∈ ({} : Channels).requests.requestIdToRequest
        channel, entry.1 ≠ 0 := by
      intro entry hmem
      contradiction
    have habsent := Requests.absent_run Requests.consistent_empty
      UInt64.zero_le hempty hrequests hdrawn
    exact habsent.2 _ hentry
  have hcases := message_cases rapid channel payload ending channels
  rw [hmessage] at hcases
  generalize hresult : (outcome, next) = result at hcases
  cases hcases with
  | violated =>
      cases hresult
      exact absurd rfl hended
  | invalidRequest _ exception hinvalid =>
      cases hresult
      refine iff_of_false (not_answered_of_same hentry rfl) ?_
      exact fun hgood => hgood.1 (htype.unique hinvalid)
  | receiver index members touched requestId hdocument hopened =>
      rw [hdocument] at hid htype ⊢
      have hsame : requestId = id := hopened.requestId_unique hid
      subst hsame
      have hvalid : type ≠ lit "INVALID_REQUEST" := by
        rintro rfl
        exact hopened.not_invalid htype
      unfold receiverOnResponse at hresult
      rw [if_pos hpositive] at hresult
      have hnext := congrArg (fun result => result.2.requests) hresult
      rw [answered_of_onResponse hentry hconsistent htimed
        (hnext.trans (onResponse_requests _ _ _ _))]
      simp [hvalid, ChannelRef.isMedia]
  | media index members touched requestId hdocument hopened =>
      rw [hdocument] at hid htype ⊢
      have hsame : requestId = id := hopened.requestId_unique hid
      subst hsame
      have hvalid : type ≠ lit "INVALID_REQUEST" := by
        rintro rfl
        exact hopened.not_invalid htype
      have hmedia : (Json.object members).HasType (lit "MEDIA_STATUS") ↔
          type = lit "MEDIA_STATUS" := by
        constructor
        · exact htype.unique
        · rintro rfl
          exact htype
      have hnext : next = _ := congrArg Prod.snd hresult
      rw [hnext, answered_of_mediaOnResponse hentry hconsistent htimed
        hpositive (channels.receive _ _) rfl hopened, hmedia]
      simp [hvalid, ChannelRef.isMedia]

def paused : List Event := [.operation 0 .pause true (.ok ())]

def pausedAnswer : StdString :=
  lit "\x7b\"requestId\":1,\"type\":\"PAUSED\"\x7d"

theorem answered_iff_paused :
    ∃ channels request,
      exec (Channels.step textJson) {} paused = some channels ∧
        (1, request) ∈ channels.requests.requestIdToRequest (.media 0) ∧
        Answered textJson (.media 0) 1 request.retryTimer
          (channels.onMessage textJson (.media 0) pausedAnswer
            (.ok ())).2 := by
  have hrun : (exec (Channels.step textJson) {} paused).map
      (fun channels => (channels.requests.drawn,
        (channels.requests.requestIdToRequest (.media 0)).map Prod.fst,
        channels.requests.timers.map RetryTimer.state,
        (channels.onMessage textJson (.media 0) pausedAnswer (.ok ())).1)) =
      some (1, [1], [.waiting], .ok true) := by
    decide +kernel
  have hid : ((textJson.parseMessage pausedAnswer).member
      (lit "requestId") >>= Json.getUint64) = .ok 1 := by
    decide +kernel
  have htype : (textJson.parseMessage pausedAnswer).HasType
      (lit "PAUSED") := by
    decide +kernel
  obtain ⟨channels, hchannels, hvalues⟩ := Option.map_eq_some_iff.mp hrun
  simp only [Prod.mk.injEq] at hvalues
  obtain ⟨hdrawn, hkeys, hstates, houtcome⟩ := hvalues
  obtain ⟨value, hmember, hvalue⟩ := bind_eq_ok.mp hid
  rw [Json.getUint64_eq_ok.mp hvalue] at hmember
  have hkey : (1 : UInt64) ∈ (channels.requests.requestIdToRequest
      (.media 0)).map Prod.fst := by
    rw [hkeys]
    exact List.mem_singleton_self 1
  obtain ⟨⟨key, request⟩, hentry, hsame⟩ := List.mem_map.mp hkey
  dsimp only at hsame
  subst hsame
  refine ⟨channels, request, hchannels, hentry, ?_⟩
  have hwaiting : ¬Requests.Queued channels.requests.timers
      request.retryTimer := by
    rintro ⟨t, htimer, hqueued⟩
    have hstate : t.state ∈
        channels.requests.timers.map RetryTimer.state :=
      List.mem_map_of_mem (List.mem_of_getElem? htimer)
    rw [hstates, List.mem_singleton, hqueued] at hstate
    exact absurd hstate (by decide)
  generalize hmessage : channels.onMessage textJson (.media 0) pausedAnswer
    (.ok ()) = result at houtcome ⊢
  obtain ⟨outcome, next⟩ := result
  dsimp only at houtcome ⊢
  have hended : outcome ≠ .error .violated := by
    rw [houtcome]
    simp
  have hbound : channels.requests.drawn < 2 ^ 64 := by omega
  refine (answered_iff hchannels hbound hentry hmember htype hmessage
    hended).mpr ⟨?_, ?_, hwaiting⟩
  · decide
  · intro _ hmedia
    exact absurd hmedia (by decide)

def invalidAnswer : StdString :=
  lit "\x7b\"requestId\":1,\"type\":\"INVALID_REQUEST\"\x7d"

/-- A request that the receiver calls invalid stays pending. -/
theorem not_answered_invalid :
    ∃ channels, exec (Channels.step textJson) {} paused = some channels ∧
      ¬Answered textJson (.media 0) 1 0
        (channels.onMessage textJson (.media 0) invalidAnswer
          (.ok ())).2 := by
  have hrun : (exec (Channels.step textJson) {} paused).map
      (fun channels => ((channels.onMessage textJson (.media 0)
        invalidAnswer (.ok ())).2.requests.requestIdToRequest
          (.media 0)).map Prod.fst) = some [1] := by
    decide +kernel
  obtain ⟨channels, hchannels, hkeys⟩ := Option.map_eq_some_iff.mp hrun
  refine ⟨channels, hchannels, fun hanswered => ?_⟩
  have hkey : (1 : UInt64) ∈ ((channels.onMessage textJson (.media 0)
      invalidAnswer (.ok ())).2.requests.requestIdToRequest
        (.media 0)).map Prod.fst := by
    rw [hkeys]
    exact List.mem_singleton_self 1
  obtain ⟨entry, hentry, hsame⟩ := List.mem_map.mp hkey
  exact hanswered.gone entry hentry hsame

end Channels

end LibChromecast
