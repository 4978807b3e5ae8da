import LibChromecast.AnsweredRequests
import LibChromecast.Retries

/-!
# What becomes of a request

Every id that is drawn belongs to one retry timer, the timers of a call form a
chain, and no call is lost: an id is pending on its channel or was answered
once, and the last timer of a call waits, has expired, or was cancelled by the
answer to its id.
-/

namespace LibChromecast

open Foundation Foundation.Transition

namespace Observation

variable {ι κ : Type}

/-- A callback was invoked for this id. -/
def answers (id : UInt64) : Observation ι κ → Bool
  | .frame .. => false
  | .invoked _ _ own _ => own == id

end Observation

namespace Requests

variable {ι κ : Type}

/-! ## The last timer of a call -/

/-- The timer at `index` is the last one of the call, and the only one whose
handler has not run. -/
structure Latest (timers : List (RetryTimer ι κ)) (call index : ℕ) :
    Prop where
  here : ∃ t, timers[index]? = some t ∧ t.call = call ∧ t.state ≠ .fired
  last : ∀ other t, timers[other]? = some t → t.call = call →
    other ≤ index ∧ (other = index ∨ t.state = .fired)

section Latest

variable {timers : List (RetryTimer ι κ)} {call index timer : ℕ}

/-- A change of state that neither runs a handler nor undoes one. -/
theorem Latest.modify (change : TimerState → TimerState)
    (h : Latest timers call index)
    (hchange : ∀ t, timers[timer]? = some t → t.call = call →
      (change t.state = .fired ↔ t.state = .fired)) :
    Latest (timers.modify timer fun t => { t with state := change t.state })
      call index := by
  obtain ⟨⟨t, hindex, hcall, hstate⟩, hlast⟩ := h
  constructor
  · rw [List.getElem?_modify, hindex]
    refine ⟨_, rfl, ?_⟩
    dsimp only
    split_ifs with heq
    · exact ⟨hcall, fun hfired =>
        hstate ((hchange t (heq ▸ hindex) hcall).mp hfired)⟩
    · exact ⟨hcall, hstate⟩
  · intro other t' hother hcall'
    rw [List.getElem?_modify] at hother
    obtain ⟨old, hold, rfl⟩ := Option.map_eq_some_iff.mp hother
    split_ifs at hcall' ⊢ with heq
    · refine (hlast other old hold hcall').imp_right (Or.imp_right ?_)
      exact (hchange old (heq ▸ hold) hcall').mpr
    · exact hlast other old hold hcall'

theorem getElem?_concat_cases {t t' : RetryTimer ι κ}
    (h : (timers ++ [t])[index]? = some t') :
    timers[index]? = some t' ∨ index = timers.length ∧ t' = t := by
  by_cases hlt : index < timers.length
  · rw [List.getElem?_append_left hlt] at h
    exact Or.inl h
  · rw [List.getElem?_append_right (Nat.not_lt.mp hlt)] at h
    obtain ⟨hzero, ht⟩ := List.getElem?_eq_some_iff.mp h
    rw [List.length_singleton] at hzero
    refine Or.inr ⟨by omega, ?_⟩
    rw [← ht, List.getElem_singleton]

/-- A timer of another call comes. -/
theorem Latest.append {t : RetryTimer ι κ} (h : Latest timers call index)
    (hother : t.call ≠ call) : Latest (timers ++ [t]) call index := by
  obtain ⟨⟨own, hindex, hown⟩, hlast⟩ := h
  constructor
  · refine ⟨own, ?_, hown⟩
    rw [List.getElem?_append_left (List.getElem?_eq_some_iff.mp hindex).1,
      hindex]
  · intro other t' hget hcall
    rcases getElem?_concat_cases hget with hold | ⟨-, rfl⟩
    · exact hlast other t' hold hcall
    · exact absurd hcall hother

/-- The next timer of the call, or the first one. -/
theorem latest_concat {t : RetryTimer ι κ} (hcall : t.call = call)
    (hstate : t.state ≠ .fired)
    (hfired : ∀ (other : ℕ) (t' : RetryTimer ι κ),
      timers[other]? = some t' → t'.call = call → t'.state = .fired) :
    Latest (timers ++ [t]) call timers.length := by
  constructor
  · exact ⟨t, List.getElem?_concat_length, hcall, hstate⟩
  · intro other t' hget hcall'
    rcases getElem?_concat_cases hget with hold | ⟨rfl, -⟩
    · have hlt := (List.getElem?_eq_some_iff.mp hold).1
      exact ⟨Nat.le_of_lt hlt, Or.inr (hfired other t' hold hcall')⟩
    · exact ⟨Nat.le_refl _, Or.inl rfl⟩

end Latest

/-! ## The fate of an id -/

/-- What became of the id of a timer. -/
inductive Fate (world : Requests ι κ) (index : ℕ) (t : RetryTimer ι κ) :
    Prop
  | pending (id : UInt64) (request : ChannelRequest κ)
      (hid : id.toNat = index + 1)
      (hentry : (id, request) ∈ world.requestIdToRequest t.channel)
      (htimer : request.retryTimer = index) (hcall : request.call = t.call)
      (hcallback : request.callback = t.callback)
      (hstate : t.state ≠ .cancelled)
      (hnone : world.trace.filter (Observation.answers id) = [])
  | answered (id : UInt64) (hid : id.toNat = index + 1)
      (habsent : ∀ channel, ∀ entry ∈ world.requestIdToRequest channel,
        entry.1 ≠ id)
      (hstate : t.state ≠ .waiting)
      (hone : world.trace.filter (Observation.answers id) =
        [.invoked t.channel t.call id t.callback])

theorem Fate.of_same {world next : Requests ι κ} {index : ℕ}
    {t : RetryTimer ι κ} (h : world.Fate index t)
    (htable : next.requestIdToRequest = world.requestIdToRequest)
    (htrace : next.trace = world.trace) : next.Fate index t := by
  cases h with
  | pending id request hid hentry htimer hcall hcallback hstate hnone =>
      exact .pending id request hid (htable ▸ hentry) htimer hcall hcallback
        hstate (htrace ▸ hnone)
  | answered id hid habsent hstate hone =>
      exact .answered id hid (htable ▸ habsent) hstate (htrace ▸ hone)

/-- The timer expires, or its handler runs. -/
theorem Fate.set_state {world : Requests ι κ} {index : ℕ}
    {t : RetryTimer ι κ} (h : world.Fate index t) {state : TimerState}
    (hcancelled : state ≠ .cancelled) (hwaiting : state ≠ .waiting) :
    world.Fate index { t with state } := by
  cases h with
  | pending id request hid hentry htimer hcall hcallback _ hnone =>
      exact .pending id request hid hentry htimer hcall hcallback hcancelled
        hnone
  | answered id hid habsent _ hone =>
      exact .answered id hid habsent hwaiting hone

/-- Each id has its fate. -/
structure Placed (world : Requests ι κ) : Prop where
  drawn : world.timers.length = world.drawn
  fates : ∀ index t, world.timers[index]? = some t → world.Fate index t
  owned : ∀ channel, ∀ entry ∈ world.requestIdToRequest channel,
    ∃ index t, world.timers[index]? = some t ∧ t.channel = channel ∧
      entry.1.toNat = index + 1
  answered : ∀ observation ∈ world.trace, ∀ id,
    observation.answers id → id ≤ world.requestId
  made : ∀ t ∈ world.timers, t.call < world.requested.length

/-- And each call a last timer. -/
structure Accounted (world : Requests ι κ) : Prop extends Placed world where
  latest : ∀ call, call < world.requested.length →
    ∃ index, Latest world.timers call index

theorem accounted_empty : ({} : Requests ι κ).Accounted where
  drawn := rfl
  fates index t htimer := by cases htimer
  owned channel entry hentry := by cases hentry
  answered observation hobservation := by cases hobservation
  made t ht := by cases ht
  latest call hcall := absurd hcall (Nat.not_lt_zero _)

variable [DecidableEq ι] {rapid : RapidJson} {world next : Requests ι κ}

/-! ## Requests -/

section Request

variable (hconsistent : world.Consistent)
  (hdrawn : world.drawn + 1 < 2 ^ 64) (channel : ι) (message : Json)
  (callback : κ) (call : ℕ) (sending : Outcome Unit)

include hconsistent hdrawn in
/-- A request replaces no entry, so it cancels no timer. -/
theorem request_timers :
    (world.request rapid channel message callback call sending).2.timers =
      world.timers ++ [⟨channel, rapid.copy (requestDocument message world),
        callback, call, .waiting⟩] := by
  have hnone := (RequestMap.find?_eq_none_iff
    (hconsistent.sorted channel)).mpr (hconsistent.fresh hdrawn channel)
  unfold request
  simp only [hnone]
  rfl

theorem request_filter (id : UInt64) :
    (world.request rapid channel message callback call
        sending).2.trace.filter (Observation.answers id) =
      world.trace.filter (Observation.answers id) := by
  rw [request_trace, List.filter_append]
  cases sending with
  | ok _ => exact List.append_nil _
  | error fault => exact List.append_nil _

include hconsistent hdrawn in
theorem Fate.request {index : ℕ} {t : RetryTimer ι κ}
    (h : world.Fate index t) (hindex : index < world.drawn) :
    (world.request rapid channel message callback call
      sending).2.Fate index t := by
  cases h with
  | pending id request hid hentry htimer hcall hcallback hstate hnone =>
      refine .pending id request hid ?_ htimer hcall hcallback hstate ?_
      · exact (hconsistent.mem_request rapid hdrawn _ _ _ _ _ _ _).mpr
          (Or.inl hentry)
      · rw [request_filter, hnone]
  | answered id hid habsent hstate hone =>
      refine .answered id hid (fun other entry hentry => ?_) hstate ?_
      · rcases (hconsistent.mem_request rapid hdrawn _ _ _ _ _ _ _).mp
          hentry with hold | ⟨-, hnew⟩
        · exact habsent other entry hold
        · intro heq
          have hnumber := hconsistent.counter_succ hdrawn
          rw [hnew] at heq
          dsimp only at heq
          rw [heq, hid] at hnumber
          omega
      · rw [request_filter, hone]

include hconsistent hdrawn in
theorem Placed.request (h : world.Placed)
    (hcall : call < world.requested.length) :
    (world.request rapid channel message callback call
      sending).2.Placed where
  drawn := by
    rw [request_timers hconsistent hdrawn, List.length_append, h.drawn]
    rfl
  fates index t htimer := by
    rw [request_timers hconsistent hdrawn] at htimer
    rcases getElem?_concat_cases htimer with hold | ⟨rfl, rfl⟩
    · have hlt := (List.getElem?_eq_some_iff.mp hold).1
      exact (h.fates index t hold).request hconsistent hdrawn channel
        message callback call sending (h.drawn ▸ hlt)
    · refine .pending (world.requestId + 1)
        ⟨world.timers.length, callback, call⟩ ?_ ?_ rfl rfl rfl (by simp) ?_
      · rw [hconsistent.counter_succ hdrawn, h.drawn]
      · exact (hconsistent.mem_request rapid hdrawn _ _ _ _ _ _ _).mpr
          (Or.inr ⟨rfl, rfl⟩)
      · rw [request_filter, List.filter_eq_nil_iff]
        intro observation hobservation hanswers
        have hle := h.answered observation hobservation _ hanswers
        exact absurd (UInt64.lt_of_lt_of_le (hconsistent.counter_lt hdrawn)
          hle) (UInt64.lt_irrefl _)
  owned other entry hentry := by
    rw [request_timers hconsistent hdrawn]
    rcases (hconsistent.mem_request rapid hdrawn _ _ _ _ _ _ _).mp
      hentry with hold | ⟨rfl, rfl⟩
    · obtain ⟨index, t, htimer, howned⟩ := h.owned other entry hold
      refine ⟨index, t, ?_, howned⟩
      rw [List.getElem?_append_left (List.getElem?_eq_some_iff.mp htimer).1,
        htimer]
    · refine ⟨world.timers.length, _, List.getElem?_concat_length, rfl, ?_⟩
      rw [hconsistent.counter_succ hdrawn, h.drawn]
  answered observation hobservation id hanswers := by
    have hmem : observation ∈ world.trace.filter (Observation.answers id) := by
      rw [← request_filter channel message callback call sending id]
      exact List.mem_filter.mpr ⟨hobservation, hanswers⟩
    refine UInt64.le_trans
      (h.answered observation (List.mem_of_mem_filter hmem) id hanswers) ?_
    exact UInt64.le_of_lt (hconsistent.counter_lt hdrawn)
  made t ht := by
    rw [request_timers hconsistent hdrawn] at ht
    rcases List.mem_append.mp ht with hold | hnew
    · exact h.made t hold
    · rw [List.mem_singleton.mp hnew]
      exact hcall

end Request

/-! ## Answers -/

/-- The timer of an entry. -/
structure TimerOf (world : Requests ι κ) (channel : ι) (id : UInt64)
    (request : ChannelRequest κ) (t : RetryTimer ι κ) : Prop where
  here : world.timers[request.retryTimer]? = some t
  channel : t.channel = channel
  call : request.call = t.call
  callback : request.callback = t.callback
  number : id.toNat = request.retryTimer + 1
  state : t.state ≠ .cancelled
  unanswered : world.trace.filter (Observation.answers id) = []

omit [DecidableEq ι] in
theorem Placed.timer_of_entry (h : world.Placed)
    (hconsistent : world.Consistent) {channel : ι} {id : UInt64}
    {request : ChannelRequest κ}
    (hentry : (id, request) ∈ world.requestIdToRequest channel) :
    ∃ t, world.TimerOf channel id request t := by
  obtain ⟨index, t, htimer, hchannel, hnumber⟩ := h.owned channel _ hentry
  cases h.fates index t htimer with
  | pending own found hid hown hindex hcall hcallback hstate hnone =>
      obtain rfl : own = id :=
        UInt64.toNat_inj.mp (hid.trans hnumber.symm)
      rw [hchannel] at hown
      have hsorted := hconsistent.sorted channel
      have hfound := (RequestMap.find?_eq_some_iff hsorted).mpr ⟨hown, rfl⟩
      have hrequest :=
        (RequestMap.find?_eq_some_iff hsorted).mpr ⟨hentry, rfl⟩
      obtain rfl : found = request := by
        rw [hfound] at hrequest
        exact (Prod.mk.inj (Option.some.inj hrequest)).2
      exact ⟨t, {
        here := hindex ▸ htimer
        channel := hchannel
        call := hcall
        callback := hcallback
        number := hindex ▸ hnumber
        state := hstate
        unanswered := hnone }⟩
  | answered own hid habsent _ _ =>
      obtain rfl : own = id :=
        UInt64.toNat_inj.mp (hid.trans hnumber.symm)
      exact absurd rfl (habsent channel _ hentry)

/-- Its entry leaves the table, and only it. -/
theorem Placed.onResponse (h : world.Placed)
    (hconsistent : world.Consistent) (channel : ι) (id : UInt64) :
    (world.onResponse channel id).2.Placed := by
  have htable : ∀ {other : ι} {entry : UInt64 × ChannelRequest κ},
      entry ∈ (world.onResponse channel id).2.requestIdToRequest other ↔
        entry ∈ world.requestIdToRequest other ∧
          (other = channel → entry.1 ≠ id) :=
    mem_onResponse_table hconsistent.sorted
  rcases onResponse_cases (hconsistent.sorted channel) id with
    ⟨-, hignored⟩ | ⟨request, hentry, hanswered⟩
  · rw [hignored]
    exact h
  obtain ⟨own, hown⟩ := h.timer_of_entry hconsistent hentry
  have htimers : (world.onResponse channel id).2.timers =
      cancelTimer request.retryTimer world.timers := by rw [hanswered]
  have htrace : (world.onResponse channel id).2.trace = world.trace ++
      [.invoked channel request.call id request.callback] := by
    rw [hanswered]
  have hother : ∀ {number : UInt64}, number ≠ id →
      (world.onResponse channel id).2.trace.filter
          (Observation.answers number) =
        world.trace.filter (Observation.answers number) := by
    intro number hne
    rw [htrace, List.filter_append]
    have hnothing : [Observation.invoked channel request.call id
        request.callback].filter (Observation.answers number) = [] := by
      simp [Observation.answers, Ne.symm hne]
    rw [hnothing, List.append_nil]
  constructor
  · rw [htimers, length_cancelTimer, onResponse_drawn]
    exact h.drawn
  · intro index t htimer
    rw [htimers, getElem?_cancelTimer] at htimer
    obtain ⟨old, hold, rfl⟩ := Option.map_eq_some_iff.mp htimer
    by_cases heq : request.retryTimer = index
    · subst heq
      obtain rfl : own = old := Option.some.inj (hown.here.symm.trans hold)
      rw [if_pos rfl]
      refine .answered id hown.number (fun other entry hmem hid => ?_) ?_ ?_
      · obtain ⟨hthere, hgone⟩ := htable.mp hmem
        obtain ⟨position, t, hposition, hchannel, hnumber⟩ :=
          h.owned other entry hthere
        rw [hid, hown.number, Nat.add_right_cancel_iff] at hnumber
        rw [← hnumber, hown.here] at hposition
        cases hposition
        exact hgone (hchannel.symm.trans hown.channel) hid
      · cases own.state <;> simp [TimerState.cancel]
      · rw [htrace, List.filter_append, hown.unanswered, hown.channel.symm,
          hown.call, hown.callback]
        simp [Observation.answers]
    · rw [if_neg heq]
      have hne : ∀ number : UInt64, number.toNat = index + 1 →
          number ≠ id := by
        rintro number hnumber rfl
        have hsame := hown.number
        omega
      cases h.fates index old hold with
      | pending number found hid hthere htimer hcall hcallback hstate hnone =>
          refine .pending number found hid ?_ htimer hcall hcallback hstate
            ((hother (hne number hid)).trans hnone)
          exact htable.mpr ⟨hthere, fun _ => hne number hid⟩
      | answered number hid habsent hstate hone =>
          exact .answered number hid (fun other entry hmem =>
            habsent other entry (htable.mp hmem).1) hstate
            ((hother (hne number hid)).trans hone)
  · intro other entry hmem
    obtain ⟨index, t, htimer, howned⟩ := h.owned other entry (htable.mp hmem).1
    refine ⟨index, ?_⟩
    rw [htimers, getElem?_cancelTimer, htimer]
    refine ⟨_, rfl, ?_⟩
    split_ifs <;> exact howned
  · intro observation hobservation number hanswers
    rw [onResponse_requestId]
    rw [htrace] at hobservation
    rcases List.mem_append.mp hobservation with hold | hnew
    · exact h.answered observation hold number hanswers
    · rw [List.mem_singleton.mp hnew] at hanswers
      have hsame : id = number := by
        simpa [Observation.answers] using hanswers
      exact hsame ▸ hconsistent.keys_le channel _ hentry
  · intro t ht
    rw [htimers] at ht
    obtain ⟨old, hold, hcall, -⟩ := mem_of_mem_modify TimerState.cancel ht
    rw [hcall, onResponse_requested]
    exact h.made old hold

/-! ## Steps and runs -/

omit [DecidableEq ι] in
theorem Placed.setTimer {timer : ℕ} (h : world.Placed) {state : TimerState}
    (hcancelled : state ≠ .cancelled) (hwaiting : state ≠ .waiting) :
    (world.setTimer timer state).Placed where
  drawn := by
    rw [Requests.setTimer, List.length_modify]
    exact h.drawn
  fates index t htimer := by
    rw [Requests.setTimer, List.getElem?_modify] at htimer
    obtain ⟨old, hold, rfl⟩ := Option.map_eq_some_iff.mp htimer
    have hfate : (world.setTimer timer state).Fate index old :=
      (h.fates index old hold).of_same rfl rfl
    split_ifs
    · exact hfate.set_state hcancelled hwaiting
    · exact hfate
  owned channel entry hentry := by
    obtain ⟨index, t, htimer, howned⟩ := h.owned channel entry hentry
    refine ⟨index, ?_⟩
    rw [Requests.setTimer, List.getElem?_modify, htimer]
    refine ⟨_, rfl, ?_⟩
    split_ifs <;> exact howned
  answered := h.answered
  made t ht := by
    obtain ⟨old, hold, hcall, -⟩ := mem_of_mem_modify (fun _ => state) ht
    rw [hcall]
    exact h.made old hold

omit [DecidableEq ι] in
theorem Latest.setTimer {call index timer : ℕ} {state : TimerState}
    (h : Latest world.timers call index)
    (hkept : ∀ t, world.timers[timer]? = some t → t.call = call →
      (state = .fired ↔ t.state = .fired)) :
    Latest (world.setTimer timer state).timers call index :=
  h.modify (fun _ => state) hkept

omit [DecidableEq ι] in
/-- The handler that runs is the one of the last timer. -/
theorem Latest.fired {index timer : ℕ} {t : RetryTimer ι κ}
    (h : Latest world.timers t.call index)
    (htimer : world.timers[timer]? = some t) (hstate : t.state = .queued)
    (other : ℕ) (t' : RetryTimer ι κ)
    (hother : (world.setTimer timer .fired).timers[other]? = some t')
    (hcall : t'.call = t.call) : t'.state = .fired := by
  rw [Requests.setTimer, List.getElem?_modify] at hother
  obtain ⟨old, hold, rfl⟩ := Option.map_eq_some_iff.mp hother
  split_ifs at hcall ⊢ with heq
  · rfl
  · have hindex : timer = index := by
      refine (h.last timer t htimer rfl).2.resolve_right fun hfired => ?_
      rw [hstate] at hfired
      cases hfired
    refine (h.last other old hold hcall).2.resolve_left fun hsame => ?_
    exact heq (hindex.trans hsame.symm)

theorem Accounted.step {event : Event ι κ} (h : world.Accounted)
    (hconsistent : world.Consistent)
    (hstep : world.step rapid event = some next)
    (hdrawn : next.drawn < 2 ^ 64) : next.Accounted := by
  cases step_cases hstep with
  | request channel message callback sending =>
      have hbefore : ({ world with
          requested := world.requested ++ [message] } :
            Requests ι κ).Consistent :=
        ⟨hconsistent.counter, hconsistent.sorted, hconsistent.keys_le,
          hconsistent.wire⟩
      have hlength : (world.requested ++ [message]).length =
          world.requested.length + 1 := List.length_append ..
      have hplaced : ({ world with
          requested := world.requested ++ [message] } :
            Requests ι κ).Placed := by
        refine ⟨h.drawn, fun index t htimer =>
          (h.fates index t htimer).of_same rfl rfl, h.owned, h.answered,
          fun t ht => ?_⟩
        exact Nat.lt_of_lt_of_le (h.made t ht) (hlength ▸ Nat.le_succ _)
      refine ⟨hplaced.request hbefore hdrawn channel message callback
        world.requested.length sending (hlength ▸ Nat.lt_succ_self _), ?_⟩
      intro call hcall
      change call < (world.requested ++ [message]).length at hcall
      rw [userRequest, request_timers hbefore hdrawn]
      rcases Nat.lt_succ_iff_lt_or_eq.mp (hlength ▸ hcall) with hold | rfl
      · obtain ⟨index, hlatest⟩ := h.latest call hold
        exact ⟨index, hlatest.append (Nat.ne_of_gt hold)⟩
      · refine ⟨_, latest_concat rfl (by simp) fun other t hother hown => ?_⟩
        have hmade := h.made t (List.mem_of_getElem? hother)
        omega
  | expire timer t htimer hstate =>
      refine ⟨h.toPlaced.setTimer (by simp) (by simp), fun call hcall => ?_⟩
      obtain ⟨index, hlatest⟩ := h.latest call hcall
      refine ⟨index, hlatest.setTimer fun t' htimer' _ => ?_⟩
      rw [htimer] at htimer'
      rw [← Option.some.inj htimer', hstate]
      simp
  | fire timer t sending htimer hstate =>
      have hbefore : (world.setTimer timer .fired).Consistent :=
        ⟨hconsistent.counter, hconsistent.sorted, hconsistent.keys_le,
          hconsistent.wire⟩
      have hplaced : (world.setTimer timer .fired).Placed :=
        h.toPlaced.setTimer (by simp) (by simp)
      have hmade := h.made t (List.mem_of_getElem? htimer)
      refine ⟨hplaced.request hbefore hdrawn t.channel _ t.callback t.call
        sending hmade, fun call hcall => ?_⟩
      rw [request_timers hbefore hdrawn]
      obtain ⟨index, hlatest⟩ := h.latest call hcall
      by_cases hown : t.call = call
      · subst hown
        exact ⟨_, latest_concat rfl (by simp) (hlatest.fired htimer hstate)⟩
      · refine ⟨index, (hlatest.setTimer fun t' htimer' hcall' => ?_).append
          hown⟩
        rw [htimer] at htimer'
        rw [← Option.some.inj htimer'] at hcall'
        exact absurd hcall' hown
  | unanswered => exact h
  | answered channel payload override response =>
      refine ⟨h.toPlaced.onResponse hconsistent channel response.requestId,
        fun call hcall => ?_⟩
      rw [onResponse_requested] at hcall
      obtain ⟨index, hlatest⟩ := h.latest call hcall
      rcases onResponse_cases (hconsistent.sorted channel)
        response.requestId with ⟨-, hignored⟩ | ⟨request, -, hanswered⟩
      · rw [hignored]
        exact ⟨index, hlatest⟩
      · rw [hanswered]
        refine ⟨index, hlatest.modify TimerState.cancel fun t' _ _ => ?_⟩
        cases t'.state <;> simp [TimerState.cancel]

/-- The callback of the call was invoked. -/
def Completed (call : ℕ) (world : Requests ι κ) : Prop :=
  ∃ observation ∈ world.trace, observation.isInvocation call

/-- A request of the call is pending, and its timer waits, or its handler is
queued. -/
def Retrying (call : ℕ) (world : Requests ι κ) : Prop :=
  ∃ id request t, (id, request) ∈ world.requestIdToRequest t.channel ∧
    request.call = call ∧ world.timers[request.retryTimer]? = some t ∧
    t.call = call ∧ (t.state = .waiting ∨ t.state = .queued)

omit [DecidableEq ι] in
theorem Accounted.completed_or_retrying (h : world.Accounted) {call : ℕ}
    (hcall : call < world.requested.length) :
    world.Completed call ∨ world.Retrying call := by
  obtain ⟨index, hlatest⟩ := h.latest call hcall
  obtain ⟨t, htimer, hown, hfired⟩ := hlatest.here
  cases h.fates index t htimer with
  | pending id request hid hentry hindex hsame hcallback hstate hnone =>
      refine Or.inr ⟨id, request, t, hentry, hsame.trans hown,
        hindex ▸ htimer, hown, ?_⟩
      cases hcase : t.state with
      | waiting => exact Or.inl rfl
      | queued => exact Or.inr rfl
      | cancelled => exact absurd hcase hstate
      | fired => exact absurd hcase hfired
  | answered id hid habsent hstate hone =>
      have hinvoked : Observation.invoked t.channel t.call id t.callback ∈
          world.trace.filter (Observation.answers id) :=
        hone ▸ List.mem_singleton_self _
      refine Or.inl ⟨_, List.mem_of_mem_filter hinvoked, ?_⟩
      simpa [Observation.isInvocation] using hown

/-- No request is lost.  In every run that draws fewer than `2 ^ 64` ids, in
each state: every id drawn is pending on its channel and unanswered, or it is
pending nowhere and was answered exactly once, by its own callback; the last
timer of a call is the only one of the call whose handler has not run; and so
a call that was not completed has a pending request which will be
retransmitted. -/
theorem notLost_of_run {events : List (Event ι κ)} {last : Requests ι κ}
    (hrun : exec (Requests.step rapid) {} events = some last)
    (hdrawn : last.drawn < 2 ^ 64) :
    last.Accounted ∧ ∀ call, call < last.requested.length →
      last.Completed call ∨ last.Retrying call := by
  have hboth := exec_invariant
    (fun current : Requests ι κ => current.drawn < 2 ^ 64 →
      current.Consistent ∧ current.Accounted) ?_
    (fun _ => ⟨consistent_empty, accounted_empty⟩) hrun hdrawn
  · exact ⟨hboth.2, fun call hcall => hboth.2.completed_or_retrying hcall⟩
  · intro current event next hcurrent hstep hnext
    obtain ⟨hconsistent, haccounted⟩ :=
      hcurrent (Nat.lt_of_le_of_lt (drawn_le hstep) hnext)
    exact ⟨hconsistent.step hstep hnext,
      haccounted.step hconsistent hstep hnext⟩

/-- One call is retried, and an answer to its first id completes it; another
one waits. -/
def overtakenAnswer : List (Event ℕ Unit) :=
  [.request 0 (Json.null.set (lit "type") (.ofString (lit "GET_STATUS")))
      () (.ok ()),
    .request 1 (Json.null.set (lit "type") (.ofString (lit "PLAY")))
      () (.ok ()),
    .expire 0, .fire 0 (.ok ()),
    .message 0 (lit "\x7b\"requestId\":1,\"type\":\"RECEIVER_STATUS\"\x7d")
      fun _ => none]

theorem notLost_of_run_overtaken :
    ∃ last, exec (Requests.step textJson) {} overtakenAnswer = some last ∧
      last.trace.countP (Observation.isInvocation 0) = 1 ∧
      last.trace.countP (Observation.isInvocation 1) = 0 ∧
      last.Accounted ∧ ∀ call, call < last.requested.length →
        last.Completed call ∨ last.Retrying call := by
  have hsome : (exec (Requests.step textJson) {} overtakenAnswer).any
      fun last => decide (last.drawn < 2 ^ 64 ∧
        last.trace.countP (Observation.isInvocation 0) = 1 ∧
        last.trace.countP (Observation.isInvocation 1) = 0) := by
    decide +kernel
  obtain ⟨last, hlast, hfacts⟩ := (Option.any_eq_true _ _).mp hsome
  obtain ⟨hdrawn, honce, hnever⟩ := of_decide_eq_true hfacts
  exact ⟨last, hlast, honce, hnever, notLost_of_run hlast hdrawn⟩

end Requests

end LibChromecast
