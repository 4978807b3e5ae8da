import LibChromecast.Foundation.Projection
import LibChromecast.HeartbeatChannel
import LibChromecast.RequestAccounts

/-!
# The rate of retransmissions

The requests of a process, in time: a retry timer expires five seconds after
`Request` armed it.  In a run in which handlers run when their timer expires,
the transmissions of a call are five seconds apart, and as long as the call is
not completed none of them is missing.
-/

namespace LibChromecast

open Foundation Foundation.Transition

namespace Requests

/-- The default of `RequestChannel::Request`, which every call uses. -/
def requestRetryIntervalSeconds : ℕ := 5

def retryInterval : ℕ := seconds requestRetryIntervalSeconds

/-- How often a call was transmitted. -/
def sent {ι κ : Type} (call : ℕ) (world : Requests ι κ) : ℕ :=
  world.trace.countP (Observation.isFrame call)

/-! ## One call -/

section Punctual

variable {ι κ : Type} {timers : List (RetryTimer ι κ)} {deadlines : List ℕ}
  {now call start sent index : ℕ}

/-- The transmissions of a call made at `start` are on time: the timer at
`index`, the last one of the call, stands for the next one. -/
structure Punctual (now : ℕ) (timers : List (RetryTimer ι κ))
    (deadlines : List ℕ) (call start sent index : ℕ) : Prop where
  latest : Latest timers call index
  made : 0 < sent
  armed : deadlines[index]? = some (start + retryInterval * sent)
  reached : start + retryInterval * sent ≤ now + retryInterval
  ahead : ∀ t, timers[index]? = some t →
    t.state = .waiting ∨ t.state = .queued →
      now ≤ start + retryInterval * sent
  due : ∀ t, timers[index]? = some t → t.state = .queued →
    start + retryInterval * sent ≤ now

theorem Punctual.append {t : RetryTimer ι κ} (deadline : ℕ)
    (h : Punctual now timers deadlines call start sent index)
    (hother : t.call ≠ call) :
    Punctual now (timers ++ [t]) (deadlines ++ [deadline]) call start sent
      index := by
  obtain ⟨own, hindex, -⟩ := h.latest.here
  have hkept : (timers ++ [t])[index]? = timers[index]? :=
    List.getElem?_append_left (List.getElem?_eq_some_iff.mp hindex).1
  refine ⟨h.latest.append hother, h.made, ?_, h.reached, ?_, ?_⟩
  · rw [List.getElem?_append_left (List.getElem?_eq_some_iff.mp h.armed).1]
    exact h.armed
  · rw [hkept]
    exact h.ahead
  · rw [hkept]
    exact h.due

/-- The state of a timer changes, and its call still waits for the same
deadline. -/
theorem Punctual.modify (timer : ℕ) (change : TimerState → TimerState)
    (h : Punctual now timers deadlines call start sent index)
    (hfired : ∀ t, timers[timer]? = some t → t.call = call →
      (change t.state = .fired ↔ t.state = .fired))
    (hlive : ∀ t, timers[timer]? = some t →
      change t.state = .waiting ∨ change t.state = .queued →
        t.state = .waiting ∨ t.state = .queued)
    (hdue : ∀ t, timers[timer]? = some t → timer = index →
      change t.state = .queued →
        t.state = .queued ∨ start + retryInterval * sent ≤ now) :
    Punctual now
      (timers.modify timer fun t => { t with state := change t.state })
      deadlines call start sent index := by
  have hcases : ∀ t, (timers.modify timer fun t =>
      { t with state := change t.state })[index]? = some t →
        ∃ old, timers[index]? = some old ∧
          (timer = index ∧ t.state = change old.state ∨
            t.state = old.state) := by
    intro t ht
    rw [List.getElem?_modify] at ht
    obtain ⟨old, hold, rfl⟩ := Option.map_eq_some_iff.mp ht
    refine ⟨old, hold, ?_⟩
    split_ifs with heq
    · exact Or.inl ⟨heq, rfl⟩
    · exact Or.inr rfl
  refine ⟨h.latest.modify change hfired, h.made, h.armed, h.reached, ?_, ?_⟩
  · intro t ht hstate
    obtain ⟨old, hold, ⟨rfl, hsame⟩ | hsame⟩ := hcases t ht
    · exact h.ahead old hold (hlive old hold (hsame ▸ hstate))
    · exact h.ahead old hold (hsame ▸ hstate)
  · intro t ht hstate
    obtain ⟨old, hold, ⟨rfl, hsame⟩ | hsame⟩ := hcases t ht
    · rcases hdue old hold rfl (hsame ▸ hstate) with hqueued | hreached
      · exact h.due old hold hqueued
      · exact hreached
    · exact h.due old hold (hsame ▸ hstate)

/-- A transmission, with the timer for the next one. -/
theorem punctual_concat {t : RetryTimer ι κ} (hcall : t.call = call)
    (hwaiting : t.state = .waiting)
    (hfired : ∀ (other : ℕ) (t' : RetryTimer ι κ),
      timers[other]? = some t' → t'.call = call → t'.state = .fired)
    (hlength : deadlines.length = timers.length)
    (hnow : start + retryInterval * sent = now) :
    Punctual now (timers ++ [t]) (deadlines ++ [now + retryInterval]) call
      start (sent + 1) timers.length := by
  have hnext : start + retryInterval * (sent + 1) = now + retryInterval := by
    rw [Nat.mul_succ, ← Nat.add_assoc, hnow]
  refine ⟨latest_concat hcall (by simp [hwaiting]) hfired,
    Nat.succ_pos _, ?_, ?_, ?_, ?_⟩
  · rw [hnext, ← hlength]
    exact List.getElem?_concat_length
  · exact Nat.le_of_eq hnext
  · intro _ _ _
    rw [hnext]
    exact Nat.le_add_right _ _
  · intro own hown hqueued
    rw [List.getElem?_concat_length, Option.some.injEq] at hown
    rw [← hown, hwaiting] at hqueued
    cases hqueued

theorem Punctual.elapse {duration : ℕ}
    (h : Punctual now timers deadlines call start sent index)
    (hruns : ∀ pair ∈ timers.zip deadlines, pair.1.state ≠ .queued ∧
      (pair.1.state = .waiting → now + duration ≤ pair.2)) :
    Punctual (now + duration) timers deadlines call start sent index := by
  have hpair : ∀ t, timers[index]? = some t →
      (t, start + retryInterval * sent) ∈ timers.zip deadlines := by
    intro t ht
    apply List.mem_of_getElem? (i := index)
    rw [List.getElem?_zip_eq_some]
    exact ⟨ht, h.armed⟩
  refine ⟨h.latest, h.made, h.armed, ?_, ?_, ?_⟩
  · exact Nat.le_trans h.reached (by omega)
  · intro t ht hstate
    obtain ⟨hqueued, hdeadline⟩ := hruns _ (hpair t ht)
    exact hdeadline (hstate.resolve_right hqueued)
  · intro t ht hqueued
    exact absurd hqueued (hruns _ (hpair t ht)).1

end Punctual

/-! ## What is transmitted -/

section Sent

variable {ι κ : Type} [DecidableEq ι] {rapid : RapidJson}

theorem sent_request (channel : ι) (message : Json) (callback : κ)
    (call other : ℕ) (world : Requests ι κ) :
    (world.request rapid channel message callback call (.ok ())).2.sent
        other =
      world.sent other + if call = other then 1 else 0 := by
  unfold sent
  rw [request_trace, List.countP_append, List.countP_singleton]
  simp [Observation.isFrame]

theorem sent_onResponse (channel : ι) (id : UInt64) (call : ℕ)
    (world : Requests ι κ) :
    (world.onResponse channel id).2.sent call = world.sent call := by
  unfold sent onResponse
  dsimp only
  split
  · rfl
  · rw [List.countP_append, List.countP_singleton]
    rfl

variable {world : Requests ι κ} (hconsistent : world.Consistent)
  (hdrawn : world.drawn + 1 < 2 ^ 64) {deadlines : List ℕ}
  {now call other start index : ℕ} (channel : ι) (message : Json)
  (callback : κ)

include hconsistent hdrawn

theorem Punctual.request (hother : call ≠ other)
    (h : Punctual now world.timers deadlines other start (world.sent other)
      index) :
    Punctual now
      (world.request rapid channel message callback call (.ok ())).2.timers
      (deadlines ++ [now + retryInterval]) other start
      ((world.request rapid channel message callback call
        (.ok ())).2.sent other) index := by
  rw [request_timers hconsistent hdrawn, sent_request, if_neg hother]
  exact h.append _ hother

theorem punctual_request (hlength : deadlines.length = world.timers.length)
    (hfired : ∀ (position : ℕ) (t : RetryTimer ι κ),
      world.timers[position]? = some t → t.call = call → t.state = .fired)
    (hnow : start + retryInterval * world.sent call = now) :
    Punctual now
      (world.request rapid channel message callback call (.ok ())).2.timers
      (deadlines ++ [now + retryInterval]) call start
      ((world.request rapid channel message callback call
        (.ok ())).2.sent call) world.timers.length := by
  rw [request_timers hconsistent hdrawn, sent_request, if_pos rfl]
  exact punctual_concat rfl rfl hfired hlength hnow

end Sent

end Requests

/-! ## The clock -/

/-- The requests and the time; `deadlines` has the expiry of each timer of
`world`.  `called` is not in the source: when each call of a user was made. -/
structure RequestClock (ι κ : Type) where
  world : Requests ι κ := {}
  now : ℕ := 0
  deadlines : List ℕ := []
  called : List ℕ := []

namespace RequestClock

inductive Event (ι κ : Type) where
  | elapse (duration : ℕ)
  | occur (event : Requests.Event ι κ)

variable {ι κ : Type}

def Event.occurred : Event ι κ → Option (Requests.Event ι κ)
  | .elapse _ => none
  | .occur event => some event

/-- A wait expires once its deadline has come. -/
def Due (clock : RequestClock ι κ) : Requests.Event ι κ → Prop
  | .expire timer =>
      ∀ deadline ∈ clock.deadlines[timer]?, deadline ≤ clock.now
  | .request .. | .fire .. | .message .. => True

instance (clock : RequestClock ι κ) : (event : Requests.Event ι κ) →
    Decidable (clock.Due event)
  | .expire timer => inferInstanceAs (Decidable
      (∀ deadline ∈ clock.deadlines[timer]?, deadline ≤ clock.now))
  | .request .. | .fire .. | .message .. => .isTrue trivial

/-- `expires_from_now` for the timer that `Request` makes. -/
def arm (clock : RequestClock ι κ) : RequestClock ι κ :=
  { clock with
    deadlines := clock.deadlines ++ [clock.now + Requests.retryInterval] }

def follow (clock : RequestClock ι κ) :
    Requests.Event ι κ → RequestClock ι κ
  | .request .. => { clock.arm with called := clock.called ++ [clock.now] }
  | .fire .. => clock.arm
  | .expire _ | .message .. => clock

variable [DecidableEq ι]

def step (rapid : RapidJson) (clock : RequestClock ι κ) :
    Event ι κ → Option (RequestClock ι κ)
  | .elapse duration => some { clock with now := clock.now + duration }
  | .occur event =>
      if clock.Due event then
        (clock.world.step rapid event).map fun world =>
          { clock.follow event with world }
      else none

omit [DecidableEq ι] in
/-- Handlers run when their timer expires, and sends do not fail. -/
def Timely (clock : RequestClock ι κ) : Event ι κ → Prop
  | .elapse duration =>
      ∀ pair ∈ clock.world.timers.zip clock.deadlines,
        pair.1.state ≠ .queued ∧
          (pair.1.state = .waiting → clock.now + duration ≤ pair.2)
  | .occur (.request _ _ _ sending) | .occur (.fire _ sending) =>
      sending = .ok ()
  | .occur (.expire _) | .occur (.message ..) => True

omit [DecidableEq ι] in
instance (clock : RequestClock ι κ) :
    (event : Event ι κ) → Decidable (clock.Timely event)
  | .elapse duration => inferInstanceAs (Decidable
      (∀ pair ∈ clock.world.timers.zip clock.deadlines,
        pair.1.state ≠ .queued ∧
          (pair.1.state = .waiting → clock.now + duration ≤ pair.2)))
  | .occur (.request _ _ _ sending) | .occur (.fire _ sending) =>
      inferInstanceAs (Decidable (sending = .ok ()))
  | .occur (.expire _) | .occur (.message ..) => .isTrue trivial

/-- Without the time it is a run of the requests. -/
theorem component (rapid : RapidJson) :
    Component (fun clock : RequestClock ι κ => clock.step rapid)
      (Requests.step rapid) RequestClock.world Event.occurred where
  moves := by
    intro clock event next selected hstep hselect
    cases event with
    | elapse duration => cases hselect
    | occur event =>
        cases hselect
        simp only [step, Option.ite_none_right_eq_some] at hstep
        obtain ⟨world, hworld, rfl⟩ := Option.map_eq_some_iff.mp hstep.2
        exact hworld
  stays := by
    intro clock event next hstep hselect
    cases event with
    | elapse duration =>
        cases hstep
        rfl
    | occur event => cases hselect

/-! ## Steps -/

/-- Every call is on time. -/
structure Scheduled (clock : RequestClock ι κ) : Prop where
  deadlines : clock.deadlines.length = clock.world.timers.length
  called : clock.called.length = clock.world.requested.length
  unmade : ∀ call, clock.world.requested.length ≤ call →
    clock.world.sent call = 0
  punctual : ∀ call start, clock.called[call]? = some start →
    ∃ index, Requests.Punctual clock.now clock.world.timers clock.deadlines
      call start (clock.world.sent call) index

variable {rapid : RapidJson} {clock next : RequestClock ι κ}

omit [DecidableEq ι] in
theorem Scheduled.elapse {duration : ℕ} (h : clock.Scheduled)
    (htimely : clock.Timely (.elapse duration)) :
    ({ clock with now := clock.now + duration } :
      RequestClock ι κ).Scheduled where
  deadlines := h.deadlines
  called := h.called
  unmade := h.unmade
  punctual call start hcall := by
    obtain ⟨index, hpunctual⟩ := h.punctual call start hcall
    exact ⟨index, hpunctual.elapse htimely⟩

/-- A user calls. -/
theorem Scheduled.request (h : clock.Scheduled)
    (hconsistent : clock.world.Consistent)
    (haccounted : clock.world.Accounted)
    (hdrawn : clock.world.drawn + 1 < 2 ^ 64) (channel : ι)
    (message : Json) (callback : κ) :
    ({ clock.arm with
      called := clock.called ++ [clock.now]
      world := (clock.world.userRequest rapid channel message callback
        (.ok ())).2 } : RequestClock ι κ).Scheduled := by
  have hbefore : ({ clock.world with
      requested := clock.world.requested ++ [message] } :
        Requests ι κ).Consistent :=
    ⟨hconsistent.counter, hconsistent.sorted, hconsistent.keys_le,
      hconsistent.wire⟩
  have hnew := h.unmade _ (Nat.le_refl clock.world.requested.length)
  constructor
  · change (clock.deadlines ++ [_]).length = _
    rw [Requests.userRequest, Requests.request_timers hbefore hdrawn,
      List.length_append, List.length_append, h.deadlines]
    rfl
  · change (clock.called ++ [_]).length =
      (clock.world.requested ++ [message]).length
    rw [List.length_append, List.length_append, h.called]
    rfl
  · intro call hcall
    change (clock.world.requested ++ [message]).length ≤ call at hcall
    rw [List.length_append, List.length_singleton] at hcall
    change Requests.sent call (clock.world.userRequest rapid channel message
      callback (.ok ())).2 = 0
    rw [Requests.userRequest, Requests.sent_request, if_neg (by omega)]
    exact h.unmade call (by omega)
  · intro call start hcall
    change (clock.called ++ [clock.now])[call]? = some start at hcall
    by_cases hlt : call < clock.called.length
    · rw [List.getElem?_append_left hlt] at hcall
      obtain ⟨index, hpunctual⟩ := h.punctual call start hcall
      exact ⟨index, Requests.Punctual.request hbefore hdrawn channel message
        callback (by have hsame := h.called; omega) hpunctual⟩
    · rw [List.getElem?_append_right (Nat.not_lt.mp hlt)] at hcall
      obtain ⟨hzero, hstart⟩ := List.getElem?_eq_some_iff.mp hcall
      rw [List.length_singleton] at hzero
      obtain rfl : clock.world.requested.length = call := by
        have hsame := h.called
        omega
      refine ⟨_, Requests.punctual_request hbefore hdrawn channel message
        callback h.deadlines (fun position t ht hown => ?_) ?_⟩
      · have hmade := haccounted.made t (List.mem_of_getElem? ht)
        omega
      · change start + Requests.retryInterval * clock.world.sent _ = _
        rw [hnew, ← hstart, List.getElem_singleton]
        rfl

/-- The handler of a timer that has expired runs, and it is the one of the last
timer of its call. -/
theorem Scheduled.fire {timer : ℕ} {t : RetryTimer ι κ} (h : clock.Scheduled)
    (hconsistent : clock.world.Consistent)
    (haccounted : clock.world.Accounted)
    (hdrawn : clock.world.drawn + 1 < 2 ^ 64)
    (htimer : clock.world.timers[timer]? = some t)
    (hstate : t.state = .queued) :
    ({ clock.arm with
      world := ((clock.world.setTimer timer .fired).request rapid t.channel
        (rapid.copy t.message) t.callback t.call (.ok ())).2 } :
          RequestClock ι κ).Scheduled := by
  have hbefore : (clock.world.setTimer timer .fired).Consistent :=
    ⟨hconsistent.counter, hconsistent.sorted, hconsistent.keys_le,
      hconsistent.wire⟩
  have hlength : (clock.world.setTimer timer .fired).timers.length =
      clock.world.timers.length := List.length_modify _ _ _
  have hmade := haccounted.made t (List.mem_of_getElem? htimer)
  constructor
  · change (clock.deadlines ++ [_]).length = _
    rw [Requests.request_timers hbefore hdrawn, List.length_append,
      List.length_append, h.deadlines, hlength]
    rfl
  · exact h.called
  · intro call hcall
    change clock.world.requested.length ≤ call at hcall
    change Requests.sent call ((clock.world.setTimer timer .fired).request
      rapid t.channel (rapid.copy t.message) t.callback t.call
        (.ok ())).2 = 0
    rw [Requests.sent_request, if_neg (by omega)]
    exact h.unmade call hcall
  · intro call start hcall
    obtain ⟨index, hpunctual⟩ := h.punctual call start hcall
    by_cases hown : t.call = call
    · subst hown
      have hindex : timer = index := by
        refine (hpunctual.latest.last timer t htimer rfl).2.resolve_right
          fun hfired => ?_
        rw [hstate] at hfired
        cases hfired
      subst hindex
      have hnow : start + Requests.retryInterval *
          (clock.world.setTimer timer .fired).sent t.call = clock.now :=
        Nat.le_antisymm (hpunctual.due t htimer hstate)
          (hpunctual.ahead t htimer (Or.inr hstate))
      exact ⟨_, Requests.punctual_request hbefore hdrawn t.channel _
        t.callback (h.deadlines.trans hlength.symm)
        (hpunctual.latest.fired htimer hstate) hnow⟩
    · have hset := hpunctual.modify timer (fun _ => .fired)
        (fun t' ht' hcall' => by
          rw [htimer, Option.some.injEq] at ht'
          exact absurd (ht' ▸ hcall') hown)
        (fun _ _ hlive => by simp at hlive)
        (fun _ _ _ hqueued => by cases hqueued)
      exact ⟨index, Requests.Punctual.request hbefore hdrawn t.channel _
        t.callback hown hset⟩

omit [DecidableEq ι] in
theorem Scheduled.expire {timer : ℕ} {t : RetryTimer ι κ}
    (h : clock.Scheduled) (hdue : clock.Due (.expire timer))
    (htimer : clock.world.timers[timer]? = some t)
    (hstate : t.state = .waiting) :
    ({ clock with world := clock.world.setTimer timer .queued } :
      RequestClock ι κ).Scheduled where
  deadlines := h.deadlines.trans (List.length_modify _ _ _).symm
  called := h.called
  unmade := h.unmade
  punctual call start hcall := by
    obtain ⟨index, hpunctual⟩ := h.punctual call start hcall
    have hwaiting : ∀ t', clock.world.timers[timer]? = some t' →
        t'.state = .waiting := by
      intro t' ht'
      rw [htimer, Option.some.injEq] at ht'
      exact ht' ▸ hstate
    refine ⟨index, hpunctual.modify timer (fun _ => .queued) ?_ ?_ ?_⟩
    · intro t' ht' _
      simp [hwaiting t' ht']
    · intro t' ht' _
      exact Or.inl (hwaiting t' ht')
    · rintro t' - rfl -
      exact Or.inr (hdue _ hpunctual.armed)

/-- Nothing is transmitted for an answer. -/
theorem Scheduled.answer (h : clock.Scheduled)
    (hconsistent : clock.world.Consistent) (channel : ι) (id : UInt64) :
    ({ clock with world := (clock.world.onResponse channel id).2 } :
      RequestClock ι κ).Scheduled := by
  rcases Requests.onResponse_cases (hconsistent.sorted channel) id with
    ⟨-, hignored⟩ | ⟨request, -, hanswered⟩
  · rw [hignored]
    exact h
  have htimers : (clock.world.onResponse channel id).2.timers =
      Requests.cancelTimer request.retryTimer clock.world.timers := by
    rw [hanswered]
  constructor
  · change clock.deadlines.length = _
    rw [htimers, Requests.length_cancelTimer]
    exact h.deadlines
  · change clock.called.length = _
    rw [Requests.onResponse_requested]
    exact h.called
  · intro call hcall
    rw [Requests.onResponse_requested] at hcall
    rw [Requests.sent_onResponse]
    exact h.unmade call hcall
  · intro call start hcall
    obtain ⟨index, hpunctual⟩ := h.punctual call start hcall
    refine ⟨index, ?_⟩
    rw [Requests.sent_onResponse, htimers]
    refine hpunctual.modify _ TimerState.cancel ?_ ?_ ?_
    · intro t _ _
      cases t.state <;> simp [TimerState.cancel]
    · intro t _ hlive
      cases hcase : t.state <;> simp_all [TimerState.cancel]
    · intro t _ _ hqueued
      cases hcase : t.state <;> simp_all [TimerState.cancel]

theorem Scheduled.step {event : Event ι κ} (h : clock.Scheduled)
    (hconsistent : clock.world.Consistent)
    (haccounted : clock.world.Accounted) (htimely : clock.Timely event)
    (hstep : clock.step rapid event = some next)
    (hdrawn : next.world.drawn < 2 ^ 64) : next.Scheduled := by
  cases event with
  | elapse duration =>
      cases hstep
      exact h.elapse htimely
  | occur event =>
      simp only [RequestClock.step, Option.ite_none_right_eq_some] at hstep
      obtain ⟨hdue, hmoved⟩ := hstep
      obtain ⟨world, hworld, rfl⟩ := Option.map_eq_some_iff.mp hmoved
      cases Requests.step_cases hworld with
      | request channel message callback sending =>
          obtain rfl : sending = .ok () := htimely
          exact h.request hconsistent haccounted hdrawn channel message
            callback
      | expire timer t htimer hstate => exact h.expire hdue htimer hstate
      | fire timer t sending htimer hstate =>
          obtain rfl : sending = .ok () := htimely
          exact h.fire hconsistent haccounted hdrawn htimer hstate
      | unanswered => exact h
      | answered channel payload override response =>
          exact h.answer hconsistent channel response.requestId

/-! ## Runs -/

omit [DecidableEq ι] in
theorem scheduled_empty : ({} : RequestClock ι κ).Scheduled where
  deadlines := rfl
  called := rfl
  unmade _ _ := rfl
  punctual call start hcall := by cases hcall

/-- As long as no id is drawn twice. -/
def Kept (clock : RequestClock ι κ) : Prop :=
  clock.world.drawn < 2 ^ 64 →
    clock.world.Consistent ∧ clock.world.Accounted ∧ clock.Scheduled

theorem Kept.step {event : Event ι κ} (h : clock.Kept)
    (htimely : clock.Timely event)
    (hstep : clock.step rapid event = some next) : next.Kept := by
  intro hdrawn
  cases hselect : event.occurred with
  | none =>
      have hsame := (component rapid).stays hstep hselect
      rw [hsame] at hdrawn ⊢
      obtain ⟨hconsistent, haccounted, hscheduled⟩ := h hdrawn
      exact ⟨hconsistent, haccounted, hscheduled.step hconsistent haccounted
        htimely hstep (hsame ▸ hdrawn)⟩
  | some selected =>
      have hworld := (component rapid).moves hstep hselect
      obtain ⟨hconsistent, haccounted, hscheduled⟩ :=
        h (Nat.lt_of_le_of_lt (Requests.drawn_le hworld) hdrawn)
      exact ⟨hconsistent.step hworld hdrawn,
        haccounted.step hconsistent hworld hdrawn,
        hscheduled.step hconsistent haccounted htimely hstep hdrawn⟩

/-- Retransmissions keep time.  Every timed run is a run of the requests.  If it
draws fewer than `2 ^ 64` ids, handlers run when their timer expires and sends
do not fail, then a call is transmitted when it is made and from then on at
most once in five seconds, whoever answers it; and as long as it is not
completed, exactly every five seconds. -/
theorem transmissions_of_run {events : List (Event ι κ)}
    {last : RequestClock ι κ}
    (hrun : exec (fun clock : RequestClock ι κ => clock.step rapid) {}
      events = some last)
    (htimely : Along (fun clock : RequestClock ι κ => clock.step rapid)
      Timely {} events)
    (hdrawn : last.world.drawn < 2 ^ 64) :
    exec (Requests.step rapid) {} (events.filterMap Event.occurred) =
        some last.world ∧
      last.called.length = last.world.requested.length ∧
      ∀ call start, last.called[call]? = some start →
        0 < last.world.sent call ∧
          start + Requests.retryInterval * last.world.sent call ≤
            last.now + Requests.retryInterval ∧
          (¬last.world.Completed call →
            last.now ≤
              start + Requests.retryInterval * last.world.sent call) := by
  have hempty : ({} : RequestClock ι κ).Kept := fun _ =>
    ⟨Requests.consistent_empty, Requests.accounted_empty, scheduled_empty⟩
  obtain ⟨-, haccounted, hscheduled⟩ := exec_invariant_along
    (fun _ _ _ hkept hevent hstep => Kept.step hkept hevent hstep) hempty
    htimely hrun hdrawn
  refine ⟨(component rapid).exec hrun, hscheduled.called,
    fun call start hcall => ?_⟩
  obtain ⟨index, hpunctual⟩ := hscheduled.punctual call start hcall
  refine ⟨hpunctual.made, hpunctual.reached, fun hopen => ?_⟩
  have hmade : call < last.world.requested.length :=
    hscheduled.called ▸ (List.getElem?_eq_some_iff.mp hcall).1
  -- the timer of the pending request is the last one of the call
  obtain ⟨id, request, t, -, -, htimer, hown, hlive⟩ :=
    (haccounted.completed_or_retrying hmade).resolve_left hopen
  have hindex : request.retryTimer = index := by
    refine (hpunctual.latest.last _ t htimer hown).2.resolve_right
      fun hfired => ?_
    rw [hfired] at hlive
    simp at hlive
  exact hpunctual.ahead t (hindex ▸ htimer) hlive

/-- Two calls; the first one is transmitted again and then answered. -/
def retriedAnswer : List (Event ℕ Unit) :=
  [.occur (.request 0
      (Json.null.set (lit "type") (.ofString (lit "GET_STATUS"))) ()
      (.ok ())),
    .elapse (seconds 2),
    .occur (.request 1 (Json.null.set (lit "type") (.ofString (lit "PLAY")))
      () (.ok ())),
    .elapse (seconds 3), .occur (.expire 0), .occur (.fire 0 (.ok ())),
    .occur (.message 0
      (lit "\x7b\"requestId\":1,\"type\":\"RECEIVER_STATUS\"\x7d")
      fun _ => none),
    .elapse (seconds 1)]

theorem transmissions_of_run_retried :
    ∃ last, exec (fun clock : RequestClock ℕ Unit => clock.step textJson) {}
        retriedAnswer = some last ∧
      last.world.sent 0 = 2 ∧ last.world.sent 1 = 1 ∧
      exec (Requests.step textJson) {}
        (retriedAnswer.filterMap Event.occurred) = some last.world ∧
      last.called.length = last.world.requested.length ∧
      ∀ call start, last.called[call]? = some start →
        0 < last.world.sent call ∧
          start + Requests.retryInterval * last.world.sent call ≤
            last.now + Requests.retryInterval ∧
          (¬last.world.Completed call →
            last.now ≤
              start + Requests.retryInterval * last.world.sent call) := by
  have hsome : (exec (fun clock : RequestClock ℕ Unit =>
      clock.step textJson) {} retriedAnswer).any fun last =>
        decide (last.world.drawn < 2 ^ 64 ∧ last.world.sent 0 = 2 ∧
          last.world.sent 1 = 1) := by
    decide +kernel
  obtain ⟨last, hlast, hfacts⟩ := (Option.any_eq_true _ _).mp hsome
  obtain ⟨hdrawn, htwice, honce⟩ := of_decide_eq_true hfacts
  exact ⟨last, hlast, htwice, honce,
    transmissions_of_run hlast (by decide +kernel) hdrawn⟩

end RequestClock

end LibChromecast
