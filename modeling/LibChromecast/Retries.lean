import LibChromecast.RequestCorrelation

/-!
# Retries and completion

When a retry timer's handler runs it registers a second entry with the same
callback, and nothing takes the first one out.  A call completes at most once,
with one entry and in silence afterwards, as long as none of its handlers
runs; each of them that runs while the call is pending leaves two entries.
-/

namespace LibChromecast

open Foundation Foundation.Transition

namespace Observation

variable {ι κ : Type}

def isFrame (call : ℕ) : Observation ι κ → Bool
  | .frame _ own _ => own == call
  | .invoked .. => false

def isInvocation (call : ℕ) : Observation ι κ → Bool
  | .frame .. => false
  | .invoked _ own _ _ => own == call

end Observation

namespace Requests

variable {ι κ : Type}

/-! ## At most once -/

/-- The callback of the call was invoked at most once, one entry at most
belongs to it, and nothing was transmitted for it after the invocation. -/
structure AtMostOnce (call : ℕ) (world : Requests ι κ) : Prop where
  invoked_once : world.trace.countP (Observation.isInvocation call) ≤ 1
  one_entry : ∀ channel other,
    ∀ entry ∈ world.requestIdToRequest channel,
      ∀ entry' ∈ world.requestIdToRequest other,
        entry.2.call = call → entry'.2.call = call →
          channel = other ∧ entry = entry'
  silent : world.trace.Pairwise fun earlier later =>
    earlier.isInvocation call → ¬later.isFrame call

def NoEntry (call : ℕ) (world : Requests ι κ) : Prop :=
  ∀ channel, ∀ entry ∈ world.requestIdToRequest channel,
    entry.2.call ≠ call

/-- A call none of whose retry handlers has run. -/
structure Unretried (call : ℕ) (world : Requests ι κ) : Prop where
  sorted : ∀ channel, OrderedMap.Sorted RequestMap.less
    (world.requestIdToRequest channel)
  atMostOnce : AtMostOnce call world
  answered : ∀ observation ∈ world.trace,
    observation.isInvocation call → NoEntry call world
  unmade : world.requested.length ≤ call → NoEntry call world ∧
    ∀ observation ∈ world.trace,
      ¬observation.isInvocation call ∧ ¬observation.isFrame call

theorem unretried_empty (call : ℕ) :
    ({} : Requests ι κ).Unretried call where
  sorted _ := OrderedMap.sorted_nil _
  atMostOnce := by
    refine ⟨Nat.zero_le _, ?_, List.Pairwise.nil⟩
    intro channel other entry hentry
    contradiction
  answered := by
    intro observation hobservation
    contradiction
  unmade _ := by
    refine ⟨?_, ?_⟩
    · intro channel entry hentry
      contradiction
    · intro observation hobservation
      contradiction

variable [DecidableEq ι] {rapid : RapidJson}

def NotRetried (call : ℕ) (world : Requests ι κ) : Event ι κ → Prop
  | .fire timer _ => ∀ t ∈ world.timers[timer]?, t.call ≠ call
  | _ => True

instance (call : ℕ) (world : Requests ι κ) :
    (event : Event ι κ) → Decidable (NotRetried call world event)
  | .fire timer _ =>
      inferInstanceAs
        (Decidable (∀ t ∈ world.timers[timer]?, t.call ≠ call))
  | .request .. => .isTrue trivial
  | .expire _ => .isTrue trivial
  | .message .. => .isTrue trivial

theorem request_trace_cases (rapid : RapidJson) (world : Requests ι κ)
    (channel : ι) (message : Json) (callback : κ) (own : ℕ)
    (sending : Outcome Unit) :
    ∃ added : List (Observation ι κ),
      (world.request rapid channel message callback own
          sending).2.trace = world.trace ++ added ∧
        ∀ observation ∈ added, ∀ call,
          ¬observation.isInvocation call ∧
            (observation.isFrame call → own = call) := by
  rw [request_trace]
  refine ⟨_, rfl, ?_⟩
  cases sending with
  | error fault =>
      intro observation hobservation
      contradiction
  | ok _ =>
      intro observation hobservation call
      rw [List.mem_singleton.mp hobservation]
      simp [Observation.isInvocation, Observation.isFrame]

theorem Unretried.request {call : ℕ} {world : Requests ι κ}
    (h : world.Unretried call) (channel : ι) (message : Json)
    (callback : κ) (own : ℕ) (sending : Outcome Unit)
    (hown : own = call → NoEntry call world ∧
      ∀ observation ∈ world.trace, ¬observation.isInvocation call)
    (hmade : world.requested.length ≤ call → own ≠ call) :
    (world.request rapid channel message callback own
      sending).2.Unretried call := by
  obtain ⟨added, htrace, hadded⟩ := request_trace_cases rapid world
    channel message callback own sending
  have hfirst : ∀ other, ∀ entry ∈ (world.request rapid channel message
      callback own sending).2.requestIdToRequest other,
      entry.2.call = call →
        entry ∈ world.requestIdToRequest other ∨
          (own = call ∧ other = channel ∧ entry =
            (world.requestId + 1,
              ⟨world.timers.length, callback, own⟩)) := by
    intro other entry hentry hcall
    rcases mem_request_table h.sorted hentry with hold | ⟨hother, hnew⟩
    · exact Or.inl hold
    · rw [hnew] at hcall
      exact Or.inr ⟨hcall, hother, hnew⟩
  refine ⟨sorted_request_table h.sorted _ _ _ _ _, ⟨?_, ?_, ?_⟩, ?_, ?_⟩
  · have hnone : added.countP (Observation.isInvocation call) = 0 :=
      List.countP_eq_zero.mpr fun o ho => (hadded o ho call).1
    rw [htrace, List.countP_append, hnone]
    exact h.atMostOnce.invoked_once
  · intro first second entry hentry entry' hentry' hcall hcall'
    rcases hfirst first entry hentry hcall with
      hold | ⟨hmine, hchannel, hnew⟩
    · rcases hfirst second entry' hentry' hcall' with
        hold' | ⟨hmine, -, -⟩
      · exact h.atMostOnce.one_entry first second entry hold entry' hold'
          hcall hcall'
      · exact absurd hcall ((hown hmine).1 first entry hold)
    · rcases hfirst second entry' hentry' hcall' with
        hold' | ⟨-, hchannel', hnew'⟩
      · exact absurd hcall' ((hown hmine).1 second entry' hold')
      · exact ⟨hchannel.trans hchannel'.symm, hnew.trans hnew'.symm⟩
  · rw [htrace, List.pairwise_append]
    refine ⟨h.atMostOnce.silent, ?_, ?_⟩
    · apply List.pairwise_of_forall_mem_list
      intro earlier hearlier later _ hinvoked
      exact absurd hinvoked (hadded earlier hearlier call).1
    · intro earlier hearlier later hlater hinvoked hframe
      have hmine := (hadded later hlater call).2 hframe
      exact (hown hmine).2 earlier hearlier hinvoked
  · intro observation hobservation hinvoked other entry hentry hcall
    rw [htrace] at hobservation
    rcases List.mem_append.mp hobservation with hold | hnew
    · rcases hfirst other entry hentry hcall with
        hbefore | ⟨hmine, -, -⟩
      · exact h.answered observation hold hinvoked other entry hbefore
          hcall
      · exact (hown hmine).2 observation hold hinvoked
    · exact absurd hinvoked (hadded observation hnew call).1
  · intro hlength
    rw [request_requested] at hlength
    have hother := hmade hlength
    obtain ⟨hentries, htraces⟩ := h.unmade hlength
    refine ⟨?_, ?_⟩
    · intro other entry hentry hcall
      rcases hfirst other entry hentry hcall with hbefore | ⟨hmine, -, -⟩
      · exact hentries other entry hbefore hcall
      · exact hother hmine
    · intro observation hobservation
      rw [htrace] at hobservation
      rcases List.mem_append.mp hobservation with hold | hnew
      · exact htraces observation hold
      · exact ⟨(hadded observation hnew call).1,
          fun hframe => hother ((hadded observation hnew call).2 hframe)⟩

theorem Unretried.onResponse {call : ℕ} {world : Requests ι κ}
    (h : world.Unretried call) (channel : ι) (id : UInt64) :
    (world.onResponse channel id).2.Unretried call := by
  have hsub : ∀ other, ∀ entry ∈ (world.onResponse channel
      id).2.requestIdToRequest other,
      entry ∈ world.requestIdToRequest other ∧
        (other = channel → entry.1 ≠ id) :=
    fun _ _ => (mem_onResponse_table h.sorted).mp
  have hsorted := sorted_onResponse_table h.sorted channel id
  rcases onResponse_cases (h.sorted channel) id with
    ⟨-, hignored⟩ | ⟨request, hentry, hanswered⟩
  · rw [hignored]
    exact h
  rw [hanswered] at hsub hsorted ⊢
  have huninvoked : request.call = call →
      ∀ observation ∈ world.trace, ¬observation.isInvocation call := by
    intro hcall observation hobservation hinvoked
    exact h.answered observation hobservation hinvoked channel _ hentry
      hcall
  refine ⟨hsorted, ⟨?_, ?_, ?_⟩, ?_, ?_⟩
  · rw [List.countP_append]
    by_cases hcall : request.call = call
    · have hnone : world.trace.countP (Observation.isInvocation call) =
          0 := List.countP_eq_zero.mpr (huninvoked hcall)
      rw [hnone, Nat.zero_add]
      exact List.countP_le_length
    · have hother : [Observation.invoked channel request.call id
          request.callback].countP (Observation.isInvocation call) = 0 := by
        simp [Observation.isInvocation, hcall]
      rw [hother]
      exact h.atMostOnce.invoked_once
  · intro first second entry hmem entry' hmem'
    exact h.atMostOnce.one_entry first second entry (hsub first entry hmem).1
      entry' (hsub second entry' hmem').1
  · rw [List.pairwise_append]
    refine ⟨h.atMostOnce.silent, List.pairwise_singleton _ _, ?_⟩
    intro earlier _ later hlater _
    rw [List.mem_singleton.mp hlater]
    exact Bool.false_ne_true
  · intro observation hobservation hinvoked other entry hmem hcall
    obtain ⟨hold, hkey⟩ := hsub other entry hmem
    rcases List.mem_append.mp hobservation with hbefore | hnew
    · exact h.answered observation hbefore hinvoked other entry hold hcall
    · rw [List.mem_singleton.mp hnew] at hinvoked
      have hmine : request.call = call := by
        simpa [Observation.isInvocation] using hinvoked
      obtain ⟨hchannel, hsame⟩ := h.atMostOnce.one_entry other channel
        entry hold _ hentry hcall hmine
      exact hkey hchannel (congrArg Prod.fst hsame)
  · intro hlength
    obtain ⟨hentries, htraces⟩ := h.unmade hlength
    have hother : request.call ≠ call := hentries channel _ hentry
    refine ⟨fun other entry hmem =>
      hentries other entry (hsub other entry hmem).1, ?_⟩
    intro observation hobservation
    rcases List.mem_append.mp hobservation with hold | hnew
    · exact htraces observation hold
    · rw [List.mem_singleton.mp hnew]
      simp [Observation.isInvocation, Observation.isFrame, hother]

theorem Unretried.step {call : ℕ} {world next : Requests ι κ}
    {event : Event ι κ} (h : world.Unretried call)
    (hevent : NotRetried call world event)
    (hstep : world.step rapid event = some next) :
    next.Unretried call := by
  cases step_cases hstep with
  | request channel message callback sending =>
      have hbefore : ({ world with
          requested := world.requested ++ [message] } :
            Requests ι κ).Unretried call := by
        refine ⟨h.sorted, ⟨h.atMostOnce.1, h.atMostOnce.2,
          h.atMostOnce.3⟩, h.answered, ?_⟩
        intro hlength
        rw [List.length_append] at hlength
        exact h.unmade (by omega)
      apply hbefore.request channel message callback _ sending
      · intro hown
        obtain ⟨hentries, htraces⟩ := h.unmade (by omega)
        exact ⟨hentries, fun o ho => (htraces o ho).1⟩
      · intro hlength
        rw [List.length_append, List.length_singleton] at hlength
        omega
  | expire =>
      exact ⟨h.sorted, ⟨h.atMostOnce.1, h.atMostOnce.2, h.atMostOnce.3⟩,
        h.answered, h.unmade⟩
  | fire timer t sending htimer hstate =>
      have hother : t.call ≠ call := hevent t htimer
      have hbefore : (world.setTimer timer .fired).Unretried call :=
        ⟨h.sorted, ⟨h.atMostOnce.1, h.atMostOnce.2, h.atMostOnce.3⟩,
          h.answered, h.unmade⟩
      exact hbefore.request t.channel _ t.callback t.call sending
        (fun hown => absurd hown hother) fun _ => hother
  | unanswered => exact h
  | answered channel payload override response =>
      exact h.onResponse channel response.requestId

/-- A call none of whose retry handlers runs completes at most once, at every
moment of the run. -/
theorem atMostOnce_throughout {call : ℕ} {events : List (Event ι κ)}
    (hnotRetried : Along (Requests.step rapid) (NotRetried call) {}
      events) :
    Throughout (Requests.step rapid) (AtMostOnce call) {} events := by
  have hunretried : Throughout (Requests.step rapid) (Unretried call) {}
      events :=
    throughout_of_along
      (fun _ _ _ h hevent hstep => h.step hevent hstep)
      (unretried_empty call) hnotRetried
  exact throughout_mono (fun _ h => h.atMostOnce) hunretried

theorem atMostOnce_throughout_answered :
    Throughout (Requests.step textJson) (AtMostOnce 0) {}
      [.request 0 (Json.null.set (lit "type") (.ofString (lit "LAUNCH")))
          () (.ok ()),
        .request 0 (Json.null.set (lit "type") (.ofString (lit "PLAY")))
          () (.ok ()),
        .expire 1, .fire 1 (.ok ()),
        .message 0 (lit "\x7b\"requestId\":1,\"type\":\"X\"\x7d")
          fun _ => none] :=
  atMostOnce_throughout (by decide +kernel)

/-- A request that is retried once and answered twice is completed twice. -/
theorem not_atMostOnce_retried :
    ∃ last, exec (Requests.step textJson) {} retriedRun = some last ∧
      last.trace.countP (Observation.isInvocation 0) = 2 ∧
      ¬last.AtMostOnce 0 := by
  have hcount : (exec (Requests.step textJson) {} retriedRun).map
      (fun last => last.trace.countP (Observation.isInvocation 0)) =
        some 2 := by
    decide +kernel
  obtain ⟨last, hrun, htwice⟩ := Option.map_eq_some_iff.mp hcount
  refine ⟨last, hrun, htwice, ?_⟩
  intro honce
  have hle := honce.invoked_once
  omega

/-- A retry handler that runs while its call is pending leaves two entries of
the call. -/
theorem not_atMostOnce_of_fire {world next : Requests ι κ}
    (h : world.Consistent) (hdrawn : next.drawn < 2 ^ 64) {timer : ℕ}
    {t : RetryTimer ι κ} (htimer : world.timers[timer]? = some t)
    {channel : ι} {entry : UInt64 × ChannelRequest κ}
    (hentry : entry ∈ world.requestIdToRequest channel)
    (hcall : entry.2.call = t.call) {sending : Outcome Unit}
    (hfire : world.step rapid (.fire timer sending) = some next) :
    ¬next.AtMostOnce t.call := by
  cases step_cases hfire with
  | fire timer t' sending htimer' hstate =>
      rw [htimer] at htimer'
      cases htimer'
      have hbefore : (world.setTimer timer .fired).Consistent :=
        ⟨h.counter, h.sorted, h.keys_le, h.wire⟩
      intro honce
      have hnew := (hbefore.mem_request rapid hdrawn t.channel
        (rapid.copy t.message) t.callback t.call sending t.channel _).mpr
          (Or.inr ⟨rfl, rfl⟩)
      have hold := (hbefore.mem_request rapid hdrawn t.channel
        (rapid.copy t.message) t.callback t.call sending channel entry).mpr
          (Or.inl hentry)
      obtain ⟨-, hsame⟩ := honce.one_entry _ _ _ hold _ hnew hcall rfl
      exact h.fresh hdrawn channel entry hentry (congrArg Prod.fst hsame)

end Requests

end LibChromecast
