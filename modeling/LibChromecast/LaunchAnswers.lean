import LibChromecast.LaunchResults
import LibChromecast.PlayerChannels
import LibChromecast.Preconditions

/-!
# Rejected launches

The answer of a `LAUNCH` request goes to an empty callback, and an
`INVALID_REQUEST` raises before its entry is looked up; nothing calls
`OnLaunchFailed`.  A rejected launch stays open unless it was over before.
-/

namespace LibChromecast

open Foundation Foundation.Transition Json

deriving instance DecidableEq for ReceiverChannel.Observed

namespace ReceiverChannel

variable {α : Type} {rapid : RapidJson} {getId : α → StdString}

/-! ## The launch of the current application -/

/-- The number of a `Launch` call and of the request it made. -/
structure Current where
  call : ℕ
  request : ℕ

/-- The `Launch` call which sets the application in a step. -/
def launches (channel : ReceiverChannel α) : Event α → Option ℕ
  | .launch (some _) _ _ =>
      if channel.application.isSome then none else some channel.calls
  | .stopped (.ok ()) _ => channel.stopping.head?.map (·.call)
  | _ => none

/-- A channel and the launch of its current application. -/
structure Tracked (α : Type) where
  channel : ReceiverChannel α
  current : Option Current := none

namespace Tracked

def step (rapid : RapidJson) (getId : α → StdString) (state : Tracked α)
    (event : Event α) : Option (Tracked α) :=
  (state.channel.step rapid getId event).map fun channel =>
    { channel
      current := ((state.channel.launches event).map fun call =>
        ⟨call, state.channel.requests.requested.length⟩).or state.current }

end Tracked

/-- The call whose pending request a message has the id of. -/
def answers (rapid : RapidJson) (channel : ReceiverChannel α)
    (payload : StdString) : Option ℕ :=
  match ((rapid.parseMessage payload).get (lit "requestId")).getUint64 with
  | .ok requestId =>
      (RequestMap.find? requestId
        (channel.requests.requestIdToRequest ())).map (·.2.call)
  | .error _ => none

/-- A message that answers the request of a call with something else than a
`RECEIVER_STATUS`. -/
def Rejects (rapid : RapidJson) (channel : ReceiverChannel α)
    (request : ℕ) (payload : StdString) : Prop :=
  channel.answers rapid payload = some request ∧
    (rapid.parseMessage payload).memberText (lit "type") ≠
      lit "RECEIVER_STATUS"

instance (channel : ReceiverChannel α) (request : ℕ) (payload : StdString) :
    Decidable (Rejects rapid channel request payload) :=
  inferInstanceAs (Decidable (_ ∧ _))

/-- The launch is over: the flag is clear, its callback was invoked with
`false`, and no run calls `Initialize` for it any more. -/
structure LaunchOver (rapid : RapidJson) (getId : α → StdString)
    (channel : ReceiverChannel α) (call : ℕ) : Prop where
  flag : channel.launchingApplication = false
  reported : .completed call false ∈ channel.observed
  never : ∀ events last,
    exec (step rapid getId) channel events = some last →
      last.observed.countP (Observed.initializesLaunch call) =
        channel.observed.countP (Observed.initializesLaunch call)

/-! ## The requests of a step -/

/-- The callback of the request an event makes. -/
def requesting (channel : ReceiverChannel α) :
    Event α → Option (ReceiverCallback α)
  | .getAppAvailabillity appIds hasCallback _ =>
      if appIds.isEmpty then none else some (.availability appIds hasCallback)
  | .getStatus hasCallback _ => some (.status hasCallback)
  | .mute _ hasCallback _ => some (.volume hasCallback)
  | .setVolume _ hasCallback _ => some (.volume hasCallback)
  | .launch (some _) _ _ =>
      if channel.application.isSome then none else some .launch
  | .stopped (.ok ()) _ => channel.stopping.head?.map fun _ => .launch
  | .join application true _ => some (.join channel.calls application)
  | _ => none

/-- How a request operation ends.  `Launch` is two steps where it calls
`OnStopped`. -/
def operate (rapid : RapidJson) (getId : α → StdString)
    (channel : ReceiverChannel α) :
    Event α → Option (Outcome Unit × ReceiverChannel α)
  | .getAppAvailabillity appIds hasCallback sending =>
      some (channel.getAppAvailabillity rapid sending appIds hasCallback)
  | .getStatus hasCallback sending =>
      some (channel.getStatus rapid sending (.status hasCallback))
  | .mute mute hasCallback sending =>
      some (channel.mute rapid sending mute hasCallback)
  | .setVolume volumeLevel hasCallback sending =>
      some (channel.setVolume rapid sending volumeLevel hasCallback)
  | .launch application hasCallback sending =>
      some (channel.launch rapid getId sending application hasCallback)
  | .stopped outcome sending =>
      channel.onStoppedReturned rapid getId sending outcome
  | .join application hasCallback sending =>
      some (channel.join rapid sending application hasCallback)
  | _ => none

/-- How the sending of the frame of an operation ends. -/
def Event.sending : Event α → Outcome Unit
  | .getAppAvailabillity _ _ sending | .getStatus _ sending
  | .mute _ _ sending | .setVolume _ _ sending | .launch _ _ sending
  | .stopped _ sending | .join _ _ sending => sending
  | _ => .ok ()

/-- What an operation comes to: it requests, and ends as the sending does, or
changes nothing that a message or a timer could tell. -/
inductive Operated (rapid : RapidJson) (channel : ReceiverChannel α)
    (event : Event α) (outcome : Outcome Unit) (next : ReceiverChannel α) :
    Prop
  | requested (message : Json) (callback : ReceiverCallback α)
      (hrequesting : channel.requesting event = some callback)
      (houtcome : outcome = event.sending)
      (hrequests : next.requests = (channel.requests.userRequest rapid ()
        message callback event.sending).2)
  | rejected (hrequesting : channel.requesting event = none)
      (hrest : next = { channel with
        calls := next.calls
        observed := next.observed
        stopping := next.stopping })

variable (rapid getId) in
theorem launchStopped_outcome (channel : ReceiverChannel α)
    (rest : Stopping α) (sending : Outcome Unit) :
    (channel.launchStopped rapid getId sending rest).1 = sending := by
  cases sending <;> rfl

theorem operated_launchStopped {channel base next : ReceiverChannel α}
    {event : Event α} {outcome : Outcome Unit} (rest : Stopping α)
    (sending : Outcome Unit) (hbase : base.requests = channel.requests)
    (hrequesting : channel.requesting event = some .launch)
    (hsending : event.sending = sending)
    (hstopped : base.launchStopped rapid getId sending rest =
      (outcome, next)) :
    Operated rapid channel event outcome next := by
  have houtcome := launchStopped_outcome rapid getId base rest sending
  have hrequests := launchStopped_requests rapid getId sending rest base
  rw [hstopped] at houtcome hrequests
  rw [hbase] at hrequests
  rw [← hsending] at houtcome hrequests
  exact .requested _ .launch hrequesting houtcome hrequests

theorem operate_cases {channel next : ReceiverChannel α} {event : Event α}
    {outcome : Outcome Unit}
    (h : channel.operate rapid getId event = some (outcome, next)) :
    Operated rapid channel event outcome next := by
  cases event with
  | getAppAvailabillity appIds hasCallback sending =>
      simp only [operate, Option.some.injEq] at h
      unfold getAppAvailabillity at h
      cases hempty : appIds.isEmpty with
      | true =>
          rw [hempty] at h
          cases h
          exact .rejected (by rw [requesting, hempty]; rfl) rfl
      | false =>
          rw [hempty] at h
          cases h
          exact .requested _ (.availability appIds hasCallback)
            (by rw [requesting, hempty]; rfl) rfl rfl
  | getStatus hasCallback sending =>
      cases h
      exact .requested _ (.status hasCallback) rfl rfl rfl
  | mute mute hasCallback sending =>
      cases h
      exact .requested _ (.volume hasCallback) rfl rfl rfl
  | setVolume volumeLevel hasCallback sending =>
      cases h
      exact .requested _ (.volume hasCallback) rfl rfl rfl
  | launch application hasCallback sending =>
      simp only [operate, Option.some.injEq] at h
      unfold launch at h
      cases application with
      | none =>
          cases h
          exact .rejected rfl rfl
      | some application =>
          cases happlication : channel.application with
          | none =>
              simp only [happlication] at h
              refine operated_launchStopped _ sending ?_ ?_ rfl h
              · rfl
              · rw [requesting, happlication]
                rfl
          | some current =>
              simp only [happlication] at h
              cases h
              refine .rejected ?_ rfl
              rw [requesting, happlication]
              rfl
  | stopped outcome sending =>
      simp only [operate] at h
      unfold onStoppedReturned at h
      cases hstack : channel.stopping with
      | nil =>
          rw [hstack] at h
          cases h
      | cons rest stopping =>
          rw [hstack] at h
          cases outcome with
          | error fault =>
              cases h
              exact .rejected rfl rfl
          | ok _ =>
              refine operated_launchStopped rest sending ?_ ?_ rfl
                (Option.some.inj h)
              · rfl
              · rw [requesting, hstack]
                rfl
  | join application hasCallback sending =>
      cases hasCallback with
      | false =>
          cases h
          exact .rejected rfl rfl
      | true =>
          cases h
          exact .requested _ (.join channel.calls application) rfl rfl rfl
  | _ => cases h

/-- What a step adds to the requests, and to the callbacks of the process. -/
structure Requesting (channel next : ReceiverChannel α)
    (callback : Option (ReceiverCallback α)) : Prop where
  length : next.requests.requested.length =
    channel.requests.requested.length + callback.toList.length
  held : ∀ call other, next.requests.HasCall call other →
    channel.requests.HasCall call other ∨
      call = channel.requests.requested.length ∧ callback = some other

theorem requesting_same {channel next : ReceiverChannel α}
    (hrequests : next.requests = channel.requests) :
    Requesting channel next none where
  length := by rw [hrequests]; rfl
  held _ _ h := Or.inl (hrequests ▸ h)

theorem requesting_held {channel next : ReceiverChannel α}
    (hrequested : next.requests.requested = channel.requests.requested)
    (hheld : ∀ call other, next.requests.HasCall call other →
      channel.requests.HasCall call other) : Requesting channel next none where
  length := by rw [hrequested]; rfl
  held call other h := Or.inl (hheld call other h)

theorem requesting_userRequest {channel next : ReceiverChannel α}
    (message : Json) (callback : ReceiverCallback α) (sending : Outcome Unit)
    (hrequests : next.requests =
      (channel.requests.userRequest rapid () message callback sending).2) :
    Requesting channel next (some callback) where
  length := by
    rw [hrequests]
    exact List.length_append
  held call other h := by
    rw [hrequests] at h
    rcases Requests.hasCall_request h with hold | ⟨hcall, hsame⟩
    · exact Or.inl hold
    · exact Or.inr ⟨hcall, congrArg some hsame.symm⟩

variable (rapid getId) in
theorem requesting_operate {channel next : ReceiverChannel α}
    {event : Event α} {outcome : Outcome Unit}
    (h : channel.operate rapid getId event = some (outcome, next)) :
    Requesting channel next (channel.requesting event) := by
  cases operate_cases h with
  | requested message callback hrequesting _ hrequests =>
      rw [hrequesting]
      exact requesting_userRequest message callback _ hrequests
  | rejected hrequesting hrest =>
      rw [hrequesting]
      exact requesting_same (by rw [hrest])

theorem requesting_step {channel next : ReceiverChannel α} {event : Event α}
    (hstep : channel.step rapid getId event = some next) :
    Requesting channel next (channel.requesting event) := by
  cases event with
  | getAppAvailabillity | getStatus | mute | setVolume | launch | join =>
      cases hstep
      exact requesting_operate rapid getId rfl
  | stopped outcome sending =>
      obtain ⟨⟨result, after⟩, hreturned, rfl⟩ :=
        Option.map_eq_some_iff.mp hstep
      exact requesting_operate rapid getId hreturned
  | complete initialization value =>
      rcases complete_cases hstep with
        ⟨waiting, -, ⟨-, rfl⟩ | ⟨call, -, rfl⟩⟩ | ⟨call, _, _, -, rfl⟩
      all_goals exact requesting_same rfl
  | message payload ending =>
      have hreceived := onMessage_requests rapid getId ending payload channel
      simp only [step] at hstep
      split at hstep
      next => cases hstep
      next heq =>
        cases hstep
        rw [heq] at hreceived
        generalize hnext : next.requests = requests at hreceived
        cases hreceived with
        | same => exact requesting_same hnext
        | answered _ requestId =>
            apply requesting_held
            · rw [hnext, Requests.onResponse_requested]
            · intro call other h
              rw [hnext] at h
              exact Requests.hasCall_onResponse h
  | expire timer =>
      obtain ⟨requests, hexpire, rfl⟩ := Option.map_eq_some_iff.mp hstep
      refine requesting_held ?_ fun _ _ => Requests.hasCall_expire hexpire
      unfold Requests.expire at hexpire
      split at hexpire
      next => cases hexpire
      next => split_ifs at hexpire; cases hexpire; rfl
  | fire timer sending =>
      obtain ⟨requests, hfire, rfl⟩ := Option.map_eq_some_iff.mp hstep
      refine requesting_held ?_ fun _ _ => Requests.hasCall_fire hfire
      unfold Requests.fire at hfire
      split at hfire
      next => cases hfire
      next => split_ifs at hfire; cases hfire; rfl
  | draw =>
      cases hstep
      exact requesting_held rfl fun _ _ h => h

/-! ## The launch that is tracked -/

/-- The call of `Launch` went past its `OnStopped`. -/
structure Past (channel : ReceiverChannel α) (call : ℕ) : Prop where
  made : call < channel.calls
  returned : ∀ rest ∈ channel.stopping, rest.call ≠ call

theorem UsedOnce.stopping_lt {channel : ReceiverChannel α}
    (h : channel.UsedOnce) {rest : Stopping α}
    (hrest : rest ∈ channel.stopping) : rest.call < channel.calls := by
  by_contra hle
  have hzero := h.unused rest.call (Nat.le_of_not_lt hle)
  have hnone : channel.stopping.countP
      (fun other => other.call = rest.call) = 0 := by
    unfold uses at hzero
    omega
  rw [List.countP_eq_zero] at hnone
  exact hnone rest hrest (decide_eq_true rfl)

theorem Past.step {channel next : ReceiverChannel α} {event : Event α}
    {call : ℕ} (h : channel.Past call)
    (hstep : channel.step rapid getId event = some next) :
    next.Past call := by
  cases step_cases hstep with
  | requested | stored | completed | initialized =>
      exact ⟨h.made, h.returned⟩
  | launched application hasCallback sending =>
      refine ⟨?_, ?_⟩
      · rw [launchStopped_calls]
        exact Nat.lt_succ_of_lt h.made
      · rw [launchStopped_stopping]
        exact h.returned
  | stopping application current hasCallback sending =>
      refine ⟨Nat.lt_succ_of_lt h.made, ?_⟩
      intro rest hrest
      rcases List.mem_cons.mp hrest with rfl | hold
      · exact Nat.ne_of_gt h.made
      · exact h.returned rest hold
  | stopFailed rest stopping fault sending hstack =>
      refine ⟨h.made, fun other hother => ?_⟩
      apply h.returned
      rw [hstack]
      exact List.mem_cons_of_mem _ hother
  | stopped rest stopping sending hstack =>
      refine ⟨?_, fun other hother => ?_⟩
      · rw [launchStopped_calls]
        exact h.made
      · rw [launchStopped_stopping] at hother
        apply h.returned
        rw [hstack]
        exact List.mem_cons_of_mem _ hother
  | joined application sending =>
      exact ⟨Nat.lt_succ_of_lt h.made, h.returned⟩
  | answered payload ending response entry joined application status _
      hincoming hentry hcallback hstatus hjoin =>
      cases hjoin <;> exact ⟨h.made, h.returned⟩

/-- The call which sets the application has its number to itself. -/
theorem past_of_launches {channel next : ReceiverChannel α}
    {event : Event α} {call : ℕ} (h : channel.UsedOnce)
    (hlaunches : channel.launches event = some call)
    (hstep : channel.step rapid getId event = some next) :
    next.Past call := by
  unfold launches at hlaunches
  split at hlaunches
  next application hasCallback sending =>
    split_ifs at hlaunches with hsome
    cases hlaunches
    rw [Option.not_isSome_iff_eq_none] at hsome
    cases hstep
    unfold launch
    dsimp only
    rw [hsome]
    refine ⟨?_, ?_⟩
    · rw [launchStopped_calls]
      exact Nat.lt_succ_self _
    · rw [launchStopped_stopping]
      intro rest hrest
      exact Nat.ne_of_lt (h.stopping_lt hrest)
  next sending =>
    obtain ⟨rest, hhead, rfl⟩ := Option.map_eq_some_iff.mp hlaunches
    obtain ⟨stopping, hstack⟩ := List.head?_eq_some_iff.mp hhead
    have hnext : next = ({ channel with stopping }.launchStopped rapid getId
        sending rest).2 := by
      simp only [step, onStoppedReturned, hstack] at hstep
      exact (Option.some.inj hstep).symm
    rw [hnext]
    refine ⟨?_, ?_⟩
    · rw [launchStopped_calls]
      apply h.stopping_lt
      rw [hstack]
      exact List.mem_cons_self
    · rw [launchStopped_stopping]
      intro other hother hsame
      have hzero : stopping.countP
          (fun found => found.call = rest.call) = 0 := by
        have huses := h.used_once rest.call
        simp only [uses, hstack, List.countP_cons, decide_true, if_true]
          at huses
        omega
      rw [List.countP_eq_zero] at hzero
      exact hzero other hother (decide_eq_true hsame)
  next => cases hlaunches

theorem requesting_of_launches {channel : ReceiverChannel α}
    {event : Event α} {call : ℕ}
    (h : channel.launches event = some call) :
    channel.requesting event = some .launch := by
  unfold launches at h
  split at h
  next =>
    split_ifs at h with hsome
    rw [requesting, if_neg hsome]
  next =>
    obtain ⟨rest, hhead, -⟩ := Option.map_eq_some_iff.mp h
    rw [requesting, hhead]
    rfl
  next => cases h

/-- What is known of the current launch in every state of a run. -/
structure Tracks (state : Tracked α) : Prop where
  used : state.channel.UsedOnce
  bounded : ∀ call callback,
    state.channel.requests.HasCall call callback →
      call < state.channel.requests.requested.length
  past : ∀ current ∈ state.current, state.channel.Past current.call
  requested : ∀ current ∈ state.current,
    current.request < state.channel.requests.requested.length
  launch : ∀ current ∈ state.current, ∀ callback,
    state.channel.requests.HasCall current.request callback →
      callback = .launch

theorem tracks_construct (memory : Memory) :
    Tracks (⟨construct memory, none⟩ : Tracked α) where
  used := usedOnce_construct memory
  bounded call callback h := by
    rcases h with ⟨_, _, hentry, _⟩ | ⟨_, htimer, _⟩
    · cases hentry
    · cases htimer
  past := by simp
  requested := by simp
  launch := by simp

theorem Tracks.step {state next : Tracked α} {event : Event α}
    (h : Tracks state) (hstep : state.step rapid getId event = some next) :
    Tracks next := by
  obtain ⟨channel, hchannel, rfl⟩ := Option.map_eq_some_iff.mp hstep
  have hrequesting := requesting_step hchannel
  have hlength : state.channel.requests.requested.length ≤
      channel.requests.requested.length := by
    rw [hrequesting.length]
    exact Nat.le_add_right _ _
  -- the current launch is the one of this step, or the old one
  have hcurrent : ∀ current,
      current ∈ ((state.channel.launches event).map fun call =>
          (⟨call, state.channel.requests.requested.length⟩ : Current)).or
            state.current →
        (state.channel.launches event = some current.call ∧
            current.request = state.channel.requests.requested.length) ∨
          current ∈ state.current := by
    intro current hmem
    rcases Option.or_eq_some_iff.mp hmem with hnew | ⟨-, hold⟩
    · obtain ⟨call, hlaunches, rfl⟩ := Option.map_eq_some_iff.mp hnew
      exact Or.inl ⟨hlaunches, rfl⟩
    · exact Or.inr hold
  refine ⟨h.used.step hchannel, ?_, ?_, ?_, ?_⟩
  · intro call callback hheld
    rcases hrequesting.held call callback hheld with hold | ⟨rfl, hnew⟩
    · exact Nat.lt_of_lt_of_le (h.bounded call callback hold) hlength
    · have heq := hrequesting.length
      rw [hnew] at heq
      exact Nat.lt_of_lt_of_eq (Nat.lt_succ_self _) heq.symm
  · intro current hmem
    rcases hcurrent current hmem with ⟨hlaunches, -⟩ | hold
    · exact past_of_launches h.used hlaunches hchannel
    · exact (h.past current hold).step hchannel
  · intro current hmem
    rcases hcurrent current hmem with ⟨hlaunches, hrequest⟩ | hold
    · have heq := hrequesting.length
      rw [requesting_of_launches hlaunches] at heq
      rw [hrequest]
      exact Nat.lt_of_lt_of_eq (Nat.lt_succ_self _) heq.symm
    · exact Nat.lt_of_lt_of_le (h.requested current hold) hlength
  · intro current hmem callback hheld
    rcases hcurrent current hmem with ⟨hlaunches, hrequest⟩ | hold
    · rw [hrequest] at hheld
      rcases hrequesting.held _ _ hheld with hearlier | ⟨-, hnew⟩
      · exact absurd (h.bounded _ _ hearlier) (Nat.lt_irrefl _)
      · rw [requesting_of_launches hlaunches] at hnew
        exact (Option.some.inj hnew).symm
    · rcases hrequesting.held _ _ hheld with hearlier | ⟨hlast, -⟩
      · exact h.launch current hold callback hearlier
      · exact absurd (h.requested current hold)
          (Nat.not_lt_of_ge (Nat.le_of_eq hlast.symm))

/-! ## A launch that is over -/

/-- The call was made and its application is not pending. -/
structure Finished (channel : ReceiverChannel α) (call : ℕ) : Prop
    extends Past channel call where
  idle : channel.pending ≠ some call

/-- No step calls `Initialize` for a launch that is finished. -/
theorem Finished.step {channel next : ReceiverChannel α} {event : Event α}
    {call : ℕ} (h : channel.Finished call)
    (hstep : channel.step rapid getId event = some next) :
    next.Finished call ∧
      next.observed.countP (Observed.initializesLaunch call) =
        channel.observed.countP (Observed.initializesLaunch call) := by
  have hpast := h.toPast.step hstep
  cases step_cases hstep with
  | requested | stored | stopFailed => exact ⟨⟨hpast, h.idle⟩, rfl⟩
  | launched application hasCallback sending =>
      refine ⟨⟨hpast, fun hpending => ?_⟩, ?_⟩
      · exact Nat.ne_of_gt h.made (launchStopped_pending _ _ _ hpending)
      · simp [launching, observe, nextCall, Observed.initializesLaunch]
  | stopping application current hasCallback sending =>
      refine ⟨⟨hpast, h.idle⟩, ?_⟩
      simp [launching, observe, nextCall, Observed.initializesLaunch]
  | stopped rest stopping sending hstack =>
      refine ⟨⟨hpast, fun hpending => ?_⟩, ?_⟩
      · have hrest : rest.call ≠ call := by
          apply h.returned
          rw [hstack]
          exact List.mem_cons_self
        exact hrest (launchStopped_pending _ _ _ hpending)
      · rw [launchStopped_observed]
  | joined application sending =>
      refine ⟨⟨hpast, h.idle⟩, ?_⟩
      simp [joined, getStatus, request, observe, nextCall,
        Observed.initializesLaunch]
  | completed initialization other value =>
      refine ⟨⟨hpast, h.idle⟩, ?_⟩
      simp [observe, Observed.initializesLaunch]
  | initialized payload ending response status application info _ _ _ _
      hlaunching =>
      have howner : channel.owner ≠ some call := by
        have hidle := h.idle
        unfold pending at hidle
        rw [if_pos hlaunching] at hidle
        exact hidle
      refine ⟨⟨hpast, (Option.some_ne_none call).symm⟩, ?_⟩
      simp [initialized, Observed.initializesLaunch, howner]
  | answered payload ending response entry joined application status _
      hincoming hentry hcallback hstatus hjoin =>
      cases hjoin with
      | refused =>
          refine ⟨⟨hpast, h.idle⟩, ?_⟩
          simp [observe, answered, setStatus, Observed.initializesLaunch]
      | initialized joining info =>
          refine ⟨⟨hpast, h.idle⟩, ?_⟩
          simp [answered, setStatus, Observed.initializesLaunch]

theorem Finished.run {channel last : ReceiverChannel α}
    {events : List (Event α)} {call : ℕ} (h : channel.Finished call)
    (hrun : exec (ReceiverChannel.step rapid getId) channel events =
      some last) :
    last.observed.countP (Observed.initializesLaunch call) =
      channel.observed.countP (Observed.initializesLaunch call) := by
  have hlast := exec_invariant
    (fun current : ReceiverChannel α => current.Finished call ∧
      current.observed.countP (Observed.initializesLaunch call) =
        channel.observed.countP (Observed.initializesLaunch call))
    (fun _ _ _ hcurrent hstep => by
      obtain ⟨hnext, hsame⟩ := hcurrent.1.step hstep
      exact ⟨hnext, hsame.trans hcurrent.2⟩) ⟨h, rfl⟩ hrun
  exact hlast.2

/-! ## The contract -/

/-- A message that is no `RECEIVER_STATUS` is not decoded as one. -/
theorem fromMessage_ne_ok {document : Json}
    (htype : document.MissingOrText (lit "type"))
    (hother : document.memberText (lit "type") ≠ lit "RECEIVER_STATUS")
    (status : ReceiverStatus) :
    ReceiverStatus.fromMessage rapid (opened document) ≠ .ok status := by
  intro h
  have hfind := find?_opened_type document
  have hread := getString_getD (rfl : document.find? (lit "type") = _)
  rw [if_pos htype] at hread
  unfold ReceiverStatus.fromMessage at h
  rw [member_of_find? hfind] at h
  simp only [bind, Except.bind, hread, throwOnError, hother, decide_true,
    ne_eq, not_false_eq_true, if_true] at h
  cases h

theorem exists_of_answers {channel : ReceiverChannel α} {request : ℕ}
    {payload : StdString}
    (h : channel.answers rapid payload = some request) :
    ∃ requestId entry,
      (rapid.parseMessage payload).find? (lit "requestId") =
          some (.uint requestId) ∧
        RequestMap.find? requestId (channel.requests.requestIdToRequest ()) =
          some entry ∧
        entry.2.call = request := by
  unfold answers at h
  split at h
  next requestId hread =>
    obtain ⟨entry, hentry, hcall⟩ := Option.map_eq_some_iff.mp h
    exact ⟨requestId, entry, find?_of_getUint64 hread, hentry, hcall⟩
  next => cases h

variable (rapid getId) in
/-- Processing a rejection leaves the launch as it is. -/
theorem onMessage_of_rejects {channel : ReceiverChannel α}
    {request : ℕ} {payload : StdString} (ending : Outcome Unit)
    (hlaunch : ∀ callback,
      channel.requests.HasCall request callback → callback = .launch)
    (h : Rejects rapid channel request payload) :
    ∃ requests, (channel.onMessage rapid getId ending payload).2 =
      { channel with requests } := by
  obtain ⟨requestId, entry, hid, hentry, hcall⟩ := exists_of_answers h.1
  have hcallback : entry.2.callback = .launch :=
    hlaunch _ (Or.inl ⟨(), entry, OrderedMap.mem_of_find? _ hentry, hcall,
      rfl⟩)
  unfold onMessage
  by_cases hheader :
      ∃ other, HeaderReads (rapid.parseMessage payload) other
  · obtain ⟨other, hheader⟩ := hheader
    have hsame : other = requestId := by
      have hboth := hheader.requestId.symm.trans hid
      simpa using hboth
    rw [hsame] at hheader
    rw [incoming_of_headerReads hheader]
    split_ifs with hinvalid
    · exact ⟨channel.requests, rfl⟩
    · dsimp only
      unfold onResponse
      split_ifs with hzero
      · simp only [hentry, hcallback]
        exact ⟨_, rfl⟩
      · cases hstatus : ReceiverStatus.fromMessage rapid
            (opened (rapid.parseMessage payload)) with
        | error fault => exact ⟨channel.requests, rfl⟩
        | ok status =>
            exact absurd hstatus
              (fromMessage_ne_ok hheader.type h.2 status)
  · rw [incoming_of_not_headerReads (not_exists.mp hheader)]
    exact ⟨channel.requests, rfl⟩

/-- In every run, once the `LAUNCH` request of the current application was
answered with something else than a status, its launch is over exactly if it
was over before. -/
theorem launchOver_iff {memory : Memory} {events : List (Event α)}
    {state : Tracked α}
    (hrun : exec (Tracked.step rapid getId) ⟨construct memory, none⟩ events =
      some state)
    {current : Current} (hcurrent : state.current = some current)
    {payload : StdString}
    (hrejects : Rejects rapid state.channel current.request payload)
    {ending : Outcome Unit} {next : ReceiverChannel α}
    (hstep : state.channel.step rapid getId (.message payload ending) =
      some next) :
    LaunchOver rapid getId next current.call ↔
      state.channel.launchingApplication = false ∧
        .completed current.call false ∈ state.channel.observed := by
  have htracks : Tracks state :=
    exec_invariant Tracks (fun _ _ _ h hnext => h.step hnext)
      (tracks_construct memory) hrun
  obtain ⟨requests, hsame⟩ := onMessage_of_rejects rapid getId ending
    (htracks.launch current hcurrent) hrejects
  have hnext : next = { state.channel with requests } := by
    rw [← hsame]
    simp only [step] at hstep
    split at hstep
    next => cases hstep
    next heq =>
      rw [heq]
      exact (Option.some.inj hstep).symm
  constructor
  · intro hover
    have hflag := hover.flag
    have hreported := hover.reported
    rw [hnext] at hflag hreported
    exact ⟨hflag, hreported⟩
  · rintro ⟨hflag, hreported⟩
    have hidle : next.pending ≠ some current.call := by
      unfold pending
      rw [hnext, hflag]
      exact (Option.some_ne_none _).symm
    have hfinished : next.Finished current.call :=
      ⟨(htracks.past current hcurrent).step hstep, hidle⟩
    refine ⟨?_, ?_, fun events last hlater => hfinished.run hlater⟩
    · rw [hnext]
      exact hflag
    · rw [hnext]
      exact hreported

/-- The launch of the application failed. -/
def launchErrorText : StdString :=
  lit "\x7b\"requestId\":1,\"type\":\"LAUNCH_ERROR\",\"reason\":" ++
    lit "\"NOT_FOUND\"\x7d"

/-- `A` is found before its `LAUNCH` is answered, and fails to initialize. -/
def failedRun : List (Event StdString) :=
  [.launch (some (lit "A")) true (.ok ()),
    .message (runningText (lit "0")) (.ok ()),
    .complete 1 false]

theorem launchOver_iff_failed :
    ∃ state current next,
      exec (Tracked.step textJson id) ⟨construct cleared, none⟩ failedRun =
          some state ∧
        state.current = some current ∧
        Rejects textJson state.channel current.request launchErrorText ∧
        state.channel.step textJson id (.message launchErrorText (.ok ())) =
          some next ∧
        LaunchOver textJson id next current.call := by
  have hmeets : (exec (Tracked.step textJson id) ⟨construct cleared, none⟩
      failedRun).any (fun state => state.current.any fun current =>
        decide (Rejects textJson state.channel current.request
            launchErrorText ∧
          (state.channel.launchingApplication = false ∧
            .completed current.call false ∈ state.channel.observed) ∧
          (state.channel.step textJson id
            (.message launchErrorText (.ok ()))).isSome)) = true := by
    decide +kernel
  obtain ⟨state, hrun, hstate⟩ := (Option.any_eq_true _ _).mp hmeets
  obtain ⟨current, hcurrent, hall⟩ := (Option.any_eq_true _ _).mp hstate
  obtain ⟨hrejects, hover, hsome⟩ := of_decide_eq_true hall
  obtain ⟨next, hstep⟩ := Option.isSome_iff_exists.mp hsome
  exact ⟨state, current, next, hrun, hcurrent, hrejects, hstep,
    (launchOver_iff hrun hcurrent hrejects hstep).mpr hover⟩

/-- The launch is rejected, and the flag stays set. -/
theorem not_launchOver_rejected :
    ∃ state current next,
      exec (Tracked.step textJson id) ⟨construct cleared, none⟩
          [.launch (some (lit "A")) true (.ok ())] = some state ∧
        state.current = some current ∧
        Rejects textJson state.channel current.request launchErrorText ∧
        state.channel.step textJson id (.message launchErrorText (.ok ())) =
          some next ∧
        ¬LaunchOver textJson id next current.call := by
  have hmeets : (exec (Tracked.step textJson id) ⟨construct cleared, none⟩
      [.launch (some (lit "A")) true (.ok ())]).any (fun state =>
        state.current.any fun current =>
          decide (Rejects textJson state.channel current.request
            launchErrorText) &&
          (state.channel.step textJson id
            (.message launchErrorText (.ok ()))).any
              (·.launchingApplication)) = true := by
    decide +kernel
  obtain ⟨state, hrun, hstate⟩ := (Option.any_eq_true _ _).mp hmeets
  obtain ⟨current, hcurrent, hall⟩ := (Option.any_eq_true _ _).mp hstate
  rw [Bool.and_eq_true] at hall
  obtain ⟨next, hstep, hflag⟩ := (Option.any_eq_true _ _).mp hall.2
  refine ⟨state, current, next, hrun, hcurrent, of_decide_eq_true hall.1,
    hstep, fun hover => ?_⟩
  rw [hover.flag] at hflag
  cases hflag

end ReceiverChannel

end LibChromecast
