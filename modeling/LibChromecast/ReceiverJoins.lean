import LibChromecast.ReceiverChannel

/-!
# Joins

A `Join` decides when its answer arrives.  Until an application is set, the
first answer which names the application of its call initializes it; once one
is set, no answer of a `Join` changes it.
-/

namespace LibChromecast

open Foundation Foundation.Transition

/-! ## The callbacks of a process -/

namespace Requests

variable {ι κ : Type}

/-- A callback that an answer can invoke, now or after a retransmission. -/
def HasCallback (world : Requests ι κ) (callback : κ) : Prop :=
  (∃ channel, ∃ entry ∈ world.requestIdToRequest channel,
    entry.2.callback = callback) ∨
  ∃ timer ∈ world.timers, timer.callback = callback

/-- The callback is the one of this call of `Request`. -/
def HasCall (world : Requests ι κ) (call : ℕ) (callback : κ) : Prop :=
  (∃ channel, ∃ entry ∈ world.requestIdToRequest channel,
    entry.2.call = call ∧ entry.2.callback = callback) ∨
  ∃ timer ∈ world.timers, timer.call = call ∧ timer.callback = callback

theorem hasCallback_iff {world : Requests ι κ} {callback : κ} :
    world.HasCallback callback ↔ ∃ call, world.HasCall call callback := by
  constructor
  · rintro (⟨channel, entry, hentry, rfl⟩ | ⟨timer, htimer, rfl⟩)
    · exact ⟨_, Or.inl ⟨channel, entry, hentry, rfl, rfl⟩⟩
    · exact ⟨_, Or.inr ⟨timer, htimer, rfl, rfl⟩⟩
  · rintro ⟨call, ⟨channel, entry, hentry, -, hsame⟩ |
      ⟨timer, htimer, -, hsame⟩⟩
    · exact Or.inl ⟨channel, entry, hentry, hsame⟩
    · exact Or.inr ⟨timer, htimer, hsame⟩

theorem HasCall.of_timers {world next : Requests ι κ} {call : ℕ}
    {callback : κ} (h : next.HasCall call callback)
    (htable : ∀ channel, ∀ entry ∈ next.requestIdToRequest channel,
      entry ∈ world.requestIdToRequest channel)
    (htimers : ∀ timer ∈ next.timers, ∃ old ∈ world.timers,
      timer.call = old.call ∧ timer.callback = old.callback) :
    world.HasCall call callback := by
  rcases h with ⟨channel, entry, hentry, hsame⟩ |
    ⟨timer, htimer, hcall, hcallback⟩
  · exact Or.inl ⟨channel, entry, htable channel entry hentry, hsame⟩
  · obtain ⟨old, hold, hcall', hcallback'⟩ := htimers timer htimer
    exact Or.inr ⟨old, hold, hcall'.symm.trans hcall,
      hcallback'.symm.trans hcallback⟩

theorem callback_of_modify {timers : List (RetryTimer ι κ)} {index : ℕ}
    (change : TimerState → TimerState) {timer : RetryTimer ι κ}
    (h : timer ∈ timers.modify index
      fun t => { t with state := change t.state }) :
    ∃ old ∈ timers, timer.call = old.call ∧
      timer.callback = old.callback := by
  obtain ⟨position, hposition⟩ := List.mem_iff_getElem?.mp h
  rw [List.getElem?_modify] at hposition
  obtain ⟨old, hold, hchange⟩ := Option.map_eq_some_iff.mp hposition
  refine ⟨old, List.mem_of_getElem? hold, ?_⟩
  subst hchange
  split <;> exact ⟨rfl, rfl⟩

variable [DecidableEq ι] {rapid : RapidJson} {world : Requests ι κ}

theorem hasCall_request {channel : ι} {message : Json} {callback stored : κ}
    {call storing : ℕ} {sending : Outcome Unit}
    (h : (world.request rapid channel message stored storing
      sending).2.HasCall call callback) :
    world.HasCall call callback ∨ call = storing ∧ callback = stored := by
  rcases h with ⟨other, entry, hentry, rfl, rfl⟩ | ⟨timer, htimer, rfl, rfl⟩
  · rw [request_table] at hentry
    by_cases hother : other = channel
    · subst hother
      rw [Function.update_self] at hentry
      rcases OrderedMap.value_of_mem_insert _ hentry with hnew | hold
      · rw [hnew]
        exact Or.inr ⟨rfl, rfl⟩
      · exact Or.inl (Or.inl ⟨other, entry, hold, rfl, rfl⟩)
    · rw [Function.update_of_ne hother] at hentry
      exact Or.inl (Or.inl ⟨other, entry, hentry, rfl, rfl⟩)
  · rcases List.mem_append.mp htimer with hold | hnew
    · apply Or.inl
      apply Or.inr
      split at hold
      · exact ⟨timer, hold, rfl, rfl⟩
      · obtain ⟨old, hmem, hcall, hsame⟩ := callback_of_modify _ hold
        exact ⟨old, hmem, hcall.symm, hsame.symm⟩
    · rw [List.mem_singleton.mp hnew]
      exact Or.inr ⟨rfl, rfl⟩

theorem hasCall_onResponse {channel : ι} {requestId : UInt64} {call : ℕ}
    {callback : κ}
    (h : (world.onResponse channel requestId).2.HasCall call callback) :
    world.HasCall call callback := by
  unfold onResponse at h
  dsimp only at h
  split at h
  next => exact h
  next request _ =>
    refine h.of_timers ?_ ?_
    · intro other entry hentry
      by_cases hother : other = channel
      · subst hother
        simp only [Function.update_self] at hentry
        exact (OrderedMap.erase_sublist _ _ _).subset hentry
      · simpa only [Function.update_of_ne hother] using hentry
    · intro timer htimer
      exact callback_of_modify _ htimer

omit [DecidableEq ι] in
theorem hasCall_setTimer {index : ℕ} {state : TimerState} {call : ℕ}
    {callback : κ} (h : (world.setTimer index state).HasCall call callback) :
    world.HasCall call callback := by
  refine h.of_timers (fun _ _ hentry => hentry) ?_
  intro timer htimer
  exact callback_of_modify (fun _ => state) htimer

omit [DecidableEq ι] in
theorem hasCall_expire {index : ℕ} {next : Requests ι κ} {call : ℕ}
    {callback : κ} (hexpire : world.expire index = some next)
    (h : next.HasCall call callback) : world.HasCall call callback := by
  unfold expire at hexpire
  split at hexpire
  next => cases hexpire
  next timer htimer =>
    split_ifs at hexpire
    cases hexpire
    exact hasCall_setTimer h

/-- A retransmission keeps the call it goes back to. -/
theorem hasCall_fire {index : ℕ} {sending : Outcome Unit}
    {next : Requests ι κ} {call : ℕ} {callback : κ}
    (hfire : world.fire rapid index sending = some next)
    (h : next.HasCall call callback) : world.HasCall call callback := by
  unfold fire at hfire
  split at hfire
  next => cases hfire
  next timer htimer =>
    split_ifs at hfire
    cases hfire
    rcases hasCall_request h with hold | ⟨rfl, rfl⟩
    · exact hasCall_setTimer hold
    · exact Or.inr ⟨timer, List.mem_of_getElem? htimer, rfl, rfl⟩

theorem hasCallback_request {channel : ι} {message : Json}
    {callback stored : κ} {call : ℕ} {sending : Outcome Unit}
    (h : (world.request rapid channel message stored call
      sending).2.HasCallback callback) :
    world.HasCallback callback ∨ callback = stored := by
  obtain ⟨other, hcall⟩ := hasCallback_iff.mp h
  rcases hasCall_request hcall with hold | ⟨-, hnew⟩
  · exact Or.inl (hasCallback_iff.mpr ⟨other, hold⟩)
  · exact Or.inr hnew

theorem hasCallback_onResponse {channel : ι} {requestId : UInt64}
    {callback : κ}
    (h : (world.onResponse channel requestId).2.HasCallback callback) :
    world.HasCallback callback := by
  obtain ⟨call, hcall⟩ := hasCallback_iff.mp h
  exact hasCallback_iff.mpr ⟨call, hasCall_onResponse hcall⟩

omit [DecidableEq ι] in
theorem hasCallback_expire {index : ℕ} {next : Requests ι κ} {callback : κ}
    (hexpire : world.expire index = some next)
    (h : next.HasCallback callback) : world.HasCallback callback := by
  obtain ⟨call, hcall⟩ := hasCallback_iff.mp h
  exact hasCallback_iff.mpr ⟨call, hasCall_expire hexpire hcall⟩

theorem hasCallback_fire {index : ℕ} {sending : Outcome Unit}
    {next : Requests ι κ} {callback : κ}
    (hfire : world.fire rapid index sending = some next)
    (h : next.HasCallback callback) : world.HasCallback callback := by
  obtain ⟨call, hcall⟩ := hasCallback_iff.mp h
  exact hasCallback_iff.mpr ⟨call, hasCall_fire hfire hcall⟩

end Requests

namespace ReceiverChannel

variable {α : Type} {rapid : RapidJson} {getId : α → StdString}

/-! ## What a step does -/

/-- No callback of a `Join` comes in. -/
def NoNewJoin (before after : Requests Unit (ReceiverCallback α)) : Prop :=
  ∀ call application, after.HasCallback (.join call application) →
    before.HasCallback (.join call application)

theorem noNewJoin_refl (requests : Requests Unit (ReceiverCallback α)) :
    NoNewJoin requests requests := fun _ _ h => h

theorem noNewJoin_request (requests : Requests Unit (ReceiverCallback α))
    (message : Json) {callback : ReceiverCallback α} (sending : Outcome Unit)
    (hcallback : ∀ call application, callback ≠ .join call application) :
    NoNewJoin requests
      (requests.userRequest rapid () message callback sending).2 := by
  intro call application h
  rcases Requests.hasCallback_request h with hold | hnew
  · exact hold
  · exact absurd hnew.symm (hcallback call application)

/-- The channel after a `Join` call. -/
def joined (rapid : RapidJson) (sending : Outcome Unit)
    (application : Option α) (channel : ReceiverChannel α) :
    ReceiverChannel α :=
  ((channel.nextCall.observe (.join channel.calls application)).getStatus
    rapid sending (.join channel.calls application)).2

/-- The channel in a `Launch` call, before the previous application is told
to stop. -/
def launching (application : α) (channel : ReceiverChannel α) :
    ReceiverChannel α :=
  channel.nextCall.observe (.launch channel.calls application)

/-- The channel after a broadcast status that initializes an application. -/
def initialized (status : ReceiverStatus) (application : α)
    (info : ApplicationInfo) (channel : ReceiverChannel α) :
    ReceiverChannel α :=
  { channel.setStatus status with
    launchingApplication := false
    waiting := false
    observed := channel.observed ++
      [.initializing (.broadcast channel.owner channel.waiting) application
        info] }

/-- The `Launch` call whose application a status is going to initialize. -/
def pending (channel : ReceiverChannel α) : Option ℕ :=
  if channel.launchingApplication then channel.owner else none

theorem pending_construct (memory : Memory) :
    (construct memory : ReceiverChannel α).pending = none :=
  ite_self _

/-- The channel once the entry of an answer was removed. -/
def answered (requestId : UInt64) (channel : ReceiverChannel α) :
    ReceiverChannel α :=
  { channel with requests := (channel.requests.onResponse () requestId).2 }

/-- What the answer of a `Join` does. -/
inductive JoinCase (getId : α → StdString) (channel : ReceiverChannel α)
    (call : ℕ) (application : Option α) (status : ReceiverStatus) :
    ReceiverChannel α → Prop
  | refused :
      JoinCase getId channel call application status
        (channel.observe (.completed call false))
  | initialized (joining : α) (info : ApplicationInfo)
      (hgiven : application = some joining)
      (hnone : channel.application = none)
      (hinfo : info ∈ status.applications)
      (hid : info.applicationId = getId joining) :
      JoinCase getId channel call application status { channel with
        application := some joining
        observed := channel.observed ++
          [.initializing (.join call) joining info] }

theorem join_cases (getId : α → StdString) (ending : Outcome Unit)
    (channel : ReceiverChannel α) (call : ℕ)
    (application : Option α) (status : ReceiverStatus) :
    JoinCase getId channel call application status
      (channel.onJoinStatus getId ending call application status).2 := by
  unfold onJoinStatus
  cases application with
  | none => exact .refused
  | some joining =>
      dsimp only
      split_ifs with hsome
      · exact .refused
      · split
        next => exact .refused
        next info hinfo =>
          rw [Option.not_isSome_iff_eq_none] at hsome
          have hid := List.find?_some hinfo
          exact .initialized joining info rfl hsome
            (List.mem_of_find?_eq_some hinfo) (of_decide_eq_true hid)

inductive StepCase (rapid : RapidJson) (getId : α → StdString)
    (channel : ReceiverChannel α) : Event α → ReceiverChannel α → Prop
  | requested (event : Event α)
      (requests : Requests Unit (ReceiverCallback α))
      (hjoins : NoNewJoin channel.requests requests) :
      StepCase rapid getId channel event { channel with requests }
  | stored (event : Event α)
      (requests : Requests Unit (ReceiverCallback α))
      (status : ReceiverStatus)
      (hjoins : NoNewJoin channel.requests requests) :
      StepCase rapid getId channel event
        ({ channel with requests }.setStatus status)
  | launched (application : α) (hasCallback : Bool) (sending : Outcome Unit)
      (hnone : channel.application = none) :
      StepCase rapid getId channel
        (.launch (some application) hasCallback sending)
        ((channel.launching application).launchStopped rapid getId sending
          ⟨channel.calls, application, hasCallback⟩).2
  | stopping (application current : α) (hasCallback : Bool)
      (sending : Outcome Unit) (hsome : channel.application = some current) :
      StepCase rapid getId channel
        (.launch (some application) hasCallback sending)
        { channel.launching application with
          stopping := ⟨channel.calls, application, hasCallback⟩ ::
            channel.stopping }
  | stopFailed (rest : Stopping α) (stopping : List (Stopping α))
      (fault : Fault) (sending : Outcome Unit)
      (hstack : channel.stopping = rest :: stopping) :
      StepCase rapid getId channel (.stopped (.error fault) sending)
        { channel with stopping }
  | stopped (rest : Stopping α) (stopping : List (Stopping α))
      (sending : Outcome Unit)
      (hstack : channel.stopping = rest :: stopping) :
      StepCase rapid getId channel (.stopped (.ok ()) sending)
        ({ channel with stopping }.launchStopped rapid getId sending rest).2
  | joined (application : Option α) (sending : Outcome Unit) :
      StepCase rapid getId channel (.join application true sending)
        (channel.joined rapid sending application)
  | completed (initialization call : ℕ) (value : Bool) :
      StepCase rapid getId channel (.complete initialization value)
        (channel.observe (.completed call value))
  | initialized (payload : StdString) (ending : Outcome Unit)
      (response : Response) (status : ReceiverStatus) (application : α)
      (info : ApplicationInfo)
      (hincoming : incoming rapid payload = .ok (some response))
      (hid : response.requestId = 0)
      (hstatus : ReceiverStatus.fromMessage rapid response.message =
        .ok status)
      (happlication : channel.application = some application)
      (hlaunching : channel.launchingApplication = true)
      (hinfo : status.applications.find? (names (getId application)) =
        some info) :
      StepCase rapid getId channel (.message payload ending)
        (channel.initialized status application info)
  | answered (payload : StdString) (ending : Outcome Unit)
      (response : Response) (entry : UInt64 × ChannelRequest
        (ReceiverCallback α)) (call : ℕ) (application : Option α)
      (status : ReceiverStatus) (next : ReceiverChannel α)
      (hincoming : incoming rapid payload = .ok (some response))
      (hentry : RequestMap.find? response.requestId
        (channel.requests.requestIdToRequest ()) = some entry)
      (hcallback : entry.2.callback = .join call application)
      (hstatus : ReceiverStatus.fromMessage rapid response.message =
        .ok status)
      (hjoin : JoinCase getId
        ((channel.answered response.requestId).setStatus status) call
        application status next) :
      StepCase rapid getId channel (.message payload ending) next

theorem noNewJoin_answered (channel : ReceiverChannel α)
    (requestId : UInt64) :
    NoNewJoin channel.requests (channel.answered requestId).requests :=
  fun _ _ h => Requests.hasCallback_onResponse h

theorem onReceiverStatus_case {payload : StdString} {ending : Outcome Unit}
    {response : Response} {status : ReceiverStatus}
    {channel : ReceiverChannel α}
    (hincoming : incoming rapid payload = .ok (some response))
    (hid : response.requestId = 0)
    (hstatus : ReceiverStatus.fromMessage rapid response.message =
      .ok status) :
    StepCase rapid getId channel (.message payload ending)
      (channel.onReceiverStatus getId ending status).2 := by
  have hstored : StepCase rapid getId channel (.message payload ending)
      (channel.setStatus status) :=
    .stored _ channel.requests status (noNewJoin_refl _)
  unfold onReceiverStatus
  dsimp only
  split
  next => exact hstored
  next application happlication =>
    split_ifs with hidle
    · exact hstored
    · push Not at hidle
      split
      next => exact hstored
      next info hinfo =>
        have hlaunching :
            (channel.setStatus status).launchingApplication = true := by
          simpa using hidle.2
        exact .initialized payload ending response status application info
          hincoming hid hstatus happlication hlaunching hinfo

theorem invoke_case {payload : StdString} {ending : Outcome Unit}
    {response : Response} {channel : ReceiverChannel α}
    {entry : UInt64 × ChannelRequest (ReceiverCallback α)}
    (hincoming : incoming rapid payload = .ok (some response))
    (hentry : RequestMap.find? response.requestId
      (channel.requests.requestIdToRequest ()) = some entry) :
    StepCase rapid getId channel (.message payload ending)
      ((channel.answered response.requestId).invoke rapid getId ending
        response.message entry.2.callback).2 := by
  have hjoins := noNewJoin_answered channel response.requestId
  have hdone : StepCase rapid getId channel (.message payload ending)
      (channel.answered response.requestId) := .requested _ _ hjoins
  cases hcallback : entry.2.callback with
  | availability appIds hasCallback =>
      rw [invoke]
      split <;> exact hdone
  | status hasCallback =>
      rw [invoke]
      split
      · exact hdone
      · exact .stored _ _ _ hjoins
  | launch => exact hdone
  | join call application =>
      rw [invoke]
      split
      next => exact hdone
      next status hstatus =>
        exact .answered payload ending response entry call application
          status _ hincoming hentry hcallback hstatus
          (join_cases getId ending _ call application status)
  | volume hasCallback =>
      rw [invoke]
      split <;> exact hdone

variable (rapid getId) in
theorem onMessage_case (payload : StdString) (ending : Outcome Unit)
    (channel : ReceiverChannel α) :
    StepCase rapid getId channel (.message payload ending)
      (channel.onMessage rapid getId ending payload).2 := by
  have hsame : StepCase rapid getId channel (.message payload ending)
      channel := .requested _ channel.requests (noNewJoin_refl _)
  unfold onMessage
  split
  next => exact hsame
  next => exact hsame
  next response hincoming =>
    unfold onResponse
    split_ifs with hid
    · split
      next => exact hsame
      next key request hentry => exact invoke_case hincoming hentry
    · split
      next => exact hsame
      next status hstatus =>
        exact onReceiverStatus_case hincoming (not_not.mp hid) hstatus

theorem step_cases {channel next : ReceiverChannel α} {event : Event α}
    (h : channel.step rapid getId event = some next) :
    StepCase rapid getId channel event next := by
  cases event with
  | getAppAvailabillity appIds hasCallback sending =>
      cases h
      unfold getAppAvailabillity
      split
      · exact .requested _ _ (noNewJoin_refl _)
      · exact .requested _ _ (noNewJoin_request _ _ _ (by simp))
  | getStatus hasCallback sending =>
      cases h
      exact .requested _ _ (noNewJoin_request _ _ _ (by simp))
  | mute mute hasCallback sending =>
      cases h
      exact .requested _ _ (noNewJoin_request _ _ _ (by simp))
  | setVolume volumeLevel hasCallback sending =>
      cases h
      exact .requested _ _ (noNewJoin_request _ _ _ (by simp))
  | launch application hasCallback sending =>
      cases h
      cases application with
      | none => exact .requested _ channel.requests (noNewJoin_refl _)
      | some application =>
          unfold launch
          cases happlication : channel.application with
          | none => exact .launched application hasCallback sending happlication
          | some current =>
              exact .stopping application current hasCallback sending
                happlication
  | stopped outcome sending =>
      simp only [step, onStoppedReturned] at h
      cases hstack : channel.stopping with
      | nil => simp [hstack] at h
      | cons rest stopping =>
          simp only [hstack] at h
          cases outcome with
          | error fault =>
              cases h
              exact .stopFailed rest stopping fault sending hstack
          | ok _ =>
              cases h
              exact .stopped rest stopping sending hstack
  | join application hasCallback sending =>
      cases h
      cases hasCallback with
      | false => exact .requested _ channel.requests (noNewJoin_refl _)
      | true => exact .joined application sending
  | complete initialization value =>
      simp only [step, complete] at h
      split at h
      next =>
        split at h
        · cases h
          exact .requested _ channel.requests (noNewJoin_refl _)
        · cases h
          exact .completed initialization _ value
      next =>
        cases h
        exact .completed initialization _ value
      next => cases h
  | message payload ending =>
      have hcase := onMessage_case rapid getId payload ending channel
      simp only [step] at h
      split at h
      next => cases h
      next heq =>
        cases h
        rw [heq] at hcase
        exact hcase
  | expire timer =>
      obtain ⟨requests, hexpire, rfl⟩ := Option.map_eq_some_iff.mp h
      exact .requested _ _ fun _ _ hcallback =>
        Requests.hasCallback_expire hexpire hcallback
  | fire timer sending =>
      obtain ⟨requests, hfire, rfl⟩ := Option.map_eq_some_iff.mp h
      exact .requested _ _ fun _ _ hcallback =>
        Requests.hasCallback_fire hfire hcallback
  | draw =>
      cases h
      exact .requested _ _ fun _ _ hcallback => hcallback

/-! ## The rest of a launch -/

section LaunchStopped

variable (rapid : RapidJson) (getId : α → StdString)
  (sending : Outcome Unit) (rest : Stopping α) (channel : ReceiverChannel α)

@[simp] theorem launchStopped_observed :
    (channel.launchStopped rapid getId sending rest).2.observed =
      channel.observed := by
  cases sending <;> rfl

@[simp] theorem launchStopped_application :
    (channel.launchStopped rapid getId sending rest).2.application =
      some rest.application := by
  cases sending <;> rfl

theorem launchStopped_stopping :
    (channel.launchStopped rapid getId sending rest).2.stopping =
      channel.stopping := by
  cases sending <;> rfl

theorem launchStopped_calls :
    (channel.launchStopped rapid getId sending rest).2.calls =
      channel.calls := by
  cases sending <;> rfl

theorem launchStopped_requests :
    (channel.launchStopped rapid getId sending rest).2.requests =
      (channel.requests.userRequest rapid ()
        ((typed "LAUNCH").set (lit "appId")
          (.ofString (getId rest.application))) .launch sending).2 := by
  cases sending <;> rfl

theorem noNewJoin_launchStopped :
    NoNewJoin channel.requests
      (channel.launchStopped rapid getId sending rest).2.requests := by
  rw [launchStopped_requests]
  exact noNewJoin_request _ _ _ (by simp)

end LaunchStopped

/-! ## The invariant -/

namespace Observed

/-- `Initialize` was called for the answer of a `Join`. -/
def IsJoin : Observed α → Prop
  | .initializing (.join _) _ _ => True
  | _ => False

/-- There is an application from now on. -/
def Settles : Observed α → Prop
  | .launch _ _ | .initializing (.join _) _ _ => True
  | _ => False

end Observed

structure Joining (getId : α → StdString) (channel : ReceiverChannel α) :
    Prop where
  callbacks : ∀ call application,
    channel.requests.HasCallback (.join call application) →
      .join call application ∈ channel.observed
  settled : ∀ observed ∈ channel.observed, observed.Settles →
    channel.application.isSome
  first : channel.observed.Pairwise fun earlier later =>
    later.IsJoin → ¬earlier.Settles
  given : ∀ call application info,
    .initializing (.join call) application info ∈ channel.observed →
      .join call (some application) ∈ channel.observed ∧
        info.applicationId = getId application

theorem joining_construct (memory : Memory) :
    Joining getId (construct memory) where
  callbacks call application h := by
    rcases h with ⟨_, _, hentry, _⟩ | ⟨_, htimer, _⟩
    · cases hentry
    · cases htimer
  settled := by simp [construct]
  first := List.Pairwise.nil
  given := by simp [construct]

/-- Nothing but the answer of a `Join` that initializes an application needs
the invariant. -/
theorem Joining.extend {channel next : ReceiverChannel α}
    (h : Joining getId channel) (more : List (Observed α))
    (hobserved : next.observed = channel.observed ++ more)
    (hcallbacks : ∀ call application,
      next.requests.HasCallback (.join call application) →
        channel.requests.HasCallback (.join call application) ∨
          .join call application ∈ more)
    (hkept : channel.application.isSome → next.application.isSome)
    (hmore : ∀ observed ∈ more, ¬observed.IsJoin ∧
      (observed.Settles → next.application.isSome)) :
    Joining getId next where
  callbacks call application hcallback := by
    rw [hobserved, List.mem_append]
    rcases hcallbacks call application hcallback with hold | hnew
    · exact Or.inl (h.callbacks call application hold)
    · exact Or.inr hnew
  settled observed hmem hsettles := by
    rw [hobserved, List.mem_append] at hmem
    rcases hmem with hold | hnew
    · exact hkept (h.settled observed hold hsettles)
    · exact (hmore observed hnew).2 hsettles
  first := by
    rw [hobserved, List.pairwise_append]
    refine ⟨h.first, ?_, ?_⟩
    · apply List.pairwise_of_forall_mem_list
      intro _ _ later hlater hjoin
      exact absurd hjoin (hmore later hlater).1
    · intro _ _ later hlater hjoin
      exact absurd hjoin (hmore later hlater).1
  given call application info hmem := by
    rw [hobserved, List.mem_append] at hmem ⊢
    rcases hmem with hold | hnew
    · obtain ⟨hjoin, hid⟩ := h.given call application info hold
      exact ⟨Or.inl hjoin, hid⟩
    · exact absurd trivial (hmore _ hnew).1

theorem Joining.same {channel next : ReceiverChannel α}
    (h : Joining getId channel)
    (hobserved : next.observed = channel.observed)
    (hjoins : NoNewJoin channel.requests next.requests)
    (hkept : channel.application.isSome → next.application.isSome) :
    Joining getId next := by
  apply h.extend []
  · rw [hobserved, List.append_nil]
  · intro call application hcallback
    exact Or.inl (hjoins call application hcallback)
  · exact hkept
  · intro observed hmem
    cases hmem

/-- Without an application no `Launch` was called and no `Join` answered with
one. -/
theorem Joining.initializing {channel : ReceiverChannel α}
    (h : Joining getId channel) (hnone : channel.application = none)
    {call : ℕ} {application : α} {info : ApplicationInfo}
    (hjoin : .join call (some application) ∈ channel.observed)
    (hid : info.applicationId = getId application) :
    Joining getId { channel with
      application := some application
      observed := channel.observed ++
        [.initializing (.join call) application info] } where
  callbacks call application hcallback :=
    List.mem_append_left _ (h.callbacks call application hcallback)
  settled _ _ _ := rfl
  first := by
    rw [List.pairwise_append]
    refine ⟨h.first, List.pairwise_singleton _ _, ?_⟩
    intro earlier hearlier later _ _ hsettles
    have hsome := h.settled earlier hearlier hsettles
    rw [hnone] at hsome
    cases hsome
  given call' application' info' hmem := by
    rcases List.mem_append.mp hmem with hold | hnew
    · obtain ⟨hearlier, hid'⟩ := h.given call' application' info' hold
      exact ⟨List.mem_append_left _ hearlier, hid'⟩
    · cases List.mem_singleton.mp hnew
      exact ⟨List.mem_append_left _ hjoin, hid⟩

theorem Joining.step {channel next : ReceiverChannel α} {event : Event α}
    (h : Joining getId channel)
    (hstep : channel.step rapid getId event = some next) :
    Joining getId next := by
  cases step_cases hstep with
  | requested _ requests hjoins => exact h.same rfl hjoins id
  | stored _ requests status hjoins => exact h.same rfl hjoins id
  | launched application hasCallback sending hnone =>
      apply h.extend [.launch channel.calls application]
      · rw [launchStopped_observed]
        rfl
      · intro call application' hcallback
        have hjoins := noNewJoin_launchStopped rapid getId sending
          ⟨channel.calls, application, hasCallback⟩
          (channel.launching application)
        exact Or.inl (hjoins call application' hcallback)
      · simp
      · simp [Observed.IsJoin]
  | stopping application current hasCallback sending hsome =>
      apply h.extend [.launch channel.calls application] rfl
      · intro call application' hcallback
        exact Or.inl hcallback
      · exact id
      · intro observed hmem
        rw [List.mem_singleton.mp hmem]
        refine ⟨id, fun _ => ?_⟩
        exact Option.isSome_iff_exists.mpr ⟨current, hsome⟩
  | stopFailed rest stopping fault sending =>
      exact h.same rfl (noNewJoin_refl _) id
  | stopped rest stopping sending =>
      apply h.same
      · rw [launchStopped_observed]
      · exact noNewJoin_launchStopped rapid getId sending rest
          { channel with stopping }
      · simp
  | joined application sending =>
      apply h.extend [.join channel.calls application] rfl
      · intro call application' hcallback
        rcases Requests.hasCallback_request hcallback with hold | hnew
        · exact Or.inl hold
        · cases hnew
          exact Or.inr (List.mem_singleton.mpr rfl)
      · exact id
      · simp [Observed.IsJoin, Observed.Settles]
  | completed initialization call value =>
      apply h.extend [.completed call value] rfl
      · intro call application hcallback
        exact Or.inl hcallback
      · exact id
      · simp [Observed.IsJoin, Observed.Settles]
  | initialized payload ending response status application info =>
      apply h.extend
        [.initializing (.broadcast channel.owner channel.waiting) application
          info] rfl
      · intro call application hcallback
        exact Or.inl hcallback
      · exact id
      · simp [Observed.IsJoin, Observed.Settles]
  | answered payload ending response entry call application status _
      hincoming hentry hcallback hstatus hjoin =>
      have hjoined : .join call application ∈ channel.observed := by
        have hmem := OrderedMap.mem_of_find? _ hentry
        exact h.callbacks call application
          (Or.inl ⟨(), entry, hmem, hcallback⟩)
      have hbefore : Joining getId
          ((channel.answered response.requestId).setStatus status) :=
        h.same rfl (noNewJoin_answered channel _) id
      cases hjoin with
      | refused =>
          apply hbefore.extend [.completed call false] rfl
          · intro call' application' hold
            exact Or.inl hold
          · exact id
          · simp [Observed.IsJoin, Observed.Settles]
      | initialized joining info hgiven hnone hinfo hid =>
          rw [hgiven] at hjoined
          exact hbefore.initializing hnone hjoined hid

/-! ## The contract -/

/-- The answer with this response is one of a `Join` call, and decodes. -/
structure JoinAnswer (rapid : RapidJson) (channel : ReceiverChannel α)
    (response : Response) (call : ℕ) (application : Option α)
    (status : ReceiverStatus) : Prop where
  numbered : response.requestId ≠ 0
  pending : ∃ entry, RequestMap.find? response.requestId
      (channel.requests.requestIdToRequest ()) = some entry ∧
    entry.2.callback = .join call application
  decodes : ReceiverStatus.fromMessage rapid response.message = .ok status

/-- The answer of the `Join` call initializes its application, because there
is none yet. -/
def InitializesJoin (getId : α → StdString) (channel : ReceiverChannel α)
    (call : ℕ) (application : Option α) (status : ReceiverStatus)
    (next : ReceiverChannel α) : Prop :=
  ∃ joining, ∃ info ∈ status.applications,
    application = some joining ∧ channel.application = none ∧
    info.applicationId = getId joining ∧ next.application = some joining ∧
    next.observed = channel.observed ++
      [.initializing (.join call) joining info]

/-- The callback of the `Join` call is told that nothing was joined. -/
def RefusesJoin (channel : ReceiverChannel α) (call : ℕ)
    (next : ReceiverChannel α) : Prop :=
  next.application = channel.application ∧
    next.observed = channel.observed ++ [.completed call false]

/-- What holds of the joins in a state of a run. -/
structure JoinsNeverReplace (rapid : RapidJson) (getId : α → StdString)
    (channel : ReceiverChannel α) : Prop where
  /-- No answer of a `Join` initializes an application once another one did
  or a `Launch` was called. -/
  first : channel.observed.Pairwise fun earlier later =>
    later.IsJoin → ¬earlier.Settles
  given : ∀ call application info,
    .initializing (.join call) application info ∈ channel.observed →
      .join call (some application) ∈ channel.observed ∧
        info.applicationId = getId application
  never_null : ∀ event next, channel.step rapid getId event = some next →
    channel.application.isSome → next.application.isSome
  /-- Only `Launch` replaces an application. -/
  never_replaced : ∀ event next,
    channel.step rapid getId event = some next →
      channel.application.isSome →
        next.application = channel.application ∨
          (∃ application hasCallback sending,
            event = .launch (some application) hasCallback sending) ∨
          ∃ outcome sending, event = .stopped outcome sending
  answered : ∀ payload ending response call application status,
    incoming rapid payload = .ok (some response) →
      channel.JoinAnswer rapid response call application status →
        let next := (channel.onMessage rapid getId ending payload).2
        (InitializesJoin getId channel call application status next ∨
            RefusesJoin channel call next) ∧
          next.launchingApplication = channel.launchingApplication ∧
          next.onApplicationLaunched = channel.onApplicationLaunched

theorem never_replaced {channel next : ReceiverChannel α} {event : Event α}
    (hstep : channel.step rapid getId event = some next)
    (hsome : channel.application.isSome) :
    next.application = channel.application ∨
      (∃ application hasCallback sending,
        event = .launch (some application) hasCallback sending) ∨
      ∃ outcome sending, event = .stopped outcome sending := by
  cases step_cases hstep with
  | requested | stored | stopFailed | joined | completed | initialized =>
      exact Or.inl rfl
  | launched application hasCallback sending =>
      exact Or.inr (Or.inl ⟨application, hasCallback, sending, rfl⟩)
  | stopping application current hasCallback sending =>
      exact Or.inr (Or.inl ⟨application, hasCallback, sending, rfl⟩)
  | stopped rest stopping sending =>
      exact Or.inr (Or.inr ⟨.ok (), sending, rfl⟩)
  | answered payload ending response entry call application status _
      hincoming hentry hcallback hstatus hjoin =>
      apply Or.inl
      cases hjoin with
      | refused => rfl
      | initialized joining info hgiven hnone =>
          have hnone' : channel.application = none := hnone
          rw [hnone'] at hsome
          cases hsome

theorem never_null {channel next : ReceiverChannel α} {event : Event α}
    (hstep : channel.step rapid getId event = some next)
    (hsome : channel.application.isSome) : next.application.isSome := by
  cases step_cases hstep with
  | requested | stored | stopping | stopFailed | joined | completed
  | initialized =>
      exact hsome
  | launched | stopped => simp
  | answered payload ending response entry call application status _
      hincoming hentry hcallback hstatus hjoin =>
      cases hjoin with
      | refused => exact hsome
      | initialized => rfl

theorem onMessage_of_joinAnswer {channel : ReceiverChannel α}
    {payload : StdString} {response : Response} {call : ℕ}
    {application : Option α} {status : ReceiverStatus}
    (ending : Outcome Unit)
    (hincoming : incoming rapid payload = .ok (some response))
    (h : channel.JoinAnswer rapid response call application status) :
    (channel.onMessage rapid getId ending payload).2 =
      (((channel.answered response.requestId).setStatus
        status).onJoinStatus getId ending call application status).2 := by
  obtain ⟨entry, hentry, hcallback⟩ := h.pending
  unfold onMessage
  rw [hincoming]
  simp only [onResponse, if_pos h.numbered, hentry, hcallback, invoke,
    h.decodes]
  rfl

theorem answered_of_joinAnswer {channel : ReceiverChannel α}
    {payload : StdString} {response : Response} {call : ℕ}
    {application : Option α} {status : ReceiverStatus}
    (ending : Outcome Unit)
    (hincoming : incoming rapid payload = .ok (some response))
    (h : channel.JoinAnswer rapid response call application status) :
    let next := (channel.onMessage rapid getId ending payload).2
    (InitializesJoin getId channel call application status next ∨
        RefusesJoin channel call next) ∧
      next.launchingApplication = channel.launchingApplication ∧
      next.onApplicationLaunched = channel.onApplicationLaunched := by
  intro next
  have hnext : next = (((channel.answered response.requestId).setStatus
      status).onJoinStatus getId ending call application status).2 :=
    onMessage_of_joinAnswer ending hincoming h
  have hcase := join_cases getId ending
    ((channel.answered response.requestId).setStatus status) call
    application status
  rw [← hnext] at hcase
  clear hnext
  generalize next = last at hcase ⊢
  cases hcase with
  | refused => exact ⟨Or.inr ⟨rfl, rfl⟩, rfl, rfl⟩
  | initialized joining info hgiven hnone hinfo hid =>
      exact ⟨Or.inl ⟨joining, info, hinfo, hgiven, hnone, hid, rfl, rfl⟩,
        rfl, rfl⟩

/-- In every run of a receiver channel the joins keep what was launched or
joined before. -/
theorem joinsNeverReplace_of_run {memory : Memory}
    {events : List (Event α)} {last : ReceiverChannel α}
    (hrun : exec (step rapid getId) (construct memory) events =
      some last) : JoinsNeverReplace rapid getId last := by
  have hjoining : Joining getId last :=
    exec_invariant (Joining getId)
      (fun _ _ _ h hstep => h.step hstep) (joining_construct memory) hrun
  exact {
    first := hjoining.first
    given := hjoining.given
    never_null := fun _ _ hstep hsome => never_null hstep hsome
    never_replaced := fun _ _ hstep hsome => never_replaced hstep hsome
    answered := fun _ ending _ _ _ _ hincoming hanswer =>
      answered_of_joinAnswer ending hincoming hanswer }

/-- A status in which the application `A` runs. -/
def runningText (requestId : StdString) : StdString :=
  lit "\x7b\"requestId\":" ++ requestId ++
    lit ",\"type\":\"RECEIVER_STATUS\",\"status\":\x7b\"volume\":" ++
    lit "\x7b\"muted\":false,\"level\":1\x7d,\"isStandBy\":false," ++
    lit "\"applications\":[\x7b\"appId\":\"A\",\"displayName\":\"Player\"," ++
    lit "\"sessionId\":\"1\",\"statusText\":\"\",\"namespaces\":[]," ++
    lit "\"transportId\":\"web-1\"\x7d]\x7d\x7d"

def cleared : Memory := ⟨false, false, ⟨0⟩, false⟩

/-- Two joins are answered, the first one twice. -/
def joinedRun : List (Event StdString) :=
  [.join (some (lit "A")) true (.ok ()),
    .join (some (lit "A")) true (.ok ()),
    .expire 0, .fire 0 (.ok ()),
    .message (runningText (lit "2")) (.ok ()),
    .message (runningText (lit "1")) (.ok ()),
    .message (runningText (lit "3")) (.ok ())]

theorem joinsNeverReplace_of_run_joined :
    ∃ last, exec (step textJson id) (construct cleared) joinedRun =
        some last ∧ JoinsNeverReplace textJson id last := by
  have hsome : (exec (step textJson id) (construct cleared)
      joinedRun).isSome := by decide +kernel
  obtain ⟨last, hrun⟩ := Option.isSome_iff_exists.mp hsome
  exact ⟨last, hrun, joinsNeverReplace_of_run hrun⟩

end ReceiverChannel

end LibChromecast
