import LibChromecast.ReceiverJoins

/-!
# Launches and initializations

`_launching_application` tells a broadcast status whether a `Launch` waits for
its application.  The constructor leaves it uninitialised and `Join` does not
clear it; a `Launch` whose request is not sent replaces the application and
leaves the flag as an earlier one set it.  So it may be set although nothing
waits.  A run in which no status is taken for an awaited one meanwhile
observes the same over every memory of the flag.
-/

namespace LibChromecast

open Foundation Foundation.Transition

namespace ReceiverChannel

variable {α : Type} {rapid : RapidJson} {getId : α → StdString}

/-! ## The property -/

/-- A status calls `Initialize` on the application of the `Launch` call. -/
def Observed.initializesLaunch (call : ℕ) : Observed α → Bool
  | .initializing (.broadcast owner _) _ _ => owner = some call
  | _ => false

/-- The answer of the `Join` call calls `Initialize`. -/
def Observed.initializesJoin (call : ℕ) : Observed α → Bool
  | .initializing (.join other) _ _ => other = call
  | _ => false

/-- A status calls `Initialize` although no `Launch` waits. -/
def Observed.unawaited : Observed α → Bool
  | .initializing (.broadcast _ awaited) _ _ => !awaited
  | _ => false

/-- `Initialize` was called at most once for each `Launch` and each `Join`,
and for a broadcast status only while the `Launch` of that very application
waited for it. -/
structure OneInitialization (channel : ReceiverChannel α) : Prop where
  launches : ∀ call,
    channel.observed.countP (Observed.initializesLaunch call) ≤ 1
  joins : ∀ call,
    channel.observed.countP (Observed.initializesJoin call) ≤ 1
  awaited : ∀ owner awaited application info,
    .initializing (.broadcast owner awaited) application info ∈
        channel.observed →
      awaited = true ∧
        ∃ call, owner = some call ∧
          .launch call application ∈ channel.observed

/-- The status of a message that is not an answer. -/
def broadcastStatus (rapid : RapidJson) (payload : StdString) :
    Option ReceiverStatus :=
  match incoming rapid payload with
  | .ok (some response) =>
      if response.requestId = 0 then
        (ReceiverStatus.fromMessage rapid response.message).toOption
      else none
  | _ => none

/-- No broadcast status that names the current application is processed while
the flag is set and no `Launch` waits for that application. -/
def LaunchAwaited (rapid : RapidJson) (getId : α → StdString)
    (channel : ReceiverChannel α) : Event α → Prop
  | .message payload _ =>
      ∀ status ∈ broadcastStatus rapid payload,
        ∀ application ∈ channel.application,
          channel.launchingApplication = true →
            (status.applications.find?
              (names (getId application))).isSome →
                channel.waiting = true
  | _ => True

theorem broadcastStatus_eq {payload : StdString} {response : Response}
    {status : ReceiverStatus}
    (hincoming : incoming rapid payload = .ok (some response))
    (hid : response.requestId = 0)
    (hstatus : ReceiverStatus.fromMessage rapid response.message =
      .ok status) : broadcastStatus rapid payload = some status := by
  simp [broadcastStatus, hincoming, hid, hstatus, Except.toOption]

theorem exists_of_broadcastStatus {payload : StdString}
    {status : ReceiverStatus}
    (h : broadcastStatus rapid payload = some status) :
    ∃ response, incoming rapid payload = .ok (some response) ∧
      response.requestId = 0 ∧
      ReceiverStatus.fromMessage rapid response.message = .ok status := by
  unfold broadcastStatus at h
  split at h
  next response hincoming =>
    split_ifs at h with hid
    cases hstatus : ReceiverStatus.fromMessage rapid response.message with
    | error fault =>
        rw [hstatus] at h
        cases h
    | ok decoded =>
        rw [hstatus] at h
        cases h
        exact ⟨response, hincoming, hid, hstatus⟩
  next => cases h

/-! ## The number of a launch -/

/-- The uses of the number of a `Launch` call: while `OnStopped` runs, while
its application is pending, and for the `Initialize` it caused. -/
def uses (call : ℕ) (channel : ReceiverChannel α) : ℕ :=
  channel.stopping.countP (fun rest => rest.call = call) +
    (if channel.pending = some call then 1 else 0) +
    channel.observed.countP (Observed.initializesLaunch call)

theorem uses_append {channel next : ReceiverChannel α}
    (more : List (Observed α))
    (hobserved : next.observed = channel.observed ++ more)
    (hmore : ∀ call, more.countP (Observed.initializesLaunch call) = 0)
    (hpending : next.pending = channel.pending) (call : ℕ) :
    next.uses call + channel.stopping.countP (fun rest => rest.call = call) =
      channel.uses call +
        next.stopping.countP (fun rest => rest.call = call) := by
  unfold uses
  rw [hobserved, hpending, List.countP_append, hmore]
  omega

/-- No call of `Launch` has its number used twice. -/
structure UsedOnce (channel : ReceiverChannel α) : Prop where
  used_once : ∀ call, channel.uses call ≤ 1
  unused : ∀ call, channel.calls ≤ call → channel.uses call = 0

theorem usedOnce_construct (memory : Memory) :
    UsedOnce (construct memory : ReceiverChannel α) where
  used_once _ := by
    unfold uses
    rw [pending_construct]
    simp [construct]
  unused _ _ := by
    unfold uses
    rw [pending_construct]
    simp [construct]

theorem UsedOnce.mono {channel next : ReceiverChannel α}
    (h : channel.UsedOnce)
    (huses : ∀ call, next.uses call ≤ channel.uses call)
    (hcalls : channel.calls ≤ next.calls) : next.UsedOnce where
  used_once call := Nat.le_trans (huses call) (h.used_once call)
  unused call hcall := by
    have hle := huses call
    rw [h.unused call (Nat.le_trans hcalls hcall)] at hle
    exact Nat.le_zero.mp hle

/-- A step which starts, stops or initializes no application. -/
theorem UsedOnce.same {channel next : ReceiverChannel α}
    (h : channel.UsedOnce) (more : List (Observed α))
    (hobserved : next.observed = channel.observed ++ more)
    (hmore : ∀ call, more.countP (Observed.initializesLaunch call) = 0)
    (hpending : next.pending = channel.pending)
    (hstopping : next.stopping.Sublist channel.stopping)
    (hcalls : channel.calls ≤ next.calls) : next.UsedOnce := by
  refine h.mono (fun call => ?_) hcalls
  have hstack := hstopping.countP_le (p := fun rest => rest.call = call)
  have heq := uses_append more hobserved hmore hpending call
  omega

/-- The number of a call that is being made comes into use. -/
theorem UsedOnce.use {channel next : ReceiverChannel α}
    (h : channel.UsedOnce)
    (huses : ∀ call, next.uses call ≤
      channel.uses call + if channel.calls = call then 1 else 0)
    (hcalls : next.calls = channel.calls + 1) : next.UsedOnce where
  used_once call := by
    have hle := huses call
    have hold := h.used_once call
    split_ifs at hle with hcall
    · rw [h.unused call (Nat.le_of_eq hcall)] at hle
      exact hle
    · exact Nat.le_trans hle hold
  unused call hcall := by
    have hle := huses call
    rw [hcalls] at hcall
    rw [h.unused call (Nat.le_of_lt hcall), if_neg (Nat.ne_of_lt hcall)] at hle
    exact Nat.le_zero.mp hle

/-- The application of the call becomes the current one, and is pending if the
flag is set. -/
theorem launchStopped_pending (channel : ReceiverChannel α)
    (rest : Stopping α) (sending : Outcome Unit) {call : ℕ}
    (hpending : (channel.launchStopped rapid getId sending rest).2.pending =
      some call) : rest.call = call := by
  unfold pending at hpending
  split_ifs at hpending
  cases sending <;> exact Option.some.inj hpending

/-- The rest of a `Launch` call takes its number along. -/
theorem uses_launchStopped (channel : ReceiverChannel α) (rest : Stopping α)
    (sending : Outcome Unit) (call : ℕ) :
    (channel.launchStopped rapid getId sending rest).2.uses call ≤
      channel.uses call + if rest.call = call then 1 else 0 := by
  unfold uses
  rw [launchStopped_stopping, launchStopped_observed]
  by_cases hpending : (channel.launchStopped rapid getId sending
      rest).2.pending = some call
  · rw [if_pos hpending, if_pos (launchStopped_pending _ _ _ hpending)]
    omega
  · rw [if_neg hpending]
    omega

theorem uses_launching (application : α) (channel : ReceiverChannel α)
    (call : ℕ) :
    (channel.launching application).uses call = channel.uses call := by
  have hmore : ∀ call, [Observed.launch channel.calls application].countP
      (Observed.initializesLaunch call) = 0 := fun _ => rfl
  have hobserved : (channel.launching application).observed =
      channel.observed ++ [.launch channel.calls application] := rfl
  exact Nat.add_right_cancel (uses_append _ hobserved hmore rfl call)

theorem uses_stopping (channel : ReceiverChannel α) (rest : Stopping α)
    (call : ℕ) :
    ({ channel with stopping := rest :: channel.stopping } :
        ReceiverChannel α).uses call =
      channel.uses call + if rest.call = call then 1 else 0 := by
  have hpending : ({ channel with stopping := rest :: channel.stopping } :
      ReceiverChannel α).pending = channel.pending := rfl
  unfold uses
  rw [hpending]
  simp only [List.countP_cons, decide_eq_true_eq]
  omega

/-- The pending call hands its number to the `Initialize` it caused. -/
theorem uses_initialized (channel : ReceiverChannel α)
    (status : ReceiverStatus) (application : α) (info : ApplicationInfo)
    (hlaunching : channel.launchingApplication = true) (call : ℕ) :
    (channel.initialized status application info).uses call =
      channel.uses call := by
  have hpending : channel.pending = channel.owner := if_pos hlaunching
  have hnone : (channel.initialized status application info).pending =
      none := rfl
  unfold uses
  rw [hpending, hnone]
  simp only [initialized, setStatus, List.countP_append,
    List.countP_singleton, Observed.initializesLaunch, decide_eq_true_eq,
    reduceCtorEq, if_false]
  omega

theorem UsedOnce.step {channel next : ReceiverChannel α} {event : Event α}
    (h : channel.UsedOnce)
    (hstep : channel.step rapid getId event = some next) :
    next.UsedOnce := by
  cases step_cases hstep with
  | requested | stored =>
      refine h.same [] (List.append_nil _).symm ?_ rfl
        (List.Sublist.refl _) (Nat.le_refl _)
      simp
  | launched application hasCallback sending hnone =>
      refine h.use (fun call => ?_) (launchStopped_calls rapid getId _ _ _)
      rw [← uses_launching application channel call]
      exact uses_launchStopped _ _ _ _
  | stopping application current hasCallback sending hsome =>
      refine h.use (fun call => ?_) rfl
      rw [← uses_launching application channel call]
      exact Nat.le_of_eq (uses_stopping (channel.launching application)
        ⟨channel.calls, application, hasCallback⟩ call)
  | stopFailed rest stopping fault sending hstack =>
      refine h.same [] (List.append_nil _).symm ?_ rfl ?_ (Nat.le_refl _)
      · simp
      · rw [hstack]
        exact List.sublist_cons_self _ _
  | stopped rest stopping sending hstack =>
      have hcalls := launchStopped_calls rapid getId sending rest
        { channel with stopping }
      refine h.mono (fun call => ?_) (Nat.le_of_eq hcalls.symm)
      have hrest := uses_stopping { channel with stopping } rest call
      rw [← hstack] at hrest
      rw [hrest]
      exact uses_launchStopped _ _ _ _
  | joined application sending =>
      refine h.same [.join channel.calls application] rfl ?_ rfl
        (List.Sublist.refl _) (Nat.le_succ _)
      simp [Observed.initializesLaunch]
  | completed initialization call value =>
      refine h.same [.completed call value] rfl ?_ rfl
        (List.Sublist.refl _) (Nat.le_refl _)
      simp [Observed.initializesLaunch]
  | initialized payload ending response status application info _ _ _ _
      hlaunching =>
      exact h.mono
        (fun call => Nat.le_of_eq (uses_initialized _ _ _ _ hlaunching call))
        (Nat.le_refl _)
  | answered payload ending response entry call application status _
      hincoming hentry hcallback hstatus hjoin =>
      cases hjoin with
      | refused =>
          refine h.same [.completed call false] rfl ?_ rfl
            (List.Sublist.refl _) (Nat.le_refl _)
          simp [Observed.initializesLaunch]
      | initialized joining info hgiven hnone =>
          refine h.same [.initializing (.join call) joining info] rfl ?_ rfl
            (List.Sublist.refl _) (Nat.le_refl _)
          simp [Observed.initializesLaunch]

/-! ## Whose application it is -/

/-- The application and the callback of the channel are those of the call that
stored them, and a status initializes no other. -/
structure Owned (channel : ReceiverChannel α) : Prop where
  current : ∀ call ∈ channel.owner, ∃ application,
    channel.application = some application ∧
      .launch call application ∈ channel.observed
  stored : ∀ call ∈ channel.onApplicationLaunched,
    channel.owner = some call
  stopping : ∀ rest ∈ channel.stopping,
    .launch rest.call rest.application ∈ channel.observed
  initialized : ∀ call awaited application info,
    .initializing (.broadcast (some call) awaited) application info ∈
        channel.observed →
      .launch call application ∈ channel.observed
  waiting : channel.waiting = true →
    channel.owner.isSome = true ∧ channel.launchingApplication = true

theorem owned_construct (memory : Memory) :
    Owned (construct memory : ReceiverChannel α) where
  current := by simp [construct]
  stored := by simp [construct]
  stopping := by simp [construct]
  initialized := by simp [construct]
  waiting := by simp [construct]

/-- A status calls `Initialize`. -/
def Observed.IsInitialized : Observed α → Prop
  | .initializing (.broadcast _ _) _ _ => True
  | _ => False

/-- A step which stores no application and calls no `Initialize` for a
status. -/
theorem Owned.same {channel next : ReceiverChannel α} (h : channel.Owned)
    (more : List (Observed α))
    (hobserved : next.observed = channel.observed ++ more)
    (hmore : ∀ observed ∈ more, ¬observed.IsInitialized)
    (hrest : next = { channel with
      requests := next.requests
      lastFullStatus := next.lastFullStatus
      application := next.application
      stopping := next.stopping
      calls := next.calls
      observed := next.observed })
    (happlication : channel.owner.isSome = true →
      next.application = channel.application)
    (hstopping : ∀ rest ∈ next.stopping, rest ∈ channel.stopping ∨
      .launch rest.call rest.application ∈ more) : next.Owned := by
  have howner : next.owner = channel.owner := by rw [hrest]
  have hstored : next.onApplicationLaunched =
      channel.onApplicationLaunched := by rw [hrest]
  have hwaiting : next.waiting = channel.waiting := by rw [hrest]
  have hflag : next.launchingApplication = channel.launchingApplication := by
    rw [hrest]
  have hkept : ∀ observed, observed ∈ channel.observed →
      observed ∈ next.observed := by
    intro observed hmem
    rw [hobserved]
    exact List.mem_append_left _ hmem
  refine ⟨fun call hcall => ?_, fun call hcall => ?_, fun rest hmem => ?_,
    fun call awaited application info hmem => ?_, fun hwaits => ?_⟩
  · rw [howner] at hcall
    obtain ⟨application, hsame, hmem⟩ := h.current call hcall
    rw [happlication (Option.isSome_of_mem hcall)]
    exact ⟨application, hsame, hkept _ hmem⟩
  · rw [hstored] at hcall
    rw [howner]
    exact h.stored call hcall
  · rcases hstopping rest hmem with hold | hnew
    · exact hkept _ (h.stopping rest hold)
    · rw [hobserved]
      exact List.mem_append_right _ hnew
  · rw [hobserved, List.mem_append] at hmem
    rcases hmem with hold | hnew
    · exact hkept _ (h.initialized call awaited application info hold)
    · exact absurd trivial (hmore _ hnew)
  · rw [hwaiting] at hwaits
    rw [howner, hflag]
    exact h.waiting hwaits

/-- The rest of a `Launch` call stores its own application. -/
theorem Owned.launchStopped {channel : ReceiverChannel α}
    (h : channel.Owned) {rest : Stopping α}
    (hrest : .launch rest.call rest.application ∈ channel.observed)
    (sending : Outcome Unit) :
    (channel.launchStopped rapid getId sending rest).2.Owned := by
  have hstored : ∀ call,
      call ∈ (if rest.hasCallback then some rest.call else none) →
        some rest.call = some call := by
    intro call hcall
    split_ifs at hcall
    · exact hcall
    · cases hcall
  cases sending with
  | error fault =>
      refine ⟨?_, hstored, h.stopping, h.initialized, fun hwaits => ?_⟩
      · rintro call ⟨⟩
        exact ⟨rest.application, rfl, hrest⟩
      · cases hwaits
  | ok _ =>
      refine ⟨?_, hstored, h.stopping, h.initialized, fun _ => ⟨rfl, rfl⟩⟩
      rintro call ⟨⟩
      exact ⟨rest.application, rfl, hrest⟩

/-- A status initializes the current application. -/
theorem Owned.initialize {channel : ReceiverChannel α} (h : channel.Owned)
    (status : ReceiverStatus) {application : α} (info : ApplicationInfo)
    (happlication : channel.application = some application) :
    (channel.initialized status application info).Owned := by
  have hkept : ∀ observed, observed ∈ channel.observed →
      observed ∈ (channel.initialized status application info).observed :=
    fun _ hmem => List.mem_append_left _ hmem
  refine ⟨fun call hcall => ?_, h.stored,
    fun rest hrest => hkept _ (h.stopping rest hrest),
    fun call awaited other named hmem => ?_, fun hwaits => ?_⟩
  · obtain ⟨current, hcurrent, hmem⟩ := h.current call hcall
    exact ⟨current, hcurrent, hkept _ hmem⟩
  · rcases List.mem_append.mp hmem with hold | hnew
    · exact hkept _ (h.initialized call awaited other named hold)
    · rw [List.mem_singleton, Observed.initializing.injEq,
        Cause.broadcast.injEq] at hnew
      obtain ⟨⟨howner, -⟩, rfl, -⟩ := hnew
      obtain ⟨current, hcurrent, hmem⟩ := h.current call howner.symm
      rw [happlication, Option.some.injEq] at hcurrent
      rw [← hcurrent] at hmem
      exact hkept _ hmem
  · cases hwaits

theorem Owned.step {channel next : ReceiverChannel α} {event : Event α}
    (h : channel.Owned)
    (hstep : channel.step rapid getId event = some next) : next.Owned := by
  cases step_cases hstep with
  | requested | stored =>
      exact h.same [] (List.append_nil _).symm (by simp) rfl (fun _ => rfl)
        fun _ => Or.inl
  | launched application hasCallback sending =>
      have hlaunching : (channel.launching application).Owned :=
        h.same [.launch channel.calls application] rfl
          (by simp [Observed.IsInitialized]) rfl (fun _ => rfl) fun _ => Or.inl
      exact hlaunching.launchStopped
        (List.mem_append_right _ List.mem_cons_self) sending
  | stopping application current hasCallback sending =>
      refine h.same [.launch channel.calls application] rfl
        (by simp [Observed.IsInitialized]) rfl (fun _ => rfl)
        fun rest hrest => ?_
      rcases List.mem_cons.mp hrest with rfl | hold
      · exact Or.inr List.mem_cons_self
      · exact Or.inl hold
  | stopFailed rest stopping fault sending hstack =>
      refine h.same [] (List.append_nil _).symm (by simp) rfl (fun _ => rfl)
        fun other hother => Or.inl ?_
      rw [hstack]
      exact List.mem_cons_of_mem _ hother
  | stopped rest stopping sending hstack =>
      have hmem : ∀ other ∈ stopping, other ∈ channel.stopping := by
        intro other hother
        rw [hstack]
        exact List.mem_cons_of_mem _ hother
      have hbase : ({ channel with stopping } : ReceiverChannel α).Owned :=
        h.same [] (List.append_nil _).symm (by simp) rfl (fun _ => rfl)
          fun other hother => Or.inl (hmem other hother)
      apply hbase.launchStopped
      apply h.stopping
      rw [hstack]
      exact List.mem_cons_self
  | joined application sending =>
      exact h.same [.join channel.calls application] rfl
        (by simp [Observed.IsInitialized]) rfl (fun _ => rfl) fun _ => Or.inl
  | completed initialization call value =>
      exact h.same [.completed call value] rfl
        (by simp [Observed.IsInitialized]) rfl (fun _ => rfl) fun _ => Or.inl
  | initialized payload ending response status application info _ _ _
      happlication =>
      exact h.initialize status info happlication
  | answered payload ending response entry call application status _
      hincoming hentry hcallback hstatus hjoin =>
      cases hjoin with
      | refused =>
          exact h.same [.completed call false] rfl
            (by simp [Observed.IsInitialized]) rfl (fun _ => rfl)
            fun _ => Or.inl
      | initialized joining info hgiven hnone =>
          refine h.same [.initializing (.join call) joining info] rfl
            (by simp [Observed.IsInitialized]) rfl (fun howner => ?_)
            fun _ => Or.inl
          obtain ⟨owner, howner⟩ := Option.isSome_iff_exists.mp howner
          obtain ⟨current, hcurrent, -⟩ := h.current owner howner
          have hnone' : channel.application = none := hnone
          rw [hnone'] at hcurrent
          cases hcurrent

/-! ## Awaited statuses -/

/-- For a status `Initialize` was called only while a `Launch` waited. -/
def Awaited (channel : ReceiverChannel α) : Prop :=
  ∀ owner awaited application info,
    .initializing (.broadcast owner awaited) application info ∈
        channel.observed →
      awaited = true ∧ owner.isSome = true

theorem Awaited.same {channel next : ReceiverChannel α}
    (h : channel.Awaited) (more : List (Observed α))
    (hobserved : next.observed = channel.observed ++ more)
    (hmore : ∀ observed ∈ more, ¬observed.IsInitialized) : next.Awaited := by
  intro owner awaited application info hmem
  rw [hobserved, List.mem_append] at hmem
  rcases hmem with hold | hnew
  · exact h owner awaited application info hold
  · exact absurd trivial (hmore _ hnew)

theorem Awaited.step {channel next : ReceiverChannel α} {event : Event α}
    (h : channel.Awaited) (howned : channel.Owned)
    (hawaited : channel.LaunchAwaited rapid getId event)
    (hstep : channel.step rapid getId event = some next) :
    next.Awaited := by
  cases step_cases hstep with
  | requested | stored | stopFailed => exact h
  | launched application hasCallback sending =>
      apply h.same [.launch channel.calls application]
      · rw [launchStopped_observed]
        rfl
      · simp [Observed.IsInitialized]
  | stopped rest stopping sending =>
      apply h.same []
      · rw [launchStopped_observed, List.append_nil]
      · simp
  | stopping application =>
      exact h.same [.launch channel.calls application] rfl
        (by simp [Observed.IsInitialized])
  | joined application =>
      exact h.same [.join channel.calls application] rfl
        (by simp [Observed.IsInitialized])
  | completed initialization call value =>
      exact h.same [.completed call value] rfl
        (by simp [Observed.IsInitialized])
  | initialized payload ending response status application info hincoming
      hid hstatus happlication hlaunching hinfo =>
      have hwaiting : channel.waiting = true :=
        hawaited status (broadcastStatus_eq hincoming hid hstatus)
          application happlication hlaunching (by rw [hinfo]; rfl)
      intro owner awaited other named hmem
      rcases List.mem_append.mp hmem with hold | hnew
      · exact h owner awaited other named hold
      · rw [List.mem_singleton, Observed.initializing.injEq,
          Cause.broadcast.injEq] at hnew
        obtain ⟨⟨rfl, rfl⟩, -, -⟩ := hnew
        exact ⟨hwaiting, (howned.waiting hwaiting).1⟩
  | answered payload ending response entry call application status _
      hincoming hentry hcallback hstatus hjoin =>
      cases hjoin with
      | refused =>
          exact h.same [.completed call false] rfl
            (by simp [Observed.IsInitialized])
      | initialized joining info =>
          exact h.same [.initializing (.join call) joining info] rfl
            (by simp [Observed.IsInitialized])

/-! ## The memory of the flag -/

/-- The channel with another content of the flag. -/
def withFlag (flag : Bool) (channel : ReceiverChannel α) :
    ReceiverChannel α :=
  { channel with launchingApplication := flag }

theorem withFlag_requests (flag : Bool) (channel : ReceiverChannel α) :
    (channel.withFlag flag).requests = channel.requests := rfl

variable (rapid getId) in
theorem withFlag_launchStopped (flag : Bool) (channel : ReceiverChannel α)
    (rest : Stopping α) (sending : Outcome Unit) :
    ∃ after,
      (channel.withFlag flag).launchStopped rapid getId sending rest =
        ((channel.launchStopped rapid getId sending rest).1,
          (channel.launchStopped rapid getId sending
            rest).2.withFlag after) := by
  cases sending with
  | error fault => exact ⟨flag, rfl⟩
  | ok _ => exact ⟨true, rfl⟩

theorem onReceiverStatus_of_none {channel : ReceiverChannel α}
    (ending : Outcome Unit) (status : ReceiverStatus)
    (hnone : channel.application = none) :
    channel.onReceiverStatus getId ending status =
      (.ok (), channel.setStatus status) := by
  unfold onReceiverStatus
  dsimp only
  split
  next => rfl
  next application happlication =>
    have hsome : channel.application = some application := happlication
    rw [hnone] at hsome
    cases hsome

theorem onReceiverStatus_of_some {channel : ReceiverChannel α}
    (ending : Outcome Unit) (status : ReceiverStatus) {application : α}
    (hsome : channel.application = some application) :
    channel.onReceiverStatus getId ending status =
      if status.applications = [] ∨ channel.launchingApplication = false then
        (.ok (), channel.setStatus status)
      else
        match status.applications.find? (names (getId application)) with
        | none => (.ok (), channel.setStatus status)
        | some info =>
            (ending, channel.initialized status application info) := by
  unfold onReceiverStatus
  dsimp only
  split
  next hnone =>
    have hnone' : channel.application = none := hnone
    rw [hnone'] at hsome
    cases hsome
  next other hother =>
    have hsame : channel.application = some other := hother
    rw [hsome, Option.some.injEq] at hsame
    subst hsame
    rfl

/-- With the flag or without it, a status is taken for an awaited one exactly
if a `Launch` waits. -/
theorem withFlag_onReceiverStatus {flag : Bool}
    {channel : ReceiverChannel α}
    (h : channel.waiting = true → channel.launchingApplication = true)
    (hflag : channel.waiting = true → flag = true) {status : ReceiverStatus}
    (hawaited : ∀ application, channel.application = some application →
      (channel.launchingApplication = true ∨ flag = true) →
        (status.applications.find? (names (getId application))).isSome →
          channel.waiting = true) (ending : Outcome Unit) :
    ∃ after, (channel.withFlag flag).onReceiverStatus getId ending status =
      ((channel.onReceiverStatus getId ending status).1,
        (channel.onReceiverStatus getId ending status).2.withFlag after) := by
  cases happlication : channel.application with
  | none =>
      rw [onReceiverStatus_of_none ending status happlication]
      exact ⟨flag, onReceiverStatus_of_none ending status happlication⟩
  | some application =>
      have hsame : (channel.withFlag flag).application = some application :=
        happlication
      rw [onReceiverStatus_of_some ending status happlication,
        onReceiverStatus_of_some ending status hsame]
      have hset : (channel.withFlag flag).launchingApplication = flag := rfl
      rw [hset]
      cases hinfo : status.applications.find?
          (names (getId application)) with
      | none => split_ifs <;> exact ⟨flag, rfl⟩
      | some info =>
          have hnamed := hawaited application happlication
          rw [hinfo] at hnamed
          by_cases hwaiting : channel.waiting = true
          · have hnamed : ¬(status.applications = [] ∨ true = false) := by
              rintro (hempty | hclear)
              · rw [hempty] at hinfo
                cases hinfo
              · cases hclear
            rw [h hwaiting, hflag hwaiting, if_neg hnamed, if_neg hnamed]
            exact ⟨false, rfl⟩
          · have hclear : channel.launchingApplication = false :=
              Bool.eq_false_iff.mpr fun hlaunching =>
                hwaiting (hnamed (Or.inl hlaunching) rfl)
            have hclear' : flag = false := Bool.eq_false_iff.mpr fun hset =>
              hwaiting (hnamed (Or.inr hset) rfl)
            rw [if_pos (Or.inr hclear), if_pos (Or.inr hclear')]
            exact ⟨flag, rfl⟩

theorem withFlag_onJoinStatus (flag : Bool) (channel : ReceiverChannel α)
    (ending : Outcome Unit) (call : ℕ) (application : Option α)
    (status : ReceiverStatus) :
    (channel.withFlag flag).onJoinStatus getId ending call application
        status =
      ((channel.onJoinStatus getId ending call application status).1,
        (channel.onJoinStatus getId ending call application
          status).2.withFlag flag) := by
  unfold onJoinStatus
  cases application with
  | none => rfl
  | some joining =>
      have hsame : (channel.withFlag flag).application =
          channel.application := rfl
      dsimp only
      rw [hsame]
      split_ifs
      · rfl
      · split <;> rfl

variable (rapid getId) in
theorem withFlag_invoke (flag : Bool) (channel : ReceiverChannel α)
    (message : Json) (ending : Outcome Unit)
    (callback : ReceiverCallback α) :
    (channel.withFlag flag).invoke rapid getId ending message callback =
      ((channel.invoke rapid getId ending message callback).1,
        (channel.invoke rapid getId ending message
          callback).2.withFlag flag) := by
  cases callback with
  | availability appIds hasCallback =>
      simp only [invoke]
      cases readAvailability appIds message <;> rfl
  | status hasCallback =>
      simp only [invoke]
      cases ReceiverStatus.fromMessage rapid message <;> rfl
  | launch => rfl
  | join call application =>
      simp only [invoke]
      cases ReceiverStatus.fromMessage rapid message with
      | error fault => rfl
      | ok status =>
          exact withFlag_onJoinStatus flag (channel.setStatus status) ending
            call application status
  | volume hasCallback =>
      simp only [invoke]
      cases ReceiverStatus.fromMessage rapid message <;> rfl

theorem withFlag_onMessage {flag : Bool} {channel : ReceiverChannel α}
    (h : channel.Owned) (hflag : (channel.withFlag flag).Owned)
    {payload : StdString} {ending : Outcome Unit}
    (hawaited : channel.LaunchAwaited rapid getId (.message payload ending))
    (hawaited' : (channel.withFlag flag).LaunchAwaited rapid getId
      (.message payload ending)) :
    ∃ after, (channel.withFlag flag).onMessage rapid getId ending payload =
      ((channel.onMessage rapid getId ending payload).1,
        (channel.onMessage rapid getId ending payload).2.withFlag after) := by
  unfold onMessage
  cases hincoming : incoming rapid payload with
  | error fault => exact ⟨flag, rfl⟩
  | ok response? =>
      cases response? with
      | none => exact ⟨flag, rfl⟩
      | some response =>
          dsimp only
          unfold onResponse
          by_cases hid : response.requestId = 0
          · rw [if_neg (not_not.mpr hid), if_neg (not_not.mpr hid)]
            cases hstatus : ReceiverStatus.fromMessage rapid
                response.message with
            | error fault => exact ⟨flag, rfl⟩
            | ok status =>
                have hbroadcast := broadcastStatus_eq hincoming hid hstatus
                have hreceived : ∃ after,
                    (channel.withFlag flag).onReceiverStatus getId ending
                        status =
                      ((channel.onReceiverStatus getId ending status).1,
                        (channel.onReceiverStatus getId ending
                          status).2.withFlag after) := by
                  apply withFlag_onReceiverStatus
                  · exact fun hwaits => (h.waiting hwaits).2
                  · exact fun hwaits => (hflag.waiting hwaits).2
                  · rintro application hsome (hset | hset) hnamed
                    · exact hawaited status hbroadcast application hsome hset
                        hnamed
                    · exact hawaited' status hbroadcast application hsome hset
                        hnamed
                obtain ⟨after, hafter⟩ := hreceived
                dsimp only
                rw [hafter]
                exact ⟨after, rfl⟩
          · rw [if_pos hid, if_pos hid, withFlag_requests]
            cases RequestMap.find? response.requestId
                (channel.requests.requestIdToRequest ()) with
            | none => exact ⟨flag, rfl⟩
            | some entry =>
                have hinvoke := withFlag_invoke rapid getId flag
                  (channel.answered response.requestId) response.message
                  ending entry.2.callback
                exact ⟨flag, congrArg
                  (fun result : Outcome Unit × ReceiverChannel α =>
                    (result.1.map fun _ => true, result.2)) hinvoke⟩

theorem withFlag_complete (flag : Bool) (initialization : ℕ) (value : Bool)
    (channel : ReceiverChannel α) :
    (channel.withFlag flag).complete initialization value =
      (channel.complete initialization value).map (withFlag flag) := by
  have hsame : (channel.withFlag flag).observed = channel.observed := rfl
  have hcallback : (channel.withFlag flag).onApplicationLaunched =
      channel.onApplicationLaunched := rfl
  unfold complete
  rw [hsame, hcallback]
  split
  · split <;> rfl
  · rfl
  · rfl

/-- Two channels that differ in the flag step alike, as long as none takes a
status for an awaited one while nothing waits. -/
theorem withFlag_step {flag : Bool} {channel next : ReceiverChannel α}
    {event : Event α} (h : channel.Owned)
    (hflag : (channel.withFlag flag).Owned)
    (hawaited : channel.LaunchAwaited rapid getId event)
    (hawaited' : (channel.withFlag flag).LaunchAwaited rapid getId event)
    (hstep : channel.step rapid getId event = some next) :
    ∃ after, (channel.withFlag flag).step rapid getId event =
      some (next.withFlag after) := by
  cases event with
  | getAppAvailabillity appIds hasCallback sending =>
      cases hstep
      refine ⟨flag, ?_⟩
      simp only [step, getAppAvailabillity]
      cases throwOnError appIds.isEmpty _ <;> rfl
  | getStatus hasCallback sending => cases hstep; exact ⟨flag, rfl⟩
  | mute mute hasCallback sending => cases hstep; exact ⟨flag, rfl⟩
  | setVolume volumeLevel hasCallback sending =>
      cases hstep
      exact ⟨flag, rfl⟩
  | launch application hasCallback sending =>
      cases hstep
      cases application with
      | none => exact ⟨flag, rfl⟩
      | some application =>
          have hsame : (channel.withFlag flag).application =
              channel.application := rfl
          simp only [step, launch]
          rw [hsame]
          cases channel.application with
          | none =>
              obtain ⟨after, hafter⟩ := withFlag_launchStopped rapid getId
                flag (channel.launching application)
                ⟨channel.calls, application, hasCallback⟩ sending
              exact ⟨after, congrArg (fun result => some (Prod.snd result))
                hafter⟩
          | some current => exact ⟨flag, rfl⟩
  | stopped outcome sending =>
      have hsame : (channel.withFlag flag).stopping = channel.stopping := rfl
      simp only [step, onStoppedReturned] at hstep ⊢
      rw [hsame]
      cases hstack : channel.stopping with
      | nil => simp [hstack] at hstep
      | cons rest stopping =>
          simp only [hstack] at hstep ⊢
          cases outcome with
          | error fault =>
              cases hstep
              exact ⟨flag, rfl⟩
          | ok _ =>
              cases hstep
              obtain ⟨after, hafter⟩ := withFlag_launchStopped rapid getId
                flag { channel with stopping } rest sending
              exact ⟨after, congrArg (fun result => some (Prod.snd result))
                hafter⟩
  | join application hasCallback sending =>
      cases hstep
      cases hasCallback <;> exact ⟨flag, rfl⟩
  | complete initialization value =>
      have hcomplete := withFlag_complete flag initialization value channel
      simp only [step] at hstep ⊢
      rw [hcomplete, hstep]
      exact ⟨flag, rfl⟩
  | message payload ending =>
      simp only [step] at hstep ⊢
      obtain ⟨after, hafter⟩ :=
        withFlag_onMessage h hflag hawaited hawaited'
      rw [hafter]
      generalize channel.onMessage rapid getId ending payload = result
        at hstep ⊢
      obtain ⟨outcome, last⟩ := result
      cases outcome with
      | ok _ =>
          cases hstep
          exact ⟨after, rfl⟩
      | error fault =>
          cases fault with
          | raised exception =>
              cases hstep
              exact ⟨after, rfl⟩
          | violated => cases hstep
  | expire timer =>
      obtain ⟨requests, hexpire, rfl⟩ := Option.map_eq_some_iff.mp hstep
      exact ⟨flag, Option.map_eq_some_iff.mpr ⟨requests, hexpire, rfl⟩⟩
  | fire timer sending =>
      obtain ⟨requests, hfire, rfl⟩ := Option.map_eq_some_iff.mp hstep
      exact ⟨flag, Option.map_eq_some_iff.mpr ⟨requests, hfire, rfl⟩⟩
  | draw => cases hstep; exact ⟨flag, rfl⟩

theorem withFlag_run {flag : Bool} {channel last : ReceiverChannel α}
    {events : List (Event α)} (h : channel.Owned)
    (hflag : (channel.withFlag flag).Owned)
    (hrun : exec (step rapid getId) channel events = some last)
    (hawaited : Along (step rapid getId) (LaunchAwaited rapid getId) channel
      events)
    (hawaited' : Along (step rapid getId) (LaunchAwaited rapid getId)
      (channel.withFlag flag) events) :
    ∃ after, exec (step rapid getId) (channel.withFlag flag) events =
      some (last.withFlag after) := by
  induction events generalizing flag channel with
  | nil =>
      cases hrun
      exact ⟨flag, rfl⟩
  | cons event rest ih =>
      obtain ⟨next, hstep, hrest⟩ := exec_cons_eq_some.mp hrun
      obtain ⟨middle, hmiddle⟩ :=
        withFlag_step h hflag hawaited.1 hawaited'.1 hstep
      obtain ⟨after, hafter⟩ := ih (h.step hstep) (hflag.step hmiddle) hrest
        (hawaited.2 next hstep) (hawaited'.2 _ hmiddle)
      exact ⟨after, exec_cons_eq_some.mpr ⟨_, hmiddle, hafter⟩⟩

/-! ## The contract -/

theorem countP_le_one {β : Type} {p : β → Bool} {items : List β}
    (h : items.Pairwise fun earlier later => p later → ¬p earlier) :
    items.countP p ≤ 1 := by
  induction h with
  | nil => exact Nat.zero_le _
  | @cons first rest hfirst hrest ih =>
      rw [List.countP_cons]
      by_cases hp : p first
      · have hzero : rest.countP p = 0 := by
          rw [List.countP_eq_zero]
          intro later hlater hp'
          exact hfirst later hlater hp' hp
        rw [hzero, if_pos hp]
      · rw [if_neg hp]
        exact ih

theorem Awaited.oneInitialization {channel : ReceiverChannel α}
    (h : channel.Awaited) (hused : channel.UsedOnce) (howned : channel.Owned)
    (hjoining : Joining getId channel) : channel.OneInitialization where
  launches call := by
    have honce := hused.used_once call
    unfold uses at honce
    omega
  joins call := by
    apply countP_le_one
    apply hjoining.first.imp
    intro earlier later hfirst hlater hearlier
    have hjoin : ∀ observed : Observed α,
        observed.initializesJoin call → observed.IsJoin ∧
          observed.Settles := by
      intro observed hby
      cases observed with
      | initializing cause application info =>
          cases cause with
          | broadcast owner awaited => cases hby
          | join other => exact ⟨trivial, trivial⟩
      | launch => cases hby
      | join => cases hby
      | completed => cases hby
    exact hfirst (hjoin later hlater).1 (hjoin earlier hearlier).2
  awaited owner awaited application info hmem := by
    obtain ⟨hawaited, howner⟩ := h owner awaited application info hmem
    obtain ⟨call, rfl⟩ := Option.isSome_iff_exists.mp howner
    exact ⟨hawaited, call, rfl,
      howned.initialized call awaited application info hmem⟩

/-- In every run in which a status is taken for an awaited one only while a
`Launch` waits, `Initialize` is called once for each launch and join, and the
calls do not depend on what the memory of the flag held. -/
theorem oneInitialization_of_run {memory : Memory} {events : List (Event α)}
    {last : ReceiverChannel α}
    (hrun : exec (step rapid getId) (construct memory) events = some last)
    (hawaited : Along (step rapid getId) (LaunchAwaited rapid getId)
      (construct memory) events) :
    last.OneInitialization ∧
      ∀ flag other,
        exec (step rapid getId)
            (construct { memory with launchingApplication := flag }) events =
          some other →
        Along (step rapid getId) (LaunchAwaited rapid getId)
            (construct { memory with launchingApplication := flag })
            events →
          other.observed = last.observed := by
  constructor
  · have hused : last.UsedOnce :=
      exec_invariant UsedOnce (fun _ _ _ h hstep => h.step hstep)
        (usedOnce_construct memory) hrun
    have hjoining : Joining getId last :=
      exec_invariant (Joining getId) (fun _ _ _ h hstep => h.step hstep)
        (joining_construct memory) hrun
    have hstart : (construct memory : ReceiverChannel α).Awaited :=
      fun _ _ _ _ hmem => absurd hmem List.not_mem_nil
    have hlast : last.Owned ∧ last.Awaited :=
      exec_invariant_along
        (fun (current : ReceiverChannel α) event next
            (h : current.Owned ∧ current.Awaited) hevent hstep =>
          (⟨h.1.step hstep, h.2.step h.1 hevent hstep⟩ :
            next.Owned ∧ next.Awaited))
        ⟨owned_construct memory, hstart⟩ hawaited hrun
    exact hlast.2.oneInitialization hused hlast.1 hjoining
  · intro flag other hother halong
    have hflag : (construct { memory with
        launchingApplication := flag } : ReceiverChannel α) =
          (construct memory).withFlag flag := rfl
    have howned := owned_construct (α := α) { memory with
      launchingApplication := flag }
    rw [hflag] at hother halong howned
    obtain ⟨after, hafter⟩ := withFlag_run (owned_construct memory) howned
      hrun hawaited halong
    rw [hother, Option.some.injEq] at hafter
    rw [hafter]
    rfl

/-- The request of a `Launch` is sent. -/
def Event.SendsLaunch : Event α → Prop
  | .launch _ _ sending | .stopped _ sending => sending = .ok ()
  | _ => True

/-- Where the request of every `Launch` is sent the flag of a channel that was
clear is set exactly while a `Launch` waits. -/
theorem launching_eq_step {channel next : ReceiverChannel α}
    {event : Event α} (h : channel.launchingApplication = channel.waiting)
    (hsends : event.SendsLaunch)
    (hstep : channel.step rapid getId event = some next) :
    next.launchingApplication = next.waiting := by
  cases step_cases hstep with
  | requested | stored | stopping | stopFailed | joined | completed =>
      exact h
  | launched application hasCallback sending =>
      have hsent : sending = .ok () := hsends
      rw [hsent]
      rfl
  | stopped rest stopping sending =>
      have hsent : sending = .ok () := hsends
      rw [hsent]
      rfl
  | initialized => rfl
  | answered payload ending response entry call application status _
      hincoming hentry hcallback hstatus hjoin =>
      cases hjoin <;> exact h

/-- A channel whose flag was clear, and all of whose `Launch` requests are
sent, never takes a status for an awaited one. -/
theorem launchAwaited_of_clear {memory : Memory}
    (hclear : memory.launchingApplication = false) {events : List (Event α)}
    (hsends : Along (step rapid getId) (fun _ event => event.SendsLaunch)
      (construct memory) events) :
    Along (step rapid getId) (LaunchAwaited rapid getId) (construct memory)
      events := by
  have hstart : (construct memory : ReceiverChannel α).launchingApplication =
      (construct memory : ReceiverChannel α).waiting := hclear
  apply along_of_along
    (fun _ _ _ h hevent hstep => launching_eq_step h hevent hstep) _ hstart
    hsends
  intro channel event h _
  cases event with
  | message payload ending =>
      intro _ _ _ _ hflag _
      rw [← h]
      exact hflag
  | _ => trivial

/-- A status which is taken for an awaited one although nothing waits calls
`Initialize` once more. -/
theorem not_oneInitialization_of_step {channel next : ReceiverChannel α}
    {payload : StdString} {ending : Outcome Unit}
    (hstep : channel.step rapid getId (.message payload ending) = some next)
    (hunawaited : ¬channel.LaunchAwaited rapid getId
      (.message payload ending)) : ¬next.OneInitialization := by
  simp only [LaunchAwaited, not_forall] at hunawaited
  obtain ⟨status, hbroadcast, application, happlication, hflag, hsome,
    hwaiting⟩ := hunawaited
  obtain ⟨response, hincoming, hid, hstatus⟩ :=
    exists_of_broadcastStatus hbroadcast
  obtain ⟨info, hinfo⟩ := Option.isSome_iff_exists.mp hsome
  have happlications : ¬(status.applications = [] ∨
      channel.launchingApplication = false) := by
    rintro (hempty | hclear)
    · rw [hempty] at hinfo
      cases hinfo
    · rw [hflag] at hclear
      cases hclear
  have hreceived : (channel.onMessage rapid getId ending payload).2 =
      channel.initialized status application info := by
    unfold onMessage
    rw [hincoming]
    simp only [onResponse, hid, ne_eq, not_true_eq_false, if_false, hstatus,
      onReceiverStatus_of_some ending status happlication,
      if_neg happlications, hinfo]
  have hnext : next = channel.initialized status application info := by
    rw [← hreceived]
    simp only [step] at hstep
    split at hstep
    next => cases hstep
    next heq =>
      cases hstep
      rw [heq]
  intro h
  have hmem : .initializing (.broadcast channel.owner channel.waiting)
      application info ∈ next.observed := by
    rw [hnext]
    exact List.mem_append_right _ List.mem_cons_self
  exact hwaiting (h.awaited _ _ _ _ hmem).1

instance (channel : ReceiverChannel α) (event : Event α) :
    Decidable (channel.LaunchAwaited rapid getId event) :=
  match event with
  | .message payload _ => inferInstanceAs
      (Decidable (∀ status ∈ broadcastStatus rapid payload, _))
  | .getAppAvailabillity .. | .getStatus .. | .mute .. | .setVolume ..
  | .launch .. | .stopped .. | .join .. | .complete .. | .expire _
  | .fire .. | .draw => inferInstanceAs (Decidable True)

/-- `A` is launched, and launched again by a call whose request is not sent. -/
def unsentRun : List (Event StdString) :=
  [.launch (some (lit "A")) true (.ok ()),
    .launch (some (lit "A")) true (.ok ()),
    .stopped (.ok ()) (raise (.runtimeError [])),
    .message (runningText (lit "0")) (.ok ())]

example : (exec (step textJson id) (construct cleared) unsentRun).map
    (fun last => last.observed.countP Observed.unawaited) = some 1 := by
  decide +kernel

/-- The flag was set by chance; `A` is joined, and a status arrives. -/
def chance : Memory := { cleared with launchingApplication := true }

def unawaitedRun : List (Event StdString) :=
  [.join (some (lit "A")) true (.ok ()),
    .message (runningText (lit "1")) (.ok ()),
    .message (runningText (lit "0")) (.ok ())]

def awaitedRun : List (Event StdString) :=
  [.launch (some (lit "A")) true (.ok ()),
    .message (runningText (lit "0")) (.ok ()),
    .message (runningText (lit "0")) (.ok ())]

theorem oneInitialization_of_run_awaited :
    ∃ last, exec (step textJson id) (construct chance) awaitedRun =
        some last ∧ last.OneInitialization ∧
      ∀ flag other,
        exec (step textJson id)
            (construct { chance with launchingApplication := flag })
            awaitedRun = some other →
        Along (step textJson id) (LaunchAwaited textJson id)
            (construct { chance with launchingApplication := flag })
            awaitedRun →
          other.observed = last.observed := by
  have hsome : (exec (step textJson id) (construct chance)
      awaitedRun).isSome := by decide +kernel
  obtain ⟨last, hrun⟩ := Option.isSome_iff_exists.mp hsome
  have hawaited : Along (step textJson id) (LaunchAwaited textJson id)
      (construct chance) awaitedRun := by decide +kernel
  exact ⟨last, hrun, oneInitialization_of_run hrun hawaited⟩

/-- No `Launch` was called, and `Initialize` is called again for a status that
nothing waits for; with the flag clear it is not. -/
theorem not_oneInitialization_unawaited :
    ∃ last other,
      exec (step textJson id) (construct chance) unawaitedRun =
          some last ∧
        exec (step textJson id)
            (construct { chance with launchingApplication := false })
            unawaitedRun = some other ∧
        last.observed.countP Observed.unawaited = 1 ∧
        ¬last.OneInitialization ∧ last.observed ≠ other.observed := by
  have hlast : (exec (step textJson id) (construct chance)
      unawaitedRun).map (fun last => last.observed.countP
        Observed.unawaited) = some 1 := by
    decide +kernel
  have hother : (exec (step textJson id)
      (construct { chance with launchingApplication := false })
      unawaitedRun).map (fun other => other.observed.countP
        Observed.unawaited) = some 0 := by
    decide +kernel
  obtain ⟨last, hrun, hone⟩ := Option.map_eq_some_iff.mp hlast
  obtain ⟨other, hrun', hzero⟩ := Option.map_eq_some_iff.mp hother
  refine ⟨last, other, hrun, hrun', hone, ?_, ?_⟩
  · intro h
    obtain ⟨observed, hmem, hunawaited⟩ :=
      List.countP_pos_iff.mp (Nat.lt_of_lt_of_eq Nat.zero_lt_one hone.symm)
    cases observed with
    | initializing cause application info =>
        cases cause with
        | broadcast owner awaited =>
            rw [(h.awaited _ _ _ _ hmem).1] at hunawaited
            cases hunawaited
        | join call => cases hunawaited
    | launch => cases hunawaited
    | join => cases hunawaited
    | completed => cases hunawaited
  · intro hsame
    rw [hsame, hzero] at hone
    cases hone

end ReceiverChannel

end LibChromecast
