import LibChromecast.ReceiverLaunches

/-!
# Launch results

The completion that an `Initialize` call is handed reads
`_on_application_launched` when it is invoked.  The result of a launch goes to
its own callback unless another `Launch` stored one meanwhile.
-/

namespace LibChromecast

open Foundation Foundation.Transition

namespace ReceiverChannel

variable {α : Type} {rapid : RapidJson} {getId : α → StdString}

/-! ## The property -/

/-- The callback of the call was invoked. -/
def Observed.completes (call : ℕ) : Observed α → Bool
  | .completed other _ => other = call
  | _ => false

/-- A step that invokes the callback of a `Launch` call reports the completion
of the `Initialize` which the call caused. -/
def DeliversOwn (rapid : RapidJson) (getId : α → StdString)
    (channel : ReceiverChannel α) (event : Event α) : Prop :=
  ∀ next more, channel.step rapid getId event = some next →
    next.observed = channel.observed ++ more →
      ∀ call application value,
        .launch call application ∈ channel.observed →
          .completed call value ∈ more →
            ∃ initialization awaited started info,
              event = .complete initialization value ∧
                channel.observed[initialization]? = some
                  (.initializing (.broadcast (some call) awaited) started
                    info)

/-- No callback of a `Launch` call was invoked twice. -/
def InvokedOnce (channel : ReceiverChannel α) : Prop :=
  ∀ call application, .launch call application ∈ channel.observed →
    channel.observed.countP (Observed.completes call) ≤ 1

/-- The `Initialize` call whose completion an event reports. -/
def Event.reported : Event α → Option ℕ
  | .complete initialization _ => some initialization
  | _ => none

/-- Whose application it was that an `Initialize` was called on for a
broadcast status. -/
def owner? (channel : ReceiverChannel α) (initialization : ℕ) :
    Option (Option ℕ) :=
  match channel.observed[initialization]? with
  | some (.initializing (.broadcast owner _) _ _) => some owner
  | _ => none

/-- When a completion is reported, the stored callback is the one of the
`Launch` whose application was initialized, or there is none. -/
def NotReplaced (channel : ReceiverChannel α) : Event α → Prop
  | .complete initialization _ =>
      ∀ owner ∈ channel.owner? initialization,
        ∀ call ∈ channel.onApplicationLaunched, owner = some call
  | _ => True

instance (channel : ReceiverChannel α) (event : Event α) :
    Decidable (channel.NotReplaced event) :=
  match event with
  | .complete initialization _ => inferInstanceAs
      (Decidable (∀ owner ∈ channel.owner? initialization, _))
  | .getAppAvailabillity .. | .getStatus .. | .mute .. | .setVolume ..
  | .launch .. | .stopped .. | .join .. | .message .. | .expire _
  | .fire .. | .draw => inferInstanceAs (Decidable True)

theorem owner?_eq_some {channel : ReceiverChannel α} {initialization : ℕ}
    {owner : Option ℕ} :
    channel.owner? initialization = some owner ↔
      ∃ awaited application info, channel.observed[initialization]? = some
        (.initializing (.broadcast owner awaited) application info) := by
  unfold owner?
  constructor
  · intro h
    split at h
    next other awaited application info hobserved =>
      cases h
      exact ⟨awaited, application, info, hobserved⟩
    next => cases h
  · rintro ⟨awaited, application, info, hobserved⟩
    rw [hobserved]

/-! ## What a step observes -/

/-- At most one thing is observed in a step. -/
theorem observed_step {channel next : ReceiverChannel α} {event : Event α}
    (hstep : channel.step rapid getId event = some next) :
    ∃ more, next.observed = channel.observed ++ more ∧ more.length ≤ 1 := by
  have hnothing : ∃ more, channel.observed = channel.observed ++ more ∧
      more.length ≤ 1 := ⟨[], (List.append_nil _).symm, Nat.zero_le _⟩
  cases step_cases hstep with
  | requested | stored | stopFailed => exact hnothing
  | launched application hasCallback sending =>
      rw [launchStopped_observed]
      exact ⟨_, rfl, Nat.le_refl _⟩
  | stopped rest stopping sending =>
      rw [launchStopped_observed]
      exact hnothing
  | stopping | joined | completed | initialized =>
      exact ⟨_, rfl, Nat.le_refl _⟩
  | answered payload ending response entry call application status _
      hincoming hentry hcallback hstatus hjoin =>
      cases hjoin <;> exact ⟨_, rfl, Nat.le_refl _⟩

theorem observed_prefix {channel last : ReceiverChannel α}
    {events : List (Event α)}
    (hrun : exec (step rapid getId) channel events = some last) :
    channel.observed <+: last.observed := by
  apply exec_relation (fun before after : ReceiverChannel α =>
    before.observed <+: after.observed) _ _ _ hrun
  · exact fun _ => List.prefix_rfl
  · exact fun hfirst hsecond => hfirst.trans hsecond
  · intro before event after hstep
    obtain ⟨more, hmore, -⟩ := observed_step hstep
    rw [hmore]
    exact List.prefix_append _ _

/-- A completion of a broadcast `Initialize` goes to the stored callback, one
of a `Join` to the callback of the call. -/
theorem complete_cases {channel next : ReceiverChannel α}
    {initialization : ℕ} {value : Bool}
    (h : channel.complete initialization value = some next) :
    (∃ owner, channel.owner? initialization = some owner ∧
      ((channel.onApplicationLaunched = none ∧ next = channel) ∨
        ∃ call, channel.onApplicationLaunched = some call ∧
          next = channel.observe (.completed call value))) ∨
    ∃ call application info,
      channel.observed[initialization]? =
          some (.initializing (.join call) application info) ∧
        next = channel.observe (.completed call value) := by
  unfold complete at h
  split at h
  next owner awaited application info hobserved =>
    have howner := owner?_eq_some.mpr
      ⟨awaited, application, info, hobserved⟩
    refine Or.inl ⟨owner, howner, ?_⟩
    split at h
    next hnone =>
      cases h
      exact Or.inl ⟨hnone, rfl⟩
    next call hsome =>
      cases h
      exact Or.inr ⟨call, hsome, rfl⟩
  next call application info hobserved =>
    cases h
    exact Or.inr ⟨call, application, info, hobserved, rfl⟩
  next => cases h

theorem step_complete_of_owner {channel : ReceiverChannel α}
    {initialization call : ℕ} {owner : Option ℕ} {value : Bool}
    (howner : channel.owner? initialization = some owner)
    (hstored : channel.onApplicationLaunched = some call) :
    channel.step rapid getId (.complete initialization value) =
      some (channel.observe (.completed call value)) := by
  obtain ⟨awaited, application, info, hobserved⟩ := owner?_eq_some.mp howner
  simp only [step, complete, hobserved, hstored]

/-! ## The numbers of the calls -/

/-- The number of a `Launch` or `Join` call that is being made. -/
def Observed.begins : Observed α → Option ℕ
  | .launch call _ | .join call _ => some call
  | _ => none

/-- Which call a number belongs to. -/
structure Launched (channel : ReceiverChannel α) : Prop where
  numbered : ∀ observed ∈ channel.observed, ∀ call ∈ observed.begins,
    call < channel.calls
  apart : ∀ call application joining,
    .launch call application ∈ channel.observed →
      .join call joining ∉ channel.observed

theorem launched_construct (memory : Memory) :
    Launched (construct memory : ReceiverChannel α) where
  numbered := by simp [construct]
  apart := by simp [construct]

/-- A step that begins no call. -/
theorem Launched.same {channel next : ReceiverChannel α}
    (h : channel.Launched) (more : List (Observed α))
    (hobserved : next.observed = channel.observed ++ more)
    (hmore : ∀ observed ∈ more, observed.begins = none)
    (hcalls : next.calls = channel.calls) : next.Launched where
  numbered observed hmem call hcall := by
    rw [hobserved, List.mem_append] at hmem
    rw [hcalls]
    rcases hmem with hold | hnew
    · exact h.numbered observed hold call hcall
    · rw [hmore observed hnew] at hcall
      cases hcall
  apart call application joining hlaunch hjoin := by
    rw [hobserved, List.mem_append] at hlaunch hjoin
    rcases hlaunch with hlaunch | hlaunch
    · rcases hjoin with hjoin | hjoin
      · exact h.apart call application joining hlaunch hjoin
      · cases hmore _ hjoin
    · cases hmore _ hlaunch

/-- A step that begins a call with the next number. -/
theorem Launched.begin {channel next : ReceiverChannel α}
    (h : channel.Launched) (begun : Observed α)
    (hobserved : next.observed = channel.observed ++ [begun])
    (hbegun : begun.begins = some channel.calls)
    (hcalls : next.calls = channel.calls + 1) : next.Launched where
  numbered observed hmem call hcall := by
    rw [hobserved, List.mem_append, List.mem_singleton] at hmem
    rw [hcalls]
    rcases hmem with hold | rfl
    · exact Nat.lt_succ_of_lt (h.numbered observed hold call hcall)
    · rw [hbegun] at hcall
      cases hcall
      exact Nat.lt_succ_self _
  apart call application joining hlaunch hjoin := by
    rw [hobserved, List.mem_append, List.mem_singleton] at hlaunch hjoin
    rcases hlaunch with hlaunch | rfl
    · rcases hjoin with hjoin | rfl
      · exact h.apart call application joining hlaunch hjoin
      · have hlt := h.numbered _ hlaunch call rfl
        cases hbegun
        exact Nat.lt_irrefl _ hlt
    · rcases hjoin with hjoin | hjoin
      · have hlt := h.numbered _ hjoin call rfl
        cases hbegun
        exact Nat.lt_irrefl _ hlt
      · cases hjoin

theorem Launched.step {channel next : ReceiverChannel α} {event : Event α}
    (h : channel.Launched)
    (hstep : channel.step rapid getId event = some next) :
    next.Launched := by
  cases step_cases hstep with
  | requested | stored | stopFailed =>
      exact h.same [] (List.append_nil _).symm (by simp) rfl
  | launched application hasCallback sending =>
      refine h.begin (.launch channel.calls application) ?_ rfl
        (launchStopped_calls _ _ _ _ _)
      rw [launchStopped_observed]
      rfl
  | stopping application current hasCallback sending =>
      exact h.begin (.launch channel.calls application) rfl rfl rfl
  | stopped rest stopping sending =>
      refine h.same [] ?_ (by simp) (launchStopped_calls _ _ _ _ _)
      rw [launchStopped_observed, List.append_nil]
  | joined application sending =>
      exact h.begin (.join channel.calls application) rfl rfl rfl
  | completed initialization call value =>
      exact h.same [.completed call value] rfl (by simp [Observed.begins]) rfl
  | initialized payload ending response status application info =>
      exact h.same
        [.initializing (.broadcast channel.owner channel.waiting) application
          info] rfl (by simp [Observed.begins]) rfl
  | answered payload ending response entry call application status _
      hincoming hentry hcallback hstatus hjoin =>
      cases hjoin with
      | refused =>
          exact h.same [.completed call false] rfl
            (by simp [Observed.begins]) rfl
      | initialized joining info =>
          exact h.same [.initializing (.join call) joining info] rfl
            (by simp [Observed.begins]) rfl

/-! ## Completions -/

/-- The callback of a call is invoked by the completion of a broadcast
`Initialize` if it is the stored one, or else belongs to a `Join`. -/
theorem completed_step {channel next : ReceiverChannel α} {event : Event α}
    {more : List (Observed α)} {call : ℕ} {value : Bool}
    (hjoining : Joining getId channel)
    (hstep : channel.step rapid getId event = some next)
    (hobserved : next.observed = channel.observed ++ more)
    (hmem : .completed call value ∈ more) :
    (∃ application, .join call application ∈ channel.observed) ∨
      ∃ initialization owner,
        event = .complete initialization value ∧
          channel.owner? initialization = some owner ∧
            channel.onApplicationLaunched = some call := by
  have hmore : ∀ other : List (Observed α),
      next.observed = channel.observed ++ other →
        .completed call value ∈ other := by
    intro other hother
    rw [hobserved] at hother
    rw [← List.append_cancel_left hother]
    exact hmem
  have hnothing : next.observed = channel.observed → False := by
    intro hsame
    have hnil := hmore [] (hsame.trans (List.append_nil _).symm)
    cases hnil
  cases step_cases hstep with
  | requested | stored | stopFailed => exact absurd rfl hnothing
  | launched application hasCallback sending =>
      rw [launchStopped_observed] at hmore
      have hnew := hmore [.launch channel.calls application] rfl
      simp at hnew
  | stopping application current hasCallback sending =>
      have hnew := hmore [.launch channel.calls application] rfl
      simp at hnew
  | stopped rest stopping sending =>
      rw [launchStopped_observed] at hnothing
      exact absurd rfl hnothing
  | joined application sending =>
      have hnew := hmore [.join channel.calls application] rfl
      simp at hnew
  | completed initialization other reported =>
      have hnew := hmore [.completed other reported] rfl
      simp only [List.mem_singleton, Observed.completed.injEq] at hnew
      obtain ⟨rfl, rfl⟩ := hnew
      rcases complete_cases hstep with
        ⟨owner, howner, ⟨hnone, hsame⟩ | ⟨stored, hstored, hsame⟩⟩ |
          ⟨joined, application, info, hjoin, hsame⟩
      · exact absurd (congrArg ReceiverChannel.observed hsame) hnothing
      · have hlast := hmore [.completed stored value]
          (congrArg ReceiverChannel.observed hsame)
        simp only [List.mem_singleton, Observed.completed.injEq] at hlast
        rw [← hlast.1] at hstored
        exact Or.inr ⟨initialization, owner, rfl, howner, hstored⟩
      · have hlast := hmore [.completed joined value]
          (congrArg ReceiverChannel.observed hsame)
        simp only [List.mem_singleton, Observed.completed.injEq] at hlast
        rw [← hlast.1] at hjoin
        have hgiven := hjoining.given call application info
          (List.mem_of_getElem? hjoin)
        exact Or.inl ⟨some application, hgiven.1⟩
  | initialized payload ending response status application info =>
      have hnew := hmore
        [.initializing (.broadcast channel.owner channel.waiting) application
          info] rfl
      simp at hnew
  | answered payload ending response entry joined application status _
      hincoming hentry hcallback hstatus hjoin =>
      cases hjoin with
      | refused =>
          have hnew := hmore [.completed joined false] rfl
          simp only [List.mem_singleton, Observed.completed.injEq] at hnew
          rw [← hnew.1] at hcallback
          exact Or.inl ⟨application, hjoining.callbacks call application
            (Or.inl ⟨(), entry, OrderedMap.mem_of_find? _ hentry,
              hcallback⟩)⟩
      | initialized joining info =>
          have hnew := hmore [.initializing (.join joined) joining info] rfl
          simp at hnew

/-- What is known of the calls in every state of a run. -/
structure Calls (getId : α → StdString) (channel : ReceiverChannel α) :
    Prop where
  joining : Joining getId channel
  launched : channel.Launched
  owned : channel.Owned
  used : channel.UsedOnce

theorem calls_construct (memory : Memory) :
    Calls getId (construct memory) :=
  ⟨joining_construct memory, launched_construct memory,
    owned_construct memory, usedOnce_construct memory⟩

theorem Calls.step {channel next : ReceiverChannel α} {event : Event α}
    (h : Calls getId channel)
    (hstep : channel.step rapid getId event = some next) :
    Calls getId next :=
  ⟨h.joining.step hstep, h.launched.step hstep, h.owned.step hstep,
    h.used.step hstep⟩

/-- A completion goes to the call which caused it exactly if the stored
callback was not replaced. -/
theorem deliversOwn_iff {channel : ReceiverChannel α}
    (h : Calls getId channel) (event : Event α) :
    channel.DeliversOwn rapid getId event ↔ channel.NotReplaced event := by
  constructor
  · intro hdelivers
    cases event with
    | complete initialization value =>
        intro owner howner call hcall
        obtain ⟨launching, -, hlaunch⟩ :=
          h.owned.current call (h.owned.stored call hcall)
        obtain ⟨other, awaited, started, info, hevent, hobserved⟩ :=
          hdelivers _ _ (step_complete_of_owner howner hcall) rfl call
            launching value hlaunch (List.mem_singleton.mpr rfl)
        cases hevent
        have hother := owner?_eq_some.mpr ⟨awaited, started, info, hobserved⟩
        rw [howner] at hother
        exact Option.some.inj hother
    | _ => trivial
  · intro hkept next more hstep hobserved call application value hlaunch hmem
    rcases completed_step h.joining hstep hobserved hmem with
      ⟨joining, hjoin⟩ | ⟨initialization, owner, rfl, howner, hstored⟩
    · exact absurd hjoin (h.launched.apart call application joining hlaunch)
    · have hown := hkept owner howner call hstored
      rw [hown] at howner
      obtain ⟨awaited, started, info, hcause⟩ := owner?_eq_some.mp howner
      exact ⟨initialization, awaited, started, info, rfl, hcause⟩

theorem deliversOwn_along_iff {channel : ReceiverChannel α}
    (h : Calls getId channel) (events : List (Event α)) :
    Along (step rapid getId) (DeliversOwn rapid getId) channel events ↔
      Along (step rapid getId) NotReplaced channel events := by
  induction events generalizing channel with
  | nil => exact Iff.rfl
  | cons event rest ih =>
      unfold Along
      rw [deliversOwn_iff h]
      apply and_congr_right
      intro _
      apply forall_congr'
      intro next
      apply forall_congr'
      intro hstep
      exact ih (h.step hstep)

/-- The position holds the `Initialize` which the call caused. -/
def caused (call : ℕ) (observed : List (Observed α))
    (initialization : ℕ) : Bool :=
  observed[initialization]?.any (Observed.initializesLaunch call)

/-- The callback of a launch is invoked no more often than the completion of
an `Initialize` it caused is reported. -/
theorem completions_le {channel last : ReceiverChannel α}
    {events : List (Event α)} (h : Calls getId channel)
    (hrun : exec (step rapid getId) channel events = some last)
    (hkept : Along (step rapid getId) NotReplaced channel events)
    {call : ℕ} {application : α}
    (hlaunch : .launch call application ∈ last.observed) :
    last.observed.countP (Observed.completes call) ≤
      channel.observed.countP (Observed.completes call) +
        (events.filterMap Event.reported).countP
          (caused call last.observed) := by
  have hlast : Calls getId last :=
    exec_invariant (Calls getId) (fun _ _ _ hcalls hstep => hcalls.step hstep)
      h hrun
  induction events generalizing channel with
  | nil =>
      cases hrun
      exact Nat.le_add_right _ _
  | cons event rest ih =>
      obtain ⟨next, hstep, hrest⟩ := exec_cons_eq_some.mp hrun
      obtain ⟨more, hmore, hlength⟩ := observed_step hstep
      have hle := ih (h.step hstep) hrest (hkept.2 next hstep)
      rw [hmore, List.countP_append] at hle
      have hcons : (rest.filterMap Event.reported).countP
          (caused call last.observed) ≤
          ((event :: rest).filterMap Event.reported).countP
            (caused call last.observed) := by
        apply List.Sublist.countP_le
        exact (List.sublist_cons_self event rest).filterMap _
      by_cases hzero : more.countP (Observed.completes call) = 0
      · omega
      · have hone : more.countP (Observed.completes call) ≤ 1 :=
          Nat.le_trans List.countP_le_length hlength
        obtain ⟨observed, hmem, hcompletes⟩ :=
          List.countP_pos_iff.mp (Nat.pos_of_ne_zero hzero)
        obtain ⟨value, rfl⟩ : ∃ value, observed = .completed call value := by
          cases observed with
          | completed other value =>
              rw [of_decide_eq_true hcompletes]
              exact ⟨value, rfl⟩
          | _ => cases hcompletes
        have hextends := observed_prefix hrun
        rcases completed_step h.joining hstep hmore hmem with
          ⟨joining, hjoin⟩ | ⟨initialization, owner, rfl, howner, hstored⟩
        · exact absurd (hextends.subset hjoin)
            (hlast.launched.apart call application joining hlaunch)
        · have hown := hkept.1 owner howner call hstored
          rw [hown] at howner
          obtain ⟨awaited, started, info, hcause⟩ := owner?_eq_some.mp howner
          have hthere : caused call last.observed initialization = true := by
            obtain ⟨later, hlater⟩ := hextends
            unfold caused
            rw [← hlater, List.getElem?_append_left
              (List.getElem?_eq_some_iff.mp hcause).1, hcause]
            simp [Observed.initializesLaunch]
          have hfirst : ((Event.complete initialization value ::
              rest).filterMap Event.reported).countP
                (caused call last.observed) =
              (rest.filterMap Event.reported).countP
                (caused call last.observed) + 1 := by
            rw [List.filterMap_cons_some (show Event.reported (α := α)
              (.complete initialization value) = some initialization from rfl),
              List.countP_cons_of_pos hthere]
          omega

theorem two_le_countP {β : Type} {p : β → Bool} {items : List β} {i j : ℕ}
    (hlt : i < j) (hi : items[i]?.any p) (hj : items[j]?.any p) :
    2 ≤ items.countP p := by
  obtain ⟨first, hfirst, hpfirst⟩ := (Option.any_eq_true p _).mp hi
  obtain ⟨second, hsecond, hpsecond⟩ := (Option.any_eq_true p _).mp hj
  have hbefore : 0 < (items.take j).countP p := by
    rw [List.countP_pos_iff]
    refine ⟨first, List.mem_of_getElem? (i := i) ?_, hpfirst⟩
    rw [List.getElem?_take_of_lt hlt]
    exact hfirst
  have hafter : 0 < (items.drop j).countP p := by
    rw [List.countP_pos_iff]
    refine ⟨second, List.mem_of_getElem? (i := 0) ?_, hpsecond⟩
    rw [List.getElem?_drop]
    exact hsecond
  rw [← List.take_append_drop j items, List.countP_append]
  omega

/-- A call causes one `Initialize`, whose completion is reported once. -/
theorem caused_le_one {channel : ReceiverChannel α}
    (h : channel.UsedOnce) (call : ℕ) {reports : List ℕ}
    (honce : reports.Nodup) :
    reports.countP (caused call channel.observed) ≤ 1 := by
  apply countP_le_one
  apply honce.imp
  intro i j hne hj hi
  have huses := h.used_once call
  unfold uses at huses
  rcases Nat.lt_or_gt_of_ne hne with hlt | hlt
  · have htwo := two_le_countP hlt hi hj
    omega
  · have htwo := two_le_countP hlt hj hi
    omega

theorem invokedOnce_of_kept {memory : Memory} {events : List (Event α)}
    {last : ReceiverChannel α}
    (hrun : exec (step rapid getId) (construct memory) events = some last)
    (honce : (events.filterMap Event.reported).Nodup)
    (hkept : Along (step rapid getId) NotReplaced (construct memory)
      events) : last.InvokedOnce := by
  intro call application hlaunch
  have hlast : Calls getId last :=
    exec_invariant (Calls getId) (fun _ _ _ h hstep => h.step hstep)
      (calls_construct memory) hrun
  have hle := completions_le (calls_construct memory) hrun hkept hlaunch
  have hone := caused_le_one hlast.used call honce
  have hnone : (construct memory : ReceiverChannel α).observed.countP
      (Observed.completes call) = 0 := rfl
  omega

/-- In every run that reports the completion of an `Initialize` at most once,
each launch result goes to its own callback, once, exactly if no report finds
the callback of another `Launch` stored. -/
theorem launchResults_iff {memory : Memory} {events : List (Event α)}
    {last : ReceiverChannel α}
    (hrun : exec (step rapid getId) (construct memory) events = some last)
    (honce : (events.filterMap Event.reported).Nodup) :
    (Along (step rapid getId) (DeliversOwn rapid getId) (construct memory)
        events ∧ last.InvokedOnce) ↔
      Along (step rapid getId) NotReplaced (construct memory) events := by
  rw [deliversOwn_along_iff (calls_construct memory)]
  exact ⟨fun h => h.1, fun hkept =>
    ⟨hkept, invokedOnce_of_kept hrun honce hkept⟩⟩

/-- `A` is launched and found, and its completion reported. -/
def launchedRun : List (Event StdString) :=
  [.launch (some (lit "A")) true (.ok ()),
    .message (runningText (lit "0")) (.ok ()),
    .complete 1 true]

theorem launchResults_iff_launched :
    ∃ last, exec (step textJson id) (construct cleared) launchedRun =
        some last ∧
      Along (step textJson id) (DeliversOwn textJson id)
          (construct cleared) launchedRun ∧ last.InvokedOnce := by
  have hsome : (exec (step textJson id) (construct cleared)
      launchedRun).isSome := by decide +kernel
  obtain ⟨last, hrun⟩ := Option.isSome_iff_exists.mp hsome
  exact ⟨last, hrun, (launchResults_iff hrun (by decide)).mpr
    (by decide +kernel)⟩

/-- `B` is launched before the completion of `A` is reported. -/
def overtakenRun : List (Event StdString) :=
  [.launch (some (lit "A")) true (.ok ()),
    .message (runningText (lit "0")) (.ok ()),
    .launch (some (lit "B")) true (.ok ()),
    .stopped (.ok ()) (.ok ()),
    .complete 1 true]

/-- The callback of `B` is invoked with the result of `A`. -/
theorem not_deliversOwn_overtaken :
    (overtakenRun.filterMap Event.reported).Nodup ∧
      (exec (step textJson id) (construct cleared) overtakenRun).isSome ∧
      ¬Along (step textJson id) (DeliversOwn textJson id)
        (construct cleared) overtakenRun := by
  refine ⟨by decide, by decide +kernel, ?_⟩
  rw [deliversOwn_along_iff (calls_construct cleared)]
  decide +kernel

end ReceiverChannel

end LibChromecast
