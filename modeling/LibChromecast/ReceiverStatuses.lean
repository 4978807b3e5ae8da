import LibChromecast.Preconditions
import LibChromecast.ReceiverJoins

/-!
# Receiver statuses

A status is decoded from a message and stored in `_last_full_status`.  The
loop of the decoder reads the first application over and over, and the
assignment keeps an `is_active_input` that the new status does not have.
-/

namespace LibChromecast

open Foundation Foundation.Transition Json

/-! ## Decoding -/

/-- A status message whose applications are all well formed. -/
def Json.Check.statusMessage : Check :=
  Check.object [
    Check.required (lit "type") (Check.text (· = lit "RECEIVER_STATUS")),
    Check.required (lit "status") (Check.object
      (Check.basicReceiverStatus ++ [Check.required (lit "applications")
        (Check.array Check.applicationInfo)]))]

/-- The elements of an array in a member. -/
def Json.elements (name : StdString) (value : Json) : List Json :=
  match value.find? name with
  | some (.array items) => items
  | _ => []

/-- The array `applications` of a status message. -/
def applicationItems (message : Json) : List Json :=
  match message.find? (lit "status") with
  | some status => status.elements (lit "applications")
  | none => []

/-- The names in the array `namespaces` of an application, in order. -/
def namespaceNames (item : Json) : List StdString :=
  (item.elements (lit "namespaces")).map (Json.memberText (lit "name"))

/-- The message is decoded, and each application of the status is decoded from
the element at its place, with its namespaces in order. -/
def KeepsApplications (rapid : RapidJson) (message : Json) : Prop :=
  ∃ status, ReceiverStatus.fromMessage rapid message = .ok status ∧
    status.applications.length = (applicationItems message).length ∧
    ∀ (index : ℕ) item, (applicationItems message)[index]? = some item →
      ∃ info, status.applications[index]? = some info ∧
        ApplicationInfo.fromMessage item = .ok info ∧
        info.namespaces = namespaceNames item

/-- All applications are decoded alike. -/
def AlikeApplications (message : Json) : Prop :=
  ∀ first ∈ (applicationItems message).head?,
    ∀ item ∈ applicationItems message,
      ApplicationInfo.fromMessage item = ApplicationInfo.fromMessage first

theorem mapM_eq_ok_map {α β : Type} {read : α → Outcome β} {f : α → β}
    {items : List α} (h : ∀ item ∈ items, read item = .ok (f item)) :
    items.mapM read = .ok (items.map f) := by
  induction items with
  | nil => rfl
  | cons first rest ih =>
      rw [List.forall_mem_cons] at h
      rw [List.mapM_cons, h.1, ih h.2]
      rfl

theorem elements_of_find? {name : StdString} {value : Json}
    {items : List Json} (h : value.find? name = some (.array items)) :
    value.elements name = items := by
  unfold Json.elements
  rw [h]

theorem namespaceName_of_accepts {element : Json}
    (h : Check.object [Check.required (lit "name") Check.string] element =
      .accepts) :
    (element.member (lit "name") >>= getString) =
      .ok (element.memberText (lit "name")) := by
  obtain ⟨-, ⟨found, hfind, hfound⟩, -⟩ := exists_of_object_required h
  obtain ⟨text, rfl, -⟩ := Check.text_eq_accepts.mp hfound
  rw [member_of_find? hfind, memberText, hfind]
  rfl

/-- A well-formed application is decoded, with its namespaces in order. -/
theorem ApplicationInfo.namespaces_of_accepts {item : Json}
    (h : Check.applicationInfo item = .accepts) :
    ∃ info, ApplicationInfo.fromMessage item = .ok info ∧
      info.namespaces = namespaceNames item := by
  obtain ⟨info, hinfo⟩ := Verdict.of_eq_accepts.mp
    ((ApplicationInfo.follows item).trans h)
  refine ⟨info, hinfo, ?_⟩
  obtain ⟨-, hfields⟩ := Check.object_eq_accepts.mp h
  simp only [Check.fields_cons_eq_accepts, Check.required_eq_accepts,
    Check.array_eq_accepts] at hfields
  obtain ⟨-, -, -, -, -, ⟨found, hfind, elements, rfl, helements⟩, -⟩ :=
    hfields
  have hnames : (Json.array elements).mapItems (fun element => do
      (← element.member (lit "name")).getString) =
        .ok (namespaceNames item) := by
    rw [mapItems_array, namespaceNames, elements_of_find? hfind]
    exact mapM_eq_ok_map fun element hmem =>
      namespaceName_of_accepts (helements element hmem)
  have hrest : ∀ applicationId displayName sessionId statusText transportId,
      (do
        let namespacesValue ← item.member (lit "namespaces")
        let namespaces ← namespacesValue.mapItems fun element => do
          (← element.member (lit "name")).getString
        pure ({ applicationId, displayName, namespaces, sessionId, statusText,
                transportId } : ApplicationInfo)) = .ok info →
        info.namespaces = namespaceNames item := by
    intro applicationId displayName sessionId statusText transportId hlast
    obtain ⟨value, hvalue, hlast⟩ := bind_eq_ok.mp hlast
    rw [member_of_find? hfind, Except.ok.injEq] at hvalue
    subst hvalue
    obtain ⟨namespaces, hread, hlast⟩ := bind_eq_ok.mp hlast
    rw [hnames, Except.ok.injEq] at hread
    rw [← pure_eq_ok.mp hlast]
    exact hread.symm
  unfold ApplicationInfo.fromMessage at hinfo
  -- four texts are read before the optional one
  iterate 8 obtain ⟨_, -, hinfo⟩ := bind_eq_ok.mp hinfo
  obtain ⟨has, -, hinfo⟩ := bind_eq_ok.mp hinfo
  split_ifs at hinfo
  · obtain ⟨_, -, hinfo⟩ := bind_eq_ok.mp hinfo
    obtain ⟨_, -, hinfo⟩ := bind_eq_ok.mp hinfo
    exact hrest _ _ _ _ _ hinfo
  · exact hrest _ _ _ _ _ hinfo

/-- What the loop over the applications makes of well-formed ones. -/
theorem fromMessage_of_accepts (rapid : RapidJson) {message : Json}
    (h : Check.statusMessage message = .accepts) :
    (∀ item ∈ applicationItems message,
        Check.applicationInfo item = .accepts) ∧
      ∃ status, ReceiverStatus.fromMessage rapid message = .ok status ∧
        status.applications.length = (applicationItems message).length ∧
        ∀ first ∈ (applicationItems message).head?,
          ∃ info, ApplicationInfo.fromMessage first = .ok info ∧
            ∀ found ∈ status.applications, found = info := by
  obtain ⟨hobject, ⟨_, htype, haccept⟩, hrest⟩ :=
    exists_of_object_required h
  obtain ⟨type, rfl, hname⟩ := Check.text_eq_accepts.mp haccept
  obtain ⟨status, hstatus, hchecked⟩ := Check.required_eq_accepts.mp
    (Check.fields_cons_eq_accepts.mp hrest).1
  obtain ⟨hstatusObject, hfields⟩ := Check.object_eq_accepts.mp hchecked
  rw [fields_append, Verdict.seq_eq_accepts, Check.fields_cons_eq_accepts,
    Check.required_eq_accepts] at hfields
  obtain ⟨hbasic, ⟨_, hfind, harray⟩, -⟩ := hfields
  obtain ⟨items, rfl, hitems⟩ := Check.array_eq_accepts.mp harray
  have happlications : applicationItems message = items := by
    unfold applicationItems
    rw [hstatus]
    exact elements_of_find? hfind
  obtain ⟨basic, hread⟩ : ∃ basic,
      BasicReceiverStatus.fromMessage status = .ok basic := by
    have hends : Verdict.of (BasicReceiverStatus.fromMessage status >>= pure) =
        Check.fields (Check.basicReceiverStatus ++ []) status :=
      BasicReceiverStatus.of_fromMessage hstatusObject fun _ => rfl
    rw [List.append_nil, hbasic, bind_pure] at hends
    exact Verdict.of_eq_accepts.mp hends
  have hloop : ReceiverStatus.fromMessage rapid message = (do
      let applications ← (List.replicate items.length ()).mapM fun _ => do
        ApplicationInfo.fromMessage (← (Json.array items).item 0)
      pure { toBasicReceiverStatus := basic, applications }) := by
    unfold ReceiverStatus.fromMessage
    rw [member_of_find? htype, member_of_find? hstatus]
    have hok : cStr type = lit "RECEIVER_STATUS" := of_decide_eq_true hname
    simp only [getString, throwOnError, hok, bind, Except.bind, pure,
      Except.pure, hread, hasMember_of_isObject hstatusObject, hfind,
      member_of_find? hfind, size]
    rfl
  rw [happlications, hloop]
  refine ⟨hitems, ?_⟩
  cases items with
  | nil => exact ⟨_, rfl, rfl, fun first hfirst => by cases hfirst⟩
  | cons first rest =>
      obtain ⟨info, hinfo, -⟩ := ApplicationInfo.namespaces_of_accepts
        (hitems first List.mem_cons_self)
      have hsame : (List.replicate (first :: rest).length ()).mapM (fun _ => do
          ApplicationInfo.fromMessage
            (← (Json.array (first :: rest)).item 0)) =
          .ok ((List.replicate (first :: rest).length ()).map fun _ => info) :=
        mapM_eq_ok_map fun _ _ => hinfo
      rw [hsame]
      refine ⟨_, rfl, by simp, ?_⟩
      intro other hother
      cases hother
      refine ⟨info, hinfo, ?_⟩
      intro found hfound
      obtain ⟨_, -, rfl⟩ := List.mem_map.mp hfound
      rfl

section Alike

variable {rapid : RapidJson} {message : Json}
  (h : Check.statusMessage message = .accepts)

include h

theorem alikeApplications_of_keeps (hkeeps : KeepsApplications rapid message) :
    AlikeApplications message := by
  obtain ⟨-, status, hstatus, -, hfirst⟩ :=
    fromMessage_of_accepts rapid h
  obtain ⟨other, hother, -, heach⟩ := hkeeps
  rw [hstatus, Except.ok.injEq] at hother
  subst hother
  intro first hhead item hmem
  obtain ⟨info, hinfo, hall⟩ := hfirst first hhead
  obtain ⟨index, hindex⟩ := List.mem_iff_getElem?.mp hmem
  obtain ⟨found, hfound, hread, -⟩ := heach index item hindex
  rw [hread, hinfo, hall found (List.mem_of_getElem? hfound)]

theorem keepsApplications_of_alike (halike : AlikeApplications message) :
    KeepsApplications rapid message := by
  obtain ⟨hitems, status, hstatus, hlength, hfirst⟩ :=
    fromMessage_of_accepts rapid h
  refine ⟨status, hstatus, hlength, fun index item hindex => ?_⟩
  have hmem := List.mem_of_getElem? hindex
  obtain ⟨info, hinfo, hnames⟩ :=
    ApplicationInfo.namespaces_of_accepts (hitems item hmem)
  obtain ⟨first, hhead⟩ := Option.isSome_iff_exists.mp
    (List.isSome_head?.mpr (List.ne_nil_of_mem hmem))
  obtain ⟨other, hother, hall⟩ := hfirst first hhead
  have hsame : info = other := by
    have hread := halike first hhead item hmem
    rw [hinfo, hother, Except.ok.injEq] at hread
    exact hread
  have hlt := (List.getElem?_eq_some_iff.mp hindex).1
  have hthere := List.getElem?_eq_getElem (hlength.symm ▸ hlt)
  have hfound := hall _ (List.mem_of_getElem? hthere)
  rw [hfound, ← hsame] at hthere
  exact ⟨info, hthere, hinfo, hnames⟩

/-- A well-formed status keeps its applications exactly if all of them are
decoded alike. -/
theorem keepsApplications_iff :
    KeepsApplications rapid message ↔ AlikeApplications message :=
  ⟨alikeApplications_of_keeps h, keepsApplications_of_alike h⟩

end Alike

instance (message : Json) : Decidable (AlikeApplications message) :=
  inferInstanceAs (Decidable (∀ first ∈ (applicationItems message).head?,
    ∀ item ∈ applicationItems message, _))

def applicationText (appId : StdString) : StdString :=
  lit "\x7b\"appId\":\"" ++ appId ++ lit "\",\"displayName\":\"Player\"," ++
    lit "\"sessionId\":\"1\",\"statusText\":\"\",\"namespaces\":[" ++
    lit "\x7b\"name\":\"n1\"\x7d,\x7b\"name\":\"n2\"\x7d]\x7d"

/-- A status with two applications. -/
def twoApplications (first second : StdString) : Json :=
  textJson.parseMessage (lit "\x7b\"requestId\":0," ++
    lit "\"type\":\"RECEIVER_STATUS\",\"status\":\x7b\"volume\":" ++
    lit "\x7b\"muted\":false,\"level\":1\x7d,\"isStandBy\":false," ++
    lit "\"applications\":[" ++ applicationText first ++ lit "," ++
    applicationText second ++ lit "]\x7d\x7d")

theorem keepsApplications_iff_twice :
    KeepsApplications textJson (twoApplications (lit "A") (lit "A")) :=
  (keepsApplications_iff (by decide +kernel)).mpr (by decide +kernel)

/-- The second application is decoded as the first one. -/
theorem not_keepsApplications_second :
    Check.statusMessage (twoApplications (lit "A") (lit "B")) = .accepts ∧
      ¬KeepsApplications textJson
        (twoApplications (lit "A") (lit "B")) := by
  have haccepts : Check.statusMessage
      (twoApplications (lit "A") (lit "B")) = .accepts := by decide +kernel
  have hnot : ¬AlikeApplications (twoApplications (lit "A") (lit "B")) := by
    decide +kernel
  exact ⟨haccepts, fun h => hnot (alikeApplications_of_keeps haccepts h)⟩

/-! ## Storing -/

/-- The callback stores the status it is called with. -/
def ReceiverCallback.stores {α : Type} : ReceiverCallback α → Bool
  | .status _ | .join _ _ => true
  | .availability _ _ | .launch | .volume _ => false

namespace ReceiverChannel

variable {α : Type} {rapid : RapidJson} {getId : α → StdString}

/-- The status that a message hands to `OnReceiverStatus` or to the callback
of a `GetStatus`. -/
def processed (rapid : RapidJson) (channel : ReceiverChannel α)
    (payload : StdString) : Option ReceiverStatus :=
  match incoming rapid payload with
  | .ok (some response) =>
      if response.requestId ≠ 0 then
        match RequestMap.find? response.requestId
            (channel.requests.requestIdToRequest ()) with
        | none => none
        | some (_, request) =>
            if request.callback.stores then
              (ReceiverStatus.fromMessage rapid response.message).toOption
            else none
      else (ReceiverStatus.fromMessage rapid response.message).toOption
  | _ => none

/-- A status that is processed is stored as it is. -/
def StoresLatest (rapid : RapidJson) (getId : α → StdString)
    (channel : ReceiverChannel α) : Event α → Prop
  | .message payload ending =>
      ∀ status ∈ channel.processed rapid payload,
        (channel.onMessage rapid getId ending payload).2.lastFullStatus =
          status
  | _ => True

/-- The status an event hands over. -/
def processes (rapid : RapidJson) (channel : ReceiverChannel α) :
    Event α → Option ReceiverStatus
  | .message payload _ => channel.processed rapid payload
  | _ => none

/-- The statuses that a run processes, in order. -/
def statuses (rapid : RapidJson) (getId : α → StdString) :
    ReceiverChannel α → List (Event α) → List ReceiverStatus
  | _, [] => []
  | channel, event :: rest =>
      (channel.processes rapid event).toList ++
        match channel.step rapid getId event with
        | none => []
        | some next => statuses rapid getId next rest

/-- Once a status told whether the input is active, all later ones do. -/
def KeepsTelling (statuses : List ReceiverStatus) : Prop :=
  statuses.Pairwise fun earlier later =>
    earlier.isActiveInput.isSome → later.isActiveInput.isSome

/-! ### What a step stores -/

theorem onReceiverStatus_lastFullStatus (channel : ReceiverChannel α)
    (status : ReceiverStatus) (ending : Outcome Unit) :
    (channel.onReceiverStatus getId ending status).2.lastFullStatus =
      status.assign channel.lastFullStatus := by
  unfold onReceiverStatus
  dsimp only
  split
  next => rfl
  next =>
    split_ifs
    · rfl
    · split <;> rfl

theorem onJoinStatus_lastFullStatus (channel : ReceiverChannel α) (call : ℕ)
    (application : Option α) (status : ReceiverStatus)
    (ending : Outcome Unit) :
    (channel.onJoinStatus getId ending call application
      status).2.lastFullStatus = channel.lastFullStatus := by
  have hcase := join_cases getId ending channel call application status
  generalize channel.onJoinStatus getId ending call application status =
    result at hcase ⊢
  obtain ⟨outcome, after⟩ := result
  cases hcase <;> rfl

theorem invoke_lastFullStatus (channel : ReceiverChannel α) (message : Json)
    (ending : Outcome Unit) (callback : ReceiverCallback α) :
    (channel.invoke rapid getId ending message callback).2.lastFullStatus =
      ((if callback.stores then
          (ReceiverStatus.fromMessage rapid message).toOption
        else none).elim channel.lastFullStatus
          (·.assign channel.lastFullStatus)) := by
  cases callback with
  | availability appIds hasCallback =>
      rw [invoke]
      split <;> rfl
  | status hasCallback =>
      rw [invoke]
      cases ReceiverStatus.fromMessage rapid message <;> rfl
  | launch => rfl
  | join call application =>
      rw [invoke]
      cases ReceiverStatus.fromMessage rapid message with
      | error fault => rfl
      | ok status => exact onJoinStatus_lastFullStatus _ _ _ _ _
  | volume hasCallback =>
      rw [invoke]
      split <;> rfl

variable (rapid getId) in
theorem onMessage_lastFullStatus (channel : ReceiverChannel α)
    (payload : StdString) (ending : Outcome Unit) :
    (channel.onMessage rapid getId ending payload).2.lastFullStatus =
      (channel.processed rapid payload).elim channel.lastFullStatus
        (·.assign channel.lastFullStatus) := by
  unfold onMessage processed
  cases incoming rapid payload with
  | error fault => rfl
  | ok response? =>
      cases response? with
      | none => rfl
      | some response =>
          dsimp only
          unfold onResponse
          split_ifs with hid
          · cases RequestMap.find? response.requestId
                (channel.requests.requestIdToRequest ()) with
            | none => rfl
            | some entry =>
                exact invoke_lastFullStatus _ response.message ending
                  entry.2.callback
          · cases ReceiverStatus.fromMessage rapid response.message with
            | error fault => rfl
            | ok status => exact onReceiverStatus_lastFullStatus _ _ _

theorem launchStopped_lastFullStatus (channel : ReceiverChannel α)
    (rest : Stopping α) (sending : Outcome Unit) :
    (channel.launchStopped rapid getId sending rest).2.lastFullStatus =
      channel.lastFullStatus := by
  cases sending <;> rfl

theorem step_lastFullStatus {channel next : ReceiverChannel α}
    {event : Event α} (hstep : channel.step rapid getId event = some next) :
    next.lastFullStatus =
      (channel.processes rapid event).elim channel.lastFullStatus
        (·.assign channel.lastFullStatus) := by
  cases event with
  | getAppAvailabillity appIds hasCallback sending =>
      cases hstep
      unfold getAppAvailabillity
      split <;> rfl
  | getStatus | mute | setVolume | draw =>
      cases hstep
      rfl
  | launch application hasCallback sending =>
      cases hstep
      cases application with
      | none => rfl
      | some application =>
          unfold launch
          dsimp only
          split
          · exact launchStopped_lastFullStatus _ _ _
          · rfl
  | stopped outcome sending =>
      obtain ⟨⟨result, after⟩, hreturned, rfl⟩ :=
        Option.map_eq_some_iff.mp hstep
      unfold onStoppedReturned at hreturned
      split at hreturned
      next => cases hreturned
      next rest stopping hstack =>
        cases outcome with
        | error fault =>
            cases hreturned
            rfl
        | ok _ =>
            have hafter := congrArg Prod.snd (Option.some.inj hreturned)
            rw [← hafter]
            exact launchStopped_lastFullStatus _ _ _
  | join application hasCallback sending =>
      cases hstep
      cases hasCallback <;> rfl
  | complete initialization value =>
      simp only [step, complete] at hstep
      split at hstep
      · split at hstep <;> cases hstep <;> rfl
      · cases hstep
        rfl
      · cases hstep
  | message payload ending =>
      have hstored := onMessage_lastFullStatus rapid getId channel payload
        ending
      simp only [step] at hstep
      split at hstep
      next => cases hstep
      next heq =>
        cases hstep
        rw [heq] at hstored
        exact hstored
  | expire timer | fire timer sending =>
      obtain ⟨requests, -, rfl⟩ := Option.map_eq_some_iff.mp hstep
      rfl

/-! ### Runs -/

/-- Nothing is left of the old status exactly if no `is_active_input` is. -/
theorem assign_eq_iff (status old : ReceiverStatus) :
    status.assign old = status ↔
      (old.isActiveInput.isSome → status.isActiveInput.isSome) := by
  obtain ⟨⟨active, standby, muted, level⟩, applications⟩ := status
  unfold ReceiverStatus.assign
  cases active with
  | some value => simp
  | none => simp

theorem assign_isActiveInput (status old : ReceiverStatus) :
    (status.assign old).isActiveInput.isSome =
      (status.isActiveInput.isSome || old.isActiveInput.isSome) :=
  Option.isSome_or

theorem storesLatest_iff (channel : ReceiverChannel α) (event : Event α) :
    channel.StoresLatest rapid getId event ↔
      ∀ status ∈ channel.processes rapid event,
        channel.lastFullStatus.isActiveInput.isSome →
          status.isActiveInput.isSome := by
  cases event with
  | message payload ending =>
      apply forall_congr'
      intro status
      apply forall_congr'
      intro hstatus
      have hprocessed : channel.processed rapid payload = some status :=
        hstatus
      rw [onMessage_lastFullStatus, hprocessed]
      exact assign_eq_iff status channel.lastFullStatus
  | _ => simp [StoresLatest, processes]

/-- A run stores what it processes exactly if the statuses keep telling what
the channel, and each other, told before. -/
theorem storesLatest_along_iff (channel : ReceiverChannel α)
    (events : List (Event α)) :
    Along (step rapid getId) (StoresLatest rapid getId) channel events ↔
      (channel.lastFullStatus.isActiveInput.isSome →
        ∀ status ∈ statuses rapid getId channel events,
          status.isActiveInput.isSome) ∧
      KeepsTelling (statuses rapid getId channel events) := by
  induction events generalizing channel with
  | nil => simp [Along, statuses, KeepsTelling]
  | cons event rest ih =>
      rw [along_cons, storesLatest_iff, statuses]
      cases hstep : channel.step rapid getId event with
      | none =>
          cases channel.processes rapid event <;> simp [KeepsTelling]
      | some next =>
          dsimp only
          rw [ih next, step_lastFullStatus hstep]
          unfold KeepsTelling
          generalize statuses rapid getId next rest = later
          cases channel.processes rapid event with
          | none => simp
          | some status =>
              rw [Option.toList_some, List.singleton_append,
                List.pairwise_cons, Option.elim_some,
                assign_isActiveInput]
              simp only [Option.mem_some_iff, forall_eq', List.forall_mem_cons]
              cases status.isActiveInput.isSome <;>
                cases channel.lastFullStatus.isActiveInput.isSome <;> simp

/-- In every run, each status is stored as it was processed exactly if no
status leaves out whether the input is active after one that told it. -/
theorem storesLatest_iff_keepsTelling (memory : Memory)
    (events : List (Event α)) :
    Along (step rapid getId) (StoresLatest rapid getId) (construct memory)
        events ↔
      KeepsTelling (statuses rapid getId (construct memory) events) := by
  rw [storesLatest_along_iff]
  exact and_iff_right fun htold => by cases htold

/-- The text of a broadcast status without applications. -/
def standbyText (active : String) : StdString :=
  lit "\x7b\"requestId\":0,\"type\":\"RECEIVER_STATUS\",\"status\":" ++
    lit "\x7b\"volume\":\x7b\"muted\":false,\"level\":1\x7d," ++
    lit active ++ lit "\"isStandBy\":false\x7d\x7d"

/-- The second status does not tell whether the input is active. -/
theorem not_storesLatest_left_out :
    ¬Along (step textJson id) (StoresLatest textJson id)
      (construct cleared : ReceiverChannel StdString)
      [.message (standbyText "\"isActiveInput\":true,") (.ok ()),
        .message (standbyText "") (.ok ())] := by
  rw [storesLatest_along_iff]
  rintro ⟨-, htelling⟩
  have htold : (statuses textJson id
      (construct cleared : ReceiverChannel StdString)
      [.message (standbyText "\"isActiveInput\":true,") (.ok ()),
        .message (standbyText "") (.ok ())]).map
          (fun status => status.isActiveInput.isSome) = [true, false] := by
    decide +kernel
  have hmapped : [true, false].Pairwise fun earlier later =>
      earlier = true → later = true := by
    rw [← htold]
    exact List.pairwise_map.mpr htelling
  exact absurd hmapped (by decide)

end ReceiverChannel

end LibChromecast
