import LibChromecast.LaunchAnswers
import LibChromecast.MediaLoad

/-!
# Operations that raise

`Request` stores its entry and arms the retry timer before it sends, and
`Launch` replaces the application before it requests.  An operation that
raises while it sends is retransmitted later.
-/

namespace LibChromecast

open Foundation Foundation.Transition

/-! ## The property -/

namespace Requests

variable {ι κ : Type}

/-- The retry timer at a position whose handler has still to run. -/
def armed (world : Requests ι κ) (index : ℕ) : Option (RetryTimer ι κ) :=
  world.timers[index]?.filter fun timer => timer.Armed

/-- The tables and the armed timers are the same. -/
structure Unchanged (before after : Requests ι κ) : Prop where
  table : after.requestIdToRequest = before.requestIdToRequest
  armed : after.armed = before.armed

theorem unchanged_refl (world : Requests ι κ) : world.Unchanged world :=
  ⟨rfl, rfl⟩

end Requests

/-- The call raises an exception. -/
def Raises {β : Type} (outcome : Outcome β) : Prop :=
  ∃ exception, outcome = .error (.raised exception)

namespace ReceiverChannel

variable {α : Type}

structure Unchanged (before after : ReceiverChannel α) : Prop where
  requests : before.requests.Unchanged after.requests
  application : after.application = before.application
  launchingApplication :
    after.launchingApplication = before.launchingApplication
  onApplicationLaunched :
    after.onApplicationLaunched = before.onApplicationLaunched

/-- An operation that raises leaves the channel as it was. -/
def KeepsFailed (rapid : RapidJson) (getId : α → StdString)
    (channel : ReceiverChannel α) (event : Event α) : Prop :=
  ∀ outcome next, channel.operate rapid getId event = some (outcome, next) →
    Raises outcome → channel.Unchanged next

end ReceiverChannel

namespace Channels

/-- An operation that raises leaves the channels as they were. -/
def KeepsFailed (rapid : RapidJson) (channels : Channels) (channel : ℕ)
    (hasCallback : Bool) (sending : Outcome Unit)
    (operation : Operation) : Prop :=
  Raises (channels.operate rapid channel hasCallback sending operation).1 →
    channels.requests.Unchanged
      (channels.operate rapid channel hasCallback sending
        operation).2.requests

/-- What the operation sends can be written. -/
def Operation.Written : Operation → Prop
  | .load media _ _ => ∀ track ∈ media.tracks, track.type = .text
  | _ => True

end Channels

/-! ## Requests -/

namespace Requests

variable {ι κ : Type} [DecidableEq ι] {rapid : RapidJson}

/-- `Request` arms a timer, whether or not its frame is sent. -/
theorem not_unchanged_userRequest (world : Requests ι κ) (channel : ι)
    (message : Json) (callback : κ) (sending : Outcome Unit) :
    ¬world.Unchanged
      (world.userRequest rapid channel message callback sending).2 := by
  intro h
  have hsame := congrFun h.armed world.timers.length
  have hlength : ∀ timers : List (RetryTimer ι κ),
      timers.length = world.timers.length →
        ∀ timer, (timers ++ [timer])[world.timers.length]? = some timer := by
    intro timers heq timer
    rw [← heq]
    exact List.getElem?_concat_length
  have hnew : ∃ timer,
      (world.userRequest rapid channel message callback
        sending).2.timers[world.timers.length]? = some timer ∧
          timer.Armed := by
    refine ⟨⟨channel, rapid.copy _, callback, _, .waiting⟩, hlength _ ?_ _,
      Or.inl rfl⟩
    split
    · rfl
    · exact List.length_modify _ _ _
  obtain ⟨timer, htimer, harmed⟩ := hnew
  unfold armed at hsame
  rw [htimer, List.getElem?_eq_none (Nat.le_refl _)] at hsame
  simp [Option.filter, harmed] at hsame

end Requests

/-! ## Operations of a receiver channel -/

namespace ReceiverChannel

variable {α : Type} {rapid : RapidJson} {getId : α → StdString}

theorem operate_isSome {channel : ReceiverChannel α} {event : Event α}
    (h : (channel.requesting event).isSome) :
    (channel.operate rapid getId event).isSome := by
  cases event with
  | stopped outcome sending =>
      unfold operate onStoppedReturned
      cases hstack : channel.stopping with
      | nil => cases outcome <;> simp [requesting, hstack] at h
      | cons rest stopping => cases outcome <;> rfl
  | getAppAvailabillity | getStatus | mute | setVolume | launch | join => rfl
  | _ => cases h

theorem not_unchanged_of_requested {channel next : ReceiverChannel α}
    {event : Event α} {outcome : Outcome Unit}
    (h : channel.operate rapid getId event = some (outcome, next))
    (hrequesting : (channel.requesting event).isSome) :
    outcome = event.sending ∧ ¬channel.Unchanged next := by
  cases operate_cases h with
  | requested message callback _ houtcome hrequests =>
      refine ⟨houtcome, fun hsame => ?_⟩
      have hrest := hsame.requests
      rw [hrequests] at hrest
      exact Requests.not_unchanged_userRequest _ _ _ _ _ hrest
  | rejected hnone =>
      rw [hnone] at hrequesting
      cases hrequesting

/-- An operation leaves the channel as it was when it raises exactly if it
raises before it requests. -/
theorem keepsFailed_event_iff (channel : ReceiverChannel α)
    (event : Event α) :
    channel.KeepsFailed rapid getId event ↔
      ((channel.requesting event).isSome → ¬Raises event.sending) := by
  constructor
  · intro hkeeps hrequesting hraises
    obtain ⟨⟨outcome, next⟩, hoperate⟩ :=
      Option.isSome_iff_exists.mp (operate_isSome hrequesting)
    obtain ⟨rfl, hchanged⟩ := not_unchanged_of_requested hoperate hrequesting
    exact hchanged (hkeeps _ next hoperate hraises)
  · intro hsends outcome next hoperate hraises
    cases operate_cases hoperate with
    | requested message callback hrequesting houtcome =>
        rw [houtcome] at hraises
        exact absurd hraises (hsends (by rw [hrequesting]; rfl))
    | rejected _ hrest =>
        rw [hrest]
        exact ⟨channel.requests.unchanged_refl, rfl, rfl, rfl⟩

end ReceiverChannel

/-! ## Operations of a media channel -/

namespace Media

theorem forall_of_mapM_eq_ok {β γ : Type} {read : β → Outcome γ}
    {property : β → Prop}
    (hread : ∀ item found, read item = .ok found → property item)
    {items : List β} {found : List γ} (h : items.mapM read = .ok found) :
    ∀ item ∈ items, property item := by
  induction items generalizing found with
  | nil => simp
  | cons item rest ih =>
      rw [List.mapM_cons] at h
      obtain ⟨first, hfirst, h⟩ := bind_eq_ok.mp h
      obtain ⟨more, hmore, -⟩ := bind_eq_ok.mp h
      rw [List.forall_mem_cons]
      exact ⟨hread item first hfirst, ih hmore⟩

theorem Track.text_of_toMessage {track : Track} {message written : Json}
    (h : track.toMessage message = .ok written) : track.type = .text := by
  by_contra htext
  rw [toMessage_raises htext] at h
  cases h

/-- A media object is written exactly if its tracks are texts. -/
theorem exists_written_iff (media : Media) (unset : StreamType)
    (message : Json) :
    (∃ written, media.toMessage unset message = .ok written) ↔
      ∀ track ∈ media.tracks, track.type = .text := by
  constructor
  · rintro ⟨written, h⟩
    unfold toMessage at h
    obtain ⟨tracks, htracks, -⟩ := bind_eq_ok.mp h
    exact forall_of_mapM_eq_ok
      (fun track _ hread => Track.text_of_toMessage hread) htracks
  · intro htext
    obtain ⟨tracks, htracks, -⟩ := Track.exists_written htext
    unfold toMessage
    rw [htracks]
    exact ⟨_, rfl⟩

end Media

namespace Channels

variable (rapid : RapidJson) (channels : Channels) (channel : ℕ)
  (hasCallback : Bool) (sending : Outcome Unit)

theorem operate_of_written {operation : Operation}
    (hwritten : operation.Written) :
    ∃ message callback,
      (channels.operate rapid channel hasCallback sending operation).1 =
          sending ∧
        (channels.operate rapid channel hasCallback sending
            operation).2.requests =
          (channels.requests.userRequest rapid (.media channel) message
            callback sending).2 := by
  cases operation with
  | load media autoplay unset =>
      obtain ⟨message, hmessage⟩ :=
        (media.exists_written_iff unset (typed "LOAD")).mpr hwritten
      refine ⟨message, .load hasCallback, ?_⟩
      rw [operate]
      unfold load
      rw [hmessage]
      exact ⟨rfl, rfl⟩
  | _ => exact ⟨_, _, rfl, rfl⟩

theorem operate_of_not_written {operation : Operation}
    (hwritten : ¬operation.Written) :
    (channels.operate rapid channel hasCallback sending operation).2 =
      channels := by
  cases operation with
  | load media autoplay unset =>
      rw [operate]
      unfold load
      cases hmessage : media.toMessage unset (typed "LOAD") with
      | error fault => rfl
      | ok message =>
          exact absurd
            ((media.exists_written_iff _ _).mp ⟨message, hmessage⟩) hwritten
  | _ => exact absurd trivial hwritten

theorem keepsFailed_operation_iff (operation : Operation) :
    channels.KeepsFailed rapid channel hasCallback sending operation ↔
      (operation.Written → ¬Raises sending) := by
  unfold KeepsFailed
  by_cases hwritten : operation.Written
  · obtain ⟨message, callback, houtcome, hrequests⟩ :=
      operate_of_written rapid channels channel hasCallback sending hwritten
    rw [houtcome, hrequests]
    constructor
    · intro hkeeps _ hraises
      exact Requests.not_unchanged_userRequest _ _ _ _ _ (hkeeps hraises)
    · intro hsends hraises
      exact absurd hraises (hsends hwritten)
  · rw [operate_of_not_written rapid channels channel hasCallback sending
      hwritten]
    exact ⟨fun _ hholds => absurd hholds hwritten,
      fun _ _ => channels.requests.unchanged_refl⟩

end Channels

/-! ## The contract -/

/-- In every state, an operation which raises leaves the channel as it was
exactly if its frame was not what raised. -/
theorem keepsFailed_iff {α : Type} (rapid : RapidJson)
    (getId : α → StdString) :
    (∀ (channel : ReceiverChannel α) event,
      channel.KeepsFailed rapid getId event ↔
        ((channel.requesting event).isSome → ¬Raises event.sending)) ∧
    ∀ channels channel hasCallback sending operation,
      Channels.KeepsFailed rapid channels channel hasCallback sending
          operation ↔
        (operation.Written → ¬Raises sending) :=
  ⟨fun channel event => channel.keepsFailed_event_iff event,
    Channels.keepsFailed_operation_iff rapid⟩

/-- The frame was not written. -/
def unsent : Outcome Unit := raise (.runtimeError (lit "not connected"))

/-- A request whose frame was not written is retransmitted. -/
theorem not_keepsFailed_unsent :
    ¬(ReceiverChannel.construct ReceiverChannel.cleared :
        ReceiverChannel StdString).KeepsFailed textJson id
          (.getStatus true unsent) ∧
      (exec (ReceiverChannel.step textJson id)
        (ReceiverChannel.construct ReceiverChannel.cleared :
          ReceiverChannel StdString)
        [.getStatus true unsent, .expire 0, .fire 0 (.ok ())]).map
          (fun last => last.requests.trace.length) = some 1 := by
  refine ⟨?_, by decide +kernel⟩
  rw [ReceiverChannel.keepsFailed_event_iff]
  exact fun hsends => hsends rfl ⟨_, rfl⟩

end LibChromecast
