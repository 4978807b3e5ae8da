import LibChromecast.Answers
import LibChromecast.JsonText

/-!
# What the callback of a media request is told

An answer without `status` is a failure, and its reason is all that tells it
from a success.  `OnMessage` has created an empty reason where the answer has
none, so such a failure is handed on as a success.
-/

namespace LibChromecast

open Foundation Foundation.Transition

namespace Channels

variable {rapid : RapidJson} {channel : ChannelRef} {ending : Outcome Unit}

/-! ## Who is handed what -/

theorem handResponse_handed (message : Json) (hasCallback : Bool)
    {use : MediaResponse → Channels → Channels}
    (huse : ∀ result channels, (use result channels).handed =
      channels.handed) (channels : Channels) :
    (channels.handResponse message hasCallback ending use).2.handed =
        channels.handed ∨
      ∃ result, MediaResponse.fromMessage message = .ok result ∧
        (channels.handResponse message hasCallback ending use).2.handed =
          channels.handed ++ [result] := by
  unfold handResponse
  cases hresult : MediaResponse.fromMessage message with
  | error fault => exact Or.inl rfl
  | ok result => exact Or.inr ⟨result, rfl, huse result _⟩

theorem invoke_handed (channel : ChannelRef) (message : Json)
    (ending : Outcome Unit) (channels : Channels)
    (callback : ResponseCallback) :
    (channels.invoke channel message ending callback).2.handed =
        channels.handed ∨
      ∃ result, MediaResponse.fromMessage message = .ok result ∧
        (channels.invoke channel message ending callback).2.handed =
          channels.handed ++ [result] := by
  cases callback with
  | load hasCallback =>
      unfold invoke
      apply handResponse_handed
      intro result channels
      split_ifs <;> rfl
  | session hasCallback => exact handResponse_handed _ _ (fun _ _ => rfl) _
  | status hasCallback =>
      cases hasCallback with
      | false => exact Or.inl rfl
      | true => exact handResponse_handed _ _ (fun _ _ => rfl) _
  | receiver => exact Or.inl rfl

theorem onResponse_handed (channel : ChannelRef) (response : Response)
    (ending : Outcome Unit) (channels : Channels) :
    (channels.onResponse channel response ending).2.handed =
        channels.handed ∨
      ∃ result, MediaResponse.fromMessage response.message = .ok result ∧
        (channels.onResponse channel response ending).2.handed =
          channels.handed ++ [result] := by
  unfold onResponse
  dsimp only
  cases RequestMap.find? response.requestId
      (channels.requests.requestIdToRequest channel) with
  | none => exact Or.inl rfl
  | some entry => exact invoke_handed _ _ _ _ _

theorem mediaOnResponse_handed (channel : ChannelRef) (response : Response)
    (ending : Outcome Unit) (channels : Channels) :
    (channels.mediaOnResponse channel response ending).2.handed =
        channels.handed ∨
      ∃ result, MediaResponse.fromMessage response.message = .ok result ∧
        (channels.mediaOnResponse channel response ending).2.handed =
          channels.handed ++ [result] := by
  unfold mediaOnResponse
  cases mediaStatus response.message with
  | error fault => exact Or.inl rfl
  | ok status? =>
      cases status? with
      | none =>
          simp only
          split_ifs
          · exact Or.inl rfl
          · exact onResponse_handed _ _ _ _
      | some status =>
          simp only
          split_ifs
          · exact Or.inl rfl
          · exact onResponse_handed channel response ending
              (channels.setLastStatus channel status)

/-- A response that is handed on was decoded from the message as it arrived
at `OnResponse`. -/
theorem opened_of_handed {channels : Channels} {index : ℕ}
    {payload : StdString} {response : MediaResponse}
    (hhanded : (channels.onMessage rapid (.media index) payload
      ending).2.handed = channels.handed ++ [response]) :
    ∃ members touched requestId,
      rapid.parseMessage payload = .object members ∧
        Opened members touched requestId ∧
        MediaResponse.fromMessage (.object touched) = .ok response := by
  have hnone : channels.handed ≠ channels.handed ++ [response] := by simp
  have hcases := message_cases rapid (.media index) payload ending channels
  revert hhanded hcases
  generalize channels.onMessage rapid (.media index) payload ending = result
  intro hhanded hcases
  cases hcases with
  | violated => exact absurd hhanded hnone
  | invalidRequest => exact absurd hhanded hnone
  | media index members touched requestId hdocument hopened =>
      refine ⟨members, touched, requestId, hdocument, hopened, ?_⟩
      rcases mediaOnResponse_handed (.media index)
        ⟨requestId, .object touched⟩ ending
        (channels.receive (.media index) (rapid.parseMessage payload)) with
        hsame | ⟨result, hresult, hmore⟩
      · exact absurd (hsame.symm.trans hhanded) hnone
      · have heq := List.append_cancel_left (hmore.symm.trans hhanded)
        rw [List.singleton_inj] at heq
        rw [← heq]
        exact hresult

/-! ## Successes that are none -/

def ReportsStatus (document : Json) : Prop :=
  document.HasType (lit "MEDIA_STATUS") ∧ document.HasStatus

/-- No failed command is reported as a success. -/
def Truthful (document : Json) (response : MediaResponse) : Prop :=
  response.succeeded = true → ReportsStatus document

/-- What a callback is handed is truthful if and only if the answer has a
status or says why it has none. -/
theorem truthful_iff {channels : Channels} {index : ℕ}
    {payload : StdString} {response : MediaResponse}
    (hhanded : (channels.onMessage rapid (.media index) payload
      ending).2.handed = channels.handed ++ [response]) :
    Truthful (rapid.parseMessage payload) response ↔
      ((rapid.parseMessage payload).HasStatus ∨
        (rapid.parseMessage payload).HasReason) := by
  obtain ⟨members, touched, requestId, hdocument, hopened, hresponse⟩ :=
    opened_of_handed hhanded
  rw [hdocument, Truthful]
  rcases hopened.mediaResponse_cases with
    ⟨hstatus, hdecoded⟩ | ⟨hstatus, reason, hreason, hwire⟩
  · obtain ⟨status, hok, -⟩ := hdecoded response hresponse
    have htype := (MediaStatus.fromMessage_eq_ok.mp hok).1
    exact ⟨fun _ => Or.inl hstatus, fun _ _ => ⟨htype, hstatus⟩⟩
  · rw [hreason, Except.ok.injEq] at hresponse
    subst hresponse
    have hsucceeded :
        MediaResponse.succeeded { reason } = true ↔ reason = [] :=
      List.isEmpty_iff
    rw [hsucceeded]
    constructor
    · intro honly
      refine Or.inr (hwire.mp fun hempty => ?_)
      exact hstatus (honly hempty).2
    · rintro (hhas | hhas) hempty
      · exact absurd hhas hstatus
      · exact absurd hempty (hwire.mpr hhas)

def playAnswered : StdString :=
  lit "\x7b\"requestId\":1,\"type\":\"MEDIA_STATUS\",\"status\":[]\x7d"

theorem truthful_iff_playAnswered :
    ∃ channels response,
      exec (Channels.step textJson) {} [.operation 0 .play true (.ok ())] =
          some channels ∧
        (Truthful (textJson.parseMessage playAnswered) response ↔
          ((textJson.parseMessage playAnswered).HasStatus ∨
            (textJson.parseMessage playAnswered).HasReason)) := by
  have hrun : (exec (Channels.step textJson) {}
      [.operation 0 .play true (.ok ())]).map (fun channels =>
        ((channels.onMessage textJson (.media 0) playAnswered
          (.ok ())).2.handed, channels.handed)) = some ([{}], []) := by
    decide +kernel
  obtain ⟨channels, hchannels, hhanded⟩ := Option.map_eq_some_iff.mp hrun
  rw [Prod.mk.injEq] at hhanded
  refine ⟨channels, {}, hchannels, truthful_iff (hhanded.1.trans ?_)⟩
  rw [hhanded.2]
  rfl

def loadFailed : StdString :=
  lit "\x7b\"requestId\":1,\"type\":\"LOAD_FAILED\"\x7d"

/-- The callback of a LOAD that failed is told of a success. -/
theorem not_truthful_loadFailed :
    ∃ channels response,
      exec (Channels.step textJson) {}
          [.operation 0 (.load { streamType := some .buffered } true .live) true
            (.ok ())] = some channels ∧
        (channels.onMessage textJson (.media 0) loadFailed
          (.ok ())).2.handed = channels.handed ++ [response] ∧
        ¬Truthful (textJson.parseMessage loadFailed) response := by
  have hrun : (exec (Channels.step textJson) {}
      [.operation 0 (.load { streamType := some .buffered } true .live) true
        (.ok ())]).map (fun channels =>
          ((channels.onMessage textJson (.media 0) loadFailed
            (.ok ())).2.handed, channels.handed)) = some ([{}], []) := by
    decide +kernel
  have hstatus : ¬(textJson.parseMessage loadFailed).HasStatus := by
    decide +kernel
  obtain ⟨channels, hchannels, hhanded⟩ := Option.map_eq_some_iff.mp hrun
  rw [Prod.mk.injEq] at hhanded
  refine ⟨channels, {}, hchannels, ?_, ?_⟩
  · rw [hhanded.1, hhanded.2]
    rfl
  · intro htruthful
    exact hstatus (htruthful rfl).2

end Channels

end LibChromecast
