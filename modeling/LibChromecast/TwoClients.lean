import LibChromecast.CastMessage
import LibChromecast.RequestCorrelation

/-!
# Two clients of one receiver

Two processes, each with its own request counter, and a receiver which sends
every answer to the destination `*` on the namespace of the request, so that
both get it.  `ChromecastConnection::OnMessage` then calls `OnMessage` of one
channel after the other whose address matches.  It goes over a list of
channels which is fixed when it begins: what callbacks request comes between
these calls, what they register counts from the next answer on.

`origin` and `invocations` are not in the source: the client whose request an
answer belongs to, and for every callback that was invoked its client and the
origin of the answer it got.
-/

namespace LibChromecast

open Foundation Foundation.Transition

inductive Client where
  | first
  | second
deriving DecidableEq

/-- An answer to the destination `*`. -/
structure Answer where
  origin : Client
  source : StdString
  namespaceId : StdString
  payload : StdString

structure TwoClients (ι κ : Type) where
  process : Client → Requests ι κ := fun _ => {}
  /-- The registered channels in the order of the channel map. -/
  channels : Client → List ι := fun _ => []
  inbox : Client → List Answer := fun _ => []
  /-- The answer of the loop that runs, with the channels that are left. -/
  delivering : Client → Option (Answer × List ι) := fun _ => none
  invocations : List (Client × Client) := []

namespace TwoClients

variable {ι κ : Type} [DecidableEq ι]

inductive Event (ι κ : Type) where
  | request (client : Client) (channel : ι) (message : Json) (callback : κ)
      (sending : Outcome Unit)
  | expire (client : Client) (timer : ℕ)
  | fire (client : Client) (timer : ℕ) (sending : Outcome Unit)
  | register (client : Client) (channels : List ι)
  /-- The receiver answers a frame of a client. -/
  | answer (client : Client) (frame : ℕ) (payload : StdString)
  | read (client : Client)
  | deliver (client : Client)
      (override : Response → Option (Outcome Bool))

def setProcess (client : Client) (process : Requests ι κ)
    (clients : TwoClients ι κ) : TwoClients ι κ :=
  { clients with
    process := Function.update clients.process client process }

/-- The answer of the receiver to a frame carries the id of its document. -/
def answerTo (rapid : RapidJson) (address : ι → Address) (client : Client)
    (payload : StdString) : Observation ι κ → Option Answer
  | .frame channel _ document =>
      match document.get (lit "requestId"),
          (rapid.parseMessage payload).get (lit "requestId") with
      | .uint requestId, .uint answered =>
          if requestId = answered then
            some {
              origin := client
              source := (address channel).destination
              namespaceId := (address channel).namespaceId
              payload }
          else none
      | _, _ => none
  | .invoked .. => none

/-- The test of the loop in `ChromecastConnection::OnMessage`. -/
def Matches (address : ι → Address) (answer : Answer) (channel : ι) : Prop :=
  (address channel).namespaceId = answer.namespaceId ∧
    (address channel).destination = answer.source

instance (address : ι → Address) (answer : Answer) (channel : ι) :
    Decidable (Matches address answer channel) :=
  inferInstanceAs (Decidable (_ ∧ _))

def isInvoked : Observation ι κ → Bool
  | .frame .. => false
  | .invoked .. => true

/-- The invocations which a call of `OnMessage` added. -/
def invokedBetween (client origin : Client) (before after : Requests ι κ) :
    List (Client × Client) :=
  ((after.trace.drop before.trace.length).filter isInvoked).map
    fun _ => (client, origin)

/-- One turn of the loop: an exception leaves it. -/
def deliver (rapid : RapidJson) (address : ι → Address) (client : Client)
    (override : Response → Option (Outcome Bool))
    (clients : TwoClients ι κ) : Option (TwoClients ι κ) :=
  match clients.delivering client with
  | none => none
  | some (_, []) => some { clients with
      delivering := Function.update clients.delivering client none }
  | some (answer, channel :: rest) =>
      let left := { clients with
        delivering := Function.update clients.delivering client
          (some (answer, rest)) }
      if Matches address answer channel then
        let before := clients.process client
        match before.onMessage rapid channel answer.payload override with
        | (.error .violated, _) => none
        | (.error (.raised _), after) => some { clients.setProcess client
              after with
            delivering := Function.update clients.delivering client none
            invocations := clients.invocations ++
              invokedBetween client answer.origin before after }
        | (.ok _, after) => some { left.setProcess client after with
            invocations := clients.invocations ++
              invokedBetween client answer.origin before after }
      else some left

def step (rapid : RapidJson) (address : ι → Address)
    (clients : TwoClients ι κ) : Event ι κ → Option (TwoClients ι κ)
  | .request client channel message callback sending =>
      some (clients.setProcess client
        ((clients.process client).userRequest rapid channel message callback
          sending).2)
  | .expire client timer =>
      ((clients.process client).expire timer).map fun process =>
        clients.setProcess client process
  | .fire client timer sending =>
      ((clients.process client).fire rapid timer sending).map fun process =>
        clients.setProcess client process
  | .register client channels =>
      some { clients with
        channels := Function.update clients.channels client channels }
  | .answer client frame payload =>
      ((clients.process client).trace[frame]?.bind
        (answerTo rapid address client payload)).map fun answer =>
          { clients with
            inbox := fun other => clients.inbox other ++ [answer] }
  | .read client =>
      match clients.inbox client, clients.delivering client with
      | answer :: rest, none => some { clients with
          inbox := Function.update clients.inbox client rest
          delivering := Function.update clients.delivering client
            (some (answer, clients.channels client)) }
      | _, _ => none
  | .deliver client override =>
      clients.deliver rapid address client override

/-! ## Whose answer a callback gets -/

/-- Every callback got the answer to a request of its own client. -/
def OwnAnswers (clients : TwoClients ι κ) : Prop :=
  ∀ invocation ∈ clients.invocations, invocation.2 = invocation.1

/-- The answer is one that `OnResponse` takes for one of the channel's own
requests. -/
def Claims (rapid : RapidJson) (process : Requests ι κ) (channel : ι)
    (payload : StdString) (override : Response → Option (Outcome Bool)) :
    Prop :=
  match incoming rapid payload with
  | .ok (some response) => (override response).isNone ∧
      (RequestMap.find? response.requestId
        (process.requestIdToRequest channel)).isSome
  | _ => False

/-- No channel which gets the answer to a request of the other client has a
request under the same id. -/
def NoneClaims (rapid : RapidJson) (address : ι → Address)
    (clients : TwoClients ι κ) : Event ι κ → Prop
  | .deliver client override =>
      match clients.delivering client with
      | some (answer, channel :: _) =>
          Matches address answer channel → answer.origin ≠ client →
            ¬Claims rapid (clients.process client) channel answer.payload
              override
      | _ => True
  | _ => True

section OnMessage

variable {rapid : RapidJson} {process : Requests ι κ} {channel : ι}
  {payload : StdString} {override : Response → Option (Outcome Bool)}

theorem onMessage_of_claims
    (h : Claims rapid process channel payload override) :
    ∃ after observation,
      process.onMessage rapid channel payload override =
        (.ok true, after) ∧
      after.trace = process.trace ++ [observation] ∧
      isInvoked observation := by
  unfold Claims at h
  split at h
  next response hincoming =>
    obtain ⟨hbase, hpending⟩ := h
    obtain ⟨entry, hentry⟩ := Option.isSome_iff_exists.mp hpending
    unfold Requests.onMessage
    rw [hincoming]
    simp only [Option.isNone_iff_eq_none.mp hbase, Requests.onResponse,
      hentry]
    exact ⟨_, _, rfl, rfl, rfl⟩
  next => exact absurd h id

theorem onMessage_of_not_claims
    (h : ¬Claims rapid process channel payload override) :
    (process.onMessage rapid channel payload override).2 = process := by
  unfold Requests.onMessage
  split
  next => rfl
  next => rfl
  next response hincoming =>
    split
    next => rfl
    next hbase =>
      have hnone : RequestMap.find? response.requestId
          (process.requestIdToRequest channel) = none := by
        by_contra hsome
        apply h
        rw [Claims, hincoming]
        exact ⟨by rw [hbase]; rfl,
          Option.isSome_iff_ne_none.mpr hsome⟩
      unfold Requests.onResponse
      simp only [hnone]

end OnMessage

omit [DecidableEq ι] in
theorem invokedBetween_of_claims {before after : Requests ι κ}
    {observation : Observation ι κ} (client origin : Client)
    (htrace : after.trace = before.trace ++ [observation])
    (hinvoked : isInvoked observation) :
    invokedBetween client origin before after = [(client, origin)] := by
  unfold invokedBetween
  rw [htrace, List.drop_left, List.filter_singleton, hinvoked]
  rfl

omit [DecidableEq ι] in
theorem invokedBetween_self (client origin : Client)
    (process : Requests ι κ) :
    invokedBetween client origin process process = [] := by
  unfold invokedBetween
  rw [List.drop_length]
  rfl

omit [DecidableEq ι] in
theorem ownAnswers_append {clients : TwoClients ι κ}
    (h : clients.OwnAnswers) (more : List (Client × Client))
    {next : TwoClients ι κ}
    (hnext : next.invocations = clients.invocations ++ more) :
    next.OwnAnswers ↔
      ∀ invocation ∈ more, invocation.2 = invocation.1 := by
  unfold OwnAnswers
  rw [hnext, List.forall_mem_append]
  exact and_iff_right h

theorem ownAnswers_deliver {rapid : RapidJson} {address : ι → Address}
    {clients next : TwoClients ι κ} {client : Client}
    {override : Response → Option (Outcome Bool)} (h : clients.OwnAnswers)
    (hstep : clients.deliver rapid address client override = some next) :
    next.OwnAnswers ↔
      clients.NoneClaims rapid address (.deliver client override) := by
  unfold deliver at hstep
  cases hdelivering : clients.delivering client with
  | none => simp [hdelivering] at hstep
  | some loop =>
      obtain ⟨answer, channels⟩ := loop
      simp only [NoneClaims, hdelivering] at hstep ⊢
      cases channels with
      | nil =>
          cases hstep
          exact iff_of_true h trivial
      | cons channel rest =>
          simp only at hstep ⊢
          by_cases hmatches : Matches address answer channel
          · rw [if_pos hmatches] at hstep
            by_cases hclaims : Claims rapid (clients.process client) channel
                answer.payload override
            · obtain ⟨after, observation, hmessage, htrace, hinvoked⟩ :=
                onMessage_of_claims hclaims
              rw [hmessage] at hstep
              cases hstep
              rw [ownAnswers_append h _ rfl,
                invokedBetween_of_claims _ _ htrace hinvoked]
              simp [hmatches, hclaims]
            · have hsame := onMessage_of_not_claims hclaims
              generalize (clients.process client).onMessage rapid channel
                answer.payload override = result at hstep hsame
              obtain ⟨outcome, after⟩ := result
              cases hsame
              have hkept : next.OwnAnswers := by
                cases outcome with
                | ok _ =>
                    cases hstep
                    apply (ownAnswers_append h _ rfl).mpr
                    simp [invokedBetween_self]
                | error fault =>
                    cases fault with
                    | violated => cases hstep
                    | raised exception =>
                        cases hstep
                        apply (ownAnswers_append h _ rfl).mpr
                        simp [invokedBetween_self]
              exact iff_of_true hkept fun _ _ => hclaims
          · rw [if_neg hmatches] at hstep
            cases hstep
            exact iff_of_true h fun hmatch => absurd hmatch hmatches

theorem ownAnswers_step {rapid : RapidJson} {address : ι → Address}
    {clients next : TwoClients ι κ} {event : Event ι κ}
    (h : clients.OwnAnswers)
    (hstep : clients.step rapid address event = some next) :
    next.OwnAnswers ↔ clients.NoneClaims rapid address event := by
  cases event with
  | request client channel message callback sending =>
      cases hstep
      exact iff_of_true h trivial
  | expire client timer =>
      obtain ⟨process, -, rfl⟩ := Option.map_eq_some_iff.mp hstep
      exact iff_of_true h trivial
  | fire client timer sending =>
      obtain ⟨process, -, rfl⟩ := Option.map_eq_some_iff.mp hstep
      exact iff_of_true h trivial
  | register client channels =>
      cases hstep
      exact iff_of_true h trivial
  | answer client frame payload =>
      obtain ⟨answer, -, rfl⟩ := Option.map_eq_some_iff.mp hstep
      exact iff_of_true h trivial
  | read client =>
      simp only [step] at hstep
      split at hstep
      next =>
        cases hstep
        exact iff_of_true h trivial
      next => cases hstep
  | deliver client override => exact ownAnswers_deliver h hstep

/-- The answers of the other client are told from one's own exactly as long
as no channel that gets one has a request under the same id. -/
theorem ownAnswers_iff {rapid : RapidJson} {address : ι → Address}
    (events : List (Event ι κ)) :
    Throughout (step rapid address) OwnAnswers ({} : TwoClients ι κ)
        events ↔
      Along (step rapid address)
        (fun clients event => (clients.step rapid address event).isSome →
          clients.NoneClaims rapid address event) {} events :=
  throughout_iff_along (fun _ => True)
    (fun _ _ _ _ _ _ _ => trivial)
    (fun _ _ _ _ h hstep => ownAnswers_step h hstep)
    (fun _ hmem => by cases hmem) trivial

/-- Both clients ask for the status; the second one is answered. -/
def statusAsked : List (Event Unit Unit) :=
  [.register .first [()], .register .second [()],
    .request .first () (Json.null.set (lit "type")
      (.ofString (lit "GET_STATUS"))) () (.ok ()),
    .request .second () (Json.null.set (lit "type")
      (.ofString (lit "GET_STATUS"))) () (.ok ()),
    .answer .second 0 (lit "\x7b\"requestId\":1,\"type\":\"STATUS\"\x7d"),
    .read .first]

def receiverAddress : Unit → Address := fun _ =>
  ⟨lit "sender-0", lit "receiver-0",
    lit "urn:x-cast:com.google.cast.receiver"⟩

/-- The first client takes it for its own. -/
theorem not_ownAnswers_statusAsked :
    ∃ last,
      exec (step textJson receiverAddress) {}
          (statusAsked ++ [.deliver .first fun _ => none]) = some last ∧
        last.invocations = [(Client.first, Client.second)] ∧
        ¬last.OwnAnswers := by
  have hinvocations : (exec (step textJson receiverAddress) {}
      (statusAsked ++ [.deliver .first fun _ => none])).map
        invocations = some [(Client.first, Client.second)] := by
    decide +kernel
  obtain ⟨last, hrun, hlast⟩ := Option.map_eq_some_iff.mp hinvocations
  refine ⟨last, hrun, hlast, ?_⟩
  intro hown
  have hsame := hown (Client.first, Client.second) (by rw [hlast]; simp)
  cases hsame

end TwoClients

end LibChromecast
