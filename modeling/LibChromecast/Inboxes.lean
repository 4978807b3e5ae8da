import LibChromecast.Foundation.Projection
import LibChromecast.Reading
import LibChromecast.Routing

/-!
# What a channel receives

`inbox` follows one channel through a run of its connection: the messages with
which the connection calls `OnMessage` of that channel, in call order.  As
long as the channel lives and no handler raises, they are the dispatched
messages which are for its address, each of them once; the channels that come
and go beside it make no difference.
-/

namespace LibChromecast

open Foundation Foundation.Transition

/-- The message is for a channel with this address of its own: a broadcast of
its peer and namespace, or a unicast to it. -/
def CastMessage.IsFor (message : CastMessage) (own : Address) : Prop :=
  if message.address.destination = wildcard then message.Reaches own
  else message.Addresses own

theorem CastMessage.isFor_of_broadcast {message : CastMessage}
    (hbroadcast : message.address.destination = wildcard) (own : Address) :
    message.IsFor own ↔ message.Reaches own := by
  rw [CastMessage.IsFor, if_pos hbroadcast]

theorem CastMessage.isFor_of_unicast {message : CastMessage}
    (hunicast : message.address.destination ≠ wildcard) (own : Address) :
    message.IsFor own ↔ own = message.address.swap := by
  rw [CastMessage.IsFor, if_neg hunicast, CastMessage.addresses_iff]

instance (message : CastMessage) (own : Address) :
    Decidable (message.IsFor own) :=
  if hbroadcast : message.address.destination = wildcard then
    decidable_of_iff _ (CastMessage.isFor_of_broadcast hbroadcast own).symm
  else
    decidable_of_iff _ (CastMessage.isFor_of_unicast hbroadcast own).symm

theorem CastMessage.SameContent.isFor_iff {a b : CastMessage}
    (hsame : CastMessage.SameContent a b) (own : Address) :
    a.IsFor own ↔ b.IsFor own := by
  unfold CastMessage.IsFor CastMessage.Reaches CastMessage.Addresses
  rw [hsame.1]

namespace Router

variable {strings : StringCompare} {router : Router}

/-- A delivery that does not raise calls a live channel once if the message is
for it, and not at all otherwise. -/
theorem Registered.filter_receivers (hunit : strings.UnitValued)
    (hreg : router.Registered strings) {channel : ChannelId}
    {address : Address} (hlive : (channel, address) ∈ router.live)
    {handler : ChannelId → Outcome Unit} {message : CastMessage}
    (houtcome : (deliver strings handler message
      router.channelAddressToChannel).outcome = .ok ()) :
    (deliver strings handler message
        router.channelAddressToChannel).receivers.filter (· = channel) =
      if message.IsFor address then [channel] else [] := by
  have hreceivable := deliver_outcome_iff.mp houtcome
  by_cases hbroadcast : message.address.destination = wildcard
  · have hreceivers : (deliver strings handler message
        router.channelAddressToChannel).receivers =
          router.channelAddressToChannel.reached message := by
      rw [deliver, if_neg (not_not.mpr hbroadcast),
        (broadcast_spec handler message _).2.2
          (hreceivable.2 hbroadcast)]
    have hmem : channel ∈ router.channelAddressToChannel.reached message ↔
        message.IsFor address := by
      rw [hreg.mem_reached, CastMessage.isFor_of_broadcast hbroadcast]
      constructor
      · rintro ⟨own, hown, hreaches⟩
        rw [hreg.address_eq hlive hown]
        exact hreaches
      · intro hreaches
        exact ⟨address, hlive, hreaches⟩
    rw [hreceivers, List.filter_eq,
      (hreg.reached_nodup hunit message).count]
    by_cases hfor : message.IsFor address
    · rw [if_pos (hmem.mpr hfor), if_pos hfor]
      rfl
    · rw [if_neg (mt hmem.mp hfor), if_neg hfor]
      rfl
  · obtain ⟨entry, hfind, -⟩ := hreceivable.1 hbroadcast
    have hreceivers : (deliver strings handler message
        router.channelAddressToChannel).receivers = [entry.2] := by
      rw [deliver, if_pos hbroadcast, hfind]
    obtain ⟨-, hentry⟩ := (hreg.find?_eq_some_iff hunit message.address
      hbroadcast entry).mp hfind
    have hfor := CastMessage.isFor_of_unicast hbroadcast address
    rw [hreceivers]
    by_cases haddressed : address = message.address.swap
    · -- two live channels cannot share the address
      have hsame := (hreg.routes hunit).unshared entry.2 channel _ hentry
        (haddressed ▸ hlive)
      rw [if_pos (hfor.mpr haddressed), hsame]
      simp
    · have hother : entry.2 ≠ channel := by
        rintro rfl
        exact haddressed (hreg.address_eq hlive hentry)
      rw [if_neg (mt hfor.mp haddressed)]
      simp [hother]

end Router

namespace Connection

variable {codec : ProtobufCodec} {strings : StringCompare}

/-! ## One step -/

/-- The messages with which an event calls `OnMessage` of a channel. -/
def hears (codec : ProtobufCodec) (strings : StringCompare)
    (channel : ChannelId) (connection : Connection) :
    Event → List CastMessage
  | .readCompleted index completion =>
      match connection.readCompleted codec strings index completion with
      | none => []
      | some next =>
          (next.calls.drop connection.calls.length).flatMap fun call =>
            ((deliver strings completion.handler call.1
                connection.router.channelAddressToChannel).receivers.filter
              (· = channel)).map fun _ => call.1
  | _ => []

def inbox (codec : ProtobufCodec) (strings : StringCompare)
    (channel : ChannelId) (connection : Connection) (events : List Event) :
    List CastMessage :=
  outputs (Connection.step codec strings) (hears codec strings channel)
    connection events

/-- The messages dispatched between two states of a run. -/
def dispatchedSince (before after : Connection) : List CastMessage :=
  (after.calls.drop before.calls.length).map Prod.fst

/-- The calls an event adds are one delivery each. -/
theorem ReadStep.calls_eq {op : ReadOp} {completion : ReadCompletion}
    {connection next : Connection}
    (h : ReadStep codec strings op completion connection next) :
    next.calls = connection.calls ∨ ∃ message,
      next.calls = connection.calls ++ [(message,
        (deliver strings completion.handler message
          connection.router.channelAddressToChannel).outcome)] := by
  cases h with
  | probeFailed => exact .inl rfl
  | resumed => exact .inl rfl
  | lengthRead => exact .inl rfl
  | undecodable => exact .inl rfl
  | undelivered _ _ message fault _ houtcome =>
      exact .inr ⟨message, by rw [houtcome]; rfl⟩
  | dispatched _ _ message _ houtcome =>
      exact .inr ⟨message, by rw [houtcome]; rfl⟩

theorem hears_of_step (hunit : strings.UnitValued)
    {connection next : Connection} {event : Event} {channel : ChannelId}
    {address : Address} (hreg : connection.router.Registered strings)
    (hlive : (channel, address) ∈ connection.router.live)
    (hstep : connection.step codec strings event = some next)
    (hcalls : ∀ call ∈ next.calls, call.2 = .ok ()) :
    connection.hears codec strings channel event =
      (dispatchedSince connection next).filter (·.IsFor address) := by
  have hnone : next.calls = connection.calls →
      dispatchedSince connection next = [] := by
    intro hsame
    rw [dispatchedSince, hsame, List.drop_length]
    rfl
  cases step_cases hstep with
  | construct => rw [hnone rfl]; rfl
  | destroy => rw [hnone rfl]; rfl
  | write => rw [hnone rfl]; rfl
  | readCompleted index completion op next hop hsize hread =>
      have hnext : connection.readCompleted codec strings index completion =
          some next := hstep
      simp only [hears, hnext]
      rcases hread.calls_eq with hsame | ⟨message, hadded⟩
      · rw [hnone hsame, hsame, stored, List.drop_length]
        rfl
      · have houtcome := hcalls _
          (hadded ▸ List.mem_append_right _ (List.mem_singleton_self _))
        have hdrop : next.calls.drop connection.calls.length =
            [(message, (deliver strings completion.handler message
              connection.router.channelAddressToChannel).outcome)] := by
          rw [hadded]
          exact List.drop_left' rfl
        rw [dispatchedSince, hdrop]
        simp only [List.flatMap_cons, List.flatMap_nil, List.append_nil,
          List.map_cons, List.map_nil]
        rw [hreg.filter_receivers hunit hlive houtcome]
        by_cases hfor : message.IsFor address
        · simp [hfor]
        · simp [hfor]

/-! ## A run -/

theorem mem_live_of_step {connection next : Connection} {event : Event}
    {channel : ChannelId} {address : Address}
    (hlive : (channel, address) ∈ connection.router.live)
    (hkept : event ≠ .destroy channel)
    (hstep : connection.step codec strings event = some next) :
    (channel, address) ∈ next.router.live := by
  cases step_cases hstep with
  | construct other own outcome router hconstruct =>
      unfold Router.construct at hconstruct
      split_ifs at hconstruct
      split at hconstruct
      · cases hconstruct
        exact hlive
      · cases hconstruct
        exact List.mem_cons_of_mem _ hlive
  | destroy other router hdestroy =>
      have hother : channel ≠ other := by
        rintro rfl
        exact hkept rfl
      unfold Router.destroy at hdestroy
      split at hdestroy
      · contradiction
      · split at hdestroy
        · contradiction
        · cases hdestroy
          exact List.mem_filter.mpr ⟨hlive, by simpa using hother⟩
  | write => exact hlive
  | readCompleted index completion op next hop hsize hread =>
      rw [hread.router_eq]
      exact hlive

theorem dispatchedSince_trans {first middle last : Connection}
    (hfirst : first.calls <+: middle.calls)
    (hlast : middle.calls <+: last.calls) :
    dispatchedSince first last =
      dispatchedSince first middle ++ dispatchedSince middle last := by
  obtain ⟨before, hbefore⟩ := hfirst
  obtain ⟨after, hafter⟩ := hlast
  unfold dispatchedSince
  rw [← hafter, ← hbefore, List.append_assoc, List.drop_left' rfl,
    List.drop_left' rfl, ← List.append_assoc, List.drop_left' rfl,
    List.map_append]

/-- The inbox of a channel that lives through a run in which no call of
`OnMessage` raises. -/
theorem inbox_of_run (hunit : strings.UnitValued)
    {connection last : Connection} {events : List Event}
    {channel : ChannelId} {address : Address}
    (hreg : connection.router.Registered strings)
    (hlive : (channel, address) ∈ connection.router.live)
    (hkept : Event.destroy channel ∉ events)
    (hnamed : Along (Connection.step codec strings) OwnSourcesNamed
      connection events)
    (hrun : exec (Connection.step codec strings) connection events =
      some last)
    (hcalls : ∀ call ∈ last.calls, call.2 = .ok ()) :
    connection.inbox codec strings channel events =
      (dispatchedSince connection last).filter (·.IsFor address) := by
  induction events generalizing connection with
  | nil =>
      cases hrun
      simp [inbox, dispatchedSince]
  | cons event rest ih =>
      obtain ⟨next, hstep, hrest⟩ := exec_cons_eq_some.mp hrun
      have hgrows := (run_grows hrest).2
      have hkeptHere : event ≠ .destroy channel := by
        rintro rfl
        exact hkept (List.mem_cons_self ..)
      have hhere := hears_of_step hunit hreg hlive hstep
        fun call hcall => hcalls call (hgrows.subset hcall)
      have hlater := ih (step_registered hunit hreg hnamed.1 hstep)
        (mem_live_of_step hlive hkeptHere hstep)
        (fun hmem => hkept (List.mem_cons_of_mem _ hmem))
        (hnamed.2 next hstep) hrest
      rw [inbox, outputs_cons_of_step hstep, hhere,
        dispatchedSince_trans (step_grows hstep).2 hgrows,
        List.filter_append, ← hlater]
      rfl

end Connection

end LibChromecast
