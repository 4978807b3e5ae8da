import Mathlib.Data.List.Nodup
import LibChromecast.Connection
import LibChromecast.GoogleCastMessage

/-!
# Routing

What holds of the channel map in every run of a connection: it is the live
channels under their swapped addresses.  The invariant needs the address order
to be a strict total order on the keys in use, which it is as long as no
channel has the wildcard for its own source.  The two delivery paths are then
compared with the live channels.
-/

namespace LibChromecast

open Foundation Foundation.Transition

/-! ## Registration -/

namespace ChannelMap

variable {strings : StringCompare} {address : Address} {map : ChannelMap}

theorem registerChannel_of_some (channel : ChannelId)
    {entry : Address × ChannelId}
    (hfind : map.find? strings address.swap = some entry) :
    ∃ fault, map.registerChannel strings channel address =
      (.error fault, map) := by
  unfold registerChannel
  simp [hfind, throwOnError, raise]

theorem registerChannel_of_none (channel : ChannelId)
    (hfind : map.find? strings address.swap = none) :
    map.registerChannel strings channel address =
      (.ok (), OrderedMap.insert (fun a b : Address => a.less strings b)
        address.swap channel map) := by
  unfold registerChannel
  simp [hfind, throwOnError, pure, Except.pure]

theorem unregisterChannel_of_some {entry : Address × ChannelId}
    (hfind : map.find? strings address.swap = some entry) :
    map.unregisterChannel strings address =
      (.ok (), OrderedMap.erase (fun a b : Address => a.less strings b)
        address.swap map) := by
  unfold unregisterChannel
  simp [hfind, throwOnError, pure, Except.pure]

end ChannelMap

/-! ## The map and the live channels -/

namespace Router

/-- A construction that raises leaves everything as it was; any other one is
one entry more. -/
theorem construct_inserted {strings : StringCompare} {channel : ChannelId}
    {address : Address} {router next : Router} {outcome : Outcome Unit}
    (h : router.construct strings channel address =
      some (outcome, next)) :
    channel ∉ router.live.map Prod.fst ∧
      ((∃ fault entry, outcome = .error fault ∧ next = router ∧
          router.channelAddressToChannel.find? strings address.swap =
            some entry) ∨
        (outcome = .ok () ∧ next.live = (channel, address) :: router.live ∧
          Cursor.Inserted (address.swap, channel)
            router.channelAddressToChannel
            next.channelAddressToChannel)) := by
  unfold Router.construct at h
  split_ifs at h with hnew
  refine ⟨hnew, ?_⟩
  cases hfind : router.channelAddressToChannel.find? strings
      address.swap with
  | some entry =>
      obtain ⟨fault, hregister⟩ :=
        ChannelMap.registerChannel_of_some channel hfind
      simp only [hregister] at h
      cases h
      exact Or.inl ⟨fault, entry, rfl, rfl, rfl⟩
  | none =>
      rw [ChannelMap.registerChannel_of_none channel hfind] at h
      cases h
      exact Or.inr ⟨rfl, rfl, OrderedMap.inserted_insert hfind channel⟩

/-- A destructor erases the entry it finds under its swapped address. -/
theorem destroy_inserted {strings : StringCompare} {channel : ChannelId}
    {router next : Router}
    (h : router.destroy strings channel = some next) :
    ∃ address entry, (channel, address) ∈ router.live ∧
      router.channelAddressToChannel.find? strings address.swap =
        some entry ∧
      next.live = router.live.filter (fun other => other.1 ≠ channel) ∧
      Cursor.Inserted entry next.channelAddressToChannel
        router.channelAddressToChannel := by
  unfold Router.destroy at h
  cases hobject : router.live.find? (fun object => object.1 = channel) with
  | none => simp [hobject] at h
  | some object =>
      have hid : object.1 = channel := by
        simpa using List.find?_some hobject
      subst hid
      simp only [hobject] at h
      cases hfind : router.channelAddressToChannel.find? strings
          object.2.swap with
      | none =>
          simp [ChannelMap.unregisterChannel, hfind, throwOnError,
            raise] at h
      | some entry =>
          rw [ChannelMap.unregisterChannel_of_some hfind] at h
          cases h
          exact ⟨object.2, entry, List.mem_of_find?_eq_some hobject, hfind,
            rfl, OrderedMap.inserted_erase hfind⟩

/-- A key of the map is the swapped address of a channel whose source is not
the wildcard. -/
def InUse (address : Address) : Prop := address.destination ≠ wildcard

/-- The map is sorted, and is the live channels under their swapped
addresses. -/
structure Registered (strings : StringCompare) (router : Router) :
    Prop where
  sorted : OrderedMap.Sorted (fun a b : Address => a.less strings b)
    router.channelAddressToChannel
  keysIn : OrderedMap.KeysIn InUse router.channelAddressToChannel
  bound : ∀ key channel, (key, channel) ∈ router.channelAddressToChannel ↔
    (channel, key.swap) ∈ router.live
  nodup : (router.live.map Prod.fst).Nodup

section Registered

variable {strings : StringCompare} {router : Router}
  (hunit : strings.UnitValued) (hreg : router.Registered strings)

include hreg in
theorem Registered.source_ne {channel : ChannelId} {address : Address}
    (hlive : (channel, address) ∈ router.live) :
    address.source ≠ wildcard := by
  have hentry : (address.swap, channel) ∈ router.channelAddressToChannel :=
    (hreg.bound _ _).mpr (by simpa using hlive)
  exact hreg.keysIn _ hentry

include hreg in
theorem Registered.address_eq {channel : ChannelId} {a b : Address}
    (ha : (channel, a) ∈ router.live) (hb : (channel, b) ∈ router.live) :
    a = b := by
  have hsame := List.inj_on_of_nodup_map hreg.nodup ha hb rfl
  exact congrArg Prod.snd hsame

include hunit hreg in
theorem Registered.find?_eq_some_iff (key : Address) (hkey : InUse key)
    (entry : Address × ChannelId) :
    ChannelMap.find? strings key router.channelAddressToChannel =
        some entry ↔
      entry.1 = key ∧ (entry.2, key.swap) ∈ router.live := by
  unfold ChannelMap.find?
  rw [OrderedMap.find?_eq_some_iff (Address.less_strictTotalOn hunit)
    hreg.sorted hreg.keysIn hkey]
  constructor
  · rintro ⟨hmem, hfst⟩
    subst hfst
    exact ⟨rfl, (hreg.bound _ _).mp hmem⟩
  · rintro ⟨hfst, hlive⟩
    subst hfst
    exact ⟨(hreg.bound _ _).mpr hlive, rfl⟩

include hunit hreg in
theorem Registered.find?_eq_none_iff (key : Address) (hkey : InUse key) :
    ChannelMap.find? strings key router.channelAddressToChannel = none ↔
      ∀ channel, (channel, key.swap) ∉ router.live := by
  constructor
  · intro hnone channel hlive
    have hsome := (hreg.find?_eq_some_iff hunit key hkey
      (key, channel)).mpr ⟨rfl, hlive⟩
    rw [hnone] at hsome
    contradiction
  · intro hfree
    cases hfind : ChannelMap.find? strings key
        router.channelAddressToChannel with
    | none => rfl
    | some entry =>
        have hentry := (hreg.find?_eq_some_iff hunit key hkey entry).mp hfind
        exact absurd hentry.2 (hfree entry.2)

include hunit hreg in
/-- Construction keeps the map in step with the live channels, whether or not
the registration raises. -/
theorem Registered.construct {channel : ChannelId} {address : Address}
    (hsource : address.source ≠ wildcard) {outcome : Outcome Unit}
    {next : Router}
    (h : router.construct strings channel address =
      some (outcome, next)) : next.Registered strings := by
  have horder := Address.less_strictTotalOn hunit
  unfold Router.construct at h
  split_ifs at h with hnew
  cases hfind : router.channelAddressToChannel.find? strings
      address.swap with
  | some entry =>
      obtain ⟨fault, hregister⟩ :=
        ChannelMap.registerChannel_of_some channel hfind
      simp only [hregister] at h
      cases h
      exact hreg
  | none =>
      have hfree := (hreg.find?_eq_none_iff hunit address.swap
        hsource).mp hfind
      rw [ChannelMap.registerChannel_of_none channel hfind] at h
      cases h
      refine ⟨OrderedMap.sorted_insert horder hreg.sorted hreg.keysIn
          hsource, OrderedMap.keysIn_insert horder hreg.sorted hreg.keysIn
          hsource, ?_, ?_⟩
      · intro key other
        rw [OrderedMap.mem_insert horder hreg.sorted hreg.keysIn hsource,
          List.mem_cons, hreg.bound]
        constructor
        · rintro (hnewest | ⟨hlive, -⟩)
          · cases hnewest
            exact Or.inl (by simp)
          · exact Or.inr hlive
        · rintro (hnewest | hlive)
          · cases hnewest
            exact Or.inl (by simp)
          · refine Or.inr ⟨hlive, ?_⟩
            intro hkey
            subst hkey
            exact hfree other hlive
      · rw [List.map_cons]
        exact List.nodup_cons.mpr ⟨hnew, hreg.nodup⟩

include hunit hreg in
theorem Registered.unregister {channel : ChannelId} {address : Address}
    (hlive : (channel, address) ∈ router.live) :
    router.channelAddressToChannel.unregisterChannel strings address =
      (.ok (), OrderedMap.erase (fun a b : Address => a.less strings b)
        address.swap router.channelAddressToChannel) := by
  have hfind := (hreg.find?_eq_some_iff hunit address.swap
    (hreg.source_ne hlive) (address.swap, channel)).mpr
      ⟨rfl, by simpa using hlive⟩
  exact ChannelMap.unregisterChannel_of_some hfind

include hunit hreg in
theorem Registered.destroy {channel : ChannelId} {address : Address}
    (hlive : (channel, address) ∈ router.live) :
    ∃ next, router.destroy strings channel = some next ∧
      next.Registered strings := by
  have horder := Address.less_strictTotalOn hunit
  cases hobject : router.live.find? (fun object => object.1 = channel) with
  | none =>
      have habsent := List.find?_eq_none.mp hobject _ hlive
      simp at habsent
  | some object =>
      have hid : object.1 = channel := by
        simpa using List.find?_some hobject
      have hmem := List.mem_of_find?_eq_some hobject
      have hsame : object = (channel, address) :=
        List.inj_on_of_nodup_map hreg.nodup hmem hlive hid
      subst hsame
      refine ⟨{
          channelAddressToChannel := OrderedMap.erase
            (fun a b : Address => a.less strings b) address.swap
            router.channelAddressToChannel
          live := router.live.filter fun other => other.1 ≠ channel },
        by simp [Router.destroy, hobject, hreg.unregister hunit hlive],
        OrderedMap.sorted_erase hreg.sorted _,
        OrderedMap.keysIn_erase hreg.keysIn _, ?_, ?_⟩
      · intro key other
        rw [OrderedMap.mem_erase horder hreg.sorted hreg.keysIn
          (hreg.source_ne hlive), hreg.bound, List.mem_filter,
          decide_eq_true_iff]
        constructor
        · rintro ⟨hother, hkey⟩
          refine ⟨hother, ?_⟩
          intro hchannel
          subst hchannel
          have haddress := hreg.address_eq hother hlive
          exact hkey (by rw [← haddress, Address.swap_swap])
        · rintro ⟨hother, hchannel⟩
          refine ⟨hother, ?_⟩
          intro hkey
          subst hkey
          rw [Address.swap_swap] at hother
          -- the address belongs to one channel: two would share a key
          have hone := OrderedMap.Sorted.eq_of_key_eq horder hreg.sorted
            hreg.keysIn
            ((hreg.bound address.swap other).mpr (by simpa using hother))
            ((hreg.bound address.swap channel).mpr (by simpa using hlive))
            rfl
          exact hchannel (congrArg Prod.snd hone)
      · exact hreg.nodup.sublist (List.filter_sublist.map _)

include hunit hreg in
theorem Registered.of_destroy {channel : ChannelId} {next : Router}
    (h : router.destroy strings channel = some next) :
    next.Registered strings := by
  obtain ⟨address, -, hlive, -⟩ := destroy_inserted h
  obtain ⟨after, hafter, hregistered⟩ := hreg.destroy hunit hlive
  rw [hafter] at h
  cases h
  exact hregistered

include hunit hreg in
/-- The entry a destructor erases is that of its own channel. -/
theorem Registered.destroy_inserted {channel : ChannelId} {next : Router}
    (h : router.destroy strings channel = some next) :
    ∃ address,
      next.live = router.live.filter (fun other => other.1 ≠ channel) ∧
      Cursor.Inserted (address, channel) next.channelAddressToChannel
        router.channelAddressToChannel := by
  obtain ⟨address, entry, hobject, hfind, hlive, herased⟩ :=
    Router.destroy_inserted h
  have hown := (hreg.find?_eq_some_iff hunit address.swap
    (hreg.source_ne hobject) (address.swap, channel)).mpr
      ⟨rfl, by simpa using hobject⟩
  rw [hfind, Option.some.injEq] at hown
  exact ⟨address.swap, hlive, hown ▸ herased⟩

end Registered

end Router

/-! ## Delivery -/

def CastMessage.Addresses (message : CastMessage) (own : Address) : Prop :=
  own.source = message.address.destination ∧
    own.destination = message.address.source ∧
    own.namespaceId = message.address.namespaceId

def CastMessage.Reaches (message : CastMessage) (own : Address) : Prop :=
  own.destination = message.address.source ∧
    own.namespaceId = message.address.namespaceId

instance (message : CastMessage) (own : Address) :
    Decidable (message.Reaches own) :=
  inferInstanceAs (Decidable (_ ∧ _))

theorem CastMessage.addresses_iff (message : CastMessage) (own : Address) :
    message.Addresses own ↔ own = message.address.swap := by
  unfold CastMessage.Addresses
  constructor
  · rintro ⟨hsource, hdestination, hnamespace⟩
    cases own
    simp_all [Address.swap]
  · intro hown
    subst hown
    simp

def ChannelMap.reached (message : CastMessage) (map : ChannelMap) :
    List ChannelId :=
  (map.filter fun entry => message.Reaches entry.1.swap).map Prod.snd

theorem ChannelMap.reached_cons_of_not_reaches {message : CastMessage}
    {entry : Address × ChannelId} (rest : ChannelMap)
    (hskip : ¬message.Reaches entry.1.swap) :
    ChannelMap.reached message (entry :: rest) =
      ChannelMap.reached message rest := by
  simp [ChannelMap.reached, hskip]

theorem ChannelMap.reached_cons_of_reaches {message : CastMessage}
    {entry : Address × ChannelId} (rest : ChannelMap)
    (hreaches : message.Reaches entry.1.swap) :
    ChannelMap.reached message (entry :: rest) =
      entry.2 :: ChannelMap.reached message rest := by
  simp [ChannelMap.reached, hreaches]

theorem broadcast_cons_of_not_reaches
    (handler : ChannelId → Outcome Unit) {message : CastMessage}
    {entry : Address × ChannelId} (rest : ChannelMap)
    (hskip : ¬message.Reaches entry.1.swap) :
    broadcast handler message (entry :: rest) =
      broadcast handler message rest := by
  have hguard : entry.1.namespaceId ≠ message.address.namespaceId ∨
      entry.1.source ≠ message.address.source := by
    simp only [CastMessage.Reaches, Address.swap_destination,
      Address.swap_namespaceId] at hskip
    tauto
  rw [broadcast, if_pos hguard]

theorem broadcast_cons_of_reaches
    (handler : ChannelId → Outcome Unit) {message : CastMessage}
    {entry : Address × ChannelId} (rest : ChannelMap)
    (hreaches : message.Reaches entry.1.swap) :
    broadcast handler message (entry :: rest) =
      match handler entry.2 with
      | .error fault => ⟨[entry.2], false, .error fault⟩
      | .ok () =>
          { broadcast handler message rest with
            receivers := entry.2 ::
              (broadcast handler message rest).receivers } := by
  have hguard : ¬(entry.1.namespaceId ≠ message.address.namespaceId ∨
      entry.1.source ≠ message.address.source) := by
    simp only [CastMessage.Reaches, Address.swap_destination,
      Address.swap_namespaceId] at hreaches
    tauto
  rw [broadcast]
  exact if_neg hguard

/-- A broadcast calls the channels it is for in the order of the map, up to
the first one that raises. -/
theorem broadcast_spec (handler : ChannelId → Outcome Unit)
    (message : CastMessage) (map : ChannelMap) :
    (broadcast handler message map).unrecognized = false ∧
      (broadcast handler message map).receivers <+: map.reached message ∧
      ((∀ channel ∈ map.reached message, handler channel = .ok ()) →
        broadcast handler message map =
          ⟨map.reached message, false, .ok ()⟩) := by
  induction map with
  | nil => exact ⟨rfl, List.prefix_rfl, fun _ => rfl⟩
  | cons entry rest ih =>
      by_cases hreaches : message.Reaches entry.1.swap
      · rw [broadcast_cons_of_reaches handler rest hreaches,
          ChannelMap.reached_cons_of_reaches rest hreaches]
        obtain ⟨hrecognized, hprefix, hall⟩ := ih
        cases hhandler : handler entry.2 with
        | error fault =>
            refine ⟨rfl, List.prefix_append [entry.2] _, ?_⟩
            intro hok
            have hentry := hok entry.2 (List.mem_cons_self ..)
            rw [hhandler] at hentry
            contradiction
        | ok _ =>
            refine ⟨hrecognized, ?_, ?_⟩
            · exact (List.prefix_cons_inj entry.2).mpr hprefix
            · intro hok
              have hrest := hall fun channel hchannel =>
                hok channel (List.mem_cons_of_mem _ hchannel)
              simp [hrest]
      · rw [broadcast_cons_of_not_reaches handler rest hreaches,
          ChannelMap.reached_cons_of_not_reaches rest hreaches]
        exact ih

theorem broadcast_outcome_iff (handler : ChannelId → Outcome Unit)
    (message : CastMessage) (map : ChannelMap) :
    (broadcast handler message map).outcome = .ok () ↔
      ∀ channel ∈ map.reached message, handler channel = .ok () := by
  induction map with
  | nil => simp [broadcast, ChannelMap.reached]
  | cons entry rest ih =>
      by_cases hreaches : message.Reaches entry.1.swap
      · rw [broadcast_cons_of_reaches handler rest hreaches,
          ChannelMap.reached_cons_of_reaches rest hreaches,
          List.forall_mem_cons]
        cases hhandler : handler entry.2 with
        | error fault => simp
        | ok _ => simpa using ih
      · rw [broadcast_cons_of_not_reaches handler rest hreaches,
          ChannelMap.reached_cons_of_not_reaches rest hreaches]
        exact ih

/-- Every handler the message is for returns, and a unicast has one. -/
def Receivable (strings : StringCompare)
    (handler : ChannelId → Outcome Unit) (message : CastMessage)
    (map : ChannelMap) : Prop :=
  (message.address.destination ≠ wildcard →
      ∃ entry, map.find? strings message.address = some entry ∧
        handler entry.2 = .ok ()) ∧
    (message.address.destination = wildcard →
      ∀ channel ∈ map.reached message, handler channel = .ok ())

theorem deliver_outcome_iff {strings : StringCompare}
    {handler : ChannelId → Outcome Unit} {message : CastMessage}
    {map : ChannelMap} :
    (deliver strings handler message map).outcome = .ok () ↔
      Receivable strings handler message map := by
  unfold deliver Receivable
  by_cases hunicast : message.address.destination = wildcard
  · simp [hunicast, broadcast_outcome_iff]
  · cases hfind : map.find? strings message.address with
    | none =>
        simp [hunicast, onUnrecognizedAddress, throwOnError, raise]
    | some entry => simp [hunicast]

/-! ## Every run -/

/-- The routing contract, for one state of the channels. -/
structure Routes (strings : StringCompare) (router : Router) : Prop where
  mapped : ∀ channel address,
    (address.swap, channel) ∈ router.channelAddressToChannel ↔
      (channel, address) ∈ router.live
  keys_nodup : (router.channelAddressToChannel.map Prod.fst).Nodup
  unshared : ∀ channel other address, (channel, address) ∈ router.live →
    (other, address) ∈ router.live → channel = other
  raises_iff : ∀ channel address, address.source ≠ wildcard →
    ((∃ fault, (router.channelAddressToChannel.registerChannel strings
        channel address).1 = .error fault) ↔
      ∃ other, (other, address) ∈ router.live)
  raising_unchanged : ∀ channel address fault map,
    router.channelAddressToChannel.registerChannel strings channel address =
        (.error fault, map) → map = router.channelAddressToChannel
  unregisters : ∀ channel address, (channel, address) ∈ router.live →
    (router.channelAddressToChannel.unregisterChannel strings address).1 =
        .ok () ∧
      (router.destroy strings channel).isSome
  unicast : ∀ handler message, message.address.destination ≠ wildcard →
    ∀ channel address, (channel, address) ∈ router.live →
      message.Addresses address →
        deliver strings handler message router.channelAddressToChannel =
          ⟨[channel], false, handler channel⟩
  unrecognized : ∀ handler message,
    message.address.destination ≠ wildcard →
    (∀ channel address, (channel, address) ∈ router.live →
      ¬message.Addresses address) →
        deliver strings handler message router.channelAddressToChannel =
          ⟨[], true, onUnrecognizedAddress message⟩
  broadcast : ∀ handler message, message.address.destination = wildcard →
    let delivery :=
      deliver strings handler message router.channelAddressToChannel
    delivery.unrecognized = false ∧ delivery.receivers.Nodup ∧
      (∀ channel ∈ delivery.receivers, ∃ address,
        (channel, address) ∈ router.live ∧ message.Reaches address) ∧
      ((∀ channel address, (channel, address) ∈ router.live →
          message.Reaches address → handler channel = .ok ()) →
        ∀ channel address, (channel, address) ∈ router.live →
          message.Reaches address → channel ∈ delivery.receivers)

namespace Router

variable {strings : StringCompare} {router : Router}

theorem registered_empty : ({} : Router).Registered strings := by
  refine ⟨OrderedMap.sorted_nil _, OrderedMap.keysIn_nil _, ?_,
    List.nodup_nil⟩
  intro key channel
  constructor <;> intro hmem <;> contradiction

theorem Registered.mem_reached (hreg : router.Registered strings)
    {message : CastMessage} {channel : ChannelId} :
    channel ∈ router.channelAddressToChannel.reached message ↔
      ∃ address, (channel, address) ∈ router.live ∧
        message.Reaches address := by
  simp only [ChannelMap.reached, List.mem_map, List.mem_filter,
    decide_eq_true_eq]
  constructor
  · rintro ⟨entry, ⟨hmem, hreaches⟩, hchannel⟩
    subst hchannel
    exact ⟨entry.1.swap, (hreg.bound _ _).mp hmem, hreaches⟩
  · rintro ⟨address, hlive, hreaches⟩
    refine ⟨(address.swap, channel), ⟨(hreg.bound _ _).mpr ?_, ?_⟩, rfl⟩
    · simpa using hlive
    · simpa using hreaches

theorem Registered.keys_nodup (hunit : strings.UnitValued)
    (hreg : router.Registered strings) :
    (router.channelAddressToChannel.map Prod.fst).Nodup := by
  have horder := Address.less_strictTotalOn hunit
  apply List.pairwise_map.mpr
  apply hreg.sorted.imp_of_mem
  intro a b ha _ hlt
  exact horder.ne_of_lt (hreg.keysIn a ha) hlt

theorem Registered.reached_nodup (hunit : strings.UnitValued)
    (hreg : router.Registered strings) (message : CastMessage) :
    (router.channelAddressToChannel.reached message).Nodup := by
  have hentries : router.channelAddressToChannel.Nodup :=
    (hreg.keys_nodup hunit).of_map _
  unfold ChannelMap.reached
  refine List.Nodup.map_on ?_ (hentries.filter _)
  rintro ⟨key, channel⟩ hkey ⟨other, _⟩ hother hchannel
  dsimp only at hchannel
  subst hchannel
  have hlive := (hreg.bound _ _).mp (List.mem_filter.mp hkey).1
  have hlive' := (hreg.bound _ _).mp (List.mem_filter.mp hother).1
  have haddress := hreg.address_eq hlive hlive'
  rw [Address.swap_injective haddress]

theorem Registered.routes (hunit : strings.UnitValued)
    (hreg : router.Registered strings) : Routes strings router where
  mapped channel address := by
    rw [hreg.bound, Address.swap_swap]
  keys_nodup := hreg.keys_nodup hunit
  unshared channel other address hlive hother := by
    have hone := OrderedMap.Sorted.eq_of_key_eq
      (Address.less_strictTotalOn hunit) hreg.sorted hreg.keysIn
      ((hreg.bound address.swap channel).mpr (by simpa using hlive))
      ((hreg.bound address.swap other).mpr (by simpa using hother)) rfl
    exact congrArg Prod.snd hone
  raises_iff channel address hsource := by
    cases hfind : router.channelAddressToChannel.find? strings
        address.swap with
    | none =>
        have hfree :=
          (hreg.find?_eq_none_iff hunit address.swap hsource).mp hfind
        rw [Address.swap_swap] at hfree
        rw [ChannelMap.registerChannel_of_none channel hfind]
        simp [hfree]
    | some entry =>
        have hentry := (hreg.find?_eq_some_iff hunit address.swap hsource
          entry).mp hfind
        rw [Address.swap_swap] at hentry
        obtain ⟨fault, hraise⟩ :=
          ChannelMap.registerChannel_of_some channel hfind
        rw [hraise]
        exact iff_of_true ⟨fault, rfl⟩ ⟨entry.2, hentry.2⟩
  raising_unchanged channel address fault map hraise := by
    cases hfind : router.channelAddressToChannel.find? strings
        address.swap with
    | none =>
        rw [ChannelMap.registerChannel_of_none channel hfind] at hraise
        cases hraise
    | some entry =>
        obtain ⟨other, hother⟩ :=
          ChannelMap.registerChannel_of_some channel hfind
        rw [hother] at hraise
        cases hraise
        rfl
  unregisters channel address hlive := by
    obtain ⟨next, hdestroy, _⟩ := hreg.destroy hunit hlive
    rw [hreg.unregister hunit hlive, hdestroy]
    exact ⟨rfl, rfl⟩
  unicast handler message hunicast channel address hlive haddresses := by
    rw [CastMessage.addresses_iff] at haddresses
    subst haddresses
    have hfind := (hreg.find?_eq_some_iff hunit message.address hunicast
      (message.address, channel)).mpr ⟨rfl, hlive⟩
    simp [deliver, hunicast, hfind]
  unrecognized handler message hunicast hnone := by
    have hfind := (hreg.find?_eq_none_iff hunit message.address
      hunicast).mpr (by
        intro channel hlive
        exact hnone channel _ hlive
          ((CastMessage.addresses_iff _ _).mpr rfl))
    simp [deliver, hunicast, hfind]
  broadcast handler message hbroadcast := by
    have hspec := broadcast_spec handler message
      router.channelAddressToChannel
    have hdeliver : deliver strings handler message
        router.channelAddressToChannel =
          LibChromecast.broadcast handler message
            router.channelAddressToChannel := by
      simp [deliver, hbroadcast]
    simp only [hdeliver]
    refine ⟨hspec.1, (hreg.reached_nodup hunit message).sublist
      hspec.2.1.sublist, ?_, ?_⟩
    · intro channel hchannel
      exact hreg.mem_reached.mp (hspec.2.1.subset hchannel)
    · intro hall channel address hlive hreaches
      have hreturn : ∀ c ∈ router.channelAddressToChannel.reached message,
          handler c = .ok () := by
        intro c hc
        obtain ⟨own, hown, howns⟩ := hreg.mem_reached.mp hc
        exact hall c own hown howns
      rw [hspec.2.2 hreturn]
      exact hreg.mem_reached.mpr ⟨address, hlive, hreaches⟩

end Router

namespace Connection

variable {codec : ProtobufCodec} {strings : StringCompare}

def OwnSourcesNamed (_ : Connection) : Event → Prop
  | .construct _ address => address.source ≠ wildcard
  | _ => True

instance (connection : Connection) :
    (event : Event) → Decidable (OwnSourcesNamed connection event)
  | .construct _ address =>
      inferInstanceAs (Decidable (address.source ≠ wildcard))
  | .destroy _ => .isTrue trivial
  | .write _ => .isTrue trivial
  | .readCompleted _ _ => .isTrue trivial

theorem ReadStep.router_eq {op : ReadOp} {completion : ReadCompletion}
    {connection next : Connection}
    (h : ReadStep codec strings op completion connection next) :
    next.router = connection.router := by
  cases h <;> rfl

theorem step_registered (hunit : strings.UnitValued)
    {connection next : Connection} {event : Event}
    (hreg : connection.router.Registered strings)
    (hnamed : OwnSourcesNamed connection event)
    (h : connection.step codec strings event = some next) :
    next.router.Registered strings := by
  cases step_cases h with
  | construct channel address outcome router hconstruct =>
      exact hreg.construct hunit hnamed hconstruct
  | destroy channel router hdestroy => exact hreg.of_destroy hunit hdestroy
  | write event outgoing hwrite => exact hreg
  | readCompleted index completion op next hop hsize hread =>
      rw [hread.router_eq]
      exact hreg

/-- In every run in which no channel's own source id is the wildcard, the map
and both delivery paths agree with the live channels. -/
theorem routes_of_run (hunit : strings.UnitValued)
    {garbage : Fin 4 → UInt8} {events : List Event} {last : Connection}
    (hnamed : Along (Connection.step codec strings) OwnSourcesNamed
      (ready garbage) events)
    (hrun : exec (Connection.step codec strings) (ready garbage) events =
      some last) : Routes strings last.router := by
  have hreg : last.router.Registered strings :=
    exec_invariant_along
      (fun _ _ _ hreg hnamed hstep =>
        step_registered hunit hreg hnamed hstep)
      Router.registered_empty hnamed hrun
  exact hreg.routes hunit

/-- Two channels are constructed, the second registration of the first
address raises, and the first channel is destroyed. -/
theorem routes_of_run_destroyed :
    ∃ last, exec (Connection.step googleCodec .unit) (ready fun _ => 0)
        [.construct 0 ⟨lit "sender-0", lit "receiver-0", lit "media"⟩,
          .construct 1 ⟨lit "sender-0", lit "receiver-0", lit "receiver"⟩,
          .construct 2 ⟨lit "sender-0", lit "receiver-0", lit "media"⟩,
          .destroy 0] = some last ∧ Routes .unit last.router :=
  (Option.isSome_iff_exists.mp (by decide)).imp fun _ hrun =>
    ⟨hrun, routes_of_run StringCompare.unit_unitValued (by decide) hrun⟩

end Connection

end LibChromecast
