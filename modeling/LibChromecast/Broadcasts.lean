import LibChromecast.Routing

/-!
# Broadcasts whose handlers change the map

The loop of `ChromecastConnection::OnMessage` goes through the live map, and
the channel it calls may construct channels and destroy channels, itself
included, before it returns.  An insertion into a `std::map` leaves every
iterator valid and an erasure all but those to the erased entry, so the loop
goes on from the entry it is at as long as that entry is there.

A call is open from the event that makes it to `returned`, and the events
between are what the handler does; no handler raises.  `began`, `receivers`
and `log` are not in the source: the map the last broadcast began with, the
channels it called, and what happened to the channels in the whole run.
-/

namespace LibChromecast

open Foundation Foundation.Transition Foundation.Cursor

inductive Mark where
  | received (channel : ChannelId)
  | destroyed (channel : ChannelId)
deriving DecidableEq

/-- A channel receives nothing after its destruction. -/
def Mark.MayPrecede : Mark → Mark → Prop
  | .destroyed gone, .received channel => gone ≠ channel
  | _, _ => True

instance : (first later : Mark) → Decidable (first.MayPrecede later)
  | .destroyed gone, .received channel =>
      inferInstanceAs (Decidable (gone ≠ channel))
  | .received _, _ => .isTrue trivial
  | .destroyed _, .destroyed _ => .isTrue trivial

/-- Where the loop over the map is: outside a broadcast, in the call of a
channel, or advanced from an entry that was erased, which is undefined. -/
inductive Loop where
  | idle
  | calling (entry : Address × ChannelId)
  | lost
deriving DecidableEq

def Loop.called : Loop → Option (Address × ChannelId)
  | .calling entry => some entry
  | .idle | .lost => none

structure Broadcasting where
  router : Router := {}
  message : CastMessage := {}
  loop : Loop := .idle
  began : ChannelMap := []
  receivers : List ChannelId := []
  log : List Mark := []

namespace Broadcasting

abbrev map (state : Broadcasting) : ChannelMap :=
  state.router.channelAddressToChannel

/-- The entry the loop stops at: it passes those its guard skips. -/
def nextCall (message : CastMessage) :
    ChannelMap → Option (Address × ChannelId)
  | [] => none
  | entry :: rest =>
      if entry.1.namespaceId ≠ message.address.namespaceId ∨
          entry.1.source ≠ message.address.source then
        nextCall message rest
      else some entry

def call (entry : Address × ChannelId) (state : Broadcasting) :
    Broadcasting :=
  { state with
    loop := .calling entry
    receivers := state.receivers ++ [entry.2]
    log := state.log ++ [.received entry.2] }

/-- The loop with these entries still before it. -/
def goOn (entries : ChannelMap) (state : Broadcasting) : Broadcasting :=
  match nextCall state.message entries with
  | none => { state with loop := .idle }
  | some entry => state.call entry

/-- The handler returns, and the iterator advances. -/
def returned (state : Broadcasting) : Option Broadcasting :=
  match state.loop with
  | .calling entry =>
      match after? entry state.map with
      | some rest => some (state.goOn rest)
      | none => some { state with loop := .lost }
  | .idle | .lost => none

inductive Event where
  | construct (channel : ChannelId) (address : Address)
  | destroy (channel : ChannelId)
  | deliver (message : CastMessage)
  | returned

/-- A new object is distinct from those that were destroyed too. -/
def step (strings : StringCompare) (state : Broadcasting) :
    Event → Option Broadcasting
  | .construct channel address =>
      if state.loop = .lost ∨ .destroyed channel ∈ state.log then none
      else
        match state.router.construct strings channel address with
        | none => none
        | some (_, router) => some { state with router }
  | .destroy channel =>
      if state.loop = .lost then none
      else
        match state.router.destroy strings channel with
        | none => none
        | some router => some { state with
            router
            log := state.log ++ [.destroyed channel] }
  | .deliver message =>
      if state.loop = .idle ∧ message.address.destination = wildcard then
        some ({ state with
          message
          began := state.map
          receivers := [] }.goOn state.map)
      else none
  | .returned => state.returned

inductive StepCase (strings : StringCompare) (state : Broadcasting) :
    Event → Broadcasting → Prop
  | construct (channel : ChannelId) (address : Address)
      (outcome : Outcome Unit) (router : Router)
      (hloop : state.loop ≠ .lost)
      (hnew : .destroyed channel ∉ state.log)
      (h : state.router.construct strings channel address =
        some (outcome, router)) :
      StepCase strings state (.construct channel address)
        { state with router }
  | destroy (channel : ChannelId) (router : Router)
      (hloop : state.loop ≠ .lost)
      (h : state.router.destroy strings channel = some router) :
      StepCase strings state (.destroy channel)
        { state with
          router
          log := state.log ++ [.destroyed channel] }
  | deliver (message : CastMessage) (hidle : state.loop = .idle)
      (hbroadcast : message.address.destination = wildcard) :
      StepCase strings state (.deliver message)
        ({ state with
          message
          began := state.map
          receivers := [] }.goOn state.map)
  | returned (entry : Address × ChannelId) (rest : ChannelMap)
      (hcalling : state.loop = .calling entry)
      (hafter : after? entry state.map = some rest) :
      StepCase strings state .returned (state.goOn rest)
  | lost (entry : Address × ChannelId)
      (hcalling : state.loop = .calling entry)
      (hafter : after? entry state.map = none) :
      StepCase strings state .returned { state with loop := .lost }

theorem step_cases {strings : StringCompare} {state next : Broadcasting}
    {event : Event} (h : state.step strings event = some next) :
    StepCase strings state event next := by
  cases event with
  | construct channel address =>
      simp only [step] at h
      split_ifs at h with hloop
      rw [not_or] at hloop
      cases hconstruct : state.router.construct strings channel address with
      | none => simp [hconstruct] at h
      | some result =>
          simp only [hconstruct, Option.some.injEq] at h
          rw [← h]
          exact .construct channel address result.1 result.2 hloop.1
            hloop.2 hconstruct
  | destroy channel =>
      simp only [step] at h
      split_ifs at h with hloop
      cases hdestroy : state.router.destroy strings channel with
      | none => simp [hdestroy] at h
      | some router =>
          simp only [hdestroy, Option.some.injEq] at h
          rw [← h]
          exact .destroy channel router hloop hdestroy
  | deliver message =>
      simp only [step] at h
      split_ifs at h with hready
      cases h
      exact .deliver message hready.1 hready.2
  | returned =>
      simp only [step, Broadcasting.returned] at h
      cases hloop : state.loop with
      | idle => simp [hloop] at h
      | lost => simp [hloop] at h
      | calling entry =>
          cases hafter : after? entry state.map with
          | none =>
              simp only [hloop, hafter, Option.some.injEq] at h
              rw [← h]
              exact .lost entry hloop hafter
          | some rest =>
              simp only [hloop, hafter, Option.some.injEq] at h
              rw [← h]
              exact .returned entry rest hloop hafter

/-! ## What the loop stops at -/

theorem nextCall_eq_find? (message : CastMessage) (entries : ChannelMap) :
    nextCall message entries =
      List.find? (fun entry => message.Reaches entry.1.swap) entries := by
  induction entries with
  | nil => rfl
  | cons entry rest ih =>
      have hguard : (entry.1.namespaceId ≠ message.address.namespaceId ∨
          entry.1.source ≠ message.address.source) ↔
            ¬message.Reaches entry.1.swap := by
        simp only [CastMessage.Reaches, Address.swap_destination,
          Address.swap_namespaceId]
        tauto
      rw [nextCall, ih, List.find?_cons]
      by_cases hreaches : message.Reaches entry.1.swap
      · rw [if_neg (by rw [hguard]; exact not_not_intro hreaches)]
        simp [hreaches]
      · rw [if_pos (hguard.mpr hreaches)]
        simp [hreaches]

theorem goOn_cases (state : Broadcasting) (entries : ChannelMap) :
    ((∀ entry ∈ entries, ¬state.message.Reaches entry.1.swap) ∧
        state.goOn entries = { state with loop := .idle }) ∨
      ∃ skipped entry rest, entries = skipped ++ entry :: rest ∧
        (∀ other ∈ skipped, ¬state.message.Reaches other.1.swap) ∧
        state.message.Reaches entry.1.swap ∧
        state.goOn entries = state.call entry := by
  unfold goOn
  rw [nextCall_eq_find?]
  cases hfind : List.find?
      (fun entry => state.message.Reaches entry.1.swap) entries with
  | none =>
      refine Or.inl ⟨fun entry hentry => ?_, rfl⟩
      simpa using List.find?_eq_none.mp hfind entry hentry
  | some entry =>
      obtain ⟨hreaches, skipped, rest, hentries, hskipped⟩ :=
        List.find?_eq_some_iff_append.mp hfind
      refine Or.inr ⟨skipped, entry, rest, hentries, fun other hother => ?_,
        by simpa using hreaches, rfl⟩
      simpa using hskipped other hother

/-- Handlers that do nothing return one after the other. -/
theorem exec_goOn (strings : StringCompare) (entries : ChannelMap) :
    ∀ (state : Broadcasting) (front : ChannelMap),
      state.map = front ++ entries → state.map.Nodup →
        exec (step strings) (state.goOn entries)
            (List.replicate (entries.reached state.message).length
              .returned) =
          some { state with
            loop := .idle
            receivers := state.receivers ++ entries.reached state.message
            log := state.log ++
              (entries.reached state.message).map .received } := by
  induction entries with
  | nil =>
      intro state front hmap hnodup
      simp [goOn, nextCall, ChannelMap.reached]
  | cons entry rest ih =>
      intro state front hmap hnodup
      have hrest : state.map = (front ++ [entry]) ++ rest := by
        rw [hmap]
        simp
      by_cases hreaches : state.message.Reaches entry.1.swap
      · have hcall : state.goOn (entry :: rest) = state.call entry := by
          rw [goOn, nextCall_eq_find?, List.find?_cons]
          simp [hreaches]
        have hreturned : (state.call entry).step strings .returned =
            some ((state.call entry).goOn rest) := by
          change (state.call entry).returned = _
          have hafter : after? entry (state.call entry).map = some rest := by
            change after? entry state.map = _
            rw [hmap]
            exact after?_append (hmap ▸ hnodup)
          unfold returned
          rw [show (state.call entry).loop = .calling entry from rfl]
          simp only [hafter]
        rw [hcall, ChannelMap.reached_cons_of_reaches rest hreaches,
          List.length_cons, List.replicate_succ, exec_cons, hreturned,
          Option.bind_some]
        have hrestRun := ih (state.call entry) (front ++ [entry]) hrest
          hnodup
        change exec (step strings) ((state.call entry).goOn rest)
          (List.replicate (ChannelMap.reached state.message rest).length
            .returned) = _ at hrestRun
        rw [hrestRun]
        simp [call]
      · have hskip : state.goOn (entry :: rest) = state.goOn rest := by
          rw [goOn, goOn, nextCall_eq_find?, nextCall_eq_find?,
            List.find?_cons]
          simp [hreaches]
        rw [hskip, ChannelMap.reached_cons_of_not_reaches rest hreaches]
        exact ih state (front ++ [entry]) hrest hnodup

/-- Where the handlers do nothing, the calls are those of `deliver`. -/
theorem receivers_eq_deliver (strings : StringCompare)
    {state : Broadcasting} {message : CastMessage}
    (hidle : state.loop = .idle)
    (hbroadcast : message.address.destination = wildcard)
    (hnodup : state.map.Nodup) :
    ∃ last, exec (step strings) state (.deliver message ::
          List.replicate (state.map.reached message).length .returned) =
        some last ∧ last.loop = .idle ∧ last.router = state.router ∧
      last.receivers =
        (deliver strings (fun _ => .ok ()) message state.map).receivers := by
  have hdeliver : deliver strings (fun _ => .ok ()) message state.map =
      ⟨state.map.reached message, false, .ok ()⟩ := by
    rw [deliver, if_neg (not_not_intro hbroadcast)]
    exact (broadcast_spec _ message state.map).2.2 fun _ _ => rfl
  have hrun := exec_goOn strings state.map
    { state with message, began := state.map, receivers := [] } []
    (List.nil_append _).symm hnodup
  refine ⟨_, Eq.trans ?_ hrun, rfl, rfl, ?_⟩
  · rw [exec_cons, step, if_pos ⟨hidle, hbroadcast⟩, Option.bind_some]
  · rw [hdeliver]
    exact List.nil_append _

/-! ## What a run keeps -/

/-- The map holds live channels, once each; those whose destruction was
recorded are not live, and those the broadcast has to do with are live or
destroyed. -/
structure Consistent (state : Broadcasting) : Prop where
  live : (state.router.live.map Prod.fst).Nodup
  registered : (state.map.map Prod.snd).Nodup
  live_of_mem : ∀ entry ∈ state.map,
    entry.2 ∈ state.router.live.map Prod.fst
  gone : ∀ channel, .destroyed channel ∈ state.log →
    channel ∉ state.router.live.map Prod.fst
  known : ∀ channel,
    channel ∈ state.receivers ∨ channel ∈ state.began.map Prod.snd →
      channel ∈ state.router.live.map Prod.fst ∨
        .destroyed channel ∈ state.log
  orderly : state.log.Pairwise Mark.MayPrecede
  once : state.receivers.Nodup

/-- The broadcast was for the entry from its beginning, and has not called
it. -/
def Missed (state : Broadcasting) (entry : Address × ChannelId) : Prop :=
  entry ∈ state.began ∧ state.message.Reaches entry.1.swap ∧
    entry.2 ∉ state.receivers

/-- The broadcast has passed the entries in front and none behind. -/
structure Between (state : Broadcasting) (front back : ChannelMap) :
    Prop where
  map_eq : state.map = front ++ back
  passed : ∀ entry ∈ front, ¬state.Missed entry
  ahead : ∀ entry ∈ back, entry.2 ∉ state.receivers

/-- Where the loop stands; nothing is known of a call whose channel has been
destroyed. -/
def Served (state : Broadcasting) : Prop :=
  match state.loop with
  | .idle => state.Between state.map []
  | .calling entry => .destroyed entry.2 ∉ state.log →
      ∃ front back, state.Between (front ++ [entry]) back
  | .lost => False

structure Sound (state : Broadcasting) : Prop extends
    Consistent state where
  served : state.Served

theorem sound_empty : ({} : Broadcasting).Sound where
  live := List.nodup_nil
  registered := List.nodup_nil
  live_of_mem entry hentry := by cases hentry
  gone channel hgone := by cases hgone
  known channel hknown := by
    rcases hknown with hknown | hknown <;> cases hknown
  orderly := List.Pairwise.nil
  once := List.nodup_nil
  served := ⟨rfl, fun _ hentry => absurd hentry List.not_mem_nil, by simp⟩

theorem Between.middle {state : Broadcasting} {front back : ChannelMap}
    {entry : Address × ChannelId}
    (h : state.Between (front ++ [entry]) back) :
    state.map = front ++ entry :: back := by
  rw [h.map_eq]
  exact List.append_assoc front [entry] back

theorem pairwise_append {log : List Mark} {last : Mark}
    (horderly : log.Pairwise Mark.MayPrecede)
    (hlast : ∀ mark ∈ log, mark.MayPrecede last) :
    (log ++ [last]).Pairwise Mark.MayPrecede := by
  refine List.pairwise_append.mpr
    ⟨horderly, List.pairwise_singleton _ _, fun mark hmark later hlater => ?_⟩
  rw [List.mem_singleton.mp hlater]
  exact hlast mark hmark

theorem mayPrecede_received {log : List Mark} {channel : ChannelId}
    (hgone : Mark.destroyed channel ∉ log) {mark : Mark}
    (hmark : mark ∈ log) : mark.MayPrecede (.received channel) := by
  cases mark with
  | received other => trivial
  | destroyed gone =>
      intro hsame
      exact hgone (hsame ▸ hmark)

theorem mayPrecede_destroyed (mark : Mark) (channel : ChannelId) :
    mark.MayPrecede (.destroyed channel) := by
  cases mark <;> trivial

variable {strings : StringCompare} {state next : Broadcasting}

theorem Consistent.call (h : state.Consistent)
    {entry : Address × ChannelId} (hmem : entry ∈ state.map)
    (huncalled : entry.2 ∉ state.receivers) :
    (state.call entry).Consistent where
  live := h.live
  registered := h.registered
  live_of_mem := h.live_of_mem
  gone channel hgone := by
    rcases List.mem_append.mp hgone with hold | hmark
    · exact h.gone channel hold
    · simp at hmark
  known channel hknown := by
    rcases hknown with hreceived | hbegan
    · rcases List.mem_append.mp hreceived with hold | hself
      · exact (h.known channel (Or.inl hold)).imp_right
          (List.mem_append_left _)
      · rw [List.mem_singleton.mp hself]
        exact Or.inl (h.live_of_mem entry hmem)
    · exact (h.known channel (Or.inr hbegan)).imp_right
        (List.mem_append_left _)
  orderly := pairwise_append h.orderly fun mark hmark =>
    mayPrecede_received
      (fun hgone => h.gone _ hgone (h.live_of_mem entry hmem)) hmark
  once := List.nodup_append.mpr ⟨h.once, List.nodup_singleton _,
    fun channel hchannel other hother hsame => huncalled (by
      rwa [← List.mem_singleton.mp hother, ← hsame])⟩

theorem Missed.of_call {entry other : Address × ChannelId}
    (h : (state.call entry).Missed other) :
    state.Missed other ∧ other.2 ≠ entry.2 := by
  obtain ⟨hbegan, hreaches, huncalled⟩ := h
  change other.2 ∉ state.receivers ++ [entry.2] at huncalled
  rw [List.mem_append, List.mem_singleton, not_or] at huncalled
  exact ⟨⟨hbegan, hreaches, huncalled.1⟩, huncalled.2⟩

/-- The call of an entry after some the broadcast is not for. -/
theorem Between.call {front skipped rest : ChannelMap}
    {entry : Address × ChannelId}
    (h : state.Between front (skipped ++ entry :: rest))
    (hregistered : (state.map.map Prod.snd).Nodup)
    (hskipped : ∀ other ∈ skipped,
      ¬state.message.Reaches other.1.swap) :
    (state.call entry).Between (front ++ skipped ++ [entry]) rest where
  map_eq := by
    change state.map = _
    rw [h.map_eq]
    simp
  passed other hother hmissed := by
    obtain ⟨hold, hne⟩ := hmissed.of_call
    rw [List.mem_append, List.mem_append, List.mem_singleton] at hother
    rcases hother with (hfront | hskip) | rfl
    · exact h.passed other hfront hold
    · exact hskipped other hskip hold.2.1
    · exact hne rfl
  ahead other hother hcalled := by
    rcases List.mem_append.mp hcalled with hold | hself
    · exact h.ahead other (by simp [hother]) hold
    · rw [h.map_eq, List.map_append, List.map_append, List.map_cons]
        at hregistered
      have hrest := hregistered.of_append_right.of_append_right
      refine (List.nodup_cons.mp hrest).1 ?_
      rw [← List.mem_singleton.mp hself]
      exact List.mem_map_of_mem hother

/-- The loop goes on over entries it has not called. -/
theorem Consistent.goOn (h : state.Consistent) {front rest : ChannelMap}
    (hplace : state.Between front rest) : (state.goOn rest).Sound := by
  rcases goOn_cases state rest with
    ⟨hskipped, hnext⟩ | ⟨skipped, entry, after, rfl, hskipped, -, hnext⟩
  · rw [hnext]
    refine { h with served := ⟨(List.append_nil _).symm, ?_, by simp⟩ }
    intro entry hentry hmissed
    change entry ∈ state.map at hentry
    rw [hplace.map_eq, List.mem_append] at hentry
    rcases hentry with hfront | hback
    · exact hplace.passed entry hfront hmissed
    · exact hskipped entry hback hmissed.2.1
  · have hmem : entry ∈ state.map := by
      rw [hplace.map_eq]
      simp
    rw [hnext]
    exact { h.call hmem (hplace.ahead entry (by simp)) with
      served := fun _ => ⟨front ++ skipped, after,
        hplace.call h.registered hskipped⟩ }

/-! ## What the handlers do to the place -/

section Place

variable {entry : Address × ChannelId} {router : Router}

/-- A channel that is new to the broadcast is registered at any place. -/
theorem Served.inserted (h : state.Served)
    (hinserted : Inserted entry state.map router.channelAddressToChannel)
    (huncalled : entry.2 ∉ state.receivers)
    (hnew : entry ∉ state.began) :
    ({ state with router } : Broadcasting).Served := by
  unfold Served at h ⊢
  cases hloop : state.loop with
  | lost => simp [hloop] at h
  | idle =>
      simp only [hloop] at h ⊢
      refine ⟨(List.append_nil _).symm, ?_, by simp⟩
      intro other hother hmissed
      rcases hinserted.mem_iff.mp hother with rfl | hold
      · exact hnew hmissed.1
      · exact h.passed other hold hmissed
  | calling current =>
      simp only [hloop] at h ⊢
      intro hgone
      obtain ⟨front, back, hplace⟩ := h hgone
      rw [hplace.middle] at hinserted
      -- behind the current entry it may still be called, in front of it not
      rcases hinserted.beside with
        ⟨more, hmore, hrouter⟩ | ⟨more, hmore, hrouter⟩
      · refine ⟨more, back, by simp [map, hrouter], ?_, hplace.ahead⟩
        intro other hother hmissed
        rw [List.mem_append, hmore.mem_iff] at hother
        rcases hother with (rfl | hfront) | hself
        · exact hnew hmissed.1
        · exact hplace.passed other (List.mem_append_left _ hfront) hmissed
        · exact hplace.passed other (List.mem_append_right _ hself) hmissed
      · refine ⟨front, more, by simp [map, hrouter], hplace.passed, ?_⟩
        intro other hother
        rcases hmore.mem_iff.mp hother with rfl | hback
        · exact huncalled
        · exact hplace.ahead other hback

/-- A channel is destroyed with the entry that is its own. -/
theorem Served.erased (h : state.Served)
    (herased : Inserted entry router.channelAddressToChannel state.map) :
    ({ state with
      router
      log := state.log ++ [.destroyed entry.2] } : Broadcasting).Served := by
  unfold Served at h ⊢
  cases hloop : state.loop with
  | lost => simp [hloop] at h
  | idle =>
      simp only [hloop] at h ⊢
      refine ⟨(List.append_nil _).symm, ?_, by simp⟩
      intro other hother
      exact h.passed other (herased.mem_iff.mpr (Or.inr hother))
  | calling current =>
      simp only [hloop] at h ⊢
      intro hgone
      rw [List.mem_append, List.mem_singleton, not_or] at hgone
      -- the channel being called is not the one destroyed: its entry stays
      obtain ⟨front, back, hplace⟩ := h hgone.1
      have hne : entry ≠ current := by
        rintro rfl
        exact hgone.2 rfl
      rw [hplace.middle] at herased
      rcases herased.of_beside hne with
        ⟨less, hless, hrouter⟩ | ⟨less, hless, hrouter⟩
      · refine ⟨less, back, by simp [map, hrouter], ?_, hplace.ahead⟩
        intro other hother
        refine hplace.passed other ?_
        rw [List.mem_append, hless.mem_iff]
        exact (List.mem_append.mp hother).imp_left Or.inr
      · refine ⟨front, less, by simp [map, hrouter], hplace.passed, ?_⟩
        intro other hother
        exact hplace.ahead other (hless.mem_iff.mpr (Or.inr hother))

theorem Consistent.inserted (h : state.Consistent) {address : Address}
    (hnew : entry.2 ∉ state.router.live.map Prod.fst)
    (hgone : .destroyed entry.2 ∉ state.log)
    (hlive : router.live = (entry.2, address) :: state.router.live)
    (hinserted : Inserted entry state.map router.channelAddressToChannel) :
    ({ state with router } : Broadcasting).Consistent where
  live := by
    change (router.live.map Prod.fst).Nodup
    rw [hlive]
    exact List.nodup_cons.mpr ⟨hnew, h.live⟩
  registered := by
    refine (hinserted.map Prod.snd).nodup_iff.mpr ⟨fun hmem => ?_,
      h.registered⟩
    obtain ⟨other, hother, hsame⟩ := List.mem_map.mp hmem
    exact hnew (hsame ▸ h.live_of_mem other hother)
  live_of_mem other hother := by
    change other.2 ∈ router.live.map Prod.fst
    rw [hlive, List.map_cons, List.mem_cons]
    rcases hinserted.mem_iff.mp hother with rfl | hold
    · exact Or.inl rfl
    · exact Or.inr (h.live_of_mem other hold)
  gone channel hdestroyed := by
    change channel ∉ router.live.map Prod.fst
    rw [hlive, List.map_cons, List.mem_cons, not_or]
    refine ⟨?_, h.gone channel hdestroyed⟩
    rintro rfl
    exact hgone hdestroyed
  known channel hknown := by
    change channel ∈ router.live.map Prod.fst ∨ _
    rw [hlive]
    exact (h.known channel hknown).imp_left (List.mem_cons_of_mem _)
  orderly := h.orderly
  once := h.once

theorem Consistent.erased (h : state.Consistent)
    (hlive : router.live =
      state.router.live.filter fun other => other.1 ≠ entry.2)
    (herased : Inserted entry router.channelAddressToChannel state.map) :
    ({ state with
      router
      log := state.log ++ [.destroyed entry.2] } :
        Broadcasting).Consistent := by
  have hkept : ∀ channel, channel ∈ router.live.map Prod.fst ↔
      channel ∈ state.router.live.map Prod.fst ∧ channel ≠ entry.2 := by
    intro channel
    simp only [hlive, List.mem_map, List.mem_filter, decide_eq_true_eq]
    constructor
    · rintro ⟨object, ⟨hobject, hne⟩, rfl⟩
      exact ⟨⟨object, hobject, rfl⟩, hne⟩
    · rintro ⟨⟨object, hobject, rfl⟩, hne⟩
      exact ⟨object, ⟨hobject, hne⟩, rfl⟩
  have hregistered :=
    (herased.map Prod.snd).nodup_iff.mp h.registered
  refine {
    live := ?_
    registered := hregistered.2
    live_of_mem := fun other hother => ?_
    gone := fun channel hgone => ?_
    known := fun channel hknown => ?_
    orderly := pairwise_append h.orderly fun mark _ =>
      mayPrecede_destroyed mark entry.2
    once := h.once }
  · change (router.live.map Prod.fst).Nodup
    rw [hlive]
    exact h.live.sublist (List.filter_sublist.map _)
  · refine (hkept _).mpr ⟨h.live_of_mem other
      (herased.mem_iff.mpr (Or.inr hother)), fun hsame => ?_⟩
    exact hregistered.1 (hsame ▸ List.mem_map_of_mem hother)
  · change channel ∉ router.live.map Prod.fst
    rw [hkept]
    rcases List.mem_append.mp hgone with hold | hself
    · exact fun hmem => h.gone channel hold hmem.1
    · rw [List.mem_singleton, Mark.destroyed.injEq] at hself
      exact fun hmem => hmem.2 hself
  · rcases h.known channel hknown with halive | hgone
    · by_cases hself : channel = entry.2
      · rw [hself]
        exact Or.inr (by simp)
      · exact Or.inl ((hkept _).mpr ⟨halive, hself⟩)
    · exact Or.inr (List.mem_append_left _ hgone)

end Place

/-! ## Every delivery of every run -/

/-- The loop has not advanced from an erased entry, no channel has received
anything after its destruction, and between the broadcasts every channel the
last one was for, registered since it began, has received it once. -/
structure DeliversOnce (state : Broadcasting) : Prop where
  standing : state.loop ≠ .lost
  orderly : state.log.Pairwise Mark.MayPrecede
  once : state.loop = .idle → ∀ entry ∈ state.began,
    state.message.Reaches entry.1.swap → entry ∈ state.map →
      state.receivers.count entry.2 = 1

/-- The entry a destructor finds under its swapped address is its own. -/
def FindsOwn (strings : StringCompare) (state : Broadcasting) :
    Event → Prop
  | .destroy channel => ∀ object ∈ state.router.live,
      object.1 = channel →
        ∀ entry ∈ state.map.find? strings object.2.swap, entry.2 = channel
  | .construct _ _ | .deliver _ | .returned => True

/-- The handler that returns has not destroyed the channel it belongs to. -/
def SparesItself (state : Broadcasting) : Event → Prop
  | .returned => ∀ entry ∈ state.loop.called,
      .destroyed entry.2 ∉ state.log
  | .construct _ _ | .destroy _ | .deliver _ => True

def Undisturbed (strings : StringCompare) (state : Broadcasting)
    (event : Event) : Prop :=
  FindsOwn strings state event ∧ SparesItself state event

instance (strings : StringCompare) (state : Broadcasting) :
    (event : Event) → Decidable (Undisturbed strings state event)
  | .destroy channel => inferInstanceAs
      (Decidable ((∀ object ∈ state.router.live, object.1 = channel →
        ∀ entry ∈ state.map.find? strings object.2.swap,
          entry.2 = channel) ∧ True))
  | .returned => inferInstanceAs
      (Decidable (True ∧ ∀ entry ∈ state.loop.called,
        Mark.destroyed entry.2 ∉ state.log))
  | .construct _ _ | .deliver _ =>
      inferInstanceAs (Decidable (True ∧ True))

theorem Sound.deliversOnce (h : state.Sound) : state.DeliversOnce where
  standing hlost := by
    have hserved := h.served
    simp [Served, hlost] at hserved
  orderly := h.orderly
  once hidle entry hbegan hreaches hentry := by
    have hserved := h.served
    simp only [Served, hidle] at hserved
    have hcalled : entry.2 ∈ state.receivers := by
      by_contra huncalled
      exact hserved.passed entry hentry ⟨hbegan, hreaches, huncalled⟩
    exact List.count_eq_one_of_mem h.once hcalled

theorem Sound.step {event : Event} (h : state.Sound)
    (hcondition : state.Undisturbed strings event)
    (hstep : state.step strings event = some next) : next.Sound := by
  cases step_cases hstep with
  | construct channel address outcome router hloop hnew hconstruct =>
      obtain ⟨hfresh, hcase⟩ := Router.construct_inserted hconstruct
      rcases hcase with ⟨-, -, -, rfl, -⟩ | ⟨-, hlive, hinserted⟩
      · exact h
      · have hunknown : ¬(channel ∈ state.receivers ∨
            channel ∈ state.began.map Prod.snd) := fun hknown =>
          (h.known channel hknown).elim hfresh hnew
        rw [not_or] at hunknown
        exact { h.toConsistent.inserted hfresh hnew hlive hinserted with
          served := h.served.inserted hinserted hunknown.1 fun hbegan =>
            hunknown.2 (List.mem_map_of_mem hbegan) }
  | destroy channel router hloop hdestroy =>
      obtain ⟨address, entry, hobject, hfind, hlive, herased⟩ :=
        Router.destroy_inserted hdestroy
      have hown : entry.2 = channel :=
        hcondition.1 (channel, address) hobject rfl entry hfind
      subst hown
      exact { h.toConsistent.erased hlive herased with
        served := h.served.erased herased }
  | deliver message hidle hbroadcast =>
      have hbegin : ({ state with
          message
          began := state.map
          receivers := [] } : Broadcasting).Consistent := { h.toConsistent with
        known := fun channel hknown => by
          rcases hknown with hreceived | hbegan
          · exact absurd hreceived List.not_mem_nil
          · obtain ⟨entry, hentry, rfl⟩ := List.mem_map.mp hbegan
            exact Or.inl (h.live_of_mem entry hentry)
        once := List.nodup_nil }
      exact hbegin.goOn ⟨(List.nil_append _).symm, by simp, by simp⟩
  | returned entry rest hcalling hafter =>
      have hserved := h.served
      simp only [Served, hcalling] at hserved
      obtain ⟨front, back, hplace⟩ :=
        hserved (hcondition.2 entry (by simp [hcalling, Loop.called]))
      have hnodup : state.map.Nodup := h.registered.of_map _
      rw [hplace.middle] at hnodup hafter
      rw [after?_append hnodup, Option.some.injEq] at hafter
      subst hafter
      exact h.toConsistent.goOn hplace
  | lost entry hcalling hafter =>
      have hserved := h.served
      simp only [Served, hcalling] at hserved
      obtain ⟨front, back, hplace⟩ :=
        hserved (hcondition.2 entry (by simp [hcalling, Loop.called]))
      rw [after?_eq_none_iff, hplace.map_eq] at hafter
      simp at hafter

/-- Where no handler that returns has destroyed its own channel, and every
destructor finds its own entry, every broadcast reaches every channel it is for
once. -/
theorem deliversOnce_of_undisturbed {events : List Event}
    (halong : Along (step strings) (Undisturbed strings)
      ({} : Broadcasting) events) :
    Throughout (step strings) DeliversOnce ({} : Broadcasting) events := by
  have hsound : Throughout (step strings) Sound ({} : Broadcasting) events :=
    throughout_of_along
      (fun _ _ _ h hcondition hstep => h.step hcondition hstep) sound_empty
      halong
  exact throughout_mono (fun _ h => h.deliversOnce) hsound

/-- A message to every channel of the namespace. -/
def announcement : CastMessage :=
  { address := ⟨lit "receiver-0", wildcard, lit "media"⟩ }

def sender (source : String) : Address :=
  ⟨lit source, lit "receiver-0", lit "media"⟩

/-- The first channel constructs a third one and destroys the second. -/
def replaced : List Event :=
  [.construct 0 (sender "sender-0"), .construct 1 (sender "sender-1"),
    .deliver announcement, .construct 2 (sender "sender-2"), .destroy 1,
    .returned, .returned]

theorem deliversOnce_of_undisturbed_replaced :
    (exec (step .unit) ({} : Broadcasting) replaced).map
        (fun last => (last.loop, last.receivers)) =
      some (.idle, [0, 2]) ∧
    Throughout (step .unit) DeliversOnce ({} : Broadcasting) replaced :=
  ⟨by decide +kernel, deliversOnce_of_undisturbed (by decide +kernel)⟩

theorem sound_of_run {events : List Event} {last : Broadcasting}
    (halong : Along (step strings) (Undisturbed strings)
      ({} : Broadcasting) events)
    (hrun : exec (step strings) ({} : Broadcasting) events = some last) :
    last.Sound :=
  exec_invariant_along
    (fun _ _ _ h hcondition hstep => h.step hcondition hstep) sound_empty
    halong hrun

/-- A handler that has destroyed its own channel returns to an iterator that
is not valid. -/
theorem not_deliversOnce_of_destroyed {events : List Event}
    {last : Broadcasting} {entry : Address × ChannelId}
    (halong : Along (step strings) (Undisturbed strings)
      ({} : Broadcasting) events)
    (hrun : exec (step strings) ({} : Broadcasting) events = some last)
    (hcalling : last.loop = .calling entry)
    (hgone : .destroyed entry.2 ∈ last.log) :
    ¬Throughout (step strings) DeliversOnce ({} : Broadcasting)
      (events ++ [.returned]) := by
  intro hthrough
  have hsound := sound_of_run halong hrun
  have hafter : after? entry last.map = none :=
    after?_eq_none_iff.mpr fun hmem =>
      hsound.gone _ hgone (hsound.live_of_mem entry hmem)
  have hstep : last.step strings .returned =
      some { last with loop := .lost } := by
    change last.returned = _
    unfold returned
    simp only [hcalling, hafter]
  have hlost : exec (step strings) ({} : Broadcasting)
      (events ++ [.returned]) = some { last with loop := .lost } := by
    rw [exec_append, hrun, Option.bind_some, exec_singleton, hstep]
  exact (hthrough.last hlost).standing rfl

/-- The first channel destroys itself, as an application that is stopped
does. -/
def stopped : List Event :=
  [.construct 0 (sender "sender-0"), .construct 1 (sender "sender-1"),
    .deliver announcement, .destroy 0, .returned]

theorem not_deliversOnce_stopped :
    (exec (step .unit) ({} : Broadcasting) stopped).map
        Broadcasting.loop = some .lost ∧
      ¬Throughout (step .unit) DeliversOnce ({} : Broadcasting)
        stopped := by
  have hlost : (exec (step .unit) ({} : Broadcasting) stopped).map
      Broadcasting.loop = some .lost := by
    decide +kernel
  refine ⟨hlost, fun hthrough => ?_⟩
  obtain ⟨last, hrun, hloop⟩ := Option.map_eq_some_iff.mp hlost
  exact (hthrough.last hrun).standing hloop

/-! ## The order the standard `compare` gives -/

/-- No channel has the wildcard for its own source. -/
def OwnSourceNamed (_ : Broadcasting) : Event → Prop
  | .construct _ address => address.source ≠ wildcard
  | .destroy _ | .deliver _ | .returned => True

theorem goOn_router (state : Broadcasting) (entries : ChannelMap) :
    (state.goOn entries).router = state.router := by
  rcases goOn_cases state entries with
    ⟨_, hnext⟩ | ⟨_, _, _, _, _, _, hnext⟩
  · rw [hnext]
  · rw [hnext]
    rfl

theorem registered_of_step {event : Event}
    (hunit : strings.UnitValued)
    (hreg : state.router.Registered strings)
    (hnamed : state.OwnSourceNamed event)
    (hstep : state.step strings event = some next) :
    next.router.Registered strings := by
  cases step_cases hstep with
  | construct channel address outcome router hloop hnew hconstruct =>
      exact hreg.construct hunit hnamed hconstruct
  | destroy channel router hloop hdestroy =>
      exact hreg.of_destroy hunit hdestroy
  | deliver message hidle hbroadcast =>
      rw [goOn_router]
      exact hreg
  | returned entry rest hcalling hafter =>
      rw [goOn_router]
      exact hreg
  | lost entry hcalling hafter => exact hreg

theorem findsOwn_of_registered (hunit : strings.UnitValued)
    (hreg : state.router.Registered strings) (event : Event) :
    FindsOwn strings state event := by
  cases event with
  | destroy channel =>
      rintro ⟨_, address⟩ hobject rfl entry hfind
      have hown := (hreg.find?_eq_some_iff hunit address.swap
        (hreg.source_ne hobject) (address.swap, _)).mpr
          ⟨rfl, by simpa using hobject⟩
      rw [Option.mem_def, hown, Option.some.injEq] at hfind
      rw [← hfind]
  | construct channel address => trivial
  | deliver message => trivial
  | returned => trivial

/-- With `compare` giving -1, 0 and 1, all that is asked is that no handler
destroys its own channel. -/
theorem undisturbed_of_named (hunit : strings.UnitValued)
    {events : List Event}
    (hnamed : Along (step strings) OwnSourceNamed ({} : Broadcasting)
      events)
    (hspares : Along (step strings) SparesItself ({} : Broadcasting)
      events) :
    Along (step strings) (Undisturbed strings) ({} : Broadcasting)
      events :=
  Along.and
    (along_of_along
      (fun _ _ _ hreg hnamed hstep =>
        registered_of_step hunit hreg hnamed hstep)
      (fun _ event hreg _ => findsOwn_of_registered hunit hreg event)
      Router.registered_empty hnamed)
    hspares

end Broadcasting

end LibChromecast
