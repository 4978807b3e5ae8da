import LibChromecast.JsonText
import LibChromecast.RequestChannel

/-!
# Correlation of requests and responses

The invariant that relates the counter, the tables and the frames of a
process: as long as the counter has not wrapped, every key of every table and
every id on the wire is at most the counter, so a new id is fresh everywhere.
What a response does, and what it can never do again, follows.
-/

namespace LibChromecast

open Foundation Foundation.Transition

namespace RequestMap

variable {κ : Type}

theorem less_strictTotalOn :
    OrderedMap.StrictTotalOn less (fun _ => True) where
  irrefl a _ := by simp [less]
  trans a b c _ _ _ hab hbc := by
    simp only [less, decide_eq_true_eq] at hab hbc ⊢
    exact UInt64.lt_trans hab hbc
  total a b _ _ hab hba := by
    simp only [less, decide_eq_false_iff_not, UInt64.not_lt] at hab hba
    exact UInt64.le_antisymm hba hab

theorem keysIn_true (map : RequestMap κ) :
    OrderedMap.KeysIn (fun _ => True) map := fun _ _ => trivial

variable {map : RequestMap κ} (hsorted : OrderedMap.Sorted less map)

include hsorted

theorem find?_eq_some_iff {id : UInt64} {entry : UInt64 × ChannelRequest κ} :
    find? id map = some entry ↔ entry ∈ map ∧ entry.1 = id :=
  OrderedMap.find?_eq_some_iff less_strictTotalOn hsorted
    (keysIn_true map) trivial

theorem find?_eq_none_iff {id : UInt64} :
    find? id map = none ↔ ∀ entry ∈ map, entry.1 ≠ id :=
  OrderedMap.find?_eq_none_iff less_strictTotalOn hsorted
    (keysIn_true map) trivial

theorem mem_insert {id : UInt64} {request : ChannelRequest κ}
    {entry : UInt64 × ChannelRequest κ} :
    entry ∈ OrderedMap.insert less id request map ↔
      entry = (id, request) ∨ (entry ∈ map ∧ entry.1 ≠ id) :=
  OrderedMap.mem_insert less_strictTotalOn hsorted (keysIn_true map)
    trivial

theorem sorted_insert (id : UInt64) (request : ChannelRequest κ) :
    OrderedMap.Sorted less (OrderedMap.insert less id request map) :=
  OrderedMap.sorted_insert less_strictTotalOn hsorted (keysIn_true map)
    trivial

theorem mem_erase {id : UInt64} {entry : UInt64 × ChannelRequest κ} :
    entry ∈ OrderedMap.erase less id map ↔ entry ∈ map ∧ entry.1 ≠ id :=
  OrderedMap.mem_erase less_strictTotalOn hsorted (keysIn_true map) trivial

end RequestMap

namespace Requests

variable {ι κ : Type}

/-! ## The invariant -/

def documents (trace : List (Observation ι κ)) : List Json :=
  trace.filterMap fun observation =>
    match observation with
    | .frame _ _ document => some document
    | .invoked .. => none

/-- The ids on the wire are `ids`: increasing and never zero. -/
def WireIds (trace : List (Observation ι κ)) (ids : List UInt64) : Prop :=
  (documents trace).map (Json.get (lit "requestId")) = ids.map Json.uint ∧
    ids.Pairwise (· < ·) ∧ (0 : UInt64) ∉ ids

structure Consistent (world : Requests ι κ) : Prop where
  counter : world.requestId.toNat = world.drawn
  sorted : ∀ channel, OrderedMap.Sorted RequestMap.less
    (world.requestIdToRequest channel)
  keys_le : ∀ channel, ∀ entry ∈ world.requestIdToRequest channel,
    entry.1 ≤ world.requestId
  wire : ∃ ids, WireIds world.trace ids ∧ ∀ id ∈ ids, id ≤ world.requestId

theorem consistent_empty : ({} : Requests ι κ).Consistent where
  counter := rfl
  sorted _ := OrderedMap.sorted_nil _
  keys_le := by
    intro channel entry hentry
    contradiction
  wire := ⟨[], ⟨rfl, List.Pairwise.nil, by simp⟩, by simp⟩

theorem Consistent.counter_succ {world : Requests ι κ}
    (h : world.Consistent) (hdrawn : world.drawn + 1 < 2 ^ 64) :
    (world.requestId + 1).toNat = world.drawn + 1 := by
  rw [UInt64.toNat_add, h.counter]
  exact Nat.mod_eq_of_lt hdrawn

theorem Consistent.counter_lt {world : Requests ι κ}
    (h : world.Consistent) (hdrawn : world.drawn + 1 < 2 ^ 64) :
    world.requestId < world.requestId + 1 := by
  rw [UInt64.lt_iff_toNat_lt, h.counter_succ hdrawn, h.counter]
  exact Nat.lt_succ_self _

theorem Consistent.fresh {world : Requests ι κ} (h : world.Consistent)
    (hdrawn : world.drawn + 1 < 2 ^ 64) (channel : ι) :
    ∀ entry ∈ world.requestIdToRequest channel,
      entry.1 ≠ world.requestId + 1 := by
  intro entry hentry heq
  have hle := h.keys_le channel entry hentry
  have hlt := h.counter_lt hdrawn
  rw [heq] at hle
  exact absurd (UInt64.lt_of_lt_of_le hlt hle) (UInt64.lt_irrefl _)

theorem wireIds_snoc {trace : List (Observation ι κ)} {ids : List UInt64}
    {id bound : UInt64} {document : Json} (hwire : WireIds trace ids)
    (hle : ∀ earlier ∈ ids, earlier ≤ bound) (hlt : bound < id)
    (hid : document.get (lit "requestId") = .uint id) (channel : ι)
    (call : ℕ) :
    WireIds (trace ++ [.frame channel call document]) (ids ++ [id]) := by
  obtain ⟨hmap, hincreasing, hzero⟩ := hwire
  refine ⟨?_, ?_, ?_⟩
  · simp only [documents, List.filterMap_append, List.map_append]
    rw [List.map_singleton, ← hid]
    exact congrArg (· ++ _) hmap
  · rw [List.pairwise_append]
    refine ⟨hincreasing, List.pairwise_singleton _ _, ?_⟩
    intro earlier hearlier later hlater
    rw [List.mem_singleton.mp hlater]
    exact UInt64.lt_of_le_of_lt (hle earlier hearlier) hlt
  · have hpositive : (0 : UInt64) < id :=
      UInt64.lt_of_le_of_lt UInt64.zero_le hlt
    rw [List.mem_append, List.mem_singleton, not_or]
    exact ⟨hzero, (UInt64.ne_of_lt hpositive)⟩

variable [DecidableEq ι] {rapid : RapidJson}

/-! ## What the operations change -/

section Fields

variable (channel : ι) (message : Json) (callback : κ) (call : ℕ)
  (sending : Outcome Unit) (world : Requests ι κ)

@[simp] theorem request_requestId :
    (world.request rapid channel message callback call sending).2.requestId =
      world.requestId + 1 := rfl

@[simp] theorem request_drawn :
    (world.request rapid channel message callback call sending).2.drawn =
      world.drawn + 1 := rfl

@[simp] theorem request_requested :
    (world.request rapid channel message callback call sending).2.requested =
      world.requested := rfl

def requestDocument : Json :=
  message.set (lit "requestId") (.uint (world.requestId + 1))

theorem request_trace :
    (world.request rapid channel message callback call sending).2.trace =
      world.trace ++
        match sending with
        | .ok () => [.frame channel call (requestDocument message world)]
        | .error _ => [] := rfl

theorem request_table :
    (world.request rapid channel message callback call
        sending).2.requestIdToRequest =
      Function.update world.requestIdToRequest channel
        (OrderedMap.insert RequestMap.less (world.requestId + 1)
          ⟨world.timers.length, callback, call⟩
          (world.requestIdToRequest channel)) := rfl

variable (requestId : UInt64)

@[simp] theorem onResponse_requestId :
    (world.onResponse channel requestId).2.requestId = world.requestId := by
  unfold onResponse
  dsimp only
  split <;> rfl

@[simp] theorem onResponse_drawn :
    (world.onResponse channel requestId).2.drawn = world.drawn := by
  unfold onResponse
  dsimp only
  split <;> rfl

@[simp] theorem onResponse_requested :
    (world.onResponse channel requestId).2.requested = world.requested := by
  unfold onResponse
  dsimp only
  split <;> rfl

end Fields

inductive StepCase (rapid : RapidJson) (world : Requests ι κ) :
    Event ι κ → Requests ι κ → Prop
  | request (channel : ι) (message : Json) (callback : κ)
      (sending : Outcome Unit) :
      StepCase rapid world (.request channel message callback sending)
        (world.userRequest rapid channel message callback sending).2
  | expire (timer : ℕ) (t : RetryTimer ι κ)
      (htimer : world.timers[timer]? = some t)
      (hstate : t.state = .waiting) :
      StepCase rapid world (.expire timer) (world.setTimer timer .queued)
  | fire (timer : ℕ) (t : RetryTimer ι κ) (sending : Outcome Unit)
      (htimer : world.timers[timer]? = some t)
      (hstate : t.state = .queued) :
      StepCase rapid world (.fire timer sending)
        ((world.setTimer timer .fired).request rapid t.channel
          (rapid.copy t.message) t.callback t.call sending).2
  | unanswered (channel : ι) (payload : StdString)
      (override : Response → Option (Outcome Bool)) :
      StepCase rapid world (.message channel payload override) world
  | answered (channel : ι) (payload : StdString)
      (override : Response → Option (Outcome Bool)) (response : Response)
      (hincoming : incoming rapid payload = .ok (some response))
      (hbase : override response = none) :
      StepCase rapid world (.message channel payload override)
        (world.onResponse channel response.requestId).2

theorem step_cases {world next : Requests ι κ} {event : Event ι κ}
    (h : world.step rapid event = some next) :
    StepCase rapid world event next := by
  cases event with
  | request channel message callback sending =>
      cases h
      exact .request channel message callback sending
  | expire timer =>
      simp only [step, expire] at h
      split at h
      next => contradiction
      next t htimer =>
        split_ifs at h with hstate
        cases h
        exact .expire timer t htimer hstate
  | fire timer sending =>
      simp only [step, fire] at h
      split at h
      next => contradiction
      next t htimer =>
        split_ifs at h with hstate
        cases h
        exact .fire timer t sending htimer hstate
  | message channel payload override =>
      simp only [step] at h
      split at h
      next => contradiction
      next hmessage =>
        cases h
        unfold onMessage at hmessage
        cases hincoming : incoming rapid payload with
        | error fault =>
            rw [hincoming] at hmessage
            cases hmessage
            exact .unanswered channel payload override
        | ok response? =>
            rw [hincoming] at hmessage
            cases response? with
            | none =>
                cases hmessage
                exact .unanswered channel payload override
            | some response =>
                cases hbase : override response with
                | some outcome =>
                    simp only [hbase] at hmessage
                    cases hmessage
                    exact .unanswered channel payload override
                | none =>
                    simp only [hbase] at hmessage
                    have hnext : (world.onResponse channel
                        response.requestId).2 = next := by rw [hmessage]
                    subst hnext
                    exact .answered channel payload override response
                      hincoming hbase

theorem drawn_le {world next : Requests ι κ} {event : Event ι κ}
    (h : world.step rapid event = some next) :
    world.drawn ≤ next.drawn := by
  cases step_cases h with
  | request => exact Nat.le_succ _
  | expire => exact Nat.le_refl _
  | fire => exact Nat.le_succ _
  | unanswered => exact Nat.le_refl _
  | answered => rw [onResponse_drawn]

/-! ## The tables -/

theorem onResponse_cases {world : Requests ι κ} {channel : ι}
    (hsorted : OrderedMap.Sorted RequestMap.less
      (world.requestIdToRequest channel)) (id : UInt64) :
    ((∀ entry ∈ world.requestIdToRequest channel, entry.1 ≠ id) ∧
        world.onResponse channel id = (.ok false, world)) ∨
      ∃ request, (id, request) ∈ world.requestIdToRequest channel ∧
        world.onResponse channel id = (.ok true, { world with
          requestIdToRequest := Function.update world.requestIdToRequest
            channel (OrderedMap.erase RequestMap.less id
              (world.requestIdToRequest channel))
          timers := cancelTimer request.retryTimer world.timers
          trace := world.trace ++
            [.invoked channel request.call id request.callback] }) := by
  unfold onResponse
  dsimp only
  cases hfind : RequestMap.find? id (world.requestIdToRequest channel) with
  | none =>
      exact Or.inl ⟨(RequestMap.find?_eq_none_iff hsorted).mp hfind, rfl⟩
  | some entry =>
      obtain ⟨hmem, hkey⟩ := (RequestMap.find?_eq_some_iff hsorted).mp hfind
      subst hkey
      exact Or.inr ⟨entry.2, hmem, rfl⟩

section Tables

variable {world : Requests ι κ} (hsorted : ∀ channel,
  OrderedMap.Sorted RequestMap.less (world.requestIdToRequest channel))

include hsorted

theorem sorted_request_table (channel : ι) (message : Json) (callback : κ)
    (call : ℕ) (sending : Outcome Unit) (other : ι) :
    OrderedMap.Sorted RequestMap.less ((world.request rapid channel message
      callback call sending).2.requestIdToRequest other) := by
  rw [request_table]
  by_cases hother : other = channel
  · subst hother
    rw [Function.update_self]
    exact RequestMap.sorted_insert (hsorted other) _ _
  · rw [Function.update_of_ne hother]
    exact hsorted other

theorem mem_request_table {channel other : ι} {message : Json}
    {callback : κ} {call : ℕ} {sending : Outcome Unit}
    {entry : UInt64 × ChannelRequest κ}
    (h : entry ∈ (world.request rapid channel message callback call
      sending).2.requestIdToRequest other) :
    entry ∈ world.requestIdToRequest other ∨
      (other = channel ∧ entry =
        (world.requestId + 1, ⟨world.timers.length, callback, call⟩)) := by
  rw [request_table] at h
  by_cases hother : other = channel
  · subst hother
    rw [Function.update_self, RequestMap.mem_insert (hsorted other)] at h
    rcases h with hnew | ⟨hold, -⟩
    · exact Or.inr ⟨rfl, hnew⟩
    · exact Or.inl hold
  · rw [Function.update_of_ne hother] at h
    exact Or.inl h

theorem sorted_onResponse_table (channel : ι) (id : UInt64) (other : ι) :
    OrderedMap.Sorted RequestMap.less
      ((world.onResponse channel id).2.requestIdToRequest other) := by
  rcases onResponse_cases (hsorted channel) id with
    ⟨-, hnone⟩ | ⟨request, -, hsome⟩
  · rw [hnone]
    exact hsorted other
  · rw [hsome]
    by_cases hother : other = channel
    · subst hother
      simpa using OrderedMap.sorted_erase (hsorted other) id
    · simpa [hother] using hsorted other

theorem mem_onResponse_table {channel other : ι} {id : UInt64}
    {entry : UInt64 × ChannelRequest κ} :
    entry ∈ (world.onResponse channel id).2.requestIdToRequest other ↔
      entry ∈ world.requestIdToRequest other ∧
        (other = channel → entry.1 ≠ id) := by
  rcases onResponse_cases (hsorted channel) id with
    ⟨habsent, hnone⟩ | ⟨request, -, hsome⟩
  · rw [hnone]
    refine ⟨fun hentry => ⟨hentry, ?_⟩, And.left⟩
    intro hother
    subst hother
    exact habsent entry hentry
  · rw [hsome]
    by_cases hother : other = channel
    · subst hother
      simp [RequestMap.mem_erase (hsorted other)]
    · simp [hother]

end Tables

/-! ## Preservation -/

variable (rapid) in
theorem Consistent.mem_request {world : Requests ι κ} (h : world.Consistent)
    (hdrawn : world.drawn + 1 < 2 ^ 64) (channel : ι) (message : Json)
    (callback : κ) (call : ℕ) (sending : Outcome Unit) (other : ι)
    (entry : UInt64 × ChannelRequest κ) :
    entry ∈ (world.request rapid channel message callback call
        sending).2.requestIdToRequest other ↔
      entry ∈ world.requestIdToRequest other ∨
        (other = channel ∧ entry =
          (world.requestId + 1, ⟨world.timers.length, callback, call⟩)) := by
  refine ⟨mem_request_table h.sorted, ?_⟩
  rw [request_table]
  by_cases hother : other = channel
  · subst hother
    rw [Function.update_self, RequestMap.mem_insert (h.sorted other)]
    rintro (hold | ⟨-, hnew⟩)
    · exact Or.inr ⟨hold, h.fresh hdrawn other entry hold⟩
    · exact Or.inl hnew
  · rw [Function.update_of_ne hother]
    simp [hother]

theorem Consistent.request {world : Requests ι κ} (h : world.Consistent)
    (hdrawn : world.drawn + 1 < 2 ^ 64) (channel : ι) (message : Json)
    (callback : κ) (call : ℕ) (sending : Outcome Unit) :
    (world.request rapid channel message callback call
      sending).2.Consistent where
  counter := h.counter_succ hdrawn
  sorted := sorted_request_table h.sorted _ _ _ _ _
  keys_le other entry hentry := by
    rw [h.mem_request rapid hdrawn] at hentry
    rcases hentry with hold | ⟨-, hnew⟩
    · exact UInt64.le_trans (h.keys_le other entry hold)
        (UInt64.le_of_lt (h.counter_lt hdrawn))
    · rw [hnew]
      exact UInt64.le_refl _
  wire := by
    obtain ⟨ids, hwire, hle⟩ := h.wire
    have hlt := h.counter_lt hdrawn
    have hle' : ∀ id ∈ ids, id ≤ world.requestId + 1 := fun id hid =>
      UInt64.le_trans (hle id hid) (UInt64.le_of_lt hlt)
    rw [request_trace]
    cases sending with
    | error fault =>
        rw [List.append_nil]
        exact ⟨ids, hwire, hle'⟩
    | ok _ =>
        refine ⟨ids ++ [world.requestId + 1],
          wireIds_snoc hwire hle hlt ?_ channel call, ?_⟩
        · exact Json.get_set_self _ _ _
        · rw [List.forall_mem_append, List.forall_mem_singleton]
          exact ⟨hle', UInt64.le_refl _⟩

theorem Consistent.onResponse {world : Requests ι κ} (h : world.Consistent)
    (channel : ι) (id : UInt64) :
    (world.onResponse channel id).2.Consistent where
  counter := by
    rw [onResponse_requestId, onResponse_drawn]
    exact h.counter
  sorted := sorted_onResponse_table h.sorted channel id
  keys_le other entry hentry := by
    rw [onResponse_requestId]
    exact h.keys_le other entry ((mem_onResponse_table h.sorted).mp hentry).1
  wire := by
    rw [onResponse_requestId]
    rcases onResponse_cases (h.sorted channel) id with
      ⟨-, hnone⟩ | ⟨request, -, hsome⟩
    · rw [hnone]
      exact h.wire
    · rw [hsome]
      obtain ⟨ids, ⟨hmap, hrest⟩, hle⟩ := h.wire
      refine ⟨ids, ⟨?_, hrest⟩, hle⟩
      simpa [documents] using hmap

theorem Consistent.step {world next : Requests ι κ} {event : Event ι κ}
    (h : world.Consistent) (hstep : world.step rapid event = some next)
    (hdrawn : next.drawn < 2 ^ 64) : next.Consistent := by
  cases step_cases hstep with
  | request channel message callback sending =>
      have hbefore : ({ world with
          requested := world.requested ++ [message] } :
            Requests ι κ).Consistent :=
        ⟨h.counter, h.sorted, h.keys_le, h.wire⟩
      exact hbefore.request hdrawn _ _ _ _ _
  | expire => exact ⟨h.counter, h.sorted, h.keys_le, h.wire⟩
  | fire timer t sending =>
      have hbefore : (world.setTimer timer .fired).Consistent :=
        ⟨h.counter, h.sorted, h.keys_le, h.wire⟩
      exact hbefore.request hdrawn _ _ _ _ _
  | unanswered => exact h
  | answered channel payload override response =>
      exact h.onResponse channel response.requestId

theorem Consistent.run {world last : Requests ι κ}
    {events : List (Event ι κ)} (h : world.Consistent)
    (hrun : exec (Requests.step rapid) world events = some last)
    (hdrawn : last.drawn < 2 ^ 64) : last.Consistent := by
  refine exec_invariant
    (fun current : Requests ι κ =>
      current.drawn < 2 ^ 64 → current.Consistent) ?_ (fun _ => h) hrun
      hdrawn
  intro current event next hcurrent hstep hnext
  have hbound := Nat.lt_of_le_of_lt (drawn_le hstep) hnext
  exact (hcurrent hbound).step hstep hnext

/-! ## What is retransmitted -/

def numbered (id : UInt64) (message : Json) : Json :=
  message.set (lit "requestId") (.uint id)

/-- What RapidJSON reads back of a message under some id it writes as it was
written, and under another id as it writes the message itself. -/
structure ReadsBack (rapid : RapidJson) (message : Json) : Prop where
  again : ∀ id, rapid.toString (rapid.copy (numbered id message)) =
    rapid.toString (numbered id message)
  renumbered : ∀ earlier id,
    rapid.toString (numbered id (rapid.copy (numbered earlier message))) =
      rapid.toString (numbered id message)

/-- It is enough that it reads back the message itself. -/
theorem ReadsBack.of_copy {rapid : RapidJson} {message : Json}
    (hcopy : ∀ id, rapid.copy (numbered id message) = numbered id message) :
    ReadsBack rapid message where
  again id := by rw [hcopy]
  renumbered earlier id := by
    rw [hcopy, numbered, numbered, Json.set_set, numbered]

/-- The text of the document is that of the message, under some id. -/
def SameText (rapid : RapidJson) (document message : Json) : Prop :=
  ∃ id, rapid.toString document = rapid.toString (numbered id message)

/-- What the message of a call is like, if RapidJSON reads it back. -/
def OfCall (rapid : RapidJson) (world : Requests ι κ) (call : ℕ)
    (property : Json → Prop) : Prop :=
  ∃ message, world.requested[call]? = some message ∧
    (ReadsBack rapid message → property message)

/-- Timers hold copies of the messages of the calls they go back to, and
frames have their texts. -/
structure Carries (rapid : RapidJson) (world : Requests ι κ) : Prop where
  timers : ∀ timer ∈ world.timers,
    OfCall rapid world timer.call fun message =>
      ∃ id, timer.message = rapid.copy (numbered id message)
  frames : ∀ channel call document,
    Observation.frame channel call document ∈ world.trace →
      OfCall rapid world call (SameText rapid document)

omit [DecidableEq ι] in
theorem mem_of_mem_modify {timers : List (RetryTimer ι κ)} {index : ℕ}
    (change : TimerState → TimerState) {timer : RetryTimer ι κ}
    (h : timer ∈ timers.modify index
      fun t => { t with state := change t.state }) :
    ∃ old ∈ timers, timer.call = old.call ∧
      timer.message = old.message := by
  obtain ⟨position, hposition⟩ := List.mem_iff_getElem?.mp h
  rw [List.getElem?_modify] at hposition
  obtain ⟨old, hold, hchange⟩ := Option.map_eq_some_iff.mp hposition
  refine ⟨old, List.mem_of_getElem? hold, ?_⟩
  subst hchange
  split <;> exact ⟨rfl, rfl⟩

omit [DecidableEq ι] in
theorem Carries.of_timers {world next : Requests ι κ}
    (h : Carries rapid world)
    (hrequested : next.requested = world.requested)
    (htimers : ∀ timer ∈ next.timers, ∃ old ∈ world.timers,
      timer.call = old.call ∧ timer.message = old.message)
    (hframes : ∀ channel call document,
      Observation.frame channel call document ∈ next.trace →
        Observation.frame channel call document ∈ world.trace) :
    Carries rapid next := by
  have hcalls : ∀ call property, OfCall rapid world call property →
      OfCall rapid next call property := by
    intro call property hcall
    unfold OfCall
    rw [hrequested]
    exact hcall
  refine ⟨?_, ?_⟩
  · intro timer htimer
    obtain ⟨old, hold, hcall, hmessage⟩ := htimers timer htimer
    rw [hcall, hmessage]
    exact hcalls _ _ (h.timers old hold)
  · intro channel call document hframe
    exact hcalls _ _ (h.frames _ _ _ (hframes _ _ _ hframe))

theorem Carries.request {world : Requests ι κ} (h : Carries rapid world)
    (channel : ι) {message original : Json} (callback : κ) {call : ℕ}
    (sending : Outcome Unit)
    (hcall : world.requested[call]? = some original)
    (hmessage : ReadsBack rapid original → ∀ id,
      rapid.toString (numbered id message) =
        rapid.toString (numbered id original)) :
    Carries rapid
      (world.request rapid channel message callback call sending).2 := by
  have hdocument : OfCall rapid world call
      (SameText rapid (requestDocument message world)) :=
    ⟨original, hcall, fun hback => ⟨_, hmessage hback _⟩⟩
  have hcopy : OfCall rapid world call fun original =>
      ∃ id, rapid.copy (requestDocument message world) =
        rapid.copy (numbered id original) :=
    ⟨original, hcall, fun hback => ⟨world.requestId + 1,
      congrArg rapid.parseMessage (hmessage hback _)⟩⟩
  refine ⟨?_, ?_⟩
  · intro timer htimer
    rcases List.mem_append.mp htimer with hold | hnew
    · split at hold
      · exact h.timers timer hold
      · obtain ⟨old, hmem, hsame, hsent⟩ := mem_of_mem_modify _ hold
        rw [hsame, hsent]
        exact h.timers old hmem
    · rw [List.mem_singleton.mp hnew]
      exact hcopy
  · intro channel' call' document hframe
    rw [request_trace] at hframe
    rcases List.mem_append.mp hframe with hold | hnew
    · exact h.frames _ _ _ hold
    · cases sending with
      | error fault => contradiction
      | ok _ =>
          cases List.mem_singleton.mp hnew
          exact hdocument

theorem Carries.step {world next : Requests ι κ} {event : Event ι κ}
    (h : Carries rapid world)
    (hstep : world.step rapid event = some next) :
    Carries rapid next := by
  cases step_cases hstep with
  | request channel message callback sending =>
      have hmore : ∀ call property, OfCall rapid world call property →
          OfCall rapid { world with
            requested := world.requested ++ [message] } call property := by
        rintro call property ⟨original, hcall, hproperty⟩
        have hlt := (List.getElem?_eq_some_iff.mp hcall).1
        refine ⟨original, ?_, hproperty⟩
        rw [List.getElem?_append_left hlt, hcall]
      have hbefore : Carries rapid { world with
          requested := world.requested ++ [message] } :=
        ⟨fun timer htimer => hmore _ _ (h.timers timer htimer),
          fun _ _ _ hframe => hmore _ _ (h.frames _ _ _ hframe)⟩
      refine hbefore.request channel callback sending ?_ fun _ _ => rfl
      simp
  | expire timer t =>
      exact h.of_timers rfl
        (fun _ hmem => mem_of_mem_modify (fun _ => .queued) hmem)
        fun _ _ _ hframe => hframe
  | fire timer t sending htimer hstate =>
      have hbefore : Carries rapid (world.setTimer timer .fired) :=
        h.of_timers rfl
          (fun _ hmem => mem_of_mem_modify (fun _ => .fired) hmem)
          fun _ _ _ hframe => hframe
      obtain ⟨original, hcall, hmessage⟩ :=
        h.timers t (List.mem_of_getElem? htimer)
      apply hbefore.request t.channel t.callback sending hcall
      intro hback id
      obtain ⟨earlier, hearlier⟩ := hmessage hback
      have hcopied : rapid.copy t.message =
          rapid.copy (numbered earlier original) := by
        rw [hearlier]
        exact congrArg rapid.parseMessage (hback.again earlier)
      rw [hcopied, hback.renumbered]
  | unanswered => exact h
  | answered channel payload override response =>
      apply h.of_timers (onResponse_requested _ _ _)
      · unfold onResponse
        dsimp only
        split
        · exact fun timer htimer => ⟨timer, htimer, rfl, rfl⟩
        · exact fun _ hmem => mem_of_mem_modify _ hmem
      · unfold onResponse
        dsimp only
        split
        · exact fun _ _ _ hframe => hframe
        · intro _ _ _ hframe
          simpa using hframe

omit [DecidableEq ι] in
theorem carries_empty : Carries rapid ({} : Requests ι κ) where
  timers := by
    intro timer htimer
    contradiction
  frames := by
    intro channel call document hframe
    contradiction

/-! ## A key that is gone -/

/-- A request stores under an id above the counter only. -/
theorem Consistent.absent_request {world : Requests ι κ}
    (h : world.Consistent) (hdrawn : world.drawn + 1 < 2 ^ 64)
    {id : UInt64} (hid : id ≤ world.requestId) {channel : ι}
    (habsent : ∀ entry ∈ world.requestIdToRequest channel, entry.1 ≠ id)
    (other : ι) (message : Json) (callback : κ) (call : ℕ)
    (sending : Outcome Unit) :
    id ≤ world.requestId + 1 ∧
      ∀ entry ∈ (world.request rapid other message callback call
        sending).2.requestIdToRequest channel, entry.1 ≠ id := by
  have hlt := h.counter_lt hdrawn
  refine ⟨UInt64.le_trans hid (UInt64.le_of_lt hlt), ?_⟩
  intro entry hentry heq
  rcases mem_request_table h.sorted hentry with hold | ⟨-, hnew⟩
  · exact habsent entry hold heq
  · rw [hnew] at heq
    dsimp only at heq
    rw [← heq] at hid
    exact absurd (UInt64.lt_of_lt_of_le hlt hid) (UInt64.lt_irrefl _)

/-- An id that is no key of a channel, and was drawn, never is one again. -/
theorem absent_run {world last : Requests ι κ} {events : List (Event ι κ)}
    (hconsistent : world.Consistent) {channel : ι} {id : UInt64}
    (hdrawn : id ≤ world.requestId)
    (habsent : ∀ entry ∈ world.requestIdToRequest channel, entry.1 ≠ id)
    (hrun : exec (Requests.step rapid) world events = some last)
    (hlast : last.drawn < 2 ^ 64) :
    last.Consistent ∧
      ∀ entry ∈ last.requestIdToRequest channel, entry.1 ≠ id := by
  have hinv := exec_invariant
    (fun current : Requests ι κ => current.drawn < 2 ^ 64 →
      current.Consistent ∧ id ≤ current.requestId ∧
        ∀ entry ∈ current.requestIdToRequest channel, entry.1 ≠ id)
    ?_ (fun _ => ⟨hconsistent, hdrawn, habsent⟩) hrun hlast
  · exact ⟨hinv.1, hinv.2.2⟩
  · intro current event next hcurrent hstep hnext
    obtain ⟨hcons, hle, hgone⟩ :=
      hcurrent (Nat.lt_of_le_of_lt (drawn_le hstep) hnext)
    refine ⟨hcons.step hstep hnext, ?_⟩
    cases step_cases hstep with
    | request ch message callback sending =>
        have hbefore : ({ current with
            requested := current.requested ++ [message] } :
              Requests ι κ).Consistent :=
          ⟨hcons.counter, hcons.sorted, hcons.keys_le, hcons.wire⟩
        exact hbefore.absent_request hnext hle hgone _ _ _ _ _
    | expire => exact ⟨hle, hgone⟩
    | fire timer t sending =>
        have hbefore : (current.setTimer timer .fired).Consistent :=
          ⟨hcons.counter, hcons.sorted, hcons.keys_le, hcons.wire⟩
        exact hbefore.absent_request hnext hle hgone _ _ _ _ _
    | unanswered => exact ⟨hle, hgone⟩
    | answered ch payload override response =>
        rw [onResponse_requestId]
        refine ⟨hle, fun entry hentry => ?_⟩
        exact hgone entry ((mem_onResponse_table hcons.sorted).mp hentry).1

/-! ## The contract -/

/-- What holds of the requests of a process in a state of a run. -/
structure Correlated (rapid : RapidJson) (world : Requests ι κ) :
    Prop where
  /-- The ids on the wire increase and are not zero. -/
  ids_increase : ∃ ids, WireIds world.trace ids
  keys_le : ∀ channel, ∀ entry ∈ world.requestIdToRequest channel,
    entry.1 ≤ world.requestId
  /-- The next insertion overwrites nothing. -/
  no_overwrite : world.drawn + 1 < 2 ^ 64 → ∀ channel,
    ∀ entry ∈ world.requestIdToRequest channel,
      entry.1 ≠ world.requestId + 1
  /-- A message acts on the requests only through `OnResponse`. -/
  only_onResponse : ∀ channel payload override,
    (world.onMessage rapid channel payload override).2 = world ∨
      ∃ response, incoming rapid payload = .ok (some response) ∧
        world.onMessage rapid channel payload override =
          world.onResponse channel response.requestId
  ignored : ∀ channel id,
    (∀ entry ∈ world.requestIdToRequest channel, entry.1 ≠ id) →
      world.onResponse channel id = (.ok false, world)
  /-- The callback under the id is invoked, and only its entry is removed. -/
  answered : ∀ channel id request,
    (id, request) ∈ world.requestIdToRequest channel →
      let next := (world.onResponse channel id).2
      (world.onResponse channel id).1 = .ok true ∧
        next.trace = world.trace ++
          [.invoked channel request.call id request.callback] ∧
        (∀ entry, entry ∈ next.requestIdToRequest channel ↔
          entry ∈ world.requestIdToRequest channel ∧ entry.1 ≠ id) ∧
        ∀ other, other ≠ channel →
          next.requestIdToRequest other = world.requestIdToRequest other
  /-- However the run goes on, the id invokes nothing on the channel again. -/
  once : ∀ channel id request,
    (id, request) ∈ world.requestIdToRequest channel →
      ∀ events later,
        exec (Requests.step rapid) (world.onResponse channel id).2 events =
            some later →
          later.drawn < 2 ^ 64 →
            later.onResponse channel id = (.ok false, later)
  /-- All frames of a call are the text of its message, under their own
  ids. -/
  same_message : ∀ call message, world.requested[call]? = some message →
    ReadsBack rapid message → ∀ channel document,
      Observation.frame channel call document ∈ world.trace →
        SameText rapid document message

theorem Consistent.answered {world : Requests ι κ} (h : world.Consistent)
    {channel : ι} {id : UInt64} {request : ChannelRequest κ}
    (hentry : (id, request) ∈ world.requestIdToRequest channel) :
    world.onResponse channel id = (.ok true, { world with
      requestIdToRequest := Function.update world.requestIdToRequest
        channel (OrderedMap.erase RequestMap.less id
          (world.requestIdToRequest channel))
      timers := cancelTimer request.retryTimer world.timers
      trace := world.trace ++
        [.invoked channel request.call id request.callback] }) := by
  have hfind := (RequestMap.find?_eq_some_iff (h.sorted channel)).mpr
    ⟨hentry, rfl⟩
  unfold Requests.onResponse
  simp only [hfind]

theorem Consistent.correlated {world : Requests ι κ} (h : world.Consistent)
    (hcarries : Carries rapid world) : Correlated rapid world where
  ids_increase := by
    obtain ⟨ids, hwire, -⟩ := h.wire
    exact ⟨ids, hwire⟩
  keys_le := h.keys_le
  no_overwrite hdrawn channel := h.fresh hdrawn channel
  only_onResponse channel payload override := by
    unfold onMessage
    cases hincoming : incoming rapid payload with
    | error fault => exact Or.inl rfl
    | ok response? =>
        cases response? with
        | none => exact Or.inl rfl
        | some response =>
            cases hbase : override response with
            | some outcome => exact Or.inl (by simp only [hbase])
            | none =>
                exact Or.inr ⟨response, rfl, by simp only [hbase]⟩
  ignored channel id hnone := by
    rcases onResponse_cases (h.sorted channel) id with
      ⟨-, hignored⟩ | ⟨request, hentry, -⟩
    · exact hignored
    · exact absurd rfl (hnone _ hentry)
  answered channel id request hentry := by
    rw [h.answered hentry]
    refine ⟨rfl, rfl, ?_, ?_⟩
    · intro entry
      simp only [Function.update_self]
      exact RequestMap.mem_erase (h.sorted channel)
    · intro other hother
      simp only [Function.update_of_ne hother]
  once channel id request hentry events later hrun hdrawn := by
    have habsent : ∀ entry ∈ (world.onResponse channel
        id).2.requestIdToRequest channel, entry.1 ≠ id := by
      intro entry hmem
      exact ((mem_onResponse_table h.sorted).mp hmem).2 rfl
    have hid : id ≤ (world.onResponse channel id).2.requestId := by
      rw [onResponse_requestId]
      exact h.keys_le channel _ hentry
    obtain ⟨hlater, hgone⟩ := absent_run (h.onResponse channel id) hid
      habsent hrun hdrawn
    rcases onResponse_cases (hlater.sorted channel) id with
      ⟨-, hignored⟩ | ⟨other, hother, -⟩
    · exact hignored
    · exact absurd rfl (hgone _ hother)
  same_message call message hcall hback channel document hframe := by
    obtain ⟨original, horiginal, hdocument⟩ :=
      hcarries.frames channel call document hframe
    rw [hcall] at horiginal
    cases horiginal
    exact hdocument hback

/-- In every run of requests, expiries, retransmissions and messages, as long
as fewer than `2 ^ 64` ids were drawn, requests and responses correlate. -/
theorem correlated_of_run {events : List (Event ι κ)}
    {last : Requests ι κ}
    (hrun : exec (Requests.step rapid) {} events = some last)
    (hdrawn : last.drawn < 2 ^ 64) : Correlated rapid last := by
  have hcarries : Carries rapid last :=
    exec_invariant (Carries rapid)
      (fun _ _ _ hcarries hstep => hcarries.step hstep) carries_empty hrun
  exact (consistent_empty.run hrun hdrawn).correlated hcarries

/-- A request is retried once, and both of its ids are answered. -/
def retriedRun : List (Event ℕ Unit) :=
  [.request 0 (Json.null.set (lit "type") (.ofString (lit "GET_STATUS")))
      () (.ok ()),
    .expire 0, .fire 0 (.ok ()),
    .message 0 (lit "\x7b\"requestId\":1,\"type\":\"RECEIVER_STATUS\"\x7d")
      fun _ => none,
    .message 0 (lit "\x7b\"requestId\":2,\"type\":\"RECEIVER_STATUS\"\x7d")
      fun _ => none]

theorem correlated_of_run_retried :
    ∃ last, exec (Requests.step textJson) {} retriedRun = some last ∧
      Correlated textJson last := by
  have hsome : (exec (Requests.step textJson) {} retriedRun).isSome := by
    decide +kernel
  have hdrawn : (exec (Requests.step textJson) {} retriedRun).map
      Requests.drawn = some 2 := by
    decide +kernel
  obtain ⟨last, hrun⟩ := Option.isSome_iff_exists.mp hsome
  rw [hrun, Option.map_some, Option.some.injEq] at hdrawn
  exact ⟨last, hrun, correlated_of_run hrun (by omega)⟩

end Requests

end LibChromecast
