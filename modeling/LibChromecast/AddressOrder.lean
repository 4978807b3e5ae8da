import LibChromecast.Router

/-!
# The order of addresses

`CastMessage::Address::operator<` keys the channel map.  It looks for the
wildcard on its left side only, and it compares two results of
`std::string::compare` with -1.  So it is an order as long as no destination
sorts before the wildcard of another address, and a lookup follows the strings
as long as `compare` has no other negative result.
-/

namespace LibChromecast

open Foundation

namespace Address

/-! ## A strict total order -/

/-- What `std::map` asks of the comparison, at three keys. -/
structure Ordered (strings : StringCompare) (a b c : Address) : Prop where
  irrefl : a.less strings a = false
  asymm : a.less strings b = true → b.less strings a = false
  trans : a.less strings b = true → b.less strings c = true →
    a.less strings c = true
  trichotomy :
    (a.less strings b = true ∧ b.less strings a = false ∧ a ≠ b) ∨
      (a.less strings b = false ∧ b.less strings a = true ∧ a ≠ b) ∨
      (a.less strings b = false ∧ b.less strings a = false ∧ a = b)

def SortsBefore (a b : StdString) : Prop := unitCompare a b < 0

instance (a b : StdString) : Decidable (SortsBefore a b) :=
  inferInstanceAs (Decidable (_ < _))

/-- The addresses differ in the destination only; one of the destinations is
the wildcard, and the other one sorts before it. -/
def Clashes (a b : Address) : Prop :=
  a.source = b.source ∧ a.namespaceId = b.namespaceId ∧
    ((a.destination = wildcard ∧ SortsBefore b.destination wildcard) ∨
      (b.destination = wildcard ∧ SortsBefore a.destination wildcard))

instance (a b : Address) : Decidable (a.Clashes b) :=
  inferInstanceAs (Decidable (_ ∧ _ ∧ _))

theorem Clashes.symm {a b : Address} (h : a.Clashes b) : b.Clashes a :=
  ⟨h.1.symm, h.2.1.symm, h.2.2.symm⟩

theorem SortsBefore.irrefl (a : StdString) : ¬SortsBefore a a := by
  simp [SortsBefore]

theorem SortsBefore.asymm {a b : StdString} (h : SortsBefore a b) :
    ¬SortsBefore b a := by
  unfold SortsBefore at *
  rw [unitCompare_swap]
  omega

theorem SortsBefore.trans {a b c : StdString} (hab : SortsBefore a b)
    (hbc : SortsBefore b c) : SortsBefore a c :=
  unitCompare_trans hab hbc

theorem SortsBefore.trichotomy (a b : StdString) :
    SortsBefore a b ∨ a = b ∨ SortsBefore b a := by
  unfold SortsBefore
  rcases unitCompare_cases a b with h | h | h
  · exact Or.inl (by omega)
  · exact Or.inr (Or.inl (eq_of_unitCompare_eq_zero h))
  · rw [unitCompare_swap a b]
    exact Or.inr (Or.inr (by omega))

/-- The comparison of two destinations, with the wildcard on its left. -/
def DestinationLess (a b : StdString) : Prop :=
  (a = wildcard ∧ b ≠ wildcard) ∨ (a ≠ wildcard ∧ SortsBefore a b)

theorem less_iff_lexicographic {strings : StringCompare}
    (hunit : strings.UnitValued) (a b : Address) :
    a.less strings b = true ↔
      SortsBefore a.source b.source ∨
        (a.source = b.source ∧
          (SortsBefore a.namespaceId b.namespaceId ∨
            (a.namespaceId = b.namespaceId ∧
              DestinationLess a.destination b.destination))) := by
  by_cases ha : a.destination = wildcard
  · have hne : ∀ {x y : StdString}, unitCompare x y ≠ 0 → x ≠ y := by
      rintro x y hne rfl
      exact hne (unitCompare_self x)
    simp only [less, hunit.compare_eq, SortsBefore, DestinationLess, ha]
    rcases unitCompare_cases a.source b.source with hs | hs | hs
    · simp [hs]
    · have hsource := eq_of_unitCompare_eq_zero hs
      rcases unitCompare_cases a.namespaceId b.namespaceId with hn | hn | hn
      · simp [hsource, hn]
      · simp [hsource, eq_of_unitCompare_eq_zero hn]
      · have hname := hne (show unitCompare a.namespaceId b.namespaceId ≠ 0
          by omega)
        simp [hsource, hn, hname]
    · have hsource := hne (show unitCompare a.source b.source ≠ 0 by omega)
      simp [hs, hsource]
  · rw [less_iff hunit ha]
    simp [SortsBefore, DestinationLess, ha]

section Ordered

variable {strings : StringCompare} (hunit : strings.UnitValued)
  {a b c : Address}

include hunit

/-- Two addresses that clash are each below the other. -/
theorem less_of_clashes (h : a.Clashes b) :
    a.less strings b = true ∧ b.less strings a = true := by
  have hne : ∀ {x : StdString}, SortsBefore x wildcard → x ≠ wildcard := by
    rintro x hbefore rfl
    exact SortsBefore.irrefl _ hbefore
  obtain ⟨hsource, hname, ⟨hwild, hbefore⟩ | ⟨hwild, hbefore⟩⟩ := h
  · have hother := hne hbefore
    rw [less_iff_lexicographic hunit, less_iff_lexicographic hunit]
    exact ⟨Or.inr ⟨hsource, Or.inr ⟨hname, Or.inl ⟨hwild, hother⟩⟩⟩,
      Or.inr ⟨hsource.symm, Or.inr ⟨hname.symm,
        Or.inr ⟨hother, hwild ▸ hbefore⟩⟩⟩⟩
  · have hother := hne hbefore
    rw [less_iff_lexicographic hunit, less_iff_lexicographic hunit]
    exact ⟨Or.inr ⟨hsource, Or.inr ⟨hname,
        Or.inr ⟨hother, hwild ▸ hbefore⟩⟩⟩,
      Or.inr ⟨hsource.symm, Or.inr ⟨hname.symm, Or.inl ⟨hwild, hother⟩⟩⟩⟩

theorem less_irrefl : a.less strings a = false := by
  rw [← Bool.not_eq_true, less_iff_lexicographic hunit]
  rintro (h | ⟨-, h | ⟨-, ⟨h, hne⟩ | ⟨-, h⟩⟩⟩)
  · exact SortsBefore.irrefl _ h
  · exact SortsBefore.irrefl _ h
  · exact hne h
  · exact SortsBefore.irrefl _ h

theorem less_asymm (hclash : ¬a.Clashes b) (hab : a.less strings b = true) :
    b.less strings a = false := by
  rw [← Bool.not_eq_true, less_iff_lexicographic hunit]
  rw [less_iff_lexicographic hunit] at hab
  rcases hab with hab | ⟨hsource, hab | ⟨hname, hab⟩⟩
  · rintro (hba | ⟨hsource, -⟩)
    · exact hab.asymm hba
    · exact SortsBefore.irrefl _ (hsource ▸ hab)
  · rintro (hba | ⟨-, hba | ⟨hname, -⟩⟩)
    · exact SortsBefore.irrefl _ (hsource ▸ hba)
    · exact hab.asymm hba
    · exact SortsBefore.irrefl _ (hname ▸ hab)
  · rintro (hba | ⟨-, hba | ⟨-, hba⟩⟩)
    · exact SortsBefore.irrefl _ (hsource ▸ hba)
    · exact SortsBefore.irrefl _ (hname ▸ hba)
    · -- one of the two destinations is the wildcard: the other is before it
      rcases hab with ⟨hwild, hne⟩ | ⟨hne, hab⟩
      · rcases hba with ⟨hwild', -⟩ | ⟨-, hba⟩
        · exact hne hwild'
        · exact hclash ⟨hsource, hname, Or.inl ⟨hwild, hwild ▸ hba⟩⟩
      · rcases hba with ⟨hwild, -⟩ | ⟨-, hba⟩
        · exact hclash ⟨hsource, hname, Or.inr ⟨hwild, hwild ▸ hab⟩⟩
        · exact hab.asymm hba

theorem less_trans (hclash : ¬a.Clashes b) (hab : a.less strings b = true)
    (hbc : b.less strings c = true) : a.less strings c = true := by
  rw [less_iff_lexicographic hunit] at hab hbc ⊢
  rcases hab with hab | ⟨hsource, hab⟩
  · rcases hbc with hbc | ⟨hsource, -⟩
    · exact Or.inl (hab.trans hbc)
    · exact Or.inl (hsource ▸ hab)
  · rcases hbc with hbc | ⟨hsource', hbc⟩
    · exact Or.inl (hsource ▸ hbc)
    · refine Or.inr ⟨hsource.trans hsource', ?_⟩
      rcases hab with hab | ⟨hname, hab⟩
      · rcases hbc with hbc | ⟨hname, -⟩
        · exact Or.inl (hab.trans hbc)
        · exact Or.inl (hname ▸ hab)
      · rcases hbc with hbc | ⟨hname', hbc⟩
        · exact Or.inl (hname ▸ hbc)
        · refine Or.inr ⟨hname.trans hname', ?_⟩
          rcases hab with ⟨hwild, hne⟩ | ⟨hne, hab⟩
          · refine Or.inl ⟨hwild, ?_⟩
            rcases hbc with ⟨hwild', -⟩ | ⟨-, hbc⟩
            · exact absurd hwild' hne
            · intro hthird
              exact hclash ⟨hsource, hname,
                Or.inl ⟨hwild, hthird ▸ hbc⟩⟩
          · rcases hbc with ⟨hwild, -⟩ | ⟨-, hbc⟩
            · exact absurd ⟨hsource, hname, Or.inr ⟨hwild, hwild ▸ hab⟩⟩
                hclash
            · exact Or.inr ⟨hne, hab.trans hbc⟩

/-- `operator<` orders three addresses exactly where the first two do not
clash. -/
theorem ordered_iff : a.Ordered strings b c ↔ ¬a.Clashes b := by
  constructor
  · intro h hclash
    obtain ⟨hab, hba⟩ := less_of_clashes hunit hclash
    rw [h.asymm hab] at hba
    cases hba
  · intro hclash
    refine ⟨less_irrefl hunit, less_asymm hunit hclash,
      less_trans hunit hclash, ?_⟩
    cases hab : a.less strings b with
    | true =>
        refine Or.inl ⟨rfl, less_asymm hunit hclash hab, ?_⟩
        rintro rfl
        rw [less_irrefl hunit] at hab
        cases hab
    | false =>
        cases hba : b.less strings a with
        | true =>
            refine Or.inr (Or.inl ⟨rfl, rfl, ?_⟩)
            rintro rfl
            rw [less_irrefl hunit] at hba
            cases hba
        | false =>
            exact Or.inr (Or.inr ⟨rfl, rfl, eq_of_not_less hunit hab hba⟩)

/-- So `std::map` may hold any keys of which no two clash. -/
theorem strictTotalOn_iff {keys : Address → Prop} :
    OrderedMap.StrictTotalOn (fun a b : Address => a.less strings b) keys ↔
      ∀ a b, keys a → keys b → ¬a.Clashes b := by
  constructor
  · intro h a b ha hb hclash
    obtain ⟨hab, hba⟩ := less_of_clashes hunit hclash
    have haa := h.trans a b a ha hb ha hab hba
    rw [h.irrefl a ha] at haa
    cases haa
  · intro h
    refine ⟨fun a _ => less_irrefl hunit, fun a b c ha hb _ => ?_,
      fun a b _ _ => eq_of_not_less hunit⟩
    exact less_trans hunit (h a b ha hb)

end Ordered

/-- The destination `!` sorts before the wildcard. -/
def exclamation : Address := ⟨lit "s", lit "!", lit "n"⟩

def broadcastAddress : Address := ⟨lit "s", wildcard, lit "n"⟩

def letter : Address := ⟨lit "s", lit "a", lit "n"⟩

theorem ordered_iff_unit :
    letter ≠ broadcastAddress ∧
      letter.Ordered .unit broadcastAddress exclamation :=
  ⟨by decide, (ordered_iff StringCompare.unit_unitValued).mpr (by decide)⟩

/-- Each of two distinct addresses is less than the other. -/
theorem not_ordered_wildcard :
    exclamation.less .unit broadcastAddress = true ∧
      broadcastAddress.less .unit exclamation = true ∧
      ¬exclamation.Ordered .unit broadcastAddress exclamation := by
  have hclash : exclamation.Clashes broadcastAddress := by decide
  obtain ⟨hab, hba⟩ :=
    less_of_clashes StringCompare.unit_unitValued hclash
  refine ⟨hab, hba, fun h => ?_⟩
  rw [h.asymm hab] at hba
  cases hba

/-! ## The results of compare -/

/-- The comparisons of the source and of the namespace that are negative give
-1. -/
def TellsBefore (strings : StringCompare) (a b : Address) : Prop :=
  (strings.compare a.source b.source < 0 →
      strings.compare a.source b.source = -1) ∧
    (a.source = b.source →
      strings.compare a.namespaceId b.namespaceId < 0 →
        strings.compare a.namespaceId b.namespaceId = -1)

theorem compare_eq_zero_iff (strings : StringCompare) {a b : StdString} :
    strings.compare a b = 0 ↔ a = b := by
  rw [strings.compare_eq_zero]
  constructor
  · exact eq_of_unitCompare_eq_zero
  · rintro rfl
    exact unitCompare_self a

theorem beq_neg_one_iff {strings : StringCompare} {a b : StdString} :
    (strings.compare a b == -1) = (unitCompare a b == -1) ↔
      (strings.compare a b < 0 → strings.compare a b = -1) := by
  have hneg := strings.compare_neg a b
  rcases unitCompare_cases a b with h | h | h
  · have hlt : strings.compare a b < 0 := hneg.mpr (by omega)
    simp [h, hlt]
  · have hge : ¬strings.compare a b < 0 := fun hlt => by
      have := hneg.mp hlt
      omega
    have hne : strings.compare a b ≠ -1 := by omega
    simp [h, hge, hne]
  · have hge : ¬strings.compare a b < 0 := fun hlt => by
      have := hneg.mp hlt
      omega
    have hne : strings.compare a b ≠ -1 := by omega
    simp [h, hge, hne]

/-- The order is the one of the strings exactly where `compare` gives -1 for
what is before. -/
theorem less_eq_unit_iff {strings : StringCompare} {a b : Address} :
    a.less strings b = a.less .unit b ↔ TellsBefore strings a b := by
  have hzero := fun x y : StdString => compare_eq_zero_iff strings (a := x)
    (b := y)
  have hunit := fun x y : StdString => compare_eq_zero_iff .unit (a := x)
    (b := y)
  have hdestination : ∀ x y : StdString,
      decide (strings.compare x y < 0) =
        decide (StringCompare.unit.compare x y < 0) :=
    fun x y => decide_eq_decide.mpr (strings.compare_neg x y)
  unfold less TellsBefore
  dsimp only
  by_cases hsource : a.source = b.source
  · rw [if_neg (not_not.mpr ((hzero _ _).mpr hsource)),
      if_neg (not_not.mpr ((hunit _ _).mpr hsource))]
    have hsame : ¬strings.compare a.source b.source < 0 := by
      rw [(hzero _ _).mpr hsource]
      omega
    by_cases hname : a.namespaceId = b.namespaceId
    · rw [if_neg (not_not.mpr ((hzero _ _).mpr hname)),
        if_neg (not_not.mpr ((hunit _ _).mpr hname)), hdestination]
      have hnone : ¬strings.compare a.namespaceId b.namespaceId < 0 := by
        rw [(hzero _ _).mpr hname]
        omega
      simp [hsame, hnone]
    · rw [if_pos (mt (hzero _ _).mp hname),
        if_pos (mt (hunit _ _).mp hname)]
      refine beq_neg_one_iff.trans ⟨fun h => ?_, fun h => h.2 hsource⟩
      exact ⟨fun hlt => absurd hlt hsame, fun _ => h⟩
  · rw [if_pos (mt (hzero _ _).mp hsource),
      if_pos (mt (hunit _ _).mp hsource)]
    simp only [hsource, false_implies, and_true]
    exact beq_neg_one_iff

/-- Otherwise neither of the addresses is below the other. -/
theorem not_less_of_not_tellsBefore {strings : StringCompare} {a b : Address}
    (h : ¬TellsBefore strings a b) :
    a.less strings b = false ∧ b.less strings a = false ∧
      a.less .unit b = true := by
  have hback : ∀ {x y : StdString}, strings.compare x y < 0 →
      strings.compare y x ≠ 0 ∧ strings.compare y x ≠ -1 := by
    intro x y hlt
    have hunit := (strings.compare_neg x y).mp hlt
    have hswap := unitCompare_swap x y
    have hneg := strings.compare_neg y x
    have hzero := strings.compare_eq_zero y x
    omega
  have hone : ∀ {x y : StdString}, strings.compare x y < 0 →
      unitCompare x y = -1 := by
    intro x y hlt
    have hunit := (strings.compare_neg x y).mp hlt
    have hcases := unitCompare_cases x y
    omega
  have hfar : (strings.compare a.source b.source < 0 ∧
      strings.compare a.source b.source ≠ -1) ∨
    (a.source = b.source ∧
      strings.compare a.namespaceId b.namespaceId < 0 ∧
        strings.compare a.namespaceId b.namespaceId ≠ -1) := by
    unfold TellsBefore at h
    tauto
  rcases hfar with ⟨hlt, hne⟩ | ⟨hsource, hlt, hne⟩
  · obtain ⟨hzero, hback⟩ := hback hlt
    simp [less, Int.ne_of_lt hlt, hne, hzero, hback, StringCompare.unit,
      hone hlt]
  · obtain ⟨hzero, hback⟩ := hback hlt
    have hsame := (compare_eq_zero_iff strings).mpr hsource
    have hsame' := (compare_eq_zero_iff strings).mpr hsource.symm
    have hunit : unitCompare a.source b.source = 0 := by
      rw [hsource, unitCompare_self]
    simp [less, Int.ne_of_lt hlt, hne, hzero, hback, hsame, hsame', hunit,
      StringCompare.unit, hone hlt]

end Address

/-! ## Operations on the channel map -/

namespace ChannelMap

inductive Operation where
  | registerChannel (channel : ChannelId) (address : Address)
  | unregisterChannel (address : Address)
  /-- The lookup that `OnMessage` makes for a unicast message. -/
  | find (address : Address)

/-- How an operation ends; a lookup returns the channel it finds. -/
abbrev Result := Outcome (Option ChannelId)

namespace Operation

/-- The key that is looked up. -/
def key : Operation → Address
  | .registerChannel _ address => address.swap
  | .unregisterChannel address => address.swap
  | .find address => address

end Operation

def perform (strings : StringCompare) (map : ChannelMap) :
    Operation → Result × ChannelMap
  | .registerChannel channel address =>
      let registered := map.registerChannel strings channel address
      (registered.1.map fun _ => none, registered.2)
  | .unregisterChannel address =>
      let unregistered := map.unregisterChannel strings address
      (unregistered.1.map fun _ => none, unregistered.2)
  | .find address => (.ok ((map.find? strings address).map Prod.snd), map)

/-- The results of the operations, one after the other. -/
def results (strings : StringCompare) : ChannelMap → List Operation →
    List Result
  | _, [] => []
  | map, operation :: rest =>
      let performed := map.perform strings operation
      performed.1 :: results strings performed.2 rest

section Results

variable {strings other : StringCompare} {keys : Address → Prop}
  {map : ChannelMap}

variable (strings) in
theorem keysIn_perform (hkeys : OrderedMap.KeysIn keys map)
    {operation : Operation} (hkey : keys operation.key) :
    OrderedMap.KeysIn keys (map.perform strings operation).2 := by
  cases operation with
  | registerChannel channel address =>
      unfold perform registerChannel
      dsimp only
      split
      next => exact hkeys
      next => exact OrderedMap.keysIn_insert_self _ hkeys hkey _
  | unregisterChannel address =>
      unfold perform unregisterChannel
      dsimp only
      split
      next => exact hkeys
      next => exact OrderedMap.keysIn_erase hkeys _
  | find address => exact hkeys

theorem perform_congr
    (hagree : OrderedMap.AgreeOn (fun a b : Address => a.less strings b)
      (fun a b : Address => a.less other b) keys)
    (hkeys : OrderedMap.KeysIn keys map) {operation : Operation}
    (hkey : keys operation.key) :
    map.perform strings operation = map.perform other operation := by
  cases operation with
  | registerChannel channel address =>
      have hfind : map.find? strings address.swap =
          map.find? other address.swap :=
        OrderedMap.find?_congr hagree hkeys hkey
      have hinsert :=
        OrderedMap.insert_congr hagree hkeys hkey channel
      dsimp only [Operation.key] at hinsert
      simp only [perform, registerChannel, hfind, hinsert]
  | unregisterChannel address =>
      have hfind : map.find? strings address.swap =
          map.find? other address.swap :=
        OrderedMap.find?_congr hagree hkeys hkey
      have herase := OrderedMap.erase_congr hagree hkeys hkey
      dsimp only [Operation.key] at herase
      simp only [perform, unregisterChannel, hfind, herase]
  | find address =>
      have hfind : map.find? strings address = map.find? other address :=
        OrderedMap.find?_congr hagree hkeys hkey
      simp only [perform, hfind]

theorem results_congr
    (hagree : OrderedMap.AgreeOn (fun a b : Address => a.less strings b)
      (fun a b : Address => a.less other b) keys)
    {operations : List Operation}
    (hoperations : ∀ operation ∈ operations, keys operation.key)
    (hkeys : OrderedMap.KeysIn keys map) :
    results strings map operations = results other map operations := by
  induction operations generalizing map with
  | nil => rfl
  | cons operation rest ih =>
      have hkey := hoperations operation List.mem_cons_self
      have hsame := perform_congr hagree hkeys hkey
      have hrest : ∀ operation ∈ rest, keys operation.key :=
        fun operation hmem =>
          hoperations operation (List.mem_cons_of_mem _ hmem)
      have hnext := keysIn_perform strings hkeys hkey
      rw [results, results, ih hrest hnext, hsame]

/-- The registrations of two addresses of which the first key is above. -/
def registrations (a b : Address) : List Operation :=
  [.registerChannel 0 b.swap, .registerChannel 1 a.swap]

theorem results_registrations (strings : StringCompare) (a b : Address) :
    results strings [] (registrations a b) =
      [.ok none, if b.less strings a = true ∨ a.less strings b = true then
          .ok none
        else raise (.runtimeError (lit "address: " ++ a.toString ++
          lit " already registered"))] := by
  have hfind : find? strings a [(b, 0)] =
      if b.less strings a = true ∨ a.less strings b = true then none
      else some (b, 0) := by
    unfold find?
    rw [OrderedMap.find?]
    by_cases hbelow : b.less strings a = true
    · simp [hbelow, OrderedMap.find?]
    · by_cases habove : a.less strings b = true
      · simp [hbelow, habove]
      · simp [hbelow, habove]
  have hfirst : perform strings [] (.registerChannel 0 b.swap) =
      (.ok none, [(b, 0)]) := rfl
  have hsecond : (perform strings [(b, 0)]
      (.registerChannel 1 a.swap)).1 =
        if b.less strings a = true ∨ a.less strings b = true then .ok none
        else raise (.runtimeError (lit "address: " ++ a.toString ++
          lit " already registered")) := by
    simp only [perform, registerChannel, Address.swap_swap, hfind]
    split_ifs <;> rfl
  rw [registrations, results, results, results, hfirst, hsecond]

end Results

/-- Whatever `compare` returns, registrations and lookups under some keys end
as they do with -1, 0 and 1 exactly where the comparisons of these keys that
are negative give -1. -/
theorem results_eq_unit_iff (strings : StringCompare)
    (keys : Address → Prop) :
    (∀ operations : List Operation,
        (∀ operation ∈ operations, keys operation.key) →
          results strings [] operations = results .unit [] operations) ↔
      ∀ a b, keys a → keys b → a.TellsBefore strings b := by
  constructor
  · intro h a b ha hb
    by_contra hfar
    obtain ⟨hab, hba, hunit⟩ := Address.not_less_of_not_tellsBefore hfar
    have hkeys : ∀ operation ∈ registrations a b, keys operation.key := by
      intro operation hmem
      rcases List.mem_cons.mp hmem with rfl | hrest
      · exact hb
      · rw [List.mem_singleton.mp hrest]
        exact ha
    have hsame := h _ hkeys
    rw [results_registrations, results_registrations] at hsame
    simp [hab, hba, hunit, raise] at hsame
  · intro h operations hoperations
    have hagree : OrderedMap.AgreeOn
        (fun a b : Address => a.less strings b)
        (fun a b : Address => a.less .unit b) keys :=
      fun a b ha hb => Address.less_eq_unit_iff.mpr (h a b ha hb)
    exact results_congr hagree hoperations (OrderedMap.keysIn_nil _)

/-- A conforming implementation that returns -2, 0 and 2. -/
def doubled : StringCompare where
  compare a b := 2 * unitCompare a b
  compare_neg a b := by omega
  compare_eq_zero a b := by omega

/-- The channel to a second receiver is taken for registered. -/
theorem not_results_eq_unit_doubled :
    ∃ operations : List Operation,
      results doubled [] operations ≠ results .unit [] operations := by
  refine ⟨registrations ⟨lit "receiver-0", lit "sender-0", lit "n"⟩
    ⟨lit "receiver-1", lit "sender-0", lit "n"⟩, ?_⟩
  rw [results_registrations, results_registrations]
  decide

end ChannelMap

end LibChromecast
