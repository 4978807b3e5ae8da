import LibChromecast.JsonMessage

/-!
# Checks of documents

A decoder of this library ends in one of three ways: it returns, it raises, or
it calls an accessor on a value of another kind.  A check says which, from the
kinds of the values alone, and `Follows` that a decoder ends as a check says.
The rules build the check of a decoder from those of its reads, in the order
in which it makes them.
-/

namespace LibChromecast

inductive Verdict where
  | accepts
  | rejects
  | breaks
deriving DecidableEq

namespace Verdict

/-- What is read afterwards counts only after an acceptance. -/
def seq (first second : Verdict) : Verdict :=
  match first with
  | .accepts => second
  | .rejects => .rejects
  | .breaks => .breaks

@[simp] theorem accepts_seq (second : Verdict) :
    Verdict.accepts.seq second = second := rfl

@[simp] theorem rejects_seq (second : Verdict) :
    Verdict.rejects.seq second = .rejects := rfl

@[simp] theorem breaks_seq (second : Verdict) :
    Verdict.breaks.seq second = .breaks := rfl

@[simp] theorem seq_accepts (first : Verdict) :
    first.seq .accepts = first := by
  cases first <;> rfl

theorem seq_assoc (first second third : Verdict) :
    (first.seq second).seq third = first.seq (second.seq third) := by
  cases first <;> rfl

/-- How a computation ends. -/
def of {α : Type} : Outcome α → Verdict
  | .ok _ => .accepts
  | .error (.raised _) => .rejects
  | .error .violated => .breaks

theorem of_eq_breaks {α : Type} {outcome : Outcome α} :
    of outcome = .breaks ↔ outcome = .error .violated := by
  cases outcome with
  | ok value => simp [of]
  | error fault => cases fault <;> simp [of]

theorem of_eq_accepts {α : Type} {outcome : Outcome α} :
    of outcome = .accepts ↔ ∃ value, outcome = .ok value := by
  cases outcome with
  | ok value => simp [of]
  | error fault => cases fault <;> simp [of]

theorem seq_eq_accepts {first second : Verdict} :
    first.seq second = .accepts ↔ first = .accepts ∧ second = .accepts := by
  cases first <;> simp [seq]

/-- The second computation may depend on what the first one returned, but not
in how it ends. -/
theorem of_bind {α β : Type} {x : Outcome α} {f : α → Outcome β}
    {rest : Verdict} (hrest : ∀ a, x = .ok a → of (f a) = rest) :
    of (x >>= f) = (of x).seq rest := by
  cases x with
  | ok value => exact hrest value rfl
  | error fault => cases fault <;> rfl

theorem of_bind_of_breaks {α β : Type} {x : Outcome α}
    (hbreaks : of x = .breaks) (f : α → Outcome β) :
    of (x >>= f) = .breaks := by
  rw [of_eq_breaks.mp hbreaks]
  rfl

theorem of_bind_of_rejects {α β : Type} {x : Outcome α}
    (hrejects : of x = .rejects) (f : α → Outcome β) :
    of (x >>= f) = .rejects := by
  cases x with
  | ok value => cases hrejects
  | error fault =>
      cases fault with
      | raised exception => rfl
      | violated => cases hrejects

end Verdict

namespace Json

abbrev Check := Json → Verdict

/-! ## Checks -/

namespace Check

def bool : Check
  | .bool _ => .accepts
  | _ => .breaks

def number : Check
  | .double _ | .uint _ | .negInt _ => .accepts
  | _ => .breaks

def uint32 : Check
  | .uint value => if value.toNat < 2 ^ 32 then .accepts else .breaks
  | _ => .breaks

/-- A string; a text which is not accepted is rejected. -/
def text (accept : StdString → Bool) : Check
  | .string text => if accept (cStr text) then .accepts else .rejects
  | _ => .breaks

def string : Check := text fun _ => true

def each {ι : Type} (check : ι → Verdict) : List ι → Verdict
  | [] => .accepts
  | value :: rest => (check value).seq (each check rest)

def array (check : Check) : Check
  | .array items => each check items
  | _ => .breaks

/-- An array of which only the first element is read. -/
def head (check : Check) : Check
  | .array [] => .accepts
  | .array (value :: _) => check value
  | _ => .breaks

/-- A member that has to be there. -/
def required (name : StdString) (check : Check) : Check := fun value =>
  match value.find? name with
  | none => .rejects
  | some found => check found

/-- A member that is checked if it is there. -/
def optional (name : StdString) (check : Check) : Check := fun value =>
  match value.find? name with
  | none => .accepts
  | some found => check found

/-- The value itself is checked if it has the member. -/
def whenPresent (name : StdString) (check : Check) : Check := fun value =>
  match value.find? name with
  | none => .accepts
  | some _ => check value

def fields : List Check → Check
  | [], _ => .accepts
  | field :: rest, value => (field value).seq (fields rest value)

/-- Something is read of the value, so it has to be an object. -/
def object (checks : List Check) : Check
  | .object members => fields checks (.object members)
  | _ => .breaks

end Check

/-! ## Values that are accepted -/

namespace Check

variable {name : StdString} {check : Check} {checks : List Check}
  {value : Json}

theorem each_eq_accepts {ι : Type} {check : ι → Verdict} {items : List ι} :
    each check items = .accepts ↔ ∀ item ∈ items, check item = .accepts := by
  induction items with
  | nil => simp [each]
  | cons first rest ih =>
      rw [each, Verdict.seq_eq_accepts, ih, List.forall_mem_cons]

theorem array_eq_accepts :
    array check value = .accepts ↔
      ∃ items, value = .array items ∧
        ∀ item ∈ items, check item = .accepts := by
  cases value with
  | array items =>
      rw [array, each_eq_accepts]
      simp
  | _ => simp [array]

theorem text_eq_accepts {accept : StdString → Bool} :
    text accept value = .accepts ↔
      ∃ found, value = .string found ∧ accept (cStr found) = true := by
  cases value with
  | string found =>
      rw [text]
      split_ifs with haccept <;> simp [haccept]
  | _ => simp [text]

theorem required_eq_accepts :
    required name check value = .accepts ↔
      ∃ found, value.find? name = some found ∧ check found = .accepts := by
  unfold required
  cases value.find? name <;> simp

theorem object_eq_accepts :
    object checks value = .accepts ↔
      value.IsObject ∧ fields checks value = .accepts := by
  cases value with
  | object members => simp [object, IsObject]
  | _ => simp [object, IsObject]

theorem fields_cons_eq_accepts :
    fields (check :: checks) value = .accepts ↔
      check value = .accepts ∧ fields checks value = .accepts :=
  Verdict.seq_eq_accepts

end Check

/-- A member of an object that is accepted. -/
theorem exists_of_object_required {name : StdString} {check : Check}
    {checks : List Check} {value : Json}
    (h : Check.object (Check.required name check :: checks) value =
      .accepts) :
    value.IsObject ∧
      (∃ found, value.find? name = some found ∧ check found = .accepts) ∧
      Check.fields checks value = .accepts := by
  obtain ⟨hobject, hfields⟩ := Check.object_eq_accepts.mp h
  obtain ⟨hfirst, hrest⟩ := Check.fields_cons_eq_accepts.mp hfields
  exact ⟨hobject, Check.required_eq_accepts.mp hfirst, hrest⟩

/-! ## Decoders -/

/-- The decoder ends as the check says. -/
def Follows {α : Type} (read : Json → Outcome α) (check : Check) : Prop :=
  ∀ value, Verdict.of (read value) = check value

section Rules

variable {α β : Type} {name : StdString} {check : Check}
  {checks : List Check} {value : Json}

theorem follows_getBool : Follows getBool Check.bool := by
  intro value
  cases value <;> rfl

theorem follows_getDouble : Follows getDouble Check.number := by
  intro value
  cases value <;> rfl

theorem follows_getUint32 : Follows getUint32 Check.uint32 := by
  intro value
  cases value with
  | uint number =>
      rw [getUint32, Check.uint32]
      split_ifs <;> rfl
  | _ => rfl

theorem follows_getString : Follows getString Check.string := by
  intro value
  cases value <;> rfl

theorem of_read {read : Json → Outcome α} {rest : α → Outcome β}
    {verdict : Verdict} (hread : Follows read check)
    (hrest : ∀ a, Verdict.of (rest a) = verdict) :
    Verdict.of (read value >>= rest) = (check value).seq verdict := by
  rw [Verdict.of_bind fun a _ => hrest a, hread]

/-- A text that is looked at once it was read. -/
theorem of_text {use : StdString → Outcome β} {accept : StdString → Bool}
    {verdict : Verdict}
    (haccepts : ∀ text, accept text → Verdict.of (use text) = verdict)
    (hrejects : ∀ text, ¬accept text → Verdict.of (use text) = .rejects) :
    Verdict.of (value.getString >>= use) =
      (Check.text accept value).seq verdict := by
  cases value with
  | string text =>
      change Verdict.of (use (cStr text)) = _
      rw [Check.text]
      split_ifs with haccept
      · exact haccepts _ haccept
      · exact hrejects _ haccept
  | _ => rfl

theorem of_member_of_not_object (hnot : ¬value.IsObject)
    (f : Json → Outcome α) :
    Verdict.of (value.member name >>= f) = .breaks := by
  cases value with
  | object members => exact absurd trivial hnot
  | _ => rfl

theorem object_of_not_object (hnot : ¬value.IsObject) :
    Check.object checks value = .breaks := by
  cases value with
  | object members => exact absurd trivial hnot
  | _ => rfl

theorem object_of_isObject (hobject : value.IsObject) :
    Check.object checks value = Check.fields checks value := by
  cases value with
  | object members => rfl
  | _ => exact absurd hobject id

/-- A decoder which reads members of its argument. -/
theorem follows_object {read : Json → Outcome α}
    (hfields : ∀ value : Json, value.IsObject →
      Verdict.of (read value) = Check.fields checks value)
    (hother : ∀ value : Json, ¬value.IsObject →
      Verdict.of (read value) = .breaks) :
    Follows read (Check.object checks) := by
  intro value
  by_cases hobject : value.IsObject
  · rw [object_of_isObject hobject]
    exact hfields value hobject
  · rw [object_of_not_object hobject]
    exact hother value hobject

theorem of_required {use : Json → Outcome β} {verdict : Verdict}
    (hobject : value.IsObject)
    (huse : ∀ found, Verdict.of (use found) = (check found).seq verdict) :
    Verdict.of (value.member name >>= use) =
      (Check.required name check value).seq verdict := by
  rw [member_of_isObject hobject, Check.required]
  cases value.find? name with
  | none => rfl
  | some found => exact huse found

theorem of_optional {use : Json → Outcome β} {otherwise : Outcome β}
    {verdict : Verdict} (hobject : value.IsObject)
    (huse : ∀ found, Verdict.of (use found) = (check found).seq verdict)
    (hotherwise : Verdict.of otherwise = verdict) :
    Verdict.of (value.hasMember name >>= fun has =>
      if has = true then value.member name >>= use else otherwise) =
      (Check.optional name check value).seq verdict := by
  rw [hasMember_of_isObject hobject, Check.optional]
  cases hfound : value.find? name with
  | none => exact hotherwise
  | some found =>
      change Verdict.of (value.member name >>= use) = _
      rw [member_of_find? hfound]
      exact huse found

theorem of_whenPresent {use otherwise : Outcome β} {verdict : Verdict}
    (hobject : value.IsObject)
    (huse : Verdict.of use = (check value).seq verdict)
    (hotherwise : Verdict.of otherwise = verdict) :
    Verdict.of (value.hasMember name >>= fun has =>
      if has = true then use else otherwise) =
      (Check.whenPresent name check value).seq verdict := by
  rw [hasMember_of_isObject hobject, Check.whenPresent]
  cases hfound : value.find? name with
  | none => exact hotherwise
  | some found => exact huse

theorem fields_append (more : List Check) (value : Json) :
    Check.fields (checks ++ more) value =
      (Check.fields checks value).seq (Check.fields more value) := by
  induction checks with
  | nil => rfl
  | cons first rest ih =>
      rw [List.cons_append, Check.fields, Check.fields, ih,
        Verdict.seq_assoc]

theorem of_mapM {ι : Type} {read : ι → Outcome α} {check : ι → Verdict}
    (hread : ∀ item, Verdict.of (read item) = check item)
    (items : List ι) :
    Verdict.of (items.mapM read) = Check.each check items := by
  induction items with
  | nil => rfl
  | cons first rest ih =>
      rw [List.mapM_cons, Check.each, ← hread first, ← ih]
      apply Verdict.of_bind
      intro a _
      cases rest.mapM read with
      | ok _ => rfl
      | error fault => cases fault <;> rfl

theorem follows_mapItems {read : Json → Outcome α}
    (hread : Follows read check) :
    Follows (fun value => value.mapItems read) (Check.array check) := by
  intro value
  cases value with
  | array items =>
      change Verdict.of ((Json.array items).mapItems read) = _
      rw [mapItems_array]
      exact of_mapM hread items
  | _ => rfl

theorem of_replicate (read : Outcome α) (count : ℕ) :
    Verdict.of ((List.replicate (count + 1) ()).mapM fun _ => read) =
      Verdict.of read := by
  cases read with
  | error fault => cases fault <;> rfl
  | ok found =>
      induction count with
      | zero => rfl
      | succ count ih =>
          rw [List.replicate_succ, List.mapM_cons]
          generalize (List.replicate (count + 1) ()).mapM
            (fun _ => Except.ok found) = result at ih ⊢
          cases result with
          | ok _ => rfl
          | error fault => cases fault <;> cases ih

/-- The loop whose index never moves. -/
theorem follows_head {read : Json → Outcome α}
    (hread : Follows read check) :
    Follows (fun value => do
      let size ← value.size
      (List.replicate size ()).mapM fun _ => do
        read (← value.item 0)) (Check.head check) := by
  intro value
  cases value with
  | array items =>
      cases items with
      | nil => rfl
      | cons first rest =>
          exact (of_replicate (read first) rest.length).trans (hread first)
  | _ => rfl

/-- The decoder may go on from what it has read. -/
theorem Follows.map {read : Json → Outcome α} (hread : Follows read check)
    (f : α → β) : Follows (fun value => f <$> read value) check := by
  intro value
  dsimp only
  rw [← hread value]
  cases read value with
  | ok _ => rfl
  | error fault => cases fault <;> rfl

end Rules

end Json

end LibChromecast
