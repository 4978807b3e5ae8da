import Mathlib.Data.List.Basic
import LibChromecast.StdString

/-!
# JSON messages

`JsonMessage`, `JsonMessagePart` and `ConstJsonMessagePart` over RapidJSON
documents.  Members keep their order, a name may occur twice, and a lookup
takes the first occurrence.

The accessors of RapidJSON assert the type of the value they read; a call
outside that precondition is `Fault.violated`.  What the accessors of this
library check themselves raises a `runtime_error`.

The reader and the writer of texts are RapidJSON's own and enter as a
parameter.
-/

namespace LibChromecast

/-- A `double`, by its IEEE 754 bits. -/
structure Double where
  bits : UInt64
deriving DecidableEq

namespace Double

/-- The conversion of an integer: to nearest, ties to even. -/
def ofNat (n : ℕ) : Double :=
  if n = 0 then ⟨0⟩
  else
    let exponent := Nat.log2 n
    let mantissa :=
      if exponent ≤ 52 then n * 2 ^ (52 - exponent)
      else
        let unit := 2 ^ (exponent - 52)
        let floor := n / unit
        let rest := 2 * (n % unit)
        if rest < unit ∨ (rest = unit ∧ floor % 2 = 0) then floor
        else floor + 1
    ⟨UInt64.ofNat ((exponent + 1022) * 2 ^ 52 + mantissa)⟩

def neg (value : Double) : Double := ⟨value.bits ^^^ 0x8000000000000000⟩

end Double

/-- A RapidJSON value.  A number without fraction and exponent is an integer:
`uint` when it is not negative, else `negInt` with its magnitude. -/
inductive Json where
  | null
  | bool (value : Bool)
  | uint (value : UInt64)
  | negInt (magnitude : UInt64)
  | double (value : Double)
  | string (text : StdString)
  | array (items : List Json)
  | object (members : List (StdString × Json))

/-- RapidJSON: `Parse` of a text, which leaves a null document when the text
is malformed, and the text a `Writer` produces. -/
structure RapidJson where
  parse : StdString → Json
  write : Json → StdString

namespace RapidJson

variable (rapid : RapidJson)

/-- `JsonMessage::Parse`, of `json_string.c_str()`. -/
def parseMessage (text : StdString) : Json := rapid.parse (cStr text)

/-- `JsonMessage::ToString`, of `sb.GetString()`. -/
def toString (document : Json) : StdString := cStr (rapid.write document)

/-- The copy constructor of `JsonMessage`. -/
def copy (document : Json) : Json :=
  rapid.parseMessage (rapid.toString document)

end RapidJson

namespace Json

/-! ## Reading -/

def violation {α : Type*} : Outcome α := .error .violated

def lookup (name : StdString) : List (StdString × Json) → Option Json
  | [] => none
  | entry :: rest => if entry.1 = name then some entry.2 else lookup name rest

def getBool : Json → Outcome Bool
  | .bool value => pure value
  | _ => violation

def getDouble : Json → Outcome Double
  | .double value => pure value
  | .uint value => pure (Double.ofNat value.toNat)
  | .negInt magnitude => pure (Double.ofNat magnitude.toNat).neg
  | _ => violation

def getUint32 : Json → Outcome UInt32
  | .uint value =>
      if value.toNat < 2 ^ 32 then pure value.toUInt32 else violation
  | _ => violation

def getUint64 : Json → Outcome UInt64
  | .uint value => pure value
  | _ => violation

/-- The string is built from a `const char*`. -/
def getString : Json → Outcome StdString
  | .string text => pure (cStr text)
  | _ => violation

def hasMember (name : StdString) : Json → Outcome Bool
  | .object members => pure (lookup name members).isSome
  | _ => violation

def size : Json → Outcome ℕ
  | .array items => pure items.length
  | _ => violation

/-- `ConstJsonMessagePart::operator[](const char*)`. -/
def member (name : StdString) (value : Json) : Outcome Json := do
  let has ← value.hasMember name
  throwOnError (!has) (lit "message does not have member " ++ name)
  match value with
  | .object members =>
      match lookup name members with
      | some found => pure found
      | none => violation
  | _ => violation

/-- `ConstJsonMessagePart::operator[](size_t)`. -/
def item (index : ℕ) (value : Json) : Outcome Json := do
  let size ← value.size
  throwOnError (size ≤ index) (lit "array out of bounds")
  match value with
  | .array items =>
      match items[index]? with
      | some found => pure found
      | none => violation
  | _ => violation

/-- `JsonMessage::operator[](const char*) const`, which checks nothing. -/
def unchecked (name : StdString) : Json → Outcome Json
  | .object members =>
      match lookup name members with
      | some found => pure found
      | none => violation
  | _ => violation

/-- The loop over an array which reads `value[index]` for every index below
`value.Size()`. -/
def mapItems {α : Type} (read : Json → Outcome α) (value : Json) :
    Outcome (List α) := do
  let size ← value.size
  (List.range size).mapM fun index => do
    let found ← value.item index
    read found

/-! ## Building -/

/-- The document once `operator[](const char*)` was applied to it: an object
with the member, which is an empty string if it is new. -/
def touch (name : StdString) : Json → Json
  | .object members =>
      if (lookup name members).isSome then .object members
      else .object (members ++ [(name, .string [])])
  | _ => .object [(name, .string [])]

def get (name : StdString) : Json → Json
  | .object members => (lookup name members).getD .null
  | _ => .null

def replaceFirst (name : StdString) (change : Json → Json) :
    List (StdString × Json) → List (StdString × Json)
  | [] => []
  | entry :: rest =>
      if entry.1 = name then (entry.1, change entry.2) :: rest
      else entry :: replaceFirst name change rest

/-- What is done to the reference that `operator[](const char*)` returns. -/
def update (name : StdString) (change : Json → Json) (document : Json) :
    Json :=
  match document.touch name with
  | .object members => .object (replaceFirst name change members)
  | other => other

/-- `message[name] = value`. -/
def set (document : Json) (name : StdString) (value : Json) : Json :=
  document.update name fun _ => value

/-- `operator=(const std::string&)` and `operator=(const char*)`. -/
def ofString (text : StdString) : Json := .string (cStr text)

def ofUint32 (value : UInt32) : Json := .uint value.toUInt64

/-- `operator=(const std::vector<std::string>&)`. -/
def ofStrings (items : List StdString) : Json := .array (items.map ofString)

/-! ## Lookup and update -/

section Laws

variable {name other : StdString} {members : List (StdString × Json)}

theorem lookup_append (rest : List (StdString × Json)) :
    lookup name (members ++ rest) =
      (lookup name members).or (lookup name rest) := by
  induction members with
  | nil => simp [lookup]
  | cons entry more ih =>
      rw [List.cons_append, lookup, lookup, ih]
      split_ifs <;> simp

theorem lookup_replaceFirst_self (change : Json → Json) :
    lookup name (replaceFirst name change members) =
      (lookup name members).map change := by
  induction members with
  | nil => rfl
  | cons entry rest ih =>
      rw [replaceFirst, lookup]
      by_cases hname : entry.1 = name
      · simp [hname, lookup]
      · simp [hname, lookup, ih]

theorem lookup_replaceFirst_of_ne (hne : other ≠ name)
    (change : Json → Json) :
    lookup other (replaceFirst name change members) =
      lookup other members := by
  induction members with
  | nil => rfl
  | cons entry rest ih =>
      rw [replaceFirst]
      by_cases hname : entry.1 = name
      · have hother : entry.1 ≠ other := by
          rw [hname]
          exact hne.symm
        simp [hname, lookup, hne.symm]
      · simp [hname, lookup, ih]

theorem replaceFirst_replaceFirst (first second : Json → Json) :
    replaceFirst name second (replaceFirst name first members) =
      replaceFirst name (fun value => second (first value)) members := by
  induction members with
  | nil => rfl
  | cons entry rest ih =>
      rw [replaceFirst]
      by_cases hname : entry.1 = name
      · simp [hname, replaceFirst]
      · simp [hname, replaceFirst, ih]

theorem exists_touch (name : StdString) (document : Json) :
    ∃ members, document.touch name = .object members ∧
      (lookup name members).isSome := by
  unfold touch
  split
  · split_ifs with hmember
    · exact ⟨_, rfl, hmember⟩
    · refine ⟨_, rfl, ?_⟩
      rw [lookup_append]
      simp [lookup]
  · exact ⟨_, rfl, by simp [lookup]⟩

theorem touch_of_isSome (hmember : (lookup name members).isSome) :
    touch name (.object members) = .object members := by
  rw [touch, if_pos hmember]

theorem get_touch_of_ne (hne : other ≠ name) (document : Json) :
    (document.touch name).get other = document.get other := by
  cases document with
  | object members =>
      rw [touch]
      split_ifs
      · rfl
      · simp only [get, lookup_append]
        have hother : lookup other [(name, Json.string [])] = none := by
          simp [lookup, hne.symm]
        rw [hother, Option.or_none]
  | _ => simp [touch, get, lookup, hne.symm]

theorem update_eq (name : StdString) (change : Json → Json)
    (document : Json) :
    ∃ members, document.touch name = .object members ∧
      (lookup name members).isSome ∧
      document.update name change =
        .object (replaceFirst name change members) := by
  obtain ⟨members, htouch, hmember⟩ := exists_touch name document
  exact ⟨members, htouch, hmember, by rw [update, htouch]⟩

@[simp] theorem get_set_self (name : StdString) (value document : Json) :
    (document.set name value).get name = value := by
  obtain ⟨members, -, hmember, hupdate⟩ :=
    update_eq name (fun _ => value) document
  obtain ⟨old, hold⟩ := Option.isSome_iff_exists.mp hmember
  rw [set, hupdate, get, lookup_replaceFirst_self, hold]
  rfl

theorem get_set_of_ne (hne : other ≠ name) (value document : Json) :
    (document.set name value).get other = document.get other := by
  obtain ⟨members, htouch, -, hupdate⟩ :=
    update_eq name (fun _ => value) document
  rw [set, hupdate, get, lookup_replaceFirst_of_ne hne,
    ← get_touch_of_ne hne document, htouch, get]

theorem update_update (name : StdString) (first second : Json → Json)
    (document : Json) :
    (document.update name first).update name second =
      document.update name fun value => second (first value) := by
  obtain ⟨members, htouch, hmember, hfirst⟩ :=
    update_eq name first document
  have hboth : (document.update name fun value => second (first value)) =
      .object (replaceFirst name (fun value => second (first value))
        members) := by
    rw [update, htouch]
  have hthere : (lookup name (replaceFirst name first members)).isSome := by
    rw [lookup_replaceFirst_self, Option.isSome_map]
    exact hmember
  rw [hboth, hfirst, update, touch_of_isSome hthere]
  simp only
  rw [replaceFirst_replaceFirst]

@[simp] theorem set_set (name : StdString) (first second document : Json) :
    (document.set name first).set name second =
      document.set name second :=
  update_update name _ _ document

/-- Touching a member changes no other one, and its own value only if it is
new. -/
theorem touch_object (name : StdString)
    (members : List (StdString × Json)) :
    ∃ touched, (Json.object members).touch name = .object touched ∧
      (∀ other, other ≠ name → lookup other touched = lookup other members) ∧
      lookup name touched =
        some ((lookup name members).getD (.string [])) := by
  rw [touch]
  split_ifs with hmember
  · obtain ⟨value, hvalue⟩ := Option.isSome_iff_exists.mp hmember
    exact ⟨members, rfl, fun _ _ => rfl, by rw [hvalue]; rfl⟩
  · rw [Option.not_isSome_iff_eq_none] at hmember
    refine ⟨_, rfl, ?_, ?_⟩
    · intro other hother
      rw [lookup_append]
      have hnone : lookup other [(name, Json.string [])] = none := by
        simp [lookup, hother.symm]
      rw [hnone, Option.or_none]
    · rw [lookup_append, hmember]
      simp [lookup]

theorem member_object (name : StdString)
    (members : List (StdString × Json)) :
    (Json.object members).member name =
      match lookup name members with
      | some found => .ok found
      | none => raise
          (.runtimeError (lit "message does not have member " ++ name)) := by
  unfold member
  cases hlookup : lookup name members <;>
    simp [hasMember, hlookup, throwOnError] <;> rfl

theorem member_eq_ok_iff {document value : Json} :
    document.member name = .ok value ↔
      ∃ members, document = .object members ∧
        lookup name members = some value := by
  cases document with
  | object members =>
      rw [member_object]
      cases hlookup : lookup name members <;> simp [raise, hlookup]
  | _ => simp [member, hasMember, violation, bind, Except.bind]

/-! ## Members -/

/-- The member that `HasMember` and `operator[]` find. -/
def find? (name : StdString) : Json → Option Json
  | .object members => lookup name members
  | _ => none

@[simp] theorem find?_string (name text : StdString) :
    (Json.string text).find? name = none := rfl

def IsObject : Json → Prop
  | .object _ => True
  | _ => False

@[simp] theorem find?_update_self (name : StdString)
    (change : Json → Json) (document : Json) :
    (document.update name change).find? name =
      some (change ((document.find? name).getD (.string []))) := by
  cases document with
  | object members =>
      obtain ⟨touched, htouch, -, hself⟩ := touch_object name members
      rw [update, htouch]
      simp only [find?]
      rw [lookup_replaceFirst_self, hself]
      rfl
  | _ => simp [update, touch, find?, replaceFirst, lookup]

theorem find?_update_of_ne (hne : other ≠ name) (change : Json → Json)
    (document : Json) :
    (document.update name change).find? other = document.find? other := by
  cases document with
  | object members =>
      obtain ⟨touched, htouch, hothers, -⟩ := touch_object name members
      rw [update, htouch]
      simp only [find?]
      rw [lookup_replaceFirst_of_ne hne, hothers other hne]
  | _ => simp [update, touch, find?, replaceFirst, lookup, hne.symm]

@[simp] theorem find?_set_self (document : Json) (name : StdString)
    (value : Json) : (document.set name value).find? name = some value :=
  find?_update_self _ _ _

theorem find?_set_of_ne (hne : other ≠ name) (document value : Json) :
    (document.set name value).find? other = document.find? other :=
  find?_update_of_ne hne _ _

theorem get_touch_of_new {document : Json}
    (hnew : document.find? name = none) :
    (document.touch name).get name = .string [] := by
  cases document with
  | object members =>
      obtain ⟨touched, htouch, -, hself⟩ := touch_object name members
      have hnone : lookup name members = none := hnew
      rw [htouch, get, hself, hnone]
      rfl
  | _ => simp [touch, get, lookup]

theorem isObject_update (name : StdString) (change : Json → Json)
    (document : Json) : (document.update name change).IsObject := by
  obtain ⟨members, -, -, hupdate⟩ := update_eq name change document
  rw [hupdate]
  exact trivial

@[simp] theorem isObject_set (document : Json) (name : StdString)
    (value : Json) :
    (document.set name value).IsObject :=
  isObject_update _ _ _

theorem member_of_find? {document value : Json}
    (hfind : document.find? name = some value) :
    document.member name = .ok value := by
  cases document with
  | object members => exact member_eq_ok_iff.mpr ⟨members, rfl, hfind⟩
  | _ => simp [find?] at hfind

@[simp] theorem member_set_self (document : Json) (name : StdString)
    (value : Json) : (document.set name value).member name = .ok value :=
  member_of_find? (find?_set_self _ _ _)

theorem member_of_isObject {document : Json} (hobject : document.IsObject)
    (name : StdString) :
    document.member name =
      match document.find? name with
      | some found => .ok found
      | none => raise
          (.runtimeError (lit "message does not have member " ++ name)) := by
  cases document with
  | object members => exact member_object name members
  | _ => exact absurd hobject id

theorem member_update_self (document : Json) (name : StdString)
    (change : Json → Json) :
    (document.update name change).member name =
      .ok (change ((document.find? name).getD (.string []))) :=
  member_of_find? (find?_update_self _ _ _)

theorem member_update_of_ne {document : Json} (hobject : document.IsObject)
    (hne : other ≠ name) (change : Json → Json) :
    (document.update name change).member other = document.member other := by
  rw [member_of_isObject (isObject_update _ _ _),
    member_of_isObject hobject, find?_update_of_ne hne]

theorem member_set_of_ne {document : Json} (hobject : document.IsObject)
    (hne : other ≠ name) (value : Json) :
    (document.set name value).member other = document.member other :=
  member_update_of_ne hobject hne _

theorem hasMember_of_isObject {document : Json}
    (hobject : document.IsObject) :
    document.hasMember name = .ok (document.find? name).isSome := by
  cases document with
  | object members => rfl
  | _ => exact absurd hobject id

end Laws

/-! ## Arrays -/

theorem item_append {items rest : List Json} {value : Json} :
    (Json.array (items ++ value :: rest)).item items.length =
      .ok value := by
  have hlt : ¬items.length + (rest.length + 1) ≤ items.length := by omega
  simp [item, size, throwOnError, hlt, pure, Except.pure, bind, Except.bind]

/-- The loop reads the elements in order. -/
theorem mapItems_array {α : Type} (read : Json → Outcome α)
    (items : List Json) :
    (Json.array items).mapItems read = items.mapM read := by
  have hfrom : ∀ before rest : List Json, items = before ++ rest →
      (List.range' before.length rest.length).mapM (fun index => do
        let found ← (Json.array items).item index
        read found) = rest.mapM read := by
    intro before rest
    induction rest generalizing before with
    | nil => intro _; rfl
    | cons value rest ih =>
        intro hitems
        have hvalue : (Json.array items).item before.length = .ok value := by
          rw [hitems]
          exact item_append
        have hnext : items = (before ++ [value]) ++ rest := by
          rw [hitems, List.append_assoc, List.singleton_append]
        have hrest := ih (before ++ [value]) hnext
        rw [List.length_append, List.length_singleton] at hrest
        rw [List.length_cons, List.range'_succ, List.mapM_cons,
          List.mapM_cons, hvalue, hrest]
        rfl
  have hall := hfrom [] items rfl
  rw [List.length_nil, ← List.range_eq_range'] at hall
  exact hall

end Json

end LibChromecast
