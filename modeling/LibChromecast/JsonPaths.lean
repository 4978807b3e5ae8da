import LibChromecast.Foundation.Nested
import LibChromecast.MediaLoad

/-!
# Members along a path

Requests are built by assignments such as `message["volume"]["level"] = v`.
`operator[]` turns what is no object into one and adds the members that are
missing, so that an assignment changes the document along the whole path.  A
const read changes nothing, and fails where a member is missing.
-/

namespace LibChromecast

open Foundation.Nested

namespace Json

/-- What is done to the reference that a chain of `operator[]` returns. -/
def updateAt (change : Json → Json) : List StdString → Json → Json
  | [], document => change document
  | name :: rest, document => document.update name (updateAt change rest)

/-- A chain of `ConstJsonMessagePart::operator[]`. -/
def partAt : List StdString → Json → Outcome Json
  | [], part => pure part
  | name :: rest, part => do
      let found ← part.member name
      partAt rest found

/-- The const `operator[]` of `JsonMessage`, and the chain on what it
returns. -/
def readAt : List StdString → Json → Outcome Json
  | [], document => pure document
  | name :: rest, document => do
      let found ← document.unchecked name
      partAt rest found

inductive Leaf where
  | bool (value : Bool)
  | uint32 (value : UInt32)
  | uint64 (value : UInt64)
  | double (value : Double)
  | string (text : StdString) (nulFree : 0 ∉ text)

namespace Leaf

/-- What `operator=` makes of the member. -/
def toJson : Leaf → Json
  | .bool value => .bool value
  | .uint32 value => ofUint32 value
  | .uint64 value => .uint value
  | .double value => .double value
  | .string text _ => ofString text

def IsReadFrom (part : Json) : Leaf → Prop
  | .bool value => part.getBool = .ok value
  | .uint32 value => part.getUint32 = .ok value
  | .uint64 value => part.getUint64 = .ok value
  | .double value => part.getDouble = .ok value
  | .string text _ => part.getString = .ok text

theorem isReadFrom_toJson (leaf : Leaf) : leaf.IsReadFrom leaf.toJson := by
  cases leaf with
  | bool value => rfl
  | uint32 value => exact getUint32_ofUint32 value
  | uint64 value => rfl
  | double value => rfl
  | string text nulFree =>
      rw [IsReadFrom, toJson, getString_ofString, cStr_of_not_mem nulFree]

end Leaf

/-- `message[..]..[..] = leaf`. -/
def assignAt (document : Json) (path : List StdString) (leaf : Leaf) :
    Json :=
  updateAt (fun _ => leaf.toJson) path document

/-! ## Documents as trees -/

/-- A new member is an empty string, which has no members. -/
def access : Access StdString Json where
  find? := find?
  update := update
  placeholder := .string []
  find?_update_self := find?_update_self
  find?_update_of_ne := fun _ _ change document hne =>
    find?_update_of_ne hne change document
  update_update := update_update
  find?_placeholder := fun name => find?_string name []

theorem updateAt_eq_modify (change : Json → Json) (path : List StdString)
    (document : Json) :
    updateAt change path document = access.modify change path document := by
  induction path generalizing document with
  | nil => rfl
  | cons name rest ih =>
      have hrest : updateAt change rest = access.modify change rest :=
        funext ih
      rw [updateAt, Access.modify, hrest]
      rfl

theorem toOption_unchecked (name : StdString) (document : Json) :
    (document.unchecked name).toOption = document.find? name := by
  cases document with
  | object members =>
      rw [unchecked, find?]
      cases lookup name members <;> rfl
  | _ => rfl

theorem toOption_member (name : StdString) (document : Json) :
    (document.member name).toOption = document.find? name := by
  cases document with
  | object members =>
      rw [member_object, find?]
      cases lookup name members <;> rfl
  | _ => rfl

theorem toOption_bind {α β : Type} (x : Outcome α) (f : α → Outcome β) :
    (x >>= f).toOption = x.toOption.bind fun a => (f a).toOption := by
  cases x <;> rfl

theorem toOption_partAt (path : List StdString) (part : Json) :
    (partAt path part).toOption = access.read path part := by
  induction path generalizing part with
  | nil => rfl
  | cons name rest ih =>
      rw [partAt, toOption_bind, toOption_member, Access.read]
      exact congrArg _ (funext ih)

theorem toOption_readAt (path : List StdString) (document : Json) :
    (readAt path document).toOption = access.read path document := by
  cases path with
  | nil => rfl
  | cons name rest =>
      rw [readAt, toOption_bind, toOption_unchecked, Access.read]
      exact congrArg _ (funext (toOption_partAt rest))

theorem readAt_eq_ok_iff {path : List StdString} {document part : Json} :
    readAt path document = .ok part ↔
      access.read path document = some part := by
  rw [← toOption_readAt]
  cases readAt path document <;> simp [Except.toOption]

/-! ## The laws -/

theorem assignAt_eq_write (document : Json) (path : List StdString)
    (leaf : Leaf) :
    document.assignAt path leaf =
      access.write leaf.toJson path document :=
  updateAt_eq_modify _ path document

theorem readAt_assignAt_self (document : Json) (path : List StdString)
    (leaf : Leaf) :
    readAt path (document.assignAt path leaf) = .ok leaf.toJson := by
  rw [readAt_eq_ok_iff, assignAt_eq_write]
  exact access.read_write_self _ path document

theorem assignAt_assignAt (document : Json) (path : List StdString)
    (first second : Leaf) :
    (document.assignAt path first).assignAt path second =
      document.assignAt path second := by
  simp only [assignAt_eq_write]
  exact access.write_write _ _ path document

/-- An assignment is read back, other paths keep the value they had or stay
absent, and the last assignment to a path is the one that counts. -/
theorem assignAt_laws (document : Json) {p q : List StdString}
    (hapart : Apart p q) (v w : Leaf) :
    (∃ part, readAt p (document.assignAt p v) = .ok part ∧
      v.IsReadFrom part) ∧
    (readAt q (document.assignAt p v)).toOption =
      (readAt q document).toOption ∧
    (document.assignAt p v).assignAt p w = document.assignAt p w := by
  refine ⟨?_, ?_, document.assignAt_assignAt p v w⟩
  · exact ⟨v.toJson, document.readAt_assignAt_self p v,
      v.isReadFrom_toJson⟩
  · rw [toOption_readAt, toOption_readAt, assignAt_eq_write]
    exact access.read_write_of_apart _ hapart document

def levelPath : List StdString := [lit "volume", lit "level"]

def mutedPath : List StdString := [lit "volume", lit "muted"]

/-- A document in which `volume` is no object. -/
def flatVolume : Json := (Json.string []).set (lit "volume") (.uint 1)

theorem assignAt_laws_flatVolume :
    (∃ part, readAt levelPath
        (flatVolume.assignAt levelPath (.double ⟨0⟩)) = .ok part ∧
      (Leaf.double ⟨0⟩).IsReadFrom part) ∧
    (readAt mutedPath
        (flatVolume.assignAt levelPath (.double ⟨0⟩))).toOption =
      (readAt mutedPath flatVolume).toOption ∧
    (flatVolume.assignAt levelPath (.double ⟨0⟩)).assignAt levelPath
        (.uint32 1) =
      flatVolume.assignAt levelPath (.uint32 1) := by
  apply assignAt_laws flatVolume
  constructor <;> decide

end Json

end LibChromecast
