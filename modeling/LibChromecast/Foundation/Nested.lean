import Mathlib.Data.List.Basic
import Mathlib.Tactic.Common

/-!
# Trees that are written along a path

A node has children under names.  A child is read where there is one, and is
changed through an access which creates it: what was no child yet starts as a
placeholder without children of its own.  These four laws of one step carry
over to paths.
-/

namespace Foundation.Nested

/-- One step down a tree of this type of nodes. -/
structure Access (name node : Type*) where
  find? : name → node → Option node
  update : name → (node → node) → node → node
  placeholder : node
  find?_update_self : ∀ child change tree,
    find? child (update child change tree) =
      some (change ((find? child tree).getD placeholder))
  find?_update_of_ne : ∀ child other change tree, other ≠ child →
    find? other (update child change tree) = find? other tree
  update_update : ∀ child first second tree,
    update child second (update child first tree) =
      update child (fun part => second (first part)) tree
  find?_placeholder : ∀ child, find? child placeholder = none

/-- Neither path leads through the end of the other. -/
structure Apart {name : Type*} (p q : List name) : Prop where
  left : ¬p <+: q
  right : ¬q <+: p

namespace Apart

variable {name : Type*} {child other : name} {p q : List name}

theorem not_nil_left : ¬Apart [] q := fun h => h.left List.nil_prefix

theorem not_nil_right : ¬Apart p [] := fun h => h.right List.nil_prefix

theorem of_cons (h : Apart (child :: p) (child :: q)) : Apart p q where
  left hp := h.left ((List.prefix_cons_inj child).mpr hp)
  right hq := h.right ((List.prefix_cons_inj child).mpr hq)

end Apart

namespace Access

variable {name node : Type*} (access : Access name node)

def read : List name → node → Option node
  | [], tree => some tree
  | child :: rest, tree => (access.find? child tree).bind (read rest)

def modify (change : node → node) : List name → node → node
  | [], tree => change tree
  | child :: rest, tree => access.update child (modify change rest) tree

def write (value : node) : List name → node → node :=
  access.modify fun _ => value

theorem read_placeholder (child : name) (rest : List name) :
    access.read (child :: rest) access.placeholder = none := by
  rw [read, access.find?_placeholder]
  rfl

theorem read_modify_self (change : node → node) (p : List name)
    (tree : node) :
    access.read p (access.modify change p tree) =
      some (change ((access.read p tree).getD access.placeholder)) := by
  induction p generalizing tree with
  | nil => rfl
  | cons child rest ih =>
      rw [modify, read, access.find?_update_self, Option.bind_some, ih, read]
      cases access.find? child tree with
      | some part => rfl
      | none =>
          cases rest with
          | nil => rfl
          | cons next more =>
              have hnone := access.read_placeholder next more
              simp [hnone]

/-- The paths divide at some name, and below it nothing is touched. -/
theorem read_modify_of_apart (change : node → node) {p q : List name}
    (hapart : Apart p q) (tree : node) :
    access.read q (access.modify change p tree) = access.read q tree := by
  induction p generalizing q tree with
  | nil => exact absurd hapart Apart.not_nil_left
  | cons child rest ih =>
      cases q with
      | nil => exact absurd hapart Apart.not_nil_right
      | cons other more =>
          rw [modify, read, read]
          by_cases hname : other = child
          · subst hname
            have hrest := hapart.of_cons
            rw [access.find?_update_self, Option.bind_some, ih hrest]
            cases access.find? other tree with
            | some part => rfl
            | none =>
                -- a new member has no members, so `more` is not found in it
                cases more with
                | nil => exact absurd hrest Apart.not_nil_right
                | cons next last => exact access.read_placeholder next last
          · rw [access.find?_update_of_ne child other _ tree hname]

theorem modify_modify (first second : node → node) (p : List name)
    (tree : node) :
    access.modify second p (access.modify first p tree) =
      access.modify (fun part => second (first part)) p tree := by
  induction p generalizing tree with
  | nil => rfl
  | cons child rest ih =>
      simp only [modify, access.update_update, ih]

theorem read_write_self (value : node) (p : List name) (tree : node) :
    access.read p (access.write value p tree) = some value :=
  access.read_modify_self _ p tree

theorem read_write_of_apart (value : node) {p q : List name}
    (hapart : Apart p q) (tree : node) :
    access.read q (access.write value p tree) = access.read q tree :=
  access.read_modify_of_apart _ hapart tree

theorem write_write (first second : node) (p : List name) (tree : node) :
    access.write second p (access.write first p tree) =
      access.write second p tree :=
  access.modify_modify _ _ p tree

end Access

end Foundation.Nested
