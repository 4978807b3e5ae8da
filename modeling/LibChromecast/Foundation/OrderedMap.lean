import Mathlib.Data.List.Basic
import Mathlib.Tactic.Common
import LibChromecast.Foundation.Cursor

/-!
# An ordered associative container with a supplied comparison

The container is the list of its entries in key order.  Every operation walks
to the lower bound of the key, the first entry whose key is not less than it,
and decides with one more comparison whether that entry is the one asked for.
No operation tests keys for equality, so what a container does depends on its
comparison alone.

The comparison need only be a strict total order on the keys in use: `keys` is
that set, and the lemmas ask it of every key they mention.
-/

namespace Foundation.OrderedMap

variable {κ ν : Type*}

/-- `lt` is a strict total order on the keys satisfying `keys`. -/
structure StrictTotalOn (lt : κ → κ → Bool) (keys : κ → Prop) : Prop where
  irrefl : ∀ a, keys a → lt a a = false
  trans : ∀ a b c, keys a → keys b → keys c →
    lt a b = true → lt b c = true → lt a c = true
  total : ∀ a b, keys a → keys b →
    lt a b = false → lt b a = false → a = b

/-- The entry at the lower bound of the key, when its key is equivalent. -/
def find? (lt : κ → κ → Bool) (key : κ) : List (κ × ν) → Option (κ × ν)
  | [] => none
  | entry :: rest =>
      if lt entry.1 key then find? lt key rest
      else if lt key entry.1 then none
      else some entry

/-- Store a value under the key: a new entry at the lower bound, or the value
of the equivalent entry replaced. -/
def insert (lt : κ → κ → Bool) (key : κ) (value : ν) :
    List (κ × ν) → List (κ × ν)
  | [] => [(key, value)]
  | entry :: rest =>
      if lt entry.1 key then entry :: insert lt key value rest
      else if lt key entry.1 then (key, value) :: entry :: rest
      else (entry.1, value) :: rest

def erase (lt : κ → κ → Bool) (key : κ) : List (κ × ν) → List (κ × ν)
  | [] => []
  | entry :: rest =>
      if lt entry.1 key then entry :: erase lt key rest
      else if lt key entry.1 then entry :: rest
      else rest

def Sorted (lt : κ → κ → Bool) (entries : List (κ × ν)) : Prop :=
  entries.Pairwise fun a b => lt a.1 b.1 = true

def KeysIn (keys : κ → Prop) (entries : List (κ × ν)) : Prop :=
  ∀ entry ∈ entries, keys entry.1

@[simp] theorem sorted_nil (lt : κ → κ → Bool) :
    Sorted lt ([] : List (κ × ν)) := List.Pairwise.nil

@[simp] theorem keysIn_nil (keys : κ → Prop) :
    KeysIn keys ([] : List (κ × ν)) := by
  intro entry hentry
  simp at hentry

theorem KeysIn.head {keys : κ → Prop} {entry : κ × ν}
    {rest : List (κ × ν)} (h : KeysIn keys (entry :: rest)) :
    keys entry.1 := h entry (List.mem_cons_self ..)

theorem KeysIn.tail {keys : κ → Prop} {entry : κ × ν}
    {rest : List (κ × ν)} (h : KeysIn keys (entry :: rest)) :
    KeysIn keys rest := fun e he => h e (List.mem_cons_of_mem _ he)

section Laws

variable {lt : κ → κ → Bool} {keys : κ → Prop}

theorem Sorted.lt_of_lt_head (horder : StrictTotalOn lt keys)
    {key : κ} {entry : κ × ν} {rest : List (κ × ν)}
    (hsorted : Sorted lt (entry :: rest))
    (hkeys : KeysIn keys (entry :: rest)) (hkey : keys key)
    (hlt : lt key entry.1 = true) :
    ∀ e ∈ entry :: rest, lt key e.1 = true := by
  intro e he
  rcases List.mem_cons.mp he with rfl | hrest
  · exact hlt
  · have hnext : lt entry.1 e.1 = true :=
      (List.pairwise_cons.mp hsorted).1 e hrest
    exact horder.trans _ _ _ hkey hkeys.head (hkeys e he) hlt hnext

theorem StrictTotalOn.ne_of_lt (horder : StrictTotalOn lt keys) {a b : κ}
    (ha : keys a) (hlt : lt a b = true) : a ≠ b := by
  rintro rfl
  rw [horder.irrefl a ha] at hlt
  contradiction

theorem Sorted.eq_of_key_eq (horder : StrictTotalOn lt keys)
    {entries : List (κ × ν)} (hsorted : Sorted lt entries)
    (hkeys : KeysIn keys entries) {a b : κ × ν}
    (ha : a ∈ entries) (hb : b ∈ entries) (hab : a.1 = b.1) : a = b := by
  induction entries with
  | nil => simp at ha
  | cons entry rest ih =>
      have hparts := List.pairwise_cons.mp hsorted
      rcases List.mem_cons.mp ha with rfl | harest
      · rcases List.mem_cons.mp hb with rfl | hbrest
        · rfl
        · have hlt := hparts.1 b hbrest
          exact absurd hab (horder.ne_of_lt hkeys.head hlt)
      · rcases List.mem_cons.mp hb with rfl | hbrest
        · have hlt := hparts.1 a harest
          exact absurd hab.symm (horder.ne_of_lt hkeys.head hlt)
        · exact ih hparts.2 hkeys.tail harest hbrest

/-- Lookup finds exactly the entry stored under the key. -/
theorem find?_eq_some_iff (horder : StrictTotalOn lt keys)
    {entries : List (κ × ν)} (hsorted : Sorted lt entries)
    (hkeys : KeysIn keys entries) {key : κ} (hkey : keys key)
    {entry : κ × ν} :
    find? lt key entries = some entry ↔
      entry ∈ entries ∧ entry.1 = key := by
  induction entries with
  | nil => simp [find?]
  | cons first rest ih =>
      have hparts := List.pairwise_cons.mp hsorted
      rw [find?]
      split_ifs with hbelow habove
      · have hne := horder.ne_of_lt hkeys.head hbelow
        rw [ih hparts.2 hkeys.tail, List.mem_cons]
        constructor
        · rintro ⟨hmem, heq⟩
          exact ⟨Or.inr hmem, heq⟩
        · rintro ⟨rfl | hmem, heq⟩
          · exact absurd heq hne
          · exact ⟨hmem, heq⟩
      · have hall := hsorted.lt_of_lt_head horder hkeys hkey habove
        constructor
        · intro h
          contradiction
        · rintro ⟨hmem, heq⟩
          exact absurd heq.symm (horder.ne_of_lt hkey (hall entry hmem))
      · have heq : first.1 = key :=
          horder.total _ _ hkeys.head hkey (by simpa using hbelow)
            (by simpa using habove)
        constructor
        · intro h
          cases h
          exact ⟨List.mem_cons_self .., heq⟩
        · rintro ⟨hmem, hentry⟩
          rw [hsorted.eq_of_key_eq horder hkeys (List.mem_cons_self ..)
            hmem (heq.trans hentry.symm)]

theorem mem_of_find? (lt : κ → κ → Bool) {key : κ}
    {entries : List (κ × ν)} {entry : κ × ν}
    (h : find? lt key entries = some entry) : entry ∈ entries := by
  induction entries with
  | nil => cases h
  | cons first rest ih =>
      rw [find?] at h
      split_ifs at h
      · exact List.mem_cons_of_mem _ (ih h)
      · cases h
        exact List.mem_cons_self

theorem find?_eq_none_iff (horder : StrictTotalOn lt keys)
    {entries : List (κ × ν)} (hsorted : Sorted lt entries)
    (hkeys : KeysIn keys entries) {key : κ} (hkey : keys key) :
    find? lt key entries = none ↔ ∀ entry ∈ entries, entry.1 ≠ key := by
  constructor
  · intro hnone entry hmem heq
    have hsome := (find?_eq_some_iff horder hsorted hkeys hkey).mpr
      ⟨hmem, heq⟩
    rw [hnone] at hsome
    contradiction
  · intro hall
    cases hfind : find? lt key entries with
    | none => rfl
    | some entry =>
        obtain ⟨hmem, heq⟩ :=
          (find?_eq_some_iff horder hsorted hkeys hkey).mp hfind
        exact absurd heq (hall entry hmem)

/-- Insertion adds the entry and drops only what was stored under the key. -/
theorem mem_insert (horder : StrictTotalOn lt keys)
    {entries : List (κ × ν)} (hsorted : Sorted lt entries)
    (hkeys : KeysIn keys entries) {key : κ} (hkey : keys key)
    {value : ν} {entry : κ × ν} :
    entry ∈ insert lt key value entries ↔
      entry = (key, value) ∨ (entry ∈ entries ∧ entry.1 ≠ key) := by
  induction entries with
  | nil => simp [insert]
  | cons first rest ih =>
      have hparts := List.pairwise_cons.mp hsorted
      rw [insert]
      split_ifs with hbelow habove
      · have hne := horder.ne_of_lt hkeys.head hbelow
        rw [List.mem_cons, ih hparts.2 hkeys.tail, List.mem_cons]
        constructor
        · rintro (rfl | hnew | ⟨hmem, hkeyne⟩)
          · exact Or.inr ⟨Or.inl rfl, hne⟩
          · exact Or.inl hnew
          · exact Or.inr ⟨Or.inr hmem, hkeyne⟩
        · rintro (hnew | ⟨rfl | hmem, hkeyne⟩)
          · exact Or.inr (Or.inl hnew)
          · exact Or.inl rfl
          · exact Or.inr (Or.inr ⟨hmem, hkeyne⟩)
      · have hall := hsorted.lt_of_lt_head horder hkeys hkey habove
        rw [List.mem_cons]
        constructor
        · rintro (hnew | hmem)
          · exact Or.inl hnew
          · exact Or.inr ⟨hmem,
              (horder.ne_of_lt hkey (hall entry hmem)).symm⟩
        · rintro (hnew | ⟨hmem, -⟩)
          · exact Or.inl hnew
          · exact Or.inr hmem
      · have heq : first.1 = key :=
          horder.total _ _ hkeys.head hkey (by simpa using hbelow)
            (by simpa using habove)
        rw [List.mem_cons, List.mem_cons, heq]
        constructor
        · rintro (hnew | hmem)
          · exact Or.inl hnew
          · have hlt := hparts.1 entry hmem
            rw [heq] at hlt
            exact Or.inr ⟨Or.inr hmem, (horder.ne_of_lt hkey hlt).symm⟩
        · rintro (hnew | ⟨rfl | hmem, hkeyne⟩)
          · exact Or.inl hnew
          · exact absurd heq hkeyne
          · exact Or.inr hmem

/-- An insertion brings in no value but its own, whatever the comparison. -/
theorem value_of_mem_insert (lt : κ → κ → Bool) {key : κ} {value : ν}
    {entries : List (κ × ν)} {entry : κ × ν}
    (h : entry ∈ insert lt key value entries) :
    entry.2 = value ∨ entry ∈ entries := by
  induction entries with
  | nil =>
      rw [insert, List.mem_singleton] at h
      exact Or.inl (congrArg Prod.snd h)
  | cons first rest ih =>
      rw [insert] at h
      split_ifs at h
      · rcases List.mem_cons.mp h with rfl | hrest
        · exact Or.inr List.mem_cons_self
        · exact (ih hrest).imp_right (List.mem_cons_of_mem _)
      · rcases List.mem_cons.mp h with rfl | hold
        · exact Or.inl rfl
        · exact Or.inr hold
      · rcases List.mem_cons.mp h with rfl | hrest
        · exact Or.inl rfl
        · exact Or.inr (List.mem_cons_of_mem _ hrest)

/-- The entry that is found is equivalent to the key, whatever the
comparison. -/
theorem not_lt_of_find? {lt : κ → κ → Bool} {key : κ}
    {entries : List (κ × ν)} {entry : κ × ν}
    (h : find? lt key entries = some entry) :
    lt entry.1 key = false ∧ lt key entry.1 = false := by
  induction entries with
  | nil => cases h
  | cons first rest ih =>
      rw [find?] at h
      split_ifs at h with hbelow habove
      · exact ih h
      · cases h
        exact ⟨Bool.eq_false_iff.mpr hbelow, Bool.eq_false_iff.mpr habove⟩

/-- An insertion where nothing is found is one entry more. -/
theorem inserted_insert {lt : κ → κ → Bool} {key : κ}
    {entries : List (κ × ν)} (hfind : find? lt key entries = none)
    (value : ν) :
    Cursor.Inserted (key, value) entries (insert lt key value entries) := by
  induction entries with
  | nil => exact Cursor.inserted_cons _ _
  | cons first rest ih =>
      rw [find?] at hfind
      rw [insert]
      split_ifs at hfind ⊢
      · exact (ih hfind).cons first
      · exact Cursor.inserted_cons _ _

/-- What is erased is the entry that is found. -/
theorem inserted_erase {lt : κ → κ → Bool} {key : κ}
    {entries : List (κ × ν)} {entry : κ × ν}
    (hfind : find? lt key entries = some entry) :
    Cursor.Inserted entry (erase lt key entries) entries := by
  induction entries with
  | nil => cases hfind
  | cons first rest ih =>
      rw [find?] at hfind
      rw [erase]
      split_ifs at hfind ⊢
      · exact (ih hfind).cons first
      · cases hfind
        exact Cursor.inserted_cons _ _

theorem keysIn_insert (horder : StrictTotalOn lt keys)
    {entries : List (κ × ν)} (hsorted : Sorted lt entries)
    (hkeys : KeysIn keys entries) {key : κ} (hkey : keys key)
    {value : ν} : KeysIn keys (insert lt key value entries) := by
  intro entry hentry
  rcases (mem_insert horder hsorted hkeys hkey).mp hentry with
    rfl | ⟨hmem, -⟩
  · exact hkey
  · exact hkeys entry hmem

theorem sorted_insert (horder : StrictTotalOn lt keys)
    {entries : List (κ × ν)} (hsorted : Sorted lt entries)
    (hkeys : KeysIn keys entries) {key : κ} (hkey : keys key)
    {value : ν} : Sorted lt (insert lt key value entries) := by
  induction entries with
  | nil => exact List.pairwise_singleton _ _
  | cons first rest ih =>
      have hparts := List.pairwise_cons.mp hsorted
      rw [insert]
      split_ifs with hbelow habove
      · refine List.pairwise_cons.mpr ⟨?_, ih hparts.2 hkeys.tail⟩
        intro e he
        rcases (mem_insert horder hparts.2 hkeys.tail hkey).mp he with
          rfl | ⟨hmem, -⟩
        · exact hbelow
        · exact hparts.1 e hmem
      · exact List.pairwise_cons.mpr
          ⟨hsorted.lt_of_lt_head horder hkeys hkey habove, hsorted⟩
      · exact List.pairwise_cons.mpr ⟨hparts.1, hparts.2⟩

/-- Erasing drops exactly what was stored under the key. -/
theorem mem_erase (horder : StrictTotalOn lt keys)
    {entries : List (κ × ν)} (hsorted : Sorted lt entries)
    (hkeys : KeysIn keys entries) {key : κ} (hkey : keys key)
    {entry : κ × ν} :
    entry ∈ erase lt key entries ↔ entry ∈ entries ∧ entry.1 ≠ key := by
  induction entries with
  | nil => simp [erase]
  | cons first rest ih =>
      have hparts := List.pairwise_cons.mp hsorted
      rw [erase]
      split_ifs with hbelow habove
      · have hne := horder.ne_of_lt hkeys.head hbelow
        rw [List.mem_cons, ih hparts.2 hkeys.tail, List.mem_cons]
        constructor
        · rintro (rfl | ⟨hmem, hkeyne⟩)
          · exact ⟨Or.inl rfl, hne⟩
          · exact ⟨Or.inr hmem, hkeyne⟩
        · rintro ⟨rfl | hmem, hkeyne⟩
          · exact Or.inl rfl
          · exact Or.inr ⟨hmem, hkeyne⟩
      · have hall := hsorted.lt_of_lt_head horder hkeys hkey habove
        constructor
        · intro hmem
          exact ⟨hmem, (horder.ne_of_lt hkey (hall entry hmem)).symm⟩
        · exact fun h => h.1
      · have heq : first.1 = key :=
          horder.total _ _ hkeys.head hkey (by simpa using hbelow)
            (by simpa using habove)
        rw [List.mem_cons]
        constructor
        · intro hmem
          have hlt := hparts.1 entry hmem
          rw [heq] at hlt
          exact ⟨Or.inr hmem, (horder.ne_of_lt hkey hlt).symm⟩
        · rintro ⟨rfl | hmem, hkeyne⟩
          · exact absurd heq hkeyne
          · exact hmem

theorem erase_sublist (lt : κ → κ → Bool) (key : κ)
    (entries : List (κ × ν)) :
    (erase lt key entries).Sublist entries := by
  induction entries with
  | nil => exact List.Sublist.refl _
  | cons first rest ih =>
      rw [erase]
      split_ifs
      · exact ih.cons_cons first
      · exact List.Sublist.refl _
      · exact List.sublist_cons_self first rest

theorem sorted_erase {entries : List (κ × ν)} (hsorted : Sorted lt entries)
    (key : κ) : Sorted lt (erase lt key entries) :=
  List.Pairwise.sublist (erase_sublist lt key entries) hsorted

theorem keysIn_erase {entries : List (κ × ν)} (hkeys : KeysIn keys entries)
    (key : κ) : KeysIn keys (erase lt key entries) :=
  fun entry hentry =>
    hkeys entry ((erase_sublist lt key entries).subset hentry)

end Laws

/-! ## Two comparisons that agree on the keys in use -/

section Congr

variable {lt other : κ → κ → Bool} {keys : κ → Prop} {key : κ}
  {entries : List (κ × ν)}

/-- The comparisons agree on the keys satisfying `keys`. -/
def AgreeOn (lt other : κ → κ → Bool) (keys : κ → Prop) : Prop :=
  ∀ a b, keys a → keys b → lt a b = other a b

theorem find?_congr (hagree : AgreeOn lt other keys)
    (hkeys : KeysIn keys entries) (hkey : keys key) :
    find? lt key entries = find? other key entries := by
  induction entries with
  | nil => rfl
  | cons first rest ih =>
      rw [find?, find?, hagree _ _ hkeys.head hkey,
        hagree _ _ hkey hkeys.head, ih hkeys.tail]

theorem insert_congr (hagree : AgreeOn lt other keys)
    (hkeys : KeysIn keys entries) (hkey : keys key) (value : ν) :
    insert lt key value entries = insert other key value entries := by
  induction entries with
  | nil => rfl
  | cons first rest ih =>
      rw [insert, insert, hagree _ _ hkeys.head hkey,
        hagree _ _ hkey hkeys.head, ih hkeys.tail]

theorem erase_congr (hagree : AgreeOn lt other keys)
    (hkeys : KeysIn keys entries) (hkey : keys key) :
    erase lt key entries = erase other key entries := by
  induction entries with
  | nil => rfl
  | cons first rest ih =>
      rw [erase, erase, hagree _ _ hkeys.head hkey,
        hagree _ _ hkey hkeys.head, ih hkeys.tail]

/-- An insertion brings in no key but its own, whatever the comparison. -/
theorem keysIn_insert_self (lt : κ → κ → Bool) (hkeys : KeysIn keys entries)
    (hkey : keys key) (value : ν) :
    KeysIn keys (insert lt key value entries) := by
  induction entries with
  | nil =>
      intro entry hentry
      rw [insert, List.mem_singleton] at hentry
      rw [hentry]
      exact hkey
  | cons first rest ih =>
      intro entry hentry
      rw [insert] at hentry
      split_ifs at hentry
      · rcases List.mem_cons.mp hentry with rfl | hrest
        · exact hkeys.head
        · exact ih hkeys.tail entry hrest
      · rcases List.mem_cons.mp hentry with rfl | hold
        · exact hkey
        · exact hkeys entry hold
      · rcases List.mem_cons.mp hentry with rfl | hrest
        · exact hkeys.head
        · exact hkeys.tail entry hrest

end Congr

end Foundation.OrderedMap
