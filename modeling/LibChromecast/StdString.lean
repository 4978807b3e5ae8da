import Mathlib.Algebra.Group.Nat.Defs
import Mathlib.Data.Int.Basic
import Mathlib.Data.List.Basic
import Mathlib.Tactic.Common

/-!
# Strings, comparison and exceptions

A `std::string` is a sequence of bytes, not of code points: payloads and ids
come from the network and nothing in the library checks their encoding.  A
`const char*` taken from one ends at its first NUL.

`std::string::compare` is only specified by the sign of its result.  A
conforming implementation is a `StringCompare`; `unitCompare` is the one that
returns -1, 0 or 1.
-/

namespace LibChromecast

abbrev StdString := List UInt8

/-- A string literal of the source, one byte per (ASCII) character. -/
def lit (text : String) : StdString :=
  text.toList.map fun c => UInt8.ofNat c.toNat

/-- The string read back through a `const char*`: cut at the first NUL. -/
def cStr (text : StdString) : StdString :=
  text.takeWhile fun byte => byte != 0

/-! ## std::string::compare -/

/-- Lexicographic comparison of the bytes as unsigned characters. -/
def unitCompare : StdString → StdString → Int
  | [], [] => 0
  | [], _ :: _ => -1
  | _ :: _, [] => 1
  | a :: as, b :: bs =>
      if a < b then -1 else if b < a then 1 else unitCompare as bs

/-- An implementation of `compare` the standard allows: its result has the
sign of the lexicographic comparison. -/
structure StringCompare where
  compare : StdString → StdString → Int
  compare_neg : ∀ a b, compare a b < 0 ↔ unitCompare a b < 0
  compare_eq_zero : ∀ a b, compare a b = 0 ↔ unitCompare a b = 0

def StringCompare.UnitValued (strings : StringCompare) : Prop :=
  ∀ a b, strings.compare a b = -1 ∨ strings.compare a b = 0 ∨
    strings.compare a b = 1

def StringCompare.unit : StringCompare where
  compare := unitCompare
  compare_neg _ _ := Iff.rfl
  compare_eq_zero _ _ := Iff.rfl

theorem unitCompare_cases (a b : StdString) :
    unitCompare a b = -1 ∨ unitCompare a b = 0 ∨ unitCompare a b = 1 := by
  induction a generalizing b with
  | nil => cases b <;> simp [unitCompare]
  | cons x xs ih =>
      cases b with
      | nil => simp [unitCompare]
      | cons y ys =>
          rw [unitCompare]
          split_ifs
          · exact Or.inl rfl
          · exact Or.inr (Or.inr rfl)
          · exact ih ys

theorem StringCompare.unit_unitValued : StringCompare.unit.UnitValued :=
  unitCompare_cases

@[simp] theorem unitCompare_self (a : StdString) : unitCompare a a = 0 := by
  induction a with
  | nil => rfl
  | cons x xs ih => simp [unitCompare, ih]

theorem unitCompare_cons_eq_zero {x y : UInt8} {xs ys : StdString} :
    unitCompare (x :: xs) (y :: ys) = 0 ↔
      x = y ∧ unitCompare xs ys = 0 := by
  rw [unitCompare]
  by_cases hxy : x < y
  · simp [hxy, UInt8.ne_of_lt hxy]
  · by_cases hyx : y < x
    · simp [hxy, hyx, (UInt8.ne_of_lt hyx).symm]
    · have heq : x = y :=
        UInt8.le_antisymm (UInt8.not_lt.mp hyx) (UInt8.not_lt.mp hxy)
      simp [heq]

theorem unitCompare_cons_neg {x y : UInt8} {xs ys : StdString} :
    unitCompare (x :: xs) (y :: ys) < 0 ↔
      x < y ∨ (x = y ∧ unitCompare xs ys < 0) := by
  rw [unitCompare]
  by_cases hxy : x < y
  · simp [hxy]
  · by_cases hyx : y < x
    · simp [hxy, hyx, (UInt8.ne_of_lt hyx).symm]
    · have heq : x = y :=
        UInt8.le_antisymm (UInt8.not_lt.mp hyx) (UInt8.not_lt.mp hxy)
      simp [heq]

theorem eq_of_unitCompare_eq_zero {a b : StdString}
    (h : unitCompare a b = 0) : a = b := by
  induction a generalizing b with
  | nil =>
      cases b with
      | nil => rfl
      | cons y ys => simp [unitCompare] at h
  | cons x xs ih =>
      cases b with
      | nil => simp [unitCompare] at h
      | cons y ys =>
          obtain ⟨hxy, hrest⟩ := unitCompare_cons_eq_zero.mp h
          rw [hxy, ih hrest]

theorem unitCompare_swap (a b : StdString) :
    unitCompare b a = -unitCompare a b := by
  induction a generalizing b with
  | nil => cases b <;> simp [unitCompare]
  | cons x xs ih =>
      cases b with
      | nil => simp [unitCompare]
      | cons y ys =>
          rw [unitCompare, unitCompare]
          by_cases hxy : x < y
          · simp [hxy, UInt8.lt_asymm hxy]
          · by_cases hyx : y < x
            · simp [hxy, hyx]
            · simp [hxy, hyx, ih ys]

theorem unitCompare_trans {a b c : StdString}
    (hab : unitCompare a b < 0) (hbc : unitCompare b c < 0) :
    unitCompare a c < 0 := by
  induction a generalizing b c with
  | nil =>
      cases b with
      | nil => simp [unitCompare] at hab
      | cons y ys =>
          cases c with
          | nil => simp [unitCompare] at hbc
          | cons z zs => simp [unitCompare]
  | cons x xs ih =>
      cases b with
      | nil => simp [unitCompare] at hab
      | cons y ys =>
          cases c with
          | nil => simp [unitCompare] at hbc
          | cons z zs =>
              rw [unitCompare_cons_neg] at hab hbc ⊢
              rcases hab with hxy | ⟨rfl, hab⟩
              · rcases hbc with hyz | ⟨rfl, -⟩
                · exact Or.inl (UInt8.lt_trans hxy hyz)
                · exact Or.inl hxy
              · rcases hbc with hxz | ⟨rfl, hbc⟩
                · exact Or.inl hxz
                · exact Or.inr ⟨rfl, ih hab hbc⟩

theorem StringCompare.UnitValued.compare_eq {strings : StringCompare}
    (hunit : strings.UnitValued) (a b : StdString) :
    strings.compare a b = unitCompare a b := by
  have hneg := strings.compare_neg a b
  have hzero := strings.compare_eq_zero a b
  rcases hunit a b with h | h | h <;>
    rcases unitCompare_cases a b with h' | h' | h' <;>
      rw [h, h'] at hneg hzero <;> simp_all

/-! ## Exceptions -/

/-- A C++ exception.  The texts of `throw_on_error` are given without the
prefix `at <file> in <function> on <line>: `, which depends on the build. -/
inductive Exception where
  | runtimeError (text : StdString)
  | stdException (text : StdString)
  | badLexicalCast
deriving DecidableEq

/-- How a computation can fail to return: an exception, or the call of an
accessor outside its asserted precondition, after which nothing is promised. -/
inductive Fault where
  | raised (exception : Exception)
  | violated
deriving DecidableEq

abbrev Outcome := Except Fault

def raise {α : Type*} (exception : Exception) : Outcome α :=
  .error (.raised exception)

/-- `THROW_ON_ERROR_EX`. -/
def throwOnError (error : Bool) (errorText : StdString) : Outcome Unit :=
  if error then raise (.runtimeError errorText) else pure ()

structure ErrorCode where
  value : ℤ
  message : StdString
deriving DecidableEq

/-- `THROW_ON_ERROR_EX` of an error code; `THROW_ON_ERROR` has no text. -/
def throwOnErrorCode (error : Option ErrorCode) (errorText : StdString) :
    Outcome Unit :=
  match error with
  | none => pure ()
  | some error => raise (.runtimeError (error.message ++ lit " (error: " ++
      lit (toString error.value) ++ lit "), " ++ errorText))

/-! What a computation that returns has done. -/

theorem bind_eq_ok {α β : Type} {x : Outcome α} {f : α → Outcome β}
    {b : β} : (x >>= f) = .ok b ↔ ∃ a, x = .ok a ∧ f a = .ok b := by
  cases x <;> simp [bind, Except.bind]

theorem pure_eq_ok {α : Type} {a b : α} :
    (pure a : Outcome α) = .ok b ↔ a = b := by
  simp [pure, Except.pure]

theorem throwOnError_eq_ok {error : Bool} {errorText : StdString} {u : Unit} :
    throwOnError error errorText = .ok u ↔ error = false := by
  cases error <;> simp [throwOnError, raise, pure, Except.pure]

end LibChromecast
