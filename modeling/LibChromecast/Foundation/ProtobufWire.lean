import Mathlib.Algebra.Group.Nat.Defs
import Mathlib.Data.List.Basic
import Mathlib.Tactic.Common

/-!
# The protobuf wire format

Varints, tags, length-delimited fields and the skipping of fields a reader
does not know.  Every reader consumes a prefix of the input and returns the
rest; `none` is a malformed or truncated field.  The round trips are stated
with an arbitrary rest, so that they compose over a record.
-/

namespace Foundation.ProtobufWire

/-- Base 128, least significant group first.  Ten bytes hold 64 bits. -/
def writeVarintAux : ℕ → ℕ → List UInt8
  | 0, _ => []
  | bytes + 1, n =>
      if n < 128 then [UInt8.ofNat n]
      else UInt8.ofNat (n % 128 + 128) :: writeVarintAux bytes (n / 128)

def writeVarint (n : ℕ) : List UInt8 := writeVarintAux 10 n

/-- At most `limit` bytes, the last one below 128. -/
def readVarintAux : ℕ → List UInt8 → Option (ℕ × List UInt8)
  | 0, _ => none
  | _ + 1, [] => none
  | limit + 1, byte :: rest =>
      if byte.toNat < 128 then some (byte.toNat, rest)
      else
        match readVarintAux limit rest with
        | none => none
        | some (high, rest) => some (byte.toNat - 128 + 128 * high, rest)

def readVarint64 (bytes : List UInt8) : Option (ℕ × List UInt8) :=
  match readVarintAux 10 bytes with
  | none => none
  | some (n, rest) => some (n % 2 ^ 64, rest)

/-- `ReadVarint32`: the upper bits are dropped. -/
def readVarint32 (bytes : List UInt8) : Option (ℕ × List UInt8) :=
  match readVarintAux 10 bytes with
  | none => none
  | some (n, rest) => some (n % 2 ^ 32, rest)

/-- `ReadTag`: zero at the end of the input and for a malformed tag. -/
def readTag (bytes : List UInt8) : ℕ × List UInt8 :=
  (readVarint32 bytes).getD (0, bytes)

def readRaw (count : ℕ) (bytes : List UInt8) :
    Option (List UInt8 × List UInt8) :=
  if count ≤ bytes.length then some (bytes.take count, bytes.drop count)
  else none

/-- `ReadString`, `ReadBytes`: the length is an `int`, and a negative one is
refused. -/
def readString (bytes : List UInt8) : Option (List UInt8 × List UInt8) :=
  match readVarint32 bytes with
  | none => none
  | some (length, rest) =>
      if length < 2 ^ 31 then readRaw length rest else none

def writeString (text : List UInt8) : List UInt8 :=
  writeVarint (text.length % 2 ^ 32) ++ text

/-! ## Unknown fields -/

mutual

/-- `SkipField`.  `fuel` bounds the number of fields, `depth` is what is left
of the recursion limit. -/
def skipField : ℕ → ℕ → ℕ → List UInt8 → Option (List UInt8)
  | 0, _, _, _ => none
  | fuel + 1, depth, tag, bytes =>
      match tag % 8 with
      | 0 => (readVarint64 bytes).map Prod.snd
      | 1 => (readRaw 8 bytes).map Prod.snd
      | 2 => (readString bytes).map Prod.snd
      | 3 =>
          match depth with
          | 0 => none
          | depth + 1 => skipGroup fuel depth (tag / 8) bytes
      | 5 => (readRaw 4 bytes).map Prod.snd
      | _ => none

def skipGroup : ℕ → ℕ → ℕ → List UInt8 → Option (List UInt8)
  | 0, _, _, _ => none
  | fuel + 1, depth, field, bytes =>
      if (readTag bytes).1 = 0 then none
      else if (readTag bytes).1 % 8 = 4 then
        if (readTag bytes).1 / 8 = field then some (readTag bytes).2 else none
      else
        match skipField fuel depth (readTag bytes).1 (readTag bytes).2 with
        | none => none
        | some rest => skipGroup fuel depth field rest

end

/-! ## Round trips -/

theorem readVarintAux_write (limit n : ℕ) (rest : List UInt8)
    (hlimit : 0 < limit) (hn : n < 128 ^ limit) :
    readVarintAux limit (writeVarintAux limit n ++ rest) =
      some (n, rest) := by
  induction limit generalizing n with
  | zero => contradiction
  | succ limit ih =>
      rw [writeVarintAux]
      by_cases hsmall : n < 128
      · have hbyte : (UInt8.ofNat n).toNat = n := by
          rw [UInt8.toNat_ofNat']
          omega
        rw [if_pos hsmall, List.singleton_append, readVarintAux, hbyte,
          if_pos hsmall]
      · have hbyte : (UInt8.ofNat (n % 128 + 128)).toNat =
            n % 128 + 128 := by
          rw [UInt8.toNat_ofNat']
          omega
        have hhigh : n / 128 < 128 ^ limit := by
          rw [Nat.pow_succ] at hn
          omega
        have hmore : 0 < limit := by
          by_contra hnone
          have hzero : limit = 0 := by omega
          subst hzero
          omega
        rw [if_neg hsmall, List.cons_append, readVarintAux, hbyte,
          if_neg (by omega), ih _ hmore hhigh]
        simp only [Option.some.injEq, Prod.mk.injEq, and_true]
        omega

theorem readVarint32_write (n : ℕ) (rest : List UInt8) (hn : n < 2 ^ 32) :
    readVarint32 (writeVarint n ++ rest) = some (n, rest) := by
  unfold readVarint32 writeVarint
  rw [readVarintAux_write 10 n rest (by omega) (by omega)]
  simp only [Option.some.injEq, Prod.mk.injEq, and_true]
  omega

theorem readTag_write (tag : ℕ) (rest : List UInt8) (htag : tag < 2 ^ 32) :
    readTag (writeVarint tag ++ rest) = (tag, rest) := by
  rw [readTag, readVarint32_write tag rest htag, Option.getD_some]

theorem readString_write (text rest : List UInt8)
    (hlength : text.length < 2 ^ 31) :
    readString (writeString text ++ rest) = some (text, rest) := by
  have hmod : text.length % 2 ^ 32 = text.length := by omega
  unfold readString writeString
  rw [hmod, List.append_assoc, readVarint32_write _ _ (by omega)]
  dsimp only
  rw [if_pos hlength]
  simp [readRaw]

end Foundation.ProtobufWire
