import Mathlib.Algebra.Group.Nat.Defs
import Mathlib.Data.List.Basic
import Mathlib.Tactic.Common

/-!
# Length-prefixed framing

A frame is a header of fixed size, which encodes the length of the body,
followed by the body.  The code is uniquely decodable in the strong sense a
stream reader needs: a concatenation of frames followed by an incomplete one
determines the bodies and the rest.

`LengthHeader` is the header codec, over any alphabet; `bigEndian32` is the
four-byte big-endian one.
-/

namespace Foundation.LengthPrefix

universe u

variable {α : Type u}

/-- A header codec: `size` letters that encode every length below `bound`. -/
structure LengthHeader (α : Type u) where
  size : ℕ
  bound : ℕ
  encode : ℕ → List α
  decode : List α → ℕ
  length_encode : ∀ n, (encode n).length = size
  decode_encode : ∀ n, n < bound → decode (encode n) = n
  encode_decode : ∀ letters, letters.length = size →
    encode (decode letters) = letters
  decode_lt : ∀ letters, letters.length = size → decode letters < bound

namespace LengthHeader

variable (header : LengthHeader α)

def frame (body : List α) : List α := header.encode body.length ++ body

def frames (bodies : List (List α)) : List α :=
  bodies.flatMap header.frame

/-- Letters which are a proper prefix of a frame: part of a header, or a
header and part of the body it announces. -/
def Incomplete (letters : List α) : Prop :=
  letters.length < header.size ∨
    letters.length < header.size + header.decode (letters.take header.size)

@[simp] theorem frames_nil : header.frames [] = [] := rfl

@[simp] theorem frames_cons (body : List α) (rest : List (List α)) :
    header.frames (body :: rest) = header.frame body ++ header.frames rest :=
  rfl

theorem frames_append (before after : List (List α)) :
    header.frames (before ++ after) =
      header.frames before ++ header.frames after := by
  simp [frames]

@[simp] theorem length_frame (body : List α) :
    (header.frame body).length = header.size + body.length := by
  simp [frame, header.length_encode]

theorem frame_of_decode {letters body : List α}
    (hsize : letters.length = header.size)
    (hbody : body.length = header.decode letters) :
    header.frame body = letters ++ body := by
  rw [frame, hbody, header.encode_decode letters hsize]

theorem not_incomplete_frame_append {body : List α}
    (hbody : body.length < header.bound) (rest : List α) :
    ¬header.Incomplete (header.frame body ++ rest) := by
  have htake :
      (header.frame body ++ rest).take header.size =
        header.encode body.length := by
    rw [frame, List.append_assoc]
    exact List.take_left' (header.length_encode _)
  rintro (hshort | hshort)
  · simp at hshort
    omega
  · rw [htake, header.decode_encode _ hbody] at hshort
    simp only [List.length_append, length_frame] at hshort
    omega

theorem frame_append_inj {body body' rest rest' : List α}
    (hbody : body.length < header.bound)
    (hbody' : body'.length < header.bound)
    (h : header.frame body ++ rest = header.frame body' ++ rest') :
    body = body' ∧ rest = rest' := by
  simp only [frame, List.append_assoc] at h
  have hheads := List.append_inj h
    ((header.length_encode _).trans (header.length_encode _).symm)
  have hlength : body.length = body'.length := by
    rw [← header.decode_encode _ hbody, hheads.1,
      header.decode_encode _ hbody']
  exact List.append_inj hheads.2 hlength

/-- Frames completed at the start of a stream of frames are its first ones,
and what follows them is the stream of the others. -/
theorem frames_prefix {bodies bodies' : List (List α)} {rest : List α}
    (hbodies : ∀ body ∈ bodies, body.length < header.bound)
    (hbodies' : ∀ body ∈ bodies', body.length < header.bound)
    (hsize : 0 < header.size)
    (h : header.frames bodies ++ rest = header.frames bodies') :
    ∃ later, bodies' = bodies ++ later ∧ rest = header.frames later := by
  induction bodies generalizing bodies' with
  | nil => exact ⟨bodies', rfl, h⟩
  | cons body more ih =>
      cases bodies' with
      | nil =>
          have hlength := congrArg List.length h
          simp at hlength
          omega
      | cons body' more' =>
          rw [frames_cons, frames_cons, List.append_assoc] at h
          obtain ⟨rfl, htail⟩ := header.frame_append_inj
            (hbodies body (List.mem_cons_self ..))
            (hbodies' body' (List.mem_cons_self ..)) h
          obtain ⟨later, rfl, hrest⟩ := ih
            (fun b hb => hbodies b (List.mem_cons_of_mem _ hb))
            (fun b hb => hbodies' b (List.mem_cons_of_mem _ hb)) htail
          exact ⟨later, rfl, hrest⟩

/-- A stream of frames followed by an incomplete one is a stream of frames
only if nothing follows, and then the bodies are the same. -/
theorem frames_append_inj {bodies bodies' : List (List α)}
    {rest : List α}
    (hbodies : ∀ body ∈ bodies, body.length < header.bound)
    (hbodies' : ∀ body ∈ bodies', body.length < header.bound)
    (hsize : 0 < header.size) (hrest : header.Incomplete rest)
    (h : header.frames bodies ++ rest = header.frames bodies') :
    bodies = bodies' ∧ rest = [] := by
  obtain ⟨later, rfl, rfl⟩ :=
    header.frames_prefix hbodies hbodies' hsize h
  cases later with
  | nil => simp
  | cons body more =>
      have hbody := hbodies' body (by simp)
      exact absurd hrest (header.not_incomplete_frame_append hbody _)

end LengthHeader

/-! ## The four-byte big-endian header -/

/-- The low 32 bits of a number, most significant byte first. -/
def encodeBigEndian32 (n : ℕ) : List UInt8 :=
  [UInt8.ofNat (n / 2 ^ 24), UInt8.ofNat (n / 2 ^ 16),
    UInt8.ofNat (n / 2 ^ 8), UInt8.ofNat n]

def decodeBigEndian32 (bytes : List UInt8) : ℕ :=
  bytes.foldl (fun value byte => value * 2 ^ 8 + byte.toNat) 0

@[simp] theorem length_encodeBigEndian32 (n : ℕ) :
    (encodeBigEndian32 n).length = 4 := rfl

theorem decodeBigEndian32_encode (n : ℕ) :
    decodeBigEndian32 (encodeBigEndian32 n) = n % 2 ^ 32 := by
  simp only [decodeBigEndian32, encodeBigEndian32, List.foldl_cons,
    List.foldl_nil, UInt8.toNat_ofNat']
  omega

theorem exists_four_of_length {bytes : List UInt8}
    (h : bytes.length = 4) : ∃ a b c d, bytes = [a, b, c, d] := by
  match bytes, h with
  | [a, b, c, d], _ => exact ⟨a, b, c, d, rfl⟩

theorem decodeBigEndian32_lt {bytes : List UInt8}
    (h : bytes.length = 4) : decodeBigEndian32 bytes < 2 ^ 32 := by
  obtain ⟨a, b, c, d, rfl⟩ := exists_four_of_length h
  have ha := a.toNat_lt
  have hb := b.toNat_lt
  have hc := c.toNat_lt
  have hd := d.toNat_lt
  simp only [decodeBigEndian32, List.foldl_cons, List.foldl_nil]
  omega

theorem encodeBigEndian32_decode {bytes : List UInt8}
    (h : bytes.length = 4) :
    encodeBigEndian32 (decodeBigEndian32 bytes) = bytes := by
  obtain ⟨a, b, c, d, rfl⟩ := exists_four_of_length h
  have ha := a.toNat_lt
  have hb := b.toNat_lt
  have hc := c.toNat_lt
  have hd := d.toNat_lt
  simp only [decodeBigEndian32, encodeBigEndian32, List.foldl_cons,
    List.foldl_nil, List.cons.injEq, and_true, ← UInt8.toNat_inj,
    UInt8.toNat_ofNat']
  omega

def bigEndian32 : LengthHeader UInt8 where
  size := 4
  bound := 2 ^ 32
  encode := encodeBigEndian32
  decode := decodeBigEndian32
  length_encode := length_encodeBigEndian32
  decode_encode n hn := by
    rw [decodeBigEndian32_encode, Nat.mod_eq_of_lt hn]
  encode_decode _ h := encodeBigEndian32_decode h
  decode_lt _ h := decodeBigEndian32_lt h

end Foundation.LengthPrefix
