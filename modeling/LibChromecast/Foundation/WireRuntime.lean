import LibChromecast.Foundation.KeptFields

/-!
# The runtime of generated code

What generated code calls to read and to write a field.  A `WireRuntime` is
any implementation of these functions that keeps their laws: a reader accepts
what the grammar spells, a number is written with one of its shortest
spellings, and what is kept of a field is a field that is kept as it is.
Generated code is modelled over an arbitrary runtime, and `wireRuntime` is the
one made of the functions of `ProtobufWire`.
-/

namespace Foundation.ProtobufWire

/-- The readers of a coded stream, `SkipField` without and with an output
stream, and the writer of a varint.  A coded stream lets a field nest a hundred
groups. -/
structure WireRuntime where
  readTag : List UInt8 → ℕ × List UInt8
  readVarint32 : List UInt8 → Option (ℕ × List UInt8)
  readString : List UInt8 → Option (List UInt8 × List UInt8)
  skipField : ℕ → List UInt8 → Option (List UInt8)
  /-- What is written to the output stream, and the rest of the input. -/
  keepField : ℕ → List UInt8 → Option (List UInt8 × List UInt8)
  writeVarint : ℕ → List UInt8
  readTag_eq_iff : ∀ {tag bytes rest}, tag ≠ 0 →
    (readTag bytes = (tag, rest) ↔
      ∃ front, bytes = front ++ rest ∧ SpellsVarint32 tag front)
  recognizes_varint32 : Recognizes readVarint32 SpellsVarint32
  recognizes_string : Recognizes readString SpellsString
  skipField_eq_some_iff : ∀ {tag bytes rest}, skipField tag bytes = some rest ↔
    ∃ front, bytes = front ++ rest ∧ SpellsUnknown 100 tag front
  keepField_skips : ∀ tag bytes,
    (keepField tag bytes).map Prod.snd = skipField tag bytes
  keepField_again : ∀ {tag bytes kept rest},
    keepField tag bytes = some (kept, rest) →
      ∃ front body, bytes = front ++ rest ∧ kept = writeVarint tag ++ body ∧
        body.length ≤ front.length ∧
          ∀ rest, keepField tag (body ++ rest) = some (kept, rest)
  spells_writeVarint : ∀ {n}, n < 2 ^ 32 → SpellsVarint32 n (writeVarint n)
  length_writeVarint_le : ∀ {n bytes}, SpellsVarint32 n bytes →
    (writeVarint n).length ≤ bytes.length

/-- The functions of this library, with fuel for every byte. -/
def wireRuntime : WireRuntime where
  readTag := readTag
  readVarint32 := readVarint32
  readString := readString
  skipField tag bytes := skipField (bytes.length + 1) 100 tag bytes
  keepField tag bytes := keepField (bytes.length + 1) 100 tag bytes
  writeVarint := writeVarint
  readTag_eq_iff := readTag_eq_iff
  recognizes_varint32 := recognizes_varint32
  recognizes_string := recognizes_string
  skipField_eq_some_iff := skipField_eq_some_iff (Nat.lt_succ_self _)
  keepField_skips tag bytes := (keep_skips _).1 100 tag bytes
  keepField_again hkept := by
    obtain ⟨front, hbytes, body, hbody, hlength, hagain⟩ :=
      (keep_spec _).1 _ _ _ _ _ hkept
    refine ⟨front, body, hbytes, hbody, hlength, fun rest => ?_⟩
    refine hagain _ rest ?_
    rw [List.length_append]
    omega
  spells_writeVarint hn := spellsVarint32_write hn
  length_writeVarint_le hspells := hspells.length_write_le

namespace WireRuntime

variable (runtime : WireRuntime)

/-- The length of a text is written as a `uint32`. -/
def writeString (text : List UInt8) : List UInt8 :=
  runtime.writeVarint (text.length % 2 ^ 32) ++ text

variable {bytes rest text : List UInt8} {tag n : ℕ}

/-! ## Tags -/

/-- A tag takes at least one byte. -/
theorem length_of_readTag (htag : runtime.readTag bytes = (tag, rest))
    (hzero : tag ≠ 0) : rest.length < bytes.length := by
  obtain ⟨front, rfl, hspells⟩ := (runtime.readTag_eq_iff hzero).mp htag
  have hpos := List.length_pos_of_ne_nil hspells.ne_nil
  rw [List.length_append]
  omega

theorem readTag_nil : (runtime.readTag []).1 = 0 := by
  by_contra hzero
  have htag : runtime.readTag [] =
      ((runtime.readTag []).1, (runtime.readTag []).2) := rfl
  exact Nat.not_lt_zero _ (runtime.length_of_readTag htag hzero)

variable {runtime}

theorem readTag_cons {byte : UInt8} (hpos : 0 < byte.toNat)
    (hbyte : byte.toNat < 128) :
    runtime.readTag (byte :: rest) = (byte.toNat, rest) :=
  (runtime.readTag_eq_iff (Nat.ne_of_gt hpos)).mpr
    ⟨[byte], rfl, byte.toNat, .last 9 byte hbyte, by omega⟩

/-! ## What was written -/

theorem readTag_write (hzero : tag ≠ 0) (htag : tag < 2 ^ 32) :
    runtime.readTag (runtime.writeVarint tag ++ rest) = (tag, rest) :=
  (runtime.readTag_eq_iff hzero).mpr
    ⟨_, rfl, runtime.spells_writeVarint htag⟩

theorem readVarint32_write (hn : n < 2 ^ 32) :
    runtime.readVarint32 (runtime.writeVarint n ++ rest) = some (n, rest) :=
  (runtime.recognizes_varint32 _ n rest).mpr
    ⟨_, rfl, runtime.spells_writeVarint hn⟩

theorem readString_write (htext : text.length < 2 ^ 31) :
    runtime.readString (runtime.writeString text ++ rest) =
      some (text, rest) := by
  have hmod : text.length % 2 ^ 32 = text.length :=
    Nat.mod_eq_of_lt (by omega)
  refine (runtime.recognizes_string _ text rest).mpr ⟨_, rfl, ?_⟩
  rw [writeString, hmod]
  exact .intro text _ htext (runtime.spells_writeVarint (by omega))

/-- Every runtime writes a number in as many bytes. -/
theorem length_writeVarint (hn : n < 2 ^ 32) :
    (runtime.writeVarint n).length = (ProtobufWire.writeVarint n).length :=
  Nat.le_antisymm (runtime.length_writeVarint_le (spellsVarint32_write hn))
    (runtime.spells_writeVarint hn).length_write_le

theorem length_writeVarint_pos (hn : n < 2 ^ 32) :
    0 < (runtime.writeVarint n).length :=
  List.length_pos_of_ne_nil (runtime.spells_writeVarint hn).ne_nil

theorem length_writeString_le (h : SpellsString text bytes) :
    (runtime.writeString text).length ≤ bytes.length := by
  obtain ⟨head, hlength, hhead⟩ := h
  have hmod : text.length % 2 ^ 32 = text.length :=
    Nat.mod_eq_of_lt (by omega)
  rw [writeString, hmod, List.length_append, List.length_append]
  exact Nat.add_le_add_right (runtime.length_writeVarint_le hhead) _

end WireRuntime

end Foundation.ProtobufWire
