import LibChromecast.Foundation.WireGrammar

/-!
# Fields that are kept

`SkipField` with an output stream.  A field the reader does not know is
skipped, and what it was is written: its tag, then the value with the shortest
varints.  What has been kept is no longer than what was read, and whoever reads
it keeps it as it is.
-/

namespace Foundation.ProtobufWire

mutual

/-- `SkipField`, and what it writes.  `fuel` bounds the number of fields,
`depth` is what is left of the recursion limit. -/
def keepField : ℕ → ℕ → ℕ → List UInt8 → Option (List UInt8 × List UInt8)
  | 0, _, _, _ => none
  | fuel + 1, depth, tag, bytes =>
      match tag % 8 with
      | 0 => (readVarint64 bytes).map fun r =>
          (writeVarint tag ++ writeVarint r.1, r.2)
      | 1 => (readRaw 8 bytes).map fun r => (writeVarint tag ++ r.1, r.2)
      | 2 => (readString bytes).map fun r =>
          (writeVarint tag ++ writeString r.1, r.2)
      | 3 =>
          match depth with
          | 0 => none
          | depth + 1 => (keepGroup fuel depth (tag / 8) bytes).map fun r =>
              (writeVarint tag ++ r.1, r.2)
      | 5 => (readRaw 4 bytes).map fun r => (writeVarint tag ++ r.1, r.2)
      | _ => none

/-- `SkipMessage` and the test of the tag that ended it. -/
def keepGroup : ℕ → ℕ → ℕ → List UInt8 → Option (List UInt8 × List UInt8)
  | 0, _, _, _ => none
  | fuel + 1, depth, field, bytes =>
      if (readTag bytes).1 = 0 then none
      else if (readTag bytes).1 % 8 = 4 then
        if (readTag bytes).1 / 8 = field then
          some (writeVarint (readTag bytes).1, (readTag bytes).2)
        else none
      else
        match keepField fuel depth (readTag bytes).1 (readTag bytes).2 with
        | none => none
        | some (kept, rest) => (keepGroup fuel depth field rest).map fun r =>
            (kept ++ r.1, r.2)

end

/-! ## What is skipped -/

theorem keep_skips (fuel : ℕ) :
    (∀ depth tag bytes, (keepField fuel depth tag bytes).map Prod.snd =
      skipField fuel depth tag bytes) ∧
    ∀ depth field bytes, (keepGroup fuel depth field bytes).map Prod.snd =
      skipGroup fuel depth field bytes := by
  induction fuel with
  | zero =>
      constructor
      · intro depth tag bytes
        rw [keepField, skipField, Option.map_none]
      · intro depth field bytes
        rw [keepGroup, skipGroup, Option.map_none]
  | succ fuel ih =>
      obtain ⟨ihField, ihGroup⟩ := ih
      constructor
      · intro depth tag bytes
        unfold keepField skipField
        generalize tag % 8 = wire
        rcases wire with _ | _ | _ | _ | _ | _ | wire
        · exact Option.map_map ..
        · exact Option.map_map ..
        · exact Option.map_map ..
        · cases depth with
          | zero => rfl
          | succ depth =>
              change Option.map Prod.snd (Option.map _
                (keepGroup fuel depth (tag / 8) bytes)) = skipGroup ..
              rw [← ihGroup, Option.map_map]
              rfl
        · rfl
        · exact Option.map_map ..
        · rfl
      · intro depth field bytes
        unfold keepGroup skipGroup
        split_ifs
        · rfl
        · rfl
        · rfl
        · rw [← ihField]
          cases hfield : keepField fuel depth (readTag bytes).1
              (readTag bytes).2 with
          | none => rfl
          | some read =>
              dsimp only [Option.map_some]
              rw [← ihGroup, Option.map_map]
              rfl

/-! ## Short spellings -/

/-- No spelling of a number is shorter than the one that is written. -/
theorem length_writeVarintAux_le {limit n : ℕ} {bytes : List UInt8}
    (h : SpellsVarint limit n bytes) {m : ℕ} (hm : m ≤ n) (most : ℕ) :
    (writeVarintAux most m).length ≤ bytes.length := by
  induction h generalizing m most with
  | last limit byte hbyte =>
      cases most with
      | zero => simp [writeVarintAux]
      | succ most =>
          rw [writeVarintAux, if_pos (by omega)]
          exact Nat.le_refl 1
  | more limit high byte bytes hbyte _ ih =>
      cases most with
      | zero => simp [writeVarintAux]
      | succ most =>
          rw [writeVarintAux]
          split_ifs with hsmall
          · simp
          · rw [List.length_cons, List.length_cons]
            have hhigh := ih (m := m / 128) (by
              have hbyte := byte.toNat_lt
              omega) most
            omega

theorem SpellsVarint32.length_write_le {value : ℕ} {bytes : List UInt8}
    (h : SpellsVarint32 value bytes) :
    (writeVarint value).length ≤ bytes.length := by
  obtain ⟨n, hn, rfl⟩ := h
  exact length_writeVarintAux_le hn (Nat.mod_le _ _) 10

theorem spellsVarint32_write {value : ℕ} (hvalue : value < 2 ^ 32) :
    SpellsVarint32 value (writeVarint value) := by
  obtain ⟨front, hfront, hspells⟩ := (recognizes_varint32 _ value []).mp
    (readVarint32_write value [] hvalue)
  rwa [List.append_cancel_right hfront]

theorem SpellsVarint32.lt {value : ℕ} {bytes : List UInt8}
    (h : SpellsVarint32 value bytes) : value < 2 ^ 32 := by
  obtain ⟨n, -, rfl⟩ := h
  exact Nat.mod_lt _ (by decide)

theorem SpellsString.length_write_le {text bytes : List UInt8}
    (h : SpellsString text bytes) :
    (writeString text).length ≤ bytes.length := by
  obtain ⟨head, hlength, hhead⟩ := h
  have hmod : text.length % 2 ^ 32 = text.length :=
    Nat.mod_eq_of_lt (by omega)
  rw [writeString, hmod, List.length_append, List.length_append]
  exact Nat.add_le_add_right hhead.length_write_le _

theorem length_writeVarint_pos (n : ℕ) : 0 < (writeVarint n).length := by
  unfold writeVarint writeVarintAux
  split_ifs <;> exact Nat.succ_pos _

theorem readVarint64_write {n : ℕ} (hn : n < 2 ^ 64) (rest : List UInt8) :
    readVarint64 (writeVarint n ++ rest) = some (n, rest) := by
  unfold readVarint64 writeVarint
  rw [readVarintAux_write 10 n rest (by omega) (by omega)]
  simp only [Option.some.injEq, Prod.mk.injEq, and_true]
  omega

/-! ## What is kept -/

/-- A field is kept as its tag and a body that is read to itself. -/
structure KeepsField (depth tag : ℕ) (front kept : List UInt8) : Prop where
  again : ∃ body, kept = writeVarint tag ++ body ∧
    body.length ≤ front.length ∧
      ∀ fuel rest, body.length < fuel →
        keepField fuel depth tag (body ++ rest) = some (kept, rest)

/-- What is kept of a group, from its first field to its END_GROUP tag. -/
structure KeepsGroup (depth field : ℕ) (front kept : List UInt8) : Prop where
  pos : 0 < kept.length
  length_le : kept.length ≤ front.length
  again : ∀ fuel rest, kept.length ≤ fuel →
    keepGroup fuel depth field (kept ++ rest) = some (kept, rest)

section Fields

variable {fuel depth tag : ℕ} {bytes kept rest : List UInt8}

/-- A field that is one value, which is written so that it is read back. -/
theorem KeepsField.of_value {β : Type*}
    {read : List UInt8 → Option (β × List UInt8)} (write : β → List UInt8)
    (hfield : ∀ fuel bytes, keepField (fuel + 1) depth tag bytes =
      (read bytes).map fun r => (writeVarint tag ++ write r.1, r.2))
    (hread : ∀ {bytes value rest}, read bytes = some (value, rest) →
      ∃ front, bytes = front ++ rest ∧
        (write value).length ≤ front.length ∧
          ∀ rest, read (write value ++ rest) = some (value, rest))
    (hkept : keepField (fuel + 1) depth tag bytes = some (kept, rest)) :
    ∃ front, bytes = front ++ rest ∧ KeepsField depth tag front kept := by
  rw [hfield] at hkept
  obtain ⟨⟨value, after⟩, hvalue, hsome⟩ := Option.map_eq_some_iff.mp hkept
  cases hsome
  obtain ⟨front, rfl, hlength, hagain⟩ := hread hvalue
  refine ⟨front, rfl, write value, rfl, hlength, fun fuel rest hfuel => ?_⟩
  obtain ⟨fuel, rfl⟩ := Nat.exists_eq_add_one.mpr (Nat.zero_lt_of_lt hfuel)
  rw [hfield, hagain, Option.map_some]

theorem raw_again {count : ℕ} {text : List UInt8}
    (hread : readRaw count bytes = some (text, rest)) :
    ∃ front, bytes = front ++ rest ∧ text.length ≤ front.length ∧
      ∀ rest, readRaw count (text ++ rest) = some (text, rest) := by
  obtain ⟨front, rfl, rfl, hlength⟩ :=
    (recognizes_raw count bytes text rest).mp hread
  exact ⟨text, rfl, Nat.le_refl _, fun rest =>
    (recognizes_raw count _ text rest).mpr ⟨text, rfl, rfl, hlength⟩⟩

theorem varint_again {n : ℕ} (hread : readVarint64 bytes = some (n, rest)) :
    ∃ front, bytes = front ++ rest ∧
      (writeVarint n).length ≤ front.length ∧
        ∀ rest, readVarint64 (writeVarint n ++ rest) = some (n, rest) := by
  unfold readVarint64 at hread
  split at hread
  next => contradiction
  next m after hvarint =>
    cases hread
    obtain ⟨front, rfl, hspells⟩ :=
      (recognizes_varint 10 bytes m rest).mp hvarint
    exact ⟨front, rfl,
      length_writeVarintAux_le hspells (Nat.mod_le _ _) 10,
      readVarint64_write (Nat.mod_lt _ (by decide))⟩

theorem string_again {text : List UInt8}
    (hread : readString bytes = some (text, rest)) :
    ∃ front, bytes = front ++ rest ∧
      (writeString text).length ≤ front.length ∧
        ∀ rest, readString (writeString text ++ rest) =
          some (text, rest) := by
  obtain ⟨front, rfl, hspells⟩ :=
    (recognizes_string bytes text rest).mp hread
  refine ⟨front, rfl, hspells.length_write_le, fun rest => ?_⟩
  obtain ⟨head, hlength, -⟩ := hspells
  exact readString_write text rest hlength

/-- The tags of a group are written as they were read, and so is the whole. -/
theorem KeepsField.of_group {front : List UInt8} (htype : tag % 8 = 3)
    (hgroup : KeepsGroup depth (tag / 8) front kept) :
    KeepsField (depth + 1) tag front (writeVarint tag ++ kept) := by
  refine ⟨kept, rfl, hgroup.length_le, fun fuel rest hfuel => ?_⟩
  obtain ⟨fuel, rfl⟩ := Nat.exists_eq_add_one.mpr (Nat.zero_lt_of_lt hfuel)
  rw [keepField]
  simp only [htype]
  rw [hgroup.again fuel rest (by omega), Option.map_some]

theorem KeepsGroup.of_close {head : List UInt8} (hzero : tag ≠ 0)
    (htype : tag % 8 = 4) (hhead : SpellsVarint32 tag head) :
    KeepsGroup depth (tag / 8) head (writeVarint tag) := by
  have hpos := length_writeVarint_pos tag
  refine ⟨hpos, hhead.length_write_le, fun fuel rest hfuel => ?_⟩
  obtain ⟨fuel, rfl⟩ := Nat.exists_eq_add_one.mpr (by omega : 0 < fuel)
  rw [keepGroup, readTag_write tag rest hhead.lt, if_neg hzero,
    if_pos htype, if_pos rfl]

theorem KeepsGroup.of_field {field : ℕ} {head front more again : List UInt8}
    (hzero : tag ≠ 0) (htype : tag % 8 ≠ 4)
    (hhead : SpellsVarint32 tag head) (hfield : KeepsField depth tag front kept)
    (hmore : KeepsGroup depth field more again) :
    KeepsGroup depth field (head ++ (front ++ more)) (kept ++ again) := by
  obtain ⟨body, rfl, hlength, hbody⟩ := hfield
  have hheadLength := hhead.length_write_le
  have hmoreLength := hmore.length_le
  have hpos := hmore.pos
  have htag := length_writeVarint_pos tag
  refine ⟨?_, ?_, fun fuel rest hfuel => ?_⟩
  · simp only [List.length_append]
    omega
  · simp only [List.length_append]
    omega
  · simp only [List.length_append] at hfuel
    obtain ⟨fuel, rfl⟩ := Nat.exists_eq_add_one.mpr (by omega : 0 < fuel)
    rw [List.append_assoc, List.append_assoc, keepGroup,
      readTag_write tag _ hhead.lt, if_neg hzero, if_neg htype,
      hbody fuel (again ++ rest) (by omega)]
    dsimp only
    rw [hmore.again fuel rest (by omega), Option.map_some,
      List.append_assoc]

end Fields

/-- Whatever is skipped is kept. -/
theorem keep_spec (fuel : ℕ) :
    (∀ depth tag bytes kept rest,
      keepField fuel depth tag bytes = some (kept, rest) →
        ∃ front, bytes = front ++ rest ∧ KeepsField depth tag front kept) ∧
    ∀ depth field bytes kept rest,
      keepGroup fuel depth field bytes = some (kept, rest) →
        ∃ front, bytes = front ++ rest ∧
          KeepsGroup depth field front kept := by
  induction fuel with
  | zero =>
      constructor
      · intro depth tag bytes kept rest hkept
        simp [keepField] at hkept
      · intro depth field bytes kept rest hkept
        simp [keepGroup] at hkept
  | succ fuel ih =>
      obtain ⟨ihField, ihGroup⟩ := ih
      constructor
      · intro depth tag bytes kept rest hkept
        have hvalue := hkept
        unfold keepField at hvalue
        split at hvalue
        next htype =>
          exact KeepsField.of_value writeVarint
            (fun fuel bytes => by unfold keepField; simp only [htype])
            varint_again hkept
        next htype =>
          exact KeepsField.of_value id
            (fun fuel bytes => by unfold keepField; simp only [htype]; rfl)
            raw_again hkept
        next htype =>
          exact KeepsField.of_value writeString
            (fun fuel bytes => by unfold keepField; simp only [htype])
            string_again hkept
        next htype =>
          cases depth with
          | zero => cases hvalue
          | succ depth =>
              obtain ⟨⟨inner, after⟩, hinner, hsome⟩ :=
                Option.map_eq_some_iff.mp hvalue
              cases hsome
              obtain ⟨front, rfl, hgroup⟩ := ihGroup _ _ _ _ _ hinner
              exact ⟨front, rfl, .of_group htype hgroup⟩
        next htype =>
          exact KeepsField.of_value id
            (fun fuel bytes => by unfold keepField; simp only [htype]; rfl)
            raw_again hkept
        next => contradiction
      · intro depth field bytes kept rest hkept
        rw [keepGroup] at hkept
        split_ifs at hkept with hzero hend hnumber
        · cases hkept
          obtain ⟨head, hbytes, hhead⟩ := (readTag_eq_iff hzero).mp rfl
          exact ⟨head, hbytes, hnumber ▸ .of_close hzero hend hhead⟩
        · obtain ⟨head, hbytes, hhead⟩ := (readTag_eq_iff hzero).mp rfl
          split at hkept
          next => contradiction
          next inner after hfield =>
            obtain ⟨⟨again, last⟩, hagain, hsome⟩ :=
              Option.map_eq_some_iff.mp hkept
            cases hsome
            obtain ⟨front, hfront, hkeeps⟩ := ihField _ _ _ _ _ hfield
            obtain ⟨more, rfl, hmore⟩ := ihGroup _ _ _ _ _ hagain
            refine ⟨head ++ (front ++ more), ?_,
              .of_field hzero hend hhead hkeeps hmore⟩
            rw [List.append_assoc, List.append_assoc, ← hfront]
            exact hbytes

end Foundation.ProtobufWire
