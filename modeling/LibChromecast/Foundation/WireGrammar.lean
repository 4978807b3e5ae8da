import LibChromecast.Foundation.ProtobufWire

/-!
# The grammar of the wire format

What the readers of `ProtobufWire` accept, as a grammar without fuel: a value
and the bytes that spell it.  `Recognizes` connects the two: the reader
succeeds exactly on the inputs that begin with a spelling, and returns what it
spells and the rest.

A varint may be padded, so a value has several spellings; a spelling has one
value, and no spelling is the beginning of another.
-/

namespace Foundation.ProtobufWire

variable {α β : Type*}

/-- The reader accepts the inputs that begin with a spelling. -/
def Recognizes (read : List α → Option (β × List α))
    (spells : β → List α → Prop) : Prop :=
  ∀ letters value rest, read letters = some (value, rest) ↔
    ∃ front, letters = front ++ rest ∧ spells value front

theorem Recognizes.length_le {read : List α → Option (β × List α)}
    {spells : β → List α → Prop} (h : Recognizes read spells)
    {letters rest : List α} {value : β}
    (hread : read letters = some (value, rest)) :
    rest.length ≤ letters.length := by
  obtain ⟨front, rfl, -⟩ := (h letters value rest).mp hread
  rw [List.length_append]
  exact Nat.le_add_left _ _

/-- Base 128: at most so many bytes, all but the last one of them 128 or
more. -/
inductive SpellsVarint : ℕ → ℕ → List UInt8 → Prop
  | last (limit : ℕ) (byte : UInt8) (hbyte : byte.toNat < 128) :
      SpellsVarint (limit + 1) byte.toNat [byte]
  | more (limit high : ℕ) (byte : UInt8) (bytes : List UInt8)
      (hbyte : 128 ≤ byte.toNat) (hhigh : SpellsVarint limit high bytes) :
      SpellsVarint (limit + 1) (byte.toNat - 128 + 128 * high)
        (byte :: bytes)

theorem SpellsVarint.ne_nil {limit value : ℕ} {bytes : List UInt8}
    (h : SpellsVarint limit value bytes) : bytes ≠ [] := by
  cases h <;> simp

theorem recognizes_varint (limit : ℕ) :
    Recognizes (readVarintAux limit) (SpellsVarint limit) := by
  intro letters value rest
  constructor
  · intro hread
    induction limit generalizing letters value with
    | zero => simp [readVarintAux] at hread
    | succ limit ih =>
        cases letters with
        | nil => simp [readVarintAux] at hread
        | cons byte letters =>
            rw [readVarintAux] at hread
            by_cases hbyte : byte.toNat < 128
            · rw [if_pos hbyte] at hread
              cases hread
              exact ⟨[byte], rfl, .last limit byte hbyte⟩
            · rw [if_neg hbyte] at hread
              cases hhigh : readVarintAux limit letters with
              | none => simp [hhigh] at hread
              | some result =>
                  obtain ⟨high, tail⟩ := result
                  simp only [hhigh, Option.some.injEq,
                    Prod.mk.injEq] at hread
                  obtain ⟨rfl, rfl⟩ := hread
                  obtain ⟨front, rfl, hspells⟩ := ih _ _ hhigh
                  exact ⟨byte :: front, rfl,
                    .more limit high byte front (by omega) hspells⟩
  · rintro ⟨front, rfl, hspells⟩
    induction hspells with
    | last limit byte hbyte =>
        rw [List.singleton_append, readVarintAux, if_pos hbyte]
    | more limit high byte bytes hbyte _ ih =>
        rw [List.cons_append, readVarintAux, if_neg (by omega), ih]

/-- What is written has as many bytes as the number has groups of seven bits. -/
theorem length_writeVarintAux (groups : ℕ) {limit value : ℕ}
    (hlimit : groups < limit) (hlow : groups = 0 ∨ 128 ^ groups ≤ value)
    (hhigh : value < 128 ^ (groups + 1)) :
    (writeVarintAux limit value).length = groups + 1 := by
  induction groups generalizing limit value with
  | zero =>
      obtain ⟨limit, rfl⟩ := Nat.exists_eq_add_one.mpr hlimit
      rw [writeVarintAux, if_pos (by omega), List.length_singleton]
  | succ groups ih =>
      obtain ⟨limit, rfl⟩ := Nat.exists_eq_add_one.mpr
        (Nat.zero_lt_of_lt hlimit)
      have hpower : 0 < 128 ^ groups := Nat.pow_pos (by omega)
      have hvalue : 128 ^ groups * 128 ≤ value := by
        rcases hlow with hzero | hlow
        · omega
        · rwa [Nat.pow_succ] at hlow
      rw [Nat.pow_succ] at hhigh
      rw [writeVarintAux, if_neg (by omega), List.length_cons,
        ih (by omega) (by omega) (by omega)]

/-- A varint of which the low 32 bits count. -/
def SpellsVarint32 (value : ℕ) (bytes : List UInt8) : Prop :=
  ∃ n, SpellsVarint 10 n bytes ∧ value = n % 2 ^ 32

theorem SpellsVarint32.ne_nil {value : ℕ} {bytes : List UInt8}
    (h : SpellsVarint32 value bytes) : bytes ≠ [] := by
  obtain ⟨n, hn, -⟩ := h
  exact hn.ne_nil

theorem recognizes_varint32 : Recognizes readVarint32 SpellsVarint32 := by
  intro letters value rest
  have hvarint := recognizes_varint 10 letters
  unfold readVarint32
  cases hread : readVarintAux 10 letters with
  | none =>
      simp only [reduceCtorEq, false_iff]
      rintro ⟨front, hletters, n, hn, -⟩
      have hsome := (hvarint n rest).mpr ⟨front, hletters, hn⟩
      rw [hread] at hsome
      contradiction
  | some result =>
      obtain ⟨n, tail⟩ := result
      simp only [Option.some.injEq, Prod.mk.injEq]
      constructor
      · rintro ⟨rfl, rfl⟩
        obtain ⟨front, hletters, hn⟩ := (hvarint n tail).mp hread
        exact ⟨front, hletters, n, hn, rfl⟩
      · rintro ⟨front, hletters, m, hm, rfl⟩
        have hsome := (hvarint m rest).mpr ⟨front, hletters, hm⟩
        rw [hread] at hsome
        cases hsome
        exact ⟨rfl, rfl⟩

/-- A tag that is not zero. -/
theorem readTag_eq_iff {letters rest : List UInt8} {tag : ℕ}
    (htag : tag ≠ 0) :
    readTag letters = (tag, rest) ↔
      ∃ front, letters = front ++ rest ∧ SpellsVarint32 tag front := by
  rw [← recognizes_varint32 letters tag rest, readTag]
  cases readVarint32 letters with
  | none =>
      simp only [Option.getD_none, Prod.mk.injEq, reduceCtorEq, iff_false]
      rintro ⟨rfl, -⟩
      exact htag rfl
  | some result => simp only [Option.getD_some, Option.some.injEq]

theorem recognizes_raw (count : ℕ) :
    Recognizes (readRaw count)
      (fun text bytes => text = bytes ∧ text.length = count) := by
  intro letters text rest
  unfold readRaw
  constructor
  · intro hread
    split_ifs at hread with hcount
    cases hread
    exact ⟨_, (List.take_append_drop count letters).symm, rfl,
      List.length_take_of_le hcount⟩
  · rintro ⟨front, rfl, rfl, rfl⟩
    rw [if_pos (by simp), List.take_left' rfl, List.drop_left' rfl]

/-- A text behind its length, which is not negative as an `int`. -/
inductive SpellsString : List UInt8 → List UInt8 → Prop
  | intro (text head : List UInt8) (hlength : text.length < 2 ^ 31)
      (hhead : SpellsVarint32 text.length head) :
      SpellsString text (head ++ text)

theorem recognizes_string : Recognizes readString SpellsString := by
  intro letters text rest
  unfold readString
  constructor
  · intro hread
    cases hlength : readVarint32 letters with
    | none => simp [hlength] at hread
    | some result =>
        obtain ⟨length, tail⟩ := result
        simp only [hlength] at hread
        obtain ⟨head, rfl, hhead⟩ :=
          (recognizes_varint32 letters length tail).mp hlength
        split_ifs at hread with hsmall
        obtain ⟨front, rfl, rfl, rfl⟩ :=
          (recognizes_raw length tail text rest).mp hread
        exact ⟨head ++ text, (List.append_assoc _ _ _).symm,
          .intro text head hsmall hhead⟩
  · rintro ⟨front, rfl, hspells⟩
    obtain ⟨head, hlength, hhead⟩ := hspells
    have hread := (recognizes_varint32 (head ++ (text ++ rest)) text.length
      (text ++ rest)).mpr ⟨head, rfl, hhead⟩
    rw [List.append_assoc, hread]
    dsimp only
    rw [if_pos hlength]
    exact (recognizes_raw text.length _ text rest).mpr
      ⟨text, rfl, rfl, rfl⟩

/-! ## Unknown fields -/

mutual

/-- What may follow the tag of a field that is skipped.  `depth` bounds how
deep its groups are nested. -/
inductive SpellsUnknown : ℕ → ℕ → List UInt8 → Prop
  | varint (depth tag n : ℕ) (bytes : List UInt8) (htype : tag % 8 = 0)
      (hvarint : SpellsVarint 10 n bytes) : SpellsUnknown depth tag bytes
  | fixed64 (depth tag : ℕ) (bytes : List UInt8) (htype : tag % 8 = 1)
      (hlength : bytes.length = 8) : SpellsUnknown depth tag bytes
  | delimited (depth tag : ℕ) (text bytes : List UInt8)
      (htype : tag % 8 = 2) (hstring : SpellsString text bytes) :
      SpellsUnknown depth tag bytes
  | group (depth tag : ℕ) (bytes : List UInt8) (htype : tag % 8 = 3)
      (hgroup : SpellsGroup depth (tag / 8) bytes) :
      SpellsUnknown (depth + 1) tag bytes
  | fixed32 (depth tag : ℕ) (bytes : List UInt8) (htype : tag % 8 = 5)
      (hlength : bytes.length = 4) : SpellsUnknown depth tag bytes

/-- The fields of a group, up to the END_GROUP tag of its number. -/
inductive SpellsGroup : ℕ → ℕ → List UInt8 → Prop
  | close (depth tag : ℕ) (bytes : List UInt8) (htag : tag ≠ 0)
      (htype : tag % 8 = 4) (hspells : SpellsVarint32 tag bytes) :
      SpellsGroup depth (tag / 8) bytes
  | field (depth number tag : ℕ) (head body rest : List UInt8)
      (htag : tag ≠ 0) (htype : tag % 8 ≠ 4)
      (hhead : SpellsVarint32 tag head)
      (hbody : SpellsUnknown depth tag body)
      (hrest : SpellsGroup depth number rest) :
      SpellsGroup depth number (head ++ (body ++ rest))

end

theorem SpellsGroup.ne_nil {depth number : ℕ} {bytes : List UInt8}
    (h : SpellsGroup depth number bytes) : bytes ≠ [] := by
  cases h with
  | close _ _ _ _ _ hspells => exact hspells.ne_nil
  | field _ _ _ head body rest _ _ hhead =>
      intro hnil
      exact hhead.ne_nil (List.append_eq_nil_iff.mp hnil).1

theorem spells_of_skip (fuel : ℕ) :
    (∀ depth tag bytes rest, skipField fuel depth tag bytes = some rest →
      ∃ front, bytes = front ++ rest ∧ SpellsUnknown depth tag front) ∧
    ∀ depth number bytes rest,
      skipGroup fuel depth number bytes = some rest →
        ∃ front, bytes = front ++ rest ∧ SpellsGroup depth number front := by
  induction fuel with
  | zero =>
      constructor
      · intro depth tag bytes rest hskip
        simp [skipField] at hskip
      · intro depth number bytes rest hskip
        simp [skipGroup] at hskip
  | succ fuel ih =>
      obtain ⟨ihField, ihGroup⟩ := ih
      constructor
      · intro depth tag bytes rest hskip
        unfold skipField at hskip
        split at hskip
        next htype =>
          obtain ⟨⟨n, tail⟩, hread, rfl⟩ := Option.map_eq_some_iff.mp hskip
          unfold readVarint64 at hread
          cases hvarint : readVarintAux 10 bytes with
          | none => simp [hvarint] at hread
          | some result =>
              obtain ⟨m, after⟩ := result
              simp only [hvarint, Option.some.injEq,
                Prod.mk.injEq] at hread
              obtain ⟨-, rfl⟩ := hread
              obtain ⟨front, rfl, hspells⟩ :=
                (recognizes_varint 10 bytes m after).mp hvarint
              exact ⟨front, rfl, .varint depth tag m front htype hspells⟩
        next htype =>
          obtain ⟨⟨text, tail⟩, hread, rfl⟩ :=
            Option.map_eq_some_iff.mp hskip
          obtain ⟨front, rfl, rfl, hlength⟩ :=
            (recognizes_raw 8 bytes text tail).mp hread
          exact ⟨text, rfl, .fixed64 depth tag text htype hlength⟩
        next htype =>
          obtain ⟨⟨text, tail⟩, hread, rfl⟩ :=
            Option.map_eq_some_iff.mp hskip
          obtain ⟨front, rfl, hspells⟩ :=
            (recognizes_string bytes text tail).mp hread
          exact ⟨front, rfl, .delimited depth tag text front htype hspells⟩
        next htype =>
          cases depth with
          | zero => simp at hskip
          | succ depth =>
              obtain ⟨front, rfl, hspells⟩ := ihGroup _ _ _ _ hskip
              exact ⟨front, rfl, .group depth tag front htype hspells⟩
        next htype =>
          obtain ⟨⟨text, tail⟩, hread, rfl⟩ :=
            Option.map_eq_some_iff.mp hskip
          obtain ⟨front, rfl, rfl, hlength⟩ :=
            (recognizes_raw 4 bytes text tail).mp hread
          exact ⟨text, rfl, .fixed32 depth tag text htype hlength⟩
        next => contradiction
      · intro depth number bytes rest hskip
        rw [skipGroup] at hskip
        split_ifs at hskip with hzero hend hnumber
        · cases hskip
          obtain ⟨front, hbytes, hspells⟩ := (readTag_eq_iff hzero).mp
            rfl
          exact ⟨front, hbytes, hnumber ▸ .close depth _ front hzero hend
            hspells⟩
        · obtain ⟨head, hbytes, hhead⟩ := (readTag_eq_iff hzero).mp
            rfl
          cases hfield : skipField fuel depth (readTag bytes).1
              (readTag bytes).2 with
          | none => simp [hfield] at hskip
          | some after =>
              simp only [hfield] at hskip
              obtain ⟨body, hbody, hspells⟩ := ihField _ _ _ _ hfield
              obtain ⟨more, hmore, hgroup⟩ := ihGroup _ _ _ _ hskip
              refine ⟨head ++ (body ++ more), ?_,
                .field depth number _ head body more hzero hend hhead
                  hspells hgroup⟩
              rw [List.append_assoc, List.append_assoc, ← hmore, ← hbody]
              exact hbytes

theorem skip_of_spells (fuel : ℕ) :
    (∀ depth tag front rest, SpellsUnknown depth tag front →
      front.length < fuel →
        skipField fuel depth tag (front ++ rest) = some rest) ∧
    ∀ depth number front rest, SpellsGroup depth number front →
      front.length ≤ fuel →
        skipGroup fuel depth number (front ++ rest) = some rest := by
  induction fuel with
  | zero =>
      refine ⟨fun depth tag front rest _ hfuel => by omega, ?_⟩
      intro depth number front rest hspells hfuel
      exact absurd (List.length_eq_zero_iff.mp (Nat.le_zero.mp hfuel))
        hspells.ne_nil
  | succ fuel ih =>
      obtain ⟨ihField, ihGroup⟩ := ih
      constructor
      · intro depth tag front rest hspells hfuel
        unfold skipField
        cases hspells with
        | varint _ _ n _ htype hvarint =>
            have hread := (recognizes_varint 10 (front ++ rest) n rest).mpr
              ⟨front, rfl, hvarint⟩
            simp [htype, readVarint64, hread]
        | fixed64 _ _ _ htype hlength =>
            have hread := (recognizes_raw 8 (front ++ rest) front rest).mpr
              ⟨front, rfl, rfl, hlength⟩
            simp [htype, hread]
        | delimited _ _ text _ htype hstring =>
            have hread := (recognizes_string (front ++ rest) text rest).mpr
              ⟨front, rfl, hstring⟩
            simp [htype, hread]
        | group depth _ _ htype hgroup =>
            have hskip := ihGroup depth (tag / 8) front rest hgroup
              (by omega)
            simp [htype, hskip]
        | fixed32 _ _ _ htype hlength =>
            have hread := (recognizes_raw 4 (front ++ rest) front rest).mpr
              ⟨front, rfl, rfl, hlength⟩
            simp [htype, hread]
      · intro depth number front rest hspells hfuel
        rw [skipGroup]
        cases hspells with
        | close _ tag _ htag htype hspells =>
            have htagRead : readTag (front ++ rest) = (tag, rest) :=
              (readTag_eq_iff htag).mpr ⟨front, rfl, hspells⟩
            simp [htagRead, htag, htype]
        | field _ _ tag head body more htag htype hhead hbody hrest =>
            have hheadLength := List.length_pos_of_ne_nil hhead.ne_nil
            have hmoreLength := List.length_pos_of_ne_nil hrest.ne_nil
            simp only [List.length_append] at hfuel
            rw [List.append_assoc, List.append_assoc]
            have htagRead : readTag (head ++ (body ++ (more ++ rest))) =
                (tag, body ++ (more ++ rest)) :=
              (readTag_eq_iff htag).mpr ⟨head, rfl, hhead⟩
            rw [htagRead, if_neg htag, if_neg htype,
              ihField depth tag body (more ++ rest) hbody (by omega)]
            exact ihGroup depth number more rest hrest (by omega)

/-- With fuel for every byte the fuel does not matter. -/
theorem skipField_eq_some_iff {fuel depth tag : ℕ} {bytes rest : List UInt8}
    (hfuel : bytes.length < fuel) :
    skipField fuel depth tag bytes = some rest ↔
      ∃ front, bytes = front ++ rest ∧ SpellsUnknown depth tag front := by
  constructor
  · exact (spells_of_skip fuel).1 depth tag bytes rest
  · rintro ⟨front, rfl, hspells⟩
    rw [List.length_append] at hfuel
    exact (skip_of_spells fuel).1 depth tag front rest hspells (by omega)

end Foundation.ProtobufWire
