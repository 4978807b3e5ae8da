import LibChromecast.Foundation.WireRuntime

/-!
# The loop of a generated parser

What protobuf generates for a message is a loop around a switch over tags.
`loop` reads a tag in every round.  `jumping` is the loop as it is generated:
at the end of a case it looks whether the next field in field order comes
next, and if it does, goes on behind the test of its tag.  The two do the same,
whatever the cases do.
-/

namespace Foundation.ProtobufWire

/-- A switch over tags of one byte, which `runtime` reads.  `κ` are its cases,
and `σ` is the message that is read into. -/
structure FieldSwitch (κ σ : Type*) where
  runtime : WireRuntime
  tag : κ → ℕ
  ofTag : ℕ → Option κ
  /-- The case whose tag is expected behind this one. -/
  following : κ → Option κ
  /-- What stands behind the label of a case. -/
  read : κ → σ → List UInt8 → Option (σ × List UInt8)
  /-- What becomes of a field without a case, behind its tag. -/
  skip : ℕ → σ → List UInt8 → Option (σ × List UInt8)
  ofTag_eq_some_iff : ∀ {number case},
    ofTag number = some case ↔ number = tag case
  tag_pos : ∀ case, 0 < tag case
  tag_lt : ∀ case, tag case < 128
  length_of_read : ∀ {case state after bytes rest},
    read case state bytes = some (after, rest) → rest.length ≤ bytes.length
  length_of_skip : ∀ {number state after bytes rest},
    skip number state bytes = some (after, rest) →
      rest.length ≤ bytes.length

/-- Where the control flow goes at the end of a case. -/
inductive Goto (κ : Type*) where
  | success
  | label (next : κ)
  | round

namespace FieldSwitch

variable {κ σ : Type*} (switch : FieldSwitch κ σ)

/-- The loop without its jumps.  It ends at a zero tag, at an END_GROUP tag
and at the end of the input. -/
def loop : ℕ → σ → List UInt8 → Option σ
  | 0, _, _ => none
  | fuel + 1, state, bytes =>
      let (number, rest) := switch.runtime.readTag bytes
      match switch.ofTag number with
      | some case => do
          let (state, rest) ← switch.read case state rest
          loop fuel state rest
      | none =>
          if number = 0 ∨ number % 8 = 4 then some state
          else do
            let (state, rest) ← switch.skip number state rest
            loop fuel state rest

section Jumping

variable (buffered : List UInt8 → Bool)

/-- `ExpectTag` of the tag of the next field; `ExpectAtEnd` where there is no
next field.  Both look at the buffer of the coded stream alone: `buffered` says
of the rest of the input whether what they look for would be seen there. -/
def expect (bytes : List UInt8) (case : κ) : Goto κ × List UInt8 :=
  if buffered bytes then
    match switch.following case, bytes with
    | none, [] => (.success, [])
    | some next, byte :: rest =>
        if byte.toNat = switch.tag next then (.label next, rest)
        else (.round, byte :: rest)
    | _, bytes => (.round, bytes)
  else (.round, bytes)

/-- The rest of a case, from its label on. -/
def finish (goOn : Option κ → σ → List UInt8 → Option σ) (case : κ)
    (state : σ) (bytes : List UInt8) : Option σ := do
  let (state, rest) ← switch.read case state bytes
  match switch.expect buffered rest case with
  | (.success, _) => some state
  | (.label next, rest) => goOn (some next) state rest
  | (.round, rest) => goOn none state rest

/-- The loop with its jumps: at the label of a case, or at its head. -/
def jumping : ℕ → Option κ → σ → List UInt8 → Option σ
  | 0, _, _, _ => none
  | fuel + 1, some case, state, bytes =>
      switch.finish buffered (jumping fuel) case state bytes
  | fuel + 1, none, state, bytes =>
      let (number, rest) := switch.runtime.readTag bytes
      match switch.ofTag number with
      | some case => switch.finish buffered (jumping fuel) case state rest
      | none =>
          if number = 0 ∨ number % 8 = 4 then some state
          else do
            let (state, rest) ← switch.skip number state rest
            jumping fuel none state rest

end Jumping

/-! ## One round -/

variable {switch} {state after : σ} {bytes head body rest : List UInt8}
  {fuel number : ℕ} {case : κ}

theorem loop_of_tag
    (htag : switch.runtime.readTag bytes = (switch.tag case, rest)) :
    switch.loop (fuel + 1) state bytes =
      (switch.read case state rest).bind fun read =>
        switch.loop fuel read.1 read.2 := by
  rw [loop, htag]
  simp only [switch.ofTag_eq_some_iff.mpr rfl]
  rfl

theorem loop_of_unknown
    (htag : switch.runtime.readTag bytes = (number, rest))
    (hunknown : switch.ofTag number = none)
    (hgoes : ¬(number = 0 ∨ number % 8 = 4)) :
    switch.loop (fuel + 1) state bytes =
      (switch.skip number state rest).bind fun read =>
        switch.loop fuel read.1 read.2 := by
  rw [loop, htag]
  simp only [hunknown, if_neg hgoes]
  rfl

theorem loop_of_end (htag : switch.runtime.readTag bytes = (number, rest))
    (hunknown : switch.ofTag number = none)
    (hends : number = 0 ∨ number % 8 = 4) :
    switch.loop (fuel + 1) state bytes = some state := by
  rw [loop, htag]
  simp only [hunknown, if_pos hends]

theorem loop_nil : switch.loop (fuel + 1) state [] = some state := by
  have hnone : switch.ofTag 0 = none := by
    cases hcase : switch.ofTag 0 with
    | none => rfl
    | some case =>
        have hzero := switch.ofTag_eq_some_iff.mp hcase
        exact absurd hzero (Nat.ne_of_lt (switch.tag_pos case))
  have htag := switch.runtime.readTag_nil
  cases hread : switch.runtime.readTag [] with
  | mk number rest =>
    rw [hread] at htag
    subst htag
    exact loop_of_end hread hnone (Or.inl rfl)

/-- With fuel for every byte the fuel does not matter. -/
theorem loop_congr_fuel {other : ℕ} (hfuel : bytes.length < fuel)
    (hother : bytes.length < other) :
    switch.loop fuel state bytes = switch.loop other state bytes := by
  induction fuel generalizing other state bytes with
  | zero => exact absurd hfuel (Nat.not_lt_zero _)
  | succ fuel ih =>
      obtain ⟨other, rfl⟩ := Nat.exists_eq_add_one.mpr
        (Nat.zero_lt_of_lt hother)
      cases htag : switch.runtime.readTag bytes with
      | mk number rest =>
        cases hcase : switch.ofTag number with
        | some case =>
            have hnumber := switch.ofTag_eq_some_iff.mp hcase
            subst hnumber
            have hrest := switch.runtime.length_of_readTag htag
              (Nat.ne_of_gt (switch.tag_pos case))
            rw [loop_of_tag htag, loop_of_tag htag]
            refine Option.bind_congr fun r hread => ?_
            have hshorter := switch.length_of_read hread
            exact ih (by omega) (by omega)
        | none =>
            by_cases hends : number = 0 ∨ number % 8 = 4
            · rw [loop_of_end htag hcase hends, loop_of_end htag hcase hends]
            · have hrest := switch.runtime.length_of_readTag htag
                fun hzero => hends (Or.inl hzero)
              rw [loop_of_unknown htag hcase hends,
                loop_of_unknown htag hcase hends]
              refine Option.bind_congr fun r hskip => ?_
              have hshorter := switch.length_of_skip hskip
              exact ih (by omega) (by omega)

/-! ## The jumps make no difference -/

theorem expect_cases (switch : FieldSwitch κ σ)
    (buffered : List UInt8 → Bool) (bytes : List UInt8) (case : κ) :
    (bytes = [] ∧ switch.expect buffered bytes case = (.success, [])) ∨
      (∃ next byte rest, bytes = byte :: rest ∧
        byte.toNat = switch.tag next ∧
        switch.expect buffered bytes case = (.label next, rest)) ∨
      switch.expect buffered bytes case = (.round, bytes) := by
  unfold expect
  by_cases hbuffered : buffered bytes = true
  · rw [if_pos hbuffered]
    split
    next => exact Or.inl ⟨rfl, rfl⟩
    next next byte rest _ =>
      split_ifs with htag
      · exact Or.inr (Or.inl ⟨next, byte, rest, rfl, htag, rfl⟩)
      · exact Or.inr (Or.inr rfl)
    next => exact Or.inr (Or.inr rfl)
  · rw [if_neg hbuffered]
    exact Or.inr (Or.inr rfl)

/-- Where a case ends, the loop without jumps goes on with the next round. -/
theorem finish_eq {buffered : List UInt8 → Bool}
    {goOn : Option κ → σ → List UInt8 → Option σ} (hfuel : 0 < fuel)
    (hlabel : ∀ (next : κ) (byte : UInt8) (state : σ) (rest : List UInt8),
      byte.toNat = switch.tag next → rest.length + 1 ≤ bytes.length →
        goOn (some next) state rest =
          switch.loop fuel state (byte :: rest))
    (hround : ∀ (state : σ) (rest : List UInt8),
      rest.length ≤ bytes.length →
        goOn none state rest = switch.loop fuel state rest) :
    switch.finish buffered goOn case state bytes =
      (switch.read case state bytes).bind fun read =>
        switch.loop fuel read.1 read.2 := by
  unfold finish
  cases hread : switch.read case state bytes with
  | none => rfl
  | some read =>
      obtain ⟨after, rest⟩ := read
      have hlength := switch.length_of_read hread
      simp only [Option.bind_some, Option.bind_eq_bind]
      rcases expect_cases switch buffered rest case with
        ⟨rfl, hsuccess⟩ | ⟨next, byte, tail, rfl, htag, hjump⟩ | hround'
      · obtain ⟨fuel, rfl⟩ := Nat.exists_eq_add_one.mpr hfuel
        rw [hsuccess, loop_nil]
      · rw [hjump]
        exact hlabel next byte after tail htag hlength
      · rw [hround']
        exact hround after rest hlength

/-- With fuel for every byte, the loop with its jumps does what the loop
without them does. -/
theorem jumping_eq (buffered : List UInt8 → Bool) (fuel : ℕ) :
    (∀ (state : σ) (bytes : List UInt8), bytes.length < fuel →
      switch.jumping buffered fuel none state bytes =
        switch.loop fuel state bytes) ∧
    ∀ (case : κ) (byte : UInt8) (state : σ) (rest : List UInt8),
      byte.toNat = switch.tag case → rest.length + 1 < fuel →
        switch.jumping buffered fuel (some case) state rest =
          switch.loop fuel state (byte :: rest) := by
  induction fuel with
  | zero => exact ⟨fun _ _ h => absurd h (Nat.not_lt_zero _),
      fun _ _ _ _ _ h => absurd h (Nat.not_lt_zero _)⟩
  | succ fuel ih =>
      obtain ⟨hround, hlabel⟩ := ih
      have hfinish : ∀ (case : κ) (state : σ) (rest : List UInt8),
          rest.length < fuel →
            switch.finish buffered (switch.jumping buffered fuel) case
                state rest =
              (switch.read case state rest).bind fun read =>
                switch.loop fuel read.1 read.2 :=
        fun case state rest hlength => finish_eq (by omega)
          (fun next byte after tail htag htail =>
            hlabel next byte after tail htag (by omega))
          fun after tail htail => hround after tail (by omega)
      refine ⟨fun state bytes hlength => ?_,
        fun case byte state rest htag hlength => ?_⟩
      · rw [jumping]
        cases htag : switch.runtime.readTag bytes with
        | mk number rest =>
          dsimp only
          cases hcase : switch.ofTag number with
          | some case =>
              have hnumber := switch.ofTag_eq_some_iff.mp hcase
              subst hnumber
              have hrest := switch.runtime.length_of_readTag htag
                (Nat.ne_of_gt (switch.tag_pos case))
              rw [loop_of_tag htag]
              exact hfinish case state rest (by omega)
          | none =>
              dsimp only
              by_cases hends : number = 0 ∨ number % 8 = 4
              · rw [if_pos hends, loop_of_end htag hcase hends]
              · rw [if_neg hends, loop_of_unknown htag hcase hends]
                have hrest := switch.runtime.length_of_readTag htag
                  fun hzero => hends (Or.inl hzero)
                cases hskip : switch.skip number state rest with
                | none => rfl
                | some read =>
                    have hshorter := switch.length_of_skip hskip
                    exact hround read.1 read.2 (by omega)
      · have hread : switch.runtime.readTag (byte :: rest) =
            (switch.tag case, rest) := by
          rw [WireRuntime.readTag_cons (htag ▸ switch.tag_pos case)
            (htag ▸ switch.tag_lt case), htag]
        rw [jumping, loop_of_tag hread]
        exact hfinish case state rest (by omega)

/-! ## Invariants -/

/-- What every round keeps, of the message and of the rest of the input. -/
theorem loop_invariant {P : σ → List UInt8 → Prop}
    (hread : ∀ {case state after bytes tail rest},
      switch.runtime.readTag bytes = (switch.tag case, tail) →
        switch.read case state tail = some (after, rest) →
          P state bytes → P after rest)
    (hskip : ∀ {number state after bytes tail rest},
      switch.runtime.readTag bytes = (number, tail) →
        number ≠ 0 → number % 8 ≠ 4 →
        switch.ofTag number = none →
          switch.skip number state tail = some (after, rest) →
            P state bytes → P after rest)
    (hloop : switch.loop fuel state bytes = some after)
    (hstart : P state bytes) : ∃ rest, P after rest := by
  induction fuel generalizing state bytes with
  | zero => simp [loop] at hloop
  | succ fuel ih =>
      cases htag : switch.runtime.readTag bytes with
      | mk number tail =>
        cases hcase : switch.ofTag number with
        | some case =>
            have hnumber := switch.ofTag_eq_some_iff.mp hcase
            subst hnumber
            rw [loop_of_tag htag] at hloop
            obtain ⟨⟨middle, rest⟩, hmiddle, hmore⟩ :=
              Option.bind_eq_some_iff.mp hloop
            exact ih hmore (hread htag hmiddle hstart)
        | none =>
            by_cases hends : number = 0 ∨ number % 8 = 4
            · rw [loop_of_end htag hcase hends, Option.some.injEq] at hloop
              exact ⟨bytes, hloop ▸ hstart⟩
            · rw [loop_of_unknown htag hcase hends] at hloop
              rw [not_or] at hends
              obtain ⟨⟨middle, rest⟩, hmiddle, hmore⟩ :=
                Option.bind_eq_some_iff.mp hloop
              exact ih hmore
                (hskip htag hends.1 hends.2 hcase hmiddle hstart)

/-! ## Fields one after the other -/

/-- One round reads these bytes, whatever follows them. -/
def Round (switch : FieldSwitch κ σ) (state : σ) (front : List UInt8)
    (after : σ) : Prop :=
  front ≠ [] ∧ ∀ fuel rest,
    switch.loop (fuel + 1) state (front ++ rest) =
      switch.loop fuel after rest

inductive Rounds (switch : FieldSwitch κ σ) : σ → List UInt8 → σ → Prop
  | nil (state : σ) : Rounds switch state [] state
  | cons {state middle after : σ} {front bytes : List UInt8}
      (hfirst : switch.Round state front middle)
      (hrest : Rounds switch middle bytes after) :
      Rounds switch state (front ++ bytes) after

theorem Rounds.single {front : List UInt8}
    (h : switch.Round state front after) :
    switch.Rounds state front after := by
  have hone := Rounds.cons h (.nil after)
  rwa [List.append_nil] at hone

theorem Rounds.append {middle : σ} {front : List UInt8}
    (h : switch.Rounds state front middle)
    (hmore : switch.Rounds middle bytes after) :
    switch.Rounds state (front ++ bytes) after := by
  induction h with
  | nil => exact hmore
  | cons hfirst _ ih =>
      rw [List.append_assoc]
      exact .cons hfirst (ih hmore)

theorem Rounds.loop (h : switch.Rounds state bytes after)
    (hfuel : bytes.length < fuel) :
    switch.loop fuel state bytes = some after := by
  induction h generalizing fuel with
  | nil =>
      obtain ⟨fuel, rfl⟩ := Nat.exists_eq_add_one.mpr hfuel
      exact loop_nil
  | cons hfirst _ ih =>
      have hpos := List.length_pos_of_ne_nil hfirst.1
      rw [List.length_append] at hfuel
      obtain ⟨fuel, rfl⟩ := Nat.exists_eq_add_one.mpr
        (Nat.zero_lt_of_lt hfuel)
      rw [hfirst.2]
      exact ih (by omega)

theorem round_of_read (hhead : SpellsVarint32 (switch.tag case) head)
    (hread : ∀ rest,
      switch.read case state (body ++ rest) = some (after, rest)) :
    switch.Round state (head ++ body) after := by
  refine ⟨fun hnil => hhead.ne_nil (List.append_eq_nil_iff.mp hnil).1,
    fun fuel rest => ?_⟩
  have htag := (switch.runtime.readTag_eq_iff
    (Nat.ne_of_gt (switch.tag_pos case))).mpr
      ⟨head, List.append_assoc head body rest, hhead⟩
  rw [loop_of_tag htag, hread]
  rfl

theorem round_of_skip (hhead : SpellsVarint32 number head)
    (hzero : number ≠ 0) (htype : number % 8 ≠ 4)
    (hunknown : switch.ofTag number = none)
    (hskip : ∀ rest,
      switch.skip number state (body ++ rest) = some (after, rest)) :
    switch.Round state (head ++ body) after := by
  refine ⟨fun hnil => hhead.ne_nil (List.append_eq_nil_iff.mp hnil).1,
    fun fuel rest => ?_⟩
  have htag := (switch.runtime.readTag_eq_iff hzero).mpr
    ⟨head, List.append_assoc head body rest, hhead⟩
  rw [loop_of_unknown htag hunknown (not_or.mpr ⟨hzero, htype⟩), hskip]
  rfl

end FieldSwitch

end Foundation.ProtobufWire
