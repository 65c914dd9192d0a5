import Mathlib.Data.FinEnum
import Mathlib.NumberTheory.Zsqrtd.GaussianInt

/-!
# The economic mixer

The first loop of `rtlsdr_callback` converts the unsigned bytes of the receiver
to signed ones and turns the n-th complex sample by n quarter turns, in place
and eight bytes at a time.  The full scale byte 0 stands for -128, whose
negative has no signed byte.
-/

namespace RtlsdrFt8d

/-! ## The loop -/

/-- `sigIn[i] ^ 0x80` stored in an `int8_t`: the operand is promoted to `int`
and the result truncated. -/
def flipSign (value : Int8) : Int8 :=
  (value.toInt32 ^^^ 0x80).toInt8

/-- `-tmp` stored in an `int8_t`. -/
def negateStored (value : Int8) : Int8 :=
  (-value.toInt32).toInt8

/-- `-(sigIn[i] ^ 0x80)` stored in an `int8_t`. -/
def negateFlipped (value : Int8) : Int8 :=
  (-(value.toInt32 ^^^ 0x80)).toInt8

/-- The conversion loop.  The bindings of one iteration are the assignments of
its body, in their order. -/
def economicMixer : List Int8 → List Int8
  | s0 :: s1 :: s2 :: s3 :: s4 :: s5 :: s6 :: s7 :: rest =>
      let s0 := flipSign s0
      let s1 := flipSign s1
      let tmp := flipSign s3
      let s3 := flipSign s2
      let s2 := negateStored tmp
      let s4 := negateFlipped s4
      let s5 := negateFlipped s5
      let tmp := flipSign s6
      let s6 := flipSign s7
      let s7 := negateStored tmp
      s0 :: s1 :: s2 :: s3 :: s4 :: s5 :: s6 :: s7 :: economicMixer rest
  | rest => rest

/-- A buffer as librtlsdr hands it to the callback, in whole groups of eight
bytes. -/
structure SampleBuffer where
  bytes : List UInt8
  whole : 8 ∣ bytes.length

/-- `sigIn` after the loop; the cast of `samples` keeps the bits. -/
def SampleBuffer.mixed (samples : SampleBuffer) : List Int8 :=
  economicMixer (samples.bytes.map UInt8.toInt8)

/-! ## Exact rotation -/

/-- The quarter turn. -/
def quarterTurn : GaussianInt :=
  ⟨0, 1⟩

/-- The value a byte stands for is the exact one, or next to it where no signed
byte is exact. -/
def Represents (value : Int8) (exact : Int) : Prop :=
  value.toInt = exact ∨ exact = 128 ∧ |value.toInt - exact| ≤ 1

instance (value : Int8) (exact : Int) : Decidable (Represents value exact) :=
  inferInstanceAs (Decidable (_ ∨ _))

/-- The complex value of two unsigned bytes. -/
def sampleValue (byteI byteQ : UInt8) : GaussianInt :=
  ⟨byteI.toNat - 128, byteQ.toNat - 128⟩

/-- The n-th complex sample after the loop is the one before it, turned by n
quarter turns. -/
def RotatesExactly (bytes : List UInt8) (sigIn : List Int8) : Prop :=
  ∀ n byteI byteQ, bytes[2 * n]? = some byteI → bytes[2 * n + 1]? = some byteQ →
    ∃ valueI valueQ, sigIn[2 * n]? = some valueI ∧ sigIn[2 * n + 1]? = some valueQ ∧
      Represents valueI (sampleValue byteI byteQ * quarterTurn ^ n).re ∧
      Represents valueQ (sampleValue byteI byteQ * quarterTurn ^ n).im

/-- No byte that the loop negates is at full scale.  These are the middle four
of each group of eight. -/
def NoNegatedFullScale (bytes : List UInt8) : Prop :=
  ∀ (i : Nat) (byte : UInt8), bytes[i]? = some byte → 3 ≤ i % 8 → i % 8 ≤ 6 → byte ≠ 0

/-! ## One byte -/

theorem represents_flipSign :
    ∀ byte : UInt8, Represents (flipSign byte.toInt8) (byte.toNat - 128) := by
  decide +kernel

theorem represents_negateFlipped_iff :
    ∀ byte : UInt8,
      Represents (negateFlipped byte.toInt8) (-(byte.toNat - 128)) ↔ byte ≠ 0 := by
  decide +kernel

theorem represents_negateStored_iff :
    ∀ byte : UInt8,
      Represents (negateStored (flipSign byte.toInt8)) (-(byte.toNat - 128)) ↔ byte ≠ 0 := by
  decide +kernel

/-! ## One group -/

theorem quarterTurn_pow_four : quarterTurn ^ 4 = 1 := by
  decide

/-- Four samples make a whole turn. -/
theorem mul_quarterTurn_pow_add_four (value : GaussianInt) (n : Nat) :
    value * quarterTurn ^ (n + 4) = value * quarterTurn ^ n := by
  rw [pow_add, quarterTurn_pow_four, mul_one]

@[simp]
theorem mul_quarterTurn_pow_zero (byteI byteQ : UInt8) :
    sampleValue byteI byteQ * quarterTurn ^ 0 =
      ⟨byteI.toNat - 128, byteQ.toNat - 128⟩ := by
  rw [pow_zero, mul_one, sampleValue]

@[simp]
theorem mul_quarterTurn_pow_one (byteI byteQ : UInt8) :
    sampleValue byteI byteQ * quarterTurn ^ 1 =
      ⟨-(byteQ.toNat - 128), byteI.toNat - 128⟩ := by
  ext <;> simp [sampleValue, quarterTurn]

@[simp]
theorem mul_quarterTurn_pow_two (byteI byteQ : UInt8) :
    sampleValue byteI byteQ * quarterTurn ^ 2 =
      ⟨-(byteI.toNat - 128), -(byteQ.toNat - 128)⟩ := by
  ext <;> simp [sampleValue, quarterTurn, pow_two]

@[simp]
theorem mul_quarterTurn_pow_three (byteI byteQ : UInt8) :
    sampleValue byteI byteQ * quarterTurn ^ 3 =
      ⟨byteQ.toNat - 128, -(byteI.toNat - 128)⟩ := by
  ext <;> simp [sampleValue, quarterTurn, pow_succ]

section Group

variable (b0 b1 b2 b3 b4 b5 b6 b7 : UInt8) (rest : List UInt8)

/-- The group is turned exactly, and the rest is, unless one of the middle four
bytes is at full scale. -/
theorem rotatesExactly_group_iff :
    RotatesExactly (b0 :: b1 :: b2 :: b3 :: b4 :: b5 :: b6 :: b7 :: rest)
        (economicMixer
          ((b0 :: b1 :: b2 :: b3 :: b4 :: b5 :: b6 :: b7 :: rest).map UInt8.toInt8)) ↔
      (b3 ≠ 0 ∧ b4 ≠ 0 ∧ b5 ≠ 0 ∧ b6 ≠ 0) ∧
        RotatesExactly rest (economicMixer (rest.map UInt8.toInt8)) := by
  constructor
  · intro rotates
    refine ⟨⟨?_, ?_, ?_, ?_⟩, ?_⟩
    · obtain ⟨_, _, ⟨⟩, ⟨⟩, onI, -⟩ := rotates 1 b2 b3 rfl rfl
      rw [mul_quarterTurn_pow_one] at onI
      exact (represents_negateStored_iff b3).mp onI
    · obtain ⟨_, _, ⟨⟩, ⟨⟩, onI, -⟩ := rotates 2 b4 b5 rfl rfl
      rw [mul_quarterTurn_pow_two] at onI
      exact (represents_negateFlipped_iff b4).mp onI
    · obtain ⟨_, _, ⟨⟩, ⟨⟩, -, onQ⟩ := rotates 2 b4 b5 rfl rfl
      rw [mul_quarterTurn_pow_two] at onQ
      exact (represents_negateFlipped_iff b5).mp onQ
    · obtain ⟨_, _, ⟨⟩, ⟨⟩, -, onQ⟩ := rotates 3 b6 b7 rfl rfl
      rw [mul_quarterTurn_pow_three] at onQ
      exact (represents_negateStored_iff b6).mp onQ
    · intro n byteI byteQ atI atQ
      have turned := rotates (n + 4) byteI byteQ atI atQ
      rwa [mul_quarterTurn_pow_add_four] at turned
  · rintro ⟨⟨low3, low4, low5, low6⟩, restRotates⟩ n byteI byteQ atI atQ
    match n with
    | 0 =>
        obtain ⟨⟨⟩, ⟨⟩⟩ := And.intro atI atQ
        rw [mul_quarterTurn_pow_zero]
        exact ⟨_, _, rfl, rfl, represents_flipSign b0, represents_flipSign b1⟩
    | 1 =>
        obtain ⟨⟨⟩, ⟨⟩⟩ := And.intro atI atQ
        rw [mul_quarterTurn_pow_one]
        exact ⟨_, _, rfl, rfl, (represents_negateStored_iff b3).mpr low3,
          represents_flipSign b2⟩
    | 2 =>
        obtain ⟨⟨⟩, ⟨⟩⟩ := And.intro atI atQ
        rw [mul_quarterTurn_pow_two]
        exact ⟨_, _, rfl, rfl, (represents_negateFlipped_iff b4).mpr low4,
          (represents_negateFlipped_iff b5).mpr low5⟩
    | 3 =>
        obtain ⟨⟨⟩, ⟨⟩⟩ := And.intro atI atQ
        rw [mul_quarterTurn_pow_three]
        exact ⟨_, _, rfl, rfl, represents_flipSign b7,
          (represents_negateStored_iff b6).mpr low6⟩
    | n + 4 =>
        rw [mul_quarterTurn_pow_add_four]
        exact restRotates n byteI byteQ atI atQ

theorem noNegatedFullScale_group_iff :
    NoNegatedFullScale (b0 :: b1 :: b2 :: b3 :: b4 :: b5 :: b6 :: b7 :: rest) ↔
      (b3 ≠ 0 ∧ b4 ≠ 0 ∧ b5 ≠ 0 ∧ b6 ≠ 0) ∧ NoNegatedFullScale rest := by
  constructor
  · intro none
    refine ⟨⟨none 3 b3 rfl (by decide) (by decide), none 4 b4 rfl (by decide) (by decide),
      none 5 b5 rfl (by decide) (by decide), none 6 b6 rfl (by decide) (by decide)⟩, ?_⟩
    intro i byte atI least most
    exact none (i + 8) byte atI (by omega) (by omega)
  · rintro ⟨⟨low3, low4, low5, low6⟩, restNone⟩ i byte atI least most
    match i with
    | 0 | 1 | 2 | 7 => simp at least most
    | 3 => cases atI; exact low3
    | 4 => cases atI; exact low4
    | 5 => cases atI; exact low5
    | 6 => cases atI; exact low6
    | i + 8 => exact restNone i byte atI (by omega) (by omega)

end Group

/-! ## Whole buffers -/

/-- Induction along the groups of the loop. -/
theorem group_induction (Holds : List UInt8 → Prop) (empty : Holds [])
    (group : ∀ b0 b1 b2 b3 b4 b5 b6 b7 rest, Holds rest →
      Holds (b0 :: b1 :: b2 :: b3 :: b4 :: b5 :: b6 :: b7 :: rest)) :
    ∀ bytes : List UInt8, 8 ∣ bytes.length → Holds bytes
  | [], _ => empty
  | b0 :: b1 :: b2 :: b3 :: b4 :: b5 :: b6 :: b7 :: rest, whole =>
      group b0 b1 b2 b3 b4 b5 b6 b7 rest
        (group_induction Holds empty group rest (by simp only [List.length_cons] at whole; omega))
  | [_], whole | [_, _], whole | [_, _, _], whole | [_, _, _, _], whole
  | [_, _, _, _, _], whole | [_, _, _, _, _, _], whole | [_, _, _, _, _, _, _], whole => by
      simp only [List.length_cons, List.length_nil] at whole
      omega

theorem length_economicMixer (bytes : List Int8) : (economicMixer bytes).length = bytes.length := by
  fun_induction economicMixer bytes with
  | case1 s0 s1 s2 s3 s4 s5 s6 s7 rest _ _ _ _ _ _ _ _ _ _ ih => simp [ih]
  | case2 => rfl

/-- The mixer is an exact rotation exactly for the buffers without a negated
byte at full scale. -/
theorem rotatesExactly_mixed_iff (samples : SampleBuffer) :
    RotatesExactly samples.bytes samples.mixed ↔ NoNegatedFullScale samples.bytes := by
  obtain ⟨bytes, whole⟩ := samples
  change RotatesExactly bytes (economicMixer (bytes.map UInt8.toInt8)) ↔ _
  refine group_induction (fun bytes => RotatesExactly bytes (economicMixer
    (bytes.map UInt8.toInt8)) ↔ NoNegatedFullScale bytes) ?_ ?_ bytes whole
  · constructor
    · intro _ i byte atI
      simp at atI
    · intro _ n byteI byteQ atI
      simp at atI
  · intro b0 b1 b2 b3 b4 b5 b6 b7 rest ih
    rw [rotatesExactly_group_iff, noNegatedFullScale_group_iff, ih]

/-- A strong signal drives the converter to its lower limit on Q. -/
def saturatedBuffer : SampleBuffer where
  bytes := [128, 128, 128, 0, 128, 128, 128, 128]
  whole := by decide

/-- The second sample becomes -128 where the quarter turn gives 128. -/
theorem not_rotatesExactly_saturatedBuffer :
    ¬ RotatesExactly saturatedBuffer.bytes saturatedBuffer.mixed := by
  intro rotates
  obtain ⟨_, _, ⟨⟩, ⟨⟩, onI, -⟩ := rotates 1 128 0 rfl rfl
  revert onI
  decide

end RtlsdrFt8d
