import Wpcp.Cbor.Counts
import Wpcp.Lib.FloatFormat

/-!
# What FLOAT and DOUBLE nodes denote

A number of major type 7 is sent as a pattern of 16, 32 or 64 bits. The decoder moves the
longer two as they are and widens a half to a float (`Wpcp.Cbor.decodeHalf`), which it does
by moving the exponent, by copying the bits of infinities and of what is not a number, and by
a product for subnormal numbers. That product is returned without the sign. So a negative
subnormal half becomes a positive float, and **this is the only pattern of the three widths
that does not keep its number** (`Wpcp.Cbor.denote_decodeHalf_iff`,
`Wpcp.Cbor.denotesWire_iff`).
-/

namespace Wpcp.Cbor

/-! ### The three formats -/

/-- A half: five bits of exponent and ten of fraction. -/
def binary16 : FloatFormat := ⟨5, 10, by decide⟩

/-- A float: eight bits of exponent and 23 of fraction. -/
def binary32 : FloatFormat := ⟨8, 23, by decide⟩

/-- A double: eleven bits of exponent and 52 of fraction. -/
def binary64 : FloatFormat := ⟨11, 52, by decide⟩

/-! ### Halves -/

/-- The bits of a mask that are set next to each other. -/
theorem and_mask (n j k : ℕ) : n &&& (2 ^ k - 1) * 2 ^ j = n / 2 ^ j % 2 ^ k * 2 ^ j := by
  refine Nat.eq_of_testBit_eq fun i => ?_
  rw [Nat.testBit_and, Nat.testBit_mul_two_pow, Nat.testBit_mul_two_pow, Nat.testBit_mod_two_pow,
    Nat.testBit_two_pow_sub_one, Nat.testBit_div_two_pow]
  rcases Nat.lt_or_ge i j with hlt | hge
  · rw [decide_eq_false (Nat.not_le_of_lt hlt), Bool.false_and, Bool.false_and, Bool.and_false]
  · rw [Nat.sub_add_cancel hge, decide_eq_true hge, Bool.true_and, Bool.true_and, Bool.and_comm]

section Half

variable {negative : Bool} {exponent fraction : ℕ}

theorem pattern_half (negative : Bool) (exponent fraction : ℕ) :
    binary16.pattern negative exponent fraction =
      negative.toNat * 2 ^ 15 + exponent * 2 ^ 10 + fraction := by
  show (negative.toNat * 2 ^ 5 + exponent) * 2 ^ 10 + fraction = _
  ring

/-- The three parts of a half, as `wpcp_cbor_decode_half` masks them. -/
theorem and_half (negative : Bool) (hexponent : exponent < 2 ^ 5) (hfraction : fraction < 2 ^ 10) :
    (UInt32.ofNat (binary16.pattern negative exponent fraction) &&& 0x8000).toNat =
        negative.toNat * 2 ^ 15 ∧
      (UInt32.ofNat (binary16.pattern negative exponent fraction) &&& 0x7c00).toNat =
        exponent * 2 ^ 10 ∧
      (UInt32.ofNat (binary16.pattern negative exponent fraction) &&& 0x03ff).toNat =
        fraction := by
  have hsign : negative.toNat < 2 := negative.toNat_lt
  have hn := pattern_half negative exponent fraction
  generalize binary16.pattern negative exponent fraction = n at hn ⊢
  have hlt : n < 2 ^ 32 := by omega
  have hmasks : n &&& (2 ^ 1 - 1) * 2 ^ 15 = negative.toNat * 2 ^ 15 ∧
      n &&& (2 ^ 5 - 1) * 2 ^ 10 = exponent * 2 ^ 10 ∧ n &&& (2 ^ 10 - 1) * 2 ^ 0 = fraction := by
    rw [and_mask, and_mask, and_mask]
    omega
  rw [UInt32.toNat_and, UInt32.toNat_and, UInt32.toNat_and, UInt32.toNat_ofNat',
    Nat.mod_eq_of_lt hlt]
  exact hmasks

/-- The three parts of a float, as `wpcp_cbor_decode_half` puts them together. -/
theorem or_float {sign exponent' fraction' : UInt32} (hsign : sign.toNat = negative.toNat * 2 ^ 15)
    (hexponent : exponent'.toNat = exponent * 2 ^ 10) (hlt : exponent < 2 ^ 8)
    (hfraction : fraction'.toNat = fraction) (hlt' : fraction < 2 ^ 10) :
    (sign <<< 16 ||| exponent' <<< 13 ||| fraction' <<< 13).toNat =
      binary32.pattern negative exponent (fraction * 2 ^ (23 - 10)) := by
  have hbit : negative.toNat < 2 := negative.toNat_lt
  rw [UInt32.toNat_or, UInt32.toNat_or, UInt32.toNat_shiftLeft, UInt32.toNat_shiftLeft,
    UInt32.toNat_shiftLeft, hsign, hexponent, hfraction]
  have hshift : (16 : UInt32).toNat % 32 = 16 ∧ (13 : UInt32).toNat % 32 = 13 := by decide
  have hparts : negative.toNat * 2 ^ 15 * 2 ^ 16 % 2 ^ 32 = negative.toNat * 2 ^ 15 * 2 ^ 16 ∧
      exponent * 2 ^ 10 * 2 ^ 13 % 2 ^ 32 = exponent * 2 ^ 10 * 2 ^ 13 ∧
        fraction * 2 ^ 13 % 2 ^ 32 = fraction * 2 ^ 13 := by
    omega
  rw [hshift.1, hshift.2, Nat.shiftLeft_eq, Nat.shiftLeft_eq, Nat.shiftLeft_eq, hparts.1,
    hparts.2.1, hparts.2.2]
  have hhigh : negative.toNat * 2 ^ 15 * 2 ^ 16 ||| exponent * 2 ^ 10 * 2 ^ 13 =
      2 ^ 31 * negative.toNat + exponent * 2 ^ 23 := by
    have hsignBit : negative.toNat * 2 ^ 15 * 2 ^ 16 = 2 ^ 31 * negative.toNat := by ring
    have hfield : exponent * 2 ^ 10 * 2 ^ 13 = exponent * 2 ^ 23 := by ring
    rw [hsignBit, hfield, Nat.two_pow_add_eq_or_of_lt (by omega)]
  have hall : 2 ^ 31 * negative.toNat + exponent * 2 ^ 23 =
      2 ^ 23 * (2 ^ 8 * negative.toNat + exponent) := by ring
  rw [hhigh, hall, ← Nat.two_pow_add_eq_or_of_lt (by omega)]
  show _ = (negative.toNat * 2 ^ 8 + exponent) * 2 ^ 23 + _
  ring

/-- The exponent of the float, as the decoder moves it. -/
def wideExponent (exponent : ℕ) : ℕ :=
  if exponent = 31 then 255 else if exponent ≠ 0 then exponent + 112 else 0

/-- A half that is not subnormal is put together from its parts. -/
theorem decodeHalf_eq (hexponent : exponent < 2 ^ 5) (hfraction : fraction < 2 ^ 10)
    (h : ¬(exponent = 0 ∧ fraction ≠ 0)) :
    (decodeHalf (UInt32.ofNat (binary16.pattern negative exponent fraction))).toNat =
      binary32.pattern negative (wideExponent exponent) (fraction * 2 ^ (23 - 10)) := by
  obtain ⟨hs, he, hf⟩ := and_half negative hexponent hfraction
  unfold decodeHalf
  generalize UInt32.ofNat (binary16.pattern negative exponent fraction) &&& 0x8000 = sign at *
  generalize UInt32.ofNat (binary16.pattern negative exponent fraction) &&& 0x7c00 = e at *
  generalize UInt32.ofNat (binary16.pattern negative exponent fraction) &&& 0x03ff = f at *
  have hzero : e = 0 ↔ exponent = 0 := by
    rw [← UInt32.toNat_inj, he]
    show exponent * 2 ^ 10 = 0 ↔ _
    omega
  have hone : e = 0x7c00 ↔ exponent = 31 := by
    rw [← UInt32.toNat_inj, he]
    show exponent * 2 ^ 10 = 0x7c00 ↔ _
    omega
  have hfzero : f = 0 ↔ fraction = 0 := by
    rw [← UInt32.toNat_inj, hf]
    rfl
  dsimp only
  rw [if_neg (by rwa [hzero, Ne, hfzero])]
  refine or_float hs ?_ ?_ hf hfraction
  · unfold wideExponent
    by_cases hspecial : exponent = 31
    · rw [if_pos (hone.mpr hspecial), if_pos hspecial]
      rfl
    · rw [if_neg (mt hone.mp hspecial), if_neg hspecial]
      by_cases hnormal : exponent = 0
      · rw [if_neg (not_not.mpr (hzero.mpr hnormal)), if_neg (not_not.mpr hnormal), he, hnormal]
      · have hrebias : ((127 - 15 : UInt32) <<< (10 : UInt32)).toNat = 112 * 2 ^ 10 := by decide
        rw [if_pos (mt hzero.mp hnormal), if_pos hnormal, UInt32.toNat_add, he, hrebias]
        omega
  · unfold wideExponent
    split_ifs <;> omega

/-- **Where the sign is lost**: a subnormal half becomes the normal float of its fraction. -/
theorem decodeHalf_subnormal (hfraction : fraction < 2 ^ 10) (hne : fraction ≠ 0) :
    (decodeHalf (UInt32.ofNat (binary16.pattern negative 0 fraction))).toNat =
      binary32.pattern false (fraction.log2 + 103)
        (fraction * 2 ^ (23 - fraction.log2) - 2 ^ 23) := by
  obtain ⟨-, he, hf⟩ := and_half negative (show 0 < 2 ^ 5 by decide) hfraction
  unfold decodeHalf
  generalize UInt32.ofNat (binary16.pattern negative 0 fraction) &&& 0x7c00 = e at *
  generalize UInt32.ofNat (binary16.pattern negative 0 fraction) &&& 0x03ff = f at *
  have hzero : e = 0 := by
    rw [← UInt32.toNat_inj, he]
    rfl
  have hfzero : f ≠ 0 := by
    rw [Ne, ← UInt32.toNat_inj, hf]
    exact hne
  dsimp only
  rw [if_pos ⟨hzero, hfzero⟩, hf, UInt32.toNat_ofNat']
  have hlog : fraction.log2 < 10 := (Nat.log2_lt hne).mpr hfraction
  have hlt : fraction * 2 ^ (23 - fraction.log2) < 2 ^ 24 := by
    calc fraction * 2 ^ (23 - fraction.log2)
        < 2 ^ (fraction.log2 + 1) * 2 ^ (23 - fraction.log2) :=
          Nat.mul_lt_mul_of_pos_right Nat.lt_log2_self (Nat.two_pow_pos _)
      _ = 2 ^ 24 := by
          rw [← pow_add]
          congr 1
          omega
  rw [Nat.mod_eq_of_lt (by omega)]
  show _ = (0 * 2 ^ 8 + (fraction.log2 + 103)) * 2 ^ 23 + _
  omega

end Half

/-- The half is a subnormal number below zero. -/
def negativeSubnormal (n : ℕ) : Prop := 0x8000 < n ∧ n < 0x8400

instance (n : ℕ) : Decidable (negativeSubnormal n) := inferInstanceAs (Decidable (_ ∧ _))

/-- **Exactly when a half is decoded to the number it denotes.** -/
theorem denote_decodeHalf_iff {n : ℕ} (h : n < 2 ^ 16) :
    binary32.denote (decodeHalf (UInt32.ofNat n)).toNat = binary16.denote n ↔
      ¬negativeSubnormal n := by
  obtain ⟨negative, exponent, fraction, hexponent, hfraction, rfl⟩ := binary16.exists_pattern h
  have hexponent : exponent < 2 ^ 5 := hexponent
  have hfraction : fraction < 2 ^ 10 := hfraction
  have hn := pattern_half negative exponent fraction
  rw [binary16.denote_pattern hexponent hfraction]
  by_cases hsub : exponent = 0 ∧ fraction ≠ 0
  · obtain ⟨rfl, hne⟩ := hsub
    have hlog : fraction.log2 < 10 := (Nat.log2_lt hne).mpr hfraction
    have hpattern : fraction * 2 ^ (23 - fraction.log2) - 2 ^ 23 < 2 ^ 23 := by
      have hlt : fraction * 2 ^ (23 - fraction.log2) <
          2 ^ (fraction.log2 + 1) * 2 ^ (23 - fraction.log2) :=
        Nat.mul_lt_mul_of_pos_right Nat.lt_log2_self (Nat.two_pow_pos _)
      rw [← pow_add, show fraction.log2 + 1 + (23 - fraction.log2) = 24 by omega] at hlt
      omega
    have hwide : binary32.magnitude (fraction.log2 + 103)
        (fraction * 2 ^ (23 - fraction.log2) - 2 ^ 23) = binary16.magnitude 0 fraction :=
      FloatFormat.magnitude_subnormal_widen (F := binary16) (G := binary32) hne hfraction
        (by decide) (by decide)
    have hwidth : fraction.log2 + 103 < 2 ^ 8 := by omega
    rw [decodeHalf_subnormal hfraction hne, binary32.denote_pattern hwidth hpattern, hwide]
    have hsign : (FloatFormat.Number.mk false (binary16.magnitude 0 fraction) =
        ⟨negative, binary16.magnitude 0 fraction⟩) ↔ negative = false := by
      constructor
      · intro heq
        injection heq with hfalse
        exact hfalse.symm
      · rintro rfl
        rfl
    rw [hsign, negativeSubnormal, hn]
    cases negative with
    | false =>
      refine iff_of_true rfl ?_
      rw [Bool.toNat_false]
      omega
    | true =>
      refine iff_of_false (by decide) (not_not.mpr ?_)
      rw [Bool.toNat_true]
      omega
  · have hwidth : wideExponent exponent < 2 ^ 8 ∧ fraction * 2 ^ (23 - 10) < 2 ^ 23 := by
      unfold wideExponent
      split_ifs <;> omega
    rw [decodeHalf_eq hexponent hfraction hsub, binary32.denote_pattern hwidth.1 hwidth.2]
    have hwide : binary32.magnitude (wideExponent exponent) (fraction * 2 ^ (23 - 10)) =
        binary16.magnitude exponent fraction := by
      rcases Nat.lt_or_ge exponent 31 with hlt | hge
      · rcases Nat.eq_zero_or_pos exponent with rfl | hpos
        · obtain rfl : fraction = 0 := by
            by_contra hne
            exact hsub ⟨rfl, hne⟩
          exact binary32.magnitude_zero.trans binary16.magnitude_zero.symm
        · rw [wideExponent, if_neg (by omega), if_pos (by omega)]
          exact FloatFormat.magnitude_normal_widen (F := binary16) (G := binary32) (by decide)
            (by decide) hpos hlt
      · obtain rfl : exponent = 31 := by omega
        exact FloatFormat.magnitude_special_widen (F := binary16) (G := binary32)
    rw [hwide]
    refine ⟨fun _ => ?_, fun _ => rfl⟩
    have hbit : negative.toNat < 2 := negative.toNat_lt
    unfold negativeSubnormal
    omega

/-! ### Heads and nodes -/

/-- The number on the wire, of a head that sends one. -/
def Head.denoted (head : Head) : Option FloatFormat.Number :=
  if head.type = .floatingPointAndSimpleTypes then
    if head.firstByte = additonalBytes2 then some (binary16.denote head.value)
    else if head.firstByte = additonalBytes4 then some (binary32.denote head.value)
    else if head.firstByte = additonalBytes8 then some (binary64.denote head.value)
    else none
  else none

/-- The number a FLOAT or DOUBLE node denotes. -/
def Value.denoted {σ : Type} : Value σ → Option FloatFormat.Number
  | .float flt => some (binary32.denote flt.toNat)
  | .double dbl => some (binary64.denote dbl.toNat)
  | _ => none

section Heads

variable {M : Machine} {b b' : ReadBuffer}

theorem lt_of_readUint {k n : ℕ} (h : (readUint M k).run b = some (.ok n, b')) : n < 256 ^ k := by
  obtain ⟨e, t, -, ho⟩ | ⟨address, t, -, hread⟩ := Attempt.run_bind_eq_some.mp h
  · simp at ho
  obtain ⟨rfl, -⟩ : BigEndian.value (M.slice address k) = n ∧ t = b' := by simpa using hread
  simpa using BigEndian.value_lt (M.slice address k)

/-- An argument that is read has as many bytes as the first byte says. -/
theorem spelt_of_readUint {type : MajorType} {first k : ℕ} {head : Head}
    (hk : argumentBytes first = some k) (hfirst : ¬first < additonalBytes1)
    (h : (readUint M k >>= fun temp => pure (Head.mk type first temp)).run b =
      some (.ok head, b')) : head.type = type ∧ head.firstByte = first ∧ ∃ k, head.Spelt k := by
  obtain ⟨e, t, -, ho⟩ | ⟨n, t, hn, h⟩ := Attempt.run_bind_eq_some.mp h
  · simp at ho
  obtain ⟨rfl, -⟩ : Head.mk type first n = head ∧ t = b' := by simpa using h
  exact ⟨rfl, rfl, k, hk, by rw [if_neg hfirst]; exact lt_of_readUint hn⟩

theorem spelt_of_readArgument {type : MajorType} {first : ℕ} {head : Head}
    (h : (readArgument M type first).run b = some (.ok head, b')) :
    head.type = type ∧ head.firstByte = first ∧ ∃ k, head.Spelt k := by
  obtain ⟨h₁, h₂, h₄, h₈, h₃₁⟩ := additonalBytes_eq
  unfold readArgument at h
  split at h
  · rename_i hlt
    obtain ⟨rfl, -⟩ : Head.mk type first first = head ∧ b = b' := by simpa using h
    exact ⟨rfl, rfl, 0, argumentBytes_of_lt hlt, by rw [if_pos hlt]⟩
  rename_i hfirst
  split at h
  · rename_i hone
    exact spelt_of_readUint (by rw [hone]; rfl) hfirst h
  split at h
  · rename_i htwo
    exact spelt_of_readUint (by rw [htwo]; rfl) hfirst h
  split at h
  · rename_i hfour
    exact spelt_of_readUint (by rw [hfour]; rfl) hfirst h
  split at h
  · rename_i height
    obtain ⟨e, t, -, ho⟩ | ⟨n, t, hn, h⟩ := Attempt.run_bind_eq_some.mp h
    · simp at ho
    split at h
    · simp at h
    obtain ⟨rfl, -⟩ : Head.mk type first n = head ∧ t = b' := by simpa using h
    exact ⟨rfl, rfl, 8, by rw [height]; rfl, by rw [if_neg hfirst]; exact lt_of_readUint hn⟩
  split at h
  · rename_i hindefinite
    split at h
    · simp at h
    obtain ⟨rfl, -⟩ : Head.mk type first 0 = head ∧ b = b' := by simpa using h
    exact ⟨rfl, rfl, 0, by rw [hindefinite]; rfl, by rw [if_neg hfirst]; exact Nat.one_pos⟩
  · simp at h

/-- The head a call has read is spelt. -/
theorem Call.Starts.spelt {c : Call} {head : Head} (h : c.Starts M head b) :
    ∃ k, head.Spelt k := by
  obtain ⟨e, t, -, ho⟩ | ⟨head', b₁, hhead, h⟩ := Attempt.run_bind_eq_some.mp h
  · simp at ho
  obtain ⟨e, t, -, ho⟩ | ⟨⟨⟩, b₂, -, h⟩ := Attempt.run_bind_eq_some.mp h
  · simp at ho
  obtain ⟨rfl, -⟩ : head' = head ∧ b₂ = b := by simpa using h
  obtain ⟨e, t, -, ho⟩ | ⟨first, b₃, -, hhead⟩ := Attempt.run_bind_eq_some.mp hhead
  · simp at ho
  exact (spelt_of_readArgument hhead).2.2

end Heads

/-- What is read from a head of major type 7 denotes what the head sends, unless that is a
negative subnormal half. -/
theorem denoted_simpleTypeValue_iff {head : Head} {k : ℕ} (h : head.Spelt k)
    (htype : head.type = .floatingPointAndSimpleTypes) :
    (simpleTypeValue head : Value StringData).denoted = head.denoted ↔
      ¬(head.firstByte = additonalBytes2 ∧ negativeSubnormal head.value) := by
  obtain ⟨h₁, h₂, h₄, h₈, -⟩ := additonalBytes_eq
  obtain ⟨hk, hvalue⟩ := h
  rw [Head.denoted, if_pos htype, simpleTypeValue]
  by_cases htwo : head.firstByte = additonalBytes2
  · have hlt : head.value < 2 ^ 16 := by
      rw [htwo] at hk
      obtain rfl : 2 = k := Option.some.inj hk
      rw [if_neg (by omega)] at hvalue
      exact hvalue
    rw [if_pos htwo, if_pos htwo, Value.denoted, Option.some.injEq, denote_decodeHalf_iff hlt]
    simp [htwo]
  rw [if_neg htwo, if_neg htwo]
  have hnot : ¬(head.firstByte = additonalBytes2 ∧ negativeSubnormal head.value) :=
    fun hsub => htwo hsub.1
  by_cases hfour : head.firstByte = additonalBytes4
  · have hlt : head.value < 2 ^ 32 := by
      rw [hfour] at hk
      obtain rfl : 4 = k := Option.some.inj hk
      rw [if_neg (by omega)] at hvalue
      exact hvalue
    rw [if_pos hfour, if_pos hfour, Value.denoted, UInt32.toNat_ofNat', Nat.mod_eq_of_lt hlt]
    exact iff_of_true rfl hnot
  rw [if_neg hfour, if_neg hfour]
  by_cases height : head.firstByte = additonalBytes8
  · have hlt : head.value < 2 ^ 64 := by
      rw [height] at hk
      obtain rfl : 8 = k := Option.some.inj hk
      rw [if_neg (by omega)] at hvalue
      exact hvalue
    rw [if_pos height, if_pos height, Value.denoted, UInt64.toNat_ofNat', Nat.mod_eq_of_lt hlt]
    exact iff_of_true rfl hnot
  · rw [if_neg height, if_neg height]
    refine iff_of_true ?_ hnot
    unfold Value.ofSimple
    split <;> rfl

/-! ### Every node of a tree -/

namespace Call

variable {M : Machine}

/-- The node denotes the number on the wire it was read from, and denotes none where there is
none. -/
def DenotesWire (M : Machine) (c : Call) : Prop :=
  ∀ head b, c.Starts M head b → c.value.denoted = head.denoted

/-- The call has read the head of a negative subnormal half. -/
def NegativeSubnormal (M : Machine) (c : Call) : Prop :=
  ∃ head b, c.Starts M head b ∧ head.type = .floatingPointAndSimpleTypes ∧
    head.firstByte = additonalBytes2 ∧ negativeSubnormal head.value

/-- **One call**: the node denotes what was sent unless that was a negative subnormal half. -/
theorem Returned.denotes_iff {c : Call} (h : c.Returned M) :
    c.DenotesWire M ↔ ¬c.NegativeSubnormal M := by
  obtain ⟨head, b, hstarts, hbody⟩ := h.exists_body
  have hiff : c.value.denoted = head.denoted ↔ ¬(head.type = .floatingPointAndSimpleTypes ∧
      head.firstByte = additonalBytes2 ∧ negativeSubnormal head.value) := by
    have hother : head.type ≠ .floatingPointAndSimpleTypes → c.value.denoted = none →
        (c.value.denoted = head.denoted ↔ ¬(head.type = .floatingPointAndSimpleTypes ∧
          head.firstByte = additonalBytes2 ∧ negativeSubnormal head.value)) := by
      intro htype hnone
      rw [hnone, Head.denoted, if_neg htype]
      exact iff_of_true rfl fun hsub => htype hsub.1
    cases hbody with
    | unsignedInteger htype hvalue => exact hother (by simp [htype]) (by rw [hvalue]; rfl)
    | negativeInteger htype hvalue => exact hother (by simp [htype]) (by rw [hvalue]; rfl)
    | string ret htype length data hvalue =>
      refine hother ?_ ?_
      · rw [htype]
        cases ret <;> simp [StringType.majorType]
      · rw [hvalue]
        cases ret <;> rfl
    | values ret htype calls bEnd hchain hend hvalue hcount =>
      refine hother ?_ ?_
      · rw [htype]
        cases ret <;> simp [NestedType.majorType]
      · rw [hvalue]
        cases ret <;> rfl
    | tag htype call hchain hvalue => exact hother (by simp [htype]) (by rw [hvalue]; rfl)
    | simple htype hvalue =>
      obtain ⟨k, hspelt⟩ := hstarts.spelt
      rw [hvalue, denoted_simpleTypeValue_iff hspelt htype]
      simp [htype]
  constructor
  · rintro hdenotes ⟨head', b', hstarts', hsub⟩
    obtain ⟨rfl, -⟩ := hstarts.unique hstarts'
    exact hiff.mp (hdenotes head b hstarts) hsub
  · intro hnone head' b' hstarts'
    obtain ⟨rfl, -⟩ := hstarts.unique hstarts'
    exact hiff.mpr fun hsub => hnone ⟨head, b, hstarts, hsub⟩

end Call

/-- **Exactly when FLOAT and DOUBLE nodes denote what was sent**, on every machine and for
every message: the nodes of a value that is returned are those of the calls inside, and each
of them denotes the number in the message it was read from, with its sign, unless that is a
negative subnormal half. -/
theorem denotesWire_iff {M : Machine} {c : Call} (h : c.Returned M) :
    (c.value.All fun v => ∃ d : Call, d.Inside M c ∧ d.value = v) ∧
      ((∀ d : Call, d.Inside M c → d.DenotesWire M) ↔
        ∀ d : Call, d.Inside M c → ¬d.NegativeSubnormal M) :=
  ⟨h.all_inside, forall₂_congr fun _ hd => (hd.returned h).denotes_iff⟩

/-- The array `[-2.0, 0.5]`, with the first as a half and the second as a double. -/
def floatMachine : Machine :=
  .withMessage .bits64 1000
    [0x82, 0xf9, 0xc0, 0x00, 0xfb, 0x3f, 0xe0, 0x00, 0x00, 0x00, 0x00, 0x00, 0x00]

/-- Both numbers of the array denote what was sent. -/
theorem denotesWire_array : ∃ c : Call, c.Returned floatMachine ∧
    c.value = .array 2 [.float 0xc0000000, .double 0x3fe0000000000000] ∧
      ((c.value.All fun v => ∃ d : Call, d.Inside floatMachine c ∧ d.value = v) ∧
      ((∀ d : Call, d.Inside floatMachine c → d.DenotesWire floatMachine) ↔
        ∀ d : Call, d.Inside floatMachine c → ¬d.NegativeSubnormal floatMachine)) := by
  have hreturned : (Call.mk ⟨1000, 1013, fun _ => true, false⟩
      (.array 2 [.float 0xc0000000, .double 0x3fe0000000000000])
      ⟨1013, 1013, fun _ => true, false⟩).Returned floatMachine := ⟨4, rfl⟩
  exact ⟨_, hreturned, rfl, denotesWire_iff hreturned⟩

/-- The half `0x8001`, which denotes the negative number next to zero. -/
def subnormalMachine : Machine := .withMessage .bits64 1000 [0xf9, 0x80, 0x01]

/-- **A sign that is lost**: the half is read as a positive float. -/
theorem not_denotesWire :
    (Call.mk ⟨1000, 1003, fun _ => true, false⟩ (.float 0x33800000)
        ⟨1003, 1003, fun _ => true, false⟩).Returned subnormalMachine ∧
      (binary16.denote 0x8001).negative = true ∧ (binary32.denote 0x33800000).negative = false ∧
      ¬(Call.mk ⟨1000, 1003, fun _ => true, false⟩ (.float 0x33800000)
        ⟨1003, 1003, fun _ => true, false⟩).DenotesWire subnormalMachine := by
  have hhead : (readHead subnormalMachine).run ⟨1000, 1003, fun _ => true, false⟩ =
      some (.ok ⟨.floatingPointAndSimpleTypes, 25, 0x8001⟩,
        ⟨1003, 1003, fun _ => true, false⟩) := rfl
  have hstarts : (Call.mk ⟨1000, 1003, fun _ => true, false⟩ (.float 0x33800000)
      ⟨1003, 1003, fun _ => true, false⟩).Starts subnormalMachine
        ⟨.floatingPointAndSimpleTypes, 25, 0x8001⟩ ⟨1003, 1003, fun _ => true, false⟩ := by
    rw [Call.Starts, Attempt.run_bind_ok hhead]
    rfl
  refine ⟨⟨1, ?_⟩, by decide, by decide, fun hdenotes => ?_⟩
  · rw [readWpcpValue, Attempt.run_bind_ok hhead]
    rfl
  · have hsame := hdenotes _ _ hstarts
    have hnegative : (binary32.denote 0x33800000).negative = (binary16.denote 0x8001).negative :=
      congrArg FloatFormat.Number.negative (Option.some.inj hsame)
    exact absurd hnegative (by decide)

end Wpcp.Cbor
