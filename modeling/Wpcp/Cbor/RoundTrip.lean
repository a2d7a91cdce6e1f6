import Wpcp.Cbor.Bounds
import Wpcp.Cbor.Canonical

/-!
# Reading what was written, and writing what was read

The item the encoder writes for a well-formed tree is an accepted one, and its value is
the tree up to `Wpcp.Cbor.Value.norm`; since the decoder follows the scan, **reading
undoes writing** (`Wpcp.Cbor.read_write`).

The other way round, a value that was read is a well-formed tree, so that it can be
written and read again; whether the same value comes back depends on the one node the
decoder makes that the encoder does not write as it was read, a negative integer below
the least INT64 (`Wpcp.Cbor.echo_iff`, `Wpcp.Cbor.echo_changed`).
-/

namespace Wpcp.Cbor

variable {M : Machine} {b : ReadBuffer} {bs rest : List UInt8}

/-! ### The item of a value -/

namespace Wire

theorem length_le_bytesList (ws : List Wire) : ws.length ≤ (bytesList ws).length := by
  induction ws with
  | nil => simp
  | cons w ws ih =>
    have hw := w.length_bytes_pos
    simp only [bytesList, List.length_append, List.length_cons]
    omega

theorem length_bytes_le_bytesList {w : Wire} {ws : List Wire} (h : w ∈ ws) :
    w.bytes.length ≤ (bytesList ws).length := by
  induction ws with
  | nil => simp at h
  | cons v ws ih =>
    simp only [bytesList, List.length_append]
    obtain rfl | h := List.mem_cons.mp h
    · omega
    · have := ih h
      omega

/-- A leaf of major type 7 is accepted as soon as its head is spelt. -/
theorem valid_simple {sizeT : SizeT} {firstByte value k : ℕ}
    (h : Head.Spelt ⟨.floatingPointAndSimpleTypes, firstByte, value⟩ k)
    (hne : firstByte ≠ indefiniteLength) :
    (leaf ⟨.floatingPointAndSimpleTypes, firstByte, value⟩).Valid sizeT :=
  ⟨⟨⟨k, h⟩, fun hfirst => absurd hfirst hne, fun hlength => absurd hlength Bool.false_ne_true⟩,
    rfl, fun htag => MajorType.noConfusion htag⟩

/-- **The item of a well-formed tree is accepted** where its lengths fit `size_t`. -/
theorem valid_ofValue {sizeT : SizeT} {v : Value (List UInt8)} (hv : v.WellFormed)
    (hsized : v.All fun v => v.length < sizeT.count ∧ v.children.length < sizeT.count) :
    (ofValue v).Valid sizeT := by
  have hcount_le := sizeT.count_le
  induction v using Value.induction with
  | node v ih =>
    obtain ⟨hfits, hwell⟩ := Value.all_iff.mp hv
    obtain ⟨⟨hlength, hcount⟩, hsizes⟩ := Value.all_iff.mp hsized
    have hchildren : ∀ w ∈ v.children.map ofValue, w.Valid sizeT := by
      intro w hw
      obtain ⟨c, hc, rfl⟩ := List.mem_map.mp hw
      exact ih c hc (hwell c hc) (hsizes c hc)
    have hleaf : ∀ type, type.hasLength = false → type ≠ MajorType.tag → ∀ n < 2 ^ 64,
        (leaf (.shortest type n)).Valid sizeT := fun type hlength htag n hn =>
      ⟨Head.valid_shortest type hn fun h => absurd (hlength.symm.trans h) (by simp), hlength,
        htag⟩
    have hhead : ∀ type n, n < sizeT.count → (Head.shortest type n).Valid sizeT :=
      fun type n hn => Head.valid_shortest type (by omega) fun _ => hn
    cases v with
    | false => exact valid_simple (k := 0) ⟨rfl, rfl⟩ (by decide)
    | true => exact valid_simple (k := 0) ⟨rfl, rfl⟩ (by decide)
    | null => exact valid_simple (k := 0) ⟨rfl, rfl⟩ (by decide)
    | undefined => exact valid_simple (k := 0) ⟨rfl, rfl⟩ (by decide)
    | simpleValue uint => exact hleaf _ rfl (by decide) _ (by omega)
    | float flt => exact valid_simple (k := 4) ⟨rfl, flt.toNat_lt⟩ (by decide)
    | double dbl => exact valid_simple (k := 8) ⟨rfl, dbl.toNat_lt⟩ (by decide)
    | uint64 uint => exact hleaf _ rfl (by decide) _ uint.toNat_lt
    | int64 sint =>
      simp only [ofValue]
      split_ifs
      · exact hleaf _ rfl (by decide) _ (UInt64.toNat_lt _)
      · exact hleaf _ rfl (by decide) _ (UInt64.toNat_lt _)
    | byteString length data =>
      obtain rfl : length = data.length := hfits
      exact ⟨hhead _ _ hlength, rfl, by simp, rfl⟩
    | textString length data =>
      obtain rfl : length = data.length := hfits
      exact ⟨hhead _ _ hlength, rfl, by simp, rfl⟩
    | array length children =>
      have hfits : children.length = length := hfits
      rw [ofValue, ofValueList_eq_map]
      refine valid_nested (hhead _ _ hlength) hchildren (Or.inr ?_)
      simpa [Head.count, Head.shortest] using hfits
    | map length children =>
      have hfits : children.length = 2 * length := hfits
      have hcount : children.length < sizeT.count := hcount
      rw [ofValue, ofValueList_eq_map]
      refine valid_nested (hhead _ _ hlength) hchildren ⟨?_, Or.inr ?_⟩
      · rw [List.length_map]
        omega
      · rw [List.length_map]
        show children.length = length * 2 % 2 ^ 64
        omega
    | tag uint children =>
      have hfits : children.length = 1 := hfits
      rw [ofValue, ofValueList_eq_map]
      refine valid_nested (Head.valid_shortest _ uint.toNat_lt fun h => absurd h (by decide))
        hchildren ?_
      show (children.map ofValue).length = 1
      simpa using hfits

/-- The value of the leaf of a SIMPLE_VALUE. -/
theorem simpleTypeValue_shortest {n : ℕ} (h : n < 256) :
    (simpleTypeValue (.shortest .floatingPointAndSimpleTypes n) : Value (List UInt8)) =
      Value.ofSimple (UInt64.ofNat n) := by
  obtain ⟨h₁, h₂, h₄, h₈, -⟩ := additonalBytes_eq
  have hfirst : shortestFirstByte n ≤ additonalBytes1 := by
    unfold shortestFirstByte
    split_ifs <;> omega
  unfold simpleTypeValue Head.shortest
  rw [if_neg (by simp only; omega), if_neg (by simp only; omega), if_neg (by simp only; omega)]

/-- **The value of the item of a tree is the tree**, up to what is not kept. -/
theorem value_ofValue {v : Value (List UInt8)} (hv : v.WellFormed) :
    (ofValue v).value = v.norm := by
  induction v using Value.induction with
  | node v ih =>
    obtain ⟨hfits, hwell⟩ := Value.all_iff.mp hv
    have hchildren : (v.children.map ofValue).map value = v.children.map Value.norm := by
      rw [List.map_map]
      exact List.map_congr_left fun c hc => ih c hc (hwell c hc)
    cases v with
    | false => rfl
    | true => rfl
    | null => rfl
    | undefined => rfl
    | simpleValue uint => exact simpleTypeValue_shortest (by omega)
    | float flt =>
      show Value.float (UInt32.ofNat flt.toNat) = .float flt
      rw [UInt32.ofNat_toNat]
    | double dbl =>
      show Value.double (UInt64.ofNat dbl.toNat) = .double dbl
      rw [UInt64.ofNat_toNat]
    | uint64 uint =>
      show Value.uint64 (UInt64.ofNat uint.toNat) = .uint64 uint
      rw [UInt64.ofNat_toNat]
    | int64 sint =>
      simp only [ofValue, Value.norm]
      split_ifs with hneg hpos hpos
      · exact absurd hpos (by simpa using hneg)
      · show Value.int64 (~~~UInt64.ofNat (~~~sint.toUInt64).toNat).toInt64 = .int64 sint
        rw [UInt64.ofNat_toNat, UInt64.not_not, Int64.toInt64_toUInt64]
      · show Value.uint64 (UInt64.ofNat sint.toUInt64.toNat) = .uint64 sint.toUInt64
        rw [UInt64.ofNat_toNat]
      · exact absurd (by simpa using hneg) hpos
    | byteString length data =>
      obtain rfl : length = data.length := hfits
      rfl
    | textString length data =>
      obtain rfl : length = data.length := hfits
      rfl
    | array length children =>
      have hfits : children.length = length := hfits
      have hchildren : (children.map ofValue).map value = children.map Value.norm := hchildren
      rw [ofValue, ofValueList_eq_map, Value.norm, Value.normList_eq_map, ← hchildren, ← hfits]
      simp [value, Head.shortest]
    | map length children =>
      have hfits : children.length = 2 * length := hfits
      have hchildren : (children.map ofValue).map value = children.map Value.norm := hchildren
      rw [ofValue, ofValueList_eq_map, Value.norm, Value.normList_eq_map, ← hchildren]
      simp [value, Head.shortest, hfits]
    | tag uint children =>
      have hchildren : (children.map ofValue).map value = children.map Value.norm := hchildren
      rw [ofValue, ofValueList_eq_map, Value.norm, Value.normList_eq_map, ← hchildren]
      simp [value, Head.shortest]

end Wire

/-- A tree with an encoding that fits in memory has numbers that fit as well. -/
theorem Value.lengths_of_encoding {v : Value (List UInt8)} (hv : v.WellFormed) {n : ℕ}
    (h : v.encoding.length < n) : v.All fun v => v.length < n ∧ v.children.length < n := by
  induction v using Value.induction with
  | node v ih =>
    obtain ⟨hfits, hwell⟩ := Value.all_iff.mp hv
    refine Value.all_iff.mpr ?_
    -- the children are parts of the encoding
    have hparts : ∀ {head children},
        v.encoding = (Wire.nested head (Wire.ofValueList children)).bytes →
        children.length < n ∧ ∀ c ∈ children, c.encoding.length < n := by
      intro head children henc
      rw [henc, Wire.bytes] at h
      simp only [List.length_append] at h
      have hle := Wire.length_le_bytesList (Wire.ofValueList children)
      rw [Wire.ofValueList_eq_map] at h hle
      rw [List.length_map] at hle
      refine ⟨by omega, fun c hc => ?_⟩
      have hc := Wire.length_bytes_le_bytesList (List.mem_map_of_mem (f := Wire.ofValue) hc)
      unfold Value.encoding
      omega
    have hzero : 0 < n := by omega
    cases v with
    | byteString length data =>
      obtain rfl : length = data.length := hfits
      have h : (Wire.string (.shortest .byteString data.length) data).bytes.length < n := h
      simp only [Wire.bytes, List.length_append] at h
      exact ⟨⟨by show data.length < _; omega, hzero⟩, by simp [children]⟩
    | textString length data =>
      obtain rfl : length = data.length := hfits
      have h : (Wire.string (.shortest .textString data.length) data).bytes.length < n := h
      simp only [Wire.bytes, List.length_append] at h
      exact ⟨⟨by show data.length < _; omega, hzero⟩, by simp [children]⟩
    | array length children =>
      obtain ⟨hcount, hsizes⟩ := hparts rfl
      have hfits : children.length = length := hfits
      exact ⟨⟨by show length < _; omega, hcount⟩, fun c hc => ih c hc (hwell c hc) (hsizes c hc)⟩
    | map length children =>
      obtain ⟨hcount, hsizes⟩ := hparts rfl
      have hfits : children.length = 2 * length := hfits
      exact ⟨⟨by show length < _; omega, hcount⟩, fun c hc => ih c hc (hwell c hc) (hsizes c hc)⟩
    | tag uint children =>
      obtain ⟨hcount, hsizes⟩ := hparts rfl
      exact ⟨⟨hzero, hcount⟩, fun c hc => ih c hc (hwell c hc) (hsizes c hc)⟩
    | _ => exact ⟨⟨hzero, hzero⟩, by simp [children]⟩

/-! ### Reading undoes writing -/

/-- **An item that is there is read**, when allocations succeed. -/
theorem exists_read {w : Wire} (hholds : Holds M b bs) (hmalloc : ¬b.MallocFails)
    (hscan : scan M.sizeT bs = (.ok w, rest)) :
    ∃ v b', (readWpcpValue M (bs.length + 1)).run b = some (.ok v, b') ∧
      v.deref (StringData.bytes M) = w.value ∧ b'.endPtr = b.endPtr ∧ Holds M b' rest := by
  have hfollows := readWpcpValue_follows_scan hholds (Nat.lt_succ_self bs.length)
  generalize (readWpcpValue M (bs.length + 1)).run b = o at hfollows
  rw [hscan] at hfollows
  cases hfollows with
  | ok hreads hadv hholds' => exact ⟨_, _, rfl, hreads.deref, hadv.endPtr, hholds'⟩
  | failed hfails _ => exact absurd hfails hmalloc

/-- The buffer that is left when what follows an item is `rest` has its cursor there. -/
theorem Holds.beginPtr_eq_sub (h : Holds M b rest) : b.beginPtr = b.endPtr - rest.length := by
  have := h.end_eq
  omega

/-- **Reading undoes writing.** The encoder writes the encoding of a well-formed tree, and
wherever it lies in memory, whatever follows it, reading it gives the tree again, up to
what is not kept, and stops behind it. -/
theorem read_write (v : Value (List UInt8)) (hv : v.WellFormed)
    (hlength : v.encoding.length < 2 ^ 63) (buffer : WriteBuffer) (hbuffer : buffer.Writable) :
    ∃ buffer', buffer.writeWpcpValue .bits64 v = some buffer' ∧ buffer.Adds v.encoding buffer' ∧
      ∀ M b rest, M.sizeT = .bits64 → Holds M b (v.encoding ++ rest) → ¬b.MallocFails →
        ∃ fuel v' b', (readWpcpValue M fuel).run b = some (.ok v', b') ∧
          v'.deref (StringData.bytes M) = v.norm ∧ b'.endPtr = b.endPtr ∧
            b'.beginPtr = b.endPtr - rest.length := by
  have hsized : v.SizedFor .bits64 := Value.lengths_of_encoding hv (show _ < 2 ^ 64 by omega)
  obtain ⟨buffer', hwrite, hadds⟩ := adds_writeWpcpValue hv hsized hbuffer
  refine ⟨buffer', hwrite, hadds, fun M b rest hbits hholds hmalloc => ?_⟩
  have hscan : scan M.sizeT (v.encoding ++ rest) = (.ok (Wire.ofValue v), rest) := by
    rw [hbits]
    exact scan_eq_ok_iff.mpr ⟨Wire.valid_ofValue hv hsized, rfl⟩
  obtain ⟨v', b', hrun, hderef, hend, hholds'⟩ := exists_read hholds hmalloc hscan
  refine ⟨_, v', b', hrun, hderef.trans (Wire.value_ofValue hv), hend, ?_⟩
  rw [hholds'.beginPtr_eq_sub, hend]

/-- The array `[5, SIMPLE_VALUE 276, "hi"]` is read back as `[5, FALSE]` with its text;
5 is an INT64 before and a UINT64 after. -/
theorem read_write_mixed : ∃ buffer',
    (WriteBuffer.init fun _ => true).writeWpcpValue .bits64
        (.array 3 [.int64 5, .simpleValue 276, .textString 2 [0x68, 0x69]]) = some buffer' ∧
      (WriteBuffer.init fun _ => true).Adds [0x83, 0x05, 0xf4, 0x62, 0x68, 0x69] buffer' ∧
      ∀ M b rest, M.sizeT = .bits64 →
        Holds M b ([0x83, 0x05, 0xf4, 0x62, 0x68, 0x69] ++ rest) → ¬b.MallocFails →
          ∃ fuel v' b', (readWpcpValue M fuel).run b = some (.ok v', b') ∧
            v'.deref (StringData.bytes M) =
              .array 3 [.uint64 5, .false, .textString 2 [0x68, 0x69]] ∧
            b'.endPtr = b.endPtr ∧ b'.beginPtr = b.endPtr - rest.length :=
  read_write (.array 3 [.int64 5, .simpleValue 276, .textString 2 [0x68, 0x69]])
    ⟨rfl, trivial, trivial, rfl, trivial⟩ (by decide) (.init fun _ => true)
    WriteBuffer.writable_init

/-! ### Values that were read -/

theorem wellFormed_simpleTypeValue (head : Head) :
    (simpleTypeValue head : Value (List UInt8)).WellFormed := by
  unfold simpleTypeValue Value.ofSimple
  split_ifs
  · trivial
  · trivial
  · trivial
  · split <;> trivial

/-- A list that is mapped to itself is mapped to itself item by item. -/
theorem map_norm_eq_iff {vs : List (Value (List UInt8))} :
    vs.map Value.norm = vs ↔ ∀ v ∈ vs, v.norm = v := by
  induction vs with
  | nil => simp
  | cons v vs ih => simp [ih]

/-- A simple value whose number is one byte is written back as it was read. -/
theorem norm_ofSimple {uint : UInt64} (h : UInt64.ofNat (uint.toNat % 256) = uint) :
    (Value.ofSimple uint : Value (List UInt8)).norm = Value.ofSimple uint := by
  by_cases hnamed : uint = 20 ∨ uint = 21 ∨ uint = 22 ∨ uint = 23
  · obtain rfl | rfl | rfl | rfl := hnamed <;> rfl
  · have hsimple : (Value.ofSimple uint : Value (List UInt8)) = .simpleValue uint := by
      unfold Value.ofSimple
      split <;> simp_all
    rw [hsimple, Value.norm, h, hsimple]

/-- The numbers of SIMPLE_VALUE nodes are written back as they were read. -/
theorem norm_simpleTypeValue {head : Head} {k : ℕ} (h : head.Spelt k) :
    (simpleTypeValue head : Value (List UInt8)).norm = simpleTypeValue head := by
  obtain ⟨hk, hvalue⟩ := h
  obtain ⟨h₁, h₂, h₄, h₈, h₃₁⟩ := additonalBytes_eq
  unfold simpleTypeValue
  split_ifs with h25 h26 h27
  · rfl
  · rfl
  · rfl
  · -- what is left has one byte, in the head or behind it
    have hsmall : head.value < 256 := by
      simp only [argumentBytes] at hk
      split_ifs at hk hvalue
      · omega
      · obtain rfl := Option.some.inj hk
        exact hvalue
      · obtain rfl := Option.some.inj hk
        omega
    have hmod : UInt64.ofNat ((UInt64.ofNat head.value).toNat % 256) =
        UInt64.ofNat head.value := by
      rw [UInt64.toNat_ofNat', Nat.mod_eq_of_lt (a := head.value % 2 ^ 64) (by omega),
        Nat.mod_eq_of_lt (by omega)]
    exact norm_ofSimple hmod

/-- An argument that is spelt has at most eight bytes. -/
theorem Head.Spelt.value_lt {head : Head} {k : ℕ} (h : head.Spelt k) :
    head.value < 2 ^ 64 := by
  obtain ⟨hk, hvalue⟩ := h
  obtain ⟨h₁, h₂, h₄, h₈, h₃₁⟩ := additonalBytes_eq
  have hbytes : k ≤ 8 := by
    simp only [argumentBytes] at hk
    split_ifs at hk <;> simp only [Option.some.injEq] at hk <;> omega
  split_ifs at hvalue
  · omega
  · calc head.value < 256 ^ k := hvalue
      _ ≤ 256 ^ 8 := Nat.pow_le_pow_right (by omega) hbytes
      _ = 2 ^ 64 := by norm_num

/-- A negative integer is an INT64 below zero when its argument is below `2 ^ 63`. -/
theorem int64_nonneg_iff {n : ℕ} (h : n < 2 ^ 64) :
    0 ≤ (~~~UInt64.ofNat n).toInt64 ↔ 2 ^ 63 ≤ n := by
  have hnat : (~~~UInt64.ofNat n).toNat = 2 ^ 64 - 1 - n := by
    rw [UInt64.toNat_not, UInt64.toNat_ofNat', Nat.mod_eq_of_lt h]
    rfl
  have hint : (~~~UInt64.ofNat n).toInt64.toInt =
      (~~~UInt64.ofNat n).toBitVec.toInt := rfl
  have hzero : (0 : Int64).toInt = 0 := rfl
  rw [Int64.le_iff_toInt_le, hint, hzero, BitVec.toInt_eq_toNat_cond, UInt64.toNat_toBitVec,
    hnat]
  split_ifs <;> omega

namespace Wire

/-- **The value of an accepted item is a well-formed tree.** -/
theorem wellFormed_value {sizeT : SizeT} {w : Wire} (h : w.Valid sizeT) :
    w.value.WellFormed := by
  induction w using Wire.induction with
  | leaf head =>
    simp only [value]
    split
    · trivial
    · trivial
    · exact wellFormed_simpleTypeValue head
  | string head content =>
    simp only [value]
    split <;> exact rfl
  | nested head items ih =>
    obtain ⟨-, hfits, hitems⟩ := h
    rw [validList_iff] at hitems
    have hwell : ∀ c ∈ items.map value, c.All Value.Fits := by
      intro c hc
      obtain ⟨w, hw, rfl⟩ := List.mem_map.mp hc
      exact ih w hw (hitems w hw)
    simp only [value, valueList_eq_map]
    cases htype : head.type with
    | byteString => exact rfl
    | textString => exact rfl
    | array => exact Value.all_iff.mpr ⟨List.length_map value, hwell⟩
    | map =>
      rw [Fits, htype] at hfits
      refine Value.all_iff.mpr ⟨?_, hwell⟩
      show (items.map value).length = 2 * (items.length / 2)
      rw [List.length_map]
      omega
    | tag =>
      have hfits : items.length = 1 := by simpa [Fits, htype, Head.count] using hfits
      refine Value.all_iff.mpr ⟨?_, hwell⟩
      show (items.map value).length = 1
      rw [List.length_map, hfits]
    | _ => simp [Fits, htype] at hfits

/-- The value of an item that fits in memory has numbers that fit `size_t`. -/
theorem sized_value {w : Wire} (h : w.bytes.length < 2 ^ 64) : w.value.Sized := by
  have hzero : 0 < 2 ^ 64 := by decide
  induction w using Wire.induction with
  | leaf head =>
    refine Value.all_iff.mpr ?_
    have hnone : (value (.leaf head)).children = [] ∧ (value (.leaf head)).length = 0 := by
      have htype := type_simpleTypeValue (σ := List UInt8) head
      simp only [value]
      split
      · exact ⟨rfl, rfl⟩
      · exact ⟨rfl, rfl⟩
      · revert htype
        cases (simpleTypeValue head : Value (List UInt8)) <;>
          simp [Value.type, Value.children, Value.length]
    rw [hnone.1, hnone.2]
    exact ⟨⟨hzero, hzero⟩, by simp⟩
  | string head content =>
    simp only [bytes, List.length_append] at h
    have hlength : content.length < 2 ^ 64 := by omega
    simp only [value]
    split <;> exact ⟨hlength, hzero⟩
  | nested head items ih =>
    simp only [bytes, List.length_append] at h
    have hitems := length_le_bytesList items
    have hchunks := (Wire.nested head items).length_stringBytes_le
    have hsized : ∀ c ∈ items.map value,
        c.All fun v => v.length < 2 ^ 64 ∧ v.children.length < 2 ^ 64 := by
      intro c hc
      obtain ⟨w, hw, rfl⟩ := List.mem_map.mp hc
      have := length_bytes_le_bytesList hw
      exact ih w hw (by omega)
    have hcount : (items.map value).length < 2 ^ 64 := by
      rw [List.length_map]
      omega
    simp only [value, valueList_eq_map] at hchunks ⊢
    cases htype : head.type with
    | byteString =>
      simp only [htype, Value.stringBytes, bytes, List.length_append] at hchunks
      refine ⟨?_, hzero⟩
      show (chunkBytes items).length < 2 ^ 64
      omega
    | textString =>
      simp only [htype, Value.stringBytes, bytes, List.length_append] at hchunks
      refine ⟨?_, hzero⟩
      show (chunkBytes items).length < 2 ^ 64
      omega
    | array =>
      refine Value.all_iff.mpr ⟨⟨?_, hcount⟩, hsized⟩
      show items.length < 2 ^ 64
      omega
    | map =>
      refine Value.all_iff.mpr ⟨⟨?_, hcount⟩, hsized⟩
      show items.length / 2 < 2 ^ 64
      omega
    | _ => exact Value.all_iff.mpr ⟨⟨hzero, hcount⟩, hsized⟩

mutual

/-- The negative integers in an item are INT64 values: the argument is below `2 ^ 63`. -/
def SmallNegatives : Wire → Prop
  | .leaf head => head.type = .negativeInteger → head.value < 2 ^ 63
  | .string _ _ => True
  | .nested _ items => SmallNegativesList items

/-- `Wpcp.Cbor.Wire.SmallNegatives` for the items inside an item. -/
def SmallNegativesList : List Wire → Prop
  | [] => True
  | w :: ws => SmallNegatives w ∧ SmallNegativesList ws

end

theorem smallNegativesList_iff {ws : List Wire} :
    SmallNegativesList ws ↔ ∀ w ∈ ws, w.SmallNegatives := by
  induction ws with
  | nil => simp [SmallNegativesList]
  | cons w ws ih => simp [SmallNegativesList, ih]

/-- **The value of an item is written back as it was read exactly when its negative
integers are INT64 values.** -/
theorem norm_value_iff {w : Wire} {sizeT : SizeT} (h : w.Valid sizeT) :
    w.value.norm = w.value ↔ w.SmallNegatives := by
  induction w using Wire.induction with
  | leaf head =>
    obtain ⟨⟨⟨k, hspelt⟩, -⟩, -⟩ := h
    simp only [value, SmallNegatives]
    cases htype : head.type with
    | unsignedInteger => simp [Value.norm]
    | negativeInteger =>
      have hnonneg := int64_nonneg_iff (Head.Spelt.value_lt hspelt)
      simp only [Value.norm, forall_const]
      split_ifs with hlarge
      · simpa using hnonneg.mp hlarge
      · simpa using mt hnonneg.mpr hlarge
    | _ => simp [norm_simpleTypeValue hspelt]
  | string head content =>
    simp only [value, SmallNegatives, iff_true]
    split <;> rfl
  | nested head items ih =>
    obtain ⟨-, hfits, hitems⟩ := h
    rw [validList_iff] at hitems
    have hlist : (items.map value).map Value.norm = items.map value ↔
        ∀ w ∈ items, w.SmallNegatives := by
      rw [map_norm_eq_iff, List.forall_mem_map]
      exact forall₂_congr fun w hw => ih w hw (hitems w hw)
    -- the chunks of a string are strings
    have hchunks : head.isString → ∀ w ∈ items, w.SmallNegatives := by
      intro hstring w hw
      have htypes := (hitems w hw).type_eq_iff
      refine (ih w hw (hitems w hw)).mp ?_
      obtain ⟨data, hdata⟩ | ⟨data, hdata⟩ | ⟨hbyte, htext⟩ := w.value_string
      · rw [hdata]
        rfl
      · rw [hdata]
        rfl
      · rw [Ne, htypes.1] at hbyte
        rw [Ne, htypes.2] at htext
        cases htype : head.type <;> simp_all [Fits, Head.isString]
    simp only [value, valueList_eq_map, SmallNegatives, smallNegativesList_iff]
    cases htype : head.type with
    | byteString => simpa [Value.norm] using hchunks (by simp [Head.isString, htype])
    | textString => simpa [Value.norm] using hchunks (by simp [Head.isString, htype])
    | _ => simpa [Value.norm] using hlist

end Wire

/-- The negative integers of the item at the start of a byte string are INT64 values. -/
def smallNegatives (bs : List UInt8) : Prop :=
  match scan .bits64 bs with
  | (.ok w, _) => w.SmallNegatives
  | _ => True

theorem smallNegatives_iff {w : Wire} (h : scan .bits64 bs = (.ok w, rest)) :
    smallNegatives bs ↔ w.SmallNegatives := by
  rw [smallNegatives, h]

/-- A value that is returned is that of an item, unless the cursor has gone round. -/
theorem exists_item_of_read {fuel : ℕ} {v : Value StringData} {b' : ReadBuffer}
    (hholds : Holds M b bs) (htop : b.endPtr + overshoot M.sizeT bs < M.sizeT.count)
    (hread : (readWpcpValue M fuel).run b = some (.ok v, b')) :
    ∃ w rest, scan M.sizeT bs = (.ok w, rest) ∧ w.Valid M.sizeT ∧ bs = w.bytes ++ rest ∧
      v.deref (StringData.bytes M) = w.value := by
  have hread' := Attempt.Extends.of_succ readWpcpValue_extends
    (Nat.le_max_left fuel (bs.length + 1)) _ _ hread
  have hfollows := readWpcpValue_follows_scan hholds
    (show bs.length < max fuel (bs.length + 1) by omega)
  rw [hread'] at hfollows
  rcases hscan : scan M.sizeT bs with ⟨ret, rest⟩
  rw [hscan] at hfollows
  cases hfollows with
  | @ok w v _ b' hreads hadv hholds' =>
    obtain ⟨hvalid, hbytes⟩ := scan_eq_ok_iff.mp hscan
    exact ⟨w, rest, rfl, hvalid, hbytes, hreads.deref⟩
  | wrapped hle _ =>
    rw [overshoot_eq hscan] at htop
    omega

/-- **Writing what was read.** A value that was read is written, without an assertion
failing, and what was written is read again; it is the same value exactly when the
negative integers in the message are INT64 values. -/
theorem echo_iff {fuel : ℕ} {v : Value StringData} {b' : ReadBuffer}
    (hbits : M.sizeT = .bits64) (hholds : Holds M b bs)
    (htop : b.endPtr + overshoot .bits64 bs < SizeT.bits64.count)
    (hread : (readWpcpValue M fuel).run b = some (.ok v, b')) (buffer : WriteBuffer)
    (hbuffer : buffer.Writable) :
    ∃ buffer' bytes, buffer.writeWpcpValue .bits64 (v.deref (StringData.bytes M)) = some buffer' ∧
      buffer.Adds bytes buffer' ∧
      ∀ M₂ b₂ rest, M₂.sizeT = .bits64 → Holds M₂ b₂ (bytes ++ rest) → ¬b₂.MallocFails →
        ∃ fuel₂ v₂ b₂', (readWpcpValue M₂ fuel₂).run b₂ = some (.ok v₂, b₂') ∧
          b₂'.endPtr = b₂.endPtr ∧ b₂'.beginPtr = b₂.endPtr - rest.length ∧
          (v₂.deref (StringData.bytes M₂) = v.deref (StringData.bytes M) ↔ smallNegatives bs) := by
  rw [← hbits] at htop
  obtain ⟨w, rest, hscan, hvalid, rfl, hderef⟩ := exists_item_of_read hholds htop hread
  rw [hbits] at hscan hvalid htop
  rw [hderef]
  have hwell := Wire.wellFormed_value hvalid
  have hsized : w.value.Sized := by
    refine Wire.sized_value ?_
    have hend := hholds.end_eq
    have hlt := hholds.end_lt
    rw [List.length_append] at hend
    rw [hbits] at hlt
    simp only [SizeT.count] at hlt
    omega
  obtain ⟨buffer', hwrite, hadds⟩ := @adds_writeWpcpValue _ .bits64 _ hwell hsized hbuffer
  refine ⟨buffer', w.value.encoding, hwrite, hadds, fun M₂ b₂ rest₂ hbits₂ hholds₂ hmalloc => ?_⟩
  have hscan₂ : scan M₂.sizeT (w.value.encoding ++ rest₂) =
      (.ok (Wire.ofValue w.value), rest₂) := by
    rw [hbits₂]
    exact scan_eq_ok_iff.mpr ⟨Wire.valid_ofValue hwell hsized, rfl⟩
  obtain ⟨v₂, b₂', hrun, hderef₂, hend, hholds₂'⟩ := exists_read hholds₂ hmalloc hscan₂
  refine ⟨_, v₂, b₂', hrun, hend, ?_, ?_⟩
  · rw [hholds₂'.beginPtr_eq_sub, hend]
  · rw [hderef₂, Wire.value_ofValue hwell, smallNegatives_iff hscan]
    exact Wire.norm_value_iff hvalid

/-- The machine that holds `[-1, h'01']`, with a byte string in two chunks. -/
def echoMachine : Machine :=
  .withMessage .bits64 1000 [0x9f, 0x38, 0x00, 0x5f, 0x40, 0x41, 0x01, 0xff, 0xff]

/-- `-1` with its argument in a byte of its own, and a byte string in two chunks, are
written in six bytes fewer and read again. -/
theorem echo_iff_mixed : ∃ v b' buffer' bytes,
    (readWpcpValue echoMachine 10).run ⟨1000, 1009, fun _ => true, false⟩ = some (.ok v, b') ∧
      (WriteBuffer.init fun _ => true).writeWpcpValue .bits64
        (v.deref (StringData.bytes echoMachine)) = some buffer' ∧
      (WriteBuffer.init fun _ => true).Adds bytes buffer' ∧
      ∀ M₂ b₂ rest, M₂.sizeT = .bits64 → Holds M₂ b₂ (bytes ++ rest) → ¬b₂.MallocFails →
        ∃ fuel₂ v₂ b₂', (readWpcpValue M₂ fuel₂).run b₂ = some (.ok v₂, b₂') ∧
          b₂'.endPtr = b₂.endPtr ∧ b₂'.beginPtr = b₂.endPtr - rest.length ∧
          v₂.deref (StringData.bytes M₂) = v.deref (StringData.bytes echoMachine) := by
  have hholds : Holds echoMachine ⟨1000, 1009, fun _ => true, false⟩
      [0x9f, 0x38, 0x00, 0x5f, 0x40, 0x41, 0x01, 0xff, 0xff] :=
    holds_withMessage (by decide) rfl (by decide)
  have hmalloc : ¬ReadBuffer.MallocFails ⟨1000, 1009, fun _ => true, false⟩ := by
    rintro ⟨n, hn⟩
    exact Bool.false_ne_true hn.symm
  let negative : Wire := .leaf ⟨.negativeInteger, 24, 0⟩
  let chunks : Wire := .nested ⟨.byteString, 31, 0⟩
    [.string ⟨.byteString, 0, 0⟩ [], .string ⟨.byteString, 1, 1⟩ [0x01]]
  have hscan : scan echoMachine.sizeT [0x9f, 0x38, 0x00, 0x5f, 0x40, 0x41, 0x01, 0xff, 0xff] =
      (.ok (.nested ⟨.array, 31, 0⟩ [negative, chunks]), []) := rfl
  obtain ⟨v, b', hrun, -⟩ := exists_read hholds hmalloc hscan
  obtain ⟨buffer', bytes, hwrite, hadds, hback⟩ :=
    echo_iff rfl hholds (by decide) hrun (.init fun _ => true) WriteBuffer.writable_init
  refine ⟨v, b', buffer', bytes, hrun, hwrite, hadds, fun M₂ b₂ rest hbits hholds₂ hmalloc₂ => ?_⟩
  obtain ⟨fuel₂, v₂, b₂', hrun₂, hend, hbegin, hsame⟩ := hback M₂ b₂ rest hbits hholds₂ hmalloc₂
  refine ⟨fuel₂, v₂, b₂', hrun₂, hend, hbegin, hsame.mpr ?_⟩
  simp [smallNegatives_iff hscan, negative, chunks, Wire.SmallNegatives, Wire.SmallNegativesList]

/-- `-2 ^ 64`, the least integer a message can hold. -/
def leastIntegerMachine : Machine :=
  .withMessage .bits64 1000 [0x3b, 0xff, 0xff, 0xff, 0xff, 0xff, 0xff, 0xff, 0xff]

/-- **A negative integer that comes back positive**: the least integer is read as the
INT64 0, which is written as one byte and read back as the UINT64 0. -/
theorem echo_changed :
    (readWpcpValue leastIntegerMachine 1).run ⟨1000, 1009, fun _ => true, false⟩ =
        some (.ok (.int64 0), ⟨1009, 1009, fun _ => true, false⟩) ∧
      ∃ buffer', (WriteBuffer.init fun _ => true).writeWpcpValue .bits64 (.int64 0) =
          some buffer' ∧
        buffer'.writeWriteBuffer = some [0x00] ∧
        (readWpcpValue (.withMessage .bits64 1000 [0x00]) 1).run
          ⟨1000, 1001, fun _ => true, false⟩ =
          some (.ok (.uint64 0), ⟨1001, 1001, fun _ => true, false⟩) ∧
        (Value.uint64 0 : Value (List UInt8)) ≠ .int64 0 := by
  refine ⟨?_, _, rfl, rfl, ?_, nofun⟩
  · have hhead : (readHead leastIntegerMachine).run ⟨1000, 1009, fun _ => true, false⟩ =
        some (.ok ⟨.negativeInteger, 27, 2 ^ 64 - 1⟩, ⟨1009, 1009, fun _ => true, false⟩) := rfl
    rw [readWpcpValue, Attempt.run_bind_ok hhead]
    rfl
  · rfl

end Wpcp.Cbor
