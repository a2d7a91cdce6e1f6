import Wpcp.Cbor.Scan
import Wpcp.Cbor.Writer

/-!
# The item the encoder writes for a value

A value has many spellings; the encoder writes one of them, with the shortest heads and
without indefinite lengths. `Wpcp.Cbor.Wire.ofValue` is this item, and the encoder writes
its bytes (`Wpcp.Cbor.adds_writeWpcpValue`). Of a well-formed tree it is an accepted item
(`Wpcp.Cbor.Wire.valid_ofValue`), and its value is the tree again, up to
`Wpcp.Cbor.Value.norm` (`Wpcp.Cbor.Wire.value_ofValue`).
-/

namespace Wpcp.Cbor

/-! ### Heads -/

/-- The low bits of the first byte of the shortest head for an argument. -/
def shortestFirstByte (value : ℕ) : ℕ :=
  if value < additonalBytes1 then value
  else if value ≤ 0xff then additonalBytes1
  else if value ≤ 0xffff then additonalBytes2
  else if value ≤ 0xffffffff then additonalBytes4
  else additonalBytes8

/-- The shortest head with an argument. -/
def Head.shortest (type : MajorType) (value : ℕ) : Head := ⟨type, shortestFirstByte value, value⟩

theorem Head.shortest_spelt (type : MajorType) {value : ℕ} (h : value < 2 ^ 64) :
    ∃ k, (Head.shortest type value).Spelt k := by
  unfold Head.shortest shortestFirstByte
  split_ifs with h₀ h₁ h₂ h₄
  · refine ⟨0, argumentBytes_of_lt h₀, ?_⟩
    rw [if_pos h₀]
  · refine ⟨1, rfl, ?_⟩
    show value < 256 ^ 1
    omega
  · refine ⟨2, rfl, ?_⟩
    show value < 256 ^ 2
    omega
  · refine ⟨4, rfl, ?_⟩
    show value < 256 ^ 4
    omega
  · refine ⟨8, rfl, ?_⟩
    show value < 256 ^ 8
    omega

theorem Head.shortest_firstByte_ne (type : MajorType) (value : ℕ) :
    (Head.shortest type value).firstByte ≠ indefiniteLength := by
  obtain ⟨h₁, h₂, h₄, h₈, h₃₁⟩ := additonalBytes_eq
  simp only [Head.shortest, shortestFirstByte]
  split_ifs <;> omega

@[simp] theorem Head.isIndefinite_shortest (type : MajorType) (value : ℕ) :
    (Head.shortest type value).isIndefinite = false :=
  decide_eq_false (Head.shortest_firstByte_ne type value)

@[simp] theorem Head.stop_shortest (type : MajorType) (value : ℕ) :
    (Head.shortest type value).stop = [] := by
  simp [Head.stop]

/-- The shortest head is accepted. -/
theorem Head.valid_shortest {sizeT : SizeT} (type : MajorType) {value : ℕ} (h : value < 2 ^ 64)
    (hlength : type.hasLength → value < sizeT.count) : (Head.shortest type value).Valid sizeT :=
  ⟨Head.shortest_spelt type h,
    fun hfirst => absurd hfirst (Head.shortest_firstByte_ne type value), hlength⟩

namespace WriteBuffer

variable (buffer : WriteBuffer) (type : MajorType)

theorem writeTypeAndUint32Value_eq {value : ℕ} (h : value < 2 ^ 32) :
    buffer.writeTypeAndUint32Value type value =
      buffer.write (Head.shortest type value).bytes := by
  simp only [writeTypeAndUint32Value, Head.bytes, Head.shortest, shortestFirstByte]
  split_ifs with h₀ h₁ h₂ h₄
  · rw [argumentBytes_of_lt h₀]
    rfl
  · rfl
  · rfl
  · rfl
  · omega

/-- **The encoder writes the shortest head.** -/
theorem writeTypeAndUint64Value_eq {value : ℕ} (h : value < 2 ^ 64) :
    buffer.writeTypeAndUint64Value type value =
      buffer.write (Head.shortest type value).bytes := by
  rcases Nat.lt_or_ge 0xffffffff value with hlarge | hsmall
  · have hfirst : shortestFirstByte value = additonalBytes8 := by
      obtain ⟨h₁, -⟩ := additonalBytes_eq
      simp only [shortestFirstByte]
      split_ifs <;> omega
    have hbytes : BigEndian.bytes 4 (value / 2 ^ 32) ++ BigEndian.bytes 4 (value % 2 ^ 32) =
        BigEndian.bytes 8 value := by
      rw [show (8 : ℕ) = 4 + 4 from rfl, BigEndian.bytes_add]
      congr 1
      exact BigEndian.bytes_mod 4 value
    simp only [writeTypeAndUint64Value, Head.bytes, Head.shortest, hfirst]
    rw [if_neg (by omega), writeHeaderAndUint64, hbytes]
    rfl
  · rw [writeTypeAndUint64Value, if_pos hsmall, writeTypeAndUint32Value_eq _ _ (by omega)]

theorem writeTypeAndUint8Value_eq {value : ℕ} (h : value < 256) :
    buffer.writeTypeAndUint8Value type value =
      buffer.write (Head.shortest type value).bytes := by
  have h32 := writeTypeAndUint32Value_eq buffer type (show value < 2 ^ 32 by omega)
  rw [← h32, writeTypeAndUint8Value, writeTypeAndUint32Value]
  split_ifs with h₀ h₁
  · rfl
  · rfl
  · omega
  · omega

/-- What is written as a size is written with the shortest head, for either width. -/
theorem writeTypeAndSizeValue_eq {sizeT : SizeT} {value : ℕ} (h : value < sizeT.count) :
    buffer.writeTypeAndSizeValue sizeT type value =
      buffer.write (Head.shortest type value).bytes := by
  cases sizeT with
  | bits32 => exact writeTypeAndUint32Value_eq buffer type h
  | bits64 => exact writeTypeAndUint64Value_eq buffer type h

end WriteBuffer

/-! ### Items -/

namespace Wire

mutual

/-- The item the encoder writes for a value. -/
def ofValue : Value (List UInt8) → Wire
  | .false => .leaf ⟨.floatingPointAndSimpleTypes, 20, 20⟩
  | .true => .leaf ⟨.floatingPointAndSimpleTypes, 21, 21⟩
  | .null => .leaf ⟨.floatingPointAndSimpleTypes, 22, 22⟩
  | .undefined => .leaf ⟨.floatingPointAndSimpleTypes, 23, 23⟩
  | .simpleValue uint => .leaf (.shortest .floatingPointAndSimpleTypes (uint.toNat % 256))
  | .float flt => .leaf ⟨.floatingPointAndSimpleTypes, additonalBytes4, flt.toNat⟩
  | .double dbl => .leaf ⟨.floatingPointAndSimpleTypes, additonalBytes8, dbl.toNat⟩
  | .uint64 uint => .leaf (.shortest .unsignedInteger uint.toNat)
  | .int64 sint =>
    if sint < 0 then .leaf (.shortest .negativeInteger (~~~sint.toUInt64).toNat)
    else .leaf (.shortest .unsignedInteger sint.toUInt64.toNat)
  | .byteString length data => .string (.shortest .byteString length) data
  | .textString length data => .string (.shortest .textString length) data
  | .array length children => .nested (.shortest .array length) (ofValueList children)
  | .map length children => .nested (.shortest .map length) (ofValueList children)
  | .tag uint children => .nested (.shortest .tag uint.toNat) (ofValueList children)

/-- `Wpcp.Cbor.Wire.ofValue` for the nodes of one parent. -/
def ofValueList : List (Value (List UInt8)) → List Wire
  | [] => []
  | v :: vs => ofValue v :: ofValueList vs

end

@[simp] theorem ofValueList_eq_map (vs : List (Value (List UInt8))) :
    ofValueList vs = vs.map ofValue := by
  induction vs with
  | nil => rfl
  | cons v vs ih => simp [ofValueList, ih]

end Wire

/-- The bytes the encoder writes for a value. -/
def Value.encoding (v : Value (List UInt8)) : List UInt8 := (Wire.ofValue v).bytes

/-- A tree whose numbers of children and of bytes fit a `size_t` of the given width. -/
def Value.SizedFor (sizeT : SizeT) (v : Value (List UInt8)) : Prop :=
  v.All fun v => v.length < sizeT.count ∧ v.children.length < sizeT.count

/-- A tree whose numbers of children and of bytes fit `size_t`. -/
def Value.Sized (v : Value (List UInt8)) : Prop :=
  v.All fun v => v.length < 2 ^ 64 ∧ v.children.length < 2 ^ 64

/-! ### Writing -/

section Writing

variable {buffer : WriteBuffer} {sizeT : SizeT}

theorem adds_writeType (h : buffer.Writable) (type : MajorType) {value : ℕ}
    (hvalue : value < 2 ^ 64) : buffer.Adds (Head.shortest type value).bytes
      (buffer.writeTypeAndUint64Value type value) := by
  rw [buffer.writeTypeAndUint64Value_eq type hvalue]
  exact WriteBuffer.adds_write h _

theorem adds_writeSize (h : buffer.Writable) (type : MajorType) {value : ℕ}
    (hvalue : value < sizeT.count) : buffer.Adds (Head.shortest type value).bytes
      (buffer.writeTypeAndSizeValue sizeT type value) := by
  rw [buffer.writeTypeAndSizeValue_eq type hvalue]
  exact WriteBuffer.adds_write h _

/-- A string after its head. -/
theorem adds_writeString (h : buffer.Writable) (type : MajorType) {data : List UInt8}
    (hlength : data.length < sizeT.count) :
    ∃ buffer', (buffer.writeTypeAndSizeValue sizeT type data.length).writeRaw data data.length =
      some buffer' ∧ buffer.Adds ((Head.shortest type data.length).bytes ++ data) buffer' := by
  have hhead := adds_writeSize h type hlength
  obtain ⟨buffer', hraw, hadds⟩ := WriteBuffer.adds_writeRaw hhead.writable data
  exact ⟨buffer', hraw, hhead.trans hadds⟩

/-- The nodes of one parent, when each of them is written. -/
theorem adds_writeWpcpValues {vs : List (Value (List UInt8))}
    (hvs : ∀ v ∈ vs, ∀ {buffer : WriteBuffer}, buffer.Writable →
      ∃ buffer', buffer.writeWpcpValue sizeT v = some buffer' ∧
        buffer.Adds (Wire.ofValue v).bytes buffer') (h : buffer.Writable) :
    ∃ buffer', buffer.writeWpcpValues sizeT vs.length vs = some buffer' ∧
      buffer.Adds (Wire.bytesList (Wire.ofValueList vs)) buffer' := by
  induction vs generalizing buffer with
  | nil => exact ⟨buffer, rfl, h.adds_nil⟩
  | cons v vs ih =>
    obtain ⟨buffer₁, hv, hadds⟩ := hvs v (by simp) h
    obtain ⟨buffer₂, hrest, hadds'⟩ := ih (fun u hu => hvs u (by simp [hu])) hadds.writable
    refine ⟨buffer₂, ?_, hadds.trans hadds'⟩
    rw [WriteBuffer.writeWpcpValues, if_neg (by simp), hv]
    simpa using hrest

/-- The nodes of one parent after its head. -/
theorem adds_writeNested {vs : List (Value (List UInt8))}
    (hvs : ∀ v ∈ vs, ∀ {buffer : WriteBuffer}, buffer.Writable →
      ∃ buffer', buffer.writeWpcpValue sizeT v = some buffer' ∧
        buffer.Adds (Wire.ofValue v).bytes buffer') {type : MajorType} {value count : ℕ}
    {buffer₁ : WriteBuffer} (hhead : buffer.Adds (Head.shortest type value).bytes buffer₁)
    (hcount : count = vs.length) :
    ∃ buffer', buffer₁.writeWpcpValues sizeT count vs = some buffer' ∧
      buffer.Adds (Wire.nested (.shortest type value) (Wire.ofValueList vs)).bytes buffer' := by
  subst hcount
  obtain ⟨buffer', hrest, hadds⟩ := adds_writeWpcpValues hvs hhead.writable
  refine ⟨buffer', hrest, ?_⟩
  rw [Wire.bytes, Head.stop_shortest, List.append_nil]
  exact hhead.trans hadds

/-- **The encoder writes the bytes of the item of a value**, and never meets its
assertion, when the tree is well-formed. -/
theorem adds_writeWpcpValue {v : Value (List UInt8)} (hv : v.WellFormed)
    (hsized : v.SizedFor sizeT) (h : buffer.Writable) :
    ∃ buffer', buffer.writeWpcpValue sizeT v = some buffer' ∧ buffer.Adds v.encoding buffer' := by
  induction v using Value.induction generalizing buffer with
  | node v ih =>
    obtain ⟨hfits, hwell⟩ := Value.all_iff.mp hv
    obtain ⟨⟨hlength, hcount⟩, hsizes⟩ := Value.all_iff.mp hsized
    have hchildren : ∀ c ∈ v.children, ∀ {buffer : WriteBuffer}, buffer.Writable →
        ∃ buffer', buffer.writeWpcpValue sizeT c = some buffer' ∧
          buffer.Adds (Wire.ofValue c).bytes buffer' :=
      fun c hc _ hbuffer => ih c hc (hwell c hc) (hsizes c hc) hbuffer
    unfold Value.encoding
    cases v with
    | false => exact ⟨_, rfl, WriteBuffer.adds_write h _⟩
    | true => exact ⟨_, rfl, WriteBuffer.adds_write h _⟩
    | null => exact ⟨_, rfl, WriteBuffer.adds_write h _⟩
    | undefined => exact ⟨_, rfl, WriteBuffer.adds_write h _⟩
    | simpleValue uint =>
      refine ⟨_, rfl, ?_⟩
      rw [WriteBuffer.writeTypeAndUint8Value_eq _ _ (by omega)]
      exact WriteBuffer.adds_write h _
    | float flt => exact ⟨_, rfl, WriteBuffer.adds_write h _⟩
    | double dbl =>
      refine ⟨_, rfl, ?_⟩
      have hbytes : BigEndian.bytes 4 (dbl.toNat / 2 ^ 32) ++
          BigEndian.bytes 4 (dbl.toNat % 2 ^ 32) = BigEndian.bytes 8 dbl.toNat := by
        rw [show (8 : ℕ) = 4 + 4 from rfl, BigEndian.bytes_add]
        congr 1
        exact BigEndian.bytes_mod 4 dbl.toNat
      rw [WriteBuffer.writeDouble, WriteBuffer.writeHeaderAndUint64, hbytes]
      exact WriteBuffer.adds_write h _
    | uint64 uint => exact ⟨_, rfl, adds_writeType h _ uint.toNat_lt⟩
    | int64 sint =>
      simp only [WriteBuffer.writeWpcpValue, Wire.ofValue]
      split_ifs
      · exact ⟨_, rfl, adds_writeType h _ (UInt64.toNat_lt _)⟩
      · exact ⟨_, rfl, adds_writeType h _ (UInt64.toNat_lt _)⟩
    | byteString length data =>
      obtain rfl : length = data.length := hfits
      exact adds_writeString h .byteString hlength
    | textString length data =>
      obtain rfl : length = data.length := hfits
      exact adds_writeString h .textString hlength
    | array length children =>
      have hfits : children.length = length := hfits
      exact adds_writeNested hchildren (adds_writeSize h .array hlength) hfits.symm
    | map length children =>
      have hfits : children.length = 2 * length := hfits
      have hcount : children.length < sizeT.count := hcount
      refine adds_writeNested hchildren (adds_writeSize h .map hlength) ?_
      rw [Nat.mod_eq_of_lt (by omega), Nat.mul_comm]
      exact hfits.symm
    | tag uint children =>
      have hfits : children.length = 1 := hfits
      exact adds_writeNested hchildren (adds_writeType h .tag uint.toNat_lt) hfits.symm

end Writing

end Wpcp.Cbor
