import Mathlib.Data.Nat.Bitwise
import Mathlib.Tactic.IntervalCases
import Wpcp.Lib.BigEndian

/-!
# The head of an item

Every item starts with a byte that holds the major type in its three high bits and,
in the five low bits, either the argument of the item itself, how many bytes the
argument takes, or the mark of an indefinite length. The encoder builds the byte with
`Wpcp.Cbor.constructHeader`, the decoder takes it apart with `Wpcp.Cbor.headerType` and
`Wpcp.Cbor.headerInfo`.
-/

namespace Wpcp.Cbor

/-- The width of `size_t` and of a pointer. -/
inductive SizeT where
  | bits32
  | bits64
  deriving DecidableEq

/-- How many values `size_t` has: `SIZE_MAX + 1`. -/
def SizeT.count : SizeT → ℕ
  | .bits32 => 2 ^ 32
  | .bits64 => 2 ^ 64

/-- `enum wpcp_cbor_major_type_t` -/
inductive MajorType where
  | unsignedInteger
  | negativeInteger
  | byteString
  | textString
  | array
  | map
  | tag
  | floatingPointAndSimpleTypes
  deriving DecidableEq

namespace MajorType

/-- The number of a major type. -/
def toNat : MajorType → ℕ
  | .unsignedInteger => 0
  | .negativeInteger => 1
  | .byteString => 2
  | .textString => 3
  | .array => 4
  | .map => 5
  | .tag => 6
  | .floatingPointAndSimpleTypes => 7

/-- The major type of a number of three bits. -/
def ofBits : ℕ → MajorType
  | 0 => .unsignedInteger
  | 1 => .negativeInteger
  | 2 => .byteString
  | 3 => .textString
  | 4 => .array
  | 5 => .map
  | 6 => .tag
  | _ => .floatingPointAndSimpleTypes

/-- The types whose argument is a length, which are those that can have an indefinite
one. -/
def hasLength : MajorType → Bool
  | .byteString | .textString | .array | .map => true
  | _ => false

theorem toNat_lt (type : MajorType) : type.toNat < 8 := by
  cases type <;> decide

@[simp] theorem ofBits_toNat (type : MajorType) : ofBits type.toNat = type := by
  cases type <;> rfl

theorem toNat_ofBits {n : ℕ} (h : n < 8) : (ofBits n).toNat = n := by
  interval_cases n <;> rfl

end MajorType

/-- `WPCP_CBOR_ADDITONAL_BYTES_1` -/
abbrev additonalBytes1 : ℕ := 24

/-- `WPCP_CBOR_ADDITONAL_BYTES_2` -/
abbrev additonalBytes2 : ℕ := 25

/-- `WPCP_CBOR_ADDITONAL_BYTES_4` -/
abbrev additonalBytes4 : ℕ := 26

/-- `WPCP_CBOR_ADDITONAL_BYTES_8` -/
abbrev additonalBytes8 : ℕ := 27

/-- `WPCP_CBOR_INDEFINITE_LENGTH` -/
abbrev indefiniteLength : ℕ := 31

/-- The five values of the low bits that are named, as numbers. -/
theorem additonalBytes_eq : additonalBytes1 = 24 ∧ additonalBytes2 = 25 ∧ additonalBytes4 = 26 ∧
    additonalBytes8 = 27 ∧ indefiniteLength = 31 := ⟨rfl, rfl, rfl, rfl, rfl⟩

/-- `WPCP_CBOR_STOP_CODE` -/
abbrev stopCode : UInt8 := 0xff

/-- `wpcp_cbor_construct_header`; every caller passes a `value` of five bits, which the
assertion in it asks for. -/
def constructHeader (type : MajorType) (value : ℕ) : UInt8 :=
  UInt8.ofNat (type.toNat <<< 5 ||| value)

/-- `(enum wpcp_cbor_major_type_t) first_byte >> 5` -/
def headerType (firstByte : ℕ) : MajorType := MajorType.ofBits (firstByte >>> 5)

/-- `first_byte & 0x1f` -/
def headerInfo (firstByte : ℕ) : ℕ := firstByte &&& 0x1f

theorem headerType_eq (firstByte : ℕ) :
    headerType firstByte = MajorType.ofBits (firstByte / 32) := by
  rw [headerType, Nat.shiftRight_eq_div_pow]

theorem headerInfo_eq (firstByte : ℕ) : headerInfo firstByte = firstByte % 32 :=
  Nat.and_two_pow_sub_one_eq_mod firstByte 5

theorem headerInfo_lt (firstByte : ℕ) : headerInfo firstByte < 32 := by
  rw [headerInfo_eq]
  omega

/-- The byte `constructHeader` builds, as a number. -/
theorem toNat_constructHeader {type : MajorType} {value : ℕ} (h : value < 32) :
    (constructHeader type value).toNat = type.toNat * 32 + value := by
  have hlt := type.toNat_lt
  have hor : type.toNat <<< 5 ||| value = type.toNat * 32 + value := by
    rw [← Nat.shiftLeft_add_eq_or_of_lt h, Nat.shiftLeft_eq]
  rw [constructHeader, hor, UInt8.toNat_ofNat']
  omega

/-- **The decoder takes the byte apart into what it was built from.** -/
theorem headerType_constructHeader {type : MajorType} {value : ℕ} (h : value < 32) :
    headerType (constructHeader type value).toNat = type := by
  rw [headerType_eq, toNat_constructHeader h,
    show (type.toNat * 32 + value) / 32 = type.toNat by omega, MajorType.ofBits_toNat]

/-- The low bits of the byte `constructHeader` builds. -/
theorem headerInfo_constructHeader {type : MajorType} {value : ℕ} (h : value < 32) :
    headerInfo (constructHeader type value).toNat = value := by
  rw [headerInfo_eq, toNat_constructHeader h]
  omega

/-- A byte is built from the parts the decoder takes it apart into. -/
theorem constructHeader_header (b : UInt8) :
    constructHeader (headerType b.toNat) (headerInfo b.toNat) = b := by
  have hb := b.toNat_lt
  have hdiv : b.toNat / 32 < 8 := by omega
  apply UInt8.toNat_inj.mp
  rw [toNat_constructHeader (headerInfo_lt _), headerType_eq, headerInfo_eq,
    MajorType.toNat_ofBits hdiv]
  omega

/-- The head of an item: its type, the low bits of the first byte, the argument. -/
structure Head where
  type : MajorType
  firstByte : ℕ
  value : ℕ
  deriving DecidableEq

end Wpcp.Cbor
