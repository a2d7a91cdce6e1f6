import Wpcp.Cbor.Header

/-!
# Values of the CBOR layer

`struct wpcp_value_t` is a node with a type, a number or a length, and either the
bytes of a string or the first of its children, which are linked by `next`. Here the
nodes of one parent are a list, and the length a node carries is kept apart from the
list: nothing forces the two to agree, and the encoder trusts the length
(`Wpcp.Cbor.Value.WellFormed` says when they do).

What a string node points to differs: an application's value has its bytes, a value
that was just read points into the message. So the type is generic in it, and
`Wpcp.Cbor.Value.deref` replaces each pointer by the bytes it points to.

Floating-point values are kept as their bit patterns, which is how the encoder and
the decoder move them.
-/

namespace Wpcp.Cbor

/-- `enum wpcp_value_type_t` -/
inductive ValueType where
  | false
  | true
  | null
  | undefined
  | simpleValue
  | float
  | double
  | uint64
  | int64
  | byteString
  | textString
  | array
  | map
  | tag
  deriving DecidableEq

/-- `struct wpcp_value_t`, with the strings of type `σ`: each constructor is a type
with the members of the two unions it uses. -/
inductive Value (σ : Type) where
  | false
  | true
  | null
  | undefined
  | simpleValue (uint : UInt64)
  | float (flt : UInt32)
  | double (dbl : UInt64)
  | uint64 (uint : UInt64)
  | int64 (sint : Int64)
  | byteString (length : ℕ) (byteString : σ)
  | textString (length : ℕ) (textString : σ)
  | array (length : ℕ) (children : List (Value σ))
  | map (length : ℕ) (children : List (Value σ))
  | tag (uint : UInt64) (children : List (Value σ))

namespace Value

variable {σ τ : Type}

/-- The type of a node. -/
def type : Value σ → ValueType
  | .false => .false
  | .true => .true
  | .null => .null
  | .undefined => .undefined
  | .simpleValue _ => .simpleValue
  | .float _ => .float
  | .double _ => .double
  | .uint64 _ => .uint64
  | .int64 _ => .int64
  | .byteString _ _ => .byteString
  | .textString _ _ => .textString
  | .array _ _ => .array
  | .map _ _ => .map
  | .tag _ _ => .tag

/-- `value->value.length`, of the nodes that have one. -/
def length : Value σ → ℕ
  | .byteString length _ => length
  | .textString length _ => length
  | .array length _ => length
  | .map length _ => length
  | _ => 0

mutual

/-- Replace what each string of a tree points to; the function is given the length of
the string. -/
def deref (f : ℕ → σ → τ) : Value σ → Value τ
  | .false => .false
  | .true => .true
  | .null => .null
  | .undefined => .undefined
  | .simpleValue uint => .simpleValue uint
  | .float flt => .float flt
  | .double dbl => .double dbl
  | .uint64 uint => .uint64 uint
  | .int64 sint => .int64 sint
  | .byteString length data => .byteString length (f length data)
  | .textString length data => .textString length (f length data)
  | .array length children => .array length (derefList f children)
  | .map length children => .map length (derefList f children)
  | .tag uint children => .tag uint (derefList f children)

/-- `Wpcp.Cbor.Value.deref` for the nodes of one parent. -/
def derefList (f : ℕ → σ → τ) : List (Value σ) → List (Value τ)
  | [] => []
  | v :: vs => deref f v :: derefList f vs

end

mutual

/-- The strings of a tree: of each its length and what it points to. -/
def strings : Value σ → List (ℕ × σ)
  | .byteString length data => [(length, data)]
  | .textString length data => [(length, data)]
  | .array _ children => stringsList children
  | .map _ children => stringsList children
  | .tag _ children => stringsList children
  | _ => []

/-- `Wpcp.Cbor.Value.strings` for the nodes of one parent. -/
def stringsList : List (Value σ) → List (ℕ × σ)
  | [] => []
  | v :: vs => strings v ++ stringsList vs

end

/-- The bytes of a string node; `f` is given the length and what the node points to. -/
def stringBytes (f : ℕ → σ → List UInt8) : Value σ → List UInt8
  | .byteString length data => f length data
  | .textString length data => f length data
  | _ => []

/-- The nodes linked below a node. -/
def children : Value σ → List (Value σ)
  | .array _ children => children
  | .map _ children => children
  | .tag _ children => children
  | _ => []

mutual

/-- A property of every node of a tree. -/
def All (p : Value σ → Prop) : Value σ → Prop
  | .array length children => p (.array length children) ∧ AllList p children
  | .map length children => p (.map length children) ∧ AllList p children
  | .tag uint children => p (.tag uint children) ∧ AllList p children
  | v => p v

/-- `Wpcp.Cbor.Value.All` for the nodes of one parent. -/
def AllList (p : Value σ → Prop) : List (Value σ) → Prop
  | [] => True
  | v :: vs => All p v ∧ AllList p vs

end

/-- The length of a node is what it says it is. -/
def Fits : Value (List UInt8) → Prop
  | .byteString length data => length = data.length
  | .textString length data => length = data.length
  | .array length children => children.length = length
  | .map length children => children.length = 2 * length
  | .tag _ children => children.length = 1
  | _ => True

/-- A well-formed tree. -/
def WellFormed (v : Value (List UInt8)) : Prop := v.All Fits

/-- The simple value of a number, as the decoder types it. -/
def ofSimple (uint : UInt64) : Value σ :=
  match uint with
  | 20 => .false
  | 21 => .true
  | 22 => .null
  | 23 => .undefined
  | uint => .simpleValue uint

mutual

/-- What a tree becomes when it is written and read back: a non-negative INT64 is the
UINT64 of the same number, and a SIMPLE_VALUE is cut to the byte that is written. -/
def norm : Value σ → Value σ
  | .simpleValue uint => ofSimple (UInt64.ofNat (uint.toNat % 256))
  | .int64 sint => if 0 ≤ sint then .uint64 sint.toUInt64 else .int64 sint
  | .array length children => .array length (normList children)
  | .map length children => .map length (normList children)
  | .tag uint children => .tag uint (normList children)
  | v => v

/-- `Wpcp.Cbor.Value.norm` for the nodes of one parent. -/
def normList : List (Value σ) → List (Value σ)
  | [] => []
  | v :: vs => norm v :: normList vs

end

/-! ### Trees and lists of nodes -/

/-- **Induction over the nodes of a tree.** -/
@[elab_as_elim] theorem induction {P : Value σ → Prop}
    (node : ∀ v, (∀ c ∈ v.children, P c) → P v) (v : Value σ) : P v := by
  have hleaf : ∀ v : Value σ, v.children = [] → P v := fun v hv => node v (by simp [hv])
  refine @Value.rec σ P (fun vs => ∀ v ∈ vs, P v)
    (hleaf _ rfl) (hleaf _ rfl) (hleaf _ rfl) (hleaf _ rfl) (fun _ => hleaf _ rfl)
    (fun _ => hleaf _ rfl) (fun _ => hleaf _ rfl) (fun _ => hleaf _ rfl) (fun _ => hleaf _ rfl)
    (fun _ _ => hleaf _ rfl) (fun _ _ => hleaf _ rfl) (fun n vs => node (.array n vs))
    (fun n vs => node (.map n vs)) (fun u vs => node (.tag u vs)) ?_ ?_ v
  · simp
  · rintro v vs hv hvs c hc
    obtain rfl | hc := List.mem_cons.mp hc
    · exact hv
    · exact hvs c hc

theorem allList_iff {p : Value σ → Prop} {vs : List (Value σ)} :
    AllList p vs ↔ ∀ v ∈ vs, v.All p := by
  induction vs with
  | nil => simp [AllList]
  | cons v vs ih => simp [AllList, ih]

/-- A property of every node, one node at a time. -/
theorem all_iff {p : Value σ → Prop} {v : Value σ} :
    v.All p ↔ p v ∧ ∀ c ∈ v.children, c.All p := by
  cases v <;> simp [All, children, allList_iff]

/-- A property of every node gives what follows from it for one node. -/
theorem All.imp {p q : Value σ → Prop} {v : Value σ} (h : v.All p) (hpq : ∀ v, p v → q v) :
    v.All q := by
  induction v using Value.induction with
  | node v ih =>
    obtain ⟨hp, hchildren⟩ := all_iff.mp h
    exact all_iff.mpr ⟨hpq v hp, fun c hc => ih c hc (hchildren c hc)⟩

section Deref

variable (f : ℕ → σ → τ)

@[simp] theorem derefList_eq_map (vs : List (Value σ)) : derefList f vs = vs.map (deref f) := by
  induction vs with
  | nil => rfl
  | cons v vs ih => simp [derefList, ih]

@[simp] theorem normList_eq_map (vs : List (Value σ)) : normList vs = vs.map norm := by
  induction vs with
  | nil => rfl
  | cons v vs ih => simp [normList, ih]

theorem mem_stringsList {vs : List (Value σ)} {p : ℕ × σ} :
    p ∈ stringsList vs ↔ ∃ v ∈ vs, p ∈ strings v := by
  induction vs with
  | nil => simp [stringsList]
  | cons v vs ih => simp [stringsList, ih]

@[simp] theorem type_deref (v : Value σ) : (v.deref f).type = v.type := by
  cases v <;> rfl

@[simp] theorem length_deref (v : Value σ) : (v.deref f).length = v.length := by
  cases v <;> rfl

theorem stringBytes_deref (f : ℕ → σ → List UInt8) (v : Value σ) :
    (v.deref f).stringBytes (fun _ data => data) = v.stringBytes f := by
  cases v <;> rfl

@[simp] theorem deref_ofSimple (uint : UInt64) :
    (ofSimple uint : Value σ).deref f = ofSimple uint := by
  unfold ofSimple
  split <;> rfl

@[simp] theorem strings_ofSimple (uint : UInt64) : (ofSimple uint : Value σ).strings = [] := by
  unfold ofSimple
  split <;> rfl

end Deref

end Value

/-- `wpcp_cbor_decode_half`, to the bit pattern of the result. The product with
`2 ^ -24` is exact: the highest bit of the fraction becomes the implicit one. -/
def decodeHalf (value : UInt32) : UInt32 :=
  let sign := value &&& 0x8000
  let exponent := value &&& 0x7c00
  let fraction := value &&& 0x03ff
  if exponent = 0 ∧ fraction ≠ 0 then
    let high := fraction.toNat.log2
    UInt32.ofNat ((high + (127 - 24)) * 2 ^ 23 + (fraction.toNat * 2 ^ (23 - high) - 2 ^ 23))
  else
    let exponent : UInt32 :=
      if exponent = 0x7c00 then (0xff : UInt32) <<< (10 : UInt32)
      else if exponent ≠ 0 then exponent + (127 - 15 : UInt32) <<< (10 : UInt32)
      else exponent
    sign <<< 16 ||| exponent <<< 13 ||| fraction <<< 13

/-- The values of major type 7. -/
def simpleTypeValue {σ : Type} (head : Head) : Value σ :=
  if head.firstByte = additonalBytes2 then .float (decodeHalf (UInt32.ofNat head.value))
  else if head.firstByte = additonalBytes4 then .float (UInt32.ofNat head.value)
  else if head.firstByte = additonalBytes8 then .double (UInt64.ofNat head.value)
  else Value.ofSimple (UInt64.ofNat head.value)

@[simp] theorem deref_simpleTypeValue {σ τ : Type} (f : ℕ → σ → τ) (head : Head) :
    (simpleTypeValue head).deref f = simpleTypeValue head := by
  unfold simpleTypeValue
  split_ifs <;> simp [Value.deref]

@[simp] theorem strings_simpleTypeValue {σ : Type} (head : Head) :
    (simpleTypeValue head : Value σ).strings = [] := by
  unfold simpleTypeValue
  split_ifs <;> simp [Value.strings]

@[simp] theorem children_simpleTypeValue {σ : Type} (head : Head) :
    (simpleTypeValue head : Value σ).children = [] := by
  unfold simpleTypeValue Value.ofSimple
  split_ifs
  · rfl
  · rfl
  · rfl
  · split <;> rfl

/-- A value of major type 7 is no string, array, map or tag. -/
theorem type_simpleTypeValue {σ : Type} (head : Head) :
    (simpleTypeValue head : Value σ).type ∉
      [.byteString, .textString, .array, .map, .tag, .uint64, .int64] := by
  unfold simpleTypeValue Value.ofSimple
  split_ifs
  · simp [Value.type]
  · simp [Value.type]
  · simp [Value.type]
  · split <;> simp [Value.type]

theorem Value.stringBytes_eq_nil {σ : Type} {f : ℕ → σ → List UInt8} {v : Value σ}
    (hbyte : v.type ≠ .byteString) (htext : v.type ≠ .textString) : v.stringBytes f = [] := by
  cases v <;> simp_all [Value.type, Value.stringBytes]

end Wpcp.Cbor
