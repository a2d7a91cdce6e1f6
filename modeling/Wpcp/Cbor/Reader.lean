import Wpcp.Cbor.Value
import Wpcp.Lib.Attempt

/-!
# The decoder

`struct wpcp_cbor_read_buffer_t` is a pair of pointers into a flat memory. Every read
goes through `wpcp_cbor_read_buffer_read_raw`, which adds a length to `begin` first and
compares with `end` afterwards; the addition is the one of the machine, modulo the
number of addresses.

A reading function is an `Attempt` on the buffer. It fails with `Failure.null` where
the source returns `NULL` or `false`, and with `Failure.aborted` where an assertion
stops the program. Two fields of the buffer are not in the source: `malloc` says which
of the coming allocations succeed, and `lowered` records whether `begin` has ever been
set to a smaller value.

The recursion between `readString`, `readWpcpValues` and `readWpcpValue` is cut by
passing the first two the reader of one value; `readWpcpValue` takes fuel.
-/

namespace Wpcp.Cbor

/-! ### The machine and the buffer -/

/-- The machine the decoder runs on. -/
structure Machine where
  sizeT : SizeT
  /-- The byte at each address. -/
  mem : ℕ → UInt8

/-- The bytes from an address on; addresses go round at the top. -/
def Machine.slice (M : Machine) (address length : ℕ) : List UInt8 :=
  (List.range length).map fun i => M.mem ((address + i) % M.sizeT.count)

/-- `struct wpcp_cbor_read_buffer_t`, with the coming allocations and the record of
`begin`. -/
structure ReadBuffer where
  beginPtr : ℕ
  endPtr : ℕ
  /-- Which of the coming allocations succeed. -/
  malloc : ℕ → Bool
  /-- `begin` has been set to a smaller value. -/
  lowered : Bool

/-- Why a reading function ends without a result. -/
inductive Failure where
  /-- It returns `NULL` or `false`. -/
  | null
  /-- An assertion failed. -/
  | aborted
  deriving DecidableEq

/-- A reading function. -/
abbrev Reading (α : Type) : Type := Attempt ReadBuffer Failure α

/-- What the string of a value points to: into the message, or to bytes allocated
together with the node. -/
inductive StringData where
  | message (address : ℕ)
  | owned (bytes : List UInt8)
  deriving DecidableEq

/-- The bytes of a string of the given length. -/
def StringData.bytes (M : Machine) (length : ℕ) : StringData → List UInt8
  | .message address => M.slice address length
  | .owned bytes => bytes

/-! ### Raw reads -/

/-- `buffer->begin += length` -/
def ReadBuffer.advance (M : Machine) (b : ReadBuffer) (length : ℕ) : ReadBuffer :=
  let beginPtr := (b.beginPtr + length) % M.sizeT.count
  { b with beginPtr := beginPtr, lowered := b.lowered || beginPtr < b.beginPtr }

/-- `wpcp_cbor_read_buffer_read_raw`; a result that is the null pointer is a failure to
every caller. -/
def readRaw (M : Machine) (length : ℕ) : Reading ℕ := fun b =>
  let ret := b.beginPtr
  let b := b.advance M length
  if b.endPtr < b.beginPtr then some (.error .null, b)
  else if ret = 0 then some (.error .null, b)
  else some (.ok ret, b)

/-- `wpcp_cbor_read_buffer_read_break` -/
def readBreak (M : Machine) : Reading Bool := fun b =>
  if b.beginPtr = b.endPtr ∨ M.mem b.beginPtr ≠ stopCode then some (.ok false, b)
  else some (.ok true, b.advance M 1)

/-- A number of `k` bytes in network order, as the next four functions read it. -/
def readUint (M : Machine) (k : ℕ) : Reading ℕ := do
  let ret ← readRaw M k
  pure (BigEndian.value (M.slice ret k))

/-- `wpcp_cbor_read_buffer_read_uint8` -/
def readUint8 (M : Machine) : Reading ℕ := readUint M 1

/-- `wpcp_cbor_read_buffer_read_uint16` -/
def readUint16 (M : Machine) : Reading ℕ := readUint M 2

/-- `wpcp_cbor_read_buffer_read_uint32` -/
def readUint32 (M : Machine) : Reading ℕ := readUint M 4

/-- `wpcp_cbor_read_buffer_read_uint64` -/
def readUint64 (M : Machine) : Reading ℕ := readUint M 8

/-- `wpcp_malloc`, `wpcp_calloc` or `wpcp_realloc`, where a failure makes the caller
return `NULL`. -/
def alloc : Reading Unit := fun b =>
  let b' := { b with malloc := fun n => b.malloc (n + 1) }
  some (if b.malloc 0 then .ok () else .error .null, b')

/-- `WPCP_ASSERT` -/
def assert (condition : Prop) [Decidable condition] : Reading Unit :=
  if condition then pure () else Attempt.fail .aborted

/-! ### Heads -/

/-- The value of a head, from the type and the low bits of its first byte. -/
def readArgument (M : Machine) (type : MajorType) (firstByte : ℕ) : Reading Head :=
  if firstByte < additonalBytes1 then
    pure ⟨type, firstByte, firstByte⟩
  else if firstByte = additonalBytes1 then do
    let temp ← readUint8 M
    pure ⟨type, firstByte, temp⟩
  else if firstByte = additonalBytes2 then do
    let temp ← readUint16 M
    pure ⟨type, firstByte, temp⟩
  else if firstByte = additonalBytes4 then do
    let temp ← readUint32 M
    pure ⟨type, firstByte, temp⟩
  else if firstByte = additonalBytes8 then do
    let value ← readUint64 M
    if type.hasLength ∧ M.sizeT.count ≤ value then Attempt.fail .null
    else pure ⟨type, firstByte, value⟩
  else if firstByte = indefiniteLength then
    if ¬type.hasLength then Attempt.fail .null
    else pure ⟨type, firstByte, 0⟩
  else Attempt.fail .null

/-- The first half of `wpcp_cbor_read_buffer_read_wpcp_value`, up to the allocation. -/
def readHead (M : Machine) : Reading Head := do
  let firstByte ← readUint8 M
  readArgument M (headerType firstByte) (headerInfo firstByte)

/-! ### Strings -/

/-- The two types of a node `wpcp_cbor_read_buffer_read_string` is given. -/
inductive StringType where
  | byteString
  | textString
  deriving DecidableEq

namespace StringType

/-- The type of the node. -/
def type : StringType → ValueType
  | .byteString => .byteString
  | .textString => .textString

/-- The node with its length and its string. -/
def value {σ : Type} : StringType → ℕ → σ → Value σ
  | .byteString => .byteString
  | .textString => .textString

end StringType

/-- One round of the first loop of `wpcp_cbor_read_buffer_read_string`: the chunks so
far, and the sum of their lengths. -/
def readChunk (M : Machine) (readWpcpValue : Reading (Value StringData)) (ret : StringType)
    (chunks : List (Value StringData) × ℕ) :
    Reading ((List (Value StringData) × ℕ) ⊕ (List (Value StringData) × ℕ)) := do
  if ← readBreak M then pure (.inr chunks)
  else do
    let last ← readWpcpValue
    if last.type ≠ ret.type then Attempt.fail .null
    else pure (.inl (chunks.1 ++ [last], (chunks.2 + last.length) % 2 ^ 64))

/-- The second loop of `wpcp_cbor_read_buffer_read_string`: the bytes of the chunks,
each of which has to have the type of the node. -/
def copyChunks (M : Machine) (ret : StringType) : List (Value StringData) → Reading (List UInt8)
  | [] => pure []
  | first :: next => do
    assert (first.type = ret.type)
    let rest ← copyChunks M ret next
    pure (first.stringBytes (StringData.bytes M) ++ rest)

/-- `wpcp_cbor_read_buffer_read_string` -/
def readString (M : Machine) (readWpcpValue : Reading (Value StringData)) (fuel : ℕ)
    (ret : StringType) (firstByte length : ℕ) : Reading (Value StringData) :=
  if firstByte = indefiniteLength then do
    let (first, length) ← Attempt.loop (readChunk M readWpcpValue ret) fuel ([], length)
    alloc
    assert (length < M.sizeT.count)
    let bytes ← copyChunks M ret first
    pure (ret.value length (.owned bytes))
  else do
    assert (length < M.sizeT.count)
    let byteString ← readRaw M length
    pure (ret.value length (.message byteString))

/-! ### Arrays and maps -/

/-- The two types of a node `wpcp_cbor_read_buffer_read_wpcp_values` is given. -/
inductive NestedType where
  | array
  | map
  deriving DecidableEq

/-- What the loop of `wpcp_cbor_read_buffer_read_wpcp_values` is left on; `count` is
`ret->value.length`. -/
def readEnd (M : Machine) (firstByte length count : ℕ) : Reading Bool :=
  if firstByte = indefiniteLength then readBreak M else pure (count = length)

/-- One round of that loop: the children so far and `ret->value.length`. -/
def readChild (M : Machine) (readWpcpValue : Reading (Value StringData)) (firstByte length : ℕ)
    (ret : List (Value StringData) × ℕ) :
    Reading ((List (Value StringData) × ℕ) ⊕ (List (Value StringData) × ℕ)) := do
  if ← readEnd M firstByte length ret.2 then pure (.inr ret)
  else do
    let value ← readWpcpValue
    pure (.inl (ret.1 ++ [value], (ret.2 + 1) % M.sizeT.count))

/-- `wpcp_cbor_read_buffer_read_wpcp_values` -/
def readWpcpValues (M : Machine) (readWpcpValue : Reading (Value StringData)) (fuel : ℕ)
    (ret : NestedType) (firstByte length : ℕ) : Reading (Value StringData) := do
  let (children, length) ← Attempt.loop (readChild M readWpcpValue firstByte length) fuel ([], 0)
  match ret with
  | .array => pure (.array length children)
  | .map =>
    if length % 2 ≠ 0 then Attempt.fail .null
    else pure (.map (length / 2) children)

/-! ### Values -/

/-- `wpcp_cbor_read_buffer_read_wpcp_value` -/
def readWpcpValue (M : Machine) : ℕ → Reading (Value StringData)
  | 0 => Attempt.outOfFuel
  | fuel + 1 => do
    let head ← readHead M
    alloc
    match head.type with
    | .unsignedInteger => pure (.uint64 (UInt64.ofNat head.value))
    | .negativeInteger => pure (.int64 (~~~UInt64.ofNat head.value).toInt64)
    | .byteString =>
      readString M (readWpcpValue M fuel) fuel .byteString head.firstByte head.value
    | .textString =>
      readString M (readWpcpValue M fuel) fuel .textString head.firstByte head.value
    | .array => readWpcpValues M (readWpcpValue M fuel) fuel .array head.firstByte head.value
    | .map =>
      readWpcpValues M (readWpcpValue M fuel) fuel .map head.firstByte (head.value * 2 % 2 ^ 64)
    | .tag => do
      let firstChild ← readWpcpValue M fuel
      pure (.tag (UInt64.ofNat head.value) [firstChild])
    | .floatingPointAndSimpleTypes => pure (simpleTypeValue head)

end Wpcp.Cbor
