import Wpcp.Cbor.Reader

/-!
# Headers and maps of a message

The functions with which a message is taken apart before its values are read: headers
whose argument fits 32 bits, and `wpcp_cbor_read_buffer_read_map_items`, which reads a
map into the keys its caller knows and an array of other pairs. A function that writes
through a pointer also when it fails returns what it has written together with its
result.
-/

namespace Wpcp.Cbor

/-- The result of a reading function, where the caller goes on after `NULL`. -/
def orNull {α : Type} (m : Reading α) : Reading (Option α) := fun b =>
  match m b with
  | none => none
  | some (.ok a, b) => some (.ok (some a), b)
  | some (.error .null, b) => some (.ok none, b)
  | some (.error .aborted, b) => some (.error .aborted, b)

/-! ### Headers -/

/-- `wpcp_cbor_read_buffer_read_header_and_uint32` -/
def readHeaderAndUint32 (M : Machine) : Reading (MajorType × ℕ) := do
  let firstByte ← readUint8 M
  let type := headerType firstByte
  let firstByte := headerInfo firstByte
  if firstByte < additonalBytes1 then pure (type, firstByte)
  else if firstByte = additonalBytes1 then do
    let temp ← readUint8 M
    pure (type, temp)
  else if firstByte = additonalBytes2 then do
    let temp ← readUint16 M
    pure (type, temp)
  else if firstByte = additonalBytes4 then do
    let value ← readUint32 M
    pure (type, value)
  else Attempt.fail .null

/-- `wpcp_cbor_read_buffer_read_specific_header_and_uint32`; `value` is what the pointer
points to before. -/
def readSpecificHeaderAndUint32 (M : Machine) (type : MajorType) (value : ℕ) :
    Reading (Bool × ℕ) := do
  match ← orNull (readHeaderAndUint32 M) with
  | none => pure (false, value)
  | some (majorType, value) => pure (majorType = type, value)

/-- `wpcp_cbor_read_buffer_read_array_header` -/
def readArrayHeader (M : Machine) : Reading (Bool × ℕ) :=
  readSpecificHeaderAndUint32 M .array 0

/-- `wpcp_cbor_read_buffer_read_map_header` -/
def readMapHeader (M : Machine) : Reading (Bool × ℕ) :=
  readSpecificHeaderAndUint32 M .map 0

/-- `wpcp_cbor_read_buffer_read_unsigned_integer` -/
def readUnsignedInteger (M : Machine) (value : ℕ) : Reading (Bool × ℕ) :=
  readSpecificHeaderAndUint32 M .unsignedInteger value

/-- `wpcp_cbor_read_buffer_read_text_string`: the address of the string and its length. -/
def readTextString (M : Machine) : Reading (ℕ × ℕ) := do
  let (ret, length) ← readSpecificHeaderAndUint32 M .textString 0
  if ret then do
    let key ← readRaw M length
    pure (key, length)
  else Attempt.fail .null

/-! ### Maps -/

/-- `struct wpcp_key_value_pair_t`, of a key the caller knows. -/
structure MapItem where
  key : List UInt8
  value : Option (Value StringData)

/-- `struct wpcp_key_value_pair_t`, of another key in the message. -/
structure AdditionalItem where
  key : ℕ
  keyLength : ℕ
  value : Value StringData

/-- What `wpcp_cbor_read_buffer_read_map_items` writes to; `allocated` is how many bytes
the array of the other pairs was allocated with, if it was. -/
structure MapItems where
  map : List MapItem
  additional : List AdditionalItem
  allocated : Option ℕ

/-- `sizeof(struct wpcp_key_value_pair_t)` -/
def SizeT.pairSize : SizeT → ℕ
  | .bits32 => 12
  | .bits64 => 24

/-- The value of a pair goes to the first item with its key, if there is one. -/
def storeValue (key : List UInt8) (value : Value StringData) :
    List MapItem → Option (List MapItem)
  | [] => none
  | item :: map =>
    if item.key = key then some ({ item with value := some value } :: map)
    else (storeValue key value map).map (item :: ·)

/-- The end of a round of the loop of `wpcp_cbor_read_buffer_read_map_items`: the pair
is stored; `remaining` is `item_count - i`. -/
def storePair (M : Machine) (remaining : ℕ) (items : MapItems) (key keyLength : ℕ)
    (value : Value StringData) : Reading (Option MapItems) := do
  match storeValue (M.slice key keyLength) value items.map with
  | some map => pure (some { items with map := map })
  | none => do
    let allocated ← match items.allocated with
      | some allocated => pure (some allocated)
      | none => do
        let ret ← orNull alloc
        pure (ret.map fun _ => remaining * M.sizeT.pairSize % M.sizeT.count)
    match allocated with
    | none => pure none
    | some _ => pure (some { items with
        additional := items.additional ++ [⟨key, keyLength, value⟩]
        allocated := allocated })

/-- The loop of `wpcp_cbor_read_buffer_read_map_items`, for the pairs that are left. -/
def readPairs (M : Machine) (fuel : ℕ) : ℕ → MapItems → Reading (Bool × MapItems)
  | 0, items => pure (true, items)
  | remaining + 1, items => do
    match ← orNull (readTextString M) with
    | none => pure (false, items)
    | some (key, keyLength) => do
      match ← orNull (readWpcpValue M fuel) with
      | none => pure (false, items)
      | some value => do
        match ← storePair M (remaining + 1) items key keyLength value with
        | none => pure (false, items)
        | some items => readPairs M fuel remaining items

/-- A round of the loop; `remaining` is `item_count - i`. -/
def readPair (M : Machine) (fuel remaining : ℕ) (items : MapItems) :
    Reading (Option MapItems) := do
  match ← orNull (readTextString M) with
  | none => pure none
  | some (key, keyLength) => do
    match ← orNull (readWpcpValue M fuel) with
    | none => pure none
    | some value => storePair M remaining items key keyLength value

/-- **The loop is its rounds.** -/
theorem readPairs_succ (M : Machine) (fuel remaining : ℕ) (items : MapItems) :
    readPairs M fuel (remaining + 1) items =
      readPair M fuel (remaining + 1) items >>= fun
        | none => pure (false, items)
        | some items => readPairs M fuel remaining items := by
  rw [readPairs, readPair, Attempt.bind_assoc]
  congr 1
  funext key
  rcases key with _ | ⟨key, keyLength⟩
  · rfl
  · dsimp only
    rw [Attempt.bind_assoc]
    congr 1
    funext value
    rcases value with _ | value
    · rfl
    · rfl

/-- `wpcp_cbor_read_buffer_read_map_items` -/
def readMapItems (M : Machine) (fuel : ℕ) (map : List MapItem) : Reading (Bool × MapItems) := do
  let items : MapItems := ⟨map, [], none⟩
  let (ret, itemCount) ← readMapHeader M
  if ret then readPairs M fuel itemCount items
  else pure (false, items)

end Wpcp.Cbor
