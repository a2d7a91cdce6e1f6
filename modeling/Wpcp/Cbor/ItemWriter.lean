import Wpcp.Cbor.Writer

/-!
# The items of the application

The maps in which the application hands data, alarms and the nodes of its tree to the
library. Each has some fields of its own, which are left out where the argument is the
null pointer or zero, and the additional pairs the application gives; the number of pairs
is counted in 32 bits before any of them is written.
-/

namespace Wpcp

/-- The bytes of a name. -/
def ascii (s : String) : List UInt8 := s.toList.map fun c => UInt8.ofNat c.toNat

namespace Cbor

/-- `struct wpcp_key_value_pair_t`, as the application gives it. -/
structure KeyValuePair where
  key : List UInt8
  value : Value (List UInt8)

/-- The condition `timestamp` of C: the number is neither of the two zeros. -/
def isNonzero (timestamp : UInt64) : Bool := timestamp &&& 0x7fffffffffffffff != 0

namespace WriteBuffer

/-- A field of a map that is a value, where it is not the null pointer. -/
def writeValueField (sizeT : SizeT) (buffer : WriteBuffer) (name : String) :
    Option (Value (List UInt8)) → Option WriteBuffer
  | some value => (buffer.writeTextString (ascii name)).writeWpcpValue sizeT value
  | none => some buffer

/-- A field of a map that is a text, where it is not the null pointer. -/
def writeTextField (buffer : WriteBuffer) (name : String) : Option (List UInt8) → WriteBuffer
  | some text => (buffer.writeTextString (ascii name)).writeTextString text
  | none => buffer

/-- The time of an item, where it is not zero. -/
def writeTimestamp (buffer : WriteBuffer) (timestamp : UInt64) : WriteBuffer :=
  if isNonzero timestamp then
    (buffer.writeTextString (ascii "timestamp")).writeDouble timestamp
  else buffer

/-- A field of a map that is a number, where it is not zero. -/
def writeNumberField (buffer : WriteBuffer) (name : String) (value : ℕ) : WriteBuffer :=
  if value ≠ 0 then (buffer.writeTextString (ascii name)).writeUnsignedInteger value
  else buffer

/-- `wpcp_cbor_write_buffer_write_boolean` -/
def writeBoolean (buffer : WriteBuffer) (value : Bool) : WriteBuffer :=
  buffer.writeSimpleType (if value then 21 else 20)

/-- `wpcp_cbor_write_buffer_write_additional` -/
def writeAdditional (sizeT : SizeT) (buffer : WriteBuffer) :
    List KeyValuePair → Option WriteBuffer
  | [] => some buffer
  | pair :: next =>
    match (buffer.writeTextString pair.key).writeWpcpValue sizeT pair.value with
    | none => none
    | some buffer => writeAdditional sizeT buffer next

end WriteBuffer

/-- What the application gives for an item: the arguments of
`wpcp_cbor_write_buffer_write_data_item`, of `wpcp_cbor_write_buffer_write_alarm_item`, or of
`wpcp_return_browse_item`. -/
inductive Item where
  | data (value : Option (Value (List UInt8))) (timestamp : UInt64) (status : ℕ)
      (additional : List KeyValuePair)
  | alarm (key : List UInt8) (retain : Bool) (token id : Option (Value (List UInt8)))
      (timestamp : UInt64) (priority : ℕ) (message : Option (List UInt8)) (acknowledged : Bool)
      (additional : List KeyValuePair)
  | browse (id : Option (Value (List UInt8))) (name title description : Option (List UInt8))
      (type : Option (Value (List UInt8))) (additional : List KeyValuePair)

namespace Item

/-- The variable `count` of the three functions. -/
def count : Item → ℕ
  | data value timestamp status additional =>
    (value.toList.length + (isNonzero timestamp).toNat + (status != 0).toNat +
      additional.length) % 2 ^ 32
  | alarm _ _ token id timestamp priority message _ additional =>
    (2 + token.toList.length + id.toList.length + (isNonzero timestamp).toNat +
      (priority != 0).toNat + message.toList.length + 1 + additional.length) % 2 ^ 32
  | browse id name title description type additional =>
    (id.toList.length + name.toList.length + title.toList.length + description.toList.length +
      type.toList.length + additional.length) % 2 ^ 32

/-- The pairs of an item, after the header of the map. -/
def writeFields (sizeT : SizeT) (buffer : WriteBuffer) : Item → Option WriteBuffer
  | data value timestamp status additional => do
    let buffer ← buffer.writeValueField sizeT "value" value
    let buffer := (buffer.writeTimestamp timestamp).writeNumberField "status" status
    buffer.writeAdditional sizeT additional
  | alarm key retain token id timestamp priority message acknowledged additional => do
    let buffer := (buffer.writeTextString (ascii "key")).writeTextString key
    let buffer := (buffer.writeTextString (ascii "retain")).writeBoolean retain
    let buffer ← buffer.writeValueField sizeT "token" token
    let buffer ← buffer.writeValueField sizeT "id" id
    let buffer := (buffer.writeTimestamp timestamp).writeNumberField "priority" priority
    let buffer := buffer.writeTextField "message" message
    let buffer := (buffer.writeTextString (ascii "acknowledged")).writeBoolean acknowledged
    buffer.writeAdditional sizeT additional
  | browse id name title description type additional => do
    let buffer ← buffer.writeValueField sizeT "id" id
    let buffer := (buffer.writeTextField "name" name).writeTextField "title" title
    let buffer := buffer.writeTextField "description" description
    let buffer ← buffer.writeValueField sizeT "type" type
    buffer.writeAdditional sizeT additional

/-- `wpcp_cbor_write_buffer_write_data_item`, `wpcp_cbor_write_buffer_write_alarm_item`, and
what `wpcp_return_browse_item` writes. -/
def write (sizeT : SizeT) (buffer : WriteBuffer) (item : Item) : Option WriteBuffer :=
  item.writeFields sizeT (buffer.writeMapHeader item.count)

end Item

end Cbor

end Wpcp
