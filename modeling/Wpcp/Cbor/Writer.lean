import Wpcp.Cbor.Value

/-!
# The encoder

The encoder writes into a `struct wpcp_cbor_write_buffer_t`, a list of chunks of which
the last one is filled. A write that does not fit into the last chunk opens a new one,
so that no write is ever split. Where a new chunk cannot be allocated, `last_item` is
the null pointer and all later writes are dropped.

The functions that write a part of known size differ only in the bytes they write, and
are each `Wpcp.Cbor.WriteBuffer.write` applied to them. Writing a value is partial:
`none` is an assertion that fails, a child that is the null pointer, or a string that is
read beyond its end.
-/

namespace Wpcp.Cbor

/-! ### The chunks -/

/-- `struct wpcp_cbor_write_buffer_item_t`; `data` is what has been written to the used
part. -/
structure WriteBufferItem where
  allocatedSize : ℕ
  usedSize : ℕ
  data : List UInt8

/-- `struct wpcp_cbor_write_buffer_t` -/
structure WriteBuffer where
  usedSize : ℕ
  /-- The items from `first_item` on, without the last. -/
  items : List WriteBufferItem
  /-- `last_item`, which is the null pointer after an allocation has failed. -/
  lastItem : Option WriteBufferItem
  /-- Which of the coming allocations succeed. -/
  malloc : ℕ → Bool

namespace WriteBuffer

/-- `wpcp_cbor_write_buffer_init` -/
def init (malloc : ℕ → Bool) : WriteBuffer where
  usedSize := 0
  items := []
  lastItem := some ⟨32, 0, []⟩
  malloc := malloc

/-- `wpcp_cbor_write_buffer_ensure_space` for as many bytes as `data` has, and the write
of `data` to the place it returns. -/
def write (buffer : WriteBuffer) (data : List UInt8) : WriteBuffer :=
  match buffer.lastItem with
  | some lastItem =>
    let size := data.length
    let freeSpace := lastItem.allocatedSize - lastItem.usedSize
    let buffer := { buffer with usedSize := buffer.usedSize + size }
    if size > freeSpace then
      let allocatedSize := if size > 256 then size else 256
      let newItem : Option WriteBufferItem :=
        if buffer.malloc 0 then some ⟨allocatedSize, size, data⟩ else none
      { buffer with
        items := buffer.items ++ [lastItem]
        lastItem := newItem
        malloc := fun n => buffer.malloc (n + 1) }
    else
      { buffer with
        lastItem := some { lastItem with
          usedSize := lastItem.usedSize + size
          data := lastItem.data ++ data } }
  | none => buffer

/-- `wpcp_cbor_write_write_buffer`: the bytes of all items, or the null pointer. -/
def writeWriteBuffer (buffer : WriteBuffer) : Option (List UInt8) :=
  match buffer.lastItem with
  | none => none
  | some lastItem => some ((buffer.items ++ [lastItem]).flatMap WriteBufferItem.data)

/-! ### Parts of known size -/

/-- `wpcp_cbor_write_buffer_write_raw`, for `size` bytes at `data`. -/
def writeRaw (buffer : WriteBuffer) (data : List UInt8) (size : ℕ) : Option WriteBuffer :=
  if size ≤ data.length then some (buffer.write (data.take size)) else none

/-- `wpcp_cbor_write_buffer_write_header` -/
def writeHeader (buffer : WriteBuffer) (header : UInt8) : WriteBuffer :=
  buffer.write [header]

/-- `wpcp_cbor_write_buffer_write_header_and_uint8` -/
def writeHeaderAndUint8 (buffer : WriteBuffer) (header : UInt8) (value : ℕ) : WriteBuffer :=
  buffer.write (header :: BigEndian.bytes 1 value)

/-- `wpcp_cbor_write_buffer_write_header_and_uint16` -/
def writeHeaderAndUint16 (buffer : WriteBuffer) (header : UInt8) (value : ℕ) : WriteBuffer :=
  buffer.write (header :: BigEndian.bytes 2 value)

/-- `wpcp_cbor_write_buffer_write_header_and_uint32` -/
def writeHeaderAndUint32 (buffer : WriteBuffer) (header : UInt8) (value : ℕ) : WriteBuffer :=
  buffer.write (header :: BigEndian.bytes 4 value)

/-- `wpcp_cbor_write_buffer_write_header_and_uint64`, which writes the value in two
halves, the higher one first. -/
def writeHeaderAndUint64 (buffer : WriteBuffer) (header : UInt8) (value : ℕ) : WriteBuffer :=
  buffer.write (header ::
    (BigEndian.bytes 4 (value / 2 ^ 32) ++ BigEndian.bytes 4 (value % 2 ^ 32)))

/-- `wpcp_cbor_write_buffer_write_type_and_uint8_value` -/
def writeTypeAndUint8Value (buffer : WriteBuffer) (type : MajorType) (value : ℕ) : WriteBuffer :=
  if value < additonalBytes1 then buffer.writeHeader (constructHeader type value)
  else buffer.writeHeaderAndUint8 (constructHeader type additonalBytes1) value

/-- `wpcp_cbor_write_buffer_write_type_and_uint32_value` -/
def writeTypeAndUint32Value (buffer : WriteBuffer) (type : MajorType) (value : ℕ) : WriteBuffer :=
  if value < additonalBytes1 then
    buffer.writeHeader (constructHeader type value)
  else if value ≤ 0xff then
    buffer.writeHeaderAndUint8 (constructHeader type additonalBytes1) value
  else if value ≤ 0xffff then
    buffer.writeHeaderAndUint16 (constructHeader type additonalBytes2) value
  else
    buffer.writeHeaderAndUint32 (constructHeader type additonalBytes4) value

/-- `wpcp_cbor_write_buffer_write_type_and_uint64_value` -/
def writeTypeAndUint64Value (buffer : WriteBuffer) (type : MajorType) (value : ℕ) : WriteBuffer :=
  if value ≤ 0xffffffff then buffer.writeTypeAndUint32Value type value
  else buffer.writeHeaderAndUint64 (constructHeader type additonalBytes8) value

/-- `wpcp_cbor_write_buffer_write_type_and_size_value` -/
def writeTypeAndSizeValue (sizeT : SizeT) (buffer : WriteBuffer) (type : MajorType)
    (value : ℕ) : WriteBuffer :=
  match sizeT with
  | .bits64 => buffer.writeTypeAndUint64Value type value
  | .bits32 => buffer.writeTypeAndUint32Value type value

/-- `wpcp_cbor_write_buffer_write_float` -/
def writeFloat (buffer : WriteBuffer) (value : UInt32) : WriteBuffer :=
  buffer.writeHeaderAndUint32
    (constructHeader .floatingPointAndSimpleTypes additonalBytes4) value.toNat

/-- `wpcp_cbor_write_buffer_write_double` -/
def writeDouble (buffer : WriteBuffer) (value : UInt64) : WriteBuffer :=
  buffer.writeHeaderAndUint64
    (constructHeader .floatingPointAndSimpleTypes additonalBytes8) value.toNat

/-- `wpcp_cbor_write_buffer_write_simple_type` -/
def writeSimpleType (buffer : WriteBuffer) (value : ℕ) : WriteBuffer :=
  buffer.writeHeader (constructHeader .floatingPointAndSimpleTypes value)

/-- `wpcp_cbor_write_buffer_write_null` -/
def writeNull (buffer : WriteBuffer) : WriteBuffer := buffer.writeSimpleType 22

/-- `wpcp_cbor_write_buffer_write_array_header` -/
def writeArrayHeader (buffer : WriteBuffer) (length : ℕ) : WriteBuffer :=
  buffer.writeTypeAndUint32Value .array length

/-- `wpcp_cbor_write_buffer_write_map_header` -/
def writeMapHeader (buffer : WriteBuffer) (length : ℕ) : WriteBuffer :=
  buffer.writeTypeAndUint32Value .map length

/-- `wpcp_cbor_write_buffer_write_unsigned_integer` -/
def writeUnsignedInteger (buffer : WriteBuffer) (value : ℕ) : WriteBuffer :=
  buffer.writeTypeAndUint32Value .unsignedInteger value

/-- `wpcp_cbor_write_buffer_write_text_string`, for all of `data`. -/
def writeTextString (buffer : WriteBuffer) (data : List UInt8) : WriteBuffer :=
  (buffer.writeTypeAndUint32Value .textString data.length).write data

/-! ### Values -/

mutual

/-- `wpcp_cbor_write_buffer_write_wpcp_value` -/
def writeWpcpValue (sizeT : SizeT) (buffer : WriteBuffer) :
    Value (List UInt8) → Option WriteBuffer
  | .uint64 uint => some (buffer.writeTypeAndUint64Value .unsignedInteger uint.toNat)
  | .int64 sint =>
    if sint < 0 then
      some (buffer.writeTypeAndUint64Value .negativeInteger (~~~sint.toUInt64).toNat)
    else some (buffer.writeTypeAndUint64Value .unsignedInteger sint.toUInt64.toNat)
  | .byteString length data =>
    (buffer.writeTypeAndSizeValue sizeT .byteString length).writeRaw data length
  | .textString length data =>
    (buffer.writeTypeAndSizeValue sizeT .textString length).writeRaw data length
  | .false => some (buffer.writeSimpleType 20)
  | .true => some (buffer.writeSimpleType 21)
  | .null => some (buffer.writeSimpleType 22)
  | .undefined => some (buffer.writeSimpleType 23)
  | .simpleValue uint =>
    some (buffer.writeTypeAndUint8Value .floatingPointAndSimpleTypes (uint.toNat % 256))
  | .float flt => some (buffer.writeFloat flt)
  | .double dbl => some (buffer.writeDouble dbl)
  | .tag uint children =>
    writeWpcpValues sizeT (buffer.writeTypeAndUint64Value .tag uint.toNat) 1 children
  | .array length children =>
    writeWpcpValues sizeT (buffer.writeTypeAndSizeValue sizeT .array length) length children
  | .map length children =>
    writeWpcpValues sizeT (buffer.writeTypeAndSizeValue sizeT .map length)
      (length * 2 % sizeT.count) children

/-- `wpcp_cbor_write_buffer_write_wpcp_values`: `count` nodes, which the assertion asks
for. The single child of a tag is written in the same way. -/
def writeWpcpValues (sizeT : SizeT) (buffer : WriteBuffer) (count : ℕ) :
    List (Value (List UInt8)) → Option WriteBuffer
  | [] => if count = 0 then some buffer else none
  | value :: next =>
    if count = 0 then some buffer
    else
      match writeWpcpValue sizeT buffer value with
      | none => none
      | some buffer => writeWpcpValues sizeT buffer (count - 1) next

end

/-! ### Parts written without a buffer -/

end WriteBuffer

/-- `wpcp_cbor_byte_size`, with the sizes of `enum wpcp_cbor_byte_size_t` as numbers. -/
def byteSize (value : ℕ) : ℕ :=
  if value < additonalBytes1 then 1
  else if value ≤ 0xff then 2
  else if value ≤ 0xffff then 3
  else 5

/-- `wpcp_cbor_write_type_with_value`: what is written to the target. -/
def writeTypeWithValue (type : MajorType) (value : ℕ) : List UInt8 :=
  let firstByte := constructHeader type 0
  match byteSize value with
  | 1 => [firstByte ||| UInt8.ofNat value]
  | 2 => (firstByte ||| UInt8.ofNat additonalBytes1) :: BigEndian.bytes 1 value
  | 3 => (firstByte ||| UInt8.ofNat additonalBytes2) :: BigEndian.bytes 2 value
  | _ => (firstByte ||| UInt8.ofNat additonalBytes4) :: BigEndian.bytes 4 value

/-- `wpcp_cbor_write_array_header` -/
def writeArrayHeader (length : ℕ) : List UInt8 := writeTypeWithValue .array length

/-- `wpcp_cbor_write_unsigned_integer` -/
def writeUnsignedInteger (value : ℕ) : List UInt8 := writeTypeWithValue .unsignedInteger value

namespace WriteBuffer

/-! ### What a write adds -/

/-- A buffer that is not broken and whose allocations succeed. -/
def Writable (buffer : WriteBuffer) : Prop :=
  buffer.lastItem.isSome ∧ ∀ n, buffer.malloc n = true

/-- A buffer whose contents are those of another with some bytes behind them. -/
def Adds (buffer : WriteBuffer) (data : List UInt8) (buffer' : WriteBuffer) : Prop :=
  ∃ before, buffer.writeWriteBuffer = some before ∧
    buffer'.writeWriteBuffer = some (before ++ data) ∧ buffer'.Writable

theorem writable_init : (init fun _ => true).Writable := ⟨rfl, fun _ => rfl⟩

theorem Writable.adds_nil {buffer : WriteBuffer} (h : buffer.Writable) :
    buffer.Adds [] buffer := by
  obtain ⟨lastItem, hlast⟩ := Option.isSome_iff_exists.mp h.1
  have hbefore : buffer.writeWriteBuffer =
      some ((buffer.items ++ [lastItem]).flatMap WriteBufferItem.data) := by
    rw [writeWriteBuffer, hlast]
  exact ⟨_, hbefore, by rw [hbefore, List.append_nil], h⟩

theorem Adds.trans {buffer buffer' buffer'' : WriteBuffer} {data data' : List UInt8}
    (h : buffer.Adds data buffer') (h' : buffer'.Adds data' buffer'') :
    buffer.Adds (data ++ data') buffer'' := by
  obtain ⟨before, hbefore, hmid, -⟩ := h
  obtain ⟨before', hbefore', hafter, hwritable⟩ := h'
  obtain rfl : before ++ data = before' := Option.some.inj (hmid.symm.trans hbefore')
  exact ⟨before, hbefore, by rw [hafter, List.append_assoc], hwritable⟩

theorem Adds.writable {buffer buffer' : WriteBuffer} {data : List UInt8}
    (h : buffer.Adds data buffer') : buffer'.Writable := h.choose_spec.2.2

/-- **A write adds its bytes**, in the last item or in a new one. -/
theorem adds_write {buffer : WriteBuffer} (h : buffer.Writable) (data : List UInt8) :
    buffer.Adds data (buffer.write data) := by
  obtain ⟨hlast, hmalloc⟩ := h
  obtain ⟨lastItem, hlast⟩ := Option.isSome_iff_exists.mp hlast
  have hbefore : buffer.writeWriteBuffer =
      some ((buffer.items ++ [lastItem]).flatMap WriteBufferItem.data) := by
    rw [writeWriteBuffer, hlast]
  refine ⟨_, hbefore, ?_⟩
  simp only [write, hlast]
  split_ifs
  · exact ⟨by simp [writeWriteBuffer], rfl, fun n => hmalloc (n + 1)⟩
  · exact ⟨by simp [writeWriteBuffer], rfl, fun n => hmalloc (n + 1)⟩
  · exact absurd (hmalloc 0) ‹_›
  · exact ⟨by simp [writeWriteBuffer], rfl, hmalloc⟩

theorem adds_writeRaw {buffer : WriteBuffer} (h : buffer.Writable) (data : List UInt8) :
    ∃ buffer', buffer.writeRaw data data.length = some buffer' ∧ buffer.Adds data buffer' := by
  refine ⟨buffer.write data, ?_, adds_write h data⟩
  rw [writeRaw, if_pos (Nat.le_refl _), List.take_length]

end WriteBuffer

end Wpcp.Cbor
