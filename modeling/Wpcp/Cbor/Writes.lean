import Mathlib.Logic.Relation
import Wpcp.Cbor.ItemWriter

/-!
# What an encoder does to a buffer

Every encoder does nothing to its buffer but write to it, one part after the other. What
every single write keeps is therefore kept by the encoders (`Wpcp.Cbor.WriteBuffer.Writes`).
-/

namespace Wpcp.Cbor

namespace WriteBuffer

/-- A buffer that another one becomes by writes. -/
def Writes : WriteBuffer → WriteBuffer → Prop :=
  Relation.ReflTransGen fun buffer buffer' => ∃ data, buffer' = buffer.write data

/-- An encoder, which may stop at an assertion. -/
def Encodes (f : WriteBuffer → Option WriteBuffer) : Prop :=
  ∀ buffer buffer', f buffer = some buffer' → buffer.Writes buffer'

variable (buffer : WriteBuffer)

theorem Writes.refl : buffer.Writes buffer := Relation.ReflTransGen.refl

theorem Writes.trans {buffer buffer' buffer'' : WriteBuffer} (h : buffer.Writes buffer')
    (h' : buffer'.Writes buffer'') : buffer.Writes buffer'' :=
  Relation.ReflTransGen.trans h h'

theorem writes_write (data : List UInt8) : buffer.Writes (buffer.write data) :=
  .single ⟨data, rfl⟩

/-- What every write keeps, the encoders keep. -/
theorem Writes.keeps {I : WriteBuffer → Prop} (hI : ∀ buffer data, I buffer → I (buffer.write data))
    {buffer buffer' : WriteBuffer} (h : buffer.Writes buffer') (hb : I buffer) : I buffer' := by
  induction h with
  | refl => exact hb
  | tail _ hstep ih =>
    obtain ⟨data, rfl⟩ := hstep
    exact hI _ data ih

/-! ### Parts of known size -/

theorem writes_writeTypeAndUint8Value (type : MajorType) (value : ℕ) :
    buffer.Writes (buffer.writeTypeAndUint8Value type value) := by
  unfold writeTypeAndUint8Value
  split <;> exact writes_write _ _

theorem writes_writeTypeAndUint32Value (type : MajorType) (value : ℕ) :
    buffer.Writes (buffer.writeTypeAndUint32Value type value) := by
  unfold writeTypeAndUint32Value
  split_ifs <;> exact writes_write _ _

theorem writes_writeTypeAndUint64Value (type : MajorType) (value : ℕ) :
    buffer.Writes (buffer.writeTypeAndUint64Value type value) := by
  unfold writeTypeAndUint64Value
  split
  · exact writes_writeTypeAndUint32Value _ _ _
  · exact writes_write _ _

theorem writes_writeTypeAndSizeValue (sizeT : SizeT) (type : MajorType) (value : ℕ) :
    buffer.Writes (writeTypeAndSizeValue sizeT buffer type value) := by
  cases sizeT with
  | bits64 => exact writes_writeTypeAndUint64Value _ _ _
  | bits32 => exact writes_writeTypeAndUint32Value _ _ _

theorem writes_writeRaw {buffer' : WriteBuffer} {data : List UInt8} {size : ℕ}
    (h : buffer.writeRaw data size = some buffer') : buffer.Writes buffer' := by
  unfold writeRaw at h
  split at h
  · obtain rfl := Option.some.inj h
    exact writes_write _ _
  · simp at h

theorem writes_writeTextString (data : List UInt8) :
    buffer.Writes (buffer.writeTextString data) :=
  (writes_writeTypeAndUint32Value _ _ _).trans (writes_write _ _)

theorem writes_writeBoolean (value : Bool) : buffer.Writes (buffer.writeBoolean value) :=
  writes_write _ _

/-! ### Values -/

mutual

theorem writes_writeWpcpValue (sizeT : SizeT) (buffer : WriteBuffer) :
    ∀ (value : Value (List UInt8)) {buffer' : WriteBuffer},
      writeWpcpValue sizeT buffer value = some buffer' → buffer.Writes buffer' := by
  intro value buffer' h
  match value with
  | .uint64 _ =>
    obtain rfl := Option.some.inj h
    exact writes_writeTypeAndUint64Value _ _ _
  | .int64 sint =>
    simp only [writeWpcpValue] at h
    split at h
    · obtain rfl := Option.some.inj h
      exact writes_writeTypeAndUint64Value _ _ _
    · obtain rfl := Option.some.inj h
      exact writes_writeTypeAndUint64Value _ _ _
  | .simpleValue _ =>
    obtain rfl := Option.some.inj h
    exact writes_writeTypeAndUint8Value _ _ _
  | .false | .true | .null | .undefined | .float _ | .double _ =>
    obtain rfl := Option.some.inj h
    exact writes_write _ _
  | .byteString length data | .textString length data =>
    simp only [writeWpcpValue] at h
    exact (writes_writeTypeAndSizeValue _ _ _ _).trans (writes_writeRaw _ h)
  | .tag _ children =>
    simp only [writeWpcpValue] at h
    exact (writes_writeTypeAndUint64Value _ _ _).trans (writes_writeWpcpValues _ _ _ children h)
  | .array _ children | .map _ children =>
    simp only [writeWpcpValue] at h
    exact (writes_writeTypeAndSizeValue _ _ _ _).trans (writes_writeWpcpValues _ _ _ children h)

theorem writes_writeWpcpValues (sizeT : SizeT) (buffer : WriteBuffer) (count : ℕ) :
    ∀ (values : List (Value (List UInt8))) {buffer' : WriteBuffer},
      writeWpcpValues sizeT buffer count values = some buffer' → buffer.Writes buffer' := by
  intro values buffer' h
  match values with
  | [] =>
    simp only [writeWpcpValues] at h
    split at h
    · obtain rfl := Option.some.inj h
      exact .refl _
    · simp at h
  | value :: next =>
    simp only [writeWpcpValues] at h
    split at h
    · obtain rfl := Option.some.inj h
      exact .refl _
    · split at h
      · simp at h
      · rename_i middle heq
        exact (writes_writeWpcpValue sizeT buffer value heq).trans
          (writes_writeWpcpValues sizeT middle (count - 1) next h)

end

theorem encodes_writeWpcpValue (sizeT : SizeT) (value : Value (List UInt8)) :
    Encodes fun buffer => writeWpcpValue sizeT buffer value :=
  fun buffer _ h => writes_writeWpcpValue sizeT buffer value h

theorem encodes_writeNull : Encodes fun buffer => some buffer.writeNull := by
  intro buffer buffer' h
  obtain rfl := Option.some.inj h
  exact writes_write _ _

theorem encodes_writeUnsignedInteger (value : ℕ) :
    Encodes fun buffer => some (buffer.writeUnsignedInteger value) := by
  intro buffer buffer' h
  obtain rfl := Option.some.inj h
  exact writes_writeTypeAndUint32Value _ _ _

/-! ### Items -/

theorem writes_writeTimestamp (timestamp : UInt64) :
    buffer.Writes (buffer.writeTimestamp timestamp) := by
  unfold writeTimestamp
  split
  · exact (writes_writeTextString _ _).trans (writes_write _ _)
  · exact .refl _

theorem writes_writeNumberField (name : String) (value : ℕ) :
    buffer.Writes (buffer.writeNumberField name value) := by
  unfold writeNumberField
  split
  · exact (writes_writeTextString _ _).trans (writes_writeTypeAndUint32Value _ _ _)
  · exact .refl _

theorem writes_writeTextField (name : String) (text : Option (List UInt8)) :
    buffer.Writes (buffer.writeTextField name text) := by
  cases text with
  | none => exact .refl _
  | some text => exact (writes_writeTextString _ _).trans (writes_writeTextString _ _)

theorem writes_writeValueField {buffer' : WriteBuffer} {sizeT : SizeT} {name : String}
    {value : Option (Value (List UInt8))}
    (h : writeValueField sizeT buffer name value = some buffer') : buffer.Writes buffer' := by
  cases value with
  | none =>
    obtain rfl := Option.some.inj h
    exact .refl _
  | some value => exact (writes_writeTextString _ _).trans (writes_writeWpcpValue _ _ value h)

theorem writes_writeAdditional {buffer' : WriteBuffer} {sizeT : SizeT}
    {additional : List KeyValuePair}
    (h : writeAdditional sizeT buffer additional = some buffer') : buffer.Writes buffer' := by
  induction additional generalizing buffer with
  | nil =>
    obtain rfl := Option.some.inj h
    exact .refl _
  | cons pair next ih =>
    simp only [writeAdditional] at h
    split at h
    · simp at h
    · rename_i middle heq
      exact ((writes_writeTextString _ _).trans (writes_writeWpcpValue _ _ _ heq)).trans (ih _ h)

end WriteBuffer

open WriteBuffer

/-- **An item is written by writes.** -/
theorem Item.encodes_write (sizeT : SizeT) (item : Item) :
    Encodes fun buffer => item.write sizeT buffer := by
  intro buffer buffer' h
  refine (writes_writeTypeAndUint32Value buffer .map item.count).trans ?_
  cases item with
  | data value timestamp status additional =>
    obtain ⟨b, hb, h⟩ := Option.bind_eq_some_iff.mp h
    exact (((writes_writeValueField _ hb).trans (writes_writeTimestamp _ _)).trans
      (writes_writeNumberField _ _ _)).trans (writes_writeAdditional _ h)
  | alarm key retain token id timestamp priority message acknowledged additional =>
    obtain ⟨b, hb, h⟩ := Option.bind_eq_some_iff.mp h
    obtain ⟨b', hb', h⟩ := Option.bind_eq_some_iff.mp h
    have hfirst := fun buffer => (((writes_writeTextString buffer (ascii "key")).trans
      (writes_writeTextString _ key)).trans (writes_writeTextString _ (ascii "retain"))).trans
      (writes_writeBoolean _ retain)
    have hlast := ((((writes_writeTimestamp b' timestamp).trans
      (writes_writeNumberField _ "priority" priority)).trans
      (writes_writeTextField _ "message" message)).trans
      (writes_writeTextString _ (ascii "acknowledged"))).trans
      (writes_writeBoolean _ acknowledged)
    exact ((((hfirst _).trans (writes_writeValueField _ hb)).trans
      (writes_writeValueField _ hb')).trans
      hlast).trans (writes_writeAdditional _ h)
  | browse id name title description type additional =>
    obtain ⟨b, hb, h⟩ := Option.bind_eq_some_iff.mp h
    obtain ⟨b', hb', h⟩ := Option.bind_eq_some_iff.mp h
    have hnames := ((writes_writeTextField b "name" name).trans
      (writes_writeTextField _ "title" title)).trans
      (writes_writeTextField _ "description" description)
    exact (((writes_writeValueField _ hb).trans hnames).trans (writes_writeValueField _ hb')).trans
      (writes_writeAdditional _ h)

end Wpcp.Cbor
