import Wpcp.Cbor.MapItems

/-!
# Items are maps

`Wpcp.Cbor.Item` is what the application hands over, and `Wpcp.Cbor.Item.write` how it is
written: the number of pairs is counted first, and then each field is written or left out by a
condition of its own. Here an item is the list of its pairs (`Wpcp.Cbor.Item.pairs`). Each field
writes the encoding of its pairs, none or one, and as many are counted for it; so the whole is
the encoding of a map (`Wpcp.Cbor.Item.adds_write`), which is read as this map
(`Wpcp.Cbor.Item.decodes`).
-/

namespace Wpcp.Cbor

variable {sizeT : SizeT}

/-! ### The pairs of an item -/

/-- The pair of a value that may be left out. -/
def valuePairs (name : String) (value : Option (Value (List UInt8))) : List KeyValuePair :=
  value.toList.map fun value => ⟨ascii name, value⟩

/-- The pair of a text that may be left out. -/
def textPairs (name : String) (text : Option (List UInt8)) : List KeyValuePair :=
  valuePairs name (text.map fun text => .textString text.length text)

/-- The pair of a time, which is left out where it is zero. -/
def timePairs (timestamp : UInt64) : List KeyValuePair :=
  if isNonzero timestamp then [⟨ascii "timestamp", .double timestamp⟩] else []

/-- The pair of a number, which is left out where it is zero. -/
def numberPairs (name : String) (value : ℕ) : List KeyValuePair :=
  if value ≠ 0 then [⟨ascii name, .uint64 (UInt64.ofNat value)⟩] else []

/-- The pair of a truth value. -/
def booleanPair (name : String) (value : Bool) : KeyValuePair :=
  ⟨ascii name, if value then .true else .false⟩

namespace Item

/-- The additional pairs. -/
def additional : Item → List KeyValuePair
  | data _ _ _ additional => additional
  | alarm _ _ _ _ _ _ _ _ additional => additional
  | browse _ _ _ _ _ additional => additional

/-- The named fields that are present. -/
def fields : Item → List KeyValuePair
  | data value timestamp status _ =>
    valuePairs "value" value ++ (timePairs timestamp ++ numberPairs "status" status)
  | alarm key retain token id timestamp priority message acknowledged _ =>
    textPairs "key" (some key) ++ ([booleanPair "retain" retain] ++ (valuePairs "token" token ++
      (valuePairs "id" id ++ (timePairs timestamp ++ (numberPairs "priority" priority ++
        (textPairs "message" message ++ [booleanPair "acknowledged" acknowledged]))))))
  | browse id name title description type _ =>
    valuePairs "id" id ++ (textPairs "name" name ++ (textPairs "title" title ++
      (textPairs "description" description ++ valuePairs "type" type)))

/-- **The pairs of an item**: the named fields that are present, then the additional pairs. -/
def pairs (item : Item) : List KeyValuePair := item.fields ++ item.additional

end Item

/-- A value that can be sent: a well-formed tree whose numbers fit their fields. -/
def ValueFits (sizeT : SizeT) (value : Option (Value (List UInt8))) : Prop :=
  ∀ v ∈ value, v.WellFormed ∧ v.SizedFor sizeT

/-- A text whose length fits 32 bits. -/
def TextFits (text : Option (List UInt8)) : Prop := ∀ bytes ∈ text, bytes.length < 2 ^ 32

/-- The values, texts and numbers of the named fields are what their types in C can hold. -/
def Item.FieldsFit (sizeT : SizeT) : Item → Prop
  | data value _ status _ => ValueFits sizeT value ∧ status < 2 ^ 32
  | alarm key _ token id _ priority message _ _ =>
    TextFits (some key) ∧ ValueFits sizeT token ∧ ValueFits sizeT id ∧ priority < 2 ^ 32 ∧
      TextFits message
  | browse id name title description type _ =>
    ValueFits sizeT id ∧ TextFits name ∧ TextFits title ∧ TextFits description ∧
      ValueFits sizeT type

/-- **An item that can be sent**: its arguments are what their types in C can hold, and the
number of pairs fits 32 bits. -/
structure Item.Sendable (sizeT : SizeT) (item : Item) : Prop where
  fields : item.FieldsFit sizeT
  additional : ∀ pair ∈ item.additional, pair.SendableFor sizeT
  length : item.additional.length ≤ 2 ^ 32 - 16

/-! ### The pairs are counted -/

theorem length_valuePairs (name : String) (value : Option (Value (List UInt8))) :
    (valuePairs name value).length = value.toList.length := List.length_map _

theorem length_textPairs (name : String) (text : Option (List UInt8)) :
    (textPairs name text).length = text.toList.length := by
  cases text <;> rfl

theorem length_timePairs (timestamp : UInt64) :
    (timePairs timestamp).length = (isNonzero timestamp).toNat := by
  unfold timePairs
  cases isNonzero timestamp <;> rfl

theorem length_numberPairs (name : String) (value : ℕ) :
    (numberPairs name value).length = (value != 0).toNat := by
  unfold numberPairs
  rcases value with _ | value <;> rfl

/-- **The count in the header is the number of pairs**, in 32 bits. -/
theorem Item.count_eq (item : Item) : item.count = item.pairs.length % 2 ^ 32 := by
  cases item with
  | data value timestamp status additional =>
    simp only [Item.count, Item.pairs, Item.fields, Item.additional, List.length_append,
      length_valuePairs, length_timePairs, length_numberPairs]
    congr 1
    omega
  | alarm key retain token id timestamp priority message acknowledged additional =>
    simp only [Item.count, Item.pairs, Item.fields, Item.additional, List.length_append,
      length_valuePairs, length_textPairs, length_timePairs, length_numberPairs, List.length_cons,
      List.length_nil, Option.toList]
    congr 1
    omega
  | browse id name title description type additional =>
    simp only [Item.count, Item.pairs, Item.fields, Item.additional, List.length_append,
      length_valuePairs, length_textPairs]
    congr 1
    omega

/-- An item has at most eight named fields. -/
theorem Item.length_fields_le (item : Item) : item.fields.length ≤ 8 := by
  have hoption : ∀ {α : Type} (o : Option α), o.toList.length ≤ 1 := by
    intro α o
    cases o <;> simp
  cases item with
  | data value timestamp status additional =>
    have h₁ := hoption value
    have h₂ := Bool.toNat_le (isNonzero timestamp)
    have h₃ := Bool.toNat_le (status != 0)
    simp only [Item.fields, List.length_append, length_valuePairs, length_timePairs,
      length_numberPairs]
    omega
  | alarm key retain token id timestamp priority message acknowledged additional =>
    have h₁ := hoption (some key)
    have h₂ := hoption token
    have h₃ := hoption id
    have h₄ := Bool.toNat_le (isNonzero timestamp)
    have h₅ := Bool.toNat_le (priority != 0)
    have h₆ := hoption message
    simp only [Item.fields, List.length_append, length_valuePairs, length_textPairs,
      length_timePairs, length_numberPairs, List.length_cons, List.length_nil]
    omega
  | browse id name title description type additional =>
    have h₁ := hoption id
    have h₂ := hoption name
    have h₃ := hoption title
    have h₄ := hoption description
    have h₅ := hoption type
    simp only [Item.fields, List.length_append, length_valuePairs, length_textPairs]
    omega

/-- So the number of pairs does not wrap. -/
theorem Item.Sendable.length_pairs {item : Item} (h : item.Sendable sizeT) :
    item.pairs.length < 2 ^ 32 := by
  have hfields := item.length_fields_le
  have hadditional := h.length
  rw [Item.pairs, List.length_append]
  omega

/-! ### What is written -/

section Fields

variable {buffer : WriteBuffer} (h : buffer.Writable) (name : String)
  (hname : (ascii name).length < 2 ^ 32)
include h hname

theorem adds_writeValueField {value : Option (Value (List UInt8))}
    (hvalue : ValueFits sizeT value) :
    ∃ buffer', buffer.writeValueField sizeT name value = some buffer' ∧
      buffer.Adds (pairsEncoding (valuePairs name value)) buffer' := by
  rcases value with _ | value
  · exact ⟨buffer, rfl, h.adds_nil⟩
  · obtain ⟨hwell, hsized⟩ := hvalue value rfl
    obtain ⟨buffer', hwrite, hadds⟩ :=
      adds_writeWpcpValue hwell hsized (adds_writeTextString h hname).writable
    exact ⟨buffer', hwrite, adds_pair h hname hadds⟩

theorem adds_writeText {text : List UInt8} (htext : text.length < 2 ^ 32) :
    buffer.Adds (pairsEncoding (textPairs name (some text)))
      ((buffer.writeTextString (ascii name)).writeTextString text) :=
  adds_pair h hname (adds_writeTextString (adds_writeTextString h hname).writable htext)

theorem adds_writeTextField {text : Option (List UInt8)} (htext : TextFits text) :
    buffer.Adds (pairsEncoding (textPairs name text)) (buffer.writeTextField name text) := by
  rcases text with _ | text
  · exact h.adds_nil
  · exact adds_writeText h name hname (htext text rfl)

theorem adds_writeNumberField {value : ℕ} (hvalue : value < 2 ^ 32) :
    buffer.Adds (pairsEncoding (numberPairs name value)) (buffer.writeNumberField name value) := by
  unfold numberPairs WriteBuffer.writeNumberField
  split
  · refine adds_pair h hname ?_
    have hnat : (UInt64.ofNat value).toNat = value :=
      UInt64.toNat_ofNat_of_lt' (show value < 2 ^ 64 by omega)
    have hencoding : (Value.uint64 (UInt64.ofNat value) : Value (List UInt8)).encoding =
        (Head.shortest .unsignedInteger value).bytes := by
      show (Head.shortest .unsignedInteger (UInt64.ofNat value).toNat).bytes = _
      rw [hnat]
    rw [hencoding, WriteBuffer.writeUnsignedInteger,
      WriteBuffer.writeTypeAndUint32Value_eq _ _ hvalue]
    exact WriteBuffer.adds_write (adds_writeTextString h hname).writable _
  · exact h.adds_nil

theorem adds_writeBoolean (value : Bool) :
    buffer.Adds (pairsEncoding [booleanPair name value])
      ((buffer.writeTextString (ascii name)).writeBoolean value) := by
  refine adds_pair h hname ?_
  cases value with
  | false => exact WriteBuffer.adds_write (adds_writeTextString h hname).writable _
  | true => exact WriteBuffer.adds_write (adds_writeTextString h hname).writable _

end Fields

theorem adds_writeTimestamp {buffer : WriteBuffer} (h : buffer.Writable) (timestamp : UInt64) :
    buffer.Adds (pairsEncoding (timePairs timestamp)) (buffer.writeTimestamp timestamp) := by
  unfold timePairs WriteBuffer.writeTimestamp
  split
  · have hname : (ascii "timestamp").length < 2 ^ 32 := by decide
    refine adds_pair h hname ?_
    -- a double is written as the value is
    let value : Value (List UInt8) := .double timestamp
    have hzero : 0 < 2 ^ 64 := by decide
    have hsized : value.SizedFor .bits64 := ⟨hzero, hzero⟩
    obtain ⟨buffer', hwrite, hadds⟩ :=
      @adds_writeWpcpValue _ .bits64 value trivial hsized (adds_writeTextString h hname).writable
    obtain rfl := Option.some.inj hwrite
    exact hadds
  · exact h.adds_nil

namespace Item

variable {item : Item}

/-- The named fields and the additional pairs are written one after another. -/
theorem adds_writeFields (hitem : item.Sendable sizeT) {buffer : WriteBuffer}
    (h : buffer.Writable) :
    ∃ buffer', item.writeFields sizeT buffer = some buffer' ∧
      buffer.Adds (pairsEncoding item.pairs) buffer' := by
  obtain ⟨hfields, hadditional, -⟩ := hitem
  cases item with
  | data value timestamp status additional =>
    obtain ⟨hvalue, hstatus⟩ := hfields
    obtain ⟨buffer₁, hwrite, h₁⟩ := adds_writeValueField h "value" (by decide) hvalue
    have h₂ := adds_writeTimestamp h₁.writable timestamp
    have h₃ := adds_writeNumberField h₂.writable "status" (by decide)
      hstatus
    obtain ⟨buffer₄, hrest, h₄⟩ := adds_writeAdditional hadditional h₃.writable
    refine ⟨buffer₄, ?_, ?_⟩
    · exact Option.bind_eq_some_iff.mpr ⟨buffer₁, hwrite, hrest⟩
    · simp only [pairs, fields, pairsEncoding_append]
      exact (h₁.trans (h₂.trans h₃)).trans h₄
  | alarm key retain token id timestamp priority message acknowledged additional =>
    obtain ⟨hkey, htoken, hid, hpriority, hmessage⟩ := hfields
    have h₁ := adds_writeText h "key" (by decide) (hkey key rfl)
    have h₂ := adds_writeBoolean h₁.writable "retain" (by decide) retain
    obtain ⟨buffer₃, hwrite₃, h₃⟩ := adds_writeValueField h₂.writable "token" (by decide) htoken
    obtain ⟨buffer₄, hwrite₄, h₄⟩ := adds_writeValueField h₃.writable "id" (by decide) hid
    have h₅ := adds_writeTimestamp h₄.writable timestamp
    have h₆ := adds_writeNumberField h₅.writable "priority" (by decide)
      hpriority
    have h₇ := adds_writeTextField h₆.writable "message" (by decide)
      hmessage
    have h₈ := adds_writeBoolean h₇.writable "acknowledged" (by decide)
      acknowledged
    obtain ⟨buffer₉, hrest, h₉⟩ := adds_writeAdditional hadditional h₈.writable
    refine ⟨buffer₉, ?_, ?_⟩
    · exact Option.bind_eq_some_iff.mpr ⟨buffer₃, hwrite₃,
        Option.bind_eq_some_iff.mpr ⟨buffer₄, hwrite₄, hrest⟩⟩
    · simp only [pairs, fields, pairsEncoding_append]
      exact (h₁.trans (h₂.trans (h₃.trans (h₄.trans (h₅.trans (h₆.trans (h₇.trans h₈))))))).trans h₉
  | browse id name title description type additional =>
    obtain ⟨hid, hname, htitle, hdescription, htype⟩ := hfields
    obtain ⟨buffer₁, hwrite₁, h₁⟩ := adds_writeValueField h "id" (by decide) hid
    have h₂ := adds_writeTextField h₁.writable "name" (by decide) hname
    have h₃ := adds_writeTextField h₂.writable "title" (by decide) htitle
    have h₄ := adds_writeTextField h₃.writable "description" (by decide)
      hdescription
    obtain ⟨buffer₅, hwrite₅, h₅⟩ := adds_writeValueField h₄.writable "type" (by decide) htype
    obtain ⟨buffer₆, hrest, h₆⟩ := adds_writeAdditional hadditional h₅.writable
    refine ⟨buffer₆, ?_, ?_⟩
    · exact Option.bind_eq_some_iff.mpr ⟨buffer₁, hwrite₁,
        Option.bind_eq_some_iff.mpr ⟨buffer₅, hwrite₅, hrest⟩⟩
    · simp only [pairs, fields, pairsEncoding_append]
      exact (h₁.trans (h₂.trans (h₃.trans (h₄.trans h₅)))).trans h₆

/-- **An item is written as the map of its pairs.** -/
theorem adds_write (hitem : item.Sendable sizeT) {buffer : WriteBuffer} (h : buffer.Writable) :
    ∃ buffer', item.write sizeT buffer = some buffer' ∧
      buffer.Adds (mapEncoding item.pairs) buffer' := by
  have hlength := hitem.length_pairs
  have hcount : item.count < 2 ^ 32 := by
    rw [item.count_eq, Nat.mod_eq_of_lt hlength]
    exact hlength
  have hhead := WriteBuffer.adds_write h (Head.shortest .map item.count).bytes
  obtain ⟨buffer', hwrite, hadds⟩ := adds_writeFields hitem hhead.writable
  refine ⟨buffer', ?_, ?_⟩
  · rw [Item.write, WriteBuffer.writeMapHeader, buffer.writeTypeAndUint32Value_eq _ hcount, hwrite]
  · rw [mapEncoding, ← Nat.mod_eq_of_lt hlength, ← item.count_eq]
    exact hhead.trans hadds

end Item

/-! ### What is read -/

/-- The nodes of pairs: of each the key and the value. -/
def pairNodes (pairs : List KeyValuePair) : List (Value (List UInt8)) :=
  pairs.flatMap fun pair => [.textString pair.key.length pair.key, pair.value]

/-- The map of some pairs, as a tree. -/
def mapValue (pairs : List KeyValuePair) : Value (List UInt8) :=
  .map pairs.length (pairNodes pairs)

theorem pairNodes_cons (pair : KeyValuePair) (pairs : List KeyValuePair) :
    pairNodes (pair :: pairs) =
      .textString pair.key.length pair.key :: pair.value :: pairNodes pairs := rfl

theorem length_pairNodes (pairs : List KeyValuePair) :
    (pairNodes pairs).length = 2 * pairs.length := by
  induction pairs with
  | nil => rfl
  | cons pair pairs ih =>
    rw [pairNodes_cons, List.length_cons, List.length_cons, ih, List.length_cons]
    omega

/-- The encoding of the tree is that of the map. -/
theorem encoding_mapValue (pairs : List KeyValuePair) :
    (mapValue pairs).encoding = mapEncoding pairs := by
  have hnodes : Wire.bytesList (Wire.ofValueList (pairNodes pairs)) = pairsEncoding pairs := by
    induction pairs with
    | nil => rfl
    | cons pair pairs ih =>
      rw [pairNodes_cons, Wire.ofValueList, Wire.ofValueList, Wire.bytesList, Wire.bytesList, ih]
      show ((Head.shortest .textString pair.key.length).bytes ++ pair.key) ++ _ = _
      rw [List.append_assoc, pairsEncoding, pairsEncoding, List.flatMap_cons, List.append_assoc,
        List.append_assoc]
      rfl
  show (Wire.nested (.shortest .map pairs.length) (Wire.ofValueList (pairNodes pairs))).bytes = _
  rw [Wire.bytes, Head.stop_shortest, List.append_nil, hnodes]
  rfl

theorem wellFormed_mapValue {pairs : List KeyValuePair}
    (hpairs : ∀ pair ∈ pairs, pair.value.WellFormed) : (mapValue pairs).WellFormed := by
  refine Value.all_iff.mpr ⟨length_pairNodes pairs, fun c hc => ?_⟩
  obtain ⟨pair, hpair, hc⟩ := List.mem_flatMap.mp hc
  rcases List.mem_cons.mp hc with rfl | hc
  · exact rfl
  · obtain rfl := List.mem_singleton.mp hc
    exact hpairs pair hpair

/-- What is read back of a map: its pairs in order, each value in its normal form. -/
theorem norm_mapValue (pairs : List KeyValuePair) :
    (mapValue pairs).norm = .map pairs.length (pairs.flatMap fun pair =>
      [.textString pair.key.length pair.key, pair.value.norm]) := by
  rw [mapValue, Value.norm, Value.normList_eq_map, pairNodes, List.map_flatMap]
  rfl

namespace Item

variable {item : Item}

/-- The values of all pairs are well-formed. -/
theorem Sendable.wellFormed (hitem : item.Sendable sizeT) :
    ∀ pair ∈ item.pairs, pair.value.WellFormed := by
  have hvalue : ∀ {name value}, ValueFits sizeT value →
      ∀ pair ∈ valuePairs name value, pair.value.WellFormed := by
    intro name value hfits pair hpair
    obtain ⟨v, hv, rfl⟩ := List.mem_map.mp hpair
    exact (hfits v (Option.mem_toList.mp hv)).1
  have htext : ∀ {name text}, ∀ pair ∈ textPairs name text, pair.value.WellFormed := by
    intro name text pair hpair
    rcases text with _ | text
    · exact absurd hpair (List.not_mem_nil)
    · obtain rfl := List.mem_singleton.mp hpair
      exact rfl
  have htime : ∀ {timestamp}, ∀ pair ∈ timePairs timestamp, pair.value.WellFormed := by
    intro timestamp pair hpair
    unfold timePairs at hpair
    split at hpair
    · obtain rfl := List.mem_singleton.mp hpair
      exact trivial
    · exact absurd hpair (List.not_mem_nil)
  have hnumber : ∀ {name value}, ∀ pair ∈ numberPairs name value, pair.value.WellFormed := by
    intro name value pair hpair
    unfold numberPairs at hpair
    split at hpair
    · obtain rfl := List.mem_singleton.mp hpair
      exact trivial
    · exact absurd hpair (List.not_mem_nil)
  have hboolean : ∀ {name value}, ∀ pair ∈ [booleanPair name value], pair.value.WellFormed := by
    intro name value pair hpair
    obtain rfl := List.mem_singleton.mp hpair
    cases value <;> exact trivial
  obtain ⟨hfields, hadditional, -⟩ := hitem
  refine List.forall_mem_append.mpr ⟨?_, fun pair hpair => (hadditional pair hpair).wellFormed⟩
  cases item with
  | data value timestamp status additional =>
    simp only [Item.fields, List.forall_mem_append]
    exact ⟨hvalue hfields.1, htime, hnumber⟩
  | alarm key retain token id timestamp priority message acknowledged additional =>
    obtain ⟨-, htoken, hid, -, -⟩ := hfields
    simp only [Item.fields, List.forall_mem_append]
    exact ⟨htext, hboolean, hvalue htoken, hvalue hid, htime, hnumber, htext, hboolean⟩
  | browse id name title description type additional =>
    obtain ⟨hid, -, -, -, htype⟩ := hfields
    simp only [Item.fields, List.forall_mem_append]
    exact ⟨hvalue hid, htext, htext, htext, hvalue htype⟩

/-- **Items are well-formed maps.** For either width of `size_t`, whatever fields are present
and whatever they hold, an item is written, and wherever its bytes lie in memory, whatever
follows them, they are read as one map: it is as long as there are pairs, these are the named
fields that are present and then the additional pairs, in order and each with its value, and the
cursor is left behind it. -/
theorem decodes (hitem : item.Sendable sizeT) {buffer : WriteBuffer} (hbuffer : buffer.Writable) :
    ∃ buffer', item.write sizeT buffer = some buffer' ∧
      buffer.Adds (mapEncoding item.pairs) buffer' ∧
      ∀ M b rest, M.sizeT = sizeT → Holds M b (mapEncoding item.pairs ++ rest) →
        ¬b.MallocFails →
        ∃ fuel v b', (readWpcpValue M fuel).run b = some (.ok v, b') ∧
          v.deref (StringData.bytes M) = .map item.pairs.length (item.pairs.flatMap fun pair =>
            [.textString pair.key.length pair.key, pair.value.norm]) ∧
          b'.endPtr = b.endPtr ∧ b'.beginPtr = b.endPtr - rest.length := by
  obtain ⟨buffer', hwrite, hadds⟩ := adds_write hitem hbuffer
  refine ⟨buffer', hwrite, hadds, fun M b rest hsizeT hholds hmalloc => ?_⟩
  rw [← encoding_mapValue] at hholds
  have hwell := wellFormed_mapValue hitem.wellFormed
  have hlength : (mapValue item.pairs).encoding.length < M.sizeT.count := by
    have hend := hholds.end_eq
    have hlt := hholds.end_lt
    rw [List.length_append] at hend
    omega
  have hscan : scan M.sizeT ((mapValue item.pairs).encoding ++ rest) =
      (.ok (Wire.ofValue (mapValue item.pairs)), rest) :=
    scan_eq_ok_iff.mpr ⟨Wire.valid_ofValue hwell (Value.lengths_of_encoding hwell hlength), rfl⟩
  obtain ⟨v, b', hrun, hderef, hend, hholds'⟩ := exists_read hholds hmalloc hscan
  refine ⟨_, v, b', hrun, ?_, hend, ?_⟩
  · rw [hderef, Wire.value_ofValue hwell, norm_mapValue]
  · rw [hholds'.beginPtr_eq_sub, hend]

/-- The data item with the value 5 and the status 7, without a time and with a pair of the
application: the INT64 is read back as a UINT64. -/
theorem decodes_data : ∃ buffer',
    (Item.data (some (.int64 5)) 0 7 [⟨[0x78], .true⟩]).write .bits64 (.init fun _ => true) =
        some buffer' ∧
      (WriteBuffer.init fun _ => true).Adds
        [0xa3, 0x65, 0x76, 0x61, 0x6c, 0x75, 0x65, 0x05,
          0x66, 0x73, 0x74, 0x61, 0x74, 0x75, 0x73, 0x07, 0x61, 0x78, 0xf5] buffer' ∧
      ∀ M b rest, M.sizeT = .bits64 →
        Holds M b ([0xa3, 0x65, 0x76, 0x61, 0x6c, 0x75, 0x65, 0x05,
          0x66, 0x73, 0x74, 0x61, 0x74, 0x75, 0x73, 0x07, 0x61, 0x78, 0xf5] ++ rest) →
        ¬b.MallocFails → ∃ fuel v b', (readWpcpValue M fuel).run b = some (.ok v, b') ∧
          v.deref (StringData.bytes M) = .map 3 [.textString 5 (ascii "value"), .uint64 5,
            .textString 6 (ascii "status"), .uint64 7, .textString 1 [0x78], .true] ∧
          b'.endPtr = b.endPtr ∧ b'.beginPtr = b.endPtr - rest.length := by
  have hzero : 0 < 2 ^ 64 := by decide
  let item : Item := .data (some (.int64 5)) 0 7 [⟨[0x78], .true⟩]
  have hfields : item.FieldsFit .bits64 := by
    refine ⟨fun v hv => ?_, by decide⟩
    obtain rfl := Option.some.inj hv
    exact ⟨trivial, hzero, hzero⟩
  have hadditional : ∀ pair ∈ item.additional, pair.SendableFor .bits64 := by
    intro pair hpair
    obtain rfl := List.mem_singleton.mp hpair
    exact ⟨by decide, trivial, hzero, hzero⟩
  have hbytes : mapEncoding item.pairs =
      [0xa3, 0x65, 0x76, 0x61, 0x6c, 0x75, 0x65, 0x05,
        0x66, 0x73, 0x74, 0x61, 0x74, 0x75, 0x73, 0x07, 0x61, 0x78, 0xf5] := by decide
  have hdecodes := @decodes .bits64 item ⟨hfields, hadditional, by decide⟩ _
    WriteBuffer.writable_init
  rw [hbytes] at hdecodes
  exact hdecodes

end Item

end Wpcp.Cbor
