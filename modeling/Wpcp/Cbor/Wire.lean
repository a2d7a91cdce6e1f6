import Wpcp.Cbor.Value
import Wpcp.Lib.Attempt

/-!
# Messages as trees of items

What a message says, apart from where it lies in memory and how it is read: an item is
a head alone, a string with its content, or a head with the items inside it. Such a
tree is `Wpcp.Cbor.Wire`; it has bytes (`Wpcp.Cbor.Wire.bytes`), it can be one the
decoder accepts (`Wpcp.Cbor.Wire.Valid`), and then it has a value
(`Wpcp.Cbor.Wire.value`). Unlike the value, it tells which of the many spellings of a
value the message uses.

`Wpcp.Cbor.scan` finds the item at the start of a byte string, or says why there is
none: the bytes are malformed, or they end too early, with so and so many bytes
missing. That it is correct for the grammar is in `Wpcp.Cbor.Scan`.
-/

namespace Wpcp.Cbor

/-! ### The grammar of heads -/

/-- How many bytes follow the first byte of a head, from its low bits; `none` for the
three values that are not used. -/
def argumentBytes (firstByte : ℕ) : Option ℕ :=
  if firstByte < additonalBytes1 then some 0
  else if firstByte = additonalBytes1 then some 1
  else if firstByte = additonalBytes2 then some 2
  else if firstByte = additonalBytes4 then some 4
  else if firstByte = additonalBytes8 then some 8
  else if firstByte = indefiniteLength then some 0
  else none

namespace Head

/-- A head can be accepted: only types with a length have an indefinite one, and a
length has to be a `size_t`. -/
def Accepted (sizeT : SizeT) (head : Head) : Prop :=
  (head.firstByte = indefiniteLength → head.type.hasLength) ∧
    (head.type.hasLength → head.value < sizeT.count)

instance (sizeT : SizeT) (head : Head) : Decidable (head.Accepted sizeT) :=
  inferInstanceAs (Decidable (_ ∧ _))

/-- The argument of the head is one its first byte and `k` more bytes spell. -/
def Spelt (head : Head) (k : ℕ) : Prop :=
  argumentBytes head.firstByte = some k ∧
    if head.firstByte < additonalBytes1 then head.value = head.firstByte
    else head.value < 256 ^ k

/-- A head that is spelt and accepted. -/
def Valid (sizeT : SizeT) (head : Head) : Prop :=
  (∃ k, head.Spelt k) ∧ head.Accepted sizeT

/-- The bytes of a head. -/
def bytes (head : Head) : List UInt8 :=
  constructHeader head.type head.firstByte ::
    BigEndian.bytes ((argumentBytes head.firstByte).getD 0) head.value

/-- The head of an item with an indefinite length. -/
def isIndefinite (head : Head) : Bool := head.firstByte = indefiniteLength

/-- The head of a string. -/
def isString (head : Head) : Bool :=
  head.type = .byteString || head.type = .textString

/-- How many items a head with a definite length announces. -/
def count (head : Head) : ℕ :=
  match head.type with
  | .map => head.value * 2 % 2 ^ 64
  | .tag => 1
  | _ => head.value

/-- What ends the items inside an item. -/
def stop (head : Head) : List UInt8 := if head.isIndefinite then [stopCode] else []

end Head

/-! ### The grammar of items -/

/-- An item of a message. -/
inductive Wire where
  /-- A number, or a value of major type 7. -/
  | leaf (head : Head)
  /-- A string of definite length. -/
  | string (head : Head) (content : List UInt8)
  /-- An array, a map, a tag, or a string of indefinite length with its chunks. -/
  | nested (head : Head) (items : List Wire)

namespace Wire

/-- The head of an item. -/
def head : Wire → Head
  | .leaf head => head
  | .string head _ => head
  | .nested head _ => head

/-- **Induction over the items of a message.** -/
@[elab_as_elim] theorem induction {P : Wire → Prop} (leaf : ∀ head, P (.leaf head))
    (string : ∀ head content, P (.string head content))
    (nested : ∀ head items, (∀ w ∈ items, P w) → P (.nested head items)) (w : Wire) : P w := by
  refine @Wire.rec P (fun items => ∀ w ∈ items, P w)
    leaf string nested ?_ ?_ w
  · simp
  · rintro w items hw hitems v hv
    obtain rfl | hv := List.mem_cons.mp hv
    · exact hw
    · exact hitems v hv

mutual

/-- The bytes of an item. -/
def bytes : Wire → List UInt8
  | .leaf head => head.bytes
  | .string head content => head.bytes ++ content
  | .nested head items => head.bytes ++ (bytesList items ++ head.stop)

/-- The bytes of the items inside an item. -/
def bytesList : List Wire → List UInt8
  | [] => []
  | w :: ws => bytes w ++ bytesList ws

end

/-- The number of items inside an item is what the head says: the announced one, any
(of a map: any even) number where the length is indefinite. The chunks of a string are
strings of the same type. -/
def Fits (head : Head) (items : List Wire) : Prop :=
  match head.type with
  | .byteString | .textString =>
    head.isIndefinite ∧ ∀ w ∈ items, w.head.type = head.type
  | .array => head.isIndefinite ∨ items.length = head.count
  | .map => items.length % 2 = 0 ∧ (head.isIndefinite ∨ items.length = head.count)
  | .tag => items.length = head.count
  | _ => False

/-- An item has no parts: its type is none of those that have. -/
def IsLeaf (head : Head) : Prop :=
  head.type.hasLength = false ∧ head.type ≠ .tag

mutual

/-- An item the decoder accepts. -/
def Valid (sizeT : SizeT) : Wire → Prop
  | .leaf head => head.Valid sizeT ∧ IsLeaf head
  | .string head content =>
    head.Valid sizeT ∧ head.isString ∧ ¬head.isIndefinite ∧ content.length = head.value
  | .nested head items => head.Valid sizeT ∧ Fits head items ∧ ValidList sizeT items

/-- All items inside an item are accepted. -/
def ValidList (sizeT : SizeT) : List Wire → Prop
  | [] => True
  | w :: ws => Valid sizeT w ∧ ValidList sizeT ws

end

theorem validList_iff {sizeT : SizeT} {ws : List Wire} :
    ValidList sizeT ws ↔ ∀ w ∈ ws, Valid sizeT w := by
  induction ws with
  | nil => simp [ValidList]
  | cons w ws ih => simp [ValidList, ih]

theorem Valid.head_valid {sizeT : SizeT} {w : Wire} (h : w.Valid sizeT) :
    w.head.Valid sizeT := by
  cases w with
  | leaf head => exact (show head.Valid sizeT ∧ _ from h).1
  | string head content => exact (show head.Valid sizeT ∧ _ from h).1
  | nested head items => exact (show head.Valid sizeT ∧ _ from h).1

mutual

/-- The value of an item. -/
def value : Wire → Value (List UInt8)
  | .leaf head =>
    match head.type with
    | .unsignedInteger => .uint64 (UInt64.ofNat head.value)
    | .negativeInteger => .int64 (~~~UInt64.ofNat head.value).toInt64
    | _ => simpleTypeValue head
  | .string head content =>
    match head.type with
    | .byteString => .byteString content.length content
    | _ => .textString content.length content
  | .nested head items =>
    match head.type with
    | .byteString => .byteString (chunkBytes items).length (chunkBytes items)
    | .textString => .textString (chunkBytes items).length (chunkBytes items)
    | .array => .array items.length (valueList items)
    | .map => .map (items.length / 2) (valueList items)
    | _ => .tag (UInt64.ofNat head.value) (valueList items)

/-- The values of the items inside an item. -/
def valueList : List Wire → List (Value (List UInt8))
  | [] => []
  | w :: ws => value w :: valueList ws

/-- The bytes a string has from its chunks. -/
def chunkBytes : List Wire → List UInt8
  | [] => []
  | w :: ws =>
    (value w).stringBytes (fun _ data => data) ++ chunkBytes ws

end

@[simp] theorem valueList_eq_map (ws : List Wire) : valueList ws = ws.map value := by
  induction ws with
  | nil => rfl
  | cons w ws ih => simp [valueList, ih]

theorem chunkBytes_eq_flatMap (ws : List Wire) :
    chunkBytes ws = (ws.map value).flatMap (Value.stringBytes fun _ data => data) := by
  induction ws with
  | nil => rfl
  | cons w ws ih => simp [chunkBytes, ih]

@[simp] theorem chunkBytes_append (ws ws' : List Wire) :
    chunkBytes (ws ++ ws') = chunkBytes ws ++ chunkBytes ws' := by
  simp [chunkBytes_eq_flatMap]

/-- The string of an item is not longer than the item. -/
theorem length_stringBytes_le (w : Wire) :
    (w.value.stringBytes fun _ data => data).length ≤ w.bytes.length := by
  induction w using Wire.induction with
  | leaf head =>
    have hnil : (value (.leaf head)).stringBytes (fun _ data => data) = [] := by
      simp only [value]
      split
      · rfl
      · rfl
      · have htype := type_simpleTypeValue (σ := List UInt8) head
        exact Value.stringBytes_eq_nil (fun h => htype (by simp [h])) fun h => htype (by simp [h])
    simp [hnil]
  | string head content =>
    have hcontent : (value (.string head content)).stringBytes (fun _ data => data) = content := by
      simp only [value]
      split <;> rfl
    simp [hcontent, bytes]
  | nested head items ih =>
    have hchunks : (chunkBytes items).length ≤ (bytesList items).length := by
      induction items with
      | nil => simp [chunkBytes]
      | cons w ws ihws =>
        have hw := ih w (by simp)
        have hws := ihws fun v hv => ih v (by simp [hv])
        simp only [chunkBytes, bytesList, List.length_append]
        omega
    have hbytes : ((value (.nested head items)).stringBytes fun _ data => data).length ≤
        (chunkBytes items).length := by
      simp only [value]
      split <;> simp [Value.stringBytes]
    simp only [bytes, List.length_append]
    omega

/-- The value of an item is a string with its own length, or no string. -/
theorem value_string (w : Wire) : (∃ data, w.value = .byteString data.length data) ∨
    (∃ data, w.value = .textString data.length data) ∨
      (w.value.type ≠ .byteString ∧ w.value.type ≠ .textString) := by
  cases w with
  | leaf head =>
    have htype := type_simpleTypeValue (σ := List UInt8) head
    refine Or.inr (Or.inr ?_)
    simp only [value]
    split
    · simp [Value.type]
    · simp [Value.type]
    · exact ⟨fun h => htype (by simp [h]), fun h => htype (by simp [h])⟩
  | string head content =>
    simp only [value]
    split
    · exact Or.inl ⟨content, rfl⟩
    · exact Or.inr (Or.inl ⟨content, rfl⟩)
  | nested head items =>
    simp only [value]
    split
    · exact Or.inl ⟨_, rfl⟩
    · exact Or.inr (Or.inl ⟨_, rfl⟩)
    all_goals exact Or.inr (Or.inr (by simp [Value.type]))

/-- An accepted item has the value of a string of the type its head has. -/
theorem Valid.type_eq_iff {sizeT : SizeT} {w : Wire} (h : w.Valid sizeT) :
    (w.value.type = .byteString ↔ w.head.type = .byteString) ∧
      (w.value.type = .textString ↔ w.head.type = .textString) := by
  cases w with
  | leaf head =>
    obtain ⟨-, hlength, -⟩ := h
    have htype := type_simpleTypeValue (σ := List UInt8) head
    simp only [value, Wire.head]
    cases hhead : head.type <;> simp_all [Value.type, MajorType.hasLength]
  | string head content =>
    obtain ⟨-, hstring, -⟩ := h
    have htypes : head.type = .byteString ∨ head.type = .textString := by
      simpa [Head.isString] using hstring
    obtain hhead | hhead := htypes <;> simp [value, Wire.head, hhead, Value.type]
  | nested head items =>
    obtain ⟨-, hfits, -⟩ := h
    simp only [value, Wire.head]
    cases hhead : head.type <;> simp [Value.type]

end Wire

/-! ### Scanning -/

/-- Why there is no item at the start of a byte string. -/
inductive Fault where
  /-- What is there is no item. -/
  | malformed
  /-- The bytes end before the item does; so many more are asked for by the part that
  is cut. -/
  | short (missing : ℕ)
  deriving DecidableEq

/-- A part of an item taken from the start of a byte string. -/
abbrev Scan (α : Type) : Type := Attempt (List UInt8) Fault α

/-- The next `k` bytes. -/
def scanBytes (k : ℕ) : Scan (List UInt8) := fun bs =>
  if k ≤ bs.length then some (.ok (bs.take k), bs.drop k)
  else some (.error (.short (k - bs.length)), [])

/-- The head with a given first byte and the bytes of a given argument. -/
def Head.ofBytes (first : ℕ) (argument : List UInt8) : Head where
  type := headerType first
  firstByte := headerInfo first
  value :=
    if headerInfo first < additonalBytes1 then headerInfo first else BigEndian.value argument

/-- Nothing but what is accepted. -/
def accept (sizeT : SizeT) (head : Head) : Scan Head :=
  if head.Accepted sizeT then pure head else Attempt.fail .malformed

/-- The next head. -/
def scanHead (sizeT : SizeT) : Scan Head := do
  let first ← scanBytes 1
  match argumentBytes (headerInfo (BigEndian.value first)) with
  | none => Attempt.fail .malformed
  | some k => do
    let argument ← scanBytes k
    accept sizeT (Head.ofBytes (BigEndian.value first) argument)

/-- The items inside an item are complete; a stop code is taken. -/
def scanStop (head : Head) (items : List Wire) : Scan Bool := fun bs =>
  if head.isIndefinite then
    match bs with
    | b :: rest => if b = stopCode then some (.ok true, rest) else some (.ok false, bs)
    | [] => some (.ok false, bs)
  else some (.ok (items.length = head.count), bs)

/-- One more of the items inside an item, or their end. -/
def scanNext (item : Scan Wire) (head : Head) (items : List Wire) :
    Scan (List Wire ⊕ List Wire) := do
  if ← scanStop head items then pure (.inr items)
  else do
    let w ← item
    if head.isString ∧ w.head.type ≠ head.type then Attempt.fail .malformed
    else pure (.inl (items ++ [w]))

/-- All items inside an item. -/
def scanItems (item : Scan Wire) (fuel : ℕ) (head : Head) : Scan (List Wire) :=
  Attempt.loop (scanNext item head) fuel []

/-- The next item. -/
def scanItem (sizeT : SizeT) : ℕ → Scan Wire
  | 0 => Attempt.outOfFuel
  | fuel + 1 => do
    let head ← scanHead sizeT
    match head.type with
    | .byteString | .textString =>
      if head.isIndefinite then do
        let items ← scanItems (scanItem sizeT fuel) fuel head
        pure (.nested head items)
      else do
        let content ← scanBytes head.value
        pure (.string head content)
    | .array => do
      let items ← scanItems (scanItem sizeT fuel) fuel head
      pure (.nested head items)
    | .map => do
      let items ← scanItems (scanItem sizeT fuel) fuel head
      if items.length % 2 ≠ 0 then Attempt.fail .malformed
      else pure (.nested head items)
    | .tag => do
      let item ← scanItem sizeT fuel
      pure (.nested head [item])
    | _ => pure (.leaf head)

/-- The item at the start of a byte string and what follows it, or why there is none. -/
def scan (sizeT : SizeT) (bs : List UInt8) : Except Fault Wire × List UInt8 :=
  ((scanItem sizeT (bs.length + 1)).run bs).getD (.error .malformed, bs)

/-- How many bytes the part of the item that is cut asks for beyond the end; 0 where no
part is cut. -/
def overshoot (sizeT : SizeT) (bs : List UInt8) : ℕ :=
  match scan sizeT bs with
  | (.error (.short missing), _) => missing
  | _ => 0

end Wpcp.Cbor
