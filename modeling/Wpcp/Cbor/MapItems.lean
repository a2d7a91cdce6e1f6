import Wpcp.Cbor.HeaderReader
import Wpcp.Cbor.ItemWriter

/-!
# What is read from a map

`wpcp_cbor_read_buffer_read_map_items` sorts the pairs of a map: the value of a key its
caller knows replaces what was in the slot of the key, and a pair with another key goes to the
end of the array of additional pairs. So, of pairs that are read in order, a slot holds the
value of the **last** pair with its key (`Wpcp.Cbor.lastValue`), and the additional pairs are
the ones with unknown keys, all of them and in order (`Wpcp.Cbor.unknownPairs`).

`Wpcp.Cbor.Stored` says this of the pairs read so far; one round keeps it
(`Wpcp.Cbor.exists_storePair`), hence the loop does (`Wpcp.Cbor.exists_readPairs`), hence
**a map that was written is read back sorted** (`Wpcp.Cbor.readsMap`).
-/

namespace Wpcp.Cbor

variable {M : Machine} {b b' : ReadBuffer} {rest : List UInt8}

/-! ### Maps that are sent -/

/-- The bytes of pairs one after another. -/
def pairsEncoding (pairs : List KeyValuePair) : List UInt8 :=
  pairs.flatMap fun pair =>
    (Head.shortest .textString pair.key.length).bytes ++ (pair.key ++ pair.value.encoding)

/-- The bytes of a definite map with the given pairs. -/
def mapEncoding (pairs : List KeyValuePair) : List UInt8 :=
  (Head.shortest .map pairs.length).bytes ++ pairsEncoding pairs

/-- A pair that can be sent: the length of the key fits 32 bits, and the value is a
well-formed tree whose numbers fit their fields. -/
structure KeyValuePair.Sendable (pair : KeyValuePair) : Prop where
  key : pair.key.length < 2 ^ 32
  wellFormed : pair.value.WellFormed
  sized : pair.value.Sized

/-- The same, for a `size_t` of the given width. -/
structure KeyValuePair.SendableFor (sizeT : SizeT) (pair : KeyValuePair) : Prop where
  key : pair.key.length < 2 ^ 32
  wellFormed : pair.value.WellFormed
  sized : pair.value.SizedFor sizeT

theorem KeyValuePair.Sendable.sendableFor {pair : KeyValuePair} (h : pair.Sendable) :
    pair.SendableFor .bits64 := ⟨h.key, h.wellFormed, h.sized⟩

theorem pairsEncoding_append (pairs pairs' : List KeyValuePair) :
    pairsEncoding (pairs ++ pairs') = pairsEncoding pairs ++ pairsEncoding pairs' :=
  List.flatMap_append

/-- A text is written as its head and its bytes. -/
theorem adds_writeTextString {buffer : WriteBuffer} (h : buffer.Writable) {data : List UInt8}
    (hlength : data.length < 2 ^ 32) :
    buffer.Adds ((Head.shortest .textString data.length).bytes ++ data)
      (buffer.writeTextString data) := by
  rw [WriteBuffer.writeTextString, buffer.writeTypeAndUint32Value_eq _ hlength]
  have hhead := WriteBuffer.adds_write h (Head.shortest .textString data.length).bytes
  exact hhead.trans (WriteBuffer.adds_write hhead.writable data)

/-- A pair is written as its key and its value. -/
theorem adds_pair {buffer buffer' : WriteBuffer} (h : buffer.Writable) {pair : KeyValuePair}
    (hkey : pair.key.length < 2 ^ 32)
    (hvalue : (buffer.writeTextString pair.key).Adds pair.value.encoding buffer') :
    buffer.Adds (pairsEncoding [pair]) buffer' := by
  have hbytes := (adds_writeTextString h hkey).trans hvalue
  simpa [pairsEncoding] using hbytes

/-- Pairs are written one after another. -/
theorem adds_writeAdditional {sizeT : SizeT} {pairs : List KeyValuePair}
    (hpairs : ∀ pair ∈ pairs, pair.SendableFor sizeT) {buffer : WriteBuffer}
    (h : buffer.Writable) :
    ∃ buffer', buffer.writeAdditional sizeT pairs = some buffer' ∧
      buffer.Adds (pairsEncoding pairs) buffer' := by
  induction pairs generalizing buffer with
  | nil => exact ⟨_, rfl, h.adds_nil⟩
  | cons pair pairs ih =>
    obtain ⟨⟨hkey, hwell, hsized⟩, hpairs⟩ := List.forall_mem_cons.mp hpairs
    obtain ⟨buffer₁, hvalue, hadds₁⟩ :=
      adds_writeWpcpValue hwell hsized (adds_writeTextString h hkey).writable
    obtain ⟨buffer₂, hrest, hadds₂⟩ := ih hpairs hadds₁.writable
    refine ⟨buffer₂, ?_, ?_⟩
    · rw [WriteBuffer.writeAdditional, hvalue]
      exact hrest
    · rw [← List.singleton_append, pairsEncoding_append]
      exact (adds_pair h hkey hadds₁).trans hadds₂

/-- **The encoders write the encoding of the map.** -/
theorem adds_writeMap {pairs : List KeyValuePair} (hpairs : ∀ pair ∈ pairs, pair.Sendable)
    (hlength : pairs.length < 2 ^ 32) {buffer : WriteBuffer} (hbuffer : buffer.Writable) :
    ∃ buffer', (buffer.writeMapHeader pairs.length).writeAdditional .bits64 pairs = some buffer' ∧
      buffer.Adds (mapEncoding pairs) buffer' := by
  have hhead := WriteBuffer.adds_write hbuffer (Head.shortest .map pairs.length).bytes
  obtain ⟨buffer', hwrite, hadds⟩ :=
    adds_writeAdditional (fun pair hpair => (hpairs pair hpair).sendableFor) hhead.writable
  refine ⟨buffer', ?_, hhead.trans hadds⟩
  rw [WriteBuffer.writeMapHeader, buffer.writeTypeAndUint32Value_eq _ hlength, hwrite]

/-! ### What the pairs mean -/

/-- The value of the last pair with a key, as it is read back. -/
def lastValue (pairs : List KeyValuePair) (key : List UInt8) : Option (Value (List UInt8)) :=
  ((pairs.filter fun pair => pair.key = key).getLast?).map fun pair => pair.value.norm

/-- The pairs whose keys are not known, as they are read back. -/
def unknownPairs (known : List (List UInt8)) (pairs : List KeyValuePair) :
    List (List UInt8 × Value (List UInt8)) :=
  (pairs.filter fun pair => pair.key ∉ known).map fun pair => (pair.key, pair.value.norm)

theorem lastValue_concat (pairs : List KeyValuePair) (pair : KeyValuePair) (key : List UInt8) :
    lastValue (pairs ++ [pair]) key =
      if pair.key = key then some pair.value.norm else lastValue pairs key := by
  unfold lastValue
  rw [List.filter_append]
  by_cases hkey : pair.key = key
  · rw [if_pos hkey, List.filter_cons_of_pos (by simpa using hkey), List.filter_nil,
      List.getLast?_append_of_ne_nil _ (by simp)]
    rfl
  · rw [if_neg hkey, List.filter_cons_of_neg (by simpa using hkey), List.filter_nil,
      List.append_nil]

theorem unknownPairs_concat (known : List (List UInt8)) (pairs : List KeyValuePair)
    (pair : KeyValuePair) :
    unknownPairs known (pairs ++ [pair]) = unknownPairs known pairs ++
      if pair.key ∈ known then [] else [(pair.key, pair.value.norm)] := by
  unfold unknownPairs
  rw [List.filter_append, List.map_append]
  by_cases hkey : pair.key ∈ known
  · rw [if_pos hkey, List.filter_cons_of_neg (by simpa using hkey)]
    rfl
  · rw [if_neg hkey, List.filter_cons_of_pos (by simpa using hkey)]
    rfl

/-! ### What is stored -/

/-- A slot with its key, and its value with the strings it points to. -/
def MapItem.deref (M : Machine) (item : MapItem) : List UInt8 × Option (Value (List UInt8)) :=
  (item.key, item.value.map (Value.deref (StringData.bytes M)))

/-- An additional pair with the bytes its key and the strings of its value point to. -/
def AdditionalItem.deref (M : Machine) (item : AdditionalItem) :
    List UInt8 × Value (List UInt8) :=
  (M.slice item.key item.keyLength, item.value.deref (StringData.bytes M))

/-- What is stored after some pairs have been read and so many are left: the last value of each
known key, and the unknown pairs in an array that has, with a 64-bit `size_t`, room for the
pairs that are left. -/
structure Stored (M : Machine) (known : List (List UInt8)) (pairs : List KeyValuePair)
    (remaining : ℕ) (items : MapItems) : Prop where
  map : items.map.map (MapItem.deref M) = known.map fun key => (key, lastValue pairs key)
  additional : items.additional.map (AdditionalItem.deref M) = unknownPairs known pairs
  empty : items.allocated = none → items.additional = []
  room : M.sizeT = .bits64 → ∀ allocated, items.allocated = some allocated →
    (items.additional.length + remaining) * M.sizeT.pairSize ≤ allocated

theorem Stored.keys {known : List (List UInt8)} {pairs : List KeyValuePair} {remaining : ℕ}
    {items : MapItems} (h : Stored M known pairs remaining items) :
    items.map.map MapItem.key = known := by
  have hkeys := congrArg (List.map Prod.fst) h.map
  simpa [Function.comp_def, MapItem.deref] using hkeys

/-- A value of an unknown key is not taken by a slot. -/
theorem storeValue_of_notMem {key : List UInt8} {value : Value StringData} {map : List MapItem}
    (h : key ∉ map.map MapItem.key) : storeValue key value map = none := by
  induction map with
  | nil => rfl
  | cons item map ih =>
    rw [List.map_cons, List.mem_cons, not_or] at h
    rw [storeValue, if_neg (fun heq => h.1 heq.symm), ih h.2]
    rfl

/-- A value of a known key replaces what is in its slot. -/
theorem storeValue_of_mem {key : List UInt8} (value : Value StringData) {map : List MapItem}
    (hnodup : (map.map MapItem.key).Nodup) (h : key ∈ map.map MapItem.key) :
    storeValue key value map =
      some (map.map fun item =>
        if item.key = key then { item with value := some value } else item) := by
  induction map with
  | nil => simp at h
  | cons item map ih =>
    rw [List.map_cons, List.nodup_cons] at hnodup
    rw [storeValue, List.map_cons]
    by_cases hkey : item.key = key
    · -- the key is in no other slot
      have hrest : map.map (fun item => if item.key = key then { item with value := some value }
          else item) = map := by
        conv_rhs => rw [← List.map_id' map]
        refine List.map_congr_left fun other hother => if_neg fun heq => hnodup.1 ?_
        rw [hkey, ← heq]
        exact List.mem_map_of_mem hother
      rw [if_pos hkey, if_pos hkey, hrest]
    · rw [List.map_cons, List.mem_cons] at h
      have hmem := h.resolve_left fun heq => hkey heq.symm
      rw [if_neg hkey, if_neg hkey, ih hnodup.2 hmem]
      rfl

/-- Nothing has been read yet. -/
theorem Stored.init (known : List (List UInt8)) (remaining : ℕ) :
    Stored M known [] remaining ⟨known.map fun key => ⟨key, none⟩, [], none⟩ where
  map := by
    rw [List.map_map]
    rfl
  additional := rfl
  empty := fun _ => rfl
  room := fun _ _ h => nomatch h

theorem SizeT.pairSize_mul_lt {sizeT : SizeT} (hbits : sizeT = .bits64) {n : ℕ}
    (h : n < 2 ^ 32) : n * sizeT.pairSize % sizeT.count = n * sizeT.pairSize := by
  subst hbits
  refine Nat.mod_eq_of_lt ?_
  simp only [SizeT.pairSize, SizeT.count]
  omega

/-- **One round stores one pair.** -/
theorem exists_storePair {known : List (List UInt8)} {pairs : List KeyValuePair}
    {remaining address : ℕ} {items : MapItems} {pair : KeyValuePair} {value : Value StringData}
    (hremaining : remaining + 1 < 2 ^ 32) (hnodup : known.Nodup)
    (hstored : Stored M known pairs (remaining + 1) items)
    (hkey : M.slice address pair.key.length = pair.key)
    (hvalue : value.deref (StringData.bytes M) = pair.value.norm) (hholds : Holds M b rest)
    (hmalloc : ¬b.MallocFails) :
    ∃ items' b', (storePair M (remaining + 1) items address pair.key.length value).run b =
        some (.ok (some items'), b') ∧ Stored M known (pairs ++ [pair]) remaining items' ∧
      MovesTo M b b' rest := by
  have hkeys := hstored.keys
  have hroom : M.sizeT = .bits64 → ∀ allocated, items.allocated = some allocated →
      (items.additional.length + 1 + remaining) * M.sizeT.pairSize ≤ allocated := by
    intro hbits allocated hallocated
    have := hstored.room hbits allocated hallocated
    rwa [show items.additional.length + 1 + remaining =
      items.additional.length + (remaining + 1) by omega]
  have hless : M.sizeT = .bits64 → ∀ allocated, items.allocated = some allocated →
      (items.additional.length + remaining) * M.sizeT.pairSize ≤ allocated :=
    fun hbits allocated h =>
      Nat.le_trans (Nat.mul_le_mul_right _ (by omega)) (hroom hbits allocated h)
  by_cases hknown : pair.key ∈ known
  · have hmem : pair.key ∈ items.map.map MapItem.key := by rwa [hkeys]
    have hstore := storeValue_of_mem value (by rwa [hkeys]) hmem
    refine ⟨{ items with map := items.map.map fun item =>
      if item.key = pair.key then { item with value := some value } else item }, b, ?_, ?_,
      ⟨.refl hholds, hholds⟩⟩
    · rw [storePair, hkey, hstore]
      rfl
    · refine ⟨?_, ?_, hstored.empty, hless⟩
      · have hslot : (items.map.map fun item =>
            if item.key = pair.key then { item with value := some value } else item).map
              (MapItem.deref M) = (items.map.map (MapItem.deref M)).map fun slot =>
                (slot.1, if pair.key = slot.1 then some pair.value.norm else slot.2) := by
          rw [List.map_map, List.map_map]
          refine List.map_congr_left fun item _ => ?_
          rw [Function.comp_apply, Function.comp_apply]
          by_cases hsame : item.key = pair.key
          · have hsame' : pair.key = (item.deref M).1 := hsame.symm
            rw [if_pos hsame, if_pos hsame', ← hvalue]
            rfl
          · have hsame' : pair.key ≠ (item.deref M).1 := Ne.symm hsame
            rw [if_neg hsame, if_neg hsame']
        rw [hslot, hstored.map, List.map_map]
        exact List.map_congr_left fun key _ => by
          rw [Function.comp_apply, lastValue_concat]
      · rw [unknownPairs_concat, if_pos hknown, List.append_nil]
        exact hstored.additional
  · have hnone : storeValue pair.key value items.map = none :=
      storeValue_of_notMem (by rwa [hkeys])
    have hmap : items.map.map (MapItem.deref M) =
        known.map fun key => (key, lastValue (pairs ++ [pair]) key) := by
      rw [hstored.map]
      refine List.map_congr_left fun key hmem => ?_
      have hne : pair.key ≠ key := by
        rintro rfl
        exact hknown hmem
      rw [lastValue_concat, if_neg hne]
    have hadditional : (items.additional ++ [AdditionalItem.mk address pair.key.length value]).map
        (AdditionalItem.deref M) = unknownPairs known (pairs ++ [pair]) := by
      rw [List.map_append, hstored.additional, unknownPairs_concat, if_neg hknown,
        List.map_singleton]
      rw [AdditionalItem.deref, hkey, hvalue]
    cases hallocated : items.allocated with
    | some allocated =>
      refine ⟨{ items with
        additional := items.additional ++ [⟨address, pair.key.length, value⟩] }, b, ?_,
        ⟨hmap, hadditional, fun h => ?_, fun hbits n hn => ?_⟩, ⟨.refl hholds, hholds⟩⟩
      · rw [storePair, hkey, hnone]
        dsimp only
        rw [hallocated]
        rfl
      · rw [hallocated] at h
        exact nomatch h
      · rw [List.length_append]
        exact hroom hbits n hn
    | none =>
      have hempty := hstored.empty hallocated
      have halloc : (orNull alloc).run b =
          some (.ok (some ()), { b with malloc := fun n => b.malloc (n + 1) }) := by
        refine run_orNull_ok ?_
        show some (if b.malloc 0 then _ else _, _) = _
        rw [if_pos (by_contra fun hfails => hmalloc ⟨0, by simpa using hfails⟩)]
      refine ⟨{ items with
        additional := items.additional ++ [AdditionalItem.mk address pair.key.length value]
        allocated := some ((remaining + 1) * M.sizeT.pairSize % M.sizeT.count) },
        { b with malloc := fun n => b.malloc (n + 1) }, ?_,
        ⟨hmap, hadditional, ?_, fun hbits n hn => ?_⟩,
        ⟨{ Advances.refl hholds with malloc := fun ⟨n, hn⟩ => ⟨n + 1, hn⟩ },
          ⟨hholds.1, hholds.2, hholds.3, hholds.4⟩⟩⟩
      · rw [storePair, hkey, hnone]
        dsimp only
        rw [hallocated]
        dsimp only
        rw [Attempt.run_bind_ok halloc]
        rfl
      · exact nofun
      · obtain rfl := Option.some.inj hn
        rw [SizeT.pairSize_mul_lt hbits hremaining, hempty]
        exact Nat.mul_le_mul_right _ (by simp; omega)

/-- **The loop stores the pairs that are left.** -/
theorem exists_readPairs {known : List (List UInt8)} {before pairs : List KeyValuePair}
    {items : MapItems} {fuel : ℕ}
    (hpairs : ∀ pair ∈ pairs, pair.Sendable) (hlength : pairs.length < 2 ^ 32)
    (hnodup : known.Nodup) (hstored : Stored M known before pairs.length items)
    (hholds : Holds M b (pairsEncoding pairs ++ rest)) (hmalloc : ¬b.MallocFails)
    (hfuel : (pairsEncoding pairs ++ rest).length < fuel) :
    ∃ items' b', (readPairs M fuel pairs.length items).run b = some (.ok (true, items'), b') ∧
      Stored M known (before ++ pairs) 0 items' ∧ MovesTo M b b' rest := by
  induction pairs generalizing before items b with
  | nil => exact ⟨items, b, rfl, by simpa using hstored, .refl hholds, hholds⟩
  | cons pair pairs ih =>
    obtain ⟨hkey, hwell, hsized⟩ := hpairs pair (by simp)
    have hbytes : pairsEncoding (pair :: pairs) ++ rest =
        (Head.shortest .textString pair.key.length).bytes ++ (pair.key ++
          ((Wire.ofValue pair.value).bytes ++ (pairsEncoding pairs ++ rest))) := by
      simp [pairsEncoding, Value.encoding]
    rw [hbytes] at hholds hfuel
    obtain ⟨address, b₁, hread, hslice, hmoves₁⟩ := exists_readTextString hholds hkey hmalloc
    have hvalid : (Wire.ofValue pair.value).Valid M.sizeT := by
      refine Wire.valid_ofValue hwell (Value.lengths_of_encoding hwell ?_)
      have hend := hholds.end_eq
      have hend_lt := hholds.end_lt
      simp only [List.length_append] at hend
      rw [Value.encoding]
      omega
    have hmalloc₁ := hmoves₁.not_mallocFails hmalloc
    simp only [List.length_append] at hfuel
    obtain ⟨value, b₂, hvalue, hderef, hmoves₂⟩ :=
      exists_readValue fuel hmoves₁.holds hvalid hmalloc₁
        (by simp only [List.length_append]; omega)
    rw [Wire.value_ofValue hwell] at hderef
    have hmalloc₂ := hmoves₂.not_mallocFails hmalloc₁
    rw [List.length_cons] at hlength
    obtain ⟨items₁, b₃, hstore, hstored₁, hmoves₃⟩ :=
      exists_storePair hlength hnodup hstored hslice hderef hmoves₂.holds hmalloc₂
    obtain ⟨items₂, b₄, hrest, hstored₂, hmoves₄⟩ :=
      ih (fun p hp => hpairs p (by simp [hp])) (by omega) hstored₁ hmoves₃.holds
        (hmoves₃.not_mallocFails hmalloc₂) (by simp only [List.length_append]; omega)
    refine ⟨items₂, b₄, ?_, by simpa using hstored₂,
      ((hmoves₁.trans hmoves₂).trans hmoves₃).trans hmoves₄⟩
    rw [List.length_cons, readPairs, Attempt.run_bind_ok (run_orNull_ok hread)]
    dsimp only
    rw [Attempt.run_bind_ok (run_orNull_ok hvalue)]
    dsimp only
    rw [Attempt.run_bind_ok hstore]
    exact hrest

/-- **The function for maps**, on the encoding of a map. -/
theorem exists_readMapItems {known : List (List UInt8)} {pairs : List KeyValuePair} {fuel : ℕ}
    (hpairs : ∀ pair ∈ pairs, pair.Sendable)
    (hlength : pairs.length < 2 ^ 32) (hnodup : known.Nodup)
    (hholds : Holds M b (mapEncoding pairs ++ rest)) (hmalloc : ¬b.MallocFails)
    (hfuel : (mapEncoding pairs ++ rest).length < fuel) :
    ∃ items b', (readMapItems M fuel (known.map fun key => ⟨key, none⟩)).run b =
        some (.ok (true, items), b') ∧ Stored M known pairs 0 items ∧ MovesTo M b b' rest := by
  rw [mapEncoding, List.append_assoc] at hholds hfuel
  obtain ⟨k, hspelt⟩ := Head.shortest_spelt .map (show pairs.length < 2 ^ 64 by omega)
  obtain ⟨b₁, hhead, hmoves₁⟩ := exists_readSpecificHeader .map 0 hholds hspelt
    (Head.narrow_shortest _ hlength) hmalloc
  have hfuel₁ : (pairsEncoding pairs ++ rest).length < fuel := by
    rw [List.length_append] at hfuel
    omega
  obtain ⟨items, b₂, hpairs', hstored, hmoves₂⟩ := exists_readPairs hpairs hlength hnodup
    (Stored.init known pairs.length) hmoves₁.holds (hmoves₁.not_mallocFails hmalloc) hfuel₁
  refine ⟨items, b₂, ?_, hstored, hmoves₁.trans hmoves₂⟩
  rw [readMapItems, readMapHeader, Attempt.run_bind_ok hhead]
  exact hpairs'

/-- **Map reading sorts pairs.** The encoders write the encoding of a map with fewer than
`2 ^ 32` pairs, and wherever it lies in memory, whatever follows it, the slots of known keys,
each known once, hold the last values sent for them or stay empty, the additional pairs are the
others, in order and with repetitions, the array allocated for them has room for them, and the
cursor is left behind the map. -/
theorem readsMap (known : List (List UInt8)) (hnodup : known.Nodup) (pairs : List KeyValuePair)
    (hpairs : ∀ pair ∈ pairs, pair.Sendable) (hlength : pairs.length < 2 ^ 32)
    (buffer : WriteBuffer) (hbuffer : buffer.Writable) :
    ∃ buffer', (buffer.writeMapHeader pairs.length).writeAdditional .bits64 pairs =
        some buffer' ∧ buffer.Adds (mapEncoding pairs) buffer' ∧
      ∀ M b rest, M.sizeT = .bits64 → Holds M b (mapEncoding pairs ++ rest) → ¬b.MallocFails →
        ∃ fuel items b', (readMapItems M fuel (known.map fun key => ⟨key, none⟩)).run b =
            some (.ok (true, items), b') ∧
          (items.map.map (MapItem.deref M) = known.map fun key => (key, lastValue pairs key)) ∧
          items.additional.map (AdditionalItem.deref M) = unknownPairs known pairs ∧
          (∀ allocated, items.allocated = some allocated →
            items.additional.length * M.sizeT.pairSize ≤ allocated) ∧
          b'.endPtr = b.endPtr ∧ b'.beginPtr = b.endPtr - rest.length := by
  obtain ⟨buffer', hwrite, hadds⟩ := adds_writeMap hpairs hlength hbuffer
  refine ⟨buffer', hwrite, hadds, fun M b rest hbits hholds hmalloc => ?_⟩
  obtain ⟨items, b', hrun, hstored, hmoves⟩ := exists_readMapItems hpairs hlength hnodup
    hholds hmalloc (Nat.lt_succ_self _)
  refine ⟨_, items, b', hrun, hstored.map, hstored.additional, hstored.room hbits,
    hmoves.advances.endPtr, ?_⟩
  rw [hmoves.holds.beginPtr_eq_sub, hmoves.advances.endPtr]

/-- Of the map `{"b": 1, "": 2, "a": TRUE, "b": 3}`, read for the keys `"a"` and `"b"` and for
a key that is not sent. -/
theorem readsMap_mixed : ∃ buffer',
    ((WriteBuffer.init fun _ => true).writeMapHeader 4).writeAdditional .bits64
        [⟨[0x62], .uint64 1⟩, ⟨[], .uint64 2⟩, ⟨[0x61], .true⟩, ⟨[0x62], .int64 3⟩] =
      some buffer' ∧
    ∀ M b rest, M.sizeT = .bits64 → Holds M b
      ([0xa4, 0x61, 0x62, 0x01, 0x60, 0x02, 0x61, 0x61, 0xf5, 0x61, 0x62, 0x03] ++ rest) →
        ¬b.MallocFails → ∃ fuel items b',
          (readMapItems M fuel [⟨[0x61], none⟩, ⟨[0x62], none⟩, ⟨[0x61, 0x62], none⟩]).run b =
              some (.ok (true, items), b') ∧
            items.map.map (MapItem.deref M) = [([0x61], some .true), ([0x62], some (.uint64 3)),
              ([0x61, 0x62], none)] ∧
            items.additional.map (AdditionalItem.deref M) = [([], .uint64 2)] := by
  let pairs : List KeyValuePair :=
    [⟨[0x62], .uint64 1⟩, ⟨[], .uint64 2⟩, ⟨[0x61], .true⟩, ⟨[0x62], .int64 3⟩]
  have hzero : 0 < 2 ^ 64 := by decide
  have hpairs : ∀ pair ∈ pairs, pair.Sendable := by
    simp only [pairs, List.forall_mem_cons]
    exact ⟨⟨by decide, trivial, hzero, hzero⟩, ⟨by decide, trivial, hzero, hzero⟩,
      ⟨by decide, trivial, hzero, hzero⟩, ⟨by decide, trivial, hzero, hzero⟩, by simp⟩
  obtain ⟨buffer', hwrite, -, hread⟩ := readsMap [[0x61], [0x62], [0x61, 0x62]] (by decide) pairs
    hpairs (by decide) (.init fun _ => true) WriteBuffer.writable_init
  have hbytes : mapEncoding pairs =
      [0xa4, 0x61, 0x62, 0x01, 0x60, 0x02, 0x61, 0x61, 0xf5, 0x61, 0x62, 0x03] := by decide
  rw [hbytes] at hread
  refine ⟨buffer', hwrite, fun M b rest hbits hholds hmalloc => ?_⟩
  obtain ⟨fuel, items, b', hrun, hmap, hadditional, -⟩ := hread M b rest hbits hholds hmalloc
  exact ⟨fuel, items, b', hrun, hmap, hadditional⟩

end Wpcp.Cbor
