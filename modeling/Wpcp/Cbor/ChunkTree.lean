import Mathlib.Data.List.Basic
import Wpcp.Cbor.Counts
import Wpcp.Cbor.RoundTrip

/-!
# Strings of indefinite length

A string of indefinite length is a sequence of chunks between a head and the stop code. A
chunk is a string of the same type, and that may again be one of indefinite length: the
decoder reads chunks with the function for values. So what can be sent is a tree, a
`Wpcp.Cbor.ChunkTree`, and what it means is its content, the bytes of its leaves from left to
right.

**Reading the encoding of a tree gives one string with the content of the tree**, whatever
follows it; and where a chunk at any depth is of another type, or the message ends where the
stop code should be (`Wpcp.Cbor.BrokenChunks`), the call returns `NULL`. Both are in
`Wpcp.Cbor.readsChunks`.
-/

namespace Wpcp.Cbor

variable {M : Machine} {b : ReadBuffer} {sizeT : SizeT} {ret : StringType}

/-- A chunk of a string: bytes, sent behind a head with the given low bits, or chunks in
turn. -/
inductive ChunkTree where
  | definite (firstByte : ℕ) (content : List UInt8)
  | indefinite (chunks : List ChunkTree)

namespace ChunkTree

/-- **Induction over the chunks of a string.** -/
@[elab_as_elim] theorem induction {P : ChunkTree → Prop}
    (definite : ∀ firstByte content, P (.definite firstByte content))
    (indefinite : ∀ chunks, (∀ c ∈ chunks, P c) → P (.indefinite chunks)) (c : ChunkTree) :
    P c := by
  refine @ChunkTree.rec P (fun chunks => ∀ c ∈ chunks, P c) definite indefinite ?_ ?_ c
  · simp
  · rintro c chunks hc hchunks d hd
    obtain rfl | hd := List.mem_cons.mp hd
    · exact hc
    · exact hchunks d hd

mutual

/-- The bytes a string has from its chunks, in order. -/
def content : ChunkTree → List UInt8
  | .definite _ content => content
  | .indefinite chunks => contentList chunks

/-- `Wpcp.Cbor.ChunkTree.content` for chunks one after another. -/
def contentList : List ChunkTree → List UInt8
  | [] => []
  | c :: cs => content c ++ contentList cs

end

mutual

/-- Every head spells the length of the bytes behind it, in any of the widths that can. -/
def Spelt : ChunkTree → Prop
  | .definite firstByte content =>
    firstByte ≠ indefiniteLength ∧ ∃ k, Head.Spelt ⟨.byteString, firstByte, content.length⟩ k
  | .indefinite chunks => SpeltList chunks

/-- `Wpcp.Cbor.ChunkTree.Spelt` for chunks one after another. -/
def SpeltList : List ChunkTree → Prop
  | [] => True
  | c :: cs => Spelt c ∧ SpeltList cs

end

theorem speltList_iff {cs : List ChunkTree} : SpeltList cs ↔ ∀ c ∈ cs, c.Spelt := by
  induction cs with
  | nil => simp [SpeltList]
  | cons c cs ih => simp [SpeltList, ih]

theorem contentList_eq_flatMap (cs : List ChunkTree) : contentList cs = cs.flatMap content := by
  induction cs with
  | nil => rfl
  | cons c cs ih => simp [contentList, ih]

end ChunkTree

/-- The head of a string of indefinite length. -/
def StringType.indefiniteHead (ret : StringType) : Head := ⟨ret.majorType, indefiniteLength, 0⟩

namespace ChunkTree

mutual

/-- The item that is sent for a chunk of a byte or text string. -/
def toWire (ret : StringType) : ChunkTree → Wire
  | .definite firstByte content =>
    .string ⟨ret.majorType, firstByte, content.length⟩ content
  | .indefinite chunks => .nested ret.indefiniteHead (toWireList ret chunks)

/-- `Wpcp.Cbor.ChunkTree.toWire` for chunks one after another. -/
def toWireList (ret : StringType) : List ChunkTree → List Wire
  | [] => []
  | c :: cs => toWire ret c :: toWireList ret cs

end

@[simp] theorem toWireList_eq_map (cs : List ChunkTree) :
    toWireList ret cs = cs.map (toWire ret) := by
  induction cs with
  | nil => rfl
  | cons c cs ih => simp [toWireList, ih]

/-- The bytes that are sent for a chunk. -/
def encoding (ret : StringType) (c : ChunkTree) : List UInt8 := (c.toWire ret).bytes

/-- The bytes that are sent for chunks one after another. -/
def encodings (ret : StringType) (cs : List ChunkTree) : List UInt8 :=
  Wire.bytesList (cs.map (toWire ret))

theorem encoding_indefinite (cs : List ChunkTree) :
    (indefinite cs).encoding ret =
      ret.indefiniteHead.bytes ++ (encodings ret cs ++ [stopCode]) := by
  simp [encoding, encodings, toWire, Wire.bytes, Head.stop, Head.isIndefinite,
    StringType.indefiniteHead]

end ChunkTree

/-! ### Trees that are read -/

theorem StringType.hasLength_majorType (ret : StringType) : ret.majorType.hasLength = true := by
  cases ret <;> rfl

theorem StringType.valid_indefiniteHead (ret : StringType) : ret.indefiniteHead.Valid sizeT := by
  refine ⟨⟨0, rfl, ?_⟩, fun _ => ret.hasLength_majorType,
    fun _ => Machine.count_pos (M := ⟨sizeT, fun _ => 0⟩)⟩
  show if indefiniteLength < additonalBytes1 then _ else 0 < 256 ^ 0
  rw [if_neg (by decide)]
  decide

namespace ChunkTree

theorem type_toWire (c : ChunkTree) : (c.toWire ret).head.type = ret.majorType := by
  cases c <;> rfl

/-- **The item of a tree is accepted**, as far as its contents fit the address space. -/
theorem valid_toWire {c : ChunkTree} (h : c.Spelt)
    (hlt : (c.encoding ret).length < sizeT.count) : (c.toWire ret).Valid sizeT := by
  induction c using ChunkTree.induction with
  | definite firstByte content =>
    obtain ⟨hne, k, hspelt⟩ := h
    have hlength : content.length < sizeT.count := by
      simp only [encoding, toWire, Wire.bytes, List.length_append] at hlt
      omega
    refine ⟨⟨⟨k, hspelt⟩, fun hfirst => absurd hfirst hne, fun _ => hlength⟩, ?_, ?_, rfl⟩
    · cases ret <;> rfl
    · simpa [Head.isIndefinite] using hne
  | indefinite chunks ih =>
    have h : ∀ c ∈ chunks, c.Spelt := speltList_iff.mp h
    rw [encoding_indefinite, List.length_append, List.length_append] at hlt
    have hchunks : ∀ w ∈ chunks.map (toWire ret), w.Valid sizeT := by
      intro w hw
      obtain ⟨c, hc, rfl⟩ := List.mem_map.mp hw
      have hle := Wire.length_bytes_le_bytesList hw
      exact ih c hc (h c hc) (by simp only [encoding, encodings] at hlt ⊢; omega)
    have htypes : ∀ w ∈ chunks.map (toWire ret), w.head.type = ret.majorType := by
      intro w hw
      obtain ⟨c, -, rfl⟩ := List.mem_map.mp hw
      exact c.type_toWire
    rw [toWire, toWireList_eq_map]
    refine Wire.valid_nested ret.valid_indefiniteHead hchunks ?_
    cases ret <;> exact ⟨rfl, htypes⟩

/-- **The value of the item of a tree is one string**, with the content of the tree. -/
theorem value_toWire (c : ChunkTree) :
    (c.toWire ret).value = ret.value c.content.length c.content := by
  induction c using ChunkTree.induction with
  | definite firstByte content => cases ret <;> rfl
  | indefinite chunks ih =>
    have hbytes : Wire.chunkBytes (chunks.map (toWire ret)) = contentList chunks := by
      rw [Wire.chunkBytes_eq_flatMap, contentList_eq_flatMap, List.map_map, List.flatMap_map]
      refine List.flatMap_congr fun c hc => ?_
      rw [Function.comp_apply, ih c hc]
      cases ret <;> rfl
    rw [toWire, toWireList_eq_map, content, ← hbytes]
    cases ret <;> rfl

end ChunkTree

/-! ### Trees that are not read -/

/-- The bytes behind the head of a string of indefinite length are not its chunks: after some
of them there is an item of another type, the message ends without the stop code, or the
chunks of a chunk are broken in turn. -/
inductive BrokenChunks (sizeT : SizeT) (ret : StringType) : List UInt8 → Prop
  | otherType (cs : List ChunkTree) (w : Wire) (rest : List UInt8) :
      (∀ c ∈ cs, c.Spelt) → w.Valid sizeT → w.head.type ≠ ret.majorType →
      BrokenChunks sizeT ret (ChunkTree.encodings ret cs ++ (w.bytes ++ rest))
  | noStop (cs : List ChunkTree) :
      (∀ c ∈ cs, c.Spelt) → BrokenChunks sizeT ret (ChunkTree.encodings ret cs ++ [])
  | inside (cs : List ChunkTree) (bs : List UInt8) :
      (∀ c ∈ cs, c.Spelt) → BrokenChunks sizeT ret bs →
      BrokenChunks sizeT ret (ChunkTree.encodings ret cs ++ (ret.indefiniteHead.bytes ++ bs))

theorem StringType.isString_indefiniteHead (ret : StringType) :
    ret.indefiniteHead.isString = true := by
  cases ret <;> rfl

/-- What goes wrong behind some chunks goes wrong with the string. -/
theorem scan_chunks {ws : List Wire} {tail rest : List UInt8} {fault : Fault}
    (hvalid : ∀ w ∈ ws, w.Valid sizeT) (htype : ∀ w ∈ ws, w.head.type = ret.majorType)
    (htail : ∃ n, ∀ fuel, n ≤ fuel → ∀ items,
      (scanNext (scanItem sizeT fuel) ret.indefiniteHead items).run tail =
        some (.error fault, rest)) :
    scan sizeT (ret.indefiniteHead.bytes ++ (Wire.bytesList ws ++ tail)) =
      (.error fault, rest) := by
  obtain ⟨n, htail⟩ := htail
  obtain ⟨m, hlt, hfound⟩ := Wire.exists_found fun w hw => scanItem_complete (hvalid w hw)
  have hitems : (scanItems (scanItem sizeT (ws.length + (n + m) + 1)) (ws.length + (n + m + 1))
      ret.indefiniteHead).run (Wire.bytesList ws ++ tail) = some (.error fault, rest) := by
    refine scanItems_lead (fun w hw => (hfound w hw).mono (by omega)) hvalid (fun _ => htype)
      (fun hdefinite => Bool.noConfusion hdefinite) ?_
    rw [Attempt.loop_succ, Attempt.run_bind_error (htail _ (by omega) _)]
  have hrun : (scanItem sizeT (ws.length + (n + m) + 1 + 1)).run
      (ret.indefiniteHead.bytes ++ (Wire.bytesList ws ++ tail)) = some (.error fault, rest) := by
    rw [scanItem, Attempt.run_bind_ok (scanHead_complete ret.valid_indefiniteHead)]
    cases ret <;> exact Attempt.run_bind_error hitems
  exact scan_eq_of_run hrun

/-- Where no stop code is, what is wrong with the next item is wrong with the round. -/
theorem run_scanNext_error {item : Scan Wire} {items : List Wire} {bs rest : List UInt8}
    {fault : Fault} (hstop : ∀ tail, bs ≠ stopCode :: tail)
    (hitem : item.run bs = some (.error fault, rest)) :
    (scanNext item ret.indefiniteHead items).run bs = some (.error fault, rest) := by
  have hnone : (scanStop ret.indefiniteHead items).run bs = some (.ok false, bs) :=
    run_scanStop_of_item (fun hdefinite => Bool.noConfusion hdefinite) hstop
  rw [scanNext, Attempt.run_bind_ok hnone, if_neg (by simp), Attempt.run_bind_error hitem]

/-- **Broken chunks are found**: the scan says that they are malformed, or that one byte is
missing. -/
theorem scan_brokenChunks {bs : List UInt8} (h : BrokenChunks sizeT ret bs)
    (hlt : bs.length < sizeT.count) : ∃ fault rest,
      scan sizeT (ret.indefiniteHead.bytes ++ bs) = (.error fault, rest) ∧
        (fault = .malformed ∨ fault = .short 1) := by
  have hchunks : ∀ cs : List ChunkTree, (∀ c ∈ cs, c.Spelt) → ∀ tail : List UInt8,
      (ChunkTree.encodings ret cs ++ tail).length < sizeT.count →
        (∀ w ∈ cs.map (ChunkTree.toWire ret), w.Valid sizeT) ∧
          ∀ w ∈ cs.map (ChunkTree.toWire ret), w.head.type = ret.majorType := by
    intro cs hcs tail hlength
    constructor
    · intro w hw
      have hle := Wire.length_bytes_le_bytesList hw
      obtain ⟨c, hc, rfl⟩ := List.mem_map.mp hw
      refine ChunkTree.valid_toWire (hcs c hc) ?_
      rw [List.length_append] at hlength
      simp only [ChunkTree.encoding, ChunkTree.encodings] at hlength ⊢
      omega
    · intro w hw
      obtain ⟨c, -, rfl⟩ := List.mem_map.mp hw
      exact c.type_toWire
  induction h with
  | otherType cs w rest hcs hw hne =>
    obtain ⟨hvalid, htype⟩ := hchunks cs hcs _ hlt
    obtain ⟨n, hfound⟩ := scanItem_complete hw
    refine ⟨.malformed, rest, scan_chunks hvalid htype ⟨n, fun fuel hle items => ?_⟩, Or.inl rfl⟩
    obtain ⟨b, tail, hb, hnotStop⟩ := hw.bytes_ne_stop
    have hnone : (scanStop ret.indefiniteHead items).run (w.bytes ++ rest) =
        some (.ok false, w.bytes ++ rest) := by
      refine run_scanStop_of_item (fun hdefinite => Bool.noConfusion hdefinite) fun t ht => ?_
      rw [hb, List.cons_append, List.cons.injEq] at ht
      exact hnotStop ht.1
    rw [scanNext, Attempt.run_bind_ok hnone, if_neg (by simp),
      Attempt.run_bind_ok (hfound.mono hle rest), if_pos ⟨ret.isString_indefiniteHead, hne⟩]
    rfl
  | noStop cs hcs =>
    obtain ⟨hvalid, htype⟩ := hchunks cs hcs _ hlt
    refine ⟨.short 1, [], scan_chunks hvalid htype ⟨1, fun fuel hle items => ?_⟩, Or.inr rfl⟩
    obtain ⟨fuel, rfl⟩ := Nat.exists_eq_add_of_le' hle
    exact run_scanNext_error (fun t ht => by cases ht) rfl
  | inside cs bs hcs _ ih =>
    obtain ⟨hvalid, htype⟩ := hchunks cs hcs _ hlt
    rw [List.length_append, List.length_append] at hlt
    obtain ⟨fault, rest, hscan, hfault⟩ := ih (by omega)
    refine ⟨fault, rest, scan_chunks hvalid htype
      ⟨(ret.indefiniteHead.bytes ++ bs).length + 1, fun fuel hle items => ?_⟩, hfault⟩
    refine run_scanNext_error (fun t ht => ?_) ?_
    · cases ret <;> exact absurd (List.cons.inj ht).1 (by decide)
    · rw [run_scanItem (by omega), hscan]

theorem exists_map_eq {α β : Type} {p : α → Prop} {f : α → β} {bs : List β}
    (h : ∀ b ∈ bs, ∃ a, p a ∧ f a = b) : ∃ as : List α, (∀ a ∈ as, p a) ∧ as.map f = bs := by
  induction bs with
  | nil => exact ⟨[], by simp, rfl⟩
  | cons b bs ih =>
    obtain ⟨a, ha, rfl⟩ := h b (by simp)
    obtain ⟨as, has, rfl⟩ := ih fun c hc => h c (by simp [hc])
    exact ⟨a :: as, List.forall_mem_cons.mpr ⟨ha, has⟩, rfl⟩

/-- An accepted item of a string type is that of a tree. -/
theorem exists_chunkTree {w : Wire} (h : w.Valid sizeT) (htype : w.head.type = ret.majorType) :
    ∃ c : ChunkTree, c.Spelt ∧ c.toWire ret = w := by
  induction w using Wire.induction with
  | leaf head =>
    obtain ⟨-, hlength, -⟩ := h
    have htype : head.type = ret.majorType := htype
    rw [htype, ret.hasLength_majorType] at hlength
    exact Bool.noConfusion hlength
  | string head content =>
    obtain ⟨⟨⟨k, hspelt⟩, -⟩, -, hdefinite, hlength⟩ := h
    obtain ⟨type, firstByte, value⟩ := head
    obtain rfl : type = ret.majorType := htype
    obtain rfl : content.length = value := hlength
    exact ⟨.definite firstByte content,
      ⟨by simpa [Head.isIndefinite] using hdefinite, k, hspelt⟩, rfl⟩
  | nested head items ih =>
    obtain ⟨⟨⟨k, hk, hvalue⟩, -⟩, hfits, hitems⟩ := h
    rw [Wire.validList_iff] at hitems
    obtain ⟨type, firstByte, value⟩ := head
    obtain rfl : type = ret.majorType := htype
    obtain ⟨hindefinite, htypes⟩ : (Head.mk ret.majorType firstByte value).isIndefinite = true ∧
        ∀ w ∈ items, w.head.type = ret.majorType := by
      cases ret <;> exact hfits
    obtain rfl : firstByte = indefiniteLength := by simpa [Head.isIndefinite] using hindefinite
    -- no byte follows the first one
    obtain rfl : 0 = k := Option.some.inj hk
    obtain rfl : value = 0 := by
      have hvalue : value < 256 ^ 0 := by
        rw [if_neg] at hvalue
        · exact hvalue
        · show ¬indefiniteLength < additonalBytes1
          decide
      simpa using hvalue
    have hchunks : ∀ w ∈ items, ∃ c : ChunkTree, c.Spelt ∧ c.toWire ret = w :=
      fun w hw => ih w hw (hitems w hw) (htypes w hw)
    obtain ⟨cs, hcs, rfl⟩ := exists_map_eq hchunks
    refine ⟨.indefinite cs, ChunkTree.speltList_iff.mpr hcs, ?_⟩
    rw [ChunkTree.toWire, ChunkTree.toWireList_eq_map]
    rfl

/-! ### The whole of reading -/

attribute [local simp] overshoot

/-- What is read as a string of a type and a length is a node of that type. -/
theorem StringType.of_deref {v : Value StringData} {length : ℕ} {content : List UInt8}
    (h : v.deref (StringData.bytes M) = ret.value length content) :
    ∃ data, v = ret.value length data ∧ StringData.bytes M length data = content := by
  cases ret <;> cases v <;> simp only [Value.deref, StringType.value, reduceCtorEq,
    Value.byteString.injEq, Value.textString.injEq] at h
  · obtain ⟨rfl, hdata⟩ := h
    exact ⟨_, rfl, hdata⟩
  · obtain ⟨rfl, hdata⟩ := h
    exact ⟨_, rfl, hdata⟩

/-- **Strings of indefinite length mean the concatenation of their chunks.** The encoding of
a tree, whatever follows it, is read as one string of the type, with the bytes of the leaves
in order, and the cursor is left behind it. Where the chunks are broken at any depth, by an
item of another type or by a missing stop code, `NULL` is returned, whether or not allocations
succeed. Whatever else is there instead of a tree, `NULL` is returned unless the bytes missing
reach the top of the address space. -/
theorem readsChunks (M : Machine) (b : ReadBuffer) (ret : StringType) :
    (∀ (c : ChunkTree) (rest : List UInt8), c.Spelt → Holds M b (c.encoding ret ++ rest) →
      ¬b.MallocFails → ∃ fuel data b',
        (readWpcpValue M fuel).run b = some (.ok (ret.value c.content.length data), b') ∧
          data.bytes M c.content.length = c.content ∧ b'.endPtr = b.endPtr ∧
            b'.beginPtr = b.endPtr - rest.length) ∧
    (∀ bs, BrokenChunks M.sizeT ret bs → Holds M b (ret.indefiniteHead.bytes ++ bs) →
      b.endPtr + 1 < M.sizeT.count →
        ∃ fuel b', (readWpcpValue M fuel).run b = some (.error .null, b')) ∧
    ∀ bs, (∀ c : ChunkTree, c.Spelt → ∀ rest,
          ret.indefiniteHead.bytes ++ bs ≠ c.encoding ret ++ rest) →
      Holds M b (ret.indefiniteHead.bytes ++ bs) →
      b.endPtr + overshoot M.sizeT (ret.indefiniteHead.bytes ++ bs) < M.sizeT.count →
        ∃ fuel b', (readWpcpValue M fuel).run b = some (.error .null, b') := by
  refine ⟨?_, ?_, ?_⟩
  · intro c rest hspelt hholds hmalloc
    have hlt : (c.encoding ret).length < M.sizeT.count := by
      have hend := hholds.end_eq
      have hend_lt := hholds.end_lt
      rw [List.length_append] at hend
      omega
    have hscan : scan M.sizeT (c.encoding ret ++ rest) = (.ok (c.toWire ret), rest) :=
      scan_eq_ok_iff.mpr ⟨ChunkTree.valid_toWire hspelt hlt, rfl⟩
    obtain ⟨v, b', hrun, hderef, hend, hholds'⟩ := exists_read hholds hmalloc hscan
    rw [ChunkTree.value_toWire] at hderef
    obtain ⟨data, rfl, hdata⟩ := StringType.of_deref hderef
    refine ⟨_, data, b', hrun, hdata, hend, ?_⟩
    rw [hholds'.beginPtr_eq_sub, hend]
  · intro bs hbroken hholds htop
    have hlt : bs.length < M.sizeT.count := by
      have hend := hholds.end_eq
      rw [List.length_append] at hend
      omega
    obtain ⟨fault, rest, hscan, hfault⟩ := scan_brokenChunks hbroken hlt
    refine exists_null hholds ?_ fun w rest' hok => ?_
    · obtain rfl | rfl := hfault <;> simp only [overshoot, hscan] <;> omega
    · rw [hscan, Prod.mk.injEq] at hok
      exact nomatch hok.1
  · intro bs hnone hholds htop
    refine exists_null hholds htop fun w rest hok => ?_
    obtain ⟨hvalid, hbytes⟩ := scan_eq_ok_iff.mp hok
    -- the item would be a string of the type, so that of a tree
    have hhead := hvalid.head_eq ret.valid_indefiniteHead hbytes
    have htype : w.head.type = ret.majorType := by rw [hhead]; rfl
    obtain ⟨c, hspelt, rfl⟩ := exists_chunkTree hvalid htype
    exact hnone c hspelt rest hbytes

/-- A machine with the byte string `h'0102'`, sent as an empty chunk and a chunk of two
chunks, the second with its length in a byte of its own. -/
def chunkMachine : Machine :=
  .withMessage .bits64 1000 [0x5f, 0x40, 0x5f, 0x41, 0x01, 0x58, 0x01, 0x02, 0xff, 0xff]

/-- The string is read from it; cut before the two stop codes, `NULL` is returned. -/
theorem readsChunks_nested :
    (∃ fuel data b', (readWpcpValue chunkMachine fuel).run ⟨1000, 1010, fun _ => true, false⟩ =
        some (.ok (.byteString 2 data), b') ∧ data.bytes chunkMachine 2 = [0x01, 0x02] ∧
          b'.endPtr = 1010 ∧ b'.beginPtr = 1010) ∧
      ∃ fuel b', (readWpcpValue chunkMachine fuel).run ⟨1000, 1008, fun _ => true, false⟩ =
        some (.error .null, b') := by
  let inner : List ChunkTree := [.definite 1 [0x01], .definite 24 [0x02]]
  have hinner : ∀ c ∈ inner, c.Spelt := List.forall_mem_cons.mpr
    ⟨⟨by decide, 0, rfl, rfl⟩, List.forall_mem_cons.mpr ⟨⟨by decide, 1, rfl, by decide⟩, by simp⟩⟩
  have hempty : (ChunkTree.definite 0 []).Spelt := ⟨by decide, 0, rfl, rfl⟩
  have hspelt : (ChunkTree.indefinite [.definite 0 [], .indefinite inner]).Spelt :=
    ⟨hempty, ChunkTree.speltList_iff.mpr hinner, trivial⟩
  constructor
  · refine (readsChunks chunkMachine ⟨1000, 1010, fun _ => true, false⟩ .byteString).1 _ []
      hspelt ?_ ?_
    · exact holds_withMessage (by decide) rfl (by decide)
    · rintro ⟨n, hn⟩
      exact Bool.false_ne_true hn.symm
  · refine (readsChunks chunkMachine ⟨1000, 1008, fun _ => true, false⟩ .byteString).2.1
      [0x40, 0x5f, 0x41, 0x01, 0x58, 0x01, 0x02] ?_ ?_ (by decide)
    · exact .inside [.definite 0 []] [0x41, 0x01, 0x58, 0x01, 0x02] (by simpa using hempty)
        (.noStop inner hinner)
    · have hslice : chunkMachine.slice 1000 8 =
          [0x5f, 0x40, 0x5f, 0x41, 0x01, 0x58, 0x01, 0x02] := by decide
      have hholds : Holds chunkMachine ⟨1000, 1008, fun _ => true, false⟩
          (chunkMachine.slice 1000 8) := holds_slice (by decide) (by decide) (by decide)
      rw [hslice] at hholds
      exact hholds

end Wpcp.Cbor
