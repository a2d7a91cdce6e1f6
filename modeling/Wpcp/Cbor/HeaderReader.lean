import Wpcp.Cbor.MapReader
import Wpcp.Cbor.FloatNodes
import Wpcp.Cbor.RoundTrip

/-!
# Headers and strings of 32 bits

The functions that take a message apart read heads with arguments of up to four bytes. On
such heads they do what the reader of values does: `wpcp_cbor_read_buffer_read_header_and_uint32`
succeeds exactly where `Wpcp.Cbor.readHead` reads a head with an argument of at most four bytes
(`Wpcp.Cbor.run_readHeaderAndUint32_iff`). So what is known of the one is known of the other: a
head that is there is read (`Wpcp.Cbor.exists_readHeader`).
-/

namespace Wpcp.Cbor

variable {M : Machine} {b b' : ReadBuffer} {bs rest : List UInt8}

/-! ### One reader of heads and the other -/

/-- The argument of the head has at most four bytes. -/
def Head.Narrow (head : Head) : Prop := head.firstByte ≤ additonalBytes4

/-- **The two readers of heads agree** on heads with at most four bytes of argument. -/
theorem run_readHeaderAndUint32_iff {type : MajorType} {value : ℕ} :
    (readHeaderAndUint32 M).run b = some (.ok (type, value), b') ↔
      ∃ head : Head, (readHead M).run b = some (.ok head, b') ∧ head.Narrow ∧
        head.type = type ∧ head.value = value := by
  obtain ⟨h₁, h₂, h₄, h₈, h₃₁⟩ := additonalBytes_eq
  rcases hfirst : (readUint8 M).run b with _ | ⟨e | first, b₁⟩
  · simp [readHeaderAndUint32, readHead, Attempt.run_bind_none hfirst]
  · simp [readHeaderAndUint32, readHead, Attempt.run_bind_error hfirst]
  rw [readHeaderAndUint32, readHead, Attempt.run_bind_ok hfirst, Attempt.run_bind_ok hfirst]
  have hmap : ∀ {k : ℕ} (type' : MajorType) (firstByte : ℕ), firstByte ≤ additonalBytes4 →
      ((readUint M k >>= fun temp => pure (type', temp)).run b₁ =
          some (.ok (type, value), b') ↔
        ∃ head : Head, (readUint M k >>= fun temp => pure (Head.mk type' firstByte temp)).run b₁ =
          some (.ok head, b') ∧ head.Narrow ∧ head.type = type ∧ head.value = value) := by
    intro k type' firstByte hnarrow
    rcases hread : (readUint M k).run b₁ with _ | ⟨e | n, b₂⟩
    · simp [Attempt.run_bind_none hread]
    · simp [Attempt.run_bind_error hread]
    · rw [Attempt.run_bind_ok hread, Attempt.run_bind_ok hread]
      constructor
      · intro h
        obtain ⟨⟨rfl, rfl⟩, rfl⟩ : (type' = type ∧ n = value) ∧ b₂ = b' := by simpa using h
        exact ⟨_, rfl, hnarrow, rfl, rfl⟩
      · rintro ⟨head, h, -, rfl, rfl⟩
        obtain ⟨rfl, rfl⟩ : Head.mk type' firstByte n = head ∧ b₂ = b' := by simpa using h
        rfl
  dsimp only
  generalize headerType first = type'
  generalize headerInfo first = firstByte
  rcases Nat.lt_or_ge additonalBytes4 firstByte with hwide | hnarrow
  · -- an argument of eight bytes, an indefinite length, or no head at all
    rw [if_neg (by omega), if_neg (by omega), if_neg (by omega), if_neg (by omega)]
    refine iff_of_false (by simp) ?_
    rintro ⟨head, h, hnarrow, -⟩
    have hsame := (spelt_of_readArgument h).2.1
    have hnarrow : head.firstByte ≤ additonalBytes4 := hnarrow
    omega
  unfold readArgument
  split_ifs with h0 hone htwo hfour height hindefinite
  · constructor
    · intro h
      obtain ⟨⟨rfl, rfl⟩, rfl⟩ : (type' = type ∧ firstByte = value) ∧ b₁ = b' := by simpa using h
      exact ⟨_, rfl, hnarrow, rfl, rfl⟩
    · rintro ⟨head, h, -, rfl, rfl⟩
      obtain ⟨rfl, rfl⟩ : Head.mk type' firstByte firstByte = head ∧ b₁ = b' := by simpa using h
      rfl
  · exact hmap type' firstByte hnarrow
  · exact hmap type' firstByte hnarrow
  · exact hmap type' firstByte hnarrow
  all_goals omega

/-! ### Heads that are there -/

/-- A buffer that has moved on from one and holds what is left. -/
structure MovesTo (M : Machine) (b b' : ReadBuffer) (rest : List UInt8) : Prop where
  advances : Advances b b'
  holds : Holds M b' rest

theorem MovesTo.trans {b'' : ReadBuffer} {rest' : List UInt8} (h : MovesTo M b b' rest)
    (h' : MovesTo M b' b'' rest') : MovesTo M b b'' rest' :=
  ⟨h.advances.trans h'.advances, h'.holds⟩

theorem MovesTo.not_mallocFails (h : MovesTo M b b' rest) (hmalloc : ¬b.MallocFails) :
    ¬b'.MallocFails := fun hfails => hmalloc (h.advances.malloc hfails)

/-- **A head that is there is read.** -/
theorem exists_readHead {head : Head} (hholds : Holds M b (head.bytes ++ rest))
    (hvalid : head.Valid M.sizeT) (hmalloc : ¬b.MallocFails) :
    ∃ b', (readHead M).run b = some (.ok head, b') ∧ MovesTo M b b' rest := by
  have hfollows := readHead_follows hholds (scanHead_complete hvalid)
  generalize (readHead M).run b = o at hfollows
  cases hfollows with
  | ok hhead hadv hholds' =>
    obtain rfl := hhead
    exact ⟨_, rfl, hadv, hholds'⟩
  | failed hfails _ => exact absurd hfails hmalloc

theorem Head.narrow_shortest (type : MajorType) {value : ℕ} (h : value < 2 ^ 32) :
    (Head.shortest type value).Narrow := by
  obtain ⟨h₁, h₂, h₄, h₈, h₃₁⟩ := additonalBytes_eq
  unfold Head.Narrow Head.shortest shortestFirstByte
  split_ifs <;> simp only <;> omega

theorem Head.valid_of_narrow {sizeT : SizeT} {head : Head} {k : ℕ} (hspelt : head.Spelt k)
    (hnarrow : head.Narrow) : head.Valid sizeT ∧ head.value < 2 ^ 32 := by
  obtain ⟨h₁, h₂, h₄, h₈, h₃₁⟩ := additonalBytes_eq
  have hnarrow : head.firstByte ≤ additonalBytes4 := hnarrow
  have hcount := sizeT.le_count
  have hlt : head.value < 2 ^ 32 := by
    obtain ⟨hk, hvalue⟩ := hspelt
    simp only [argumentBytes] at hk
    split_ifs at hk hvalue with h0 hone htwo hfour
    · omega
    · obtain rfl := Option.some.inj hk
      omega
    · obtain rfl := Option.some.inj hk
      omega
    · obtain rfl := Option.some.inj hk
      exact hvalue
    · omega
    · omega
  exact ⟨⟨⟨k, hspelt⟩, fun hfirst => by omega, fun _ => by omega⟩, hlt⟩

/-- A narrow head that is there is read by the functions for headers. -/
theorem exists_readHeader {head : Head} {k : ℕ} (hholds : Holds M b (head.bytes ++ rest))
    (hspelt : head.Spelt k) (hnarrow : head.Narrow) (hmalloc : ¬b.MallocFails) :
    ∃ b', (readHeaderAndUint32 M).run b = some (.ok (head.type, head.value), b') ∧
      MovesTo M b b' rest := by
  obtain ⟨b', hrun, hmoves⟩ :=
    exists_readHead hholds (Head.valid_of_narrow hspelt hnarrow).1 hmalloc
  exact ⟨b', run_readHeaderAndUint32_iff.mpr ⟨head, hrun, hnarrow, rfl, rfl⟩, hmoves⟩

theorem run_orNull_ok {α : Type} {m : Reading α} {a : α} (h : m.run b = some (.ok a, b')) :
    (orNull m).run b = some (.ok (some a), b') := by
  have h : m b = some (.ok a, b') := h
  show orNull m b = _
  rw [orNull, h]

theorem exists_readSpecificHeader {head : Head} {k : ℕ} (type : MajorType) (value : ℕ)
    (hholds : Holds M b (head.bytes ++ rest)) (hspelt : head.Spelt k) (hnarrow : head.Narrow)
    (hmalloc : ¬b.MallocFails) :
    ∃ b', (readSpecificHeaderAndUint32 M type value).run b =
        some (.ok (decide (head.type = type), head.value), b') ∧ MovesTo M b b' rest := by
  obtain ⟨b', hrun, hmoves⟩ := exists_readHeader hholds hspelt hnarrow hmalloc
  refine ⟨b', ?_, hmoves⟩
  rw [readSpecificHeaderAndUint32, Attempt.run_bind_ok (run_orNull_ok hrun)]
  rfl

/-- Bytes that are there are passed over. -/
theorem exists_readRaw {content : List UInt8} (hholds : Holds M b (content ++ rest))
    (hmalloc : ¬b.MallocFails) :
    ∃ b', (readRaw M content.length).run b = some (.ok b.beginPtr, b') ∧
      M.slice b.beginPtr content.length = content ∧ MovesTo M b b' rest := by
  have hlt : content.length < M.sizeT.count := by
    have hend := hholds.end_eq
    have hend_lt := hholds.end_lt
    rw [List.length_append] at hend
    omega
  have hfollows := readRaw_follows hlt hholds (run_scanBytes_append rfl)
  generalize (readRaw M content.length).run b = o at hfollows
  cases hfollows with
  | ok hread hadv hholds' =>
    obtain ⟨-, rfl, hslice, -⟩ := hread
    exact ⟨_, rfl, hslice, hadv, hholds'⟩
  | failed hfails _ => exact absurd hfails hmalloc

/-- A text that is there is read. -/
theorem exists_readTextString {key : List UInt8}
    (hholds : Holds M b ((Head.shortest .textString key.length).bytes ++ (key ++ rest)))
    (hlength : key.length < 2 ^ 32) (hmalloc : ¬b.MallocFails) :
    ∃ address b', (readTextString M).run b = some (.ok (address, key.length), b') ∧
      M.slice address key.length = key ∧ MovesTo M b b' rest := by
  obtain ⟨k, hspelt⟩ := Head.shortest_spelt .textString (show key.length < 2 ^ 64 by omega)
  obtain ⟨b₁, hhead, hmoves₁⟩ := exists_readSpecificHeader .textString 0 hholds hspelt
    (Head.narrow_shortest _ hlength) hmalloc
  obtain ⟨b₂, hraw, hslice, hmoves₂⟩ :=
    exists_readRaw hmoves₁.holds (hmoves₁.not_mallocFails hmalloc)
  refine ⟨b₁.beginPtr, b₂, ?_, hslice, hmoves₁.trans hmoves₂⟩
  rw [readTextString, Attempt.run_bind_ok hhead]
  exact Attempt.run_bind_ok hraw

/-- An item that is there is read. -/
theorem exists_readValue {w : Wire} (fuel : ℕ) (hholds : Holds M b (w.bytes ++ rest))
    (hvalid : w.Valid M.sizeT) (hmalloc : ¬b.MallocFails)
    (hfuel : (w.bytes ++ rest).length < fuel) :
    ∃ v b', (readWpcpValue M fuel).run b = some (.ok v, b') ∧
      v.deref (StringData.bytes M) = w.value ∧ MovesTo M b b' rest := by
  have hscan : scan M.sizeT (w.bytes ++ rest) = (.ok w, rest) := scan_eq_ok_iff.mpr ⟨hvalid, rfl⟩
  have hfollows := readWpcpValue_follows_scan hholds hfuel
  generalize (readWpcpValue M fuel).run b = o at hfollows
  rw [hscan] at hfollows
  cases hfollows with
  | ok hreads hadv hholds' => exact ⟨_, _, rfl, hreads.deref, hadv, hholds'⟩
  | failed hfails _ => exact absurd hfails hmalloc

end Wpcp.Cbor
