import Mathlib.Data.List.Forall2
import Wpcp.Cbor.Writer

/-!
# The chunks of a buffer in memory

`Wpcp.Cbor.WriteBuffer.write` takes space and fills it in one go. In the source these are two
steps: `wpcp_cbor_write_buffer_ensure_space` counts the bytes as used and returns the address,
and its caller stores the bytes there. Here a chunk has all the cells that have been allocated
for it, and a cell to which nothing has been stored holds `none`.

Between the two steps the flattened buffer has a gap at its end, of the size that was asked for;
the store fills exactly the gap (`Wpcp.Cbor.Chunk.Holds.fill`). So **a buffer of chunks is the
string of all bytes written to it** (`Wpcp.Cbor.ChunkBuffer.refinesAppend`), and it does what
`Wpcp.Cbor.WriteBuffer` does (`Wpcp.Cbor.ChunkBuffer.Simulates.write`).
-/

namespace Wpcp.Cbor

/-! ### Taking and filling space -/

/-- `struct wpcp_cbor_write_buffer_item_t`, with the cells of `data`. -/
structure Chunk where
  allocatedSize : ℕ
  usedSize : ℕ
  cells : List (Option UInt8)

/-- `struct wpcp_cbor_write_buffer_t`, with the chunks from `first_item` on. -/
structure ChunkBuffer where
  usedSize : ℕ
  /-- The chunks without the last. -/
  full : List Chunk
  /-- `last_item`, which is the null pointer after an allocation has failed. -/
  lastItem : Option Chunk
  /-- Which of the coming allocations succeed. -/
  malloc : ℕ → Bool

/-- Bytes are stored in the cells from an offset on. -/
def Chunk.fill (chunk : Chunk) (offset : ℕ) (data : List UInt8) : Chunk :=
  { chunk with
    cells := chunk.cells.take offset ++ data.map some ++ chunk.cells.drop (offset + data.length) }

namespace ChunkBuffer

/-- All chunks. -/
def chunks (buffer : ChunkBuffer) : List Chunk := buffer.full ++ buffer.lastItem.toList

/-- `wpcp_cbor_write_buffer_init` -/
def init (malloc : ℕ → Bool) : ChunkBuffer where
  usedSize := 0
  full := []
  lastItem := some ⟨32, 0, List.replicate 32 none⟩
  malloc := malloc

/-- `wpcp_cbor_write_buffer_ensure_space`: the offset in the last chunk, or the null pointer. -/
def ensureSpace (buffer : ChunkBuffer) (size : ℕ) : Option ℕ × ChunkBuffer :=
  match buffer.lastItem with
  | some lastItem =>
    let freeSpace := lastItem.allocatedSize - lastItem.usedSize
    let buffer := { buffer with usedSize := buffer.usedSize + size }
    if size > freeSpace then
      let allocatedSize := if size > 256 then size else 256
      let newItem : Option Chunk :=
        if buffer.malloc 0 then some ⟨allocatedSize, size, List.replicate allocatedSize none⟩
        else none
      (newItem.map fun _ => 0, { buffer with
        full := buffer.full ++ [lastItem]
        lastItem := newItem
        malloc := fun n => buffer.malloc (n + 1) })
    else
      (some lastItem.usedSize, { buffer with
        lastItem := some { lastItem with usedSize := lastItem.usedSize + size } })
  | none => (none, buffer)

/-- The caller of `wpcp_cbor_write_buffer_ensure_space` stores its bytes, if it got an address. -/
def write (buffer : ChunkBuffer) (data : List UInt8) : ChunkBuffer :=
  match buffer.ensureSpace data.length with
  | (some offset, buffer) =>
    { buffer with lastItem := buffer.lastItem.map fun chunk => chunk.fill offset data }
  | (none, buffer) => buffer

/-- One write after another. -/
def writeAll (buffer : ChunkBuffer) (parts : List (List UInt8)) : ChunkBuffer :=
  parts.foldl write buffer

/-- `wpcp_cbor_write_write_buffer`: what is copied, or nothing and the null pointer. -/
def writeWriteBuffer (buffer : ChunkBuffer) : Option (List (Option UInt8)) :=
  match buffer.lastItem with
  | none => none
  | some _ => some (buffer.chunks.flatMap fun chunk => chunk.cells.take chunk.usedSize)

end ChunkBuffer

/-! ### What a chunk holds -/

/-- The used cells of a chunk hold what has been written to an item, and there are as many cells
as have been allocated. -/
structure Chunk.Holds (chunk : Chunk) (item : WriteBufferItem) : Prop where
  allocatedSize : chunk.allocatedSize = item.allocatedSize
  usedSize : chunk.usedSize = item.usedSize
  length : item.data.length = item.usedSize
  fits : item.usedSize ≤ item.allocatedSize
  room : chunk.cells.length = chunk.allocatedSize
  cells : chunk.cells.take chunk.usedSize = item.data.map some

section Fill

variable {chunk : Chunk} {item : WriteBufferItem} {data : List UInt8}

/-- **The space that was taken is filled**: what was there before stays, and the bytes follow it. -/
theorem Chunk.take_fill {offset : ℕ} (hoffset : offset ≤ chunk.cells.length) :
    (chunk.fill offset data).cells.take (offset + data.length) =
      chunk.cells.take offset ++ data.map some := by
  have hlength : (chunk.cells.take offset ++ data.map some).length = offset + data.length := by
    rw [List.length_append, List.length_take, List.length_map, Nat.min_eq_left hoffset]
  rw [Chunk.fill, ← hlength, List.take_left]

/-- Filling does not change how many cells there are. -/
theorem Chunk.length_fill {offset : ℕ} (hoffset : offset + data.length ≤ chunk.cells.length) :
    (chunk.fill offset data).cells.length = chunk.cells.length := by
  rw [Chunk.fill, List.length_append, List.length_append, List.length_take, List.length_drop,
    List.length_map]
  omega

/-- A write that fits into the chunk. -/
theorem Chunk.Holds.fill (h : chunk.Holds item)
    (hfits : data.length ≤ item.allocatedSize - item.usedSize) :
    (Chunk.fill { chunk with usedSize := chunk.usedSize + data.length } chunk.usedSize data).Holds
      { item with usedSize := item.usedSize + data.length, data := item.data ++ data } := by
  have hle := h.fits
  have hspace : chunk.usedSize + data.length ≤ chunk.cells.length := by
    rw [h.room, h.allocatedSize, h.usedSize]
    omega
  refine ⟨h.allocatedSize, congrArg (· + data.length) h.usedSize, ?_, ?_, ?_, ?_⟩
  · rw [List.length_append, h.length]
  · show item.usedSize + data.length ≤ item.allocatedSize
    omega
  · exact (Chunk.length_fill hspace).trans h.room
  · rw [List.map_append, ← h.cells]
    exact Chunk.take_fill (Nat.le_of_add_right_le hspace)

/-- A write to a new chunk. -/
theorem Chunk.holds_new {allocated : ℕ} (hfits : data.length ≤ allocated) :
    (Chunk.fill ⟨allocated, data.length, List.replicate allocated none⟩ 0 data).Holds
      ⟨allocated, data.length, data⟩ := by
  have hspace : 0 + data.length ≤ (List.replicate allocated (none : Option UInt8)).length := by
    rw [List.length_replicate]
    omega
  refine ⟨rfl, rfl, rfl, hfits, ?_, ?_⟩
  · exact (Chunk.length_fill hspace).trans List.length_replicate
  · have htake := @Chunk.take_fill ⟨allocated, data.length, List.replicate allocated none⟩ data 0
      (Nat.zero_le _)
    rwa [Nat.zero_add] at htake

end Fill

/-! ### Chunks and items -/

namespace ChunkBuffer

/-- **A buffer of chunks does what a buffer of items does.** -/
structure Simulates (buffer : ChunkBuffer) (buffer' : WriteBuffer) : Prop where
  usedSize : buffer.usedSize = buffer'.usedSize
  full : List.Forall₂ Chunk.Holds buffer.full buffer'.items
  lastItem : buffer.lastItem = none ∧ buffer'.lastItem = none ∨
    ∃ chunk item, buffer.lastItem = some chunk ∧ buffer'.lastItem = some item ∧ chunk.Holds item
  malloc : buffer.malloc = buffer'.malloc

variable {buffer : ChunkBuffer} {buffer' : WriteBuffer}

theorem simulates_init (malloc : ℕ → Bool) : (init malloc).Simulates (.init malloc) :=
  ⟨rfl, .nil, Or.inr ⟨_, _, rfl, rfl, rfl, rfl, rfl, Nat.zero_le _, rfl, rfl⟩, rfl⟩

/-- **A write to one is a write to the other.** -/
theorem Simulates.write (h : buffer.Simulates buffer') (data : List UInt8) :
    (buffer.write data).Simulates (buffer'.write data) := by
  obtain ⟨hused, hfull, hlast, hmalloc⟩ := h
  rcases buffer with ⟨used, full, last, malloc⟩
  rcases buffer' with ⟨used', items, last', malloc'⟩
  obtain rfl : used = used' := hused
  obtain rfl : malloc = malloc' := hmalloc
  rcases hlast with ⟨hlast, hlast'⟩ | ⟨chunk, item, hlast, hlast', hholds⟩
  · obtain rfl : last = none := hlast
    obtain rfl : last' = none := hlast'
    exact ⟨rfl, hfull, Or.inl ⟨rfl, rfl⟩, rfl⟩
  obtain rfl : last = some chunk := hlast
  obtain rfl : last' = some item := hlast'
  have hfree : chunk.allocatedSize - chunk.usedSize = item.allocatedSize - item.usedSize := by
    rw [hholds.allocatedSize, hholds.usedSize]
  by_cases hgrows : data.length > item.allocatedSize - item.usedSize
  · -- a new chunk is needed, and there is memory for it or not
    have hfull' : List.Forall₂ Chunk.Holds (full ++ [chunk]) (items ++ [item]) :=
      List.rel_append hfull (.cons hholds .nil)
    have hfits : data.length ≤ if data.length > 256 then data.length else 256 := by
      split <;> omega
    by_cases hmalloc : malloc 0 = true
    · simp only [ChunkBuffer.write, ensureSpace, WriteBuffer.write, hfree, if_pos hgrows,
        if_pos hmalloc]
      exact ⟨rfl, hfull', Or.inr ⟨_, _, rfl, rfl, Chunk.holds_new hfits⟩, rfl⟩
    · simp only [ChunkBuffer.write, ensureSpace, WriteBuffer.write, hfree, if_pos hgrows,
        if_neg hmalloc]
      exact ⟨rfl, hfull', Or.inl ⟨rfl, rfl⟩, rfl⟩
  · simp only [ChunkBuffer.write, ensureSpace, WriteBuffer.write, hfree, if_neg hgrows]
    exact ⟨rfl, hfull, Or.inr ⟨_, _, rfl, rfl, hholds.fill (Nat.le_of_not_gt hgrows)⟩, rfl⟩

/-- The bytes in some chunks, their number, and their room. -/
theorem contents_of_holds {chunks : List Chunk} {items : List WriteBufferItem}
    (h : List.Forall₂ Chunk.Holds chunks items) :
    (chunks.flatMap fun chunk => chunk.cells.take chunk.usedSize) =
        (items.flatMap WriteBufferItem.data).map some ∧
      (chunks.map Chunk.usedSize).sum = (items.flatMap WriteBufferItem.data).length ∧
      ∀ chunk ∈ chunks, chunk.usedSize ≤ chunk.allocatedSize := by
  induction h with
  | nil => exact ⟨rfl, rfl, by simp⟩
  | @cons chunk item chunks items hholds _ ih =>
    obtain ⟨hbytes, hsum, hroom⟩ := ih
    refine ⟨?_, ?_, List.forall_mem_cons.mpr ⟨?_, hroom⟩⟩
    · rw [List.flatMap_cons, List.flatMap_cons, hholds.cells, hbytes, List.map_append]
    · rw [List.map_cons, List.sum_cons, hsum, List.flatMap_cons, List.length_append, hholds.length,
        hholds.usedSize]
    · rw [hholds.usedSize, hholds.allocatedSize]
      exact hholds.fits

/-- All chunks hold what all items do. -/
theorem Simulates.chunks (h : buffer.Simulates buffer') :
    List.Forall₂ Chunk.Holds buffer.chunks (buffer'.items ++ buffer'.lastItem.toList) := by
  refine List.rel_append h.full ?_
  rcases h.lastItem with ⟨hlast, hlast'⟩ | ⟨chunk, item, hlast, hlast', hholds⟩
  · rw [hlast, hlast']
    exact .nil
  · rw [hlast, hlast']
    exact .cons hholds .nil

/-- What is copied out of one is what is copied out of the other. -/
theorem Simulates.writeWriteBuffer (h : buffer.Simulates buffer') :
    buffer.writeWriteBuffer = buffer'.writeWriteBuffer.map (List.map some) := by
  have hbytes := (contents_of_holds h.chunks).1
  rcases h.lastItem with ⟨hlast, hlast'⟩ | ⟨chunk, item, hlast, hlast', hholds⟩
  · rw [ChunkBuffer.writeWriteBuffer, WriteBuffer.writeWriteBuffer, hlast, hlast']
    rfl
  · rw [hlast'] at hbytes
    rw [ChunkBuffer.writeWriteBuffer, WriteBuffer.writeWriteBuffer, hlast, hlast']
    exact congrArg some hbytes

/-- One is broken where the other is. -/
theorem Simulates.broken_iff (h : buffer.Simulates buffer') :
    buffer.lastItem = none ↔ buffer'.lastItem = none := by
  rcases h.lastItem with ⟨hlast, hlast'⟩ | ⟨chunk, item, hlast, hlast', -⟩
  · exact iff_of_true hlast hlast'
  · rw [hlast, hlast']
    exact iff_of_false nofun nofun

theorem Simulates.writeAll (h : buffer.Simulates buffer') (parts : List (List UInt8)) :
    (buffer.writeAll parts).Simulates (parts.foldl WriteBuffer.write buffer') := by
  induction parts generalizing buffer buffer' with
  | nil => exact h
  | cons data parts ih => exact ih (h.write data)

end ChunkBuffer

/-! ### Items and bytes -/

namespace WriteBuffer

/-- A buffer that is not broken, and what has been written to it. -/
structure Contains (buffer : WriteBuffer) (bytes : List UInt8) : Prop where
  usedSize : buffer.usedSize = bytes.length
  bytes : buffer.writeWriteBuffer = some bytes

variable {buffer : WriteBuffer} {bytes : List UInt8}

theorem Contains.not_broken (h : buffer.Contains bytes) : buffer.lastItem ≠ none := by
  intro hlast
  have hbytes := h.bytes
  rw [writeWriteBuffer, hlast] at hbytes
  cases hbytes

/-- The bytes of all items. -/
theorem Contains.flatMap_eq (h : buffer.Contains bytes) :
    (buffer.items ++ buffer.lastItem.toList).flatMap WriteBufferItem.data = bytes := by
  obtain ⟨item, hlast⟩ := Option.ne_none_iff_exists'.mp h.not_broken
  have hbytes := h.bytes
  rw [writeWriteBuffer, hlast] at hbytes
  rw [hlast]
  exact Option.some.inj hbytes

/-- A write appends, or it breaks the buffer. -/
theorem Contains.write (h : buffer.Contains bytes) (data : List UInt8) :
    (buffer.write data).Contains (bytes ++ data) ∨ (buffer.write data).lastItem = none := by
  obtain ⟨item, hlast⟩ := Option.ne_none_iff_exists'.mp h.not_broken
  have hitems := h.flatMap_eq
  rw [hlast] at hitems
  have hlength : buffer.usedSize + data.length = (bytes ++ data).length := by
    rw [List.length_append, h.usedSize]
  simp only [WriteBuffer.write, hlast]
  split
  · cases buffer.malloc 0 with
    | false => exact Or.inr rfl
    | true =>
      refine Or.inl ⟨hlength, congrArg some ?_⟩
      show ((buffer.items ++ [item]) ++ [_]).flatMap WriteBufferItem.data = _
      rw [List.flatMap_append]
      exact congrArg₂ (· ++ ·) hitems (List.append_nil data)
  · refine Or.inl ⟨hlength, congrArg some ?_⟩
    rw [← hitems]
    simp

end WriteBuffer

/-! ### Chunks and bytes -/

namespace ChunkBuffer

variable {buffer : ChunkBuffer}

/-- The bytes that are left in the last chunk. -/
def freeSpace (buffer : ChunkBuffer) : ℕ :=
  buffer.lastItem.elim 0 fun chunk => chunk.allocatedSize - chunk.usedSize

/-- How many chunks are needed for writes of the given sizes, where so many bytes are left in the
last chunk: one for each write that does not fit, with room for 256 bytes at least. -/
def chunksNeeded : ℕ → List ℕ → ℕ
  | _, [] => 0
  | free, size :: sizes =>
    if size ≤ free then chunksNeeded (free - size) sizes
    else chunksNeeded (max size 256 - size) sizes + 1

/-- A write that fits. -/
theorem write_of_le (hlast : buffer.lastItem.isSome) {data : List UInt8}
    (hfits : data.length ≤ buffer.freeSpace) :
    (buffer.write data).lastItem.isSome ∧ (buffer.write data).malloc = buffer.malloc ∧
      (buffer.write data).freeSpace = buffer.freeSpace - data.length := by
  obtain ⟨last, hlast⟩ := Option.isSome_iff_exists.mp hlast
  rw [freeSpace, hlast, Option.elim_some] at hfits
  simp only [write, ensureSpace, hlast, if_neg (Nat.not_lt.mpr hfits)]
  refine ⟨rfl, trivial, ?_⟩
  rw [freeSpace, freeSpace, hlast]
  exact (Nat.sub_sub _ _ _).symm

/-- A write that does not fit, where there is memory for another chunk. -/
theorem write_of_malloc (hlast : buffer.lastItem.isSome) {data : List UInt8}
    (hgrows : ¬data.length ≤ buffer.freeSpace) (hmalloc : buffer.malloc 0 = true) :
    (buffer.write data).lastItem.isSome ∧
      (buffer.write data).malloc = (fun n => buffer.malloc (n + 1)) ∧
      (buffer.write data).freeSpace = max data.length 256 - data.length := by
  obtain ⟨last, hlast⟩ := Option.isSome_iff_exists.mp hlast
  rw [freeSpace, hlast, Option.elim_some, Nat.not_le] at hgrows
  simp only [write, ensureSpace, hlast, if_pos hgrows, if_pos hmalloc]
  refine ⟨rfl, rfl, ?_⟩
  show (if data.length > 256 then data.length else 256) - data.length = _
  split <;> omega

/-- A write that does not fit, where there is no memory for another chunk. -/
theorem write_of_not_malloc {data : List UInt8} (hgrows : ¬data.length ≤ buffer.freeSpace)
    (hmalloc : ¬buffer.malloc 0 = true) : (buffer.write data).lastItem = none := by
  rcases hlast : buffer.lastItem with _ | last
  · rw [write, ensureSpace, hlast]
    exact hlast
  · rw [freeSpace, hlast, Option.elim_some, Nat.not_le] at hgrows
    simp only [write, ensureSpace, hlast, if_pos hgrows, if_neg hmalloc]
    rfl

/-- A broken buffer stays broken. -/
theorem writeAll_of_broken (h : buffer.lastItem = none) (parts : List (List UInt8)) :
    buffer.writeAll parts = buffer := by
  induction parts with
  | nil => rfl
  | cons data parts ih =>
    have hwrite : buffer.write data = buffer := by rw [write, ensureSpace, h]
    rw [writeAll, List.foldl_cons, hwrite]
    exact ih

theorem writeAll_append (buffer : ChunkBuffer) (before after : List (List UInt8)) :
    buffer.writeAll (before ++ after) = (buffer.writeAll before).writeAll after :=
  List.foldl_append

/-- **A buffer is broken exactly where one of the allocations for the chunks that are needed
fails.** -/
theorem isSome_lastItem_writeAll (hlast : buffer.lastItem.isSome) (parts : List (List UInt8)) :
    (buffer.writeAll parts).lastItem.isSome ↔
      ∀ n < chunksNeeded buffer.freeSpace (parts.map List.length), buffer.malloc n = true := by
  induction parts generalizing buffer with
  | nil => exact iff_of_true hlast fun n hn => absurd hn (Nat.not_lt_zero n)
  | cons data parts ih =>
    show ((buffer.write data).writeAll parts).lastItem.isSome ↔ _
    rw [List.map_cons, chunksNeeded]
    by_cases hfits : data.length ≤ buffer.freeSpace
    · obtain ⟨hsome, hmalloc, hfree⟩ := write_of_le hlast hfits
      rw [if_pos hfits, ih hsome, hmalloc, hfree]
    rw [if_neg hfits]
    by_cases hmalloc : buffer.malloc 0 = true
    · obtain ⟨hsome, hnext, hfree⟩ := write_of_malloc hlast hfits hmalloc
      rw [ih hsome, hnext, hfree]
      constructor
      · rintro h (_ | n) hn
        · exact hmalloc
        · exact h n (Nat.lt_of_succ_lt_succ hn)
      · exact fun h n hn => h (n + 1) (Nat.succ_lt_succ hn)
    · have hnone := write_of_not_malloc hfits hmalloc
      rw [writeAll_of_broken hnone, hnone]
      exact iff_of_false nofun fun h => hmalloc (h 0 (Nat.succ_pos _))

/-- Where the buffer is not broken, the items of the simulated one contain all that is written. -/
theorem contains_of_isSome {buffer' : WriteBuffer} {bytes : List UInt8}
    (hsim : buffer.Simulates buffer') (hcontains : buffer'.Contains bytes)
    {parts : List (List UInt8)} (h : (buffer.writeAll parts).lastItem.isSome) :
    (parts.foldl WriteBuffer.write buffer').Contains (bytes ++ parts.flatten) := by
  induction parts generalizing buffer buffer' bytes with
  | nil => rwa [List.flatten_nil, List.append_nil]
  | cons data parts ih =>
    have hnext : (buffer'.write data).Contains (bytes ++ data) := by
      refine (hcontains.write data).resolve_right fun hnone => ?_
      have hbroken := (hsim.write data).broken_iff.mpr hnone
      have hstill : (((buffer.write data).writeAll parts).lastItem).isSome := h
      rw [writeAll_of_broken hbroken, hbroken] at hstill
      cases hstill
    have hrest := ih (hsim.write data) hnext h
    rwa [List.foldl_cons, List.flatten_cons, ← List.append_assoc]

/-- **A buffer of chunks refines the string of all bytes written to it.** Whatever is written,
no chunk uses more than has been allocated for it. Where none of the allocations for the chunks
that are needed fails, the size is that of all chunks together and that of all that has been
written, and what is copied out is what has been written, in order. Once one of them has failed
nothing is copied out any more, whatever is written later. -/
theorem refinesAppend (malloc : ℕ → Bool) (parts : List (List UInt8)) :
    (∀ chunk ∈ ((init malloc).writeAll parts).chunks, chunk.usedSize ≤ chunk.allocatedSize) ∧
      ((∀ n < chunksNeeded 32 (parts.map List.length), malloc n = true) →
        ((init malloc).writeAll parts).usedSize =
            (((init malloc).writeAll parts).chunks.map Chunk.usedSize).sum ∧
          ((init malloc).writeAll parts).usedSize = parts.flatten.length ∧
          ((init malloc).writeAll parts).writeWriteBuffer = some (parts.flatten.map some)) ∧
      ((∃ n < chunksNeeded 32 (parts.map List.length), malloc n = false) →
        ∀ later, ((init malloc).writeAll (parts ++ later)).writeWriteBuffer = none) := by
  have hsim := (simulates_init malloc).writeAll parts
  obtain ⟨hbytes, hsum, hroom⟩ := contents_of_holds hsim.chunks
  have hiff : ((init malloc).writeAll parts).lastItem.isSome ↔
      ∀ n < chunksNeeded 32 (parts.map List.length), malloc n = true :=
    @isSome_lastItem_writeAll (init malloc) rfl parts
  refine ⟨hroom, fun hmalloc => ?_, fun ⟨n, hn, hfails⟩ later => ?_⟩
  · have hinit : (WriteBuffer.init malloc).Contains [] := ⟨rfl, rfl⟩
    have hcontains := contains_of_isSome (simulates_init malloc) hinit (hiff.mpr hmalloc)
    rw [List.nil_append] at hcontains
    have hcopied := hsim.writeWriteBuffer
    rw [hcontains.bytes] at hcopied
    have hused := hsim.usedSize.trans hcontains.usedSize
    refine ⟨?_, hused, hcopied⟩
    rw [hused, hsum, hcontains.flatMap_eq]
  · have hbroken : ((init malloc).writeAll parts).lastItem = none := by
      refine Option.not_isSome_iff_eq_none.mp fun hsome => ?_
      rw [hiff.mp hsome n hn] at hfails
      cases hfails
    rw [writeAll_append, writeAll_of_broken hbroken, writeWriteBuffer, hbroken]

/-- Thirty bytes and forty need one more chunk. With memory for it all is copied out, and
without nothing is, whatever is written later. -/
theorem refinesAppend_grown :
    ((init fun _ => true).writeAll [.replicate 30 0, .replicate 40 1]).writeWriteBuffer =
        some ((List.replicate 30 (0 : UInt8) ++ List.replicate 40 1).map some) ∧
      ((init fun _ => false).writeAll
        ([.replicate 30 0, .replicate 40 1] ++ [[2], [3]])).writeWriteBuffer = none := by
  have hneeded : chunksNeeded 32 ([List.replicate 30 (0 : UInt8), .replicate 40 1].map
      List.length) = 1 := by
    decide
  obtain ⟨-, hcopied, -⟩ := refinesAppend (fun _ => true) [.replicate 30 0, .replicate 40 1]
  obtain ⟨-, -, hbroken⟩ := refinesAppend (fun _ => false) [.replicate 30 0, .replicate 40 1]
  exact ⟨(hcopied fun _ _ => rfl).2.2, hbroken ⟨0, by omega, rfl⟩ [[2], [3]]⟩

end ChunkBuffer

end Wpcp.Cbor
