import Wpcp.Cbor.Bounds
import Wpcp.Cbor.MapItems
import Wpcp.Lib.Run

/-!
# The array for unknown keys

`wpcp_cbor_read_buffer_read_map_items` allocates the array for pairs with unknown keys once, at
the first of them, for all the pairs that are left. The loop is taken apart here into its rounds
(`Wpcp.Cbor.PairLoop.step`), so that the array can be looked at after each of them, and what the
message itself says is the list of the keys that can be read from it (`Wpcp.Cbor.keysRead`).

**For each message the array has room for what is stored in it exactly where the keys fit**
(`Wpcp.Cbor.suffices_iff`): there is no unknown key, or the size that is asked for at the first
of them does not wrap, or the message ends before the pairs with an unknown key take more than
the size that is left of it.
-/

namespace Wpcp.Cbor

variable {M : Machine} {b b' : ReadBuffer} {known : List (List UInt8)}

/-! ### The loop in rounds -/

/-- The loop between two rounds. -/
structure PairLoop where
  remaining : ℕ
  items : MapItems
  buffer : ReadBuffer

/-- The loop before its first round. -/
def PairLoop.start (known : List (List UInt8)) (itemCount : ℕ) (buffer : ReadBuffer) : PairLoop :=
  ⟨itemCount, ⟨known.map fun key => ⟨key, none⟩, [], none⟩, buffer⟩

/-- A round that stores its pair. -/
def PairLoop.step (M : Machine) (fuel : ℕ) (s : PairLoop) (_ : Unit) : Option PairLoop :=
  match s.remaining with
  | 0 => none
  | remaining + 1 =>
    match (readPair M fuel (remaining + 1) s.items).run s.buffer with
    | some (.ok (some items), b) => some ⟨remaining, items, b⟩
    | _ => none

/-- **The loop goes on from where its rounds have led.** -/
theorem PairLoop.run_readPairs {fuel : ℕ} {s t : PairLoop} {rounds : List Unit}
    (h : Transition.Run (PairLoop.step M fuel) Transition.anyStep s rounds t) :
    (readPairs M fuel s.remaining s.items).run s.buffer =
      (readPairs M fuel t.remaining t.items).run t.buffer := by
  induction h with
  | nil => rfl
  | @snoc t u _ _ _ _ hst ih =>
    rw [ih]
    rw [PairLoop.step] at hst
    split at hst
    · exact absurd hst nofun
    · rename_i remaining hremaining
      split at hst
      · rename_i items b hrun
        obtain rfl := Option.some.inj hst
        rw [hremaining, readPairs_succ, Attempt.run_bind_ok hrun]
      · exact absurd hst nofun

/-- Whichever allocations succeed, at every point where a pair with an unknown key has been
stored, the pairs stored take no more bytes than have been asked for. -/
def Suffices (M : Machine) (known : List (List UInt8)) (b : ReadBuffer) : Prop :=
  ∀ malloc fuel itemCount b₁,
    (readMapHeader M).run { b with malloc := malloc } = some (.ok (true, itemCount), b₁) →
      ∀ rounds s, Transition.Run (PairLoop.step M fuel) Transition.anyStep
        (.start known itemCount b₁) rounds s →
          ∀ allocated ∈ s.items.allocated, s.items.additional.length * M.sizeT.pairSize ≤ allocated

/-! ### What the message says -/

/-- The keys of the pairs that can be read one after the other. -/
def keysRead (M : Machine) (fuel : ℕ) : ℕ → ReadBuffer → List (List UInt8)
  | 0, _ => []
  | remaining + 1, b =>
    match (readTextString M).run b with
    | some (.ok (key, keyLength), b) =>
      match (readWpcpValue M fuel).run b with
      | some (.ok _, b) => M.slice key keyLength :: keysRead M fuel remaining b
      | _ => []
    | _ => []

/-- The number of keys before the first unknown one. -/
def firstUnknown (known keys : List (List UInt8)) : ℕ := keys.findIdx (!known.contains ·)

/-- The number of unknown keys. -/
def unknownCount (known keys : List (List UInt8)) : ℕ := keys.countP (!known.contains ·)

/-- No key is unknown, or the size for the pairs that are left at the first unknown one does not
wrap, or the pairs with unknown keys that are there fit into what is left of it. -/
def KeysFit (sizeT : SizeT) (known : List (List UInt8)) (itemCount : ℕ)
    (keys : List (List UInt8)) : Prop :=
  (∀ key ∈ keys, key ∈ known) ∨
    (itemCount - firstUnknown known keys) * sizeT.pairSize < sizeT.count ∨
    unknownCount known keys * sizeT.pairSize ≤
      (itemCount - firstUnknown known keys) * sizeT.pairSize % sizeT.count

/-- The keys that can be read from the map at the front of a message fit. -/
def MessageFits (M : Machine) (known : List (List UInt8)) (b : ReadBuffer) : Prop :=
  ∀ fuel itemCount b₁, (readMapHeader M).run b.unlimited = some (.ok (true, itemCount), b₁) →
    KeysFit M.sizeT known itemCount (keysRead M fuel itemCount b₁)

theorem length_keysRead_le (fuel remaining : ℕ) (b : ReadBuffer) :
    (keysRead M fuel remaining b).length ≤ remaining := by
  induction remaining generalizing b with
  | zero => exact Nat.le_refl _
  | succ remaining ih =>
    rw [keysRead]
    split
    · split
      · exact Nat.succ_le_succ (ih _)
      · exact Nat.zero_le _
    · exact Nat.zero_le _

/-- The unknown keys come from the first of them on. -/
theorem firstUnknown_add_unknownCount_le (known keys : List (List UInt8)) :
    firstUnknown known keys + unknownCount known keys ≤ keys.length := by
  induction keys with
  | nil => exact Nat.le_refl _
  | cons key keys ih =>
    rw [firstUnknown, unknownCount, List.findIdx_cons, List.countP_cons] at *
    rcases hknown : known.contains key
    · have hle := List.countP_le_length (p := (!known.contains ·)) (l := keys)
      simp only [List.length_cons, Bool.not_false, cond_true, if_true]
      omega
    · simp only [List.length_cons, Bool.not_true, cond_false, Bool.false_eq_true, if_false]
      omega

/-- **The keys fit exactly where the pairs with unknown keys take no more than the size that is
asked for.** -/
theorem keysFit_iff {sizeT : SizeT} {itemCount : ℕ} {keys : List (List UInt8)}
    (hlength : keys.length ≤ itemCount) :
    KeysFit sizeT known itemCount keys ↔ unknownCount known keys * sizeT.pairSize ≤
      (itemCount - firstUnknown known keys) * sizeT.pairSize % sizeT.count := by
  have hle := firstUnknown_add_unknownCount_le known keys
  constructor
  · rintro (hall | hfits | hthere)
    · have hzero : unknownCount known keys = 0 :=
        List.countP_eq_zero.mpr fun key hkey => by simpa using hall key hkey
      rw [hzero, Nat.zero_mul]
      exact Nat.zero_le _
    · rw [Nat.mod_eq_of_lt hfits]
      exact Nat.mul_le_mul_right _ (by omega)
    · exact hthere
  · exact fun h => Or.inr (Or.inr h)

/-! ### One round -/

theorem storeValue_of_mem_keys {key : List UInt8} (value : Value StringData)
    {map : List MapItem} (h : key ∈ map.map MapItem.key) :
    ∃ map', storeValue key value map = some map' ∧ map'.map MapItem.key = map.map MapItem.key := by
  induction map with
  | nil => exact absurd h List.not_mem_nil
  | cons item map ih =>
    rw [storeValue]
    by_cases hkey : item.key = key
    · exact ⟨_, if_pos hkey, rfl⟩
    · obtain ⟨map', hstore, hkeys⟩ := ih ((List.mem_cons.mp h).resolve_left fun heq =>
        hkey heq.symm)
      refine ⟨item :: map', ?_, ?_⟩
      · rw [if_neg hkey, hstore]
        rfl
      · rw [List.map_cons, List.map_cons, hkeys]

/-- What is stored after the pairs with some keys: the pairs with unknown keys, in an array that
was asked for at the first of them. -/
structure StoresKeys (sizeT : SizeT) (known : List (List UInt8)) (itemCount : ℕ)
    (keys : List (List UInt8)) (items : MapItems) : Prop where
  map : items.map.map MapItem.key = known
  additional : items.additional.length = unknownCount known keys
  allocated : items.allocated = if ∀ key ∈ keys, key ∈ known then none else
    some ((itemCount - firstUnknown known keys) * sizeT.pairSize % sizeT.count)

theorem storesKeys_nil (sizeT : SizeT) (known : List (List UInt8)) (itemCount : ℕ) :
    StoresKeys sizeT known itemCount [] ⟨known.map fun key => ⟨key, none⟩, [], none⟩ where
  map := by
    rw [List.map_map]
    exact List.map_id known
  additional := rfl
  allocated := (if_pos (by simp)).symm

section Append

variable {keys keys' : List (List UInt8)} {key : List UInt8}

theorem unknownCount_append :
    unknownCount known (keys ++ keys') = unknownCount known keys + unknownCount known keys' :=
  List.countP_append

theorem unknownCount_singleton :
    unknownCount known [key] = if key ∈ known then 0 else 1 := by
  rw [unknownCount, List.countP_singleton]
  by_cases hkey : key ∈ known
  · rw [if_pos hkey, if_neg (by simpa using hkey)]
  · rw [if_neg hkey, if_pos (by simpa using hkey)]

/-- The first unknown key stays the first. -/
theorem firstUnknown_append_of_exists (h : ¬∀ key ∈ keys, key ∈ known) :
    firstUnknown known (keys ++ keys') = firstUnknown known keys := by
  push Not at h
  obtain ⟨other, hmem, hother⟩ := h
  rw [firstUnknown, List.findIdx_append, if_pos]
  · rfl
  · exact List.findIdx_lt_length_of_exists ⟨other, hmem, by simpa using hother⟩

theorem firstUnknown_concat_of_forall (h : ∀ key ∈ keys, key ∈ known) (hkey : key ∉ known) :
    firstUnknown known (keys ++ [key]) = keys.length := by
  have hall : keys.findIdx (!known.contains ·) = keys.length :=
    List.findIdx_eq_length.mpr fun other hother => by simpa using h other hother
  have hnew : (!known.contains key) = true := by simpa using hkey
  rw [firstUnknown, List.findIdx_append, hall, if_neg (Nat.lt_irrefl _), List.findIdx_cons, hnew]
  exact Nat.zero_add _

end Append

/-- **A pair is stored**, under the slot of its key or at the end of the array. -/
theorem StoresKeys.store {itemCount remaining key keyLength : ℕ} {keys : List (List UInt8)}
    {items items' : MapItems} {value : Value StringData}
    (h : StoresKeys M.sizeT known itemCount keys items)
    (hremaining : remaining = itemCount - keys.length)
    (hrun : (storePair M remaining items key keyLength value).run b =
      some (.ok (some items'), b')) :
    StoresKeys M.sizeT known itemCount (keys ++ [M.slice key keyLength]) items' := by
  obtain ⟨hmap, hadditional, hallocated⟩ := h
  unfold storePair at hrun
  by_cases hkey : M.slice key keyLength ∈ known
  · obtain ⟨map', hstore, hkeys⟩ := storeValue_of_mem_keys value (hmap.symm ▸ hkey)
    rw [hstore] at hrun
    obtain ⟨hitems, -⟩ := Prod.mk.inj (Option.some.inj hrun)
    obtain rfl := Option.some.inj (Except.ok.inj hitems)
    refine ⟨hkeys.trans hmap, ?_, ?_⟩
    · rw [unknownCount_append, unknownCount_singleton, if_pos hkey]
      exact hadditional
    · show items.allocated = _
      rw [hallocated]
      by_cases hall : ∀ key ∈ keys, key ∈ known
      · rw [if_pos hall, if_pos (List.forall_mem_append.mpr ⟨hall, by simpa using hkey⟩)]
      · rw [if_neg hall, firstUnknown_append_of_exists hall, if_neg]
        exact fun hboth => hall (List.forall_mem_append.mp hboth).1
  · have hnot : ¬∀ other ∈ keys ++ [M.slice key keyLength], other ∈ known :=
      fun hall => hkey (hall _ (by simp))
    have hcount : unknownCount known (keys ++ [M.slice key keyLength]) =
        items.additional.length + 1 := by
      rw [unknownCount_append, unknownCount_singleton, if_neg hkey, hadditional]
    rw [storeValue_of_notMem (hmap.symm ▸ hkey)] at hrun
    dsimp only at hrun
    by_cases hall : ∀ key ∈ keys, key ∈ known
    · -- the array is asked for
      rw [hallocated, if_pos hall] at hrun
      dsimp only at hrun
      obtain ⟨e, t, -, ho⟩ | ⟨ret, b₁, -, hrun⟩ := Attempt.run_bind_eq_some.mp hrun
      · exact absurd (Prod.mk.inj ho).1 nofun
      rcases ret with _ | ret
      · exact absurd (Prod.mk.inj (Option.some.inj hrun)).1 nofun
      · obtain ⟨hitems, -⟩ := Prod.mk.inj (Option.some.inj hrun)
        obtain rfl := Option.some.inj (Except.ok.inj hitems)
        refine ⟨hmap, List.length_append.trans hcount.symm, ?_⟩
        rw [if_neg hnot, firstUnknown_concat_of_forall hall hkey, ← hremaining]
        rfl
    · rw [hallocated, if_neg hall] at hrun
      obtain ⟨hitems, -⟩ := Prod.mk.inj (Option.some.inj hrun)
      obtain rfl := Option.some.inj (Except.ok.inj hitems)
      refine ⟨hmap, List.length_append.trans hcount.symm, ?_⟩
      rw [if_neg hnot, firstUnknown_append_of_exists hall]

/-- Where no allocation fails, every pair is stored. -/
theorem exists_storePair_unlimited (b : ReadBuffer) (remaining : ℕ) (items : MapItems)
    (key keyLength : ℕ) (value : Value StringData) :
    ∃ items', (storePair M remaining items key keyLength value).run b.unlimited =
      some (.ok (some items'), b.unlimited) := by
  unfold storePair
  rcases storeValue (M.slice key keyLength) value items.map with _ | map
  · rcases hallocated : items.allocated with _ | allocated
    · exact ⟨_, rfl⟩
    · exact ⟨_, rfl⟩
  · exact ⟨_, rfl⟩

/-! ### What does not depend on the allocations -/

theorem run_orNull_some {α : Type} {m : Reading α} {a : α}
    (h : (orNull m).run b = some (.ok (some a), b')) : m.run b = some (.ok a, b') := by
  simp only [Attempt.run, orNull] at h ⊢
  split at h
  · cases h
  · rename_i heq
    obtain ⟨ha, rfl⟩ := Prod.mk.inj (Option.some.inj h)
    obtain rfl := Option.some.inj (Except.ok.inj ha)
    exact heq
  · cases h
  · cases h

theorem transfers_readHeaderAndUint32 : Attempt.Transfers Affords (readHeaderAndUint32 M) := by
  refine .bind (transfers_readUint 1) fun firstByte => ?_
  refine .ite (.pure _) (.ite (.bind (transfers_readUint 1) fun _ => .pure _) ?_)
  refine .ite (.bind (transfers_readUint 2) fun _ => .pure _) ?_
  exact .ite (.bind (transfers_readUint 4) fun _ => .pure _) (.fail _)

/-- A header of the given type that is read. -/
theorem run_readSpecificHeader_true {type : MajorType} {value n : ℕ}
    (h : (readSpecificHeaderAndUint32 M type value).run b = some (.ok (true, n), b')) :
    (readHeaderAndUint32 M).run b = some (.ok (type, n), b') := by
  obtain ⟨e, t, -, ho⟩ | ⟨read, b₁, hread, h⟩ := Attempt.run_bind_eq_some.mp h
  · exact absurd (Prod.mk.inj ho).1 nofun
  rcases read with _ | ⟨majorType, n'⟩
  · exact absurd (Prod.mk.inj (Except.ok.inj (Prod.mk.inj (Option.some.inj h)).1)).1 nofun
  · obtain ⟨heq, rfl⟩ := Prod.mk.inj (Option.some.inj h)
    obtain ⟨htype, rfl⟩ := Prod.mk.inj (Except.ok.inj heq)
    rw [← of_decide_eq_true htype]
    exact run_orNull_some hread

/-- A header that is read is also read where no allocation fails. -/
theorem run_readSpecificHeader_unlimited {type : MajorType} {value n : ℕ}
    (h : (readSpecificHeaderAndUint32 M type value).run b = some (.ok (true, n), b')) :
    (readSpecificHeaderAndUint32 M type value).run b.unlimited =
      some (.ok (true, n), b'.unlimited) := by
  obtain ⟨_, hread, rfl⟩ :=
    transfers_readHeaderAndUint32 b b.unlimited _ b' rfl (run_readSpecificHeader_true h)
  rw [readSpecificHeaderAndUint32, Attempt.run_bind_ok (run_orNull_ok hread)]
  dsimp only
  rw [decide_eq_true rfl]
  rfl

/-- A key that is read is also read where no allocation fails. -/
theorem transfers_readTextString : Attempt.Transfers Affords (readTextString M) := by
  rintro b _ key t rfl h
  obtain ⟨e, t, -, ho⟩ | ⟨⟨ret, n⟩, b₁, hread, h⟩ := Attempt.run_bind_eq_some.mp h
  · exact absurd (Prod.mk.inj ho).1 nofun
  rcases ret with _ | _
  · exact absurd (Prod.mk.inj (Option.some.inj h)).1 nofun
  obtain ⟨t', hrest, ht⟩ := Attempt.Transfers.bind (transfers_readRaw (M := M) n)
    (fun key => .pure (key, n)) b₁ _ key t rfl h
  exact ⟨t', (Attempt.run_bind_ok (run_readSpecificHeader_unlimited hread)).trans hrest, ht⟩

/-! ### The run of the loop -/

/-- What a round that stores its pair has read. -/
theorem exists_of_run_readPair {fuel remaining : ℕ} {items items' : MapItems}
    (h : (readPair M fuel remaining items).run b = some (.ok (some items'), b')) :
    ∃ key keyLength b₁ value b₂, (readTextString M).run b = some (.ok (key, keyLength), b₁) ∧
      (readWpcpValue M fuel).run b₁ = some (.ok value, b₂) ∧
      (storePair M remaining items key keyLength value).run b₂ = some (.ok (some items'), b') := by
  obtain ⟨e, t, -, ho⟩ | ⟨key, b₁, hkey, h⟩ := Attempt.run_bind_eq_some.mp h
  · exact absurd (Prod.mk.inj ho).1 nofun
  rcases key with _ | ⟨key, keyLength⟩
  · exact absurd (Prod.mk.inj (Option.some.inj h)).1 nofun
  obtain ⟨e, t, -, ho⟩ | ⟨value, b₂, hvalue, h⟩ := Attempt.run_bind_eq_some.mp h
  · exact absurd (Prod.mk.inj ho).1 nofun
  rcases value with _ | value
  · exact absurd (Prod.mk.inj (Option.some.inj h)).1 nofun
  · exact ⟨key, keyLength, b₁, value, b₂, run_orNull_some hkey, run_orNull_some hvalue, h⟩

/-- Storing a pair leaves the buffer alone but for its allocations. -/
theorem unlimited_of_run_storePair {remaining key keyLength : ℕ} {items : MapItems}
    {value : Value StringData} {o : Except Failure (Option MapItems)}
    (h : (storePair M remaining items key keyLength value).run b = some (o, b')) :
    b'.unlimited = b.unlimited := by
  unfold storePair at h
  rcases hstore : storeValue (M.slice key keyLength) value items.map with _ | map
  · rw [hstore] at h
    rcases hallocated : items.allocated with _ | allocated
    · rw [hallocated] at h
      dsimp only at h
      have halloc : (orNull alloc).run b = some (.ok (if b.malloc 0 = true then some () else none),
          { b with malloc := fun n => b.malloc (n + 1) }) := by
        show orNull alloc b = _
        unfold orNull alloc
        rcases b.malloc 0 with _ | _
        · rfl
        · rfl
      rw [Attempt.run_bind_ok halloc] at h
      split at h
      · rw [← (Prod.mk.inj (Option.some.inj h)).2]
        rfl
      · rw [← (Prod.mk.inj (Option.some.inj h)).2]
        rfl
    · rw [hallocated] at h
      rw [← (Prod.mk.inj (Option.some.inj h)).2]
  · rw [hstore] at h
    rw [← (Prod.mk.inj (Option.some.inj h)).2]

/-- The loop after so many keys: what it has stored, and the keys that are left. -/
structure PairLoop.Has (M : Machine) (fuel : ℕ) (known : List (List UInt8)) (itemCount : ℕ)
    (all keys : List (List UInt8)) (s : PairLoop) : Prop where
  stores : StoresKeys M.sizeT known itemCount keys s.items
  remaining : s.remaining + keys.length = itemCount
  keys : all = keys ++ keysRead M fuel s.remaining s.buffer.unlimited

/-- **One round takes one key.** -/
theorem PairLoop.Has.step {fuel itemCount : ℕ} {all keys : List (List UInt8)} {s t : PairLoop}
    (h : s.Has M fuel known itemCount all keys) (hst : s.step M fuel () = some t) :
    ∃ key, t.Has M fuel known itemCount all (keys ++ [key]) := by
  obtain ⟨hstores, hremaining, hkeys⟩ := h
  rw [PairLoop.step] at hst
  split at hst
  · exact absurd hst nofun
  rename_i remaining hleft
  rw [hleft] at hremaining hkeys
  split at hst
  · rename_i items b hrun
    obtain rfl := Option.some.inj hst
    obtain ⟨key, keyLength, b₁, value, b₂, hkey, hvalue, hstore⟩ := exists_of_run_readPair hrun
    obtain ⟨_, hkey', rfl⟩ := transfers_readTextString _ _ _ _ rfl hkey
    obtain ⟨_, hvalue', rfl⟩ := transfers_readWpcpValue fuel _ _ _ _ rfl hvalue
    refine ⟨M.slice key keyLength, hstores.store (by omega) hstore, ?_, ?_⟩
    · rw [List.length_append, List.length_singleton]
      dsimp only
      omega
    · rw [hkeys, keysRead, hkey']
      dsimp only
      rw [hvalue']
      dsimp only
      rw [unlimited_of_run_storePair hstore, List.append_assoc]
      rfl
  · exact absurd hst nofun

/-- **Every run of rounds takes a part of the keys from the front.** -/
theorem PairLoop.Has.run {fuel itemCount : ℕ} {all : List (List UInt8)} {s t : PairLoop}
    (h : s.Has M fuel known itemCount all []) {rounds : List Unit}
    (hrun : Transition.Run (PairLoop.step M fuel) Transition.anyStep s rounds t) :
    ∃ keys, t.Has M fuel known itemCount all keys := by
  refine hrun.invariant
    (motive := fun _ t => ∃ keys, PairLoop.Has M fuel known itemCount all keys t)
    ⟨[], h⟩ ?_
  rintro _ t _ u ⟨keys, ih⟩ - hst
  obtain ⟨key, hnext⟩ := ih.step hst
  exact ⟨_, hnext⟩

/-- **Where no allocation fails all the keys are taken.** -/
theorem PairLoop.exists_run_all {fuel itemCount : ℕ} {all keys : List (List UInt8)}
    {s : PairLoop} (hbuffer : s.buffer = s.buffer.unlimited)
    (h : s.Has M fuel known itemCount all keys) :
    ∃ rounds t, Transition.Run (PairLoop.step M fuel) Transition.anyStep s rounds t ∧
      t.Has M fuel known itemCount all all := by
  generalize hleft : s.remaining = left
  induction left generalizing s keys with
  | zero =>
    have hall : all = keys := by
      rw [h.keys, hleft]
      exact List.append_nil _
    exact ⟨[], s, .nil, hall.symm ▸ h⟩
  | succ left ih =>
    rcases hkey : (readTextString M).run s.buffer with _ | ⟨e | ⟨key, keyLength⟩, b₁⟩
    · refine ⟨[], s, .nil, ?_⟩
      have hall : all = keys := by
        rw [h.keys, hleft, keysRead, ← hbuffer, hkey]
        exact List.append_nil _
      exact hall.symm ▸ h
    · refine ⟨[], s, .nil, ?_⟩
      have hall : all = keys := by
        rw [h.keys, hleft, keysRead, ← hbuffer, hkey]
        exact List.append_nil _
      exact hall.symm ▸ h
    rcases hvalue : (readWpcpValue M fuel).run b₁ with _ | ⟨e | value, b₂⟩
    · refine ⟨[], s, .nil, ?_⟩
      have hall : all = keys := by
        rw [h.keys, hleft, keysRead, ← hbuffer, hkey]
        dsimp only
        rw [hvalue]
        exact List.append_nil _
      exact hall.symm ▸ h
    · refine ⟨[], s, .nil, ?_⟩
      have hall : all = keys := by
        rw [h.keys, hleft, keysRead, ← hbuffer, hkey]
        dsimp only
        rw [hvalue]
        exact List.append_nil _
      exact hall.symm ▸ h
    -- the pair is there, and so the round stores it
    have hunlimited : b₂ = b₂.unlimited := by
      obtain ⟨_, hkey', rfl⟩ := transfers_readTextString _ _ _ _ rfl hkey
      obtain ⟨_, hvalue', rfl⟩ := transfers_readWpcpValue fuel _ _ _ _ rfl hvalue
      rw [← hbuffer, hkey, Option.some.injEq, Prod.mk.injEq] at hkey'
      rw [← hkey'.2, hvalue, Option.some.injEq, Prod.mk.injEq] at hvalue'
      exact hvalue'.2
    obtain ⟨items, hstore⟩ :=
      exists_storePair_unlimited (M := M) b₂ (left + 1) s.items key keyLength value
    rw [← hunlimited] at hstore
    have hstep : s.step M fuel () = some ⟨left, items, b₂⟩ := by
      rw [PairLoop.step, hleft]
      dsimp only
      rw [readPair, Attempt.run_bind_ok (run_orNull_ok hkey)]
      dsimp only
      rw [Attempt.run_bind_ok (run_orNull_ok hvalue)]
      dsimp only
      rw [hstore]
    obtain ⟨next, hnext⟩ := h.step hstep
    obtain ⟨rounds, t, hrun, hhas⟩ := ih hunlimited hnext rfl
    exact ⟨_, t, .cons trivial hstep hrun, hhas⟩

/-- **The array for unknown keys is large enough, for a given message, if and only if its keys
fit.** -/
theorem suffices_iff (M : Machine) (known : List (List UInt8)) (b : ReadBuffer) :
    Suffices M known b ↔ MessageFits M known b := by
  have hstart : ∀ fuel itemCount b₁, PairLoop.Has M fuel known itemCount
      (keysRead M fuel itemCount b₁.unlimited) [] (.start known itemCount b₁) :=
    fun fuel itemCount b₁ => ⟨storesKeys_nil _ _ _, rfl, rfl⟩
  constructor
  · intro h fuel itemCount b₁ hheader
    have hunlimited : b₁ = b₁.unlimited := by
      have hheader' := run_readSpecificHeader_unlimited hheader
      rw [show b.unlimited.unlimited = b.unlimited from rfl, ← readMapHeader, hheader,
        Option.some.injEq, Prod.mk.injEq] at hheader'
      exact hheader'.2
    rw [keysFit_iff (length_keysRead_le _ _ _)]
    by_cases hall : ∀ key ∈ keysRead M fuel itemCount b₁, key ∈ known
    · have hzero : unknownCount known (keysRead M fuel itemCount b₁) = 0 :=
        List.countP_eq_zero.mpr fun key hkey => by simpa using hall key hkey
      rw [hzero, Nat.zero_mul]
      exact Nat.zero_le _
    · have hhas := hstart fuel itemCount b₁
      rw [← hunlimited] at hhas
      obtain ⟨rounds, t, hrun, hstores, -, -⟩ := PairLoop.exists_run_all hunlimited hhas
      have hroom := h _ fuel itemCount b₁ hheader rounds t hrun
      rw [hstores.allocated, if_neg hall, hstores.additional] at hroom
      exact hroom _ rfl
  · intro h malloc fuel itemCount b₁ hheader rounds s hrun allocated ha
    obtain ⟨keys, hstores, -, hkeys⟩ := (hstart fuel itemCount b₁).run hrun
    have hheader' := run_readSpecificHeader_unlimited hheader
    have hfits := h fuel itemCount _ hheader'
    rw [keysFit_iff (length_keysRead_le _ _ _), hkeys, unknownCount_append] at hfits
    rw [hstores.allocated] at ha
    split at ha
    · cases ha
    · rename_i hexists
      obtain rfl := Option.some.inj ha
      rw [firstUnknown_append_of_exists hexists] at hfits
      rw [hstores.additional]
      exact (Nat.mul_le_mul_right _ (Nat.le_add_right _ _)).trans hfits

/-- The header of a map of 357913942 pairs, a pair with a known key and one with an unknown key. -/
def knownFirstMap : List UInt8 :=
  [0xba, 0x15, 0x55, 0x55, 0x56, 0x62, 0x69, 0x64, 0xf6, 0x60, 0xf6]

/-- Behind one known key the size for the pairs that are left does not wrap. -/
theorem suffices_knownFirst :
    Suffices (.withMessage .bits32 1000 knownFirstMap) [[0x69, 0x64]]
      ⟨1000, 1011, fun _ => true, false⟩ := by
  refine (suffices_iff _ _ _).mpr fun fuel itemCount b₁ hheader => ?_
  let M : Machine := .withMessage .bits32 1000 knownFirstMap
  have hread : (readMapHeader M).run ⟨1000, 1011, fun _ => true, false⟩ =
      some (.ok (true, 357913942), ⟨1005, 1011, fun _ => true, false⟩) := by cbv
  obtain ⟨heq, rfl⟩ := Prod.mk.inj (Option.some.inj (hheader.symm.trans hread))
  obtain ⟨-, rfl⟩ := Prod.mk.inj (Except.ok.inj heq)
  have hkey : (readTextString M).run ⟨1005, 1011, fun _ => true, false⟩ =
      some (.ok (1006, 2), ⟨1008, 1011, fun _ => true, false⟩) := by cbv
  have hslice : M.slice 1006 2 = [0x69, 0x64] := by decide
  rw [show (357913942 : ℕ) = 357913941 + 1 from rfl, keysRead, hkey]
  dsimp only
  split
  · rw [hslice]
    refine Or.inr (Or.inl ?_)
    have hknown : (!List.contains [[0x69, 0x64]] ([0x69, 0x64] : List UInt8)) = false := by decide
    rw [firstUnknown, List.findIdx_cons, hknown, cond_false]
    show (357913941 + 1 - (_ + 1)) * 12 < 2 ^ 32
    omega
  · exact Or.inl (by simp)

/-- The header of a map of 357913942 pairs, and one pair. -/
def wrappingMap : List UInt8 := [0xba, 0x15, 0x55, 0x55, 0x56, 0x60, 0xf6]

/-- **For 357913942 pairs 8 bytes are asked for where `size_t` has 32 bits**, and the first pair
with an unknown key takes 12. -/
theorem not_suffices_bits32 :
    ¬Suffices (.withMessage .bits32 1000 wrappingMap) [[0x69, 0x64]]
      ⟨1000, 1007, fun _ => true, false⟩ := by
  intro hsuffices
  let M : Machine := .withMessage .bits32 1000 wrappingMap
  let b : ReadBuffer := ⟨1000, 1007, fun _ => true, false⟩
  have hcheck : ((readMapHeader M).run b).any (fun p =>
      p.1.toOption = some (true, 357913942) ∧
        (Transition.execute (PairLoop.step M 9) Transition.anyStep
          (.start [[0x69, 0x64]] 357913942 p.2) [()]).any (fun s =>
            s.items.allocated = some 8 ∧ s.items.additional.length = 1) = true) = true := by
    decide +kernel
  obtain ⟨⟨o, b₁⟩, hhead, hany⟩ := (Option.any_eq_true _ _).mp hcheck
  obtain ⟨ho, hany⟩ := of_decide_eq_true hany
  rcases o with e | ret
  · exact absurd ho nofun
  obtain rfl := Option.some.inj ho
  obtain ⟨s, hs, hany⟩ := (Option.any_eq_true _ _).mp hany
  obtain ⟨hallocated, hlength⟩ := of_decide_eq_true hany
  have hroom := hsuffices _ 9 357913942 b₁ hhead _ s (Transition.run_of_execute hs) 8 hallocated
  rw [hlength] at hroom
  exact absurd hroom (by decide)

end Wpcp.Cbor
