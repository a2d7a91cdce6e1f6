import Wpcp.Session.Counters

/-!
# A place for every item

The list of blocked items of a result is allocated with the first item that is accepted, with a
place for each answer that is missing then, and one for a null pointer. Each item that is
accepted takes a place, and with it goes an answer. **There is always a place left for an item
that is accepted** (`Wpcp.room_of_run`), whatever allocations fail, unless the request has so many
elements that the size of the list is cut (`Wpcp.BlockedItemsFit`). Between the item and the
answer a result is one place short (`Wpcp.World.Short`), so that the two are one operation here.
-/

namespace Wpcp

open Cbor (Value WriteBuffer SizeT)

variable {S : Prop} {w : World} {hand : Multiset Token} {r : ℕ} {ret ret' : Result}

/-! ### Sizes -/

/-- The size of a list for some answers is not cut. -/
def BlockedItemsFit (sizeT : SizeT) (remaining : ℕ) : Prop :=
  sizeT = .bits64 ∨ 12 + 4 * remaining < 2 ^ 32

/-- What is enough for some answers is enough for fewer. -/
theorem BlockedItemsFit.anti {sizeT : SizeT} {m n : ℕ} (h : BlockedItemsFit sizeT n)
    (hle : m ≤ n) : BlockedItemsFit sizeT m := by
  rcases h with hbits | hlt
  · exact Or.inl hbits
  · exact Or.inr (by omega)

/-- **Where the size is not cut there is a place for each answer and one more.** -/
theorem blockedItemsCells_of_fits {sizeT : SizeT} {remaining : ℕ} (hlt : remaining < 2 ^ 32)
    (hfits : BlockedItemsFit sizeT remaining) :
    blockedItemsCells sizeT remaining = remaining + 1 := by
  cases sizeT with
  | bits32 =>
    rcases hfits with hbits | hfits
    · exact absurd hbits nofun
    · simp only [blockedItemsCells, blockedItemsSize, pointerSize, SizeT.count]
      omega
  | bits64 =>
    simp only [blockedItemsCells, blockedItemsSize, pointerSize, SizeT.count]
    omega

/-- Where it is cut there are not enough. -/
theorem blockedItemsCells_le {remaining : ℕ} (hno : ¬12 + 4 * remaining < 2 ^ 32) :
    blockedItemsCells .bits32 remaining ≤ remaining := by
  simp only [blockedItemsCells, blockedItemsSize, pointerSize, SizeT.count]
  omega

/-! ### Room -/

/-- A result waits for some answers, and where it waits for a session and the size of its list is
not cut, has a place for an item with each of them, but for as many as are short. -/
structure Result.Room (sizeT : SizeT) (ret : Result) (short : ℕ) : Prop where
  pos : 0 < ret.remaining
  fits : ret.remaining < 2 ^ 32
  request : ret.session.isSome → ret.remaining ≤ ret.requestPayloadCount
  room : ret.session.isSome → BlockedItemsFit sizeT ret.requestPayloadCount →
    ∀ slots, ret.slots = some slots → ret.items.length + ret.remaining < slots + short

/-- Every result has room, but for one of which nothing is said. -/
def World.RoomBut (exempt : Option ℕ) (w : World) : Prop :=
  ∀ r ret, w.results.get r = some ret → exempt ≠ some r → ret.Room w.sizeT 0

/-- Every result has room, but for one that may be one place short. -/
def World.Short (r : ℕ) (w : World) : Prop :=
  w.RoomBut (some r) ∧ ∀ ret, w.results.get r = some ret → ret.Room w.sizeT 1

namespace Result.Room

variable {sizeT : SizeT} {n : ℕ}

theorem of_sameCounters (h : ret.Room sizeT n) (hsame : ret.SameCounters ret')
    (hrequest : ret.SameRequest ret') : ret'.Room sizeT n := by
  obtain ⟨⟨-, hitems⟩, hremaining, -, -, hslots⟩ := hsame
  obtain ⟨hsession, -, hcount⟩ := hrequest
  obtain ⟨hpos, hfits, hle, hroom⟩ := h
  rw [← hremaining] at hpos hfits
  rw [← hremaining, ← hsession, ← hcount] at hle
  rw [← hremaining, ← hitems, ← hslots, ← hsession, ← hcount] at hroom
  exact ⟨hpos, hfits, hle, hroom⟩

/-- Of a result without a session not much is said. -/
theorem orphan (h : ret.Room sizeT n) : Result.Room sizeT { ret with session := none } n :=
  ⟨h.pos, h.fits, nofun, nofun⟩

theorem short (h : ret.Room sizeT 0) : ret.Room sizeT 1 :=
  ⟨h.pos, h.fits, h.request, fun hsession hfits slots hslots =>
    Nat.lt_succ_of_lt (h.room hsession hfits slots hslots)⟩

/-- A result without a list has room for one. -/
theorem of_blockedItems (hnone : ret.blockedItems = none) (hpos : 0 < ret.remaining)
    (hfits : ret.remaining < 2 ^ 32)
    (hrequest : ret.session.isSome → ret.remaining ≤ ret.requestPayloadCount) :
    ret.Room sizeT n := by
  refine ⟨hpos, hfits, hrequest, fun _ _ slots hslots => ?_⟩
  rw [Result.slots, hnone] at hslots
  cases hslots

end Result.Room

namespace World.RoomBut

variable {exempt : Option ℕ}

/-- A result is written to. -/
theorem setResult (h : w.RoomBut exempt) (hr : w.results.get r = some ret)
    (hroom : exempt ≠ some r → ret'.Room w.sizeT 0) :
    World.RoomBut exempt { w with results := w.results.set r ret' } := by
  intro k q hq hexempt
  have hq : (w.results.set r ret').get k = some q := hq
  rw [Heap.get_set hr] at hq
  split at hq
  · rename_i heq
    obtain rfl := Option.some.inj hq
    exact hroom (heq ▸ hexempt)
  · exact h k q hq hexempt

theorem ignoresWrites : IgnoresWrites (World.RoomBut exempt) where
  malloc _ _ h := h
  setResult _ r ret _ hr hsame hrequest h := h.setResult hr fun hexempt =>
    (h r ret hr hexempt).of_sameCounters hsame hrequest
  publishData _ _ h := h
  events _ _ _ h := h
  sessions _ _ _ _ _ _ _ h := h

theorem ignoresUnsubscribes : IgnoresUnsubscribes (World.RoomBut exempt) where
  malloc _ _ h := h
  subscriptionTable _ _ h := h
  subscriptions _ _ h := h
  referencesPeak _ _ h := h
  itemLinks _ _ h := h
  freeItem _ _ h := h
  events _ _ _ h := h
  sessions _ _ _ _ _ _ h := h

/-- A new result has room. -/
theorem newResult (h : w.RoomBut none) (hnone : ret.blockedItems = none)
    (hpos : 0 < ret.remaining) (hfits : ret.remaining < 2 ^ 32)
    (hrequest : ret.session.isSome → ret.remaining ≤ ret.requestPayloadCount) :
    World.RoomBut none { w with results := w.results.alloc ret } := by
  intro k q hq _
  have hq : (w.results.alloc ret).get k = some q := hq
  rw [Heap.get_alloc] at hq
  split at hq
  · obtain rfl := Option.some.inj hq
    exact .of_blockedItems hnone hpos hfits hrequest
  · exact h k q hq nofun

/-- A result that is exempt is freed. -/
theorem freeResult (h : w.RoomBut (some r)) :
    World.RoomBut none { w with results := w.results.free r } := by
  intro k q hq _
  obtain ⟨hne, hq⟩ := Heap.get_of_get_free hq
  exact h k q hq fun heq => hne (Option.some.inj heq).symm

theorem short (h : w.RoomBut none) (r : ℕ) : w.Short r :=
  ⟨fun k q hq _ => h k q hq nofun, fun q hq => (h r q hq nofun).short⟩

end World.RoomBut

/-- Neither what is sent nor what else is written to results matters. -/
theorem World.Short.ignoresWrites (r : ℕ) : IgnoresWrites (World.Short r) where
  malloc _ _ h := h
  setResult w k ret ret' hk hsame hrequest h := by
    refine ⟨World.RoomBut.ignoresWrites.setResult w k ret ret' hk hsame hrequest h.1,
      fun q hq => ?_⟩
    have hq : (w.results.set k ret').get r = some q := hq
    rw [Heap.get_set hk] at hq
    split at hq
    · rename_i heq
      obtain rfl := Option.some.inj hq
      exact (h.2 ret (heq ▸ hk)).of_sameCounters hsame hrequest
    · exact h.2 q hq
  publishData _ _ h := h
  events _ _ _ h := h
  sessions _ _ _ _ _ _ _ h := h

/-! ### Answers -/

/-- **An answer gives a place back.** -/
theorem World.Short.count (h : w.Short r) (hr : w.results.get r = some ret) {remaining : ℕ}
    (hremaining : (ret.remaining + (2 ^ 32 - 1)) % 2 ^ 32 = remaining) :
    let w' := { w with results := w.results.set r { ret with remaining := remaining } }
    w'.RoomBut (some r) ∧ (remaining ≠ 0 → w'.RoomBut none) := by
  obtain ⟨hpos, hfits, hrequest, hroom⟩ := h.2 ret hr
  rw [decrement_eq hpos hfits] at hremaining
  refine ⟨h.1.setResult hr fun hne => absurd rfl hne, fun hne k q hq _ => ?_⟩
  have hq : (w.results.set r { ret with remaining := remaining }).get k = some q := hq
  rw [Heap.get_set hr] at hq
  split at hq
  · obtain rfl := Option.some.inj hq
    have hlt : remaining < 2 ^ 32 := by omega
    refine ⟨Nat.pos_of_ne_zero hne, hlt, fun hsession => ?_, fun hsession hcount slots hslots => ?_⟩
    · have hle : ret.remaining ≤ ret.requestPayloadCount := hrequest hsession
      show remaining ≤ ret.requestPayloadCount
      omega
    · have hbefore : ret.items.length + ret.remaining < slots + 1 :=
        hroom hsession hcount slots hslots
      show ret.items.length + remaining < slots
      omega
  · rename_i hkr
    exact h.1 k q hq fun heq => hkr (Option.some.inj heq).symm

theorem ensures_releaseResult_room (r : ℕ) :
    Attempt.Ensures (World.Short r) (releaseResult r) (fun _ => World.RoomBut none) Stop.Any := by
  refine .bind (Place.ensures_read trivial) fun ret => ?_
  dsimp only
  generalize hremaining : (ret.remaining + (2 ^ 32 - 1)) % 2 ^ 32 = remaining
  refine .bind (Q := fun _ w => w.RoomBut (some r) ∧ (remaining ≠ 0 → w.RoomBut none))
    (Place.ensures_write trivial ?_) fun _ => .ite (fun hne => .pure fun _ h => h.2 hne) fun _ =>
    .bind ((World.RoomBut.ignoresWrites.sendResult r ret).imp (fun _ h => h.1)
      (fun _ _ h => h) fun _ h => h) fun _ => Place.ensures_free trivial fun w _ h _ => h.freeResult
  rintro w - ⟨hr, h⟩ -
  exact h.count hr hremaining

theorem ensures_releaseDummyUnsubscribeResult_room (r : ℕ) :
    Attempt.Ensures (World.RoomBut none) (releaseDummyUnsubscribeResult r)
      (fun _ => World.RoomBut none) Stop.Any := by
  refine .bind (Place.ensures_read trivial) fun ret => .bind ensures_assert_any fun _ => ?_
  dsimp only
  generalize hremaining : (ret.remaining + (2 ^ 32 - 1)) % 2 ^ 32 = remaining
  refine .bind (Q := fun _ w => w.RoomBut (some r) ∧ (remaining ≠ 0 → w.RoomBut none))
    (Place.ensures_write trivial ?_) fun _ => .ite (fun hne => .pure fun _ h => h.2 hne) fun _ =>
    Place.ensures_free trivial fun w _ h _ => h.1.freeResult
  rintro w - ⟨-, hr, h⟩ -
  exact (h.short r).count hr hremaining

/-- The counter of sub-items does not matter. -/
theorem World.RoomBut.setSubresults (h : w.RoomBut none) (hr : w.results.get r = some ret)
    (remainingSubresults : ℕ) (overlapped : Bool) :
    World.RoomBut none { w with results := w.results.set r { ret with
      remainingSubresults := remainingSubresults, overlapped := overlapped } } :=
  h.setResult hr fun _ =>
    have ⟨hpos, hfits, hrequest, hroom⟩ := h r ret hr nofun
    ⟨hpos, hfits, hrequest, hroom⟩

theorem ensures_releaseResult_roomBut (r : ℕ) :
    Leaves (World.RoomBut none) (releaseResult r) :=
  (ensures_releaseResult_room r).imp (fun _ h => h.short r) (fun _ _ h => h) fun _ h => h

theorem leaves_requestSubresult_room (r count : ℕ) :
    Leaves (World.RoomBut none) (requestSubresult r count) :=
  .bind (World.RoomBut.ignoresWrites.writeResult r _) fun _ => .ite (.read_bind fun _ =>
    Place.ensures_write trivial fun _ _ h _ => h.2.setSubresults h.1 _ _)
    (ensures_releaseResult_roomBut r)

theorem leaves_releaseSubresult_room (r : ℕ) :
    Leaves (World.RoomBut none) (releaseSubresult r) :=
  .read_bind fun _ => .bind (Q := fun _ => World.RoomBut none)
    (Place.ensures_write trivial fun _ _ h _ => h.2.setSubresults h.1 _ _) fun _ =>
    Leaves.ite (.pure _) (ensures_releaseResult_roomBut r)

theorem leaves_requestResult_room {s requestId count : ℕ} (hne : count ≠ 0)
    (hlt : count < 2 ^ 32) : Leaves (World.RoomBut none) (requestResult s requestId count) := by
  have hwrites : IgnoresWrites (World.RoomBut none) := World.RoomBut.ignoresWrites
  refine .bind (.malloc hwrites.malloc) fun _ => .bind (.assert _) fun _ => .ite
    (.bind (.writeBufferInit hwrites.malloc) fun _ => .bind (Place.ensures_new fun w h =>
      h.newResult rfl (Nat.pos_of_ne_zero hne) hlt fun _ => le_rfl) fun _ => ?_) (.pure _)
  exact Leaves.read_bind fun _ => .bind (hwrites.write_sessions s ⟨rfl, rfl⟩ (.of_eq rfl rfl))
    fun _ =>
    .pure fun _ h => h

/-! ### Items -/

/-- The list of blocked items has a place for each answer that is missing. -/
theorem ensures_getBlockedItems_room {P : World → Prop}
    (hmalloc : ∀ w malloc, P w → P { w with malloc := malloc }) {sizeT : SizeT}
    (hsize : ∀ w, P w → w.sizeT = sizeT) (hroom : ret.Room sizeT 0) :
    Attempt.Ensures P (getBlockedItems ret) (fun blocked w =>
      Result.Room sizeT { ret with blockedItems := blocked } 0 ∧ P w) Stop.Any := by
  unfold getBlockedItems
  split
  · rename_i heq
    refine .pure fun w hw => ⟨?_, hw⟩
    rw [← heq]
    exact hroom
  · refine .bind (Leaves.malloc hmalloc) fun ok => .bind ensures_getWorld fun v => ?_
    refine .pure fun w ⟨hv, hw⟩ => ⟨?_, hw⟩
    cases ok with
    | false => exact .of_blockedItems rfl hroom.pos hroom.fits hroom.request
    | true =>
      refine ⟨hroom.pos, hroom.fits, hroom.request, fun hsession hcount slots hslots => ?_⟩
      obtain rfl := Option.some.inj hslots
      have hcells := blockedItemsCells_of_fits hroom.fits (hcount.anti (hroom.request hsession))
      show 0 + ret.remaining < blockedItemsCells v.sizeT ret.remaining
      rw [hv, hsize w hw, hcells]
      omega

theorem leaves_resultGetBlockedPublishItemTarget_room (r : ℕ) :
    Leaves (World.RoomBut none) (resultGetBlockedPublishItemTarget r) := by
  refine .read_bind fun ret => ?_
  intro w₀ hw₀
  suffices hP : Attempt.Ensures (fun w => w.sizeT = w₀.sizeT ∧ w.results.get r = some ret ∧
      w.RoomBut none) _ (fun _ => World.RoomBut none) Stop.Any from hP w₀ ⟨rfl, hw₀⟩
  refine .assume (p := ret.Room w₀.sizeT 0) (fun w h => h.1 ▸ h.2.2 r ret h.2.1 nofun) fun hroom =>
    .bind (ensures_getBlockedItems_room (fun _ _ h => h) (fun _ h => h.1) hroom) fun blocked =>
    .assume (fun _ h => h.1) fun hblocked => .bind (Q := fun _ => World.RoomBut none)
      (Place.ensures_write trivial fun w _ h _ => h.2.2.2.setResult h.2.2.1 fun _ =>
        h.2.1 ▸ hblocked) fun _ => ?_
  cases blocked with
  | none => exact Leaves.pure _
  | some blocked => exact Leaves.ite (.pure _) (.fail _)

/-- **An item takes a place.** -/
theorem ensures_setBlockedPublishItem_short (r id it : ℕ) :
    Attempt.Ensures (World.RoomBut none) (setBlockedPublishItem r id it)
      (fun _ => World.Short r) Stop.Any := by
  refine .bind (Place.ensures_read trivial) fun ret => ?_
  cases hblocked : ret.blockedItems with
  | none => exact .fail trivial
  | some blocked =>
    refine Place.ensures_write trivial ?_
    rintro w - ⟨hr, h⟩ -
    obtain ⟨hbut, -⟩ := h.short r
    refine ⟨hbut.setResult hr fun hne => absurd rfl hne, fun q hq => ?_⟩
    rw [show World.results _ = w.results.set r _ from rfl, Heap.get_set hr, if_pos rfl] at hq
    obtain rfl := Option.some.inj hq
    obtain ⟨hpos, hfits, hrequest, hroom⟩ := h r ret hr nofun
    refine ⟨hpos, hfits, hrequest, fun hsession hcount slots hslots => ?_⟩
    have hbefore := hroom hsession hcount slots (by
      rw [Result.slots, hblocked]
      exact hslots)
    rw [Result.items, hblocked] at hbefore
    show (blocked.items ++ [it]).length + ret.remaining < slots + 1
    rw [List.length_append, List.length_singleton]
    have hbefore : blocked.items.length + ret.remaining < slots := hbefore
    omega

/-- **A subscription that is accepted leaves its result short of one place at most.** -/
theorem ensures_acceptSubscription_short (r s k : ℕ) :
    Attempt.Ensures (World.RoomBut none) (acceptSubscription r s k) (fun _ => World.Short r)
      Stop.Any := by
  have hsubs : IgnoresUnsubscribes (World.RoomBut none) := World.RoomBut.ignoresUnsubscribes
  refine .bind (hsubs.sessionGetNextFreePublishId s) fun id => .bind (Q := fun _ => World.Short r)
    (.ite (fun _ => .pure fun _ h => h.short r) fun _ =>
      .bind (leaves_resultGetBlockedPublishItemTarget_room r) ?_) fun _ => .pure fun _ h => h
  rintro (_ | target)
  · exact .pure fun _ h => h.short r
  refine .bind (hsubs.sessionRequestPublishItem (fun _ _ h => h) s k id) ?_
  rintro (_ | it)
  · exact .pure fun _ h => h.short r
  · exact .bind (ensures_setBlockedPublishItem_short r id it) fun _ => .pure fun _ h => h

theorem ensures_resultAddUnsignedInteger_room (r value : ℕ)
    (diagnosticInfo : Option (Value (List UInt8))) :
    Attempt.Ensures (World.Short r) (resultAddUnsignedInteger r diagnosticInfo value)
      (fun _ => World.RoomBut none) Stop.Any := by
  have hwrites : IgnoresWrites (World.Short r) := World.Short.ignoresWrites r
  refine .bind (Q := fun _ => World.Short r) (.bind Leaves.getWorld fun w => ?_) fun _ =>
    .bind (hwrites.writeResult r _) fun _ => ensures_releaseResult_room r
  cases diagnosticInfo with
  | none => exact hwrites.writeResult r _
  | some value => exact hwrites.writeResult r _

/-- **With the answer the place is given back.** -/
theorem leaves_returnSubscribeInternal_room (r : ℕ) (diagnosticInfo : Option (Value (List UInt8)))
    (k : ℕ) : Leaves (World.RoomBut none) (returnSubscribeInternal r diagnosticInfo k) := by
  rw [returnSubscribeInternal_eq]
  refine .bind (.read _ _) fun ret => ?_
  cases ret.session with
  | none => exact .fail _
  | some s =>
    refine Attempt.Ensures.bind (ensures_acceptSubscription_short r s k) ?_
    rintro ⟨id, _ | it⟩
    · exact .bind (ensures_resultAddUnsignedInteger_room r 0 diagnosticInfo) fun _ => Leaves.pure _
    · exact .bind (ensures_resultAddUnsignedInteger_room r id diagnosticInfo) fun _ =>
        Leaves.bind (.malloc fun _ _ h => h) fun _ => .ite (.bind (.new (fun _ _ h => h) it)
          fun _ => .bind (.modifyWorld fun _ h => h) fun _ => .pure _) (.pure _)

/-- When a session ends, its results keep their room, and the stand-in for it has no list. -/
theorem leaves_closeSession_room (s : ℕ) {σ : Session} (hlt : σ.items.length < 2 ^ 32) :
    Leaves (World.RoomBut none) (closeSession s σ) :=
  .closeSession (fun _ _ h => h) (fun _ r _ ret hr h => h.setResult hr fun hexempt =>
      (h r ret hr hexempt).orphan)
    (fun _ h => h)
    fun _ _ hnone hsession hremaining hne h => h.newResult hnone
      (hremaining ▸ Nat.pos_of_ne_zero hne) (hremaining ▸ hlt)
      fun hsome => absurd (hsession ▸ hsome) nofun

/-! ### In every run -/

/-- Every result has room, whatever is in the hand. -/
abbrev roomy (_ : Multiset Token) (w : World) : Prop := w.RoomBut none

/-- **Every operation leaves room.** -/
theorem conservesRuns_roomy : ConservesRuns anyOwed S (fun _ => World.TablesFit) roomy where
  malloc _ _ _ h _ := h
  retain _ k := (World.RoomBut.ignoresUnsubscribes.retainSubscription k).moves fun _ _ h => h
  release _ k := (World.RoomBut.ignoresUnsubscribes.releaseSubscription k).moves fun _ _ h => h
  write _ r f _ := (World.RoomBut.ignoresWrites.writeResult r f).moves fun _ _ h => h
  answer _ r := (ensures_releaseResult_roomBut r).moves fun _ _ h => h
  announce _ r count _ := Leaves.moves (.bind (.modifyWorld fun _ h => h) fun _ =>
    leaves_requestSubresult_room r count) fun _ _ h => h
  subanswer _ r := (leaves_releaseSubresult_room r).moves fun _ _ h => h
  dummy _ r := Leaves.moves (ensures_releaseDummyUnsubscribeResult_room r) fun _ _ h => h
  owe _ event owed _ := Leaves.moves (.modifyWorld fun _ h => h) fun _ _ h => h
  redeem _ o := Leaves.moves (.modifyWorld fun _ h => h) fun _ _ h => h
  oweAlias _ k := Leaves.moves (.modifyWorld fun _ h => h) fun _ _ h => h
  freeRepublish _ handle := Leaves.moves (.free (fun _ _ h => h) handle) fun _ _ h => h
  publish _ handle item := (World.RoomBut.ignoresWrites.publish handle item).moves fun _ _ h => h
  take _ s := (World.RoomBut.ignoresWrites.sessionOutMessageCreate s).moves fun _ _ h => h
  slots _ s count _ :=
    (World.RoomBut.ignoresWrites.sessionAddFreePublishSlots s count).moves fun _ _ h => h
  subscribe _ r diagnosticInfo k :=
    (leaves_returnSubscribeInternal_room r diagnosticInfo k).moves fun _ _ h => h
  request _ type key :=
    (World.RoomBut.ignoresUnsubscribes.requestSubscription type key).moves fun _ _ h => h
  append _ s messageId requestId payloadCount buffer _ :=
    (World.RoomBut.ignoresWrites.sessionAppendOutMessage s messageId requestId payloadCount buffer
      []).moves fun _ _ h => h
  requestResult _ s requestId count hne hlt := (leaves_requestResult_room hne hlt).moves
    fun _ _ h => h
  unsubscribe _ s id := (World.RoomBut.ignoresUnsubscribes.unsubscribeItem s id).moves
    fun _ _ h => h
  create _ := Leaves.moves (.bind (.malloc fun _ _ h => h) fun _ => .ite (.bind
    (.new (fun _ _ h => h) _) fun _ => .bind (.modifyWorld fun w h => by
      split
      · exact h
      · exact h) fun _ => .pure _) (.pure _)) fun _ _ h => h
  hello _ s σ := Place.ensures_write trivial fun _ _ h _ => h.2.2.1
  close _ s σ := .assume (p := σ.items.length < 2 ^ 32) (fun w h =>
    (Session.length_items_le σ).trans_lt (h.2.1 s σ h.2.2.2)) fun hlt =>
    (leaves_closeSession_room s hlt).imp (fun _ h => h.2.2.1) (fun _ _ h => h) fun _ h => h
  deleteItem _ it := (World.RoomBut.ignoresUnsubscribes.deletePublishItem it).moves fun _ _ h => h

/-- **In every run each result has room for the items that it may still accept**, where the size
for the elements of its request is not cut. -/
theorem room_of_run {app : Application} {sizeT : SizeT} {callbacks : Callback → Bool}
    {malloc : ℕ → Bool} {acts : List Act}
    (hrun : Transition.Run (World.step app) Transition.anyStep
      (World.create sizeT callbacks malloc) acts w) (hr : w.results.get r = some ret) :
    ret.Room w.sizeT 0 := by
  have htables : ConservesRuns anyOwed False anyWorld fun _ => World.TablesFit :=
    conservesItems_tablesFit.conserves.runs
  obtain ⟨-, -, h⟩ := (htables.and (conservesRuns_roomy (S := False))).of_run False.elim
    ⟨nofun, nofun⟩ hrun
  exact h r ret hr nofun

end Wpcp
