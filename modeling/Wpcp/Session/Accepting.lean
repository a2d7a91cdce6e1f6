import Wpcp.Session.Sending
import Wpcp.Session.Traversal

/-!
# Accepting a subscription

`wpcp_return_subscribe_internal` allocates up to three times before it answers: the table of the
session grows when it has no free place, the result gets a list of blocked items with its first
one, and there is the item itself. Where all of these succeed the world after it is known to the
last field (`Wpcp.run_acceptSubscription`), and **an item is accepted in no other way**
(`Wpcp.exists_of_run_acceptSubscription`).
-/

namespace Wpcp

open Cbor (SizeT WriteBuffer)

/-! ### An id -/

/-- The id that `wpcp_session_get_next_free_publish_id` comes to. -/
def Session.nextId (σ : Session) : ℕ :=
  nextFreeId (σ.publishItems.drop σ.nextFreePublishItem) σ.nextFreePublishItem

/-- There is no free place in the table of publish items. -/
def Session.Full (σ : Session) : Prop := ¬σ.nextId < σ.publishItems.length

instance (σ : Session) : Decidable σ.Full := inferInstanceAs (Decidable (¬_))

/-- The session with a free place in its table, which is made longer where it has none. -/
def Session.roomy (σ : Session) : Session :=
  if σ.Full then { σ with publishItems := σ.publishItems ++ List.replicate 16 none } else σ

/-- How often `wpcp_session_get_next_free_publish_id` allocates. -/
def Session.growths (σ : Session) : ℕ := if σ.Full then 1 else 0

/-- The table of a session has a free place, or it can be made longer. -/
def World.Grows (w : World) (σ : Session) : Prop :=
  σ.Full → w.malloc 0 = true ∧ σ.publishItems.length + 16 < 2 ^ 32

/-- The world with some allocations less to come. -/
def World.allocated (w : World) (n : ℕ) : World := { w with malloc := fun m => w.malloc (m + n) }

/-- One allocation. -/
theorem run_malloc_allocated (w : World) :
    malloc.run w = some (.ok (w.malloc 0), w.allocated 1) := rfl

variable {w w' : World} {r s k id : ℕ} {σ : Session} {ret : Result} {sub : Subscription}

/-- **The id is found**, in a table that has been made longer if need be. -/
theorem run_sessionGetNextFreePublishId (hσ : w.sessions.get s = some σ) (hgrows : w.Grows σ) :
    (sessionGetNextFreePublishId s).run w = some (.ok σ.nextId,
      { w.allocated σ.growths with sessions := w.sessions.set s σ.roomy }) := by
  rw [sessionGetNextFreePublishId, Attempt.run_bind_ok (Place.run_read hσ)]
  by_cases hfull : σ.Full
  · obtain ⟨hmalloc, hfits⟩ := hgrows hfull
    rw [Session.growths, Session.roomy, if_pos hfull, if_pos hfull]
    show Attempt.run (ite (σ.nextId < σ.publishItems.length) _ _) w = _
    rw [if_neg hfull, Attempt.run_bind_ok (run_malloc_allocated w), hmalloc, if_pos rfl,
      if_pos hfits,
      Attempt.run_bind_ok (Place.run_write (p := sessions) (w := w.allocated 1) hσ _)]
    rfl
  · rw [Session.growths, Session.roomy, if_neg hfull, if_neg hfull, Heap.set_self hσ]
    show Attempt.run (ite (σ.nextId < σ.publishItems.length) _ _) w = _
    rw [if_pos (not_not.mp hfull)]
    rfl

/-- There is no id where the table cannot be made longer. -/
theorem run_sessionGetNextFreePublishId_failed (hσ : w.sessions.get s = some σ) (hfull : σ.Full)
    (hmalloc : w.malloc 0 = false) :
    (sessionGetNextFreePublishId s).run w = some (.ok 0, w.allocated 1) := by
  rw [sessionGetNextFreePublishId, Attempt.run_bind_ok (Place.run_read hσ)]
  show Attempt.run (ite (σ.nextId < σ.publishItems.length) _ _) w = _
  rw [if_neg hfull, Attempt.run_bind_ok (run_malloc_allocated w), hmalloc]
  rfl

/-- A table that is as long as its length can say is not made longer. -/
theorem run_sessionGetNextFreePublishId_overflow (hσ : w.sessions.get s = some σ)
    (hfull : σ.Full) (hmalloc : w.malloc 0 = true) (hfits : ¬σ.publishItems.length + 16 < 2 ^ 32) :
    (sessionGetNextFreePublishId s).run w = some (.error .dangling, w.allocated 1) := by
  rw [sessionGetNextFreePublishId, Attempt.run_bind_ok (Place.run_read hσ)]
  show Attempt.run (ite (σ.nextId < σ.publishItems.length) _ _) w = _
  rw [if_neg hfull, Attempt.run_bind_ok (run_malloc_allocated w), hmalloc, if_pos rfl, if_neg hfits]
  rfl

/-! ### A place in the result -/

/-- The list of blocked items of a result, or the one it is given. -/
def Result.blockedList (sizeT : SizeT) (ret : Result) : BlockedItemList :=
  ret.blockedItems.getD ⟨[], [], blockedItemsCells sizeT ret.remaining⟩

/-- How often `wpcp_result_get_blocked_publish_item_target` allocates. -/
def Result.allocations (ret : Result) : ℕ := if ret.blockedItems.isNone then 1 else 0

/-- The result has a list of blocked items. -/
def Result.blocking (sizeT : SizeT) (ret : Result) : Result :=
  { ret with blockedItems := some (ret.blockedList sizeT) }

/-- Behind the blocked items there is a place for one more, and for the null pointer. -/
def Result.HasRoom (sizeT : SizeT) (ret : Result) : Prop :=
  (ret.blockedList sizeT).items.length + 1 < (ret.blockedList sizeT).slots

/-- The result has a list of blocked items, or it can be allocated. -/
def World.Blocks (w : World) (n : ℕ) (ret : Result) : Prop :=
  ret.blockedItems = none → w.malloc n = true

@[simp] theorem Result.entries_blocking (sizeT : SizeT) (ret : Result) :
    (ret.blocking sizeT).entries = ret.entries := by
  rw [Result.entries, Result.entries, Result.blocking, Result.blockedList]
  cases ret.blockedItems with
  | none => rfl
  | some blocked => rfl

@[simp] theorem Result.items_blocking (sizeT : SizeT) (ret : Result) :
    (ret.blocking sizeT).items = ret.items := by
  rw [Result.items, Result.items, Result.blocking, Result.blockedList]
  cases ret.blockedItems with
  | none => rfl
  | some blocked => rfl

/-- The list of blocked items is there, or allocated. -/
theorem run_getBlockedItems (hblocks : w.Blocks 0 ret) :
    (getBlockedItems ret).run w =
      some (.ok (some (ret.blockedList w.sizeT)), w.allocated ret.allocations) := by
  rw [getBlockedItems, Result.allocations, Result.blockedList]
  cases hblocked : ret.blockedItems with
  | none =>
    show Attempt.run (malloc >>= _) w = _
    rw [Attempt.run_bind_ok (run_malloc_allocated w), hblocks hblocked]
    rfl
  | some blocked => rfl

/-- **The place for the item is found**, in a list that is allocated if need be. -/
theorem run_resultGetBlockedPublishItemTarget (hr : w.results.get r = some ret)
    (hblocks : w.Blocks 0 ret) (hroom : ret.HasRoom w.sizeT) :
    (resultGetBlockedPublishItemTarget r).run w =
      some (.ok (some (ret.blockedList w.sizeT).items.length),
      { w.allocated ret.allocations with results := w.results.set r (ret.blocking w.sizeT) }) := by
  rw [resultGetBlockedPublishItemTarget, Attempt.run_bind_ok (Place.run_read hr),
    Attempt.run_bind_ok (run_getBlockedItems hblocks), Attempt.run_bind_ok
      (Place.run_write (p := results)
      (w := w.allocated ret.allocations) hr _)]
  have hroom : (ret.blockedList w.sizeT).items.length + 1 < (ret.blockedList w.sizeT).slots := hroom
  dsimp only
  rw [if_pos hroom]
  rfl

/-- A list without room fails its assertion. -/
theorem run_resultGetBlockedPublishItemTarget_crowded (hr : w.results.get r = some ret)
    (hblocks : w.Blocks 0 ret) (hroom : ¬ret.HasRoom w.sizeT) :
    (resultGetBlockedPublishItemTarget r).run w = some (.error .dangling,
      { w.allocated ret.allocations with results := w.results.set r (ret.blocking w.sizeT) }) := by
  rw [resultGetBlockedPublishItemTarget, Attempt.run_bind_ok (Place.run_read hr),
    Attempt.run_bind_ok (run_getBlockedItems hblocks), Attempt.run_bind_ok (Place.run_write
      (p := results) (w := w.allocated ret.allocations) hr _)]
  have hroom : ¬(ret.blockedList w.sizeT).items.length + 1 < (ret.blockedList w.sizeT).slots :=
    hroom
  dsimp only
  rw [if_neg hroom]
  rfl

/-- There is no place where the list cannot be allocated. -/
theorem run_resultGetBlockedPublishItemTarget_failed (hr : w.results.get r = some ret)
    (hnone : ret.blockedItems = none) (hmalloc : w.malloc 0 = false) :
    (resultGetBlockedPublishItemTarget r).run w = some (.ok none, w.allocated 1) := by
  have hget : (getBlockedItems ret).run w = some (.ok none, w.allocated 1) := by
    rw [getBlockedItems, hnone]
    show Attempt.run (malloc >>= _) w = _
    rw [Attempt.run_bind_ok (run_malloc_allocated w), hmalloc]
    rfl
  have hsame : (w.allocated 1).results.set r { ret with blockedItems := none } = w.results := by
    rw [← hnone]
    exact Heap.set_self hr
  rw [resultGetBlockedPublishItemTarget, Attempt.run_bind_ok (Place.run_read hr),
    Attempt.run_bind_ok hget, Attempt.run_bind_ok (Place.run_write (p := results)
      (w := w.allocated 1) hr _)]
  show some (Except.ok none, World.mk ..) = _
  rw [hsame]
  rfl

/-! ### An item -/

/-- The subscription with one more item. -/
def Subscription.withItem (sub : Subscription) (it : ℕ) : Subscription :=
  { sub with publishHandle := ⟨sub.publishHandle.length + 1, it :: sub.publishHandle.items⟩ }

/-- The session with an item under an id. -/
def Session.withItem (σ : Session) (id it : ℕ) : Session :=
  { σ with publishItems := σ.publishItems.set id (some it), nextFreePublishItem := id + 1 }

/-- The result that has accepted one more item. -/
def Result.accepting (sizeT : SizeT) (ret : Result) (id it : ℕ) : Result :=
  { ret with
    blockedItems := some { ret.blockedList sizeT with
      items := (ret.blockedList sizeT).items ++ [it] }
    granted := ret.granted ++ [(id, it)] }

/-- **An item is allocated**, put into the list of its subscription, and registered. -/
theorem run_sessionRequestPublishItem (id : ℕ) (hsub : w.subscriptions.get k = some sub)
    (hσ : w.sessions.get s = some σ) (hmalloc : w.malloc 0 = true) :
    (sessionRequestPublishItem s k id).run w = some (.ok (some w.publishItems.next),
      { w.allocated 1 with
        publishItems := w.publishItems.alloc ⟨k, s, id⟩
        subscriptions := w.subscriptions.set k (sub.withItem w.publishItems.next)
        itemLinks := w.itemLinks.insert k w.publishItems.next
        sessions := w.sessions.set s (σ.withItem id w.publishItems.next) }) := by
  let w₁ : World := { w.allocated 1 with publishItems := w.publishItems.alloc ⟨k, s, id⟩ }
  let w₂ : World := { w₁ with
    subscriptions := w.subscriptions.set k (sub.withItem w.publishItems.next) }
  let w₃ : World := { w₂ with itemLinks := w.itemLinks.insert k w.publishItems.next }
  rw [sessionRequestPublishItem, Attempt.run_bind_ok (run_malloc_allocated w), hmalloc, if_pos rfl,
    Attempt.run_bind_ok (a := w.publishItems.next) (t := w₁) rfl,
    Attempt.run_bind_ok (Place.run_read (p := subscriptions) (w := w₁) hsub),
    Attempt.run_bind_ok (Place.run_write (p := subscriptions) (w := w₁) hsub _),
    Attempt.run_bind_ok (a := ()) (t := w₃) rfl,
    Attempt.run_bind_ok (Place.run_read (p := sessions) (w := w₃) hσ),
    Attempt.run_bind_ok (Place.run_write (p := sessions) (w := w₃) hσ _)]
  rfl

/-- Where there is no item, the subscription is released. -/
theorem run_sessionRequestPublishItem_failed (id : ℕ) (hmalloc : w.malloc 0 = false)
    (hrelease : (releaseSubscription k).run (w.allocated 1) = some (.ok (), w')) :
    (sessionRequestPublishItem s k id).run w = some (.ok none, w') := by
  rw [sessionRequestPublishItem, Attempt.run_bind_ok (run_malloc_allocated w), hmalloc]
  show Attempt.run (releaseSubscription k >>= _) (w.allocated 1) = _
  rw [Attempt.run_bind_ok hrelease]
  rfl

/-! ### The three together -/

/-- How often is allocated before the item. -/
def mallocsBeforeItem (σ : Session) (ret : Result) : ℕ := σ.growths + ret.allocations

/-- An id and a place have been found for an item. -/
def World.prepared (w : World) (r s : ℕ) (σ : Session) (ret : Result) : World :=
  { w.allocated (mallocsBeforeItem σ ret) with
    sessions := w.sessions.set s σ.roomy
    results := w.results.set r (ret.blocking w.sizeT) }

/-- A result of a session has accepted an item for a subscription. -/
def World.accepted (w : World) (r s k : ℕ) (σ : Session) (ret : Result) (sub : Subscription) :
    World :=
  { w.allocated (mallocsBeforeItem σ ret + 1) with
    publishItems := w.publishItems.alloc ⟨k, s, σ.nextId⟩
    subscriptions := w.subscriptions.set k (sub.withItem w.publishItems.next)
    itemLinks := w.itemLinks.insert k w.publishItems.next
    sessions := w.sessions.set s (σ.roomy.withItem σ.nextId w.publishItems.next)
    results := w.results.set r (ret.accepting w.sizeT σ.nextId w.publishItems.next) }

/-- The allocations for the place follow those for the id. -/
theorem prepared_eq (w : World) (r s : ℕ) (σ : Session) (ret : Result) :
    ({ World.allocated { w.allocated σ.growths with sessions := w.sessions.set s σ.roomy }
        ret.allocations with results := w.results.set r (ret.blocking w.sizeT) } : World) =
      w.prepared r s σ ret := by
  show World.mk .. = World.mk ..
  congr 1
  funext n
  show w.malloc (n + ret.allocations + σ.growths) = w.malloc (n + (σ.growths + ret.allocations))
  congr 1
  omega

/-- The id and the place are found before the item is allocated. -/
theorem run_acceptSubscription_prepared (hσ : w.sessions.get s = some σ)
    (hr : w.results.get r = some ret) (hid : σ.nextId ≠ 0) (hgrows : w.Grows σ)
    (hblocks : w.Blocks σ.growths ret) (hroom : ret.HasRoom w.sizeT) :
    (acceptSubscription r s k).run w = ((sessionRequestPublishItem s k σ.nextId >>= fun item =>
      item.elim (pure (σ.nextId, none)) fun it =>
        setBlockedPublishItem r σ.nextId it >>= fun _ => pure (σ.nextId, some it)).run
          (w.prepared r s σ ret)) := by
  let w₁ : World := { w.allocated σ.growths with sessions := w.sessions.set s σ.roomy }
  have hblocks₁ : w₁.Blocks 0 ret := by
    intro hnone
    show w.malloc (0 + σ.growths) = true
    rw [Nat.zero_add]
    exact hblocks hnone
  have htarget := (run_resultGetBlockedPublishItemTarget (w := w₁) hr hblocks₁ hroom).trans
    (congrArg (fun t => some (_, t)) (prepared_eq w r s σ ret))
  rw [acceptSubscription, Attempt.run_bind_ok (run_sessionGetNextFreePublishId hσ hgrows)]
  show Attempt.run (requestBlockedPublishItem r s k σ.nextId >>= _) w₁ = _
  rw [requestBlockedPublishItem, if_neg hid, Attempt.bind_assoc, Attempt.run_bind_ok htarget]
  simp only [Attempt.bind_assoc]
  congr 2
  funext item
  cases item with
  | none => rfl
  | some it => simp only [Attempt.bind_assoc]; rfl

/-- **A subscription is accepted** where all allocations succeed. -/
theorem run_acceptSubscription (hσ : w.sessions.get s = some σ) (hr : w.results.get r = some ret)
    (hsub : w.subscriptions.get k = some sub) (hid : σ.nextId ≠ 0) (hgrows : w.Grows σ)
    (hblocks : w.Blocks σ.growths ret) (hroom : ret.HasRoom w.sizeT)
    (hitem : w.malloc (mallocsBeforeItem σ ret) = true) :
    (acceptSubscription r s k).run w =
      some (.ok (σ.nextId, some w.publishItems.next), w.accepted r s k σ ret sub) := by
  let it := w.publishItems.next
  have hσ₁ : (w.prepared r s σ ret).sessions.get s = some σ.roomy :=
    (Heap.get_set hσ _ s).trans (if_pos rfl)
  have hrequest := run_sessionRequestPublishItem (w := w.prepared r s σ ret) (k := k) σ.nextId hsub
    hσ₁ (by
      show w.malloc (0 + mallocsBeforeItem σ ret) = true
      rw [Nat.zero_add]
      exact hitem)
  -- the world in which the item is noted in the result
  let w₁ : World := { (w.prepared r s σ ret).allocated 1 with
    publishItems := w.publishItems.alloc ⟨k, s, σ.nextId⟩
    subscriptions := w.subscriptions.set k (sub.withItem it)
    itemLinks := w.itemLinks.insert k it
    sessions := (w.sessions.set s σ.roomy).set s (σ.roomy.withItem σ.nextId it) }
  have hr₁ : w₁.results.get r = some (ret.blocking w.sizeT) :=
    (Heap.get_set hr _ r).trans (if_pos rfl)
  have hset : (setBlockedPublishItem r σ.nextId it).run w₁ = some (.ok (), { w₁ with
      results := (w.results.set r (ret.blocking w.sizeT)).set r
        (ret.accepting w.sizeT σ.nextId it) }) := by
    rw [setBlockedPublishItem, Attempt.run_bind_ok (Place.run_read hr₁)]
    exact Place.run_write hr₁ _
  have haccepted : { w₁ with
      results := (w.results.set r (ret.blocking w.sizeT)).set r
        (ret.accepting w.sizeT σ.nextId it) } =
        w.accepted r s k σ ret sub := by
    show World.mk .. = World.mk ..
    rw [Heap.set_set, show w₁.sessions = _ from Heap.set_set _ _ _ _]
    congr 1
    funext n
    show w.malloc (n + 1 + mallocsBeforeItem σ ret) = w.malloc (n + (mallocsBeforeItem σ ret + 1))
    congr 1
    omega
  rw [run_acceptSubscription_prepared hσ hr hid hgrows hblocks hroom, Attempt.run_bind_ok hrequest]
  show Attempt.run (setBlockedPublishItem r σ.nextId it >>= _) w₁ = _
  rw [Attempt.run_bind_ok hset, haccepted]
  rfl

/-- Nothing is accepted where the table cannot be made longer. -/
theorem run_acceptSubscription_full (hσ : w.sessions.get s = some σ) (hfull : σ.Full)
    (hmalloc : w.malloc 0 = false) :
    (acceptSubscription r s k).run w = some (.ok (0, none), w.allocated 1) := by
  rw [acceptSubscription,
    Attempt.run_bind_ok (run_sessionGetNextFreePublishId_failed hσ hfull hmalloc)]
  rfl

/-- Nothing is accepted where the list of blocked items cannot be allocated. -/
theorem run_acceptSubscription_unblocked (hσ : w.sessions.get s = some σ)
    (hr : w.results.get r = some ret) (hid : σ.nextId ≠ 0) (hgrows : w.Grows σ)
    (hnone : ret.blockedItems = none) (hmalloc : w.malloc σ.growths = false) :
    (acceptSubscription r s k).run w = some (.ok (σ.nextId, none),
      { w.allocated (σ.growths + 1) with sessions := w.sessions.set s σ.roomy }) := by
  let w₁ : World := { w.allocated σ.growths with sessions := w.sessions.set s σ.roomy }
  have htarget := run_resultGetBlockedPublishItemTarget_failed (w := w₁) hr hnone (by
    show w.malloc (0 + σ.growths) = false
    rw [Nat.zero_add]
    exact hmalloc)
  have hsame : w₁.allocated 1 =
      { w.allocated (σ.growths + 1) with sessions := w.sessions.set s σ.roomy } := by
    show World.mk .. = World.mk ..
    congr 1
    funext n
    show w.malloc (n + 1 + σ.growths) = w.malloc (n + (σ.growths + 1))
    congr 1
    omega
  rw [acceptSubscription, Attempt.run_bind_ok (run_sessionGetNextFreePublishId hσ hgrows)]
  show Attempt.run (requestBlockedPublishItem r s k σ.nextId >>= _) w₁ = _
  rw [requestBlockedPublishItem, if_neg hid, Attempt.bind_assoc, Attempt.run_bind_ok htarget, hsame]
  rfl

/-- A list of blocked items without room fails its assertion. -/
theorem run_acceptSubscription_crowded (hσ : w.sessions.get s = some σ)
    (hr : w.results.get r = some ret) (hid : σ.nextId ≠ 0) (hgrows : w.Grows σ)
    (hblocks : w.Blocks σ.growths ret) (hroom : ¬ret.HasRoom w.sizeT) :
    (acceptSubscription r s k).run w = some (.error .dangling, w.prepared r s σ ret) := by
  let w₁ : World := { w.allocated σ.growths with sessions := w.sessions.set s σ.roomy }
  have hblocks₁ : w₁.Blocks 0 ret := by
    intro hnone
    show w.malloc (0 + σ.growths) = true
    rw [Nat.zero_add]
    exact hblocks hnone
  have htarget := (run_resultGetBlockedPublishItemTarget_crowded (w := w₁) hr hblocks₁
    hroom).trans (congrArg (fun t => some (_, t)) (prepared_eq w r s σ ret))
  rw [acceptSubscription, Attempt.run_bind_ok (run_sessionGetNextFreePublishId hσ hgrows)]
  show Attempt.run (requestBlockedPublishItem r s k σ.nextId >>= _) w₁ = _
  rw [requestBlockedPublishItem, if_neg hid, Attempt.bind_assoc, Attempt.run_bind_error htarget]

/-- **The subscription is released** where the item cannot be allocated. -/
theorem run_acceptSubscription_failed (hσ : w.sessions.get s = some σ)
    (hr : w.results.get r = some ret) (hid : σ.nextId ≠ 0) (hgrows : w.Grows σ)
    (hblocks : w.Blocks σ.growths ret) (hroom : ret.HasRoom w.sizeT)
    (hitem : w.malloc (mallocsBeforeItem σ ret) = false)
    (hrelease : (releaseSubscription k).run ((w.prepared r s σ ret).allocated 1) =
      some (.ok (), w')) :
    (acceptSubscription r s k).run w = some (.ok (σ.nextId, none), w') := by
  have hrequest := run_sessionRequestPublishItem_failed (s := s) σ.nextId
    (by
      show w.malloc (0 + mallocsBeforeItem σ ret) = false
      rw [Nat.zero_add]
      exact hitem) hrelease
  rw [run_acceptSubscription_prepared hσ hr hid hgrows hblocks hroom, Attempt.run_bind_ok hrequest]
  rfl

/-- **An item is accepted in no other way.** -/
theorem exists_of_run_acceptSubscription {it : ℕ}
    (h : (acceptSubscription r s k).run w = some (.ok (id, some it), w')) :
    ∃ σ ret sub, w.sessions.get s = some σ ∧ w.results.get r = some ret ∧
      w.subscriptions.get k = some sub ∧ id = σ.nextId ∧ it = w.publishItems.next ∧
      w.Grows σ ∧ w.Blocks σ.growths ret ∧ ret.HasRoom w.sizeT ∧
      w' = w.accepted r s k σ ret sub := by
  rcases hσ : w.sessions.get s with _ | σ
  · rw [acceptSubscription, sessionGetNextFreePublishId, Attempt.bind_assoc,
      Attempt.run_bind_error (Place.run_read_none hσ)] at h
    exact absurd h nofun
  by_cases hgrows : w.Grows σ
  rotate_left
  · -- there is no id, or the call does not return
    rw [World.Grows, Classical.not_imp, not_and_or] at hgrows
    obtain ⟨hfull, hmalloc | hfits⟩ := hgrows
    · rw [run_acceptSubscription_full hσ hfull (by simpa using hmalloc)] at h
      exact absurd h nofun
    · rcases hmalloc : w.malloc 0
      · rw [run_acceptSubscription_full hσ hfull hmalloc] at h
        exact absurd h nofun
      · rw [acceptSubscription, Attempt.run_bind_error
          (run_sessionGetNextFreePublishId_overflow hσ hfull hmalloc hfits)] at h
        exact absurd h nofun
  by_cases hid : σ.nextId = 0
  · rw [acceptSubscription, Attempt.run_bind_ok (run_sessionGetNextFreePublishId hσ hgrows),
      hid] at h
    exact absurd h nofun
  rcases hr : w.results.get r with _ | ret
  · rw [acceptSubscription, Attempt.run_bind_ok (run_sessionGetNextFreePublishId hσ hgrows),
      requestBlockedPublishItem, if_neg hid, resultGetBlockedPublishItemTarget, Attempt.bind_assoc,
      Attempt.bind_assoc, Attempt.run_bind_error (Place.run_read_none hr)] at h
    exact absurd h nofun
  by_cases hblocks : w.Blocks σ.growths ret
  rotate_left
  · obtain ⟨hnone, hmalloc⟩ := Classical.not_imp.mp hblocks
    rw [run_acceptSubscription_unblocked hσ hr hid hgrows hnone (by simpa using hmalloc)] at h
    exact absurd h nofun
  by_cases hroom : ret.HasRoom w.sizeT
  rotate_left
  · rw [run_acceptSubscription_crowded hσ hr hid hgrows hblocks hroom] at h
    exact absurd h nofun
  rcases hitem : w.malloc (mallocsBeforeItem σ ret)
  · -- the subscription is released, if the call returns
    rw [run_acceptSubscription_prepared hσ hr hid hgrows hblocks hroom] at h
    obtain ⟨e, t, -, heq⟩ | ⟨o, t, hrequest, h⟩ := Attempt.run_bind_eq_some.mp h
    · exact absurd heq nofun
    have hmalloc : (w.prepared r s σ ret).malloc 0 = false := by
      show w.malloc (0 + mallocsBeforeItem σ ret) = false
      rw [Nat.zero_add, hitem]
    rw [sessionRequestPublishItem, Attempt.run_bind_ok (run_malloc_allocated _), hmalloc]
      at hrequest
    obtain ⟨e, u, -, heq⟩ | ⟨_, u, -, hpure⟩ := Attempt.run_bind_eq_some.mp hrequest
    · exact absurd heq nofun
    obtain rfl := Except.ok.inj (Prod.mk.inj (Option.some.inj hpure)).1
    exact absurd h nofun
  rcases hsub : w.subscriptions.get k with _ | sub
  · rw [run_acceptSubscription_prepared hσ hr hid hgrows hblocks hroom] at h
    have hmalloc : (w.prepared r s σ ret).malloc 0 = true := by
      show w.malloc (0 + mallocsBeforeItem σ ret) = true
      rw [Nat.zero_add, hitem]
    let w₁ : World := { (w.prepared r s σ ret).allocated 1 with
      publishItems := w.publishItems.alloc ⟨k, s, σ.nextId⟩ }
    have hread := Place.run_read_none (p := subscriptions) (w := w₁) hsub
    rw [sessionRequestPublishItem, Attempt.bind_assoc, Attempt.run_bind_ok (run_malloc_allocated _),
      hmalloc, if_pos rfl, Attempt.bind_assoc,
      Attempt.run_bind_ok (a := w.publishItems.next) (t := w₁) rfl, Attempt.bind_assoc,
      Attempt.run_bind_error hread] at h
    exact absurd h nofun
  rw [run_acceptSubscription hσ hr hsub hid hgrows hblocks hroom hitem] at h
  obtain ⟨hok, rfl⟩ := Prod.mk.inj (Option.some.inj h)
  obtain ⟨rfl, hit⟩ := Prod.mk.inj (Except.ok.inj hok)
  exact ⟨σ, ret, sub, rfl, rfl, rfl, rfl, (Option.some.inj hit).symm, hgrows, hblocks, hroom, rfl⟩

end Wpcp
