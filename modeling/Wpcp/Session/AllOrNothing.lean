import Wpcp.Session.Accepting
import Wpcp.Session.Orphaned
import Wpcp.Session.Room

/-!
# All or nothing

`wpcp_return_subscribe_internal` is to accept a subscription altogether, or not at all: what the
client is told, what the application is given, the table of the session, the list of the
subscription and its reference count have to agree (`Wpcp.AllOrNothing`). Of the four allocations
that may fail on the way only the one for the item is cleaned up after, and the list of blocked
items is too short where its size was cut. **The call is all or nothing exactly where none of the
others fails that comes to be made and the list has a place**
(`Wpcp.allOrNothing_iff_failsCleanly`).
-/

namespace Wpcp

open Cbor (Value WriteBuffer SizeT)

/-! ### What the call is to do -/

/-- The item is in the table of the session, under the id. -/
def World.RegisteredAs (w : World) (s id it : ℕ) : Prop :=
  ∃ σ, w.sessions.get s = some σ ∧ σ.publishItems[id]? = some (some it)

/-- **What has been written to a result**: it is in the buffer of the result, or in the RESULT
that its session has been given to send. -/
def World.Tells (w : World) (r s : ℕ) (buffer : WriteBuffer) : Prop :=
  (∃ ret, w.results.get r = some ret ∧ ret.outputBuffer = buffer) ∨
    (w.results.get r = none ∧ ∃ (σ : Session) (ret : Result) (ok : Bool),
      w.sessions.get s = some (σ.completed r ret ok) ∧ ret.outputBuffer = buffer)

/-- An id has been written to a result, behind the diagnostic. -/
def World.TellsId (w w' : World) (r s : ℕ) (diagnosticInfo : Option (Value (List UInt8)))
    (id : ℕ) : Prop :=
  ∃ ret buffer, w.results.get r = some ret ∧
    withDiagnosticInfo w.sizeT diagnosticInfo ret.outputBuffer = some buffer ∧
    w'.Tells r s (buffer.writeUnsignedInteger id)

/-- **A subscription is accepted**: an id is written that was not in use, and one item is
registered under it, which has the reference. -/
structure World.Accepts (w w' : World) (r s k : ℕ)
    (diagnosticInfo : Option (Value (List UInt8))) (id : ℕ) : Prop where
  ne : id ≠ 0
  tells : w.TellsId w' r s diagnosticInfo id
  unused : ∀ it, ¬w.RegisteredAs s id it
  registered : ∀ id' it, w'.RegisteredAs s id' it ↔
    w.RegisteredAs s id' it ∨ id' = id ∧ it = w.publishItems.next
  item : w'.publishItems.get w.publishItems.next = some ⟨k, s, id⟩
  handle : ∀ sub, w.subscriptions.get k = some sub →
    w'.subscriptions.get k = some (sub.withItem w.publishItems.next)

/-- **A subscription is not accepted**: 0 is written, there is no new item, neither in the table
nor in the list of the subscription, and the reference is released. -/
structure World.Refuses (w w' : World) (r s k : ℕ)
    (diagnosticInfo : Option (Value (List UInt8))) : Prop where
  tells : w.TellsId w' r s diagnosticInfo 0
  registered : ∀ id it, w'.RegisteredAs s id it ↔ w.RegisteredAs s id it
  items : w'.publishItems = w.publishItems
  handle : ∀ sub sub', w.subscriptions.get k = some sub → w'.subscriptions.get k = some sub' →
    sub'.publishHandle = sub.publishHandle
  released : ∀ sub, w.subscriptions.get k = some sub →
    (w'.subscriptions.get k).elim 0 Subscription.referenceCount =
      (sub.referenceCount + (2 ^ 32 - 1)) % 2 ^ 32

/-- **The call is all or nothing.** -/
def AllOrNothing (w : World) (r s k : ℕ) (diagnosticInfo : Option (Value (List UInt8))) : Prop :=
  ∃ w', ((returnSubscribeInternal r diagnosticInfo k).run w = some (.ok true, w') ∧
      ∃ id, w.Accepts w' r s k diagnosticInfo id) ∨
    ((returnSubscribeInternal r diagnosticInfo k).run w = some (.ok false, w') ∧
      w.Refuses w' r s k diagnosticInfo)

/-- How often is allocated before what `republish.ex_cb` is given: the RESULT is sent with the
last answer. -/
def mallocsBeforeRepublish (σ : Session) (ret : Result) : ℕ :=
  mallocsBeforeItem σ ret + 1 + if ret.remaining = 1 then 1 else 0

/-- **No allocation fails but the one for the item**, of those that come to be made, and the list
of blocked items has a place. -/
structure World.FailsCleanly (w : World) (σ : Session) (ret : Result) : Prop where
  grows : w.Grows σ
  blocks : w.Blocks σ.growths ret
  room : ret.HasRoom w.sizeT
  republishes : w.malloc (mallocsBeforeItem σ ret) = true →
    w.malloc (mallocsBeforeRepublish σ ret) = true

/-! ### The answer -/

section Answer

variable {w : World} {r s k : ℕ} {σ : Session} {ret : Result}
  {diagnosticInfo : Option (Value (List UInt8))} {buffer : WriteBuffer}

/-- A session has the same items in its table. -/
theorem World.registeredAs_set {σ' : Session} (hσ : w.sessions.get s = some σ)
    (htable : ∀ id it : ℕ,
      σ'.publishItems[id]? = some (some it) ↔ σ.publishItems[id]? = some (some it))
    {w' : World} (hsessions : w'.sessions = w.sessions.set s σ') (id it : ℕ) :
    w'.RegisteredAs s id it ↔ w.RegisteredAs s id it := by
  rw [RegisteredAs, RegisteredAs, hsessions, Heap.get_set hσ, if_pos rfl, hσ]
  constructor
  · rintro ⟨τ, hτ, hit⟩
    obtain rfl := Option.some.inj hτ
    exact ⟨σ, rfl, (htable id it).mp hit⟩
  · rintro ⟨τ, hτ, hit⟩
    obtain rfl := Option.some.inj hτ
    exact ⟨σ', rfl, (htable id it).mpr hit⟩

/-- What an answer leaves as it was, and what it tells. -/
structure World.AnsweredWith (w w' : World) (r s : ℕ) (buffer : WriteBuffer) (mallocs : ℕ) :
    Prop where
  tells : w'.Tells r s buffer
  registered : ∀ id it, w'.RegisteredAs s id it ↔ w.RegisteredAs s id it
  items : w'.publishItems = w.publishItems
  subscriptions : w'.subscriptions = w.subscriptions
  malloc : ∀ n, w'.malloc n = w.malloc (n + mallocs)

/-- **A number is the answer**, and with the last answer the RESULT is sent. -/
theorem exists_resultAddUnsignedInteger (hr : w.results.get r = some ret)
    (hs : ret.session = some s) (hσ : w.sessions.get s = some σ) (hpos : 0 < ret.remaining)
    (hfits : ret.remaining < 2 ^ 32)
    (hbuffer : withDiagnosticInfo w.sizeT diagnosticInfo ret.outputBuffer = some buffer)
    (value : ℕ) :
    ∃ w', (resultAddUnsignedInteger r diagnosticInfo value).run w = some (.ok (), w') ∧
      w.AnsweredWith w' r s (buffer.writeUnsignedInteger value)
        (if ret.remaining = 1 then 1 else 0) := by
  let ret₁ : Result := { ret with outputBuffer := buffer.writeUnsignedInteger value }
  let w₁ : World := { w with results := w.results.set r ret₁ }
  have hr₁ : w₁.results.get r = some ret₁ := (Heap.get_set hr ret₁ r).trans (if_pos rfl)
  have hleft := decrement_eq hpos hfits
  rw [run_resultAddUnsignedInteger value hr hbuffer]
  by_cases hlast : ret.remaining = 1
  · have hzero : (ret.remaining + (2 ^ 32 - 1)) % 2 ^ 32 = 0 := by omega
    have htable : (σ.completed r ret₁ (w.malloc 0)).publishItems = σ.publishItems := by
      rw [Session.completed]
      cases ret₁.entries with
      | nil => rfl
      | cons first rest => rfl
    rw [if_pos hlast]
    refine ⟨_, run_releaseResult_complete (w := w₁) hr₁ hs hσ hzero, Or.inr ⟨?_, σ, ret₁,
      w.malloc 0, ?_, rfl⟩, fun id it => ?_, rfl, rfl, fun n => rfl⟩
    · exact (Heap.get_free _ _ _).trans (if_pos rfl)
    · exact (Heap.get_set hσ _ s).trans (if_pos rfl)
    · exact World.registeredAs_set hσ (fun _ _ => by rw [htable]) rfl id it
  · have hmore : (ret.remaining + (2 ^ 32 - 1)) % 2 ^ 32 ≠ 0 := by omega
    rw [if_neg hlast]
    refine ⟨_, run_releaseResult_pending (w := w₁) hr₁ hmore, Or.inl ⟨_,
      (Heap.get_set hr₁ _ r).trans (if_pos rfl), rfl⟩, fun id it => Iff.rfl, rfl, rfl, fun n => rfl⟩

end Answer

/-! ### The table -/

section Table

variable {σ : Session}

/-- A longer table has the same items. -/
theorem Session.publishItems_roomy (σ : Session) (id it : ℕ) :
    σ.roomy.publishItems[id]? = some (some it) ↔ σ.publishItems[id]? = some (some it) := by
  unfold Session.roomy
  split
  · show (σ.publishItems ++ List.replicate 16 none)[id]? = _ ↔ _
    rcases Nat.lt_or_ge id σ.publishItems.length with hlt | hge
    · rw [List.getElem?_append_left hlt]
    · rw [List.getElem?_append_right hge, List.getElem?_replicate, List.getElem?_eq_none hge]
      split
      · exact iff_of_false (by simp) (by simp)
      · exact Iff.rfl
  · exact Iff.rfl

/-- The place with the next id is free. -/
theorem Session.publishItems_nextId (hnext : σ.nextFreePublishItem ≤ σ.publishItems.length + 1) :
    σ.roomy.publishItems[σ.nextId]? = some none := by
  have hfree : (σ.publishItems ++ List.replicate 16 none)[σ.nextId]? = some none :=
    nextFreeId_table hnext
  unfold Session.roomy
  split
  · exact hfree
  · rename_i hroom
    rwa [List.getElem?_append_left (not_not.mp hroom)] at hfree

/-- **The new item is registered, and no other.** -/
theorem Session.publishItems_withItem (hnext : σ.nextFreePublishItem ≤ σ.publishItems.length + 1)
    (id it new : ℕ) :
    (σ.roomy.withItem σ.nextId new).publishItems[id]? = some (some it) ↔
      σ.publishItems[id]? = some (some it) ∨ id = σ.nextId ∧ it = new := by
  have hfree := Session.publishItems_nextId hnext
  have hlt : σ.nextId < σ.roomy.publishItems.length := (List.getElem?_eq_some_iff.mp hfree).1
  show (σ.roomy.publishItems.set σ.nextId (some new))[id]? = _ ↔ _
  rw [← σ.publishItems_roomy id it]
  rcases eq_or_ne σ.nextId id with rfl | hne
  · rw [List.getElem?_set_self hlt, hfree]
    constructor
    · intro heq
      exact Or.inr ⟨rfl, (Option.some.inj (Option.some.inj heq)).symm⟩
    · rintro (heq | ⟨-, rfl⟩)
      · cases heq
      · rfl
  · rw [List.getElem?_set_ne hne]
    exact (or_iff_left fun h => hne h.1.symm).symm

end Table

/-! ### One call -/

section Call

variable {w w₁ : World} {r s k : ℕ} {σ : Session} {ret : Result} {sub : Subscription}
  {diagnosticInfo : Option (Value (List UInt8))} {buffer : WriteBuffer} {o : ℕ × Option ℕ}

/-- What is answered is what has been accepted. -/
theorem run_returnSubscribeInternal (hr : w.results.get r = some ret) (hs : ret.session = some s)
    (haccept : (acceptSubscription r s k).run w = some (.ok o, w₁)) :
    (returnSubscribeInternal r diagnosticInfo k).run w =
      (answerSubscription r diagnosticInfo k o).run w₁ := by
  rw [returnSubscribeInternal_eq, Attempt.run_bind_ok (Place.run_read hr), hs, Option.elim_some,
    Attempt.run_bind_ok haccept]

/-- **Where nothing has been accepted, 0 is the answer.** -/
theorem exists_answerSubscription_none {id : ℕ} (hr : w₁.results.get r = some ret)
    (hs : ret.session = some s) (hσ : w₁.sessions.get s = some σ) (hpos : 0 < ret.remaining)
    (hfits : ret.remaining < 2 ^ 32)
    (hbuffer : withDiagnosticInfo w₁.sizeT diagnosticInfo ret.outputBuffer = some buffer) :
    ∃ w', (answerSubscription r diagnosticInfo k (id, none)).run w₁ = some (.ok false, w') ∧
      w₁.AnsweredWith w' r s (buffer.writeUnsignedInteger 0)
        (if ret.remaining = 1 then 1 else 0) := by
  obtain ⟨w', hrun, hanswered⟩ := exists_resultAddUnsignedInteger hr hs hσ hpos hfits hbuffer 0
  refine ⟨w', ?_, hanswered⟩
  rw [answerSubscription, Attempt.run_bind_ok hrun]
  rfl

/-- **Where an item has been accepted, its id is the answer**, and the call succeeds if one more
allocation does. -/
theorem exists_answerSubscription_some {id it : ℕ} (hr : w₁.results.get r = some ret)
    (hs : ret.session = some s) (hσ : w₁.sessions.get s = some σ) (hpos : 0 < ret.remaining)
    (hfits : ret.remaining < 2 ^ 32)
    (hbuffer : withDiagnosticInfo w₁.sizeT diagnosticInfo ret.outputBuffer = some buffer) :
    ∃ w', (answerSubscription r diagnosticInfo k (id, some it)).run w₁ =
        some (.ok (w₁.malloc (if ret.remaining = 1 then 1 else 0)), w') ∧
      w'.Tells r s (buffer.writeUnsignedInteger id) ∧
      (∀ id it, w'.RegisteredAs s id it ↔ w₁.RegisteredAs s id it) ∧
      w'.publishItems = w₁.publishItems ∧ w'.subscriptions = w₁.subscriptions := by
  obtain ⟨w₂, hrun, htells, hregistered, hitems, hsubs, hmalloc⟩ :=
    exists_resultAddUnsignedInteger hr hs hσ hpos hfits hbuffer id
  have hmalloc₀ : w₂.malloc 0 = w₁.malloc (if ret.remaining = 1 then 1 else 0) := by
    rw [hmalloc, Nat.zero_add]
  rw [answerSubscription, Attempt.run_bind_ok hrun, Attempt.run_bind_ok (run_malloc_allocated w₂),
    ← hmalloc₀]
  rcases w₂.malloc 0 with _ | _
  · exact ⟨w₂.allocated 1, rfl, htells, hregistered, hitems, hsubs⟩
  · exact ⟨_, rfl, htells, hregistered, hitems, hsubs⟩

/-- What is known of the state in which a subscription is accepted. -/
structure World.Answerable (w : World) (r s k : ℕ) (σ : Session) (ret : Result)
    (sub : Subscription) (diagnosticInfo : Option (Value (List UInt8))) (buffer : WriteBuffer) :
    Prop where
  session : w.sessions.get s = some σ
  result : w.results.get r = some ret
  waits : ret.session = some s
  subscription : w.subscriptions.get k = some sub
  pos : 0 < ret.remaining
  fits : ret.remaining < 2 ^ 32
  ids : σ.IdsFromOne
  next : σ.nextFreePublishItem ≤ σ.publishItems.length + 1
  sorted : ∃ keys, w.Sorted keys
  buffer : withDiagnosticInfo w.sizeT diagnosticInfo ret.outputBuffer = some buffer

/-- **A call that ends is all or nothing** if it is one of the two. -/
theorem allOrNothing_iff_of_run {w' : World} {ok : Bool}
    (hrun : (returnSubscribeInternal r diagnosticInfo k).run w = some (.ok ok, w')) :
    AllOrNothing w r s k diagnosticInfo ↔
      (ok = true ∧ ∃ id, w.Accepts w' r s k diagnosticInfo id) ∨
        (ok = false ∧ w.Refuses w' r s k diagnosticInfo) := by
  constructor
  · rintro ⟨t, ⟨ht, haccepts⟩ | ⟨ht, hrefuses⟩⟩
    · obtain ⟨heq, rfl⟩ := Prod.mk.inj (Option.some.inj (hrun.symm.trans ht))
      exact Or.inl ⟨Except.ok.inj heq, haccepts⟩
    · obtain ⟨heq, rfl⟩ := Prod.mk.inj (Option.some.inj (hrun.symm.trans ht))
      exact Or.inr ⟨Except.ok.inj heq, hrefuses⟩
  · rintro (⟨rfl, haccepts⟩ | ⟨rfl, hrefuses⟩)
    · exact ⟨w', Or.inl ⟨hrun, haccepts⟩⟩
    · exact ⟨w', Or.inr ⟨hrun, hrefuses⟩⟩

namespace World.Answerable

variable (h : w.Answerable r s k σ ret sub diagnosticInfo buffer)
include h

theorem nextId_ne : σ.nextId ≠ 0 := by
  have hfirst := h.ids.next
  have hle : σ.nextFreePublishItem ≤ σ.nextId := le_nextFreeId _ _
  omega

/-- **A call that fails and keeps the subscription** is neither. -/
theorem not_allOrNothing_of_kept {id : ℕ}
    (haccept : (acceptSubscription r s k).run w = some (.ok (id, none), w₁))
    (hr₁ : w₁.results.get r = some ret) {σ₁ : Session} (hσ₁ : w₁.sessions.get s = some σ₁)
    (hsize : w₁.sizeT = w.sizeT) (hsubs : w₁.subscriptions = w.subscriptions) :
    ¬AllOrNothing w r s k diagnosticInfo := by
  obtain ⟨w', hanswer, hanswered⟩ := @exists_answerSubscription_none _ _ _ k _ _ _ _ id hr₁
    h.waits hσ₁ h.pos h.fits (hsize ▸ h.buffer)
  rw [allOrNothing_iff_of_run ((run_returnSubscribeInternal h.result h.waits haccept).trans
    hanswer)]
  rintro (⟨heq, -⟩ | ⟨-, hrefuses⟩)
  · exact absurd heq nofun
  · -- the count of the subscription would have to change
    have hcount := hrefuses.released sub h.subscription
    rw [hanswered.subscriptions, hsubs, h.subscription, Option.elim_some] at hcount
    omega

omit h in
/-- **A call that does not return** is neither. -/
theorem not_allOrNothing_of_error {e : Stop} (hr : w.results.get r = some ret)
    (hs : ret.session = some s) (haccept : (acceptSubscription r s k).run w = some (.error e, w₁)) :
    ¬AllOrNothing w r s k diagnosticInfo := by
  have hrun : (returnSubscribeInternal r diagnosticInfo k).run w = some (.error e, w₁) := by
    rw [returnSubscribeInternal_eq, Attempt.run_bind_ok (Place.run_read hr), hs, Option.elim_some,
      Attempt.run_bind_error haccept]
  rintro ⟨t, ⟨ht, -⟩ | ⟨ht, -⟩⟩
  · exact absurd (hrun.symm.trans ht) (by simp)
  · exact absurd (hrun.symm.trans ht) (by simp)

/-- An id that cannot be found. -/
theorem not_allOrNothing_of_not_grows (hgrows : ¬w.Grows σ) :
    ¬AllOrNothing w r s k diagnosticInfo := by
  rw [World.Grows, Classical.not_imp] at hgrows
  obtain ⟨hfull, hfails⟩ := hgrows
  rcases hmalloc : w.malloc 0 with _ | _
  · exact h.not_allOrNothing_of_kept (run_acceptSubscription_full h.session hfull hmalloc) h.result
      h.session rfl rfl
  · -- the table would be too long
    have hfits : ¬σ.publishItems.length + 16 < 2 ^ 32 := fun hlt => hfails ⟨hmalloc, hlt⟩
    have haccept : (acceptSubscription r s k).run w = some (.error .dangling, w.allocated 1) := by
      rw [acceptSubscription, Attempt.run_bind_error
        (run_sessionGetNextFreePublishId_overflow h.session hfull hmalloc hfits)]
    exact not_allOrNothing_of_error h.result h.waits haccept

/-- A list of blocked items that cannot be allocated. -/
theorem not_allOrNothing_of_not_blocks (hgrows : w.Grows σ) (hblocks : ¬w.Blocks σ.growths ret) :
    ¬AllOrNothing w r s k diagnosticInfo := by
  obtain ⟨hnone, hmalloc⟩ := Classical.not_imp.mp hblocks
  exact h.not_allOrNothing_of_kept (run_acceptSubscription_unblocked h.session h.result h.nextId_ne
    hgrows hnone (by simpa using hmalloc)) h.result ((Heap.get_set h.session _ s).trans
      (if_pos rfl))
    rfl rfl

/-- A list of blocked items without a place for one more. -/
theorem not_allOrNothing_of_not_room (hgrows : w.Grows σ) (hblocks : w.Blocks σ.growths ret)
    (hroom : ¬ret.HasRoom w.sizeT) : ¬AllOrNothing w r s k diagnosticInfo :=
  not_allOrNothing_of_error h.result h.waits
    (run_acceptSubscription_crowded h.session h.result h.nextId_ne hgrows hblocks hroom)

/-- **An item that cannot be allocated is cleaned up after.** -/
theorem allOrNothing_of_not_item (hgrows : w.Grows σ) (hblocks : w.Blocks σ.growths ret)
    (hroom : ret.HasRoom w.sizeT) (hitem : w.malloc (mallocsBeforeItem σ ret) = false) :
    AllOrNothing w r s k diagnosticInfo := by
  obtain ⟨keys, hsorted⟩ := h.sorted
  let w₀ : World := (w.prepared r s σ ret).allocated 1
  have hsorted₀ : w₀.Sorted keys := hsorted.congr rfl fun _ => rfl
  obtain ⟨subs, table, malloc, hrelease, hcount, hhandle⟩ :=
    hsorted₀.exists_releaseSubscription h.subscription
  have haccept := run_acceptSubscription_failed h.session h.result h.nextId_ne hgrows hblocks hroom
    hitem hrelease
  have hr₁ : w₀.results.get r = some (ret.blocking w.sizeT) :=
    (Heap.get_set h.result _ r).trans (if_pos rfl)
  have hσ₁ : w₀.sessions.get s = some σ.roomy := (Heap.get_set h.session _ s).trans (if_pos rfl)
  obtain ⟨w', hanswer, htells, hregistered, hitems, hsubs, -⟩ := @exists_answerSubscription_none
    { w₀ with subscriptions := subs, subscriptionTable := table, malloc := malloc }
    _ _ k _ _ _ _ σ.nextId hr₁ h.waits hσ₁ h.pos h.fits h.buffer
  rw [allOrNothing_iff_of_run ((run_returnSubscribeInternal h.result h.waits haccept).trans
    hanswer)]
  refine Or.inr ⟨rfl, ⟨⟨ret, buffer, h.result, h.buffer, htells⟩, fun id it => ?_, hitems,
    fun sub' sub₁ hsub hsub₁ => ?_, fun sub' hsub => ?_⟩⟩
  · rw [hregistered]
    exact World.registeredAs_set h.session σ.publishItems_roomy rfl id it
  · obtain rfl := Option.some.inj (h.subscription.symm.trans hsub)
    have hsubs : w'.subscriptions = subs := hsubs
    rw [hsubs] at hsub₁
    exact hhandle sub₁ hsub₁
  · obtain rfl := Option.some.inj (h.subscription.symm.trans hsub)
    rw [hsubs]
    exact hcount

/-- **With the item the rest depends on the last allocation.** -/
theorem allOrNothing_iff_of_item (hgrows : w.Grows σ) (hblocks : w.Blocks σ.growths ret)
    (hroom : ret.HasRoom w.sizeT) (hitem : w.malloc (mallocsBeforeItem σ ret) = true) :
    AllOrNothing w r s k diagnosticInfo ↔ w.malloc (mallocsBeforeRepublish σ ret) = true := by
  let it := w.publishItems.next
  let w₁ : World := w.accepted r s k σ ret sub
  have haccept := run_acceptSubscription h.session h.result h.subscription h.nextId_ne
    hgrows hblocks
    hroom hitem
  have hr₁ : w₁.results.get r = some (ret.accepting w.sizeT σ.nextId it) :=
    (Heap.get_set h.result _ r).trans (if_pos rfl)
  have hσ₁ : w₁.sessions.get s = some (σ.roomy.withItem σ.nextId it) :=
    (Heap.get_set h.session _ s).trans (if_pos rfl)
  obtain ⟨w', hanswer, htells, hregistered, hitems, hsubs⟩ := @exists_answerSubscription_some
    w₁ _ _ k _ _ _ _ σ.nextId it hr₁ h.waits hσ₁ h.pos h.fits h.buffer
  have hmalloc : w₁.malloc (if ret.remaining = 1 then 1 else 0) =
      w.malloc (mallocsBeforeRepublish σ ret) := by
    show w.malloc ((if ret.remaining = 1 then 1 else 0) + (mallocsBeforeItem σ ret + 1)) = _
    rw [mallocsBeforeRepublish, Nat.add_comm]
  have hnew : w₁.publishItems.get it = some ⟨k, s, σ.nextId⟩ :=
    (Heap.get_alloc _ _ _).trans (if_pos rfl)
  rw [allOrNothing_iff_of_run ((run_returnSubscribeInternal h.result h.waits haccept).trans
    hanswer)]
  show (w₁.malloc (if ret.remaining = 1 then 1 else 0) = true ∧ _) ∨ _ ↔ _
  rw [hmalloc]
  constructor
  · rintro (⟨hok, -⟩ | ⟨-, hrefuses⟩)
    · exact hok
    · -- there is a new item
      have hnone : w.publishItems.get it = none := w.publishItems.fresh it (Nat.le_refl it)
      rw [← hrefuses.items, hitems, hnew] at hnone
      exact absurd hnone nofun
  · intro hok
    refine Or.inl ⟨hok, σ.nextId, h.nextId_ne, ⟨ret, buffer, h.result, h.buffer, htells⟩, ?_, ?_,
      hitems ▸ hnew, fun sub' hsub => ?_⟩
    · rintro it' ⟨τ, hτ, hentry⟩
      obtain rfl := Option.some.inj (h.session.symm.trans hτ)
      have hfree := Session.publishItems_nextId h.next
      rw [(σ.publishItems_roomy σ.nextId it').mpr hentry] at hfree
      exact absurd (Option.some.inj hfree) nofun
    · intro id it'
      rw [hregistered]
      constructor
      · rintro ⟨τ, hτ, hentry⟩
        obtain rfl := Option.some.inj (hσ₁.symm.trans hτ)
        rcases (Session.publishItems_withItem h.next id it' it).mp hentry with hold | hnew
        · exact Or.inl ⟨σ, h.session, hold⟩
        · exact Or.inr hnew
      · intro hor
        refine ⟨_, hσ₁, (Session.publishItems_withItem h.next id it' it).mpr ?_⟩
        rcases hor with ⟨τ, hτ, hentry⟩ | hnew
        · obtain rfl := Option.some.inj (h.session.symm.trans hτ)
          exact Or.inl hentry
        · exact Or.inr hnew
    · obtain rfl := Option.some.inj (h.subscription.symm.trans hsub)
      rw [hsubs]
      exact (Heap.get_set h.subscription _ k).trans (if_pos rfl)

/-- **One call is all or nothing exactly where no allocation fails but the one for the item**, and
there is a place for it. -/
theorem allOrNothing_iff : AllOrNothing w r s k diagnosticInfo ↔ w.FailsCleanly σ ret := by
  by_cases hgrows : w.Grows σ
  rotate_left
  · exact iff_of_false (h.not_allOrNothing_of_not_grows hgrows) fun hclean => hgrows hclean.grows
  by_cases hblocks : w.Blocks σ.growths ret
  rotate_left
  · exact iff_of_false (h.not_allOrNothing_of_not_blocks hgrows hblocks) fun hclean =>
      hblocks hclean.blocks
  by_cases hroom : ret.HasRoom w.sizeT
  rotate_left
  · exact iff_of_false (h.not_allOrNothing_of_not_room hgrows hblocks hroom) fun hclean =>
      hroom hclean.room
  rcases hitem : w.malloc (mallocsBeforeItem σ ret) with _ | _
  · refine iff_of_true (h.allOrNothing_of_not_item hgrows hblocks hroom hitem)
      ⟨hgrows, hblocks, hroom, ?_⟩
    rw [hitem]
    exact nofun
  · rw [h.allOrNothing_iff_of_item hgrows hblocks hroom hitem]
    exact ⟨fun hok => ⟨hgrows, hblocks, hroom, fun _ => hok⟩,
      fun hclean => hclean.republishes hitem⟩

end World.Answerable

end Call

/-! ### In every run -/

/-- A result that has room has a place for one more item. -/
theorem Result.Room.hasRoom {sizeT : SizeT} {ret : Result} (h : ret.Room sizeT 0)
    (hsession : ret.session.isSome) (hfits : BlockedItemsFit sizeT ret.requestPayloadCount) :
    ret.HasRoom sizeT := by
  have hpos := h.pos
  rw [Result.HasRoom, Result.blockedList]
  rcases hblocked : ret.blockedItems with _ | blocked
  · have hcells := blockedItemsCells_of_fits h.fits (hfits.anti (h.request hsession))
    show 0 + 1 < blockedItemsCells sizeT ret.remaining
    omega
  · have hroom := h.room hsession hfits blocked.slots (by rw [Result.slots, hblocked]; rfl)
    rw [Result.items, hblocked] at hroom
    have hroom : blocked.items.length + ret.remaining < blocked.slots := hroom
    show blocked.items.length + 1 < blocked.slots
    omega

/-- What can be written is written behind what is there. -/
theorem exists_withDiagnosticInfo {sizeT : SizeT} {diagnosticInfo : Option (Value (List UInt8))}
    (hencodes : EncodableDiagnosticInfo sizeT diagnosticInfo) (buffer : WriteBuffer) :
    ∃ buffer', withDiagnosticInfo sizeT diagnosticInfo buffer = some buffer' := by
  rcases diagnosticInfo with _ | value
  · exact ⟨_, rfl⟩
  · exact Option.isSome_iff_exists.mp (hencodes value rfl buffer)

section Run

variable {app : Application} {sizeT : SizeT} {callbacks : Callback → Bool} {malloc : ℕ → Bool}
  {acts : List Act} {w : World} {r s k : ℕ} {σ : Session} {ret : Result}
  {diagnosticInfo : Option (Value (List UInt8))}

/-- In every run this is known of a result of a session and a subscription. -/
theorem exists_answerable_of_run (hrun : Transition.Run (World.step app) Transition.anyStep
      (World.create sizeT callbacks malloc) acts w) (hσ : w.sessions.get s = some σ)
    (hr : w.results.get r = some ret) (hs : ret.session = some s)
    (hsub : (w.subscriptions.get k).isSome)
    (hencodes : EncodableDiagnosticInfo w.sizeT diagnosticInfo) :
    ∃ sub buffer, w.Answerable r s k σ ret sub diagnosticInfo buffer := by
  have hroom := room_of_run hrun hr
  have hinv : w.Inv False none none := inv_of_run False.elim hrun
  have hbalance : w.Balanced False (owedTokens w.owed) := balanced_of_run False.elim hrun
  obtain ⟨sub, hsub⟩ := Option.isSome_iff_exists.mp hsub
  obtain ⟨buffer, hbuffer⟩ := exists_withDiagnosticInfo hencodes ret.outputBuffer
  exact ⟨sub, buffer, { session := hσ, result := hr, waits := hs, subscription := hsub
                        pos := hroom.pos, fits := hroom.fits
                        ids := idsFromOne_of_run hrun s σ hσ
                        next := (hinv.session s σ hσ).nextFree
                        sorted := hbalance.sorted, buffer := hbuffer }⟩

/-- A diagnostic that is not given can be written. -/
theorem encodableDiagnosticInfo_none (sizeT : SizeT) : EncodableDiagnosticInfo sizeT none :=
  fun _ h => absurd h (Option.not_mem_none _)

/-- **Accepting a subscription is all or nothing exactly where no allocation fails but the one for
the item and the list of blocked items has a place**: at every state of every run, for every result
of a session and every subscription, whatever allocations fail. The list has a place unless its
size for the elements of the request is cut. -/
theorem allOrNothing_iff_failsCleanly (hrun : Transition.Run (World.step app) Transition.anyStep
      (World.create sizeT callbacks malloc) acts w) (hσ : w.sessions.get s = some σ)
    (hr : w.results.get r = some ret) (hs : ret.session = some s)
    (hsub : (w.subscriptions.get k).isSome)
    (hencodes : EncodableDiagnosticInfo w.sizeT diagnosticInfo) :
    (AllOrNothing w r s k diagnosticInfo ↔ w.FailsCleanly σ ret) ∧
      (BlockedItemsFit w.sizeT ret.requestPayloadCount → ret.HasRoom w.sizeT) := by
  obtain ⟨sub, buffer, h⟩ := exists_answerable_of_run hrun hσ hr hs hsub hencodes
  exact ⟨h.allOrNothing_iff, (room_of_run hrun hr).hasRoom (by rw [hs]; rfl)⟩

end Run

/-- A client subscribes to a key, and one of the allocations fails. -/
def subscribeFailing (n : ℕ) : Option World :=
  Transition.execute (World.step silent) Transition.anyStep
    (World.create .bits64 subscriptionCallbacks fun m => decide (m ≠ n))
    [.sessionCreate, hello, subscribe 4 1]

/-- With the allocation of the item failing, the subscription is refused altogether. -/
theorem allOrNothing_itemFails : ∃ w, subscribeFailing 92 = some w ∧
    AllOrNothing w 0 0 0 none := by
  have hcheck : (subscribeFailing 92).any (fun w => (w.sessions.get 0).any fun σ =>
      (w.results.get 0).any fun ret => decide (ret.session = some 0 ∧
        (w.subscriptions.get 0).isSome ∧ w.malloc 0 = true ∧ σ.publishItems.length + 16 < 2 ^ 32 ∧
        w.malloc σ.growths = true ∧ w.malloc (mallocsBeforeItem σ ret) = false ∧
        w.sizeT = .bits64)) = true := by
    decide +kernel
  obtain ⟨w, hw, hsessions⟩ := (Option.any_eq_true _ _).mp hcheck
  obtain ⟨σ, hσ, hresults⟩ := (Option.any_eq_true _ _).mp hsessions
  obtain ⟨ret, hr, hfacts⟩ := (Option.any_eq_true _ _).mp hresults
  obtain ⟨hs, hsub, hgrow, hfits, hblock, hitem, hbits⟩ := of_decide_eq_true hfacts
  obtain ⟨hiff, hroom⟩ := allOrNothing_iff_failsCleanly (Transition.run_of_execute hw) hσ hr hs hsub
    (encodableDiagnosticInfo_none _)
  refine ⟨w, hw, hiff.mpr ⟨fun _ => ⟨hgrow, hfits⟩, fun _ => hblock, hroom (Or.inl hbits), ?_⟩⟩
  rw [hitem]
  exact nofun

/-- **With the table that cannot be made longer the subscription is lost**: the client is told 0,
and the reference is kept. -/
theorem not_allOrNothing : ¬∀ (app : Application) (sizeT : SizeT) (callbacks : Callback → Bool)
    (malloc : ℕ → Bool) (acts : List Act) (w : World),
    Transition.Run (World.step app) Transition.anyStep (World.create sizeT callbacks malloc)
      acts w → ∀ (r s k : ℕ) (σ : Session) (ret : Result)
      (diagnosticInfo : Option (Value (List UInt8))), w.sessions.get s = some σ →
      w.results.get r = some ret → ret.session = some s → (w.subscriptions.get k).isSome →
      EncodableDiagnosticInfo w.sizeT diagnosticInfo → AllOrNothing w r s k diagnosticInfo := by
  have hcheck : (subscribeFailing 60).any (fun w => (w.sessions.get 0).any fun σ =>
      (w.results.get 0).any fun ret => decide (ret.session = some 0 ∧
        (w.subscriptions.get 0).isSome ∧ σ.Full ∧ w.malloc 0 = false)) = true := by
    decide +kernel
  obtain ⟨w, hw, hsessions⟩ := (Option.any_eq_true _ _).mp hcheck
  obtain ⟨σ, hσ, hresults⟩ := (Option.any_eq_true _ _).mp hsessions
  obtain ⟨ret, hr, hfacts⟩ := (Option.any_eq_true _ _).mp hresults
  obtain ⟨hs, hsub, hfull, hmalloc⟩ := of_decide_eq_true hfacts
  have hrun := Transition.run_of_execute hw
  obtain ⟨sub, buffer, h⟩ := exists_answerable_of_run hrun hσ hr hs hsub
    (encodableDiagnosticInfo_none w.sizeT)
  intro hall
  refine h.not_allOrNothing_of_not_grows (fun hgrows => ?_)
    (hall _ _ _ _ _ w hrun 0 0 0 σ ret none hσ hr hs hsub (encodableDiagnosticInfo_none _))
  exact absurd (hmalloc.symm.trans (hgrows hfull).1) nofun

end Wpcp
