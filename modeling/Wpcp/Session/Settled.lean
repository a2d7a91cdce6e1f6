import Wpcp.Session.ApplicationCalls

/-!
# Publish items that stay

While the application makes calls no publish item is released, and no session is created or
deleted: the functions that the calls are made of are *settled* (`Wpcp.Settled`). Only
messages and the deletion of a session do more.
-/

namespace Wpcp

open Cbor (Value WriteBuffer)

variable {α β : Type}

/-- The failures of an operation do not matter. -/
abbrev Stop.Any (_ : Stop) : Prop := True

/-- What follows an assertion may use it. -/
theorem ensures_assert_any {P : World → Prop} {c : Prop} [Decidable c] :
    Attempt.Ensures P (assert c) (fun _ w => c ∧ P w) Stop.Any :=
  .ite (fun h => .pure fun _ hw => ⟨h, hw⟩) fun _ => .fail trivial

/-- The publish items are still there, and the same sessions. -/
structure World.Later (w₀ w : World) : Prop where
  items : ∀ it i, w₀.publishItems.get it = some i → w.publishItems.get it = some i
  sessions : ∀ s, (w.sessions.get s).isSome = (w₀.sessions.get s).isSome

theorem World.Later.refl (w : World) : w.Later w := ⟨fun _ _ h => h, fun _ => rfl⟩

theorem framed_later (w₀ : World) : Framed w₀.Later := by
  rintro w w' hf ⟨hitems, hsessions⟩
  refine ⟨fun it i h => ?_, fun s => ?_⟩
  · rw [hf.publishItems]
    exact hitems it i h
  · rw [hf.sessions]
    exact hsessions s

/-- The item is there, and so is its session. -/
def World.IsRegistered (w : World) (it : ℕ) : Prop :=
  ∃ i σ, w.publishItems.get it = some i ∧ w.sessions.get i.session = some σ

/-- A call that neither releases a publish item nor creates or deletes a session. -/
def Settled (m : Calls α) : Prop :=
  ∀ w₀ : World, Attempt.Ensures w₀.Later m (fun _ => w₀.Later) Stop.Any

theorem Inert.settled {m : Calls α} (h : Inert m) : Settled m := fun w₀ =>
  (h.keeps (framed_later w₀)).imp (fun _ h => h) (fun _ _ h => h) fun _ _ => trivial

namespace Settled

theorem bind {m : Calls α} {f : α → Calls β} (hm : Settled m) (hf : ∀ a, Settled (f a)) :
    Settled (m >>= f) :=
  fun w₀ => .bind (hm w₀) fun a => hf a w₀

theorem pure (a : α) : Settled (Pure.pure a : Calls α) := fun _ => .pure fun _ h => h

theorem fail (e : Stop) : Settled (Attempt.fail e : Calls α) := fun _ => .fail trivial

theorem ite {c : Prop} [Decidable c] {m m' : Calls α} (h : Settled m) (h' : Settled m') :
    Settled (if c then m else m') := by
  split
  · exact h
  · exact h'

theorem assert (c : Prop) [Decidable c] : Settled (assert c) := .ite (.pure _) (.fail _)

theorem read (p : Place α) (r : ℕ) : Settled (p.read r) := (Inert.read p r).settled

theorem write_sessions (s : ℕ) (σ : Session) : Settled (sessions.write s σ) := by
  refine fun w₀ => Place.ensures_write trivial ?_
  rintro w τ ⟨hitems, hsessions⟩ -
  exact ⟨hitems, fun k => (w.sessions.isSome_get_set s k σ).trans (hsessions k)⟩

theorem write_results (r : ℕ) (ret : Result) : Settled (results.write r ret) := fun _ =>
  Place.ensures_write trivial fun _ _ h _ => ⟨h.items, h.sessions⟩

theorem free_results (r : ℕ) : Settled (results.free r) := fun _ =>
  Place.ensures_free trivial fun _ _ h _ => ⟨h.items, h.sessions⟩

theorem write_subscriptions (k : ℕ) (s : Subscription) : Settled (subscriptions.write k s) :=
  fun _ => Place.ensures_write trivial fun _ _ h _ => ⟨h.items, h.sessions⟩

theorem new_publishItems (i : PublishItem) : Settled (publishItems.new i) := fun _ =>
  Place.ensures_new fun _ h => ⟨fun it j hj => Heap.get_alloc_of_get (h.items it j hj), h.sessions⟩

/-- **A publish item that is registered stays registered.** -/
theorem keeps_isRegistered {m : Calls α} (h : Settled m) (it : ℕ) :
    Attempt.Ensures (fun w => w.IsRegistered it) m (fun _ w => w.IsRegistered it) Stop.Any := by
  rintro w ⟨i, σ, hi, hσ⟩ r t hrun
  refine ⟨fun a ha => ?_, fun _ _ => trivial⟩
  have hlater := (h w w (World.Later.refl w) r t hrun).1 a ha
  have hsome := hlater.sessions i.session
  rw [hσ, Option.isSome_some] at hsome
  obtain ⟨τ, hτ⟩ := Option.isSome_iff_exists.mp hsome
  exact ⟨i, τ, hlater.items it i hi, hτ⟩

/-- A session that is there stays there. -/
theorem keeps_alive {m : Calls α} (h : Settled m) (s : ℕ) :
    Attempt.Ensures (fun w => (w.sessions.get s).isSome) m
      (fun _ w => (w.sessions.get s).isSome) Stop.Any := by
  intro w hs r t hrun
  exact ⟨fun a ha => (((h w w (World.Later.refl w) r t hrun).1 a ha).sessions s).trans hs,
    fun _ _ => trivial⟩

end Settled

/-! ### Output and results -/

theorem settled_sessionAppendOutMessage (s : ℕ) (messageId : MessageId)
    (requestId payloadCount : ℕ) (buffer : WriteBuffer) (granted : List (ℕ × ℕ)) :
    Settled (sessionAppendOutMessage s messageId requestId payloadCount buffer granted) :=
  .bind Inert.malloc.settled fun _ => .bind (.read _ _) fun _ => .write_sessions _ _

theorem settled_sessionPublishQueueAppend (s : ℕ) (first : Entry) (rest : List Entry) :
    Settled (sessionPublishQueueAppend s first rest) :=
  .bind (.read _ _) fun _ => .write_sessions _ _

theorem settled_sendResult (r : ℕ) (ret : Result) : Settled (sendResult r ret) := by
  unfold sendResult
  split
  · refine .bind (.read _ _) fun σ => .bind (.write_sessions _ _) fun _ =>
      .bind (settled_sessionAppendOutMessage _ _ _ _ _ _) fun _ => ?_
    split
    · exact settled_sessionPublishQueueAppend _ _ _
    · exact .pure _
  · split
    · exact (inert_publishQueueItemsDeref _).settled
    · exact .pure _

theorem settled_releaseResult (r : ℕ) : Settled (releaseResult r) :=
  .bind (.read _ _) fun ret => .bind (.write_results _ _) fun _ =>
    .ite (.pure _) (.bind (settled_sendResult r ret) fun _ => .free_results _)

theorem settled_writeResult (r : ℕ) (f : WriteBuffer → Option WriteBuffer) :
    Settled (writeResult r f) := by
  refine .bind (.read _ _) fun ret => ?_
  split
  · exact .write_results _ _
  · exact .fail _

theorem settled_resultAddUnsignedInteger (r : ℕ) (diagnosticInfo : Option (Value (List UInt8)))
    (value : ℕ) : Settled (resultAddUnsignedInteger r diagnosticInfo value) := by
  refine .bind (.bind Inert.getWorld.settled fun w => ?_) fun _ =>
    .bind (settled_writeResult _ _) fun _ => settled_releaseResult r
  split
  · exact settled_writeResult _ _
  · exact settled_writeResult _ _

theorem settled_requestSubresult (r count : ℕ) : Settled (requestSubresult r count) :=
  .bind (settled_writeResult _ _) fun _ => .ite (.bind (.read _ _) fun _ => .write_results _ _)
    (settled_releaseResult r)

theorem settled_releaseSubresult (r : ℕ) : Settled (releaseSubresult r) :=
  .bind (.read _ _) fun _ => .bind (.write_results _ _) fun _ => .ite (.pure _)
    (settled_releaseResult r)

theorem settled_releaseDummyUnsubscribeResult (r : ℕ) :
    Settled (releaseDummyUnsubscribeResult r) :=
  .bind (.read _ _) fun _ => .bind (.assert _) fun _ => .bind (.write_results _ _) fun _ =>
    .ite (.pure _) (.free_results _)

/-! ### Publishing -/

theorem settled_sessionAddPublishQueueItem (it : ℕ) (entry : Entry) :
    Settled (sessionAddPublishQueueItem it entry) := by
  refine .bind (.bind (.read _ _) fun i => .bind (.read _ _) fun σ =>
    .bind Inert.getWorld.settled fun w => .pure _) ?_
  rintro (_ | result)
  · exact .bind (.read _ _) fun i => settled_sessionPublishQueueAppend _ _ _
  · refine .bind (.read _ _) fun ret => ?_
    split
    · exact .write_results _ _
    · exact .pure _

theorem settled_publishEntries (data length : ℕ) (items : List ℕ) :
    Settled (publishEntries data length items) := by
  induction length generalizing items with
  | zero => exact .pure _
  | succ length ih =>
    cases items with
    | nil => exact .fail _
    | cons it next =>
      exact .bind (.read _ _) fun i => .bind (settled_sessionAddPublishQueueItem _ _) fun _ =>
        ih next

theorem settled_publishGeneral (handle : PublishHandle) : Settled (publishGeneral handle) := by
  refine .ite (.pure _) (.bind (.bind (.assert _) fun _ => .bind Inert.malloc.settled fun data =>
    .ite (.bind Inert.writeBufferInit.settled fun outputBuffer =>
      .bind (Inert.new_publishData _).settled fun data => .bind (Inert.emit _ _).settled fun _ =>
      .bind (settled_publishEntries _ _ _) fun _ => .pure _) (.pure _)) ?_)
  rintro (_ | data)
  · cases handle.items with
    | nil => exact .fail _
    | cons it next =>
      exact .bind (.read _ _) fun i => .bind (.read _ _) fun σ => .bind (.write_sessions _ _)
        fun _ => .pure _
  · exact .pure _

theorem settled_publish (handle : Handle) (answer : Cbor.Item) :
    Settled (Call.publish handle answer).perform := by
  have hread : Settled (readHandle handle) := by
    cases handle with
    | subscription k => exact .bind (.read _ _) fun _ => .pure _
    | republish k => exact .bind (.read _ _) fun _ => .pure _
  refine .bind hread fun h => .bind (settled_publishGeneral h) ?_
  rintro (_ | data)
  · exact .pure _
  · refine .bind Inert.getWorld.settled fun w => .bind (.read _ data) fun d => ?_
    cases answer.write w.sizeT d.outputBuffer with
    | none => exact .fail _
    | some buffer => exact (Inert.write_publishData _ _).settled

theorem settled_sessionOutMessageCreate (s : ℕ) : Settled (sessionOutMessageCreate s) := by
  refine .bind (.read _ _) fun σ => .bind (inert_publishContentSize _).settled fun _ =>
    .bind (.ite Inert.malloc.settled (.pure _)) fun ret => .bind (.write_sessions _ _) fun _ => ?_
  split
  · exact .bind (inert_handOut _ _ _ _).settled fun _ => .pure _
  · exact .pure _

theorem settled_sessionAddFreePublishSlots (s count : ℕ) :
    Settled (sessionAddFreePublishSlots s count) :=
  .bind (.read _ _) fun _ => .write_sessions _ _

/-! ### Accepting a subscription -/

theorem settled_sessionGetNextFreePublishId (s : ℕ) : Settled (sessionGetNextFreePublishId s) :=
  .bind (.read _ _) fun _ => .ite (.pure _) (.bind Inert.malloc.settled fun _ =>
    .ite (.ite (.bind (.write_sessions _ _) fun _ => .pure _) (.fail _)) (.pure _))

theorem settled_resultGetBlockedPublishItemTarget (r : ℕ) :
    Settled (resultGetBlockedPublishItemTarget r) := by
  refine .bind (.read _ _) fun ret => .bind ?_ fun blocked => .bind (.write_results _ _) fun _ => ?_
  · unfold getBlockedItems
    split
    · exact .pure _
    · exact .bind Inert.malloc.settled fun _ => .bind Inert.getWorld.settled fun _ => .pure _
  · cases blocked with
    | none => exact .pure _
    | some blocked => exact .ite (.pure _) (.fail _)

theorem settled_setBlockedPublishItem (r id it : ℕ) : Settled (setBlockedPublishItem r id it) := by
  refine .bind (.read _ _) fun ret => ?_
  split
  · exact .write_results _ _
  · exact .fail _

theorem settled_sessionRequestPublishItem (s subscription id : ℕ) :
    Settled (sessionRequestPublishItem s subscription id) :=
  .bind Inert.malloc.settled fun _ => .ite (.bind (.new_publishItems _) fun _ =>
      .bind (.read _ _) fun _ => .bind (.write_subscriptions _ _) fun _ =>
      .bind (Inert.linkItem _ _).settled fun _ => .bind (.read _ _) fun _ =>
      .bind (.write_sessions _ _) fun _ => .pure _)
    (.bind (inert_releaseSubscription _).settled fun _ => .pure _)

theorem settled_requestBlockedPublishItem (r s subscription id : ℕ) :
    Settled (requestBlockedPublishItem r s subscription id) := by
  refine .ite (.pure _) (.bind (settled_resultGetBlockedPublishItemTarget r) ?_)
  rintro (_ | target)
  · exact .pure _
  refine .bind (settled_sessionRequestPublishItem _ _ _) ?_
  rintro (_ | it)
  · exact .pure _
  · exact .bind (settled_setBlockedPublishItem _ _ _) fun _ => .pure _

/-- **An item that is accepted is registered.** -/
theorem ensures_requestBlockedPublishItem_isRegistered (r s subscription id : ℕ) :
    Attempt.Ensures (fun w => (w.sessions.get s).isSome)
      (requestBlockedPublishItem r s subscription id)
      (fun o w => ∀ it, o = some it → w.IsRegistered it) Stop.Any := by
  refine .ite (fun _ => .pure fun _ _ => nofun) fun _ =>
    .bind ((settled_resultGetBlockedPublishItemTarget r).keeps_alive s) ?_
  rintro (_ | target)
  · exact .pure fun _ _ => nofun
  refine .bind (Q := fun o w => ∀ it, o = some it → w.IsRegistered it)
    (.bind (Inert.malloc.settled.keeps_alive s) fun ok => .ite (fun _ => ?_) fun _ =>
      .bind .anything fun _ => .pure fun _ _ _ => nofun) ?_
  · refine .bind (Q := fun it (w : World) => w.IsRegistered it) (Place.ensures_new ?_) fun it =>
      .bind ((Settled.read _ _).keeps_isRegistered it) fun sub =>
      .bind ((Settled.write_subscriptions _ _).keeps_isRegistered it) fun _ =>
      .bind ((Inert.linkItem _ _).settled.keeps_isRegistered it) fun _ =>
      .bind ((Settled.read _ _).keeps_isRegistered it) fun σ =>
      .bind ((Settled.write_sessions _ _).keeps_isRegistered it) fun _ =>
      .pure fun w h k hk => Option.some.inj hk ▸ h
    intro w hs
    obtain ⟨σ, hσ⟩ := Option.isSome_iff_exists.mp hs
    exact ⟨_, σ, (Heap.get_alloc _ _ _).trans (if_pos rfl), hσ⟩
  rintro (_ | it)
  · exact .pure fun _ _ _ => nofun
  exact .bind (((settled_setBlockedPublishItem r id it).keeps_isRegistered it).imp
    (fun _ h => h it rfl) (fun _ _ h => h) fun _ h => h) fun _ =>
    .pure fun w h k hk => Option.some.inj hk ▸ h

end Wpcp
