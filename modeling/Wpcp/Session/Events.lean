import Wpcp.Session.InMessage

/-!
# What the application is told of items

The events that belong to the items of a request are the callbacks for items and the
requests for subscriptions. Only the loop over the items of a message makes them: every
function the application calls is *quiet* (`Wpcp.Quiet`), whichever way it ends.
-/

namespace Wpcp

open Cbor (Value StringData AdditionalItem Item)

variable {α β : Type}

/-! ### The events of items -/

/-- The callback of an item, or the request of a subscription for one. -/
def Event.ofItem : Event → Bool
  | .requestSubscription .. | .item .. => true
  | .unsubscribe .. | .republish .. | .published .. | .released .. | .handedOut .. => false

/-- The events of items, in the order in which they were. -/
def World.itemEvents (w : World) : List Event := w.events.filter Event.ofItem

/-- What the callback of an item is given, but for the result and the subscription. -/
structure Delivered where
  handler : HandleFunctionItems
  remaining : ℕ
  map : List (Option (Value StringData))
  additional : List AdditionalItem

/-- What an event gives to the application. -/
def Event.delivered : Event → Option Delivered
  | .item handler _ remaining map additional _ => some ⟨handler, remaining, map, additional⟩
  | _ => none

/-- All calls of callbacks for items. -/
def World.delivered (w : World) : List Delivered := w.itemEvents.filterMap Event.delivered

/-- The key with which a subscription is requested, as an address and a length. -/
def Event.requested : Event → Option (ℕ × ℕ)
  | .requestSubscription _ key keyLength => some (key, keyLength)
  | _ => none

/-- All keys with which subscriptions were requested. -/
def World.requested (w : World) : List (ℕ × ℕ) := w.itemEvents.filterMap Event.requested

/-! ### Quiet calls -/

/-- A kind of events that no call of the application makes. -/
class Event.Uncalled (p : Event → Bool) : Prop where
  republish : ∀ handle subscription, p (.republish handle subscription) = false
  published : ∀ data items, p (.published data items) = false
  handedOut : ∀ session message contents data,
    p (.handedOut session message contents data) = false

instance : Event.Uncalled Event.ofItem := ⟨fun _ _ => rfl, fun _ _ => rfl, fun _ _ _ _ => rfl⟩

/-- A call after which there is no new event of a kind, however it ends. -/
def QuietOn (p : Event → Bool) (m : Calls α) : Prop :=
  ∀ events, Attempt.Keeps (fun w => w.events.filter p = events) m

/-- A call after which there is no new event of an item. -/
abbrev Quiet (m : Calls α) : Prop := QuietOn Event.ofItem m

/-- There is no new event of an item after a quiet call. -/
theorem Quiet.itemEvents_eq {m : Calls α} (h : Quiet m) {w w' : World} {r : Except Stop α}
    (hrun : m.run w = some (r, w')) : w'.itemEvents = w.itemEvents :=
  h _ w _ rfl hrun

variable {p : Event → Bool}

namespace QuietOn

/-- There is no new event after a quiet call. -/
theorem filter_eq {m : Calls α} (h : QuietOn p m) {w w' : World} {r : Except Stop α}
    (hrun : m.run w = some (r, w')) : w'.events.filter p = w.events.filter p :=
  h _ w _ rfl hrun

theorem pure (a : α) : QuietOn p (Pure.pure a : Calls α) := fun _ => .pure a

theorem fail (e : Stop) : QuietOn p (Attempt.fail e : Calls α) := fun _ => .fail e

theorem bind {m : Calls α} {f : α → Calls β} (hm : QuietOn p m) (hf : ∀ a, QuietOn p (f a)) :
    QuietOn p (m >>= f) :=
  fun events => .bind (hm events) fun a => hf a events

theorem ite {c : Prop} [Decidable c] {m m' : Calls α} (hm : QuietOn p m) (hm' : QuietOn p m') :
    QuietOn p (if c then m else m') :=
  fun events => .ite (hm events) (hm' events)

theorem loop {body : β → Calls (β ⊕ α)} (hbody : ∀ b, QuietOn p (body b)) (fuel : ℕ)
    (b : β) :
    QuietOn p (Attempt.loop body fuel b) :=
  fun events => .loop (fun b => hbody b events) fuel b

/-- A change of the world that leaves the events alone. -/
theorem modifyWorld {f : World → World} (h : ∀ w, (f w).events = w.events) :
    QuietOn p (modifyWorld f) := by
  rintro events w o rfl hrun
  obtain rfl := Option.some.inj hrun
  show (f w).events.filter _ = _
  rw [h]

theorem emit {event : Event} (h : p event = false) (owed : List Owed) :
    QuietOn p (emit event owed) := by
  rintro events w o rfl hrun
  obtain rfl := Option.some.inj hrun
  show (w.events ++ [event]).filter _ = _
  rw [List.filter_append, List.filter_cons_of_neg (by simp [h]), List.filter_nil, List.append_nil]

theorem malloc : QuietOn p malloc := by
  rintro events w o rfl hrun
  obtain rfl := Option.some.inj hrun
  rfl

theorem getWorld : QuietOn p getWorld := by
  rintro events w o rfl hrun
  obtain rfl := Option.some.inj hrun
  rfl

theorem writeBufferInit : QuietOn p writeBufferInit := by
  rintro events w o rfl hrun
  obtain rfl := Option.some.inj hrun
  rfl

theorem assert (c : Prop) [Decidable c] : QuietOn p (assert c) := .ite (.pure _) (.fail _)

end QuietOn

/-- A place whose objects are not the events. -/
def Place.Apart (p : Place α) : Prop := ∀ h w, (p.put h w).events = w.events

theorem Place.Apart.filter_eq {place : Place α} (hp : place.Apart) (h : Heap α) (w : World) :
    (place.put h w).events.filter p = w.events.filter p :=
  congrArg (List.filter p) (hp h w)

namespace Place

variable {place : Place α}

theorem quiet_read (r : ℕ) : QuietOn p (place.read r) := by
  rintro events w o rfl hrun
  simp only [read, Attempt.run] at hrun
  split at hrun <;> obtain rfl := Option.some.inj hrun <;> rfl

theorem quiet_write (hp : place.Apart) (r : ℕ) (a : α) : QuietOn p (place.write r a) := by
  rintro events w o rfl hrun
  simp only [write, Attempt.run] at hrun
  split at hrun
  · obtain rfl := Option.some.inj hrun
    exact hp.filter_eq _ w
  · obtain rfl := Option.some.inj hrun
    rfl

theorem quiet_free (hp : place.Apart) (r : ℕ) : QuietOn p (place.free r) := by
  rintro events w o rfl hrun
  simp only [free, Attempt.run] at hrun
  split at hrun
  · obtain rfl := Option.some.inj hrun
    exact hp.filter_eq _ w
  · obtain rfl := Option.some.inj hrun
    rfl

theorem quiet_new (hp : place.Apart) (a : α) : QuietOn p (place.new a) := by
  rintro events w o rfl hrun
  obtain rfl := Option.some.inj hrun
  exact hp.filter_eq _ w

end Place

theorem apart_subscriptions : subscriptions.Apart := fun _ _ => rfl

theorem apart_publishItems : publishItems.Apart := fun _ _ => rfl

theorem apart_publishData : publishData.Apart := fun _ _ => rfl

theorem apart_republishHandles : republishHandles.Apart := fun _ _ => rfl

theorem apart_results : results.Apart := fun _ _ => rfl

theorem apart_sessions : sessions.Apart := fun _ _ => rfl

/-! ### Subscriptions -/

theorem quiet_retainSubscription (subscription : ℕ) :
    QuietOn p (retainSubscription subscription) :=
  .bind (Place.quiet_read _) fun _ => .bind (Place.quiet_write apart_subscriptions _ _) fun _ =>
    .bind (.modifyWorld fun _ => rfl) fun _ => .pure _

theorem quiet_searchStep (type : ℕ) (key : List UInt8) (range : ℕ × ℕ) :
    QuietOn p (searchStep type key range) := by
  refine .bind .getWorld fun w => ?_
  dsimp only
  split
  · exact .fail _
  · refine .bind (Place.quiet_read _) fun item => ?_
    split <;> exact .pure _

theorem quiet_searchSubscription (type : ℕ) (key : List UInt8) (range : ℕ × ℕ) :
    QuietOn p (searchSubscription type key range) := by
  refine .ite (.pure _) (.bind (quiet_searchStep type key range) ?_)
  rintro (range | ⟨pos, subscription⟩) <;> exact .pure _

theorem quiet_requestSubscription (type : ℕ) (key : List UInt8) :
    QuietOn p (requestSubscription type key) := by
  refine .bind .getWorld fun w => .bind (.loop (quiet_searchSubscription type key) _ _) ?_
  rintro ⟨subscription | _, low⟩
  · refine .bind .malloc fun realloc => .ite (.bind .malloc fun ret => .ite ?_ (.pure _)) (.pure _)
    exact .bind (Place.quiet_new apart_subscriptions _) fun ret =>
      .bind (.modifyWorld fun _ => rfl) fun _ => .pure _
  · exact .bind (quiet_retainSubscription _) fun _ => .pure _

theorem quiet_releaseSubscription (subscription : ℕ) :
    QuietOn p (releaseSubscription subscription) := by
  refine .bind (Place.quiet_read _) fun s => .bind (Place.quiet_write apart_subscriptions _ _)
    fun _ => .ite (.pure _) (.bind .getWorld fun w => ?_)
  exact .bind (.loop (quiet_searchStep s.type s.key) _ _) fun found =>
    .bind (.modifyWorld fun _ => rfl) fun _ =>
    .bind .malloc fun _ => Place.quiet_free apart_subscriptions _

/-! ### Output and publishing -/

theorem quiet_sessionAppendOutMessage (session : ℕ) (messageId : MessageId)
    (requestId payloadCount : ℕ) (buffer : Cbor.WriteBuffer) (granted : List (ℕ × ℕ)) :
    QuietOn p (sessionAppendOutMessage session messageId requestId payloadCount buffer granted) :=
  .bind .malloc fun _ => .bind (Place.quiet_read _) fun _ => Place.quiet_write apart_sessions _ _

theorem quiet_sessionPublishQueueAppend (session : ℕ) (first : Entry) (rest : List Entry) :
    QuietOn p (sessionPublishQueueAppend session first rest) :=
  .bind (Place.quiet_read _) fun _ => Place.quiet_write apart_sessions _ _

theorem quiet_publishQueueItemDeref (data : ℕ) : QuietOn p (publishQueueItemDeref data) :=
  .bind (Place.quiet_read _) fun _ =>
    .ite (Place.quiet_write apart_publishData _ _) (Place.quiet_free apart_publishData _)

theorem quiet_publishQueueItemsDeref (entries : List Entry) :
    QuietOn p (publishQueueItemsDeref entries) := by
  induction entries with
  | nil => exact .pure _
  | cons e entries ih => exact .bind (quiet_publishQueueItemDeref _) fun _ => ih

theorem quiet_publishContentSize (out : OutState QueuedOutMessage Entry) :
    QuietOn p (publishContentSize out) := by
  have hsize (entries : List Entry) : QuietOn p (publishSize entries) := by
    induction entries with
    | nil => exact .pure _
    | cons e entries ih =>
      exact .bind (Place.quiet_read _) fun _ => .bind ih fun _ => .bind .getWorld fun _ => .pure _
  exact .ite (hsize _) (.pure _)

theorem quiet_writePublish (dest : PublishDest) (entries : List Entry) :
    QuietOn p (writePublish dest entries) := by
  induction entries generalizing dest with
  | nil => exact .pure _
  | cons e entries ih =>
    exact .ite (.bind (Place.quiet_read _) fun _ => .bind (quiet_publishQueueItemDeref _)
      fun _ => ih _) (.fail _)

theorem quiet_handOut [Event.Uncalled p] (session size : ℕ) (messages : List QueuedOutMessage)
    (message : OutMessage Entry) : QuietOn p (handOut session size messages message) := by
  cases message with
  | queued m =>
    refine .bind .getWorld fun w => ?_
    split
    · exact .emit (Event.Uncalled.handedOut _ _ _ _) _
    · exact .fail _
  | publish entries =>
    exact .bind .getWorld fun w => .bind (quiet_writePublish _ _) fun _ =>
      .ite (.emit (Event.Uncalled.handedOut _ _ _ _) _) (.fail _)

theorem quiet_sessionOutMessageCreate [Event.Uncalled p] (session : ℕ) :
    QuietOn p (sessionOutMessageCreate session) := by
  refine .bind (Place.quiet_read _) fun σ => .bind (quiet_publishContentSize _) fun _ =>
    .bind (.ite .malloc (.pure _)) fun ret =>
    .bind (Place.quiet_write apart_sessions _ _) fun _ => ?_
  split
  · exact .bind (quiet_handOut _ _ _ _) fun _ => .pure _
  · exact .pure _

theorem quiet_sessionAddPublishQueueItem (publishItem : ℕ) (entry : Entry) :
    QuietOn p (sessionAddPublishQueueItem publishItem entry) := by
  refine .bind (.bind (Place.quiet_read _) fun i => .bind (Place.quiet_read _) fun σ =>
    .bind .getWorld fun w => .pure _) ?_
  rintro (_ | result)
  · exact .bind (Place.quiet_read _) fun i => quiet_sessionPublishQueueAppend _ _ _
  · refine .bind (Place.quiet_read _) fun ret => ?_
    split
    · exact Place.quiet_write apart_results _ _
    · exact .pure _

theorem quiet_publishEntries (data length : ℕ) (items : List ℕ) :
    QuietOn p (publishEntries data length items) := by
  induction length generalizing items with
  | zero => exact .pure _
  | succ length ih =>
    cases items with
    | nil => exact .fail _
    | cons publishItem next =>
      exact .bind (Place.quiet_read _) fun i =>
        .bind (quiet_sessionAddPublishQueueItem _ _) fun _ => ih next

theorem quiet_publishGeneral [Event.Uncalled p] (handle : PublishHandle) :
    QuietOn p (publishGeneral handle) := by
  refine .ite (.pure _) (.bind (.bind (.assert _) fun _ => .bind .malloc fun data =>
    .ite (.bind .writeBufferInit fun outputBuffer => .bind (Place.quiet_new apart_publishData _)
      fun data => .bind (.emit (Event.Uncalled.published _ _) _) fun _ =>
      .bind (quiet_publishEntries _ _ _) fun _ =>
      .pure _) (.pure _)) ?_)
  rintro (_ | data)
  · dsimp only
    split
    · exact .fail _
    · exact .bind (Place.quiet_read _) fun i => .bind (Place.quiet_read _) fun σ =>
        .bind (Place.quiet_write apart_sessions _ _) fun _ => .pure _
  · exact .pure _

/-! ### Results -/

theorem quiet_requestResult (session requestId payloadCount : ℕ) :
    QuietOn p (requestResult session requestId payloadCount) :=
  .bind .malloc fun _ => .bind (.assert _) fun _ => .ite (.bind .writeBufferInit fun _ =>
    .bind (Place.quiet_new apart_results _) fun _ => .bind (Place.quiet_read _) fun _ =>
    .bind (Place.quiet_write apart_sessions _ _) fun _ => .pure _) (.pure _)

theorem quiet_sendResult (result : ℕ) (ret : Result) : QuietOn p (sendResult result ret) := by
  unfold sendResult
  split
  · refine .bind (Place.quiet_read _) fun σ => .bind (Place.quiet_write apart_sessions _ _)
      fun _ => .bind (quiet_sessionAppendOutMessage _ _ _ _ _ _) fun _ => ?_
    split
    · exact quiet_sessionPublishQueueAppend _ _ _
    · exact .pure _
  · split
    · exact quiet_publishQueueItemsDeref _
    · exact .pure _

theorem quiet_releaseResult (result : ℕ) : QuietOn p (releaseResult result) :=
  .bind (Place.quiet_read _) fun ret => .bind (Place.quiet_write apart_results _ _) fun _ =>
    .ite (.pure _) (.bind (quiet_sendResult result ret) fun _ => Place.quiet_free apart_results _)

theorem quiet_writeResult (result : ℕ) (f : Cbor.WriteBuffer → Option Cbor.WriteBuffer) :
    QuietOn p (writeResult result f) := by
  refine .bind (Place.quiet_read _) fun ret => ?_
  split
  · exact Place.quiet_write apart_results _ _
  · exact .fail _

theorem quiet_resultAddDiagnosticInfo (result : ℕ)
    (diagnosticInfo : Option (Value (List UInt8))) :
    QuietOn p (resultAddDiagnosticInfo result diagnosticInfo) := by
  refine .bind .getWorld fun w => ?_
  split <;> exact quiet_writeResult _ _

theorem quiet_resultAddUnsignedInteger (result : ℕ)
    (diagnosticInfo : Option (Value (List UInt8))) (value : ℕ) :
    QuietOn p (resultAddUnsignedInteger result diagnosticInfo value) :=
  .bind (quiet_resultAddDiagnosticInfo _ _) fun _ => .bind (quiet_writeResult _ _) fun _ =>
    quiet_releaseResult _

theorem quiet_resultAddValue (result : ℕ) (diagnosticInfo : Option (Value (List UInt8)))
    (value : Value (List UInt8)) : QuietOn p (resultAddValue result diagnosticInfo value) :=
  .bind (quiet_resultAddDiagnosticInfo _ _) fun _ => .bind .getWorld fun _ =>
    .bind (quiet_writeResult _ _) fun _ => quiet_releaseResult _

theorem quiet_requestSubresult (result count : ℕ) : QuietOn p (requestSubresult result count) :=
  .bind (quiet_writeResult _ _) fun _ => .ite (.bind (Place.quiet_read _) fun _ =>
    Place.quiet_write apart_results _ _) (quiet_releaseResult _)

theorem quiet_releaseSubresult (result : ℕ) : QuietOn p (releaseSubresult result) :=
  .bind (Place.quiet_read _) fun _ => .bind (Place.quiet_write apart_results _ _) fun _ =>
    .ite (.pure _) (quiet_releaseResult _)

/-! ### What the application calls -/

theorem quiet_sessionRequestPublishItem (session subscription id : ℕ) :
    QuietOn p (sessionRequestPublishItem session subscription id) := by
  refine .bind .malloc fun ret => .ite ?_ (.bind (quiet_releaseSubscription _) fun _ => .pure _)
  exact .bind (Place.quiet_new apart_publishItems _) fun ret => .bind (Place.quiet_read _) fun s =>
    .bind (Place.quiet_write apart_subscriptions _ _) fun _ => .bind (.modifyWorld fun _ => rfl)
    fun _ => .bind (Place.quiet_read _) fun σ => .bind (Place.quiet_write apart_sessions _ _)
    fun _ => .pure _

theorem quiet_resultGetBlockedPublishItemTarget (result : ℕ) :
    QuietOn p (resultGetBlockedPublishItemTarget result) := by
  refine .bind (Place.quiet_read _) fun ret => .bind ?_ fun blocked =>
    .bind (Place.quiet_write apart_results _ _) fun _ => ?_
  · unfold getBlockedItems
    split
    · exact .pure _
    · exact .bind .malloc fun _ => .bind .getWorld fun _ => .pure _
  · split
    · exact .pure _
    · exact .ite (.pure _) (.fail _)

theorem quiet_requestBlockedPublishItem (result session subscription id : ℕ) :
    QuietOn p (requestBlockedPublishItem result session subscription id) := by
  refine .ite (.pure _) (.bind (quiet_resultGetBlockedPublishItemTarget _) ?_)
  rintro (_ | target)
  · exact .pure _
  · refine .bind (quiet_sessionRequestPublishItem _ _ _) ?_
    rintro (_ | publishItem)
    · exact .pure _
    · refine .bind (.bind (Place.quiet_read _) fun ret => ?_) fun _ => .pure _
      split
      · exact Place.quiet_write apart_results _ _
      · exact .fail _

theorem quiet_returnSubscribeInternal [Event.Uncalled p] (result : ℕ)
    (diagnosticInfo : Option (Value (List UInt8))) (subscription : ℕ) :
    QuietOn p (returnSubscribeInternal result diagnosticInfo subscription) := by
  refine .bind (Place.quiet_read _) fun ret => ?_
  split
  · exact .fail _
  rename_i session _
  have hid : QuietOn p (sessionGetNextFreePublishId session) :=
    .bind (Place.quiet_read _) fun σ => .ite (.pure _) (.bind .malloc fun _ =>
      .ite (.ite (.bind (Place.quiet_write apart_sessions _ _) fun _ => .pure _) (.fail _))
        (.pure _))
  refine .bind hid fun id => .bind (quiet_requestBlockedPublishItem _ _ _ _) ?_
  rintro (_ | publishItem)
  · exact .bind (quiet_resultAddUnsignedInteger _ _ _) fun _ => .pure _
  · exact .bind (quiet_resultAddUnsignedInteger _ _ _) fun _ => .bind .malloc fun list =>
      .ite (.bind (Place.quiet_new apart_republishHandles _) fun _ =>
        .bind (.emit (Event.Uncalled.republish _ _) _) fun _ => .pure _) (.pure _)

theorem quiet_releaseDummyUnsubscribeResult (result : ℕ) :
    QuietOn p (releaseDummyUnsubscribeResult result) :=
  .bind (Place.quiet_read _) fun _ => .bind (.assert _) fun _ =>
    .bind (Place.quiet_write apart_results _ _) fun _ =>
    .ite (.pure _) (Place.quiet_free apart_results _)

theorem quiet_returnUnsubscribe (result : ℕ) (diagnosticInfo : Option (Value (List UInt8)))
    (subscription : Option ℕ) :
    QuietOn p (returnUnsubscribe result diagnosticInfo subscription) := by
  have hrelease : QuietOn p (subscription.elim (pure ()) releaseSubscription) := by
    cases subscription with
    | none => exact .pure _
    | some subscription => exact quiet_releaseSubscription _
  refine .bind hrelease fun _ => .bind (Place.quiet_read _) fun ret => ?_
  split
  · exact quiet_resultAddValue _ _ _
  · exact quiet_releaseDummyUnsubscribeResult _

theorem quiet_publish [Event.Uncalled p] (handle : Handle) (answer : Item) :
    QuietOn p (Call.publish handle answer).perform := by
  have hread : QuietOn p (readHandle handle) := by
    cases handle <;> exact .bind (Place.quiet_read _) fun _ => .pure _
  refine .bind hread fun handle => .bind (quiet_publishGeneral handle) ?_
  rintro (_ | data)
  · exact .pure _
  · refine .bind .getWorld fun w => .bind (Place.quiet_read _) fun d => ?_
    split
    · exact Place.quiet_write apart_publishData _ _
    · exact .fail _

/-- **Every call of the application is quiet.** -/
theorem quiet_perform [Event.Uncalled p] (call : Call) : QuietOn p call.perform := by
  cases call with
  | subscribeAccept result diagnosticInfo subscription =>
    exact .bind (quiet_returnSubscribeInternal _ _ _) fun _ => .pure _
  | subscribeAlias result diagnosticInfo subscription other =>
    exact .bind (Place.quiet_read _) fun s => .bind (Place.quiet_read _) fun o =>
      .bind (.assert _) fun _ => .bind (quiet_retainSubscription _) fun _ =>
      .bind (quiet_returnSubscribeInternal _ _ _) fun _ => .modifyWorld fun _ => rfl
  | aliasReturned subscription => exact quiet_releaseSubscription _
  | subscribeReject result diagnosticInfo subscription =>
    refine .bind (Place.quiet_read _) fun ret => ?_
    split
    · exact .fail _
    · exact .bind (quiet_resultAddUnsignedInteger _ _ _) fun _ => quiet_releaseSubscription _
  | unsubscribe result diagnosticInfo subscription => exact quiet_returnUnsubscribe _ _ _
  | value result diagnosticInfo answer => exact quiet_resultAddValue _ _ _
  | item result diagnosticInfo answer =>
    exact .bind (quiet_resultAddDiagnosticInfo _ _) fun _ => .bind .getWorld fun _ =>
      .bind (quiet_writeResult _ _) fun _ => quiet_releaseResult _
  | items result diagnosticInfo count =>
    exact .bind (quiet_resultAddDiagnosticInfo _ _) fun _ => .bind (.modifyWorld fun _ => rfl)
      fun _ => quiet_requestSubresult _ _
  | subitem result answer =>
    exact .bind .getWorld fun _ => .bind (quiet_writeResult _ _) fun _ =>
      quiet_releaseSubresult _
  | publish handle answer => exact quiet_publish handle answer
  | republish handle => exact Place.quiet_free apart_republishHandles _
  | outMessageCreate session => exact .bind (quiet_sessionOutMessageCreate _) fun _ => .pure _
  | addFreePublishSlots session count =>
    exact .bind (Place.quiet_read _) fun _ => Place.quiet_write apart_sessions _ _

/-- What the application does in a callback is quiet. -/
theorem quiet_performAll [Event.Uncalled p] (callsMade : List Call) :
    QuietOn p (performAll callsMade) := by
  induction callsMade with
  | nil => exact .pure _
  | cons call rest ih =>
    refine .bind (.bind .getWorld fun w => .ite ?_ (.pure _)) fun _ => ih
    exact .bind (.modifyWorld fun _ => rfl) fun _ => quiet_perform call

end Wpcp
