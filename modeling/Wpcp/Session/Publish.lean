import Wpcp.Session.Subscription

/-!
# Publish items, results and the output of a session

The functions of `wpcp_session.c` that connect the three parts of a session: the table
of its publish items, the results it has not yet sent, and its output. An entry that is
published to an item goes to the output of the session, unless a result that is still
waiting has accepted the item; then it waits with the result
(`Wpcp.sessionAddPublishQueueItem`), and follows the RESULT into the output when that is
complete (`Wpcp.releaseResult`).
-/

namespace Wpcp

open Cbor (SizeT Value WriteBuffer)

/-! ### The output of a session -/

/-- Another item than `item` has the id, in the table or by the same result. -/
def Session.reuses (σ : Session) (granted : List (ℕ × ℕ)) (id item : ℕ) : Prop :=
  (∃ other, σ.publishItems[id]? = some (some other) ∧ other ≠ item) ∨
    ∃ g ∈ granted, g.1 = id ∧ g.2 ≠ item

instance (σ : Session) (granted : List (ℕ × ℕ)) (id item : ℕ) :
    Decidable (σ.reuses granted id item) :=
  have : Decidable (∃ other, σ.publishItems[id]? = some (some other) ∧ other ≠ item) :=
    match σ.publishItems[id]? with
    | some (some other) =>
      decidable_of_iff (other ≠ item) ⟨fun h => ⟨other, rfl, h⟩, fun ⟨_, heq, hne⟩ =>
        Option.some.inj (Option.some.inj heq) ▸ hne⟩
    | some none => isFalse fun ⟨_, heq, _⟩ => nomatch heq
    | none => isFalse fun ⟨_, heq, _⟩ => nomatch heq
  inferInstanceAs (Decidable (_ ∨ _))

/-- The ids of a result, with what is known of them when it is queued. -/
def grantedNow (σ : Session) (granted : List (ℕ × ℕ)) : List Granted :=
  granted.map fun g => ⟨g.1, g.2, σ.reuses granted g.1 g.2⟩

/-- `wpcp_session_append_out_message`. What it copies is in memory already, in the chunks of one
buffer; whether it fits what is allocated is seen when the message is handed out. -/
def sessionAppendOutMessage (session : ℕ) (messageId : MessageId) (requestId payloadCount : ℕ)
    (buffer : WriteBuffer) (granted : List (ℕ × ℕ)) : Calls Unit := do
  let ret ← malloc
  let σ ← sessions.read session
  let message : QueuedOutMessage :=
    { messageId := messageId
      requestId := requestId
      payloadCount := payloadCount
      usedSize := buffer.usedSize
      content := buffer.writeWriteBuffer
      granted := grantedNow σ granted }
  sessions.write session { σ with
    out := σ.out.sessionAppendOutMessage ret message
    ops := if ret then σ.ops ++ [.append message] else σ.ops }

/-- `wpcp_session_publish_queue_append`, for the chain of entries `first :: rest`. -/
def sessionPublishQueueAppend (session : ℕ) (first : Entry) (rest : List Entry) : Calls Unit := do
  let σ ← sessions.read session
  sessions.write session { σ with
    out := σ.out.sessionPublishQueueAppend first rest
    ops := σ.ops ++ [.publish first rest] }

/-- `wpcp_publish_queue_item_deref` -/
def publishQueueItemDeref (data : ℕ) : Calls Unit := do
  let d ← publishData.read data
  let referencesActual := d.referencesActual - 1
  if referencesActual ≠ 0 then
    publishData.write data { d with referencesActual := referencesActual }
  else publishData.free data

/-- `wpcp_publish_queue_item_deref` for each of some entries. -/
def publishQueueItemsDeref : List Entry → Calls Unit
  | [] => pure ()
  | item :: next => do
    publishQueueItemDeref item.data
    publishQueueItemsDeref next

/-- `wpcp_session_add_free_publish_slots` -/
def sessionAddFreePublishSlots (session count : ℕ) : Calls Unit := do
  let σ ← sessions.read session
  sessions.write session { σ with
    out := σ.out.sessionAddFreePublishSlots count
    slotsAdded := σ.slotsAdded + count
    slotsPeak := max σ.slotsPeak (σ.out.freePublishSlots + count) }

/-! ### Taking a message out -/

/-- The header that `wpcp_out_message_alloc` writes. -/
def outMessageHeader (messageId : MessageId) (requestId payloadCount : ℕ) : List UInt8 :=
  Cbor.writeArrayHeader ((2 + payloadCount) % 2 ^ 32) ++
    Cbor.writeUnsignedInteger messageId.toNat ++ Cbor.writeUnsignedInteger requestId

/-- `max_message_header_size` -/
def maxMessageHeaderSize : ℕ := 1 + 4 + 1 + 4 + 1 + 4

/-- `sizeof(void *)`, and `sizeof(size_t)` -/
def pointerSize : SizeT → ℕ
  | .bits32 => 4
  | .bits64 => 8

/-- `sizeof(struct wpcp_out_message_t)` -/
def outMessageSize (sizeT : SizeT) : ℕ := 2 * pointerSize sizeT

/-- `sizeof(struct wpcp_queued_out_message_t)` -/
def queuedOutMessageSize (sizeT : SizeT) : ℕ := 3 * pointerSize sizeT

/-- The bytes from `data` on, of those that `wpcp_out_message_alloc` asks for. -/
def World.outMessageAllocated (w : World) (headerSize contentSize : ℕ) : ℕ :=
  (headerSize + maxMessageHeaderSize + w.outMessagePrePadding + contentSize +
    w.outMessagePostPadding) % w.sizeT.count - (headerSize + w.outMessagePrePadding)

/-- The bytes from `data` on for a queued message, which is copied from one buffer. -/
def World.queuedAllocated (w : World) (usedSize : ℕ) : ℕ :=
  w.outMessageAllocated (queuedOutMessageSize w.sizeT) usedSize

/-- The bytes from `data` on for a PUBLISH message. -/
def World.publishAllocated (w : World) (size : ℕ) : ℕ :=
  w.outMessageAllocated (outMessageSize w.sizeT) size

/-- A queued message, as it was written when it was queued: where the output buffer is
broken, nothing is copied behind the header. -/
def QueuedOutMessage.outData (message : QueuedOutMessage) (allocated : ℕ) : OutData :=
  let header := outMessageHeader message.messageId message.requestId message.payloadCount
  { allocated := allocated
    data := header.map some ++
      match message.content with
      | some content => content.map some
      | none => List.replicate message.usedSize none
    length := some (header.length + message.usedSize) }

/-- The first loop of `wpcp_session_out_message_create`: the size of the content, where
each entry has five bytes for its id. -/
def publishSize : List Entry → Calls ℕ
  | [] => pure 0
  | item :: next => do
    let d ← publishData.read item.data
    let size ← publishSize next
    let w ← getWorld
    pure ((1 + 4 + d.outputBuffer.usedSize + size) % w.sizeT.count)

/-- The size of the PUBLISH message that is to be built, if one is. -/
def publishContentSize (out : OutState QueuedOutMessage Entry) : Calls ℕ :=
  if out.queuedOutMessages = none ∧ out.kill = false then
    publishSize (out.publishQueue.take (OutState.publishItemCount out.freePublishSlots 0
      out.publishQueue))
  else pure 0

/-- The allocation in `wpcp_session_out_message_create`: there is none where no PUBLISH
message is built. -/
def mallocPublish (out : OutState QueuedOutMessage Entry) : Calls Bool :=
  if out.queuedOutMessages = none ∧ out.kill = false then malloc else pure true

/-- What the second loop of `wpcp_session_out_message_create` has written. -/
structure PublishDest where
  written : List UInt8
  /-- `dest` is not the null pointer, which it is after a broken buffer. -/
  valid : Bool
  /-- What the output buffers hold (not in the source). -/
  contents : List (Option (List UInt8))

/-- The second loop of `wpcp_session_out_message_create`. -/
def writePublish (dest : PublishDest) : List Entry → Calls PublishDest
  | [] => pure dest
  | item :: next => do
    if dest.valid then do
      let d ← publishData.read item.data
      let content := d.outputBuffer.writeWriteBuffer
      publishQueueItemDeref item.data
      writePublish
        { written := dest.written ++ Cbor.writeUnsignedInteger item.subscriptionid ++
          content.getD []
          valid := content.isSome
          contents := dest.contents ++ [content] } next
    else Attempt.fail .dangling

/-- What `wpcp_session_out_message_create` returns is written where it is built from the
publish queue, and was written before where it was queued. Nothing may be written behind what
has been allocated. -/
def handOut (session size : ℕ) (messages : List QueuedOutMessage) : OutMessage Entry → Calls Unit
  | .queued m => do
    let w ← getWorld
    match messages[m]? with
    | some message =>
      emit (.handedOut session (.queued m) [message.content]
        (message.outData (w.queuedAllocated message.usedSize))) []
    | none => Attempt.fail .dangling
  | .publish entries => do
    let w ← getWorld
    let dest ← writePublish
      { written := outMessageHeader .publish 0 (entries.length * 2 % 2 ^ 32)
        valid := true
        contents := [] } entries
    if dest.written.length ≤ w.publishAllocated size then
      emit (.handedOut session (.publish entries) dest.contents
        { allocated := w.publishAllocated size
          data := dest.written.map some
          length := if dest.valid then some dest.written.length else none }) []
    else Attempt.fail .dangling

/-- `wpcp_session_out_message_create` -/
def sessionOutMessageCreate (session : ℕ) : Calls (Option (OutMessage Entry)) := do
  let σ ← sessions.read session
  let size ← publishContentSize σ.out
  let ret ← mallocPublish σ.out
  let (message, out) := σ.out.sessionOutMessageCreate ret
  sessions.write session { σ with
    out := out
    handedOut := σ.handedOut ++ message.toList
    ops := σ.ops ++ [.create] }
  match message with
  | some message => do
    handOut session size σ.out.messages message
    pure (some message)
  | none => pure none

/-! ### Publish items -/

/-- The search of `wpcp_session_get_next_free_publish_id`, through the rest of the table
from `id` on. -/
def nextFreeId : List (Option ℕ) → ℕ → ℕ
  | [], id => id
  | none :: _, id => id
  | some _ :: rest, id => nextFreeId rest (id + 1)

/-- `wpcp_session_get_next_free_publish_id`, which makes the table 16 items longer when
it has no free place; 0 when that fails. A length that does not fit 32 bits is cut, and
the new places are then cleared behind the end of the table. -/
def sessionGetNextFreePublishId (session : ℕ) : Calls ℕ := do
  let σ ← sessions.read session
  let id := nextFreeId (σ.publishItems.drop σ.nextFreePublishItem) σ.nextFreePublishItem
  if id < σ.publishItems.length then pure id
  else do
    let newPublishItems ← malloc
    if newPublishItems then
      if σ.publishItems.length + 16 < 2 ^ 32 then do
        sessions.write session { σ with
          publishItems := σ.publishItems ++ List.replicate 16 none }
        pure id
      else Attempt.fail .dangling
    else pure 0

/-- An item is put in front of the list of a subscription. -/
def linkItem (subscription item : ℕ) : Calls Unit :=
  modifyWorld fun w => { w with itemLinks := w.itemLinks.insert subscription item }

/-- An item is taken out of the list of a subscription. -/
def unlinkItem (subscription item : ℕ) : Calls Unit :=
  modifyWorld fun w => { w with itemLinks := w.itemLinks.remove subscription item }

/-- `wpcp_session_request_publish_item` -/
def sessionRequestPublishItem (session subscription id : ℕ) : Calls (Option ℕ) := do
  let ret ← malloc
  if ret then do
    let ret ← publishItems.new
      { subscription := subscription, session := session, subscriptionid := id }
    let s ← subscriptions.read subscription
    subscriptions.write subscription { s with
      publishHandle := ⟨s.publishHandle.length + 1, ret :: s.publishHandle.items⟩ }
    linkItem subscription ret
    let σ ← sessions.read session
    sessions.write session { σ with
      publishItems := σ.publishItems.set id (some ret)
      nextFreePublishItem := id + 1 }
    pure (some ret)
  else do
    releaseSubscription subscription
    pure none

/-- Something that will still be used refers to the item: a result that waits for a
session, or a handle that `republish.ex_cb` was given. -/
def World.referenced (w : World) (item : ℕ) : Bool :=
  ((List.range w.results.next).any fun result =>
    (w.results.get result).any fun ret =>
      ret.session.isSome && ret.blockedItems.any fun blocked => item ∈ blocked.items) ||
  (List.range w.republishHandles.next).any fun handle =>
    w.republishHandles.get handle = some item

/-- `wpcp_publish_item_release`. An item without a predecessor has to be the first of
its list; an item that is in no list has no predecessor. -/
def publishItemRelease (item : ℕ) : Calls Unit := do
  let i ← publishItems.read item
  let s ← subscriptions.read i.subscription
  assert (item ∈ s.publishHandle.items)
  subscriptions.write i.subscription { s with
    publishHandle := ⟨s.publishHandle.length - 1, s.publishHandle.items.erase item⟩ }
  unlinkItem i.subscription item
  publishItems.free item
  let w ← getWorld
  emit (.released item (w.referenced item)) []
  releaseSubscription i.subscription

/-- `wpcp_session_release_publish_item` -/
def sessionReleasePublishItem (session item : ℕ) : Calls Unit := do
  let σ ← sessions.read session
  let i ← publishItems.read item
  sessions.write session { σ with
    publishItems := σ.publishItems.set i.subscriptionid none
    nextFreePublishItem := min i.subscriptionid σ.nextFreePublishItem }
  publishItemRelease item

/-! ### Publishing -/

/-- The items a result has accepted while it waits. -/
def World.blockedItems (w : World) (result : ℕ) : List ℕ :=
  match (w.results.get result).bind Result.blockedItems with
  | some blocked => blocked.items
  | none => []

/-- `wpcp_blocked_item_for_notify_item`: the first of the results of the session that
has accepted the item. -/
def blockedItemForNotifyItem (publishItem : ℕ) : Calls (Option ℕ) := do
  let i ← publishItems.read publishItem
  let σ ← sessions.read i.session
  let w ← getWorld
  pure (σ.results.find? fun result => publishItem ∈ w.blockedItems result)

/-- `wpcp_session_add_publish_queue_item` -/
def sessionAddPublishQueueItem (publishItem : ℕ) (entry : Entry) : Calls Unit := do
  match ← blockedItemForNotifyItem publishItem with
  | some result => do
    let ret ← results.read result
    match ret.blockedItems with
    | some blocked =>
      results.write result { ret with
        blockedItems := some { blocked with publishQueue := blocked.publishQueue ++ [entry] } }
    | none => pure ()
  | none => do
    let i ← publishItems.read publishItem
    sessionPublishQueueAppend i.session entry []

/-- The loop of `wpcp_publish_handle_publish`, over the items that are left. -/
def publishEntries (data : ℕ) : ℕ → List ℕ → Calls Unit
  | 0, _ => pure ()
  | _ + 1, [] => Attempt.fail .dangling
  | length + 1, publishItem :: next => do
    let i ← publishItems.read publishItem
    sessionAddPublishQueueItem publishItem
      { subscriptionid := i.subscriptionid, data := data, item := publishItem }
    publishEntries data length next

/-- `wpcp_publish_handle_publish` -/
def publishHandlePublish (handle : PublishHandle) : Calls (Option ℕ) := do
  assert (handle.length ≠ 0)
  let data ← malloc
  if data then do
    let outputBuffer ← writeBufferInit
    let data ← publishData.new
      { referencesActual := handle.length, outputBuffer := outputBuffer }
    emit (.published data (handle.items.take handle.length)) []
    publishEntries data handle.length handle.items
    pure (some data)
  else pure none

/-- `wpcp_publish_general` -/
def publishGeneral (handle : PublishHandle) : Calls (Option ℕ) := do
  if handle.length = 0 then pure none
  else do
    match ← publishHandlePublish handle with
    | some data => pure (some data)
    | none =>
      match handle.items with
      | [] => Attempt.fail .dangling
      | item :: _ => do
        let i ← publishItems.read item
        let σ ← sessions.read i.session
        sessions.write i.session { σ with out := { σ.out with kill := true } }
        pure none

/-! ### Results -/

/-- `wpcp_request_result` -/
def requestResult (session requestId payloadCount : ℕ) : Calls (Option ℕ) := do
  let ret ← malloc
  assert (payloadCount ≠ 0)
  if ret then do
    let outputBuffer ← writeBufferInit
    let ret ← results.new
      { session := some session
        blockedItems := none
        requestId := requestId
        requestPayloadCount := payloadCount
        remaining := payloadCount
        remainingSubresults := 0
        outputBuffer := outputBuffer
        granted := []
        overlapped := false }
    let σ ← sessions.read session
    sessions.write session { σ with results := ret :: σ.results }
    pure (some ret)
  else pure none

/-- The bytes that are asked for a list of blocked items: a `struct wpcp_blocked_item_list_t`
of two pointers and a first item, and an item for each answer that is missing. -/
def blockedItemsSize (sizeT : SizeT) (remaining : ℕ) : ℕ :=
  (3 * pointerSize sizeT + remaining * pointerSize sizeT % sizeT.count) % sizeT.count

/-- How many items lie inside these bytes. -/
def blockedItemsCells (sizeT : SizeT) (remaining : ℕ) : ℕ :=
  blockedItemsSize sizeT remaining / pointerSize sizeT - 2

/-- The list of blocked items of a result, which is allocated when there is none. -/
def getBlockedItems (ret : Result) : Calls (Option BlockedItemList) :=
  match ret.blockedItems with
  | some blocked => pure (some blocked)
  | none => do
    let blocked ← malloc
    let w ← getWorld
    pure (if blocked then some ⟨[], [], blockedItemsCells w.sizeT ret.remaining⟩ else none)

/-- `wpcp_result_get_blocked_publish_item_target`: the place of the first null pointer,
which has to be followed by another one; both have to lie inside the list. -/
def resultGetBlockedPublishItemTarget (result : ℕ) : Calls (Option ℕ) := do
  let ret ← results.read result
  let blocked ← getBlockedItems ret
  results.write result { ret with blockedItems := blocked }
  match blocked with
  | none => pure none
  | some blocked =>
    if blocked.items.length + 1 < blocked.slots then pure (some blocked.items.length)
    else Attempt.fail .dangling

/-- `*blocked_publish_item_target = publish_item`, and the record of the id. -/
def setBlockedPublishItem (result id item : ℕ) : Calls Unit := do
  let ret ← results.read result
  match ret.blockedItems with
  | some blocked =>
    results.write result { ret with
      blockedItems := some { blocked with items := blocked.items ++ [item] }
      granted := ret.granted ++ [(id, item)] }
  | none => Attempt.fail .dangling

/-- The part of `wpcp_release_result` that sends what a complete result holds: the RESULT
and the entries that have waited for it. -/
def sendResult (result : ℕ) (ret : Result) : Calls Unit :=
  match ret.session with
  | some session => do
    let σ ← sessions.read session
    sessions.write session { σ with results := σ.results.erase result }
    sessionAppendOutMessage session .result ret.requestId (ret.requestPayloadCount * 2 % 2 ^ 32)
      ret.outputBuffer ret.granted
    match ret.blockedItems with
    | some ⟨first :: rest, _, _⟩ => sessionPublishQueueAppend session first rest
    | _ => pure ()
  | none =>
    match ret.blockedItems with
    | some blocked => publishQueueItemsDeref blocked.publishQueue
    | none => pure ()

/-- `wpcp_release_result` -/
def releaseResult (result : ℕ) : Calls Unit := do
  let ret ← results.read result
  let remaining := (ret.remaining + (2 ^ 32 - 1)) % 2 ^ 32
  results.write result { ret with remaining := remaining }
  if remaining ≠ 0 then pure ()
  else do
    sendResult result ret
    results.free result

/-- A write to the output buffer of a result. -/
def writeResult (result : ℕ) (f : WriteBuffer → Option WriteBuffer) : Calls Unit := do
  let ret ← results.read result
  match f ret.outputBuffer with
  | some outputBuffer => results.write result { ret with outputBuffer := outputBuffer }
  | none => Attempt.fail .encoder

/-- `wpcp_result_add_diagnostic_info` -/
def resultAddDiagnosticInfo (result : ℕ) (diagnosticInfo : Option (Value (List UInt8))) :
    Calls Unit := do
  let w ← getWorld
  match diagnosticInfo with
  | some value => writeResult result fun buffer => buffer.writeWpcpValue w.sizeT value
  | none => writeResult result fun buffer => some buffer.writeNull

/-- `wpcp_result_add_unsigned_integer` -/
def resultAddUnsignedInteger (result : ℕ) (diagnosticInfo : Option (Value (List UInt8)))
    (value : ℕ) : Calls Unit := do
  resultAddDiagnosticInfo result diagnosticInfo
  writeResult result fun buffer => some (buffer.writeUnsignedInteger value)
  releaseResult result

/-- `wpcp_result_add_value` -/
def resultAddValue (result : ℕ) (diagnosticInfo : Option (Value (List UInt8)))
    (value : Value (List UInt8)) : Calls Unit := do
  resultAddDiagnosticInfo result diagnosticInfo
  let w ← getWorld
  writeResult result fun buffer => buffer.writeWpcpValue w.sizeT value
  releaseResult result

/-- `wpcp_request_subresult` -/
def requestSubresult (result count : ℕ) : Calls Unit := do
  writeResult result fun buffer => some (buffer.writeArrayHeader count)
  if count ≠ 0 then do
    let ret ← results.read result
    results.write result { ret with
      remainingSubresults := count
      overlapped := ret.overlapped || ret.remainingSubresults != 0 }
  else releaseResult result

/-- `wpcp_release_subresult` -/
def releaseSubresult (result : ℕ) : Calls Unit := do
  let ret ← results.read result
  let remainingSubresults := (ret.remainingSubresults + (2 ^ 32 - 1)) % 2 ^ 32
  results.write result { ret with remainingSubresults := remainingSubresults }
  if remainingSubresults ≠ 0 then pure ()
  else releaseResult result

/-- `wpcp_release_dummy_unsubscribe_result`, for a result without a session. -/
def releaseDummyUnsubscribeResult (result : ℕ) : Calls Unit := do
  let ret ← results.read result
  assert (ret.session = none)
  let remaining := (ret.remaining + (2 ^ 32 - 1)) % 2 ^ 32
  results.write result { ret with remaining := remaining }
  if remaining ≠ 0 then pure ()
  else results.free result

end Wpcp
