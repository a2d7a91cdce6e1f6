import Wpcp.Cbor.MapReader
import Wpcp.Cbor.ItemWriter
import Wpcp.Lib.DoublyLinked
import Wpcp.Lib.Heap
import Wpcp.Session.OutQueue

/-!
# The objects of the library

The state the library works on: the one `struct wpcp_internal_t`, and the sessions,
results, publish items, subscriptions and publish data blocks that have been allocated,
each on a heap of its own. A pointer is the number of an object; following the pointer
to an object that has been freed stops the program (`Stop.dangling`), as a failed
assertion does (`Stop.aborted`). Linked lists are lists of numbers; of the publish items of a
subscription there are the links of the source as well (`World.itemLinks`).

A few fields are not in the source and are only written to: which publish item an entry
was published to, which ids a RESULT grants, whether sub-items were announced while others were
to be delivered, of each session the calls of `Wpcp.OutOp` made
on it, the messages handed out and the publish slots added, and the most references there
have been. `owed` holds what the application still has to answer, and `events` the calls of
its callbacks.
-/

namespace Wpcp

open Cbor (SizeT Value StringData WriteBuffer AdditionalItem)

/-! ### Messages and handlers -/

/-- `enum wpcp_message_id_t` -/
inductive MessageId where
  | publish
  | processed
  | result
  deriving DecidableEq

/-- The number of a message id. -/
def MessageId.toNat : MessageId → ℕ
  | .publish => 0
  | .processed => 1
  | .result => 2

/-- `enum wpcp_message_type_t` -/
inductive MessageType where
  | general
  | call
  | subscribeEvent
  | subscribeState
  | subscribeFilter
  deriving DecidableEq

namespace MessageType

/-- The number of a message type. -/
def toNat : MessageType → ℕ
  | .general => 0
  | .call => 1
  | .subscribeEvent => 2
  | .subscribeState => 3
  | .subscribeFilter => 4

end MessageType

/-- The functions `handle_function` of a handler can point to. -/
inductive HandleFunction where
  | processed
  | unsubscribe
  deriving DecidableEq

/-- The functions `handle_function_items` of a handler can point to, which are named
after the callbacks they call. -/
inductive HandleFunctionItems where
  | readData
  | browse
  | writeData
  | handleAlarm
  | readHistoryData
  | readHistoryAlarm
  | subscribeData
  | subscribeAlarm
  deriving DecidableEq

/-- `struct wpcp_message_handler_t`; the null pointer is `none`. -/
structure MessageHandler where
  type : MessageType
  name : String
  handleFunction : Option HandleFunction
  handleFunctionItems : Option HandleFunctionItems
  mapItems : List String

/-! ### Objects -/

/-- `struct wpcp_publish_queue_item_t`, an entry of a publish queue. -/
structure Entry where
  subscriptionid : ℕ
  /-- The publish data block. -/
  data : ℕ
  /-- The publish item the entry was published to (not in the source). -/
  item : ℕ
  deriving DecidableEq

/-- An id that a RESULT grants, and the publish item it is for (not in the source). -/
structure Granted where
  subscriptionid : ℕ
  item : ℕ
  /-- The id had been given to another item when the RESULT was queued. -/
  reused : Bool
  deriving DecidableEq

/-- What a queued message says: the header, the bytes copied from the output buffer,
and the ids it grants. -/
structure QueuedOutMessage where
  messageId : MessageId
  requestId : ℕ
  payloadCount : ℕ
  usedSize : ℕ
  content : Option (List UInt8)
  granted : List Granted

/-- `struct wpcp_publish_item_t`; `next` and `prev` are in `World.itemLinks`. -/
structure PublishItem where
  subscription : ℕ
  session : ℕ
  subscriptionid : ℕ
  deriving DecidableEq

/-- `struct wpcp_publish_handle_t` -/
structure PublishHandle where
  length : ℕ
  items : List ℕ
  deriving DecidableEq

/-- `struct wpcp_subscription_t` -/
structure Subscription where
  publishHandle : PublishHandle
  referenceCount : ℕ
  type : ℕ
  key : List UInt8
  deriving DecidableEq

/-- `struct wpcp_publish_queue_item_data_t` -/
structure PublishQueueItemData where
  referencesActual : ℕ
  outputBuffer : WriteBuffer

/-- `struct wpcp_blocked_item_list_t` -/
structure BlockedItemList where
  publishQueue : List Entry
  /-- The items before the first null pointer. -/
  items : List ℕ
  /-- How many places for items are allocated. -/
  slots : ℕ
  deriving DecidableEq

/-- `struct wpcp_result_t` -/
structure Result where
  session : Option ℕ
  blockedItems : Option BlockedItemList
  requestId : ℕ
  requestPayloadCount : ℕ
  remaining : ℕ
  remainingSubresults : ℕ
  outputBuffer : WriteBuffer
  /-- The ids written to the output buffer, with their items (not in the source). -/
  granted : List (ℕ × ℕ)
  /-- Sub-items were announced while others were still to be delivered (not in the source). -/
  overlapped : Bool

/-- `struct wpcp_session_t` -/
structure Session where
  results : List ℕ
  publishItems : List (Option ℕ)
  nextFreePublishItem : ℕ
  helloFinished : Bool
  out : OutState QueuedOutMessage Entry
  /-- The messages handed out (not in the source). -/
  handedOut : List (OutMessage Entry)
  /-- The calls made on `out` (not in the source). -/
  ops : List (OutOp QueuedOutMessage Entry)
  /-- How many free publish slots have been added (not in the source). -/
  slotsAdded : ℕ
  /-- The most free publish slots there have been, without wrapping (not in the source). -/
  slotsPeak : ℕ

/-- `struct wpcp_out_message_t`, as it is handed out. -/
structure OutData where
  /-- How many bytes have been allocated behind the header of the allocation. -/
  allocated : ℕ
  /-- What is at `data`: a byte that has not been written is `none`. -/
  data : List (Option UInt8)
  /-- `none` is the distance to the null pointer. -/
  length : Option ℕ
  deriving DecidableEq

/-! ### The world -/

/-- The callbacks of `struct wpcp_t` that are set or not. -/
inductive Callback where
  | unsubscribe
  | items (handler : HandleFunctionItems)
  deriving DecidableEq

/-- A call of a callback of the application, or one of four things of which the library
does not keep a record. -/
inductive Event where
  /-- `wpcp_request_subscription`, with the range of the key in memory. -/
  | requestSubscription (type key keyLength : ℕ)
  /-- The callback of an item. -/
  | item (handler : HandleFunctionItems) (result remaining : ℕ)
      (map : List (Option (Value StringData))) (additional : List AdditionalItem)
      (subscription : Option ℕ)
  /-- `unsubscribe.ex_cb` -/
  | unsubscribe (result remaining : ℕ) (subscription : Option ℕ)
  /-- `republish.ex_cb` -/
  | republish (handle subscription : ℕ)
  /-- `wpcp_publish_handle_publish` has allocated the data block for the items of a handle. -/
  | published (data : ℕ) (items : List ℕ)
  /-- `wpcp_publish_item_release`; the item may still be referred to by a result that waits
  or by a handle given to `republish.ex_cb`. -/
  | released (item : ℕ) (referenced : Bool)
  /-- `wpcp_session_out_message_create` has returned a message; `contents` is what the output
  buffers it was built from hold, or `none` for a broken one. -/
  | handedOut (session : ℕ) (message : OutMessage Entry) (contents : List (Option (List UInt8)))
      (data : OutData)

/-- What the application owes an answer for. -/
inductive Owed where
  /-- An item of a request other than the next two. -/
  | item (result : ℕ)
  /-- An item of a subscribe request. -/
  | subscribe (result subscription : ℕ)
  /-- An item of a subscribe request for which there is no subscription, because an
  allocation has failed: every answer to it would use the null pointer. -/
  | unanswerable (result : ℕ)
  /-- An element of an unsubscribe message. -/
  | unsubscribe (result : ℕ) (subscription : Option ℕ)
  /-- An item announced by the answer to a browse or history request. -/
  | subitem (result : ℕ)
  /-- The return from the callback in `wpcp_return_subscribe_alias`. -/
  | alias (subscription : ℕ)
  deriving DecidableEq

/-- Everything the library and the application share. -/
structure World where
  sizeT : SizeT
  /-- `out_message_pre_padding` -/
  outMessagePrePadding : ℕ
  /-- `out_message_post_padding` -/
  outMessagePostPadding : ℕ
  /-- The callbacks that are set. -/
  callbacks : Callback → Bool
  messageHandler : List MessageHandler
  /-- `subscriptions`, of length `subscription_count`. -/
  subscriptionTable : List ℕ
  subscriptions : Heap Subscription
  publishItems : Heap PublishItem
  /-- Of each subscription `publish_handle.items`, and of each publish item `next` and `prev`. -/
  itemLinks : Linked.Links ℕ ℕ
  publishData : Heap PublishQueueItemData
  /-- The handles of a single publish item that `republish.ex_cb` is given. -/
  republishHandles : Heap ℕ
  results : Heap Result
  sessions : Heap Session
  /-- Which of the coming allocations succeed. -/
  malloc : ℕ → Bool
  owed : List Owed
  events : List Event
  /-- The most references to a subscription there have been, without wrapping (not in the
  source). -/
  referencesPeak : ℕ

/-- Why a call does not return. -/
inductive Stop where
  /-- An assertion fails, or a null pointer is called as a function. -/
  | aborted
  /-- Memory is used that is not allocated. -/
  | dangling
  /-- An assertion of the decoder fails. -/
  | decoder
  /-- An assertion of the encoder fails, on a value of the application. -/
  | encoder
  deriving DecidableEq

/-- A function of the library. -/
abbrev Calls (α : Type) : Type := Attempt World Stop α

namespace World

/-- `wpcp_create`, with the callbacks then set. -/
def create (sizeT : SizeT) (callbacks : Callback → Bool) (malloc : ℕ → Bool) : World where
  sizeT := sizeT
  outMessagePrePadding := 0
  outMessagePostPadding := 0
  callbacks := callbacks
  messageHandler := []
  subscriptionTable := []
  subscriptions := .empty
  publishItems := .empty
  itemLinks := .empty
  publishData := .empty
  republishHandles := .empty
  results := .empty
  sessions := .empty
  malloc := malloc
  owed := []
  events := []
  referencesPeak := 1

end World

/-! ### Allocation and pointers -/

/-- `wpcp_malloc`, `wpcp_calloc` or `wpcp_realloc`: whether the next allocation succeeds. -/
def malloc : Calls Bool := fun w =>
  some (.ok (w.malloc 0), { w with malloc := fun n => w.malloc (n + 1) })

/-- `WPCP_ASSERT` -/
def assert (condition : Prop) [Decidable condition] : Calls Unit :=
  if condition then pure () else Attempt.fail .aborted

/-- The state. -/
def getWorld : Calls World := fun w => some (.ok w, w)

/-- To change the state. -/
def modifyWorld (f : World → World) : Calls Unit := fun w => some (.ok (), f w)

/-- `wpcp_cbor_write_buffer_init`; the allocations of the buffer are every other one of
those to come. -/
def writeBufferInit : Calls WriteBuffer := fun w =>
  some (.ok (.init fun n => w.malloc (2 * n)), { w with malloc := fun n => w.malloc (2 * n + 1) })

/-- The heap of the objects of one type, in the world. -/
structure Place (α : Type) where
  heap : World → Heap α
  put : Heap α → World → World

namespace Place

variable {α : Type} (p : Place α)

/-- To allocate an object. -/
def new (a : α) : Calls ℕ := fun w =>
  some (.ok (p.heap w).next, p.put ((p.heap w).alloc a) w)

/-- To read an object. -/
def read (r : ℕ) : Calls α := fun w =>
  match (p.heap w).get r with
  | some a => some (.ok a, w)
  | none => some (.error .dangling, w)

/-- To write an object. -/
def write (r : ℕ) (a : α) : Calls Unit := fun w =>
  match (p.heap w).get r with
  | some _ => some (.ok (), p.put ((p.heap w).set r a) w)
  | none => some (.error .dangling, w)

/-- `wpcp_free` -/
def free (r : ℕ) : Calls Unit := fun w =>
  match (p.heap w).get r with
  | some _ => some (.ok (), p.put ((p.heap w).free r) w)
  | none => some (.error .dangling, w)

end Place

/-- The subscriptions. -/
abbrev subscriptions : Place Subscription :=
  ⟨World.subscriptions, fun h w => { w with subscriptions := h }⟩

/-- The publish items. -/
abbrev publishItems : Place PublishItem :=
  ⟨World.publishItems, fun h w => { w with publishItems := h }⟩

/-- The publish data blocks. -/
abbrev publishData : Place PublishQueueItemData :=
  ⟨World.publishData, fun h w => { w with publishData := h }⟩

/-- The handles given to the application for one publish item. -/
abbrev republishHandles : Place ℕ :=
  ⟨World.republishHandles, fun h w => { w with republishHandles := h }⟩

/-- The results. -/
abbrev results : Place Result := ⟨World.results, fun h w => { w with results := h }⟩

/-- The sessions. -/
abbrev sessions : Place Session := ⟨World.sessions, fun h w => { w with sessions := h }⟩

/-- A callback is called. -/
def emit (event : Event) (owed : List Owed) : Calls Unit := fun w =>
  some (.ok (), { w with events := w.events ++ [event], owed := w.owed ++ owed })

end Wpcp
