import Wpcp.Session.Application

/-!
# Handling a message

`wpcp_session_handle_in_message` reads a message and calls the application while it
does: the header, the handler of the message id, and for most handlers one call of a
callback for each map in the message. Reading and answering interleave, so that these
functions are attempts on a world together with a read buffer.

The application is a function from the world, with all events so far, to the calls it
makes before its callback returns; calls it may not make are left out.
-/

namespace Wpcp

open Cbor (SizeT Machine ReadBuffer Reading Value StringData WriteBuffer MapItem)

/-! ### The handlers -/

/-- `ADD_HANDLE_FUNCTION_GENERAL` -/
def handleFunctionGeneral (name : String) (handleFunction : Option HandleFunction) :
    MessageHandler where
  type := .general
  name := name
  handleFunction := handleFunction
  handleFunctionItems := none
  mapItems := []

/-- `ADD_HANDLE_FUNCTION_CALL` -/
def handleFunctionCall (callbacks : Callback → Bool) (name : String) (callback : Callback)
    (handleFunction : HandleFunction) : List MessageHandler :=
  if callbacks callback then
    [{ type := .call
       name := name
       handleFunction := some handleFunction
       handleFunctionItems := none
       mapItems := [] }]
  else []

/-- `ADD_HANDLE_FUNCTION` -/
def handleFunctionItems (callbacks : Callback → Bool) (type : MessageType) (name : String)
    (handler : HandleFunctionItems) (mapItems : List String) : List MessageHandler :=
  if callbacks (.items handler) then
    [{ type := type
       name := name
       handleFunction := none
       handleFunctionItems := some handler
       mapItems := mapItems }]
  else []

/-- The handlers for the items of requests. -/
def itemHandlers (callbacks : Callback → Bool) : List MessageHandler :=
  handleFunctionItems callbacks .call "readdata" .readData ["id"] ++
  handleFunctionItems callbacks .call "browse" .browse ["id"] ++
  handleFunctionItems callbacks .call "writedata" .writeData ["id", "value"] ++
  handleFunctionItems callbacks .call "handlealarm" .handleAlarm ["token", "acknowledged"] ++
  handleFunctionItems callbacks .call "readhistorydata" .readHistoryData
    ["id", "starttime", "endtime", "maxresults", "aggregation", "interval"] ++
  handleFunctionItems callbacks .call "readhistoryalarm" .readHistoryAlarm
    ["id", "starttime", "endtime", "maxresults", "filter"] ++
  handleFunctionItems callbacks .subscribeState "subscribedata" .subscribeData ["id"] ++
  handleFunctionItems callbacks .subscribeFilter "subscribealarm" .subscribeAlarm
    ["id", "filter"]

/-- The array that `wpcp_setup_message_handler` fills. -/
def messageHandlers (callbacks : Callback → Bool) : List MessageHandler :=
  handleFunctionGeneral "publish" none ::
    handleFunctionGeneral "processed" (some .processed) ::
    handleFunctionGeneral "result" none ::
    (handleFunctionCall callbacks "unsubscribe" .unsubscribe .unsubscribe ++
      itemHandlers callbacks)

/-- `wpcp_setup_message_handler` -/
def setupMessageHandler : Calls Unit :=
  modifyWorld fun w =>
    if w.messageHandler ≠ [] then w
    else { w with messageHandler := messageHandlers w.callbacks }

/-- A fresh session. -/
def Session.create : Session where
  results := []
  publishItems := []
  nextFreePublishItem := 1
  helloFinished := false
  out := .create
  handedOut := []
  ops := []
  slotsAdded := 0
  slotsPeak := 2 ^ 32 - 1

/-- `wpcp_session_create` -/
def sessionCreate : Calls (Option ℕ) := do
  let ret ← malloc
  if ret then do
    let ret ← sessions.new .create
    setupMessageHandler
    pure (some ret)
  else pure none

/-! ### Handling -/

/-- A function that handles a message. -/
abbrev Handling (α : Type) : Type := Attempt (World × ReadBuffer) Stop α

/-- A call of the library, while a message is handled. -/
def calls {α : Type} (m : Calls α) : Handling α := fun s =>
  match m s.1 with
  | none => none
  | some (ret, w) => some (ret, (w, s.2))

/-- A read from the message; `none` is `NULL`. -/
def reading {α : Type} (m : Reading α) : Handling (Option α) := fun s =>
  match m s.2 with
  | none => none
  | some (.ok a, b) => some (.ok (some a), (s.1, b))
  | some (.error .null, b) => some (.ok none, (s.1, b))
  | some (.error .aborted, b) => some (.error .decoder, (s.1, b))

/-- `read_buffer.begin` -/
def readBegin : Handling ℕ := fun s => some (.ok s.2.beginPtr, s)

/-- `read_buffer.end == read_buffer.begin` -/
def atEnd : Handling Bool := fun s => some (.ok (s.2.endPtr = s.2.beginPtr), s)

/-- What the application does in its callbacks. -/
abbrev Application : Type := World → List Call

/-- The calls the application makes, one after the other. -/
def performAll : List Call → Calls Unit
  | [] => pure ()
  | call :: rest => do
    call.performLegal
    performAll rest

/-- A callback of the application. -/
def callback (app : Application) (event : Event) (owed : List Owed) : Calls Unit := do
  emit event owed
  let w ← getWorld
  performAll (app w)

section Handlers

variable (M : Machine) (app : Application) (fuel session : ℕ)

/-- What is written in answer to the hello message. -/
def helloAnswer (buf : WriteBuffer) (messageHandler : List MessageHandler) : WriteBuffer :=
  let buf := buf.writeMapHeader 2
  let buf := (buf.writeTextString (ascii "role")).writeUnsignedInteger 1
  let buf := (buf.writeTextString (ascii "methods")).writeArrayHeader
    (messageHandler.length * 2 % 2 ^ 32)
  messageHandler.foldl
    (fun buf handler =>
      (buf.writeTextString (ascii handler.name)).writeUnsignedInteger handler.type.toNat) buf

/-- `wpcp_session_handle_hello_message` -/
def sessionHandleHelloMessage (requestId payloadCount : ℕ) : Handling Bool := do
  if payloadCount = 0 then pure false
  else do
    match ← reading (Cbor.readMapItems M fuel [⟨ascii "role", none⟩]) with
    | some (true, _) => do
      let buf ← calls writeBufferInit
      let w ← calls getWorld
      calls (sessionAppendOutMessage session .result requestId 1
        (helloAnswer buf w.messageHandler) [])
      let σ ← calls (sessions.read session)
      calls (sessions.write session { σ with helloFinished := true })
      pure true
    | _ => pure false

/-- `wpcp_session_handle_processed_message` -/
def sessionHandleProcessedMessage (payloadCount : ℕ) : Handling Bool :=
  pure (payloadCount = 0)

/-- The part of the loop of `wpcp_session_handle_unsubscribe_message` between reading an
id and the callback: the item with the id is released, its subscription retained. -/
def unsubscribeItem (subscriptionId : ℕ) : Calls (Option ℕ) := do
  let σ ← sessions.read session
  match σ.publishItems[subscriptionId]? with
  | some (some item) => do
    let i ← publishItems.read item
    assert (i.subscriptionid = subscriptionId)
    let subscription ← retainSubscription i.subscription
    sessionReleasePublishItem session item
    pure (some subscription)
  | _ => pure none

/-- The loop of `wpcp_session_handle_unsubscribe_message`. -/
def unsubscribeItems (result : ℕ) : ℕ → Bool → Handling Bool
  | 0, ret => pure ret
  | payloadCount + 1, ret => do
    match ← reading (Cbor.readUnsignedInteger M 0) with
    | some (ok, subscriptionId) => do
      let subscription ← calls (unsubscribeItem session subscriptionId)
      calls (callback app (.unsubscribe result payloadCount subscription)
        [.unsubscribe result subscription])
      unsubscribeItems result payloadCount (ret && ok)
    | none => Attempt.fail .decoder

/-- `wpcp_session_handle_unsubscribe_message` -/
def sessionHandleUnsubscribeMessage (requestId payloadCount : ℕ) : Handling Bool := do
  match ← calls (requestResult session requestId payloadCount) with
  | none => pure false
  | some result => unsubscribeItems M app session result payloadCount true

/-- A `handle_function` is called. -/
def callHandleFunction (requestId payloadCount : ℕ) : HandleFunction → Handling Bool
  | .processed => sessionHandleProcessedMessage payloadCount
  | .unsubscribe => sessionHandleUnsubscribeMessage M app session requestId payloadCount

/-- What the callback of an item leaves the application to answer. -/
def itemOwed (type : MessageType) (result : ℕ) (subscription : Option ℕ) : List Owed :=
  match type with
  | .call | .general => [.item result]
  | _ => [subscription.elim (.unanswerable result) (.subscribe result)]

/-- The request of a subscription in the loop of `wpcp_session_handle_in_message`: the key
is what has been read of the item, from the address `key` on. -/
def itemSubscription (handler : MessageHandler) (messageId key : ℕ) : Handling (Option ℕ) := do
  if handler.type ≠ .call then do
    let begin ← readBegin
    let keyLength := (begin + (M.sizeT.count - key)) % M.sizeT.count
    calls (emit (.requestSubscription messageId key keyLength) [])
    calls (requestSubscription messageId (M.slice key keyLength))
  else pure none

/-- One round of the loop of `wpcp_session_handle_in_message`; `remaining` is what the
callback is given. -/
def handleItem (handler : MessageHandler) (callbackItems : HandleFunctionItems)
    (messageId result remaining : ℕ) (ret : Bool) : Handling Bool := do
  let key ← readBegin
  let map : List MapItem := handler.mapItems.map fun key => ⟨ascii key, none⟩
  match ← reading (Cbor.readMapItems M fuel map) with
  | some (ok, items) => do
    calls (assert (handler.type ≠ .general))
    let subscription ← itemSubscription M handler messageId key
    calls (callback app
      (.item callbackItems result remaining (items.map.map MapItem.value) items.additional
        subscription)
      (itemOwed handler.type result subscription))
    pure (ret && ok && (handler.type = .call || subscription.isSome))
  | none => Attempt.fail .decoder

/-- The loop of `wpcp_session_handle_in_message`. -/
def handleItems (handler : MessageHandler) (callbackItems : HandleFunctionItems)
    (messageId result : ℕ) : ℕ → Bool → Handling Bool
  | 0, ret => pure ret
  | remaining + 1, ret => do
    let ret ← handleItem M app fuel handler callbackItems messageId result remaining ret
    handleItems handler callbackItems messageId result remaining ret

/-- The part of `wpcp_session_handle_in_message` that calls `handle_function_items`. -/
def callHandleFunctionItems (handler : MessageHandler) (messageId requestId arrayCount : ℕ) :
    Handling Bool := do
  match handler.handleFunctionItems with
  | none => Attempt.fail .aborted
  | some callbackItems =>
    if arrayCount ≠ 0 then do
      calls (assert (handler.mapItems.length ≤ 8))
      match ← calls (requestResult session requestId arrayCount) with
      | none => pure false
      | some result => do
        let ret ← handleItems M app fuel handler callbackItems messageId result arrayCount true
        if ret then atEnd
        else pure false
    else do
      let payload ← calls writeBufferInit
      calls (sessionAppendOutMessage session .result requestId 0 payload [])
      atEnd

/-- `wpcp_session_handle_in_message`, after the header. -/
def dispatch (messageId requestId arrayCount : ℕ) : Handling Bool := do
  let σ ← calls (sessions.read session)
  if ¬σ.helloFinished then sessionHandleHelloMessage M fuel session requestId arrayCount
  else do
    let w ← calls getWorld
    match w.messageHandler[messageId]? with
    | none => pure false
    | some handler =>
      match handler.handleFunction with
      | some handleFunction =>
        callHandleFunction M app session requestId arrayCount handleFunction
      | none =>
        callHandleFunctionItems M app fuel session handler messageId requestId arrayCount

/-- The header of a message: the message id, the request id and the number of payload
elements that are announced. -/
def readMessageHeader : Reading (ℕ × ℕ × ℕ) := do
  let (ok, arrayCount) ← Cbor.readArrayHeader M
  if ¬ok then Attempt.fail .null
  else if arrayCount < 2 then Attempt.fail .null
  else do
    let (ok, messageId) ← Cbor.readUnsignedInteger M 0
    if ¬ok then Attempt.fail .null
    else do
      let (ok, requestId) ← Cbor.readUnsignedInteger M 0
      if ¬ok then Attempt.fail .null
      else pure (messageId, requestId, arrayCount - 2)

/-- `wpcp_session_handle_in_message`, from the first byte on. -/
def handleMessage : Handling Bool := do
  match ← reading (readMessageHeader M) with
  | none => pure false
  | some (messageId, requestId, arrayCount) =>
    dispatch M app fuel session messageId requestId arrayCount

/-- The read buffer for a message; its allocations are every other one of those to
come. -/
def readBuffer (M : Machine) (data size : ℕ) (malloc : ℕ → Bool) : ReadBuffer where
  beginPtr := data
  endPtr := (data + size) % M.sizeT.count
  malloc := fun n => malloc (2 * n)
  lowered := false

/-- `wpcp_session_handle_in_message` -/
def sessionHandleInMessage (data size : ℕ) : Calls Bool := fun w =>
  let w' := { w with malloc := fun n => w.malloc (2 * n + 1) }
  match (handleMessage M app fuel session) (w', readBuffer M data size w.malloc) with
  | none => none
  | some (ret, s) => some (ret, s.1)

end Handlers

end Wpcp
