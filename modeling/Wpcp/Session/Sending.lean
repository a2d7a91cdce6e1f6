import Wpcp.Session.Frame

/-!
# What a session has to send

The functions that give a session something to send change nothing else, and their effect on
the session is known to the last field: a message is queued (`Wpcp.Session.appended`),
entries are put into the publish queue (`Wpcp.Session.queued`), and a complete result is sent
with the entries that have waited for it (`Wpcp.Session.completed`).
-/

namespace Wpcp

open Cbor (WriteBuffer)

/-- The message of `wpcp_session_append_out_message`. -/
def Session.outMessage (σ : Session) (messageId : MessageId) (requestId payloadCount : ℕ)
    (buffer : WriteBuffer) (granted : List (ℕ × ℕ)) : QueuedOutMessage :=
  { messageId := messageId
    requestId := requestId
    payloadCount := payloadCount
    usedSize := buffer.usedSize
    content := buffer.writeWriteBuffer
    granted := grantedNow σ granted }

/-- The session after `wpcp_session_append_out_message`. -/
def Session.appended (σ : Session) (ret : Bool) (message : QueuedOutMessage) : Session :=
  { σ with
    out := σ.out.sessionAppendOutMessage ret message
    ops := if ret then σ.ops ++ [.append message] else σ.ops }

/-- The session after `wpcp_session_publish_queue_append`. -/
def Session.queued (σ : Session) (first : Entry) (rest : List Entry) : Session :=
  { σ with
    out := σ.out.sessionPublishQueueAppend first rest
    ops := σ.ops ++ [.publish first rest] }

/-- The session after entries, or none, have been put into its publish queue. -/
def Session.queuedAll (σ : Session) : List Entry → Session
  | [] => σ
  | first :: rest => σ.queued first rest

/-- The entries that wait with a result. -/
def Result.entries (ret : Result) : List Entry :=
  ret.blockedItems.elim [] BlockedItemList.publishQueue

/-- The items that a result has accepted. -/
def Result.items (ret : Result) : List ℕ := ret.blockedItems.elim [] BlockedItemList.items

/-- The RESULT message of a result of the session. -/
def Session.resultMessage (σ : Session) (ret : Result) : QueuedOutMessage :=
  σ.outMessage .result ret.requestId (ret.requestPayloadCount * 2 % 2 ^ 32) ret.outputBuffer
    ret.granted

/-- The session after one of its results is complete. -/
def Session.completed (σ : Session) (result : ℕ) (ret : Result) (ok : Bool) : Session :=
  (Session.appended { σ with results := σ.results.erase result } ok
    (σ.resultMessage ret)).queuedAll ret.entries

@[simp] theorem Session.handedOut_completed (σ : Session) (r : ℕ) (ret : Result) (ok : Bool) :
    (σ.completed r ret ok).handedOut = σ.handedOut := by
  rw [Session.completed]
  cases ret.entries with
  | nil => rfl
  | cons first rest => rfl

@[simp] theorem Session.results_completed (σ : Session) (r : ℕ) (ret : Result) (ok : Bool) :
    (σ.completed r ret ok).results = σ.results.erase r := by
  rw [Session.completed]
  cases ret.entries with
  | nil => rfl
  | cons first rest => rfl

@[simp] theorem Session.freePublishSlots_completed (σ : Session) (r : ℕ) (ret : Result)
    (ok : Bool) : (σ.completed r ret ok).out.freePublishSlots = σ.out.freePublishSlots := by
  have happend := σ.out.freePublishSlots_appendOutMessage (σ.resultMessage ret) ok
  rw [Session.completed]
  cases ret.entries with
  | nil => exact happend
  | cons first rest => exact (OutState.freePublishSlots_publishQueueAppend _ _ _).trans happend

@[simp] theorem Session.slotsAdded_completed (σ : Session) (r : ℕ) (ret : Result) (ok : Bool) :
    (σ.completed r ret ok).slotsAdded = σ.slotsAdded := by
  rw [Session.completed]
  cases ret.entries with
  | nil => rfl
  | cons first rest => rfl

@[simp] theorem Session.slotsPeak_completed (σ : Session) (r : ℕ) (ret : Result) (ok : Bool) :
    (σ.completed r ret ok).slotsPeak = σ.slotsPeak := by
  rw [Session.completed]
  cases ret.entries with
  | nil => rfl
  | cons first rest => rfl

/-- **The entries that have waited follow** those in the publish queue. -/
@[simp] theorem Session.publishQueue_completed (σ : Session) (r : ℕ) (ret : Result) (ok : Bool) :
    (σ.completed r ret ok).out.publishQueue = σ.out.publishQueue ++ ret.entries := by
  have happend := σ.out.publishQueue_appendOutMessage (σ.resultMessage ret) ok
  rw [Session.completed]
  cases ret.entries with
  | nil => exact happend.trans (List.append_nil _).symm
  | cons first rest =>
    exact (OutState.publishQueue_publishQueueAppend _ _ _).trans (congrArg (· ++ _) happend)

variable {w : World} {s : ℕ} {σ : Session}

theorem run_sessionAppendOutMessage (hσ : w.sessions.get s = some σ) (messageId : MessageId)
    (requestId payloadCount : ℕ) (buffer : WriteBuffer) (granted : List (ℕ × ℕ)) :
    (sessionAppendOutMessage s messageId requestId payloadCount buffer granted).run w =
      some (.ok (), { w with
        malloc := fun n => w.malloc (n + 1)
        sessions := w.sessions.set s (σ.appended (w.malloc 0)
          (σ.outMessage messageId requestId payloadCount buffer granted)) }) := by
  unfold sessionAppendOutMessage
  rw [Attempt.run_bind_ok (run_malloc w), Attempt.run_bind_ok
    (Place.run_read (w := { w with malloc := fun n => w.malloc (n + 1) }) hσ)]
  exact Place.run_write (p := sessions) (w := { w with malloc := fun n => w.malloc (n + 1) }) hσ _

theorem run_sessionPublishQueueAppend (hσ : w.sessions.get s = some σ) (first : Entry)
    (rest : List Entry) :
    (sessionPublishQueueAppend s first rest).run w =
      some (.ok (), { w with sessions := w.sessions.set s (σ.queued first rest) }) := by
  unfold sessionPublishQueueAppend
  rw [Attempt.run_bind_ok (Place.run_read hσ)]
  exact Place.run_write hσ _

/-- **A result of a session that is complete is sent**, with what has waited for it. -/
theorem run_sendResult {r : ℕ} {ret : Result} (hs : ret.session = some s)
    (hσ : w.sessions.get s = some σ) :
    (sendResult r ret).run w = some (.ok (), { w with
      malloc := fun n => w.malloc (n + 1)
      sessions := w.sessions.set s (σ.completed r ret (w.malloc 0)) }) := by
  -- the session without the result, and then with the RESULT
  let σ₁ : Session := { σ with results := σ.results.erase r }
  let w₁ : World := { w with sessions := w.sessions.set s σ₁ }
  have hσ₁ : w₁.sessions.get s = some σ₁ := (Heap.get_set hσ σ₁ s).trans (if_pos rfl)
  have happend : (sessionAppendOutMessage s .result ret.requestId
      (ret.requestPayloadCount * 2 % 2 ^ 32) ret.outputBuffer ret.granted).run w₁ =
      some (.ok (), { w with
        malloc := fun n => w.malloc (n + 1)
        sessions := w.sessions.set s (σ₁.appended (w.malloc 0) (σ.resultMessage ret)) }) := by
    refine (run_sessionAppendOutMessage hσ₁ _ _ _ _ _).trans ?_
    rw [show w₁.sessions.set s _ = w.sessions.set s _ from Heap.set_set _ _ _ _]
    rfl
  rw [sendResult, hs]
  dsimp only
  rw [Attempt.run_bind_ok (Place.run_read hσ), Attempt.run_bind_ok (Place.run_write hσ σ₁),
    Attempt.run_bind_ok happend]
  split
  · rename_i first rest _ _ heq
    rw [run_sessionPublishQueueAppend ((Heap.get_set hσ _ s).trans (if_pos rfl)), Heap.set_set,
      Session.completed, show ret.entries = first :: rest by rw [Result.entries, heq]; rfl]
    rfl
  · rename_i hne
    have hnil : ret.entries = [] := by
      rw [Result.entries]
      cases hblocked : ret.blockedItems with
      | none => rfl
      | some blocked =>
        obtain ⟨_ | ⟨first, rest⟩, items, slots⟩ := blocked
        · rfl
        · exact absurd hblocked (hne first rest items slots)
    rw [Session.completed, hnil]
    rfl

/-- **A complete result of a session is sent and freed.** -/
theorem run_releaseResult_complete {r : ℕ} {ret : Result} (hr : w.results.get r = some ret)
    (hs : ret.session = some s) (hσ : w.sessions.get s = some σ)
    (hlast : (ret.remaining + (2 ^ 32 - 1)) % 2 ^ 32 = 0) :
    (releaseResult r).run w = some (.ok (), { w with
      malloc := fun n => w.malloc (n + 1)
      sessions := w.sessions.set s (σ.completed r ret (w.malloc 0))
      results := w.results.free r }) := by
  let ret' : Result := { ret with remaining := (ret.remaining + (2 ^ 32 - 1)) % 2 ^ 32 }
  let w₁ : World := { w with results := w.results.set r ret' }
  have hr' : w₁.results.get r = some ret' := (Heap.get_set hr ret' r).trans (if_pos rfl)
  have hsend := run_sendResult (w := w₁) (r := r) hs hσ
  rw [releaseResult, Attempt.run_bind_ok (Place.run_read hr)]
  dsimp only
  rw [Attempt.run_bind_ok (Place.run_write hr ret'), if_neg (not_not.mpr hlast),
    Attempt.run_bind_ok hsend, Place.run_free hr']
  show some (Except.ok (), { w with
    malloc := _, sessions := _, results := (w.results.set r ret').free r }) = _
  rw [Heap.free_set]

/-- A result that is not complete has one answer less to wait for. -/
theorem run_releaseResult_pending {r : ℕ} {ret : Result} (hr : w.results.get r = some ret)
    (hmore : (ret.remaining + (2 ^ 32 - 1)) % 2 ^ 32 ≠ 0) :
    (releaseResult r).run w = some (.ok (), { w with
      results := w.results.set r { ret with
        remaining := (ret.remaining + (2 ^ 32 - 1)) % 2 ^ 32 } }) := by
  rw [releaseResult, Attempt.run_bind_ok (Place.run_read hr)]
  dsimp only
  rw [Attempt.run_bind_ok (Place.run_write hr _), if_pos hmore]
  rfl

/-- A result of a request. -/
def Result.requested (s requestId count : ℕ) (outputBuffer : WriteBuffer) : Result where
  session := some s
  blockedItems := none
  requestId := requestId
  requestPayloadCount := count
  remaining := count
  remainingSubresults := 0
  outputBuffer := outputBuffer
  granted := []
  overlapped := false

/-- **A result is made for a request**, and put into the list of its session. -/
theorem run_requestResult {count : ℕ} (requestId : ℕ) (hne : count ≠ 0)
    (hσ : w.sessions.get s = some σ) (hmalloc : w.malloc 0 = true) :
    (requestResult s requestId count).run w = some (.ok (some w.results.next), { w with
      malloc := fun n => w.malloc (2 * n + 1 + 1)
      results := w.results.alloc
        (.requested s requestId count (.init fun n => w.malloc (2 * n + 1)))
      sessions := w.sessions.set s { σ with results := w.results.next :: σ.results } }) := by
  have hassert : ∀ w : World, (assert (count ≠ 0)).run w = some (.ok (), w) := by
    intro w
    rw [assert, if_pos hne]
    rfl
  let buffer : WriteBuffer := .init fun n => w.malloc (2 * n + 1)
  let w₁ : World := { w with malloc := fun n => w.malloc (2 * n + 1 + 1) }
  let w₂ : World := { w₁ with results := w.results.alloc (.requested s requestId count buffer) }
  let σ' : Session := { σ with results := w.results.next :: σ.results }
  rw [requestResult, Attempt.run_bind_ok (run_malloc w), Attempt.run_bind_ok (hassert _), hmalloc,
    if_pos rfl, Attempt.run_bind_ok (a := buffer) (t := w₁) rfl,
    Attempt.run_bind_ok (a := w.results.next) (t := w₂) rfl,
    Attempt.run_bind_ok (Place.run_read (p := sessions) (w := w₂) hσ),
    Attempt.run_bind_ok (Place.run_write (p := sessions) (w := w₂) hσ σ')]
  rfl

/-! ### Answers with a number -/

theorem run_writeResult {r : ℕ} {ret : Result} {f : WriteBuffer → Option WriteBuffer}
    {buffer : WriteBuffer} (hr : w.results.get r = some ret)
    (hf : f ret.outputBuffer = some buffer) :
    (writeResult r f).run w = some (.ok (), { w with
      results := w.results.set r { ret with outputBuffer := buffer } }) := by
  rw [writeResult, Attempt.run_bind_ok (Place.run_read hr), hf]
  exact Place.run_write hr _

/-- The buffer after `wpcp_result_add_diagnostic_info`. -/
def withDiagnosticInfo (sizeT : Cbor.SizeT) (diagnosticInfo : Option (Cbor.Value (List UInt8)))
    (buffer : WriteBuffer) : Option WriteBuffer :=
  match diagnosticInfo with
  | some value => buffer.writeWpcpValue sizeT value
  | none => some buffer.writeNull

theorem run_resultAddDiagnosticInfo {r : ℕ} {ret : Result}
    {diagnosticInfo : Option (Cbor.Value (List UInt8))} {buffer : WriteBuffer}
    (hr : w.results.get r = some ret)
    (hbuffer : withDiagnosticInfo w.sizeT diagnosticInfo ret.outputBuffer = some buffer) :
    (resultAddDiagnosticInfo r diagnosticInfo).run w = some (.ok (), { w with
      results := w.results.set r { ret with outputBuffer := buffer } }) := by
  rw [resultAddDiagnosticInfo, Attempt.run_bind_ok (a := w) (t := w) rfl]
  cases diagnosticInfo with
  | some value => exact run_writeResult hr hbuffer
  | none => exact run_writeResult hr hbuffer

/-- **A number is written to a result**, which is then released. -/
theorem run_resultAddUnsignedInteger {r : ℕ} {ret : Result}
    {diagnosticInfo : Option (Cbor.Value (List UInt8))} {buffer : WriteBuffer} (value : ℕ)
    (hr : w.results.get r = some ret)
    (hbuffer : withDiagnosticInfo w.sizeT diagnosticInfo ret.outputBuffer = some buffer) :
    (resultAddUnsignedInteger r diagnosticInfo value).run w = (releaseResult r).run { w with
      results := w.results.set r { ret with
        outputBuffer := buffer.writeUnsignedInteger value } } := by
  let ret₁ : Result := { ret with outputBuffer := buffer }
  let w₁ : World := { w with results := w.results.set r ret₁ }
  have hr₁ : w₁.results.get r = some ret₁ := (Heap.get_set hr ret₁ r).trans (if_pos rfl)
  have hwrite := run_writeResult (f := fun buffer => some (buffer.writeUnsignedInteger value)) hr₁
    rfl
  rw [resultAddUnsignedInteger, Attempt.run_bind_ok (run_resultAddDiagnosticInfo hr hbuffer),
    Attempt.run_bind_ok hwrite]
  show (releaseResult r).run { w with results := (w.results.set r ret₁).set r _ } = _
  rw [Heap.set_set]

end Wpcp
