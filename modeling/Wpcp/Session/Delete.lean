import Wpcp.Session.InMessage

/-!
# Deleting a session

`wpcp_session_delete` gives up what the session still has to send and takes the results
that wait for it away from it. Where the session has publish items, its memory is turned
into a result without a session, the stand-in whose answers are counted while the
application is asked to unsubscribe each of the items; the last of these answers frees it.
-/

namespace Wpcp

variable (app : Application)

/-- The first loop of `wpcp_session_delete`, from a link on: the messages that are freed
after it, or `none` where it comes to one that is in `freed` already. -/
def freeQueuedOutMessages (next : ℕ → OutLink) : ℕ → List ℕ → OutLink → Option (List ℕ)
  | _, freed, none => some freed
  | 0, _, some _ => none
  | fuel + 1, freed, some m =>
    if m ∈ freed then none else freeQueuedOutMessages next fuel (m :: freed) (next m)

/-- The messages that are queued are freed; the caller has freed those handed out. -/
def releaseQueuedOutMessages (σ : Session) : Calls Unit :=
  let deleted := OutSystem.handedOutMessages ⟨σ.out, σ.handedOut⟩
  match freeQueuedOutMessages σ.out.next (σ.out.messages.length + 1) deleted
    σ.out.queuedOutMessages with
  | some _ => pure ()
  | none => Attempt.fail .dangling

/-- The loop of `wpcp_session_delete` over the results that wait. -/
def orphanResults : List ℕ → Calls Unit
  | [] => pure ()
  | result :: next => do
    let ret ← results.read result
    results.write result { ret with session := none }
    orphanResults next

/-- `wpcp_convert_session_to_dummy_unsubscrible_result`: the session is no more, and there is
a result in its place. The fields that are not set are never read. -/
def convertSessionToDummyUnsubscribleResult (session count : ℕ) : Calls ℕ := do
  sessions.free session
  assert (count ≠ 0)
  results.new
    { session := none
      blockedItems := none
      requestId := 0
      requestPayloadCount := 0
      remaining := count
      remainingSubresults := 0
      outputBuffer := .init fun _ => false
      granted := []
      overlapped := false }

/-- The items of a session, from the id 1 on. -/
def Session.items (σ : Session) : List ℕ := (σ.publishItems.drop 1).filterMap id

/-- The part of `wpcp_session_delete` before the application is asked: the session ends, and
where it has items, there is a stand-in for it. -/
def closeSession (session : ℕ) (σ : Session) : Calls (Option ℕ) := do
  releaseQueuedOutMessages σ
  publishQueueItemsDeref σ.out.publishQueue
  orphanResults σ.results
  if σ.items.length ≠ 0 then do
    let result ← convertSessionToDummyUnsubscribleResult session σ.items.length
    pure (some result)
  else do
    sessions.free session
    pure none

/-- The part of the last loop of `wpcp_session_delete` before the callback: the item is
released, its subscription retained. -/
def deletePublishItem (item : ℕ) : Calls ℕ := do
  let i ← publishItems.read item
  let subscription ← retainSubscription i.subscription
  publishItemRelease item
  pure subscription

/-- `unsubscribe.ex_cb` is called; it may be the null pointer. -/
def unsubscribeCallback (result remaining subscription : ℕ) : Calls Unit := do
  let w ← getWorld
  assert (w.callbacks .unsubscribe = true)
  callback app (.unsubscribe result remaining (some subscription))
    [.unsubscribe result (some subscription)]

/-- The last loop of `wpcp_session_delete`, over the items that are left. -/
def deletePublishItems (result : ℕ) : List ℕ → Calls Unit
  | [] => pure ()
  | item :: next => do
    let subscription ← deletePublishItem item
    unsubscribeCallback app result next.length subscription
    deletePublishItems result next

/-- `wpcp_session_delete` -/
def sessionDelete (session : ℕ) : Calls Unit := do
  let σ ← sessions.read session
  match ← closeSession session σ with
  | some result => deletePublishItems app result σ.items
  | none => pure ()

end Wpcp
