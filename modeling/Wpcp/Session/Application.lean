import Wpcp.Session.Publish

/-!
# What the application calls

The functions of `wpcp.c` with which an application answers requests and publishes, and
`Wpcp.Call`, one call of any of them. An application may make a call when it owes it or
holds the handle it needs (`Wpcp.Call.Legal`); what it publishes and which answers it
gives, when and in which order, is free.

`republish.ex_cb` is called at the very end of `wpcp_return_subscribe_accept`, so that
what the application does in it are the calls that follow. In
`wpcp_return_subscribe_alias` one more thing is done after it, and
`Wpcp.Call.aliasReturned` is that rest of the call.
-/

namespace Wpcp

open Cbor (Value WriteBuffer Item)

/-! ### Subscriptions -/

/-- The middle of `wpcp_return_subscribe_internal`: a publish item with the id just
obtained, or `none`, where the id becomes 0. -/
def requestBlockedPublishItem (result session subscription id : ℕ) : Calls (Option ℕ) := do
  if id = 0 then pure none
  else do
    match ← resultGetBlockedPublishItemTarget result with
    | none => pure none
    | some _ => do
      match ← sessionRequestPublishItem session subscription id with
      | none => pure none
      | some publishItem => do
        setBlockedPublishItem result id publishItem
        pure (some publishItem)

/-- `wpcp_return_subscribe_internal` -/
def returnSubscribeInternal (result : ℕ) (diagnosticInfo : Option (Value (List UInt8)))
    (subscription : ℕ) : Calls Bool := do
  let ret ← results.read result
  match ret.session with
  | none => Attempt.fail .dangling
  | some session => do
    let id ← sessionGetNextFreePublishId session
    match ← requestBlockedPublishItem result session subscription id with
    | none => do
      resultAddUnsignedInteger result diagnosticInfo 0
      pure false
    | some publishItem => do
      resultAddUnsignedInteger result diagnosticInfo id
      let list ← malloc
      if list then do
        let list ← republishHandles.new publishItem
        emit (.republish list subscription) []
        pure true
      else pure false

/-- `wpcp_return_subscribe_accept` -/
def returnSubscribeAccept (result : ℕ) (diagnosticInfo : Option (Value (List UInt8)))
    (subscription : ℕ) : Calls Unit := do
  let _ ← returnSubscribeInternal result diagnosticInfo subscription
  pure ()

/-- `wpcp_return_subscribe_alias`, up to the release of `subscription`; `other` is the
subscription of the first item of the handle. -/
def returnSubscribeAlias (result : ℕ) (diagnosticInfo : Option (Value (List UInt8)))
    (subscription other : ℕ) : Calls Unit := do
  let s ← subscriptions.read subscription
  let o ← subscriptions.read other
  assert (o.type = s.type)
  let other ← retainSubscription other
  let _ ← returnSubscribeInternal result diagnosticInfo other
  modifyWorld fun w => { w with owed := .alias subscription :: w.owed }

/-- `wpcp_return_subscribe_reject` -/
def returnSubscribeReject (result : ℕ) (diagnosticInfo : Option (Value (List UInt8)))
    (subscription : ℕ) : Calls Unit := do
  let ret ← results.read result
  match ret.session with
  | none => Attempt.fail .dangling
  | some _ => do
    resultAddUnsignedInteger result diagnosticInfo 0
    releaseSubscription subscription

/-- `wpcp_return_unsubscribe`; a result without a session is taken for the stand-in that
`wpcp_session_delete` makes. -/
def returnUnsubscribe (result : ℕ) (diagnosticInfo : Option (Value (List UInt8)))
    (subscription : Option ℕ) : Calls Unit := do
  subscription.elim (pure ()) releaseSubscription
  let ret ← results.read result
  match ret.session with
  | some _ =>
    resultAddValue result diagnosticInfo (.uint64 (if subscription.isSome then 1 else 0))
  | none => releaseDummyUnsubscribeResult result

/-! ### Calls -/

/-- A `struct wpcp_publish_handle_t *` the application holds: that of a subscription, or
one that `republish.ex_cb` was given. -/
inductive Handle where
  | subscription (subscription : ℕ)
  | republish (handle : ℕ)
  deriving DecidableEq

/-- The contents of a handle. -/
def readHandle : Handle → Calls PublishHandle
  | .subscription subscription => do
    let s ← subscriptions.read subscription
    pure s.publishHandle
  | .republish handle => do
    let item ← republishHandles.read handle
    pure ⟨1, [item]⟩

/-- A call the application makes. -/
inductive Call where
  /-- `wpcp_return_subscribe_accept` -/
  | subscribeAccept (result : ℕ) (diagnosticInfo : Option (Value (List UInt8)))
      (subscription : ℕ)
  /-- `wpcp_return_subscribe_alias` -/
  | subscribeAlias (result : ℕ) (diagnosticInfo : Option (Value (List UInt8)))
      (subscription other : ℕ)
  /-- The end of `wpcp_return_subscribe_alias`. -/
  | aliasReturned (subscription : ℕ)
  /-- `wpcp_return_subscribe_reject` -/
  | subscribeReject (result : ℕ) (diagnosticInfo : Option (Value (List UInt8)))
      (subscription : ℕ)
  /-- `wpcp_return_unsubscribe` -/
  | unsubscribe (result : ℕ) (diagnosticInfo : Option (Value (List UInt8)))
      (subscription : Option ℕ)
  /-- `wpcp_return_write_data`, `wpcp_return_handle_alarm`: TRUE or FALSE -/
  | value (result : ℕ) (diagnosticInfo : Option (Value (List UInt8)))
      (answer : Value (List UInt8))
  /-- `wpcp_return_read_data` -/
  | item (result : ℕ) (diagnosticInfo : Option (Value (List UInt8)))
      (answer : Item)
  /-- `wpcp_return_browse`, `wpcp_return_read_history_data`, `wpcp_return_read_history_alarm` -/
  | items (result : ℕ) (diagnosticInfo : Option (Value (List UInt8))) (count : ℕ)
  /-- `wpcp_return_browse_item`, `wpcp_return_read_history_data_item`,
  `wpcp_return_read_history_alarm_item` -/
  | subitem (result : ℕ) (answer : Item)
  /-- `wpcp_publish_data`, `wpcp_publish_alarm` -/
  | publish (handle : Handle) (answer : Item)
  /-- `wpcp_return_republish` -/
  | republish (handle : ℕ)
  /-- `wpcp_session_out_message_create`, the message then being deleted. -/
  | outMessageCreate (session : ℕ)
  /-- `wpcp_session_add_free_publish_slots` -/
  | addFreePublishSlots (session count : ℕ)

namespace Call

/-- What the application has to owe for a call. -/
def owed : Call → Option Owed
  | subscribeAccept result _ subscription => some (.subscribe result subscription)
  | subscribeAlias result _ subscription _ => some (.subscribe result subscription)
  | aliasReturned subscription => some (.alias subscription)
  | subscribeReject result _ subscription => some (.subscribe result subscription)
  | unsubscribe result _ subscription => some (.unsubscribe result subscription)
  | value result _ _ => some (.item result)
  | item result _ _ => some (.item result)
  | items result _ _ => some (.item result)
  | subitem result _ => some (.subitem result)
  | publish _ _ => none
  | republish _ => none
  | outMessageCreate _ => none
  | addFreePublishSlots _ _ => none

/-- The application has what a call needs: the handle, or the knowledge that there is a
message. -/
def Available (w : World) : Call → Prop
  | subscribeAlias _ _ subscription other =>
    (w.subscriptions.get subscription).map Subscription.type =
        (w.subscriptions.get other).map Subscription.type ∧
      (w.subscriptions.get other).any (·.publishHandle.length != 0)
  | items _ _ count => count < 2 ^ 32
  | publish (.subscription subscription) _ => (w.subscriptions.get subscription).isSome
  | publish (.republish handle) _ => (w.republishHandles.get handle).isSome
  | republish handle => (w.republishHandles.get handle).isSome
  | outMessageCreate session => (w.sessions.get session).any (·.out.sessionHasOutMessage)
  | addFreePublishSlots session count => (w.sessions.get session).isSome ∧ count < 2 ^ 32
  | _ => True

instance (w : World) : (call : Call) → Decidable (call.Available w)
  | subscribeAlias .. => inferInstanceAs (Decidable (_ ∧ _))
  | items _ _ count => inferInstanceAs (Decidable (count < 2 ^ 32))
  | publish (.subscription _) _ => inferInstanceAs (Decidable (_ = true))
  | publish (.republish _) _ => inferInstanceAs (Decidable (_ = true))
  | republish _ => inferInstanceAs (Decidable (_ = true))
  | outMessageCreate _ => inferInstanceAs (Decidable (_ = true))
  | addFreePublishSlots _ _ => inferInstanceAs (Decidable (_ ∧ _))
  | subscribeAccept .. | aliasReturned _ | subscribeReject .. | unsubscribe .. | value .. | item ..
  | subitem .. => inferInstanceAs (Decidable True)

/-- A call the application may make: it owes the answer and has what is needed. -/
def Legal (w : World) (call : Call) : Prop :=
  (∀ o ∈ call.owed, o ∈ w.owed) ∧ call.Available w

instance (w : World) (call : Call) : Decidable (call.Legal w) :=
  inferInstanceAs (Decidable (_ ∧ _))

/-- A call. -/
def perform : Call → Calls Unit
  | subscribeAccept result diagnosticInfo subscription =>
    returnSubscribeAccept result diagnosticInfo subscription
  | subscribeAlias result diagnosticInfo subscription other =>
    returnSubscribeAlias result diagnosticInfo subscription other
  | aliasReturned subscription => releaseSubscription subscription
  | subscribeReject result diagnosticInfo subscription =>
    returnSubscribeReject result diagnosticInfo subscription
  | unsubscribe result diagnosticInfo subscription =>
    returnUnsubscribe result diagnosticInfo subscription
  | value result diagnosticInfo answer => resultAddValue result diagnosticInfo answer
  | item result diagnosticInfo answer => do
    resultAddDiagnosticInfo result diagnosticInfo
    let w ← getWorld
    writeResult result fun buffer => answer.write w.sizeT buffer
    releaseResult result
  | items result diagnosticInfo count => do
    resultAddDiagnosticInfo result diagnosticInfo
    modifyWorld fun w => { w with owed := w.owed ++ List.replicate count (.subitem result) }
    requestSubresult result count
  | subitem result answer => do
    let w ← getWorld
    writeResult result fun buffer => answer.write w.sizeT buffer
    releaseSubresult result
  | publish handle answer => do
    let handle ← readHandle handle
    match ← publishGeneral handle with
    | none => pure ()
    | some data => do
      let w ← getWorld
      let d ← publishData.read data
      match answer.write w.sizeT d.outputBuffer with
      | some outputBuffer => publishData.write data { d with outputBuffer := outputBuffer }
      | none => Attempt.fail .encoder
  | republish handle => republishHandles.free handle
  | outMessageCreate session => do
    let _ ← sessionOutMessageCreate session
    pure ()
  | addFreePublishSlots session count => sessionAddFreePublishSlots session count

/-- A call the application makes if it may. -/
def performLegal (call : Call) : Calls Unit := do
  let w ← getWorld
  if call.Legal w then do
    modifyWorld fun w => { w with owed := call.owed.elim w.owed w.owed.erase }
    call.perform
  else pure ()

end Call

end Wpcp
