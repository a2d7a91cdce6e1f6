import Wpcp.Session.World

/-!
# The table of subscriptions

The subscriptions of all sessions are in one array, sorted by type, length of the key
and key. Both functions that search it halve the range that is left; the loop of
`wpcp_release_subscription` has no other end than finding the subscription. The loops
get one round more than the array is long.
-/

namespace Wpcp

open Attempt (loop)

/-- `wpcp_subscription_key_compare` -/
def subscriptionKeyCompare (type : ℕ) (key : List UInt8) (item : Subscription) : Ordering :=
  (compare type item.type).then
    ((compare key.length item.key.length).then (compare key item.key))

/-- `wpcp_retain_subscription` -/
def retainSubscription (subscription : ℕ) : Calls ℕ := do
  let s ← subscriptions.read subscription
  subscriptions.write subscription { s with referenceCount := (s.referenceCount + 1) % 2 ^ 32 }
  modifyWorld fun w => { w with referencesPeak := max w.referencesPeak (s.referenceCount + 1) }
  pure subscription

/-- One round of a search: the middle of the range is compared, and the range cut. -/
def searchStep (type : ℕ) (key : List UInt8) (range : ℕ × ℕ) :
    Calls ((ℕ × ℕ) ⊕ (ℕ × ℕ)) := do
  let w ← getWorld
  let pos := (range.1 + range.2) / 2
  match w.subscriptionTable[pos]? with
  | none => Attempt.fail .dangling
  | some subscription => do
    let item ← subscriptions.read subscription
    match subscriptionKeyCompare type key item with
    | .eq => pure (.inr (pos, subscription))
    | .gt => pure (.inl (pos + 1, range.2))
    | .lt => pure (.inl (range.1, pos))

/-- The search loop of `wpcp_request_subscription`: a subscription, or the place for it. -/
def searchSubscription (type : ℕ) (key : List UInt8) (range : ℕ × ℕ) :
    Calls ((ℕ × ℕ) ⊕ (Option ℕ × ℕ)) := do
  if range.1 = range.2 then pure (.inr (none, range.1))
  else do
    match ← searchStep type key range with
    | .inl range => pure (.inl range)
    | .inr (pos, subscription) => pure (.inr (some subscription, pos))

/-- `wpcp_request_subscription` -/
def requestSubscription (type : ℕ) (key : List UInt8) : Calls (Option ℕ) := do
  let w ← getWorld
  let count := w.subscriptionTable.length
  match ← loop (searchSubscription type key) (count + 1) (0, count) with
  | (some subscription, _) => do
    let ret ← retainSubscription subscription
    pure (some ret)
  | (none, low) => do
    let realloc ← malloc
    if realloc then do
      let ret ← malloc
      if ret then do
        let ret ← subscriptions.new
          { publishHandle := ⟨0, []⟩, referenceCount := 1, type := type, key := key }
        modifyWorld fun w => { w with
          subscriptionTable := w.subscriptionTable.insertIdx low ret }
        pure (some ret)
      else pure none
    else pure none

/-- `wpcp_release_subscription` -/
def releaseSubscription (subscription : ℕ) : Calls Unit := do
  let s ← subscriptions.read subscription
  let referenceCount := (s.referenceCount + (2 ^ 32 - 1)) % 2 ^ 32
  subscriptions.write subscription { s with referenceCount := referenceCount }
  if referenceCount ≠ 0 then pure ()
  else do
    let w ← getWorld
    let count := w.subscriptionTable.length
    let (pos, _) ← loop (searchStep s.type s.key) (count + 1) (0, count)
    modifyWorld fun w => { w with subscriptionTable := w.subscriptionTable.eraseIdx pos }
    let _ ← malloc
    subscriptions.free subscription

end Wpcp
