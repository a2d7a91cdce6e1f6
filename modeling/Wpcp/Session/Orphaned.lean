import Wpcp.Session.Backing
import Wpcp.Session.Counters
import Wpcp.Session.ReferenceRuns

/-!
# Answers after the session is gone

`wpcp_session_delete` takes the results that wait away from their session: the field `session`
becomes the null pointer, and the application answers them as before. An answer to an item of a
read, browse, write, alarm, history or unsubscribe request then returns, releases the
subscription it was given, and frees the result when it is the last one
(`Wpcp.World.Orphaned`). The answers to the items of a subscribe request go through
`result->session`, and do not return: **an answer settles its item exactly where it is none of
these** (`Wpcp.settlesOrphan_iff`).
-/

namespace Wpcp

open Cbor (Value WriteBuffer)

/-! ### Answers -/

/-- The result that a call answers. -/
def Call.answers : Call → Option ℕ
  | subscribeAccept result _ _ => some result
  | subscribeAlias result _ _ _ => some result
  | subscribeReject result _ _ => some result
  | unsubscribe result _ _ => some result
  | value result _ _ => some result
  | item result _ _ => some result
  | items result _ _ => some result
  | subitem result _ => some result
  | aliasReturned _ | publish _ _ | republish _ | outMessageCreate _ | addFreePublishSlots _ _ =>
    none

/-- The call answers an item of a subscribe request. -/
def Call.isSubscribe : Call → Bool
  | subscribeAccept .. | subscribeAlias .. | subscribeReject .. => true
  | _ => false

/-- The subscription that a call was given with the callback. -/
def Call.given : Call → Option ℕ
  | subscribeAccept _ _ subscription => some subscription
  | subscribeAlias _ _ subscription _ => some subscription
  | subscribeReject _ _ subscription => some subscription
  | unsubscribe _ _ subscription => subscription
  | _ => none

/-- The encoder can write a value, whatever the buffer. -/
def Encodable (f : WriteBuffer → Option WriteBuffer) : Prop := ∀ buffer, (f buffer).isSome

/-- The diagnostic of a call, if any, can be written. -/
def EncodableDiagnosticInfo (sizeT : Cbor.SizeT) (diagnosticInfo : Option (Value (List UInt8))) :
    Prop :=
  ∀ value ∈ diagnosticInfo, Encodable fun buffer => buffer.writeWpcpValue sizeT value

/-- The encoder can write what a call gives it: no assertion of the encoder fails. -/
def Call.Encodes (sizeT : Cbor.SizeT) : Call → Prop
  | value _ diagnosticInfo answer => EncodableDiagnosticInfo sizeT diagnosticInfo ∧
      Encodable fun buffer => buffer.writeWpcpValue sizeT answer
  | item _ diagnosticInfo answer => EncodableDiagnosticInfo sizeT diagnosticInfo ∧
      Encodable fun buffer => answer.write sizeT buffer
  | items _ diagnosticInfo _ => EncodableDiagnosticInfo sizeT diagnosticInfo
  | subitem _ answer => Encodable fun buffer => answer.write sizeT buffer
  | _ => True

/-- The result that is to be answered. -/
def Owed.result : Owed → Option ℕ
  | .item result => some result
  | .subscribe result _ => some result
  | .unanswerable result => some result
  | .unsubscribe result _ => some result
  | .subitem result => some result
  | .alias _ => none

/-- **A call settles its item**: it returns, releases the subscription it was given, and the
result is freed exactly when no answer to it is owed any more. -/
structure Call.Settles (call : Call) (result : ℕ) (w w' : World) : Prop where
  returns : call.performLegal.run w = some (.ok (), w')
  released : ∀ k ∈ call.given, ∀ s, w.subscriptions.get k = some s →
    (w'.subscriptions.get k).elim 0 Subscription.referenceCount =
      (s.referenceCount + (2 ^ 32 - 1)) % 2 ^ 32
  freed : w'.results.get result = none ↔ ∀ o ∈ w'.owed, o.result ≠ some result

/-- A result is waited for as long as there are tokens for it. -/
theorem count_eq_zero_iff (result : ℕ) (owed : List Owed) :
    ((owedTokens owed).count (.answer result) = 0 ∧
        (owedTokens owed).count (.subanswer result) = 0) ↔
      ∀ o ∈ owed, o.result ≠ some result := by
  induction owed with
  | nil => simp
  | cons o owed ih =>
    have hone : (o.tokens.count (.answer result) = 0 ∧ o.tokens.count (.subanswer result) = 0) ↔
        o.result ≠ some result := by
      rcases o with r | ⟨r, k⟩ | r | ⟨r, _ | k⟩ | r | k
      · simp [Owed.tokens, Owed.result, Multiset.count_singleton, eq_comm]
      · simp [Owed.tokens, Owed.result, Multiset.count_cons, eq_comm]
      · simp [Owed.tokens, Owed.result, Multiset.count_singleton, eq_comm]
      · simp [Owed.tokens, Owed.result, reference, Multiset.count_singleton, eq_comm]
      · simp [Owed.tokens, Owed.result, reference, Multiset.count_cons, eq_comm]
      · simp [Owed.tokens, Owed.result, Multiset.count_singleton, eq_comm]
      · simp [Owed.tokens, Owed.result]
    rw [owedTokens_cons, Multiset.count_add, Multiset.count_add, List.forall_mem_cons, ← ih, ← hone]
    omega

/-! ### A result without a session -/

/-- A result without a session, with its two counters, whose entries have references; nothing
else has changed of what an answer is about. -/
structure World.Orphaned (r remaining remainingSubresults : ℕ) (w₀ w : World) : Prop where
  result : ∃ ret, w.results.get r = some ret ∧ ret.session = none ∧ ret.remaining = remaining ∧
    ret.remainingSubresults = remainingSubresults ∧
    ∀ data, Wpcp.uses ret.entries data ≤ dataReferences w.publishData data
  sizeT : w.sizeT = w₀.sizeT
  owed : w.owed = w₀.owed
  subscriptions : w.subscriptions = w₀.subscriptions

/-- The result has been freed, or it has not. -/
structure World.Answered (r : ℕ) (freed : Prop) (w₀ w : World) : Prop where
  result : w.results.get r = none ↔ freed
  owed : w.owed = w₀.owed
  subscriptions : w.subscriptions = w₀.subscriptions

variable {w₀ : World} {r remaining remainingSubresults : ℕ}

namespace World.Orphaned

/-- The result is written to, and its counters may change. -/
theorem set {w : World} (h : World.Orphaned r remaining remainingSubresults w₀ w)
    {ret ret' : Result}
    (hr : w.results.get r = some ret) (hs : ret'.session = none)
    (hblocked : ret'.blockedItems = ret.blockedItems) :
    World.Orphaned r ret'.remaining ret'.remainingSubresults w₀
      { w with results := w.results.set r ret' } := by
  obtain ⟨⟨q, hq, -, -, -, huses⟩, hsize, howed, hsubs⟩ := h
  obtain rfl := Option.some.inj (hr.symm.trans hq)
  refine ⟨⟨ret', (Heap.get_set hr ret' r).trans (if_pos rfl), hs, rfl, rfl, fun data => ?_⟩, hsize,
    howed, hsubs⟩
  rw [Result.entries_congr hblocked]
  exact huses data

end World.Orphaned

/-- The result is read and written to. -/
theorem returns_read_result {α : Type} {f : Result → Calls α} {Q : α → World → Prop}
    (hf : ∀ ret, ret.session = none → ret.remaining = remaining →
      ret.remainingSubresults = remainingSubresults →
      Attempt.Returns (fun w => w.results.get r = some ret ∧
        World.Orphaned r remaining remainingSubresults w₀ w) (f ret) Q) :
    Attempt.Returns (World.Orphaned r remaining remainingSubresults w₀)
      (results.read r >>= f) Q := by
  intro w h
  obtain ⟨ret, hr, hs, hremaining, hsub, -⟩ := h.result
  obtain ⟨a, t, hrun, ht⟩ := hf ret hs hremaining hsub w ⟨hr, h⟩
  exact ⟨a, t, (Attempt.run_bind_ok (Place.run_read hr)).trans hrun, ht⟩

theorem returns_write_result (ret ret' : Result) (hs : ret'.session = none)
    (hblocked : ret'.blockedItems = ret.blockedItems) :
    Attempt.Returns (fun w => w.results.get r = some ret ∧
        World.Orphaned r remaining remainingSubresults w₀ w) (results.write r ret')
      (fun _ w => w.results.get r = some ret' ∧
        World.Orphaned r ret'.remaining ret'.remainingSubresults w₀ w) := by
  rintro w ⟨hr, h⟩
  exact ⟨_, _, Place.run_write hr ret', (Heap.get_set hr ret' r).trans (if_pos rfl),
    h.set hr hs hblocked⟩

/-- What the encoder can write is written. -/
theorem returns_writeResult {f : WriteBuffer → Option WriteBuffer} (hf : Encodable f) :
    Attempt.Returns (World.Orphaned r remaining remainingSubresults w₀) (writeResult r f)
      (fun _ => World.Orphaned r remaining remainingSubresults w₀) := by
  refine returns_read_result fun ret hs hremaining hsub => ?_
  obtain ⟨buffer, hbuffer⟩ := Option.isSome_iff_exists.mp (hf ret.outputBuffer)
  rw [hbuffer]
  subst hremaining hsub
  exact (returns_write_result ret { ret with outputBuffer := buffer } hs rfl).imp (fun _ h => h)
    fun _ _ h => h.2

theorem returns_resultAddDiagnosticInfo {diagnosticInfo : Option (Value (List UInt8))}
    (hencodes : EncodableDiagnosticInfo w₀.sizeT diagnosticInfo) :
    Attempt.Returns (World.Orphaned r remaining remainingSubresults w₀)
      (resultAddDiagnosticInfo r diagnosticInfo)
      (fun _ => World.Orphaned r remaining remainingSubresults w₀) := by
  intro w h
  cases diagnosticInfo with
  | none =>
    have hreturns : Attempt.Returns (World.Orphaned r remaining remainingSubresults w₀)
        (writeResult r fun buffer => some buffer.writeNull)
        (fun _ => World.Orphaned r remaining remainingSubresults w₀) :=
      returns_writeResult fun _ => rfl
    exact hreturns w h
  | some value =>
    have hreturns : Attempt.Returns (World.Orphaned r remaining remainingSubresults w₀)
        (writeResult r fun buffer => buffer.writeWpcpValue w.sizeT value)
        (fun _ => World.Orphaned r remaining remainingSubresults w₀) := by
      refine returns_writeResult fun buffer => ?_
      rw [h.sizeT]
      exact hencodes value rfl buffer
    exact hreturns w h

/-- What a complete result without a session holds back is given up. -/
theorem returns_sendResult {ret ret' : Result} (hs : ret.session = none)
    (hblocked : ret'.blockedItems = ret.blockedItems) :
    Attempt.Returns (fun w => w.results.get r = some ret' ∧
        World.Orphaned r remaining remainingSubresults w₀ w) (sendResult r ret)
      (fun _ w => (w.results.get r).isSome ∧ w.owed = w₀.owed ∧
        w.subscriptions = w₀.subscriptions) := by
  have hderef : sendResult r ret = publishQueueItemsDeref ret'.entries := by
    rw [Result.entries_congr hblocked, sendResult, hs, Result.entries]
    rcases ret.blockedItems with _ | blocked
    · rfl
    · rfl
  rw [hderef]
  rintro w ⟨hr, ⟨q, hq, -, -, -, huses⟩, -, howed, hsubs⟩
  obtain rfl := Option.some.inj (hr.symm.trans hq)
  obtain ⟨heap, hrun, -⟩ := run_publishQueueItemsDeref huses
  exact ⟨_, _, hrun, Option.isSome_of_mem hr, howed, hsubs⟩

/-- **An answer frees the result when it is the last one**, and else is counted. -/
theorem returns_releaseResult (hpos : 0 < remaining) (hfits : remaining < 2 ^ 32) :
    Attempt.Returns (World.Orphaned r remaining remainingSubresults w₀) (releaseResult r)
      (fun _ => World.Answered r (remaining = 1) w₀) := by
  refine returns_read_result fun ret hs hremaining _ => ?_
  dsimp only
  generalize hleft : (ret.remaining + (2 ^ 32 - 1)) % 2 ^ 32 = left
  have hleft : left = remaining - 1 := by
    rw [← hleft, hremaining]
    exact decrement_eq hpos hfits
  refine .bind (returns_write_result ret { ret with remaining := left } hs rfl) fun _ =>
    .ite (fun hne => .pure fun w h => ?_) fun heq => .bind (returns_sendResult hs rfl)
      fun _ w h => ?_
  · obtain ⟨hr, -, -, howed, hsubs⟩ := h
    refine ⟨?_, howed, hsubs⟩
    rw [hr]
    exact iff_of_false nofun (by omega)
  · obtain ⟨hsome, howed, hsubs⟩ := h
    obtain ⟨ret', hr⟩ := Option.isSome_iff_exists.mp hsome
    refine ⟨_, _, Place.run_free hr, iff_of_true ?_ (by omega), howed, hsubs⟩
    exact (Heap.get_free _ _ _).trans (if_pos rfl)

/-- An answer of two parts is the last one where no sub-items follow. -/
theorem returns_requestSubresult (hpos : 0 < remaining) (hfits : remaining < 2 ^ 32) (count : ℕ) :
    Attempt.Returns (World.Orphaned r remaining remainingSubresults w₀) (requestSubresult r count)
      (fun _ => World.Answered r (remaining = 1 ∧ count = 0) w₀) := by
  refine .bind (returns_writeResult fun _ => rfl) fun _ => .ite (fun hne => ?_) fun heq =>
    (returns_releaseResult hpos hfits).imp (fun _ h => h) fun _ w h => ?_
  · refine returns_read_result fun ret hs _ _ w h => ?_
    obtain ⟨a, w', hrun, hr, -, -, howed, hsubs⟩ := returns_write_result ret { ret with
      remainingSubresults := count
      overlapped := ret.overlapped || ret.remainingSubresults != 0 } hs rfl w h
    refine ⟨a, w', hrun, ?_, howed, hsubs⟩
    rw [hr]
    exact iff_of_false nofun fun hand => hne hand.2
  · obtain ⟨hfreed, howed, hsubs⟩ := h
    exact ⟨hfreed.trans (and_iff_left (not_not.mp heq)).symm, howed, hsubs⟩

/-- The last sub-item of an item is an answer. -/
theorem returns_releaseSubresult (hpos : 0 < remaining) (hfits : remaining < 2 ^ 32)
    (hsubpos : 0 < remainingSubresults) (hsubfits : remainingSubresults < 2 ^ 32) :
    Attempt.Returns (World.Orphaned r remaining remainingSubresults w₀) (releaseSubresult r)
      (fun _ => World.Answered r (remaining = 1 ∧ remainingSubresults = 1) w₀) := by
  refine returns_read_result fun ret hs hremaining hsub => ?_
  dsimp only
  generalize hleft : (ret.remainingSubresults + (2 ^ 32 - 1)) % 2 ^ 32 = left
  have hleft : left = remainingSubresults - 1 := by
    rw [← hleft, hsub]
    exact decrement_eq hsubpos hsubfits
  subst hremaining
  refine .bind (returns_write_result ret { ret with remainingSubresults := left } hs rfl) fun _ =>
    .ite (fun hne => .pure fun w h => ?_) fun heq => (returns_releaseResult hpos hfits).imp
      (fun _ h => h.2) fun _ w h => ?_
  · obtain ⟨hr, -, -, howed, hsubs⟩ := h
    refine ⟨?_, howed, hsubs⟩
    rw [hr]
    exact iff_of_false nofun (by omega)
  · obtain ⟨hfreed, howed, hsubs⟩ := h
    exact ⟨hfreed.trans (and_iff_left (by omega)).symm, howed, hsubs⟩

theorem returns_releaseDummyUnsubscribeResult (hpos : 0 < remaining) (hfits : remaining < 2 ^ 32) :
    Attempt.Returns (World.Orphaned r remaining remainingSubresults w₀)
      (releaseDummyUnsubscribeResult r) (fun _ => World.Answered r (remaining = 1) w₀) := by
  refine returns_read_result fun ret hs hremaining _ => ?_
  rw [assert, if_pos hs]
  show Attempt.Returns _ (_ >>= _) _
  dsimp only
  generalize hleft : (ret.remaining + (2 ^ 32 - 1)) % 2 ^ 32 = left
  have hleft : left = remaining - 1 := by
    rw [← hleft, hremaining]
    exact decrement_eq hpos hfits
  refine .bind (Q := fun _ w => w.results.get r = some ret ∧
    World.Orphaned r remaining remainingSubresults w₀ w) (.pure fun _ h => h) fun _ =>
    .bind (returns_write_result ret { ret with remaining := left } hs rfl) fun _ =>
    .ite (fun hne => .pure fun w h => ?_) fun heq w h => ?_
  · obtain ⟨hr, -, -, howed, hsubs⟩ := h
    refine ⟨?_, howed, hsubs⟩
    rw [hr]
    exact iff_of_false (by simp) (by omega)
  · obtain ⟨hr, -, -, howed, hsubs⟩ := h
    refine ⟨_, _, Place.run_free hr, iff_of_true ?_ (by omega), howed, hsubs⟩
    exact (Heap.get_free _ _ _).trans (if_pos rfl)

/-- A function that starts with the state. -/
theorem returns_getWorld {α : Type} {P : World → Prop} {f : World → Calls α} {Q : α → World → Prop}
    (hf : ∀ w, P w → Attempt.Returns P (f w) Q) : Attempt.Returns P (getWorld >>= f) Q :=
  fun w h => hf w h w h

/-- An answer of one part is the last one, or it is counted. -/
theorem returns_answer {f : Cbor.SizeT → WriteBuffer → Option WriteBuffer}
    {diagnosticInfo : Option (Value (List UInt8))}
    (hdiagnostic : EncodableDiagnosticInfo w₀.sizeT diagnosticInfo) (hf : Encodable (f w₀.sizeT))
    (hpos : 0 < remaining) (hfits : remaining < 2 ^ 32) :
    Attempt.Returns (World.Orphaned r remaining remainingSubresults w₀) (do
        resultAddDiagnosticInfo r diagnosticInfo
        let w ← getWorld
        writeResult r (f w.sizeT)
        releaseResult r) (fun _ => World.Answered r (remaining = 1) w₀) := by
  refine .bind (returns_resultAddDiagnosticInfo hdiagnostic) fun _ => returns_getWorld fun w h =>
    .bind (returns_writeResult ?_) fun _ => returns_releaseResult hpos hfits
  rw [h.sizeT]
  exact hf

/-! ### Every answer -/

/-- The last answer to an item is there when no other answer is owed. -/
theorem Result.Counts.eq_one_iff {ret : Result} {answers subanswers : ℕ}
    (h : ret.Counts (answers + 1) subanswers) :
    ret.remaining = 1 ↔ answers = 0 ∧ subanswers = 0 := by
  rw [h.remaining]
  split
  · omega
  · omega

/-- The last sub-item is there when no other answer is owed. -/
theorem Result.Counts.subresults_eq_one_iff {ret : Result} {answers subanswers : ℕ}
    (h : ret.Counts answers (subanswers + 1)) :
    ret.remaining = 1 ∧ ret.remainingSubresults = 1 ↔ answers = 0 ∧ subanswers = 0 := by
  rw [h.remaining, h.subresults, if_neg (Nat.succ_ne_zero _)]
  omega

/-- A call that the application may make is made without what it owes for it. -/
theorem Call.run_performLegal {call : Call} {w : World} (h : call.Legal w) :
    call.performLegal.run w =
      call.perform.run { w with owed := call.owed.elim w.owed w.owed.erase } := by
  have hrun : call.performLegal.run w = (if call.Legal w then do
      modifyWorld fun w => { w with owed := call.owed.elim w.owed w.owed.erase }
      call.perform
    else pure ()).run w := rfl
  rw [hrun, if_pos h]
  rfl

/-- A result that is answered once more has been settled. -/
theorem World.Answered.settles {r : ℕ} {freed : Prop} {w₀ w' : World}
    (h : World.Answered r freed w₀ w')
    (hfreed : freed ↔ (owedTokens w₀.owed).count (.answer r) = 0 ∧
      (owedTokens w₀.owed).count (.subanswer r) = 0) :
    w'.results.get r = none ↔ ∀ o ∈ w'.owed, o.result ≠ some r := by
  rw [h.result, hfreed, h.owed]
  exact count_eq_zero_iff r w₀.owed

/-- **A subscription is released**: its count is one less, and it keeps its items as long as it
is there. -/
theorem World.Sorted.exists_releaseSubscription {w : World} {keys : List SortKey}
    (hsorted : w.Sorted keys) {k : ℕ} {s : Subscription} (hs : w.subscriptions.get k = some s) :
    ∃ subs table malloc, (releaseSubscription k).run w = some (.ok (), { w with
        subscriptions := subs, subscriptionTable := table, malloc := malloc }) ∧
      (subs.get k).elim 0 Subscription.referenceCount =
        (s.referenceCount + (2 ^ 32 - 1)) % 2 ^ 32 ∧
      ∀ s', subs.get k = some s' → s'.publishHandle = s.publishHandle := by
  have hget : (w.released k s).subscriptions.get k = some { s with
      referenceCount := (s.referenceCount + (2 ^ 32 - 1)) % 2 ^ 32 } :=
    (Heap.get_set hs _ _).trans (if_pos rfl)
  rcases hsorted.run_releaseSubscription hs with ⟨-, hrun⟩ | ⟨hzero, place, -, -, hrun⟩
  · refine ⟨(w.released k s).subscriptions, _, _, hrun, ?_, fun s' hs' => ?_⟩
    · rw [hget, Option.elim_some]
    · obtain rfl := Option.some.inj (hget.symm.trans hs')
      rfl
  · have hnone : (w.unlisted k s place).subscriptions.get k = none :=
      (Heap.get_free _ _ _).trans (if_pos rfl)
    refine ⟨(w.unlisted k s place).subscriptions, _, _, hrun, ?_, fun s' hs' => ?_⟩
    · rw [hzero, hnone, Option.elim_none]
    · exact absurd (hnone.symm.trans hs') nofun

/-- **An answer to an unsubscribe callback** releases its subscription, and is counted. -/
theorem run_returnUnsubscribe {w : World} {keys : List SortKey} (hsorted : w.Sorted keys)
    {ret : Result} (hr : w.results.get r = some ret) (horphan : ret.session = none)
    (huses : ∀ data, uses ret.entries data ≤ dataReferences w.publishData data)
    (hpos : 0 < ret.remaining) (hfits : ret.remaining < 2 ^ 32)
    (diagnosticInfo : Option (Value (List UInt8))) {subscription : Option ℕ}
    (hgiven : ∀ k ∈ subscription, (w.subscriptions.get k).isSome) :
    ∃ w', (returnUnsubscribe r diagnosticInfo subscription).run w = some (.ok (), w') ∧
      w'.owed = w.owed ∧ (w'.results.get r = none ↔ ret.remaining = 1) ∧
      ∀ k ∈ subscription, ∀ s, w.subscriptions.get k = some s →
        (w'.subscriptions.get k).elim 0 Subscription.referenceCount =
          (s.referenceCount + (2 ^ 32 - 1)) % 2 ^ 32 := by
  -- the subscription is released first, if there is one
  obtain ⟨w₁, hrun₁, hresults, hdata, howed₁, hreleased⟩ :
      ∃ w₁, (subscription.elim (pure ()) releaseSubscription).run w = some (.ok (), w₁) ∧
        w₁.results = w.results ∧ w₁.publishData = w.publishData ∧ w₁.owed = w.owed ∧
        ∀ k ∈ subscription, ∀ s, w.subscriptions.get k = some s →
          (w₁.subscriptions.get k).elim 0 Subscription.referenceCount =
            (s.referenceCount + (2 ^ 32 - 1)) % 2 ^ 32 := by
    cases subscription with
    | none => exact ⟨w, rfl, rfl, rfl, rfl, nofun⟩
    | some k =>
      obtain ⟨s, hs⟩ := Option.isSome_iff_exists.mp (hgiven k rfl)
      obtain ⟨subs, table, malloc, hrun, hcount, -⟩ := hsorted.exists_releaseSubscription hs
      refine ⟨_, hrun, rfl, rfl, rfl, fun k' hk' s' hs' => ?_⟩
      obtain rfl := Option.some.inj hk'
      obtain rfl := Option.some.inj (hs.symm.trans hs')
      exact hcount
  have hr₁ : w₁.results.get r = some ret := hresults ▸ hr
  have horphaned : World.Orphaned r ret.remaining ret.remainingSubresults w₁ w₁ :=
    ⟨⟨ret, hr₁, horphan, rfl, rfl, fun data => hdata ▸ huses data⟩, rfl, rfl, rfl⟩
  obtain ⟨_, w', hrun, hfreed, howed, hsubscriptions⟩ :=
    returns_releaseDummyUnsubscribeResult hpos hfits w₁ horphaned
  refine ⟨w', ?_, howed.trans howed₁, hfreed, ?_⟩
  · rw [returnUnsubscribe, Attempt.run_bind_ok hrun₁, Attempt.run_bind_ok (Place.run_read hr₁),
      horphan]
    exact hrun
  · rw [hsubscriptions]
    exact hreleased

section Settles

variable {w : World} {call : Call} {ret : Result}

/-- A call that releases nothing settles its item when it counts as an answer. -/
theorem Call.settles_of_returns {P : World → Prop} {freed : Prop} {w₁ : World} {o : Owed}
    (hlegal : call.Legal w) (hnone : call.given = none) (howed : call.owed = some o)
    (hP : P { w with owed := w.owed.erase o })
    (hreturns : Attempt.Returns P call.perform fun _ => World.Answered r freed w₁)
    (hfreed : freed ↔ (owedTokens w₁.owed).count (.answer r) = 0 ∧
      (owedTokens w₁.owed).count (.subanswer r) = 0) : ∃ w', call.Settles r w w' := by
  obtain ⟨_, w', hrun, hanswered⟩ := hreturns _ hP
  refine ⟨w', ?_, ?_, hanswered.settles hfreed⟩
  · rw [call.run_performLegal hlegal, howed]
    exact hrun
  · rw [hnone]
    exact nofun

/-- **An answer to an item of any other request settles it**, also without a session. -/
theorem Call.exists_settles (hanswers : call.answers = some r) (hr : w.results.get r = some ret)
    (horphan : ret.session = none)
    (hcounts : ret.Counts ((owedTokens w.owed).count (.answer r))
      ((owedTokens w.owed).count (.subanswer r)))
    (huses : ∀ data, uses ret.entries data ≤ dataReferences w.publishData data)
    {keys : List SortKey} (hsorted : w.Sorted keys) (hlegal : call.Legal w)
    (hencodes : call.Encodes w.sizeT) (hother : call.isSubscribe = false)
    (hgiven : ∀ k ∈ call.given, (w.subscriptions.get k).isSome) : ∃ w', call.Settles r w w' := by
  have hpos : 0 < ret.remaining := hcounts.pos
  have hfits : ret.remaining < 2 ^ 32 := hcounts.fits
  -- the world when less or more is owed
  let owing : List Owed → World := fun owed => { w with owed := owed }
  have hstart : ∀ owed, World.Orphaned r ret.remaining ret.remainingSubresults
      (owing owed) (owing owed) := fun owed => ⟨⟨ret, hr, horphan, rfl, rfl, huses⟩, rfl, rfl, rfl⟩
  -- the answer that is owed is one of those that are counted
  have htokens : ∀ o ∈ call.owed, o.tokens + owedTokens (w.owed.erase o) = owedTokens w.owed :=
    fun o ho => owedTokens_erase (hlegal.1 o ho)
  cases call with
  | value q diagnosticInfo answer =>
    obtain rfl := Option.some.inj hanswers
    rw [← htokens _ rfl, Owed.tokens, Multiset.singleton_add, Multiset.count_cons_self,
      count_subanswer_cons_answer] at hcounts
    exact Call.settles_of_returns hlegal rfl rfl (hstart _)
      (returns_answer (f := fun sizeT buffer =>
      buffer.writeWpcpValue sizeT answer) hencodes.1 hencodes.2 hpos hfits) hcounts.eq_one_iff
  | item q diagnosticInfo answer =>
    obtain rfl := Option.some.inj hanswers
    rw [← htokens _ rfl, Owed.tokens, Multiset.singleton_add, Multiset.count_cons_self,
      count_subanswer_cons_answer] at hcounts
    exact Call.settles_of_returns hlegal rfl rfl (hstart _)
      (returns_answer (f := fun sizeT buffer =>
      answer.write sizeT buffer) hencodes.1 hencodes.2 hpos hfits) hcounts.eq_one_iff
  | items q diagnosticInfo count =>
    obtain rfl := Option.some.inj hanswers
    rw [← htokens _ rfl, Owed.tokens, Multiset.singleton_add, Multiset.count_cons_self,
      count_subanswer_cons_answer] at hcounts
    refine Call.settles_of_returns hlegal rfl rfl (hstart _) (.bind
      (returns_resultAddDiagnosticInfo hencodes) fun _ => .bind (Q := fun _ => World.Orphaned q
        ret.remaining ret.remainingSubresults (owing (w.owed.erase (.item q) ++
          List.replicate count (.subitem q)))) (fun w' h => ⟨(), _, rfl, ?_⟩) fun _ =>
        returns_requestSubresult hpos hfits count) ?_
    · exact ⟨h.result, h.sizeT, congrArg (· ++ _) h.owed, h.subscriptions⟩
    · rw [hcounts.eq_one_iff, owedTokens_append, owedTokens_replicate_subitem, Multiset.count_add,
        Multiset.count_add, Multiset.count_replicate, Multiset.count_replicate,
        if_neg (by simp), if_pos rfl]
      omega
  | subitem q answer =>
    obtain rfl := Option.some.inj hanswers
    rw [← htokens _ rfl, Owed.tokens, Multiset.singleton_add, Multiset.count_cons_self,
      count_answer_cons_subanswer] at hcounts
    refine Call.settles_of_returns hlegal rfl rfl (hstart _) (returns_getWorld fun w' h =>
      .bind (returns_writeResult ?_) fun _ => returns_releaseSubresult hpos hfits
        (hcounts.subresults.symm ▸ Nat.succ_pos _) hcounts.fitsSubresults)
      hcounts.subresults_eq_one_iff
    rw [h.sizeT]
    exact hencodes
  | unsubscribe q diagnosticInfo subscription =>
    obtain rfl := Option.some.inj hanswers
    have herase := htokens _ rfl
    rw [Owed.tokens, Multiset.cons_add] at herase
    have hnone : ∀ t : Token, t.isAnswer = true →
        (reference subscription).count t = 0 := fun t ht =>
      count_reference_of_isAnswer ht subscription
    rw [← herase, Multiset.count_cons_self, count_subanswer_cons_answer, Multiset.count_add,
      Multiset.count_add, hnone _ rfl, hnone _ rfl, Nat.zero_add, Nat.zero_add] at hcounts
    have hsorted : (owing (w.owed.erase (.unsubscribe q subscription))).Sorted keys :=
      hsorted.congr rfl fun _ => rfl
    obtain ⟨w', hrun, howed, hfreed, hreleased⟩ :=
      run_returnUnsubscribe hsorted hr horphan huses hpos hfits diagnosticInfo hgiven
    refine ⟨w', (Call.run_performLegal hlegal).trans hrun, hreleased, ?_⟩
    rw [hfreed, howed, hcounts.eq_one_iff]
    exact count_eq_zero_iff q _
  | subscribeAccept | subscribeAlias | subscribeReject => cases hother
  | aliasReturned | publish | republish | outMessageCreate | addFreePublishSlots =>
    cases hanswers

end Settles

/-! ### The answers that do not return -/

/-- **An answer to an item of a subscribe request needs the session** of its result. -/
theorem Call.ensures_perform_orphan {call : Call} {ret : Result}
    (hsubscribe : call.isSubscribe = true)
    (hanswers : call.answers = some r) (horphan : ret.session = none) :
    Attempt.Ensures (fun w => w.results.get r = some ret) call.perform (fun _ _ => False)
      Stop.Any := by
  have hkept : IgnoresSubscriptions fun w => w.results.get r = some ret :=
    ⟨fun _ _ h => h, fun _ _ h => h, fun _ _ h => h, fun _ _ h => h, fun _ _ h => h⟩
  have hread : ∀ {α : Type} {f : Result → Calls α}, f ret = Attempt.fail .dangling →
      Attempt.Ensures (fun w => w.results.get r = some ret) (results.read r >>= f)
        (fun _ _ => False) Stop.Any := by
    intro α f hf
    refine .of_run fun w hr => ⟨.error .dangling, w, ?_, nofun, fun _ _ => trivial⟩
    rw [Attempt.run_bind_ok (Place.run_read hr), hf]
    rfl
  have hinternal : ∀ diagnosticInfo subscription,
      Attempt.Ensures (fun w => w.results.get r = some ret)
        (returnSubscribeInternal r diagnosticInfo subscription) (fun _ _ => False) Stop.Any := by
    intro diagnosticInfo subscription
    refine hread ?_
    rw [horphan]
  cases call with
  | subscribeAccept q diagnosticInfo subscription =>
    obtain rfl := Option.some.inj hanswers
    exact .bind (hinternal _ _) fun _ => .assume (fun _ h => h) False.elim
  | subscribeAlias q diagnosticInfo subscription other =>
    obtain rfl := Option.some.inj hanswers
    exact .bind (Leaves.read _ _) fun s => .bind (Leaves.read _ _) fun o =>
      .bind (Leaves.assert _) fun _ => .bind (hkept.retainSubscription other) fun _ =>
      .bind (hinternal _ _) fun _ => .assume (fun _ h => h) False.elim
  | subscribeReject q diagnosticInfo subscription =>
    obtain rfl := Option.some.inj hanswers
    refine hread ?_
    rw [horphan]
  | _ => exact absurd hsubscribe nofun

/-- What is no longer there cannot be released. -/
theorem isSome_of_run_returnUnsubscribe {w w' : World}
    {diagnosticInfo : Option (Value (List UInt8))}
    {k : ℕ} (h : (returnUnsubscribe r diagnosticInfo (some k)).run w = some (.ok (), w')) :
    (w.subscriptions.get k).isSome := by
  rcases hk : w.subscriptions.get k with _ | s
  · have hrun : (releaseSubscription k).run w = some (.error .dangling, w) := by
      refine Attempt.run_bind_error ?_
      simp only [Place.read, Attempt.run, hk]
    rw [returnUnsubscribe, Option.elim_some, Attempt.run_bind_error hrun] at h
    cases h
  · rfl

/-! ### Answers in every run -/

/-- **Answers may arrive after the session is gone**, in any run and in any order, except those to
the items of a subscribe request: with these exceptions, and as long as its subscription has not
been freed, an answer settles its item. -/
theorem settlesOrphan_iff {app : Application} {sizeT : Cbor.SizeT} {callbacks : Callback → Bool}
    {malloc : ℕ → Bool} {acts : List Act} {w : World}
    (hrun : Transition.Run (World.step app) Transition.anyStep
      (World.create sizeT callbacks malloc) acts w) {call : Call} {ret : Result}
    (hanswers : call.answers = some r) (hr : w.results.get r = some ret)
    (horphan : ret.session = none) (hoverlapped : ret.overlapped = false) (hlegal : call.Legal w)
    (hencodes : call.Encodes w.sizeT) :
    (∃ w', call.Settles r w w') ↔
      call.isSubscribe = false ∧ ∀ k ∈ call.given, (w.subscriptions.get k).isSome := by
  have hcounts := (counted_of_run hrun).result r ret hr nofun hoverlapped
  rw [zero_add] at hcounts
  have hcovered : w.AllCovered := covered_of_run hrun
  have hbalance : w.Balanced False (owedTokens w.owed) := balanced_of_run False.elim hrun
  obtain ⟨keys, hsorted⟩ := hbalance.sorted
  constructor
  · rintro ⟨w', hreturns, -, -⟩
    rw [call.run_performLegal hlegal] at hreturns
    have hother : call.isSubscribe = false := by
      rcases hsubscribe : call.isSubscribe with _ | _
      · rfl
      · exact ((Call.ensures_perform_orphan hsubscribe hanswers horphan).ok (by exact hr)
          hreturns).elim
    refine ⟨hother, fun k hk => ?_⟩
    cases call with
    | unsubscribe q diagnosticInfo subscription =>
      obtain rfl : subscription = some k := hk
      have hsome := isSome_of_run_returnUnsubscribe hreturns
      exact hsome
    | subscribeAccept | subscribeAlias | subscribeReject => exact absurd hother nofun
    | _ => exact absurd hk nofun
  · rintro ⟨hother, hgiven⟩
    exact Call.exists_settles hanswers hr horphan hcounts (hcovered.uses_entries_le hr) hsorted
      hlegal hencodes hother hgiven

/-! ### A subscribe request whose session is gone -/

/-- A request subscribes to a key, another asks to unsubscribe, and the session is deleted before
they are answered. -/
def deletedFirst : List Act :=
  [.sessionCreate, hello, subscribe 4 1, unsubscribe 1, .sessionDelete 0]

/-- The answer to the unsubscribe request settles it. -/
theorem settlesOrphan_deletedFirst : ∃ w w',
    Transition.Run (World.step silent) Transition.anyStep
      (World.create .bits64 subscriptionCallbacks fun _ => true) deletedFirst w ∧
    (Call.unsubscribe 1 none none).Settles 1 w w' := by
  have hrun : (Transition.execute (World.step silent) Transition.anyStep
      (World.create .bits64 subscriptionCallbacks fun _ => true) deletedFirst).any
      (fun w =>
        (w.results.get 1).any (fun ret => ret.session = none ∧ ret.overlapped = false) = true ∧
        (Call.unsubscribe 1 none none).Legal w) = true := by
    decide +kernel
  obtain ⟨w, hw, hfacts⟩ := (Option.any_eq_true _ _).mp hrun
  rw [decide_eq_true_eq] at hfacts
  obtain ⟨hresult, hlegal⟩ := hfacts
  obtain ⟨ret, hr, hret⟩ := (Option.any_eq_true _ _).mp hresult
  rw [decide_eq_true_eq] at hret
  have hw := Transition.run_of_execute hw
  obtain ⟨w', hsettles⟩ := (settlesOrphan_iff hw rfl hr hret.1 hret.2 hlegal trivial).mpr
    ⟨rfl, nofun⟩
  exact ⟨w, w', hw, hsettles⟩

/-- **The application cannot reject a subscription whose session is gone.** -/
theorem not_settlesOrphan : ¬ ∀ (app : Application) (sizeT : Cbor.SizeT)
    (callbacks : Callback → Bool) (malloc : ℕ → Bool) (acts : List Act) (w : World),
    Transition.Run (World.step app) Transition.anyStep (World.create sizeT callbacks malloc)
      acts w → ∀ (call : Call) (r : ℕ) (ret : Result), call.answers = some r →
      w.results.get r = some ret → ret.session = none → ret.overlapped = false → call.Legal w →
      call.Encodes w.sizeT → ∃ w', call.Settles r w w' := by
  have hrun : (Transition.execute (World.step silent) Transition.anyStep
      (World.create .bits64 subscriptionCallbacks fun _ => true) deletedFirst).any
      (fun w =>
        (w.results.get 0).any (fun ret => ret.session = none ∧ ret.overlapped = false) = true ∧
        (Call.subscribeReject 0 none 0).Legal w) = true := by
    decide +kernel
  obtain ⟨w, hw, hfacts⟩ := (Option.any_eq_true _ _).mp hrun
  rw [decide_eq_true_eq] at hfacts
  obtain ⟨hresult, hlegal⟩ := hfacts
  obtain ⟨ret, hr, hret⟩ := (Option.any_eq_true _ _).mp hresult
  rw [decide_eq_true_eq] at hret
  intro hall
  obtain ⟨w', hreturns, -, -⟩ := hall silent .bits64 subscriptionCallbacks _ _ w
    (Transition.run_of_execute hw) (.subscribeReject 0 none 0) 0 ret rfl hr hret.1 hret.2 hlegal
    trivial
  rw [Call.run_performLegal hlegal] at hreturns
  exact (Call.ensures_perform_orphan (r := 0) rfl rfl hret.1).ok (by exact hr) hreturns

end Wpcp
