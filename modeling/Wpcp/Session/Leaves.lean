import Wpcp.Session.Conserved
import Wpcp.Session.Sending

/-!
# What an operation leaves alone

An assertion on worlds mostly speaks of a few heaps, and every operation that does not
touch these leaves it alone (`Wpcp.Leaves`). There are two such groups of operations: those
on results and the output of sessions (`Wpcp.IgnoresAnswers`, `Wpcp.IgnoresOutput`), and those
on subscriptions and publish items (`Wpcp.IgnoresTable`).
-/

namespace Wpcp

open Cbor (Value WriteBuffer)

variable {α β : Type} {P : World → Prop}

/-- A result has accepted the same items, and has the same session or none. -/
def Result.SameItems (ret ret' : Result) : Prop :=
  (ret'.session = ret.session ∨ ret'.session = none) ∧ ret'.items = ret.items

/-- How many places the list of blocked items has, if there is one. -/
def Result.slots (ret : Result) : Option ℕ := ret.blockedItems.map BlockedItemList.slots

/-- A result counts the same answers, has accepted the same items, and has as many places. -/
def Result.SameCounters (ret ret' : Result) : Prop :=
  ret.SameItems ret' ∧ ret'.remaining = ret.remaining ∧
    ret'.remainingSubresults = ret.remainingSubresults ∧ ret'.overlapped = ret.overlapped ∧
    ret'.slots = ret.slots

/-- A result waits for the same session, and answers the same request. -/
def Result.SameRequest (ret ret' : Result) : Prop :=
  ret'.session = ret.session ∧ ret'.requestId = ret.requestId ∧
    ret'.requestPayloadCount = ret.requestPayloadCount

theorem Result.SameItems.of_eq {ret ret' : Result}
    (hsession : ret'.session = ret.session ∨ ret'.session = none)
    (hblocked : ret'.blockedItems = ret.blockedItems) : ret.SameItems ret' :=
  ⟨hsession, by rw [Result.items, Result.items, hblocked]⟩

/-- An assertion that survives a call which returns. -/
def Leaves (P : World → Prop) (m : Calls α) : Prop :=
  Attempt.Ensures P m (fun _ => P) Stop.Any

namespace Leaves

theorem bind {m : Calls α} {f : α → Calls β} (hm : Leaves P m) (hf : ∀ a, Leaves P (f a)) :
    Leaves P (m >>= f) :=
  Attempt.Ensures.bind hm hf

theorem pure (a : α) : Leaves P (Pure.pure a : Calls α) := Attempt.Ensures.pure fun _ h => h

theorem fail (e : Stop) : Leaves P (Attempt.fail e : Calls α) := Attempt.Ensures.fail trivial

theorem ite {c : Prop} [Decidable c] {m m' : Calls α} (h : Leaves P m) (h' : Leaves P m') :
    Leaves P (if c then m else m') := by
  split
  · exact h
  · exact h'

theorem assert (c : Prop) [Decidable c] : Leaves P (assert c) := .ite (.pure _) (.fail _)

theorem getWorld : Leaves P getWorld :=
  ensures_getWorld.imp (fun _ h => h) (fun _ _ h => h.2) fun _ h => h

theorem read (p : Place α) (r : ℕ) : Leaves P (p.read r) :=
  (Place.ensures_read trivial).imp (fun _ h => h) (fun _ _ h => h.2) fun _ h => h

/-- A function that reads an object first may rely on what it has read. -/
theorem read_bind {p : Place α} {r : ℕ} {f : α → Calls β}
    (hf : ∀ a, Attempt.Ensures (fun w => (p.heap w).get r = some a ∧ P w) (f a) (fun _ => P)
      Stop.Any) :
    Leaves P (p.read r >>= f) :=
  Attempt.Ensures.bind (Place.ensures_read trivial) hf

theorem modifyWorld {f : World → World} (h : ∀ w, P w → P (f w)) : Leaves P (modifyWorld f) :=
  ensures_modifyWorld h

theorem malloc (h : ∀ w malloc, P w → P { w with malloc := malloc }) : Leaves P malloc := by
  intro w hw r t hrun
  obtain ⟨rfl, rfl⟩ := Prod.mk.inj (Option.some.inj hrun)
  exact ⟨fun _ _ => h w _ hw, fun _ _ => trivial⟩

theorem writeBufferInit (h : ∀ w malloc, P w → P { w with malloc := malloc }) :
    Leaves P writeBufferInit := by
  intro w hw r t hrun
  obtain ⟨rfl, rfl⟩ := Prod.mk.inj (Option.some.inj hrun)
  exact ⟨fun _ _ => h w _ hw, fun _ _ => trivial⟩

theorem write {p : Place α} (h : ∀ w heap, P w → P (p.put heap w)) (r : ℕ) (a : α) :
    Leaves P (p.write r a) :=
  Place.ensures_write trivial fun w _ hw _ => h w _ hw

theorem free {p : Place α} (h : ∀ w heap, P w → P (p.put heap w)) (r : ℕ) :
    Leaves P (p.free r) :=
  Place.ensures_free trivial fun w _ hw _ => h w _ hw

theorem new {p : Place α} (h : ∀ w heap, P w → P (p.put heap w)) (a : α) : Leaves P (p.new a) :=
  Place.ensures_new fun w hw => h w _ hw

section PublishData

variable (h : ∀ w heap, P w → P { w with publishData := heap })
include h

theorem publishQueueItemDeref (data : ℕ) : Leaves P (publishQueueItemDeref data) :=
  .bind (.read _ _) fun _ => .ite (.write h _ _) (.free h _)

theorem publishQueueItemsDeref (entries : List Entry) :
    Leaves P (publishQueueItemsDeref entries) := by
  induction entries with
  | nil => exact .pure _
  | cons e entries ih => exact .bind (publishQueueItemDeref h e.data) fun _ => ih

theorem writePublish (dest : PublishDest) (entries : List Entry) :
    Leaves P (writePublish dest entries) := by
  induction entries generalizing dest with
  | nil => exact .pure _
  | cons e entries ih =>
    exact .ite (.bind (.read _ _) fun _ => .bind (publishQueueItemDeref h _) fun _ => ih _)
      (.fail _)

end PublishData

theorem publishContentSize (out : OutState QueuedOutMessage Entry) :
    Leaves P (publishContentSize out) := by
  have hsize : ∀ entries, Leaves P (publishSize entries) := by
    intro entries
    induction entries with
    | nil => exact .pure _
    | cons e entries ih =>
      exact .bind (.read _ _) fun _ => .bind ih fun _ => .bind .getWorld fun _ => .pure _
  exact .ite (hsize _) (.pure _)

section PublishEntries

variable (hresults : ∀ w r ret ret', w.results.get r = some ret → ret.SameCounters ret' →
    ret.SameRequest ret' → P w → P { w with results := w.results.set r ret' })
  (hqueue : ∀ s first rest, Leaves P (sessionPublishQueueAppend s first rest))
include hresults hqueue

/-- An entry is put into a result or into the publish queue of a session. -/
theorem sessionAddPublishQueueItem (it : ℕ) (entry : Entry) :
    Leaves P (sessionAddPublishQueueItem it entry) := by
  refine .bind (.bind (.read _ _) fun i => .bind (.read _ _) fun σ => .bind .getWorld fun w =>
    .pure _) ?_
  rintro (_ | result)
  · exact .bind (.read _ _) fun i => hqueue _ _ _
  · refine .read_bind fun ret => ?_
    split
    · rename_i hblocked
      refine Place.ensures_write trivial fun w _ h _ => hresults w _ ret _ h.1
        ⟨⟨Or.inl rfl, ?_⟩, rfl, rfl, rfl, ?_⟩ ⟨rfl, rfl, rfl⟩ h.2
      · rw [Result.items, Result.items, hblocked]
        rfl
      · rw [Result.slots, Result.slots, hblocked]
        rfl
    · exact .pure fun _ h => h.2

theorem publishEntries (data length : ℕ) (items : List ℕ) :
    Leaves P (publishEntries data length items) := by
  induction length generalizing items with
  | zero => exact .pure _
  | succ length ih =>
    cases items with
    | nil => exact .fail _
    | cons it next =>
      exact .bind (.read _ _) fun i => .bind (sessionAddPublishQueueItem hresults hqueue _ _)
        fun _ => ih next

end PublishEntries

theorem releaseQueuedOutMessages (σ : Session) : Leaves P (releaseQueuedOutMessages σ) := by
  unfold Wpcp.releaseQueuedOutMessages
  dsimp only
  split
  · exact .pure _
  · exact .fail _

/-- Results lose their session. -/
theorem orphanResults {l : List ℕ} (horphan : ∀ w, ∀ r ∈ l, ∀ ret, w.results.get r = some ret →
    P w → P { w with results := w.results.set r { ret with session := none } }) :
    Leaves P (orphanResults l) := by
  induction l with
  | nil => exact .pure _
  | cons r next ih =>
    exact .read_bind fun ret => .bind (Q := fun _ => P) (Place.ensures_write trivial
      fun w _ h _ => horphan w r List.mem_cons_self ret h.1 h.2) fun _ =>
      ih fun w r hr => horphan w r (List.mem_cons_of_mem _ hr)

/-- When a session ends, its results lose it, and its memory becomes a result or is freed. -/
theorem closeSession {s : ℕ} {σ : Session}
    (hdata : ∀ w heap, P w → P { w with publishData := heap })
    (horphan : ∀ w, ∀ r ∈ σ.results, ∀ ret, w.results.get r = some ret → P w →
      P { w with results := w.results.set r { ret with session := none } })
    (hfree : ∀ w, P w → P { w with sessions := w.sessions.free s })
    (hnew : ∀ w ret, ret.blockedItems = none → ret.session = none →
      ret.remaining = σ.items.length → σ.items.length ≠ 0 → P w →
      P { w with results := w.results.alloc ret }) : Leaves P (closeSession s σ) := by
  have hsession : Leaves P (sessions.free s) := Place.ensures_free trivial fun w _ h _ => hfree w h
  refine .bind (releaseQueuedOutMessages σ) fun _ => .bind (publishQueueItemsDeref hdata _)
    fun _ => .bind (orphanResults horphan) fun _ => Attempt.Ensures.ite (fun hne => ?_)
    fun _ => .bind hsession fun _ => Leaves.pure _
  exact .bind (Q := fun _ => P) (.bind hsession fun _ => .bind (Leaves.assert _) fun _ =>
    Place.ensures_new fun w h => hnew w _ rfl rfl rfl hne h) fun _ => Leaves.pure _

/-- An assertion that is left alone is moved from one hand to another that says the same. -/
theorem moves {m : Calls α} {S : Prop} {I J : Multiset Token → World → Prop}
    {Q : World → Prop} {hand : Multiset Token} {hand' : α → Multiset Token}
    (h : Leaves (J hand) m) (hhand : ∀ a w, J hand w → J (hand' a) w) :
    Moves S I J Q hand m hand' :=
  h.imp (fun _ h => h.2.2.1) (fun a w h => hhand a w h) fun _ h => h

end Leaves

/-- The list of blocked items that is allocated has no entries and no items. -/
theorem ensures_getBlockedItems_same (hmalloc : ∀ w malloc, P w → P { w with malloc := malloc })
    (ret : Result) :
    Attempt.Ensures P (getBlockedItems ret) (fun blocked w =>
      (Result.entries { ret with blockedItems := blocked } = ret.entries ∧
        Result.items { ret with blockedItems := blocked } = ret.items) ∧ P w) Stop.Any := by
  unfold getBlockedItems
  split
  · rename_i heq
    refine .pure fun w hw => ⟨?_, hw⟩
    rw [← heq]
    exact ⟨rfl, rfl⟩
  · rename_i heq
    refine .bind (Leaves.malloc hmalloc) fun ok => .bind Leaves.getWorld fun _ =>
      .pure fun w hw => ⟨?_, hw⟩
    rw [Result.entries, Result.entries, Result.items, Result.items, heq]
    cases ok with
    | true => exact ⟨rfl, rfl⟩
    | false => exact ⟨rfl, rfl⟩

/-! ### Results and output -/

/-- A session has the same table of publish items. -/
def Session.SameTable (σ σ' : Session) : Prop :=
  σ'.publishItems = σ.publishItems ∧ σ'.nextFreePublishItem = σ.nextFreePublishItem

/-- A session has sent more, and is still marked to be killed if it was. -/
def Session.SentMore (σ σ' : Session) : Prop :=
  σ.ops <+: σ'.ops ∧ (σ.out.kill = true → σ'.out.kill = true)

/-- The events with which an item ends. -/
def Event.isRelease : Event → Bool
  | .released .. => true
  | _ => false

/-- An assertion that does not mind what sessions send, and speaks of results only by the items
they have accepted, the answers they wait for and the request. -/
structure IgnoresWrites (P : World → Prop) : Prop where
  malloc : ∀ w malloc, P w → P { w with malloc := malloc }
  setResult : ∀ w r ret ret', w.results.get r = some ret → ret.SameCounters ret' →
    ret.SameRequest ret' → P w → P { w with results := w.results.set r ret' }
  publishData : ∀ w heap, P w → P { w with publishData := heap }
  events : ∀ w event, event.isRelease = false → P w → P { w with events := w.events ++ [event] }
  sessions : ∀ w s σ σ', w.sessions.get s = some σ → σ.SameTable σ' → σ.SentMore σ' → P w →
    P { w with sessions := w.sessions.set s σ' }

/-- An assertion that does not speak of the answers that results wait for either. -/
structure IgnoresAnswers (P : World → Prop) : Prop extends IgnoresWrites P where
  answerResult : ∀ w r ret ret', w.results.get r = some ret → ret.SameItems ret' → P w →
    P { w with results := w.results.set r ret' }
  freeResult : ∀ w r, P w → P { w with results := w.results.free r }
  newResult : ∀ w ret, ret.items = [] → P w → P { w with results := w.results.alloc ret }
  setResult := fun w r ret ret' hr hsame _ h => answerResult w r ret ret' hr hsame.1 h

/-- An assertion that speaks of no result and no handle of the application either. -/
structure IgnoresOutput (P : World → Prop) : Prop extends IgnoresAnswers P where
  results : ∀ w heap, P w → P { w with results := heap }
  republishHandles : ∀ w heap, P w → P { w with republishHandles := heap }
  answerResult := fun w _ _ _ _ _ h => results w _ h
  freeResult := fun w _ h => results w _ h
  newResult := fun w _ _ h => results w _ h

namespace Session.SentMore

theorem of_eq {σ σ' : Session} (hops : σ'.ops = σ.ops) (hkill : σ'.out.kill = σ.out.kill) :
    σ.SentMore σ' :=
  ⟨hops ▸ List.prefix_rfl, fun hk => hkill.trans hk⟩

end Session.SentMore

/-- A message is queued, or the session is marked to be killed. -/
theorem Session.sentMore_append (σ : Session) (ret : Bool) (message : QueuedOutMessage) :
    σ.SentMore { σ with
      out := σ.out.sessionAppendOutMessage ret message
      ops := if ret then σ.ops ++ [.append message] else σ.ops } := by
  cases ret with
  | true => exact ⟨List.prefix_append _ _, fun hk => (σ.out.kill_append message).trans hk⟩
  | false => exact ⟨List.prefix_rfl, fun _ => rfl⟩

theorem Session.sentMore_publish (σ : Session) (first : Entry) (rest : List Entry) :
    σ.SentMore { σ with
      out := σ.out.sessionPublishQueueAppend first rest
      ops := σ.ops ++ [.publish first rest] } :=
  ⟨List.prefix_append _ _, fun hk => (σ.out.kill_publishQueueAppend first rest).trans hk⟩

namespace IgnoresWrites

variable (h : IgnoresWrites P)
include h

theorem write_sessions (s : ℕ) {σ σ' : Session} (hsame : σ.SameTable σ')
    (hmore : σ.SentMore σ') :
    Attempt.Ensures (fun w => w.sessions.get s = some σ ∧ P w) (Wpcp.sessions.write s σ')
      (fun _ => P) Stop.Any :=
  Place.ensures_write trivial fun w _ hw _ => h.sessions w s σ σ' hw.1 hsame hmore hw.2

theorem write_results (r : ℕ) {ret ret' : Result} (hsame : ret.SameCounters ret')
    (hrequest : ret.SameRequest ret') :
    Attempt.Ensures (fun w => w.results.get r = some ret ∧ P w) (Wpcp.results.write r ret')
      (fun _ => P) Stop.Any :=
  Place.ensures_write trivial fun w _ hw _ => h.setResult w r ret ret' hw.1 hsame hrequest hw.2

theorem emit {event : Event} (hevent : event.isRelease = false) : Leaves P (emit event []) :=
  .modifyWorld fun w hw => by
    rw [List.append_nil]
    exact h.events w event hevent hw

theorem sessionAppendOutMessage (s : ℕ) (messageId : MessageId) (requestId payloadCount : ℕ)
    (buffer : WriteBuffer) (granted : List (ℕ × ℕ)) :
    Leaves P (sessionAppendOutMessage s messageId requestId payloadCount buffer granted) :=
  .bind (.malloc h.malloc) fun ret => .read_bind fun σ =>
    h.write_sessions s ⟨rfl, rfl⟩ (σ.sentMore_append ret _)

theorem sessionPublishQueueAppend (s : ℕ) (first : Entry) (rest : List Entry) :
    Leaves P (sessionPublishQueueAppend s first rest) :=
  .read_bind fun σ => h.write_sessions s ⟨rfl, rfl⟩ (σ.sentMore_publish first rest)

theorem sendResult (r : ℕ) (ret : Result) : Leaves P (sendResult r ret) := by
  unfold Wpcp.sendResult
  split
  · refine .read_bind fun σ => .bind (h.write_sessions _ ⟨rfl, rfl⟩ (.of_eq rfl rfl)) fun _ => ?_
    refine Leaves.bind (h.sessionAppendOutMessage _ _ _ _ _ _) fun _ => ?_
    split
    · exact h.sessionPublishQueueAppend _ _ _
    · exact .pure _
  · split
    · exact .publishQueueItemsDeref h.publishData _
    · exact .pure _

theorem writeResult (r : ℕ) (f : WriteBuffer → Option WriteBuffer) :
    Leaves P (writeResult r f) := by
  refine .read_bind fun ret => ?_
  split
  · exact h.write_results r ⟨.of_eq (Or.inl rfl) rfl, rfl, rfl, rfl, rfl⟩ ⟨rfl, rfl, rfl⟩
  · exact .fail trivial

theorem resultAddDiagnosticInfo (r : ℕ) (diagnosticInfo : Option (Value (List UInt8))) :
    Leaves P (resultAddDiagnosticInfo r diagnosticInfo) := by
  refine .bind .getWorld fun w => ?_
  cases diagnosticInfo with
  | none => exact h.writeResult r _
  | some value => exact h.writeResult r _

theorem publishHandlePublish (handle : PublishHandle) : Leaves P (publishHandlePublish handle) :=
  .bind (.assert _) fun _ => .bind (.malloc h.malloc) fun _ => .ite
    (.bind (.writeBufferInit h.malloc) fun _ => .bind (.new h.publishData _) fun _ =>
      .bind (h.emit rfl) fun _ => .bind (.publishEntries h.setResult h.sessionPublishQueueAppend
      _ _ _) fun _ => .pure _) (.pure _)

theorem publishGeneral (handle : PublishHandle) : Leaves P (publishGeneral handle) := by
  refine .ite (.pure _) (.bind (h.publishHandlePublish handle) ?_)
  rintro (_ | data)
  · cases handle.items with
    | nil => exact .fail _
    | cons it next =>
      exact .bind (.read _ _) fun i => .read_bind fun _ => .bind (h.write_sessions _ ⟨rfl, rfl⟩
        ⟨List.prefix_rfl, fun _ => rfl⟩) fun _ => .pure fun _ hw => hw
  · exact .pure _

theorem publish (handle : Handle) (answer : Cbor.Item) :
    Leaves P (Call.publish handle answer).perform := by
  have hread : Leaves P (readHandle handle) := by
    cases handle with
    | subscription k => exact .bind (.read _ _) fun _ => .pure _
    | republish k => exact .bind (.read _ _) fun _ => .pure _
  refine .bind hread fun handle => .bind (h.publishGeneral handle) ?_
  rintro (_ | data)
  · exact .pure _
  · refine .bind .getWorld fun w => .bind (.read _ _) fun d => ?_
    split
    · exact .write h.publishData _ _
    · exact .fail _

theorem handOut (s size : ℕ) (messages : List QueuedOutMessage) (message : OutMessage Entry) :
    Leaves P (handOut s size messages message) := by
  cases message with
  | queued m =>
    refine .bind .getWorld fun w => ?_
    split
    · exact h.emit rfl
    · exact .fail _
  | publish entries =>
    exact .bind .getWorld fun w => .bind (.writePublish h.publishData _ _) fun _ =>
      .ite (h.emit rfl) (.fail _)

theorem sessionOutMessageCreate (s : ℕ) : Leaves P (sessionOutMessageCreate s) := by
  refine .read_bind fun σ => .bind (Leaves.publishContentSize (P := fun w =>
    w.sessions.get s = some σ ∧ P w) _) fun size => .bind (Leaves.ite (.malloc fun w malloc hw =>
    ⟨hw.1, h.malloc w malloc hw.2⟩) (.pure _)) fun ret => ?_
  have hkill := σ.out.kill_create ret
  rcases hcreate : σ.out.sessionOutMessageCreate ret with ⟨message, out⟩
  rw [hcreate] at hkill
  refine .bind (h.write_sessions s ⟨rfl, rfl⟩ ⟨List.prefix_append _ _, fun hk => hkill.trans hk⟩)
    fun _ => ?_
  cases message with
  | none => exact Leaves.pure _
  | some message => exact Leaves.bind (h.handOut _ _ _ _) fun _ => .pure _

theorem sessionAddFreePublishSlots (s count : ℕ) :
    Leaves P (sessionAddFreePublishSlots s count) :=
  .read_bind fun σ => h.write_sessions s ⟨rfl, rfl⟩
    (.of_eq rfl (σ.out.kill_addFreePublishSlots count))

end IgnoresWrites

namespace IgnoresAnswers

variable (h : IgnoresAnswers P)
include h

theorem write_results (r : ℕ) {ret ret' : Result} (hsame : ret.SameItems ret') :
    Attempt.Ensures (fun w => w.results.get r = some ret ∧ P w) (Wpcp.results.write r ret')
      (fun _ => P) Stop.Any :=
  Place.ensures_write trivial fun w _ hw _ => h.answerResult w r ret ret' hw.1 hsame hw.2

theorem free_results (r : ℕ) : Leaves P (Wpcp.results.free r) :=
  Place.ensures_free trivial fun w _ hw _ => h.freeResult w r hw

theorem releaseResult (r : ℕ) : Leaves P (releaseResult r) :=
  .read_bind fun ret => .bind (h.write_results r (.of_eq (Or.inl rfl) rfl)) fun _ =>
    Leaves.ite (.pure _) (.bind (h.sendResult r ret) fun _ => h.free_results r)

theorem resultAddUnsignedInteger (r : ℕ) (diagnosticInfo : Option (Value (List UInt8)))
    (value : ℕ) : Leaves P (resultAddUnsignedInteger r diagnosticInfo value) :=
  .bind (h.resultAddDiagnosticInfo r diagnosticInfo) fun _ => .bind (h.writeResult r _) fun _ =>
    h.releaseResult r

theorem requestSubresult (r count : ℕ) : Leaves P (requestSubresult r count) :=
  .bind (h.writeResult _ _) fun _ => .ite (.read_bind fun _ =>
    h.write_results r (.of_eq (Or.inl rfl) rfl)) (h.releaseResult r)

theorem releaseSubresult (r : ℕ) : Leaves P (releaseSubresult r) :=
  .read_bind fun _ => .bind (h.write_results r (.of_eq (Or.inl rfl) rfl)) fun _ =>
    Leaves.ite (.pure _) (h.releaseResult r)

theorem releaseDummyUnsubscribeResult (r : ℕ) : Leaves P (releaseDummyUnsubscribeResult r) :=
  .read_bind fun _ => .bind (Leaves.assert _) fun _ =>
    .bind (h.write_results r (.of_eq (Or.inl rfl) rfl)) fun _ =>
    Leaves.ite (.pure _) (h.free_results r)

theorem requestResult (s requestId count : ℕ) : Leaves P (requestResult s requestId count) :=
  .bind (.malloc h.malloc) fun _ => .bind (.assert _) fun _ => .ite
    (.bind (.writeBufferInit h.malloc) fun _ => .bind (Place.ensures_new fun w hw =>
      h.newResult w _ rfl hw) fun _ => Leaves.read_bind fun _ =>
      .bind (h.write_sessions s ⟨rfl, rfl⟩ (.of_eq rfl rfl)) fun _ => .pure fun _ hw => hw)
        (.pure _)

theorem resultGetBlockedPublishItemTarget (r : ℕ) :
    Leaves P (resultGetBlockedPublishItemTarget r) := by
  refine .read_bind fun ret => .bind (ensures_getBlockedItems_same (fun w malloc hw =>
    ⟨hw.1, h.malloc w malloc hw.2⟩) ret) fun blocked => .assume (fun _ hw => hw.1) fun hsame =>
    .bind (Q := fun _ => P) (Place.ensures_write trivial fun w _ hw _ =>
      h.answerResult w r ret _ hw.2.1 ⟨Or.inl rfl, hsame.2⟩ hw.2.2) fun _ => ?_
  cases blocked with
  | none => exact Leaves.pure _
  | some blocked => exact Leaves.ite (.pure _) (.fail _)

/-- When a session ends, its results keep their items. -/
theorem closeSession {s : ℕ} (hsessions : ∀ w, P w → P { w with sessions := w.sessions.free s })
    (σ : Session) : Leaves P (closeSession s σ) :=
  .closeSession h.publishData (fun w r _ ret hr hw =>
      h.answerResult w r ret _ hr ⟨Or.inr rfl, rfl⟩ hw)
    hsessions fun w ret hnone _ _ _ hw => h.newResult w ret (by rw [Result.items, hnone]; rfl) hw

end IgnoresAnswers

theorem IgnoresOutput.setBlockedPublishItem (h : IgnoresOutput P) (r id it : ℕ) :
    Leaves P (setBlockedPublishItem r id it) := by
  refine .bind (.read _ _) fun ret => ?_
  split
  · exact .write h.results _ _
  · exact .fail _

/-! ### Subscriptions and publish items -/

/-- A session differs at most in its table of publish items. -/
def Session.SameOutput (σ σ' : Session) : Prop :=
  ∃ items next, σ' = { σ with publishItems := items, nextFreePublishItem := next }

/-- A result differs at most in the items it has accepted. -/
def Result.SameAnswers (ret ret' : Result) : Prop :=
  ret'.entries = ret.entries ∧
    ∃ blocked granted, ret' = { ret with blockedItems := blocked, granted := granted }

/-- An assertion that does not speak of subscriptions. -/
structure IgnoresSubscriptions (P : World → Prop) : Prop where
  malloc : ∀ w malloc, P w → P { w with malloc := malloc }
  subscriptionTable : ∀ w table, P w → P { w with subscriptionTable := table }
  subscriptions : ∀ w heap, P w → P { w with subscriptions := heap }
  referencesPeak : ∀ w peak, P w → P { w with referencesPeak := peak }
  itemLinks : ∀ w links, P w → P { w with itemLinks := links }

/-- An assertion that survives the release of a publish item. -/
structure IgnoresReleases (P : World → Prop) : Prop extends IgnoresSubscriptions P where
  freeItem : ∀ w it, P w → P { w with publishItems := w.publishItems.free it }
  events : ∀ w event, event.isRelease = true → P w → P { w with events := w.events ++ [event] }

/-- An assertion that does not speak of the tables of sessions either. -/
structure IgnoresUnsubscribes (P : World → Prop) : Prop extends IgnoresReleases P where
  sessions : ∀ w s σ σ', w.sessions.get s = some σ → σ.SameOutput σ' → P w →
    P { w with sessions := w.sessions.set s σ' }

/-- An assertion that speaks of none of these, and not of publish items. -/
structure IgnoresTable (P : World → Prop) : Prop extends IgnoresUnsubscribes P where
  newItem : ∀ w i, P w → P { w with publishItems := w.publishItems.alloc i }
  results : ∀ w r ret ret', w.results.get r = some ret → ret.SameAnswers ret' → P w →
    P { w with results := w.results.set r ret' }

namespace IgnoresSubscriptions

variable (h : IgnoresSubscriptions P)
include h

theorem retainSubscription (k : ℕ) : Leaves P (retainSubscription k) :=
  .bind (.read _ _) fun _ => .bind (.write h.subscriptions _ _) fun _ =>
    .bind (.modifyWorld fun w => h.referencesPeak w _) fun _ => .pure _

omit h in
theorem searchStep (type : ℕ) (key : List UInt8) (range : ℕ × ℕ) :
    Leaves P (searchStep type key range) := by
  refine .bind .getWorld fun w => ?_
  dsimp only
  split
  · exact .fail _
  · refine .bind (.read _ _) fun item => ?_
    split
    · exact .pure _
    · exact .pure _
    · exact .pure _

theorem requestSubscription (type : ℕ) (key : List UInt8) :
    Leaves P (requestSubscription type key) := by
  have hsearch : ∀ range, Leaves P (searchSubscription type key range) := by
    refine fun range => .ite (.pure _) (.bind (searchStep type key range) ?_)
    rintro (range | ⟨pos, subscription⟩)
    · exact .pure _
    · exact .pure _
  refine .bind .getWorld fun w => .bind (.loop (I := fun _ => P) (fun range =>
    (hsearch range).imp (fun _ hw => hw) ?_ fun _ hE => hE) _ _) ?_
  · rintro (range | found) w hw
    · exact hw
    · exact hw
  · rintro ⟨_ | k, low⟩
    · exact Leaves.bind (.malloc h.malloc) fun _ => .ite (.bind (.malloc h.malloc) fun _ => .ite
        (.bind (.new h.subscriptions _) fun _ => .bind (.modifyWorld fun w =>
          h.subscriptionTable w _) fun _ => .pure _) (.pure _)) (.pure _)
    · exact Leaves.bind (h.retainSubscription k) fun _ => .pure _

theorem releaseSubscription (k : ℕ) : Leaves P (releaseSubscription k) := by
  refine .bind (.read _ _) fun s => .bind (.write h.subscriptions _ _) fun _ =>
    .ite (.pure _) (.bind .getWorld fun _ => .bind (.loop (I := fun _ => P) (fun range =>
      (searchStep _ _ range).imp (fun _ hw => hw) ?_ fun _ hE => hE) _ _) fun found => ?_)
  · rintro (range | found) w hw
    · exact hw
    · exact hw
  · exact Leaves.bind (.modifyWorld fun w => h.subscriptionTable w _) fun _ =>
      .bind (.malloc h.malloc) fun _ => .free h.subscriptions _

end IgnoresSubscriptions

/-- **A publish item is released**: what an assertion says of it may change with the item being
freed and the event. -/
theorem ensures_publishItemRelease_of {Q : World → Prop} (hP : IgnoresSubscriptions P)
    (hQ : IgnoresSubscriptions Q) {it : ℕ}
    (hfree : ∀ w, P w → ∀ w', w' = { w with publishItems := w.publishItems.free it } →
      Q { w' with events := w'.events ++ [.released it (w'.referenced it)] }) :
    Attempt.Ensures P (Wpcp.publishItemRelease it) (fun _ => Q) Stop.Any := by
  refine .bind (Leaves.read _ _) fun i => .bind (Leaves.read _ _) fun s =>
    .bind (Leaves.assert _) fun _ => .bind (Leaves.write hP.subscriptions _ _) fun _ =>
    .bind (Leaves.modifyWorld fun w => hP.itemLinks w _) fun _ =>
    .bind (Q := fun _ w' => Q { w' with
      events := w'.events ++ [.released it (w'.referenced it)] })
    (Place.ensures_free trivial fun w _ h _ => hfree w h _ rfl) fun _ =>
    .bind ensures_getWorld fun w => .bind (Q := fun _ => Q) (ensures_modifyWorld ?_) fun _ =>
    hQ.releaseSubscription _
  rintro w' ⟨rfl, h⟩
  rw [List.append_nil]
  exact h

namespace IgnoresReleases

variable (h : IgnoresReleases P)
include h

theorem free_publishItems (it : ℕ) : Leaves P (publishItems.free it) :=
  Place.ensures_free trivial fun w _ hw _ => h.freeItem w it hw

theorem publishItemRelease (it : ℕ) : Leaves P (publishItemRelease it) :=
  .bind (.read _ _) fun i => .bind (.read _ _) fun s => .bind (.assert _) fun _ =>
    .bind (.write h.subscriptions _ _) fun _ => .bind (.modifyWorld fun w => h.itemLinks w _)
    fun _ => .bind (h.free_publishItems it) fun _ => .bind .getWorld fun w =>
      .bind (.modifyWorld fun w hw => by
      rw [List.append_nil]
      exact h.events w _ rfl hw) fun _ => h.releaseSubscription _

theorem deletePublishItem (it : ℕ) : Leaves P (deletePublishItem it) :=
  .bind (.read _ _) fun _ => .bind (h.retainSubscription _) fun _ =>
    .bind (h.publishItemRelease it) fun _ => .pure _

end IgnoresReleases

namespace IgnoresUnsubscribes

variable (h : IgnoresUnsubscribes P)
include h

theorem write_sessions (s : ℕ) {σ σ' : Session} (hsame : σ.SameOutput σ') :
    Attempt.Ensures (fun w => w.sessions.get s = some σ ∧ P w) (Wpcp.sessions.write s σ')
      (fun _ => P) Stop.Any :=
  Place.ensures_write trivial fun w _ hw _ => h.sessions w s σ σ' hw.1 hsame hw.2

theorem sessionReleasePublishItem (s it : ℕ) : Leaves P (sessionReleasePublishItem s it) := by
  refine .read_bind fun σ => .bind (Q := fun _ w => w.sessions.get s = some σ ∧ P w)
    ((Leaves.read _ _).imp (fun _ hw => hw) (fun _ _ hw => hw) fun _ hE => hE) fun i =>
    .bind (h.write_sessions s ⟨_, _, rfl⟩) fun _ => h.publishItemRelease it

theorem unsubscribeItem (s id : ℕ) : Leaves P (unsubscribeItem s id) := by
  refine .bind (.read _ s) fun σ => ?_
  split
  · exact .bind (.read _ _) fun i => .bind (.assert _) fun _ => .bind (h.retainSubscription _)
      fun _ => .bind (h.sessionReleasePublishItem s _) fun _ => .pure _
  · exact .pure _

theorem sessionGetNextFreePublishId (s : ℕ) : Leaves P (sessionGetNextFreePublishId s) := by
  refine .read_bind fun σ => .ite (fun _ => .pure fun _ hw => hw.2) fun _ =>
    .bind (Leaves.malloc (P := fun w => w.sessions.get s = some σ ∧ P w) fun w malloc hw =>
      ⟨hw.1, h.malloc w malloc hw.2⟩) fun _ => .ite (fun _ => .ite (fun _ => ?_)
      fun _ => .fail trivial) fun _ => .pure fun _ hw => hw.2
  exact .bind (h.write_sessions s ⟨_, _, rfl⟩) fun _ => .pure fun _ hw => hw

theorem sessionRequestPublishItem
    (hnew : ∀ w i, P w → P { w with publishItems := w.publishItems.alloc i }) (s k id : ℕ) :
    Leaves P (sessionRequestPublishItem s k id) :=
  .bind (.malloc h.malloc) fun _ => .ite (.bind (Place.ensures_new fun w hw => hnew w _ hw)
    fun _ => Leaves.bind (.read _ _) fun _ => .bind (.write h.subscriptions _ _) fun _ =>
    .bind (.modifyWorld fun w => h.itemLinks w _) fun _ => .read_bind fun _ =>
    .bind (h.write_sessions s ⟨_, _, rfl⟩) fun _ => .pure fun _ hw => hw)
    (.bind (h.releaseSubscription k) fun _ => .pure _)

end IgnoresUnsubscribes

namespace IgnoresTable

variable (h : IgnoresTable P)
include h

theorem write_results (r : ℕ) {ret ret' : Result} (hsame : ret.SameAnswers ret') :
    Attempt.Ensures (fun w => w.results.get r = some ret ∧ P w) (Wpcp.results.write r ret')
      (fun _ => P) Stop.Any :=
  Place.ensures_write trivial fun w _ hw _ => h.results w r ret ret' hw.1 hsame hw.2

theorem resultGetBlockedPublishItemTarget (r : ℕ) :
    Leaves P (resultGetBlockedPublishItemTarget r) := by
  refine .read_bind fun ret => .bind (ensures_getBlockedItems_same (fun w malloc hw =>
    ⟨hw.1, h.malloc w malloc hw.2⟩) ret) fun blocked => .assume (fun _ hw => hw.1) fun hsame =>
    .bind (((h.write_results r ⟨hsame.1, _, _, rfl⟩)).imp (fun _ hw => hw.2) (fun _ _ hw => hw)
      fun _ hE => hE) fun _ => ?_
  cases blocked with
  | none => exact Leaves.pure _
  | some blocked => exact Leaves.ite (.pure _) (.fail _)

theorem setBlockedPublishItem (r id it : ℕ) : Leaves P (setBlockedPublishItem r id it) := by
  refine .read_bind fun ret => ?_
  cases hblocked : ret.blockedItems with
  | none => exact .fail trivial
  | some blocked =>
    refine h.write_results r ⟨?_, _, _, rfl⟩
    rw [Result.entries, Result.entries, hblocked]
    rfl

theorem acceptSubscription (r s k : ℕ) : Leaves P (acceptSubscription r s k) := by
  refine .bind (h.sessionGetNextFreePublishId s) fun id => .bind (.ite (.pure _)
    (.bind (h.resultGetBlockedPublishItemTarget r) ?_)) fun _ => .pure _
  rintro (_ | target)
  · exact .pure _
  refine .bind (h.sessionRequestPublishItem h.newItem s k id) ?_
  rintro (_ | it)
  · exact .pure _
  · exact .bind (h.setBlockedPublishItem r id it) fun _ => .pure _

end IgnoresTable

/-! ### Assertions on subscriptions and publish items -/

/-- The token is an answer that a result counts. -/
def Token.isAnswer : Token → Bool
  | .answer _ | .subanswer _ => true
  | .reference _ | .orphan _ => false

/-- The tokens that are no answers. -/
def stakes (tokens : Multiset Token) : Multiset Token := tokens.filter (·.isAnswer = false)

@[simp] theorem stakes_add (tokens tokens' : Multiset Token) :
    stakes (tokens + tokens') = stakes tokens + stakes tokens' := Multiset.filter_add _ _ _

@[simp] theorem stakes_answer (r : ℕ) (tokens : Multiset Token) :
    stakes (.answer r ::ₘ tokens) = stakes tokens :=
  Multiset.filter_cons_of_neg _ (by simp [Token.isAnswer])

@[simp] theorem stakes_subanswer (r : ℕ) (tokens : Multiset Token) :
    stakes (.subanswer r ::ₘ tokens) = stakes tokens :=
  Multiset.filter_cons_of_neg _ (by simp [Token.isAnswer])

@[simp] theorem stakes_replicate_answer (n r : ℕ) :
    stakes (Multiset.replicate n (.answer r)) = 0 := by
  induction n with
  | zero => rfl
  | succ n ih => rw [Multiset.replicate_succ, stakes_answer, ih]

@[simp] theorem stakes_replicate_subanswer (n r : ℕ) :
    stakes (Multiset.replicate n (.subanswer r)) = 0 := by
  induction n with
  | zero => rfl
  | succ n ih => rw [Multiset.replicate_succ, stakes_subanswer, ih]

/-- **An assertion that speaks of results only by their items, and not of what sessions send**,
is conserved, if the operations on subscriptions and publish items conserve it. -/
structure ConservesItems (S : Prop) (I J : Multiset Token → World → Prop) : Prop where
  answers : ∀ hand, IgnoresAnswers (J hand)
  owed : ∀ hand hand' w owed, stakes (hand' + owedTokens owed) = stakes (hand + owedTokens w.owed) →
    J hand w → J hand' { w with owed := owed }
  retain : ∀ hand k, Moves S I J (fun _ => True) hand (retainSubscription k)
    fun ret => .reference ret ::ₘ hand
  release : ∀ hand k, Moves S I J (fun _ => True) (.reference k ::ₘ hand) (releaseSubscription k)
    fun _ => hand
  request : ∀ hand type key, Moves S I J (fun _ => True) hand (requestSubscription type key)
    fun k => reference k + hand
  accept : ∀ hand r s k, Moves S I J (fun w => World.Waits r s w.results) (.reference k ::ₘ hand)
    (acceptSubscription r s k) fun _ => hand
  newRepublish : ∀ hand it, Moves S I J (fun w => w.IsRegistered it) hand (republishHandles.new it)
    fun _ => hand
  freeRepublish : ∀ hand handle, Moves S I J (fun _ => True) hand (republishHandles.free handle)
    fun _ => hand
  unsubscribe : ∀ hand s id, Moves S I J (fun _ => True) hand (unsubscribeItem s id)
    fun k => reference k + hand
  create : ∀ hand, Moves S I J (fun _ => True) hand sessionCreate fun _ => hand
  close : ∀ hand s σ, Moves S I J (fun w => w.sessions.get s = some σ) hand (closeSession s σ)
    fun r => r.elim hand fun r => Multiset.replicate σ.items.length (.answer r) +
      (orphans σ.items + hand)
  deleteItem : ∀ hand it, Moves S I J
    (fun w => ∃ i, w.publishItems.get it = some i ∧ w.sessions.get i.session = none)
    (.orphan it ::ₘ hand) (deletePublishItem it) fun k => .reference k ::ₘ hand

namespace ConservesItems

variable {S : Prop} {I J : Multiset Token → World → Prop} (h : ConservesItems S I J)
include h

/-- Answers do not matter. -/
theorem hand {hand hand' : Multiset Token} (heq : stakes hand' = stakes hand) {w : World}
    (hw : J hand w) : J hand' w :=
  h.owed hand hand' w w.owed (by rw [stakes_add, stakes_add, heq]) hw

theorem moves {m : Calls α} {Q : World → Prop} {hand : Multiset Token}
    {hand' : α → Multiset Token} (hm : Leaves (J hand) m)
    (heq : ∀ a, stakes (hand' a) = stakes hand) : Moves S I J Q hand m hand' :=
  hm.moves fun a _ hw => h.hand (heq a) hw

theorem conserves : Conserves S I J where
  malloc hand w malloc hw _ := (h.answers hand).malloc w malloc hw
  retain := h.retain
  release := h.release
  accept := h.accept
  write hand r f _ := h.moves ((h.answers hand).writeResult r f) fun _ => rfl
  answer hand r := h.moves ((h.answers _).releaseResult r) fun _ => (stakes_answer r hand).symm
  announce hand r count _ := by
    refine .bind (Q := fun _ => J hand) (ensures_modifyWorld fun w hw => h.owed _ _ _ _ ?_
      hw.2.2.1) fun _ => (h.answers hand).requestSubresult r count
    rw [owedTokens_append, owedTokens_replicate_subitem]
    simp
  subanswer hand r := h.moves ((h.answers _).releaseSubresult r) fun _ =>
    (stakes_subanswer r hand).symm
  dummy hand r := h.moves ((h.answers _).releaseDummyUnsubscribeResult r) fun _ =>
    (stakes_answer r hand).symm
  owe hand event owed hevent := ensures_modifyWorld fun w hw => by
    refine h.owed (owedTokens owed + hand) hand { w with events := w.events ++ [event] } _ ?_
      ((h.answers _).events w event ?_ hw.2.2.1)
    · rw [owedTokens_append, stakes_add, stakes_add, stakes_add, stakes_add]
      abel
    · cases event with
      | released => exact absurd hevent nofun
      | _ => rfl
  redeem hand o := ensures_modifyWorld fun w hw => by
    refine h.owed hand _ w _ ?_ hw.2.2.1
    rw [← owedTokens_erase hw.2.2.2, stakes_add, stakes_add, stakes_add, stakes_add]
    abel
  oweAlias hand k := ensures_modifyWorld fun w hw => by
    refine h.owed _ hand w _ ?_ hw.2.2.1
    rw [owedTokens_cons, Owed.tokens, Multiset.singleton_add, Multiset.add_cons, Multiset.cons_add]
  newRepublish := h.newRepublish
  freeRepublish := h.freeRepublish
  publish hand handle item := h.moves ((h.answers hand).publish handle item) fun _ => rfl
  take hand s := h.moves ((h.answers hand).sessionOutMessageCreate s) fun _ => rfl
  slots hand s count _ := h.moves ((h.answers hand).sessionAddFreePublishSlots s count) fun _ => rfl
  request := h.request
  append hand s messageId requestId payloadCount buffer _ :=
    h.moves ((h.answers hand).sessionAppendOutMessage s messageId requestId payloadCount buffer [])
      fun _ => rfl
  requestResult hand s requestId count _ _ :=
    h.moves ((h.answers hand).requestResult s requestId count) fun r => by
      cases r with
      | none => rfl
      | some r => simp
  unsubscribe := h.unsubscribe
  create := h.create
  hello hand s σ := ((h.answers hand).write_sessions s
    (show σ.SameTable { σ with helloFinished := true } from ⟨rfl, rfl⟩) (.of_eq rfl rfl)).imp
    (fun _ hw => ⟨hw.2.2.2, hw.2.2.1⟩) (fun _ _ hw => hw) fun _ hE => hE
  close := h.close
  deleteItem := h.deleteItem

end ConservesItems

end Wpcp
