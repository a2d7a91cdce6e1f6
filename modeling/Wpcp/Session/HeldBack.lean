import Wpcp.Lib.Ledger
import Wpcp.Session.Accepting
import Wpcp.Session.Appended
import Wpcp.Session.Counters
import Wpcp.Session.Entries

/-!
# Entries are held back while their answer is pending

Four functions decide which entries a session holds back: `wpcp_request_result`, the acceptance
of an item, `wpcp_session_add_publish_queue_item` and `wpcp_release_result`. They search the lists
of the results that wait. In every run of the four, in any order and for any of the results
(`Wpcp.holdStep`), **what they find, hold back and send is what the ledger says**
(`Wpcp.tracks_of_run`), which is kept from the calls alone. What has been sent is compared twice:
with the calls on the output of the session, and with the messages, the links and the publish
queue they have left there (`Wpcp.OutState.Sent`).
-/

namespace Wpcp

open Cbor (WriteBuffer SizeT)

/-! ### The four functions -/

/-- What a RESULT message is known by: the message id, the request id and the number of elements. -/
abbrev AnswerHeader : Type := MessageId × ℕ × ℕ

/-- The account of one session. -/
abbrev SessionLedger : Type := Ledger ℕ ℕ Entry AnswerHeader

/-- One call of the four functions. -/
inductive HoldAct where
  /-- `wpcp_request_result` -/
  | request (requestId payloadCount : ℕ)
  /-- An item for a subscription is accepted by a result. -/
  | accept (result subscription : ℕ)
  /-- `wpcp_session_add_publish_queue_item` -/
  | publish (item : ℕ) (entry : Entry)
  /-- `wpcp_release_result` -/
  | release (result : ℕ)

/-- The header of a message that is queued. -/
def QueuedOutMessage.header (message : QueuedOutMessage) : AnswerHeader :=
  (message.messageId, message.requestId, message.payloadCount)

/-- The header of the RESULT of a request. -/
def resultHeader (requestId payloadCount : ℕ) : AnswerHeader :=
  (.result, requestId, payloadCount * 2 % 2 ^ 32)

/-- One call for a session, and what the ledger is told: which call it was, and the new result
or item. An acceptance counts where an item is registered. -/
def holdStep (s : ℕ) : World × SessionLedger → HoldAct → Option (World × SessionLedger)
  | (w, L), .request requestId payloadCount =>
    match (requestResult s requestId payloadCount).run w with
    | some (.ok (some r), w) =>
      some (w, L.request r (resultHeader requestId payloadCount) payloadCount)
    | _ => none
  | (w, L), .accept r k =>
    match (acceptSubscription r s k).run w with
    | some (.ok (_, some it), w) => some (w, L.accept r it)
    | _ => none
  | (w, L), .publish it entry =>
    match (sessionAddPublishQueueItem it entry).run w with
    | some (.ok (), w) => some (w, L.publish it entry)
    | _ => none
  | (w, L), .release r =>
    match (releaseResult r).run w with
    | some (.ok (), w) => some (w, L.release r)
    | _ => none

/-- The calls that are made: with counts of 32 bits, for results that are outstanding, and for
items of the session. -/
def HoldAllowed (s : ℕ) : World × SessionLedger → HoldAct → Prop
  | _, .request _ payloadCount => payloadCount ≠ 0 ∧ payloadCount < 2 ^ 32
  | (_, L), .accept r _ => r ∈ L.outstanding
  | (w, _), .publish it _ => (w.publishItems.get it).any (·.session = s) = true
  | (_, L), .release r => r ∈ L.outstanding

instance (s : ℕ) : (p : World × SessionLedger) → (a : HoldAct) → Decidable (HoldAllowed s p a)
  | _, .request _ _ => inferInstanceAs (Decidable (_ ∧ _))
  | (_, L), .accept r _ => inferInstanceAs (Decidable (r ∈ L.outstanding))
  | (_, _), .publish _ _ => inferInstanceAs (Decidable (_ = true))
  | (_, L), .release r => inferInstanceAs (Decidable (r ∈ L.outstanding))

/-! ### What the ledger says -/

/-- What a call on the output sends. -/
def OutOp.sent : OutOp QueuedOutMessage Entry → List (AnswerHeader ⊕ Entry)
  | .append message => [.inl message.header]
  | .publish first rest => (first :: rest).map .inr
  | .create => []

/-- The messages and the entries that a session has sent, in the order of the calls. -/
def Session.sent (σ : Session) : List (AnswerHeader ⊕ Entry) := σ.ops.flatMap OutOp.sent

/-- A session is as the ledger says; it has begun as `σ₀`. -/
structure Session.Tracks (σ₀ σ : Session) (L : SessionLedger) : Prop where
  /-- The list of results has the outstanding ones. -/
  results : σ.results = L.outstanding
  first : 1 ≤ σ.nextFreePublishItem
  /-- The calls on its output were made in the order of the ledger. -/
  calls : σ.sent = σ₀.sent ++ L.sent
  /-- What has been sent stands in its output. -/
  output : ∃ sent, sent.map (Sum.map QueuedOutMessage.header id) = L.sent ∧
    σ₀.out.Sent σ.out sent

/-- A result is as the ledger says: it waits for its session, with the pieces that are missing,
the items it has accepted and the entries it holds back. -/
structure Result.Tracks (ret : Result) (s r : ℕ) (L : SessionLedger) : Prop where
  session : ret.session = some s
  remaining : L.remaining r = some ret.remaining
  pos : 0 < ret.remaining
  fits : ret.remaining < 2 ^ 32
  answer : L.answer r = some (resultHeader ret.requestId ret.requestPayloadCount)
  items : ∀ it, it ∈ ret.items ↔ L.acceptedBy it = some r
  entries : ret.entries = L.heldBack r

/-- **A session and the results that wait for it are as the ledger says.** -/
structure World.Tracks (s : ℕ) (σ₀ : Session) (w : World) (L : SessionLedger) : Prop where
  malloc : ∀ n, w.malloc n = true
  nodup : L.outstanding.Nodup
  session : ∃ σ, w.sessions.get s = some σ ∧ σ₀.Tracks σ L
  /-- Every outstanding result holds back what the ledger says. -/
  outstanding : ∀ r ∈ L.outstanding, ∃ ret, w.results.get r = some ret ∧ ret.Tracks s r L
  /-- No other result waits for the session. -/
  waits : ∀ r ret, w.results.get r = some ret → ret.session = some s → r ∈ L.outstanding
  accepted : ∀ it r, L.acceptedBy it = some r → it < w.publishItems.next ∧ r < w.results.next

/-- A result of a session can accept an item for a subscription: the subscription is there, the
table of the session has a free place or can be made longer, and the array of the result has room
for one more. -/
structure World.CanAccept (w : World) (s r k : ℕ) : Prop where
  subscription : (w.subscriptions.get k).isSome = true
  table : ∀ σ, w.sessions.get s = some σ → σ.Full → σ.publishItems.length + 16 < 2 ^ 32
  room : ∀ ret, w.results.get r = some ret → ret.HasRoom w.sizeT

/-! ### Sending -/

section Sending

variable {σ₀ σ : Session} {L : SessionLedger}

@[simp] theorem Session.sent_queued (σ : Session) (first : Entry) (rest : List Entry) :
    (σ.queued first rest).sent = σ.sent ++ (first :: rest).map .inr := by
  simp [Session.sent, Session.queued, OutOp.sent]

@[simp] theorem Session.sent_queuedAll (σ : Session) (entries : List Entry) :
    (σ.queuedAll entries).sent = σ.sent ++ entries.map .inr := by
  cases entries with
  | nil => exact (List.append_nil _).symm
  | cons first rest => exact σ.sent_queued first rest

/-- **The RESULT is sent first, and then what has been held back.** -/
theorem Session.sent_completed (σ : Session) (r : ℕ) (ret : Result) :
    (σ.completed r ret true).sent = σ.sent ++
      (.inl (resultHeader ret.requestId ret.requestPayloadCount) :: ret.entries.map .inr) := by
  have happended : (Session.appended { σ with results := σ.results.erase r } true
      (σ.resultMessage ret)).sent =
        σ.sent ++ [.inl (resultHeader ret.requestId ret.requestPayloadCount)] := by
    simp [Session.sent, Session.appended, OutOp.sent, Session.resultMessage, Session.outMessage,
      QueuedOutMessage.header, resultHeader]
  rw [Session.completed, Session.sent_queuedAll, happended, List.append_assoc]
  rfl

/-- Neither the output nor the list of results has changed, and nothing is outstanding or sent
that was not. -/
theorem Session.Tracks.congr {σ' : Session} {L' : SessionLedger} (h : σ₀.Tracks σ L)
    (hout : σ'.out = σ.out) (hops : σ'.ops = σ.ops) (hresults : σ'.results = L'.outstanding)
    (hsent : L'.sent = L.sent) (hfirst : 1 ≤ σ'.nextFreePublishItem) : σ₀.Tracks σ' L' := by
  obtain ⟨sent, hheaders, hlinks⟩ := h.output
  refine ⟨hresults, hfirst, ?_, sent, hheaders.trans hsent.symm, by rwa [hout]⟩
  rw [hsent, ← h.calls, Session.sent, hops]
  rfl

/-- An entry is sent. -/
theorem Session.Tracks.queued (h : σ₀.Tracks σ L) (entry : Entry) :
    σ₀.Tracks (σ.queued entry []) { L with sent := L.sent ++ [.inr entry] } := by
  obtain ⟨sent, hheaders, hlinks⟩ := h.output
  refine ⟨h.results, h.first, ?_, sent ++ [entry].map Sum.inr, ?_, hlinks.publish entry []⟩
  · rw [Session.sent_queued, h.calls, List.append_assoc]
    rfl
  · rw [List.map_append, hheaders]
    rfl

/-- **A result is complete**: its RESULT is appended, and then its entries are published. -/
theorem Session.Tracks.completed (h : σ₀.Tracks σ L) (hinserts : σ₀.out.Inserts) (r : ℕ)
    (ret : Result) : σ₀.Tracks (σ.completed r ret true) { L with
      outstanding := L.outstanding.erase r
      sent := L.sent ++
        (.inl (resultHeader ret.requestId ret.requestPayloadCount) :: ret.entries.map .inr) } := by
  obtain ⟨sent, hheaders, hlinks⟩ := h.output
  refine ⟨?_, ?_, ?_, sent ++ [.inl (σ.resultMessage ret)] ++ ret.entries.map .inr, ?_, ?_⟩
  · rw [Session.results_completed, h.results]
  · rw [Session.completed]
    cases ret.entries with
    | nil => exact h.first
    | cons first rest => exact h.first
  · rw [Session.sent_completed, h.calls, List.append_assoc]
  · rw [List.map_append, List.map_append, hheaders, List.append_assoc, List.map_map]
    rfl
  · have happended := hlinks.append hinserts (σ.resultMessage ret)
    rw [Session.completed]
    cases ret.entries with
    | nil =>
      rw [List.map_nil, List.append_nil]
      exact happended
    | cons first rest => exact happended.publish first rest

end Sending

/-! ### One call -/

section Step

variable {s : ℕ} {σ₀ : Session} {w w' : World} {L L' : SessionLedger}

/-- A result that the ledger says the same of. -/
theorem Result.Tracks.congr {ret : Result} {r : ℕ} (h : ret.Tracks s r L)
    (hremaining : L'.remaining r = L.remaining r) (hanswer : L'.answer r = L.answer r)
    (haccepted : ∀ it, L'.acceptedBy it = some r ↔ L.acceptedBy it = some r)
    (hheld : L'.heldBack r = L.heldBack r) : ret.Tracks s r L' :=
  ⟨h.session, hremaining.trans h.remaining, h.pos, h.fits, hanswer.trans h.answer,
    fun it => (h.items it).trans (haccepted it).symm, h.entries.trans hheld.symm⟩

/-- **A request is outstanding from now on.** -/
theorem World.Tracks.request (h : w.Tracks s σ₀ L) (requestId : ℕ) {count : ℕ} (hne : count ≠ 0)
    (hlt : count < 2 ^ 32) : ∃ w', (requestResult s requestId count).run w =
        some (.ok (some w.results.next), w') ∧
      w'.Tracks s σ₀ (L.request w.results.next (resultHeader requestId count) count) := by
  obtain ⟨σ, hσ, hsession⟩ := h.session
  refine ⟨_, run_requestResult requestId hne hσ (h.malloc 0), ?_⟩
  have hfresh : ∀ r ∈ L.outstanding, r ≠ w.results.next := by
    rintro r hr rfl
    obtain ⟨ret, hret, -⟩ := h.outstanding _ hr
    exact absurd (Heap.lt_next hret) (Nat.lt_irrefl _)
  refine ⟨fun n => h.malloc _, List.nodup_cons.mpr ⟨fun hmem => hfresh _ hmem rfl, h.nodup⟩,
    ⟨_, (Heap.get_set hσ _ s).trans (if_pos rfl),
      hsession.congr rfl rfl (congrArg _ hsession.results) rfl hsession.first⟩, ?_, ?_, ?_⟩
  · intro r hr
    obtain rfl | hr := List.mem_cons.mp hr
    · refine ⟨_, (Heap.get_alloc _ _ _).trans (if_pos rfl), rfl, Function.update_self _ _ _,
        Nat.pos_of_ne_zero hne, hlt, Function.update_self _ _ _, fun it => ?_,
        (Function.update_self w.results.next ([] : List Entry) L.heldBack).symm⟩
      refine iff_of_false List.not_mem_nil fun haccepted => ?_
      exact absurd (h.accepted it _ haccepted).2 (Nat.lt_irrefl _)
    · obtain ⟨ret, hret, htracks⟩ := h.outstanding r hr
      have hne := hfresh r hr
      exact ⟨ret, Heap.get_alloc_of_get hret, htracks.congr (Function.update_of_ne hne _ _)
        (Function.update_of_ne hne _ _) (fun _ => Iff.rfl) (Function.update_of_ne hne _ _)⟩
  · intro r ret hr hs
    have hr : (w.results.alloc _).get r = some ret := hr
    rw [Heap.get_alloc] at hr
    split at hr
    · exact List.mem_cons.mpr (Or.inl ‹_›)
    · exact List.mem_cons_of_mem _ (h.waits r ret hr hs)
  · intro it r haccepted
    obtain ⟨hit, hr⟩ := h.accepted it r haccepted
    exact ⟨hit, Nat.lt_succ_of_lt hr⟩

/-- **An item is accepted by one result.** -/
theorem World.Tracks.accept (h : w.Tracks s σ₀ L) {r k id it : ℕ} (hmem : r ∈ L.outstanding)
    (hrun : (acceptSubscription r s k).run w = some (.ok (id, some it), w')) :
    w'.Tracks s σ₀ (L.accept r it) := by
  obtain ⟨σ, ret, sub, hσ, hret, -, -, rfl, -, -, -, rfl⟩ := exists_of_run_acceptSubscription hrun
  obtain ⟨τ, hτ, hsession⟩ := h.session
  obtain rfl := Option.some.inj (hσ.symm.trans hτ)
  obtain ⟨ret', hret', htracks⟩ := h.outstanding r hmem
  obtain rfl := Option.some.inj (hret.symm.trans hret')
  -- what has been accepted by other results was accepted before
  have hother : ∀ q, q ≠ r → ∀ it, (L.accept r w.publishItems.next).acceptedBy it = some q ↔
      L.acceptedBy it = some q := by
    intro q hq it
    show Function.update L.acceptedBy w.publishItems.next (some r) it = some q ↔ _
    rw [Function.update_apply]
    split
    · rename_i hit
      refine iff_of_false (fun heq => hq (Option.some.inj heq).symm) fun haccepted => ?_
      exact absurd (h.accepted it q haccepted).1 (by omega)
    · exact Iff.rfl
  have hroomy : ∀ id it, ((σ.roomy).withItem id it).results = σ.results ∧
      ((σ.roomy).withItem id it).ops = σ.ops ∧ ((σ.roomy).withItem id it).out = σ.out := by
    intro id it
    unfold Session.roomy
    split
    · exact ⟨rfl, rfl, rfl⟩
    · exact ⟨rfl, rfl, rfl⟩
  obtain ⟨hsame, hops, hout⟩ := hroomy σ.nextId w.publishItems.next
  refine ⟨fun n => h.malloc _, h.nodup, ⟨_, (Heap.get_set hσ _ s).trans (if_pos rfl),
    hsession.congr hout hops (hsame.trans hsession.results) rfl (Nat.le_add_left 1 _)⟩, ?_, ?_, ?_⟩
  · intro q hq
    by_cases hqr : q = r
    · subst hqr
      have hitems : (ret.accepting w.sizeT σ.nextId w.publishItems.next).items =
          ret.items ++ [w.publishItems.next] := by
        rw [← ret.items_blocking w.sizeT]
        rfl
      refine ⟨_, (Heap.get_set hret _ q).trans (if_pos rfl), htracks.session, htracks.remaining,
        htracks.pos, htracks.fits, htracks.answer, fun it => ?_,
        (ret.entries_blocking w.sizeT).trans htracks.entries⟩
      rw [hitems, List.mem_append, List.mem_singleton, htracks.items]
      show _ ↔ Function.update L.acceptedBy w.publishItems.next (some q) it = some q
      rw [Function.update_apply]
      split
      · exact iff_of_true (Or.inr ‹_›) rfl
      · exact or_iff_left ‹_›
    · obtain ⟨ret', hret', htracks'⟩ := h.outstanding q hq
      exact ⟨ret', (Heap.get_set hret _ q).trans ((if_neg hqr).trans hret'),
        htracks'.congr rfl rfl (hother q hqr) rfl⟩
  · intro q ret' hq hs
    have hq : (w.results.set r _).get q = some ret' := hq
    rw [Heap.get_set hret] at hq
    split at hq
    · rwa [‹q = r›]
    · exact h.waits q ret' hq hs
  · intro it q haccepted
    have haccepted : Function.update L.acceptedBy w.publishItems.next (some r) it = some q :=
      haccepted
    rw [Function.update_apply] at haccepted
    split at haccepted
    · obtain rfl := Option.some.inj haccepted
      have hr : r < w.results.next := Heap.lt_next hret
      refine ⟨?_, hr⟩
      rw [‹it = _›]
      exact Nat.lt_succ_self _
    · obtain ⟨hit, hr⟩ := h.accepted it q haccepted
      exact ⟨Nat.lt_succ_of_lt hit, hr⟩

/-- **The search through the results finds the one the ledger names.** -/
theorem World.Tracks.find?_eq_holder (h : w.Tracks s σ₀ L) (it : ℕ) :
    L.outstanding.find? (fun r => it ∈ w.blockedItems r) = L.holder it := by
  have hiff : ∀ r ∈ L.outstanding, it ∈ w.blockedItems r ↔ L.acceptedBy it = some r := by
    intro r hr
    obtain ⟨ret, hret, htracks⟩ := h.outstanding r hr
    rw [blockedItems_of_get hret, htracks.items]
  rcases hfind : L.outstanding.find? (fun r => it ∈ w.blockedItems r) with _ | r
  · rcases hholder : L.holder it with _ | r
    · rfl
    · obtain ⟨haccepted, hr⟩ := Ledger.holder_eq_some.mp hholder
      have hnot := List.find?_eq_none.mp hfind r hr
      rw [decide_eq_true_iff, hiff r hr] at hnot
      exact absurd haccepted hnot
  · have hr := List.mem_of_find?_eq_some hfind
    have hmem : it ∈ w.blockedItems r := by simpa using List.find?_some hfind
    exact (Ledger.holder_eq_some.mpr ⟨(hiff r hr).mp hmem, hr⟩).symm

/-- **An entry is held back by the result that has accepted its item, or sent.** -/
theorem World.Tracks.publish (h : w.Tracks s σ₀ L) {it : ℕ} {i : PublishItem}
    (hi : w.publishItems.get it = some i) (hs : i.session = s) (entry : Entry) :
    ∃ w', (sessionAddPublishQueueItem it entry).run w = some (.ok (), w') ∧
      w'.Tracks s σ₀ (L.publish it entry) := by
  obtain ⟨σ, hσ, hsession⟩ := h.session
  have hfind : (blockedItemForNotifyItem it).run w = some (.ok (L.holder it), w) := by
    rw [blockedItemForNotifyItem, Attempt.run_bind_ok (Place.run_read hi), hs,
      Attempt.run_bind_ok (Place.run_read hσ), ← h.find?_eq_holder it, ← hsession.results]
    rfl
  rcases hholder : L.holder it with _ | r
  · -- the entry is sent
    refine ⟨{ w with sessions := w.sessions.set s (σ.queued entry []) }, ?_, ?_⟩
    · rw [sessionAddPublishQueueItem, Attempt.run_bind_ok hfind, hholder]
      show Attempt.run (Wpcp.publishItems.read it >>= _) w = _
      rw [Attempt.run_bind_ok (Place.run_read hi), hs]
      exact run_sessionPublishQueueAppend hσ entry []
    · rw [Ledger.publish_of_holder_none hholder]
      refine ⟨h.malloc, h.nodup, ⟨_, (Heap.get_set hσ _ s).trans (if_pos rfl),
        hsession.queued entry⟩, fun r hr => ?_, h.waits, h.accepted⟩
      obtain ⟨ret, hret, htracks⟩ := h.outstanding r hr
      exact ⟨ret, hret, htracks.congr rfl rfl (fun _ => Iff.rfl) rfl⟩
  · obtain ⟨haccepted, hr⟩ := Ledger.holder_eq_some.mp hholder
    obtain ⟨ret, hret, htracks⟩ := h.outstanding r hr
    -- the result has a list of blocked items, because the item is one of them
    obtain ⟨blocked, hblocked⟩ : ∃ blocked, ret.blockedItems = some blocked := by
      have hitem := (htracks.items it).mpr haccepted
      rw [Result.items] at hitem
      rcases hblocked : ret.blockedItems with _ | blocked
      · rw [hblocked] at hitem
        exact absurd hitem List.not_mem_nil
      · exact ⟨blocked, rfl⟩
    let blocked' : BlockedItemList :=
      { blocked with publishQueue := blocked.publishQueue ++ [entry] }
    let ret' : Result := { ret with blockedItems := some blocked' }
    have hitems : ret'.items = ret.items := by
      rw [Result.items, Result.items, hblocked]
      rfl
    have hentries : ret'.entries = ret.entries ++ [entry] := by
      rw [Result.entries, Result.entries, hblocked]
      rfl
    refine ⟨{ w with results := w.results.set r ret' }, ?_, ?_⟩
    · rw [sessionAddPublishQueueItem, Attempt.run_bind_ok hfind, hholder]
      show Attempt.run (Wpcp.results.read r >>= _) w = _
      rw [Attempt.run_bind_ok (Place.run_read hret), hblocked]
      exact Place.run_write hret ret'
    · rw [Ledger.publish_of_holder hholder]
      refine ⟨h.malloc, h.nodup,
        ⟨σ, hσ, hsession.congr rfl rfl hsession.results rfl hsession.first⟩, fun q hq => ?_,
        fun q ret₁ hq hs₁ => ?_, h.accepted⟩
      · by_cases hqr : q = r
        · subst hqr
          refine ⟨ret', (Heap.get_set hret _ q).trans (if_pos rfl), htracks.session,
            htracks.remaining, htracks.pos, htracks.fits, htracks.answer, fun it => ?_, ?_⟩
          · rw [hitems]
            exact htracks.items it
          · rw [hentries, htracks.entries]
            exact (Function.update_self q _ L.heldBack).symm
        · obtain ⟨ret₁, hret₁, htracks₁⟩ := h.outstanding q hq
          exact ⟨ret₁, (Heap.get_set hret _ q).trans ((if_neg hqr).trans hret₁),
            htracks₁.congr rfl rfl (fun _ => Iff.rfl) (Function.update_of_ne hqr _ _)⟩
      · have hq : (w.results.set r ret').get q = some ret₁ := hq
        rw [Heap.get_set hret] at hq
        split at hq
        · rwa [‹q = r›]
        · exact h.waits q ret₁ hq hs₁

/-- The last piece of an answer: it is sent with what has been held back. -/
theorem World.Tracks.releaseLast (h : w.Tracks s σ₀ L) (hinserts : σ₀.out.Inserts) {r : ℕ}
    {ret : Result} (hret : w.results.get r = some ret) (htracks : ret.Tracks s r L)
    (hlast : ret.remaining = 1) :
    ∃ w', (releaseResult r).run w = some (.ok (), w') ∧ w'.Tracks s σ₀ (L.release r) := by
  obtain ⟨σ, hσ, hsession⟩ := h.session
  have hzero : (ret.remaining + (2 ^ 32 - 1)) % 2 ^ 32 = 0 := by omega
  have hrelease := run_releaseResult_complete hret htracks.session hσ hzero
  rw [h.malloc 0] at hrelease
  refine ⟨_, hrelease, ?_⟩
  rw [Ledger.release, if_pos (by rw [htracks.remaining, hlast]), htracks.answer, ← htracks.entries]
  refine ⟨fun n => h.malloc _, h.nodup.erase r, ⟨_, (Heap.get_set hσ _ s).trans (if_pos rfl),
    hsession.completed hinserts r ret⟩, fun q hq => ?_, fun q ret₁ hq hs₁ => ?_, h.accepted⟩
  · obtain ⟨hne, hq⟩ := h.nodup.mem_erase_iff.mp hq
    obtain ⟨ret₁, hret₁, htracks₁⟩ := h.outstanding q hq
    exact ⟨ret₁, (Heap.get_free _ _ _).trans ((if_neg hne).trans hret₁),
      htracks₁.congr rfl rfl (fun _ => Iff.rfl) rfl⟩
  · obtain ⟨hne, hq⟩ := Heap.get_of_get_free hq
    exact h.nodup.mem_erase_iff.mpr ⟨hne, h.waits q ret₁ hq hs₁⟩

/-- A piece of an answer that is not the last one. -/
theorem World.Tracks.releasePending (h : w.Tracks s σ₀ L) {r left : ℕ} {ret : Result}
    (hr : r ∈ L.outstanding) (hret : w.results.get r = some ret) (htracks : ret.Tracks s r L)
    (hleft : ret.remaining = left + 1) (hpos : 0 < left) :
    World.Tracks s σ₀ { w with results := w.results.set r { ret with remaining := left } }
      (L.release r) := by
  have hnot : L.remaining r ≠ some 1 := by
    rw [htracks.remaining, hleft]
    exact fun heq => absurd (Option.some.inj heq) (by omega)
  have hmissing : (L.remaining r).map (· - 1) = some left := by
    rw [htracks.remaining, hleft]
    rfl
  have hfits : left < 2 ^ 32 := by
    have hfits := htracks.fits
    omega
  rw [Ledger.release, if_neg hnot, hmissing]
  obtain ⟨σ, hσ, hsession⟩ := h.session
  refine ⟨h.malloc, h.nodup, ⟨σ, hσ, hsession.congr rfl rfl hsession.results rfl hsession.first⟩,
    fun q hq => ?_, fun q ret₁ hq hs₁ => ?_, h.accepted⟩
  · by_cases hqr : q = r
    · subst hqr
      exact ⟨_, (Heap.get_set hret _ q).trans (if_pos rfl), htracks.session,
        Function.update_self _ _ _, hpos, hfits, htracks.answer, htracks.items, htracks.entries⟩
    · obtain ⟨ret₁, hret₁, htracks₁⟩ := h.outstanding q hq
      exact ⟨ret₁, (Heap.get_set hret _ q).trans ((if_neg hqr).trans hret₁),
        htracks₁.congr (Function.update_of_ne hqr _ _) rfl (fun _ => Iff.rfl) rfl⟩
  · have hq : (w.results.set r _).get q = some ret₁ := hq
    rw [Heap.get_set hret] at hq
    split at hq
    · rename_i hqr
      rwa [hqr]
    · exact h.waits q ret₁ hq hs₁

/-- **A result is answered once more**, and sent with what it has held back when it is complete. -/
theorem World.Tracks.release (h : w.Tracks s σ₀ L) (hinserts : σ₀.out.Inserts) {r : ℕ}
    (hr : r ∈ L.outstanding) :
    ∃ w', (releaseResult r).run w = some (.ok (), w') ∧ w'.Tracks s σ₀ (L.release r) := by
  obtain ⟨ret, hret, htracks⟩ := h.outstanding r hr
  have hpos := htracks.pos
  have hleft := decrement_eq hpos htracks.fits
  by_cases hlast : ret.remaining = 1
  · exact h.releaseLast hinserts hret htracks hlast
  · have hmore : (ret.remaining + (2 ^ 32 - 1)) % 2 ^ 32 ≠ 0 := by omega
    have hrelease := run_releaseResult_pending hret hmore
    rw [hleft] at hrelease
    exact ⟨_, hrelease, h.releasePending hr hret htracks (by omega) (by omega)⟩

/-- **One call keeps what the ledger says.** -/
theorem World.Tracks.step (h : w.Tracks s σ₀ L) (hinserts : σ₀.out.Inserts) {a : HoldAct}
    (hallowed : HoldAllowed s (w, L) a)
    (hstep : holdStep s (w, L) a = some (w', L')) : w'.Tracks s σ₀ L' := by
  cases a with
  | request requestId count =>
    obtain ⟨w₁, hrun, htracks⟩ := h.request requestId hallowed.1 hallowed.2
    simp only [holdStep, hrun] at hstep
    obtain ⟨rfl, rfl⟩ := Prod.mk.inj (Option.some.inj hstep)
    exact htracks
  | accept r k =>
    rcases hrun : (acceptSubscription r s k).run w with _ | ⟨e | ⟨id, _ | it⟩, w₁⟩
    · simp only [holdStep, hrun] at hstep
      exact absurd hstep nofun
    · simp only [holdStep, hrun] at hstep
      exact absurd hstep nofun
    · simp only [holdStep, hrun] at hstep
      exact absurd hstep nofun
    · simp only [holdStep, hrun] at hstep
      obtain ⟨rfl, rfl⟩ := Prod.mk.inj (Option.some.inj hstep)
      exact h.accept hallowed hrun
  | publish it entry =>
    obtain ⟨i, hi, hs⟩ := (Option.any_eq_true _ _).mp hallowed
    obtain ⟨w₁, hrun, htracks⟩ := h.publish hi (of_decide_eq_true hs) entry
    simp only [holdStep, hrun] at hstep
    obtain ⟨rfl, rfl⟩ := Prod.mk.inj (Option.some.inj hstep)
    exact htracks
  | release r =>
    obtain ⟨w₁, hrun, htracks⟩ := h.release hinserts hallowed
    simp only [holdStep, hrun] at hstep
    obtain ⟨rfl, rfl⟩ := Prod.mk.inj (Option.some.inj hstep)
    exact htracks

/-- **An item is accepted where it can be.** -/
theorem World.Tracks.isSome_accept_iff (h : w.Tracks s σ₀ L) {r k : ℕ} (hr : r ∈ L.outstanding) :
    (holdStep s (w, L) (.accept r k)).isSome = true ↔ w.CanAccept s r k := by
  obtain ⟨σ, hσ, hsession⟩ := h.session
  obtain ⟨ret, hret, -⟩ := h.outstanding r hr
  constructor
  · intro hsome
    rcases hrun : (acceptSubscription r s k).run w with _ | ⟨e | ⟨id, _ | it⟩, w₁⟩
    · simp only [holdStep, hrun, Option.isSome_none, Bool.false_eq_true] at hsome
    · simp only [holdStep, hrun, Option.isSome_none, Bool.false_eq_true] at hsome
    · simp only [holdStep, hrun, Option.isSome_none, Bool.false_eq_true] at hsome
    · obtain ⟨σ', ret', sub, hσ', hret', hsub, -, -, hgrows, -, hroom, -⟩ :=
        exists_of_run_acceptSubscription hrun
      obtain rfl := Option.some.inj (hσ.symm.trans hσ')
      obtain rfl := Option.some.inj (hret.symm.trans hret')
      refine ⟨Option.isSome_iff_exists.mpr ⟨sub, hsub⟩, fun τ hτ hfull => ?_, fun ret' hret' => ?_⟩
      · obtain rfl := Option.some.inj (hσ.symm.trans hτ)
        exact (hgrows hfull).2
      · obtain rfl := Option.some.inj (hret.symm.trans hret')
        exact hroom
  · rintro ⟨hsub, hfits, hroom⟩
    obtain ⟨sub, hsub⟩ := Option.isSome_iff_exists.mp hsub
    have hfirst := hsession.first
    have hle : σ.nextFreePublishItem ≤ σ.nextId := le_nextFreeId _ _
    have hrun := run_acceptSubscription hσ hret hsub (by omega)
      (fun hfull => ⟨h.malloc 0, hfits σ hσ hfull⟩) (fun _ => h.malloc _) (hroom ret hret)
      (h.malloc _)
    simp only [holdStep, hrun, Option.isSome_some]

/-- **Of the four functions only the acceptance may not come to its end.** -/
theorem World.Tracks.isSome_step_iff (h : w.Tracks s σ₀ L) (hinserts : σ₀.out.Inserts)
    {a : HoldAct} (hallowed : HoldAllowed s (w, L) a) :
    (holdStep s (w, L) a).isSome = true ↔ ∀ r k, a = .accept r k → w.CanAccept s r k := by
  cases a with
  | request requestId count =>
    obtain ⟨w₁, hrun, -⟩ := h.request requestId hallowed.1 hallowed.2
    exact iff_of_true (by simp only [holdStep, hrun, Option.isSome_some]) (by simp)
  | accept r k =>
    rw [h.isSome_accept_iff hallowed]
    refine ⟨fun hcan r' k' heq => ?_, fun hcan => hcan r k rfl⟩
    obtain ⟨rfl, rfl⟩ := HoldAct.accept.inj heq
    exact hcan
  | publish it entry =>
    obtain ⟨i, hi, hs⟩ := (Option.any_eq_true _ _).mp hallowed
    obtain ⟨w₁, hrun, -⟩ := h.publish hi (of_decide_eq_true hs) entry
    exact iff_of_true (by simp only [holdStep, hrun, Option.isSome_some]) (by simp)
  | release r =>
    obtain ⟨w₁, hrun, -⟩ := h.release hinserts hallowed
    exact iff_of_true (by simp only [holdStep, hrun, Option.isSome_some]) (by simp)

end Step

/-! ### Every run -/

/-- **Entries are held back exactly while their answer is pending.** From any world that has been
reached without allocation failures, with a session no result waits for, in every run of the four
functions: the results of the session are the outstanding ones, each holds back the entries that
have been published to its items, and what has been sent was sent as the ledger says, an answer
before what was held back for it, and stands so in the links and the publish queue of the session.
A request, a publish and a release are always possible, and an acceptance where there is room. -/
theorem tracks_of_run {app : Application} {sizeT : SizeT} {callbacks : Callback → Bool}
    {malloc : ℕ → Bool} {acts₀ : List Act} {w₀ : World} (hmalloc : ∀ n, malloc n = true)
    (hrun₀ : Transition.Run (World.step app) Transition.anyStep
      (World.create sizeT callbacks malloc) acts₀ w₀)
    {s : ℕ} {σ₀ : Session} (hσ₀ : w₀.sessions.get s = some σ₀) (hnone : σ₀.results = [])
    {acts : List HoldAct} {w : World} {L : SessionLedger}
    (hrun : Transition.Run (holdStep s) (HoldAllowed s) (w₀, Ledger.empty) acts (w, L)) :
    w.Tracks s σ₀ L ∧ ∀ a, HoldAllowed s (w, L) a →
      ((holdStep s (w, L) a).isSome = true ↔ ∀ r k, a = .accept r k → w.CanAccept s r k) := by
  have hinv : w₀.Inv True none none := inv_of_run (fun _ => hmalloc) hrun₀
  have hinserts := inserts_of_run hrun₀ hσ₀
  have hinit : w₀.Tracks s σ₀ Ledger.empty := by
    refine ⟨hinv.malloc trivial, List.nodup_nil,
      ⟨σ₀, hσ₀, hnone, (idsFromOne_of_run hrun₀ s σ₀ hσ₀).next, (List.append_nil _).symm, [], rfl,
        .refl _⟩, nofun, ?_, nofun⟩
    intro r ret hr hs
    obtain ⟨σ, hσ, hmem⟩ := hinv.waiting r ret s hr hs nofun
    obtain rfl := Option.some.inj (hσ₀.symm.trans hσ)
    rw [hnone] at hmem
    exact absurd hmem List.not_mem_nil
  have htracks : w.Tracks s σ₀ L := hrun.invariant (motive := fun _ p => p.1.Tracks s σ₀ p.2) hinit
    fun _ _ _ _ h hallowed hstep => h.step hinserts hallowed hstep
  exact ⟨htracks, fun a hallowed => htracks.isSome_step_iff hinserts hallowed⟩

/-- Two results accept an item each; an item that was there before is published to at once, and
the others when their results are complete, the later result first. -/
theorem tracks_twoResults : ∃ w₀ σ₀ w L,
    Transition.Run (World.step acceptAll) Transition.anyStep
      (World.create .bits64 subscriptionCallbacks fun _ => true)
      [.sessionCreate, hello, subscribe 4 1] w₀ ∧
    Transition.Run (holdStep 0) (HoldAllowed 0) (w₀, Ledger.empty)
      [.request 7 2, .request 8 1, .accept 1 0, .accept 2 0, .publish 1 ⟨2, 0, 1⟩,
        .publish 2 ⟨3, 0, 2⟩, .publish 0 ⟨1, 0, 0⟩, .release 1, .release 2, .release 1] (w, L) ∧
    (L.outstanding = [] ∧ L.sent = [.inr ⟨1, 0, 0⟩, .inl (.result, 8, 2), .inr ⟨3, 0, 2⟩,
      .inl (.result, 7, 4), .inr ⟨2, 0, 1⟩]) ∧ w.Tracks 0 σ₀ L := by
  have hcheck : (sessionAfter subscriptionCallbacks [.sessionCreate, hello, subscribe 4 1]).any
      (fun p => p.2.results.isEmpty && (Transition.execute (holdStep 0) (HoldAllowed 0)
        (p.1, Ledger.empty) [.request 7 2, .request 8 1, .accept 1 0, .accept 2 0,
          .publish 1 ⟨2, 0, 1⟩, .publish 2 ⟨3, 0, 2⟩, .publish 0 ⟨1, 0, 0⟩, .release 1,
          .release 2, .release 1]).any fun q => decide (q.2.outstanding = [] ∧
            q.2.sent = [.inr ⟨1, 0, 0⟩, .inl (.result, 8, 2), .inr ⟨3, 0, 2⟩,
              .inl (.result, 7, 4), .inr ⟨2, 0, 1⟩])) = true := by
    decide +kernel
  obtain ⟨⟨w₀, σ₀⟩, hafter, hfacts⟩ := (Option.any_eq_true _ _).mp hcheck
  obtain ⟨hnone, hexecute⟩ := Bool.and_eq_true_iff.mp hfacts
  obtain ⟨⟨w, L⟩, hexecute, hsent⟩ := (Option.any_eq_true _ _).mp hexecute
  obtain ⟨hrun₀, hσ₀⟩ := run_of_sessionAfter hafter
  have hrun := Transition.run_of_execute hexecute
  exact ⟨w₀, σ₀, w, L, hrun₀, hrun, of_decide_eq_true hsent,
    (tracks_of_run (fun _ => rfl) hrun₀ hσ₀ (List.isEmpty_iff.mp hnone) hrun).1⟩

end Wpcp
