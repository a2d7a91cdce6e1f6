import Wpcp.Session.Outputs

/-!
# What a message leaves alone

A message is handled for one session: results are requested for it, its output and its table
of publish items change, and nothing else of any session does but by the calls the application
makes in its callbacks. An assertion that these parts conserve (`Wpcp.HandlesMessage`) is
conserved by the whole, and before the hello message there is only the handler of that message
(`Wpcp.HandlesMessage.leaves_sessionHandleInMessage_of`). As everywhere, the answers to items that
have not been given to the application yet are in the hand.

Unlike `Wpcp.ConservesRuns` this asks for nothing of the calls that the application makes but that
they conserve the assertion.
-/

namespace Wpcp

open Cbor (SizeT Machine Reading WriteBuffer)

variable {α : Type} {S : Prop} {app : Application} {session : ℕ} {P Q : World → Prop}
  {I J : Multiset Token → World → Prop} {hand : Multiset Token}

/-! ### The parts -/

/-- What the library answers to a message itself: to hello, and to a request without
elements. -/
inductive OwnAnswer (S : Prop) : ℕ → WriteBuffer → Prop
  | hello (malloc : ℕ → Bool) (callbacks : Callback → Bool) : (S → ∀ n, malloc n = true) →
      OwnAnswer S 1 (helloAnswer (.init malloc) (messageHandlers callbacks))
  | empty (malloc : ℕ → Bool) : (S → ∀ n, malloc n = true) → OwnAnswer S 0 (.init malloc)

/-- An assertion that what the library does to handle a message for a session conserves. -/
structure HandlesParts (S : Prop) (session : ℕ) (J : Multiset Token → World → Prop) : Prop where
  malloc : ∀ hand w malloc, J hand w → ((∀ n, w.malloc n = true) → ∀ n, malloc n = true) →
    J hand { w with malloc := malloc }
  emit : ∀ hand event, event.isCallback = true →
    Moves S anyWorld J (fun _ => True) hand (emit event []) fun _ => hand
  request : ∀ hand type key, Moves S anyWorld J (fun _ => True) hand (requestSubscription type key)
    fun k => reference k + hand
  requestResult : ∀ hand requestId count, requestId < 2 ^ 32 → count ≠ 0 → count < 2 ^ 32 →
    Moves S anyWorld J (fun _ => True) hand (requestResult session requestId count)
      fun r => r.elim hand fun r => Multiset.replicate count (.answer r) + hand
  append : ∀ hand requestId payloadCount buffer, requestId < 2 ^ 32 →
    OwnAnswer S payloadCount buffer → Moves S anyWorld J (fun _ => True) hand
      (sessionAppendOutMessage session .result requestId payloadCount buffer []) fun _ => hand
  unsubscribe : ∀ hand id, Moves S anyWorld J (fun _ => True) hand (unsubscribeItem session id)
    fun k => reference k + hand

/-- What a callback takes from the hand it leaves to be answered. -/
def CallbackConserves (S : Prop) (app : Application) (J : Multiset Token → World → Prop) : Prop :=
  ∀ hand event owed, event.isCallback = true → Attempt.Ensures (Holds S J (owedTokens owed + hand))
    (callback app event owed) (fun _ => Holds S J hand) Stop.Any

/-- **An assertion that the parts of handling a message conserve**, callbacks included. -/
structure HandlesMessage (S : Prop) (app : Application) (session : ℕ)
    (J : Multiset Token → World → Prop) : Prop extends HandlesParts S session J where
  callback : CallbackConserves S app J

/-! ### Handling a message -/

/-- A function that handles a message conserves an assertion. -/
abbrev HandlingHolds (S : Prop) (J : Multiset Token → World → Prop) (hand : Multiset Token)
    (m : Handling α) (hand' : Multiset Token) : Prop :=
  Attempt.Ensures (fun s => Holds S J hand s.1) m (fun _ s => Holds S J hand' s.1) Stop.Any

theorem handlingHolds_reading (m : Reading α) : HandlingHolds S J hand (reading m) hand :=
  (ensures_read m).imp (fun _ h => h) (fun _ _ h => h) fun _ _ => trivial

theorem holds_assert {c : Prop} [Decidable c] :
    Attempt.Ensures (Holds S J hand) (assert c) (fun _ => Holds S J hand) Stop.Any :=
  ensures_assert_any.imp (fun _ h => h) (fun _ _ h => h.2) fun _ h => h

namespace HandlesMessage

variable (h : HandlesMessage S app session J) (M : Machine) (fuel : ℕ)
include h

/-- The allocations that are left succeed as before. -/
theorem holds_malloc {w : World} (hw : Holds S J hand w) {malloc : ℕ → Bool}
    (hmalloc : (∀ n, w.malloc n = true) → ∀ n, malloc n = true) :
    Holds S J hand { w with malloc := malloc } :=
  ⟨hw.1.frame ⟨rfl, rfl, rfl, rfl, rfl, rfl, Nat.le_refl _, fun _ s hs _ => ⟨s, hs, rfl⟩,
    hmalloc⟩, h.malloc hand w malloc hw.2 hmalloc⟩

theorem holds_writeBufferInit :
    Attempt.Ensures (Holds S J hand) writeBufferInit (fun buffer w => Holds S J hand w ∧
      ∃ malloc, (S → ∀ n, malloc n = true) ∧ buffer = WriteBuffer.init malloc) Stop.Any := by
  intro w hw r t hrun
  obtain ⟨rfl, rfl⟩ := Prod.mk.inj (Option.some.inj hrun)
  refine ⟨fun buffer hbuffer => ⟨h.holds_malloc hw fun hm n => hm (2 * n + 1), _,
    fun hS n => hw.1.malloc hS (2 * n), ?_⟩, fun _ _ => trivial⟩
  obtain rfl := Except.ok.inj hbuffer
  rfl

theorem holds_append {requestId payloadCount : ℕ} {buffer : WriteBuffer}
    (hrequest : requestId < 2 ^ 32) (hbuffer : OwnAnswer S payloadCount buffer) :
    Attempt.Ensures (Holds S J hand)
      (sessionAppendOutMessage session .result requestId payloadCount buffer [])
      (fun _ => Holds S J hand) Stop.Any :=
  (h.append hand requestId payloadCount buffer hrequest hbuffer).always
    ((ensures_sessionAppendOutMessage (F := fun _ => True) session .result requestId payloadCount
      buffer []).imp (fun _ hw => ⟨hw, trivial⟩) (fun _ _ hw => hw.1) fun _ hE => hE)

theorem unsubscribeItems (result payloadCount : ℕ) (ret : Bool) :
    HandlingHolds S J (Multiset.replicate payloadCount (.answer result) + hand)
      (unsubscribeItems M app session result payloadCount ret) hand := by
  induction payloadCount generalizing ret with
  | zero => exact .pure fun _ hs => by simpa using hs
  | succ payloadCount ih =>
    refine .bind (handlingHolds_reading _) fun read => ?_
    split
    · rename_i ok id
      refine .bind (ensures_calls ((h.unsubscribe _ id).always
        (preserves_unsubscribeItem session id))) fun k => .bind (ensures_calls ?_) fun _ => ih _
      refine (h.callback _ _ [.unsubscribe result k] rfl).imp (fun w hw => ?_) (fun _ _ hw => hw)
        fun _ hE => hE
      convert hw using 1
      rw [owedTokens_cons, owedTokens_nil, Owed.tokens, Multiset.replicate_succ,
        ← Multiset.singleton_add, ← Multiset.singleton_add]
      abel
    · exact .fail trivial

omit h in
/-- A request for no answers fails its assertion. -/
theorem requestResult_zero {β : Type} (requestId : ℕ) (f : Option ℕ → Handling β) :
    HandlingHolds S J hand (calls (Wpcp.requestResult session requestId 0) >>= f) hand := by
  have hstops : Attempt.Ensures (Holds S J hand) (Wpcp.requestResult session requestId 0)
      (fun _ _ => False) Stop.Any :=
    .bind .anything fun _ => .bind (Q := fun _ _ => False)
      (ensures_assert_not (not_not.mpr rfl) trivial) fun _ => .assume (fun _ hs => hs) False.elim
  exact .bind (ensures_calls hstops) fun _ => .assume (fun _ hs => hs) False.elim

theorem sessionHandleUnsubscribeMessage {requestId payloadCount : ℕ}
    (hrequest : requestId < 2 ^ 32) (hlt : payloadCount < 2 ^ 32) :
    HandlingHolds S J hand
      (sessionHandleUnsubscribeMessage M app session requestId payloadCount) hand := by
  rcases Nat.eq_zero_or_pos payloadCount with rfl | hpos
  · exact requestResult_zero requestId _
  refine .bind (ensures_calls ((h.requestResult hand requestId payloadCount hrequest
    hpos.ne' hlt).always (preserves_requestResult hpos.ne'))) ?_
  rintro (_ | result)
  · exact .pure fun _ hs => hs
  · exact h.unsubscribeItems M result payloadCount true

theorem itemSubscription (handler : MessageHandler) (messageId key : ℕ) :
    Attempt.Ensures (fun s => Holds S J hand s.1) (itemSubscription M handler messageId key)
      (fun k s => (handler.type = .call → k = none) ∧ Holds S J (reference k + hand) s.1)
      Stop.Any := by
  refine .ite (fun hne => ?_) fun heq => .pure fun s hs => ⟨fun _ => rfl, ?_⟩
  · refine .bind (ensures_readBegin (P := Holds S J hand)) fun begin => .bind
      (Q := fun _ s => Holds S J hand s.1) (ensures_calls
        ((h.emit hand _ rfl).always (Inert.emit _ _).preserves)) fun _ => ?_
    exact (ensures_calls ((h.request hand messageId _).always
      (inert_requestSubscription _ _).preserves)).imp (fun _ hs => hs)
      (fun k _ hs => ⟨fun heq => absurd heq hne, hs⟩) fun _ hE => hE
  · simpa [reference] using hs

/-- One item of a request takes one answer out of the hand. -/
theorem handleItem (handler : MessageHandler) (callbackItems : HandleFunctionItems)
    (messageId result remaining : ℕ) (ret : Bool) :
    HandlingHolds S J (.answer result ::ₘ hand)
      (handleItem M app fuel handler callbackItems messageId result remaining ret) hand := by
  refine .bind (ensures_readBegin (P := Holds S J (.answer result ::ₘ hand))) fun key =>
    .bind (handlingHolds_reading _) fun read => ?_
  split
  · refine .bind (Q := fun _ s => handler.type ≠ .general ∧ Holds S J (.answer result ::ₘ hand) s.1)
      (ensures_calls (P := Holds S J (.answer result ::ₘ hand)) ensures_assert_any) fun _ =>
      .assume (fun _ hs => hs.1) fun hgeneral => .bind ((h.itemSubscription M handler messageId
      key).imp (fun _ hs => hs.2) (fun _ _ hs => hs) fun _ hE => hE) fun k =>
      .assume (fun _ hs => hs.1) fun hcall => .bind ((ensures_calls ?_).imp (fun _ hs => hs.2)
      (fun _ _ hs => hs) fun _ hE => hE) fun _ => .pure fun _ hs => hs
    refine (h.callback hand _ (itemOwed handler.type result k) rfl).imp (fun w hw => ?_)
      (fun _ _ hw => hw) fun _ hE => hE
    have htokens : owedTokens (itemOwed handler.type result k) =
        .answer result ::ₘ reference k := by
      cases htype : handler.type with
      | general => exact absurd htype hgeneral
      | call => rw [hcall htype]; rfl
      | subscribeEvent => cases k <;> rfl
      | subscribeState => cases k <;> rfl
      | subscribeFilter => cases k <;> rfl
    rw [htokens, Multiset.cons_add, ← Multiset.add_cons]
    exact hw
  · exact .fail trivial

theorem handleItems (handler : MessageHandler) (callbackItems : HandleFunctionItems)
    (messageId result count : ℕ) (ret : Bool) :
    HandlingHolds S J (Multiset.replicate count (.answer result) + hand)
      (handleItems M app fuel handler callbackItems messageId result count ret) hand := by
  induction count generalizing ret with
  | zero => exact .pure fun _ hs => by simpa using hs
  | succ remaining ih =>
    rw [Multiset.replicate_succ, Multiset.cons_add]
    exact .bind (h.handleItem M fuel handler callbackItems messageId result remaining ret)
      fun ret => ih ret

theorem callHandleFunctionItems (handler : MessageHandler) (messageId : ℕ)
    {requestId arrayCount : ℕ} (hrequest : requestId < 2 ^ 32) (hlt : arrayCount < 2 ^ 32) :
    HandlingHolds S J hand
      (callHandleFunctionItems M app fuel session handler messageId requestId arrayCount)
      hand := by
  have hatEnd : HandlingHolds S J hand atEnd hand := ensures_atEnd (P := Holds S J hand)
  unfold Wpcp.callHandleFunctionItems
  split
  · exact .fail trivial
  refine .ite (fun hne => ?_) fun _ => ?_
  · refine .bind (ensures_calls holds_assert) fun _ => .bind (ensures_calls
      ((h.requestResult hand requestId arrayCount hrequest hne hlt).always
        (preserves_requestResult hne))) ?_
    rintro (_ | result)
    · exact .pure fun _ hs => hs
    · exact .bind (h.handleItems M fuel handler _ messageId result arrayCount true) fun ret =>
        .ite (fun _ => hatEnd) fun _ => .pure fun _ hs => hs
  · refine .bind (ensures_calls h.holds_writeBufferInit) fun payload =>
      .assume (fun _ hs => hs.2) ?_
    rintro ⟨malloc, hmalloc, rfl⟩
    exact .bind (Q := fun _ s => Holds S J hand s.1) ((ensures_calls
      (h.holds_append hrequest (.empty malloc hmalloc))).imp (fun _ hs => hs.1) (fun _ _ hs => hs)
      fun _ hE => hE) fun _ => hatEnd

/-- The answer to the hello message. -/
theorem sessionHandleHelloMessage
    (hello : ∀ σ, Moves S anyWorld J (fun w => w.sessions.get session = some σ) hand
      (sessions.write session { σ with helloFinished := true }) fun _ => hand)
    {requestId : ℕ} (hrequest : requestId < 2 ^ 32) (payloadCount : ℕ) :
    Attempt.Ensures (fun s => (s.1.sessions.get session).isSome ∧ Holds S J hand s.1)
      (sessionHandleHelloMessage M fuel session requestId payloadCount)
      (fun _ s => Holds S J hand s.1) Stop.Any := by
  have hbuffer : Attempt.Ensures
      (fun w => (w.sessions.get session).isSome ∧ Holds S J hand w) writeBufferInit
      (fun buffer w => (w.sessions.get session).isSome ∧ Holds S J hand w ∧
        ∃ malloc, (S → ∀ n, malloc n = true) ∧ buffer = WriteBuffer.init malloc) Stop.Any :=
    ((Leaves.writeBufferInit fun _ _ hw => hw).and h.holds_writeBufferInit).imp (fun _ hw => hw)
      (fun _ _ hw => hw) fun _ _ => trivial
  refine .ite (fun _ => .pure fun _ hs => hs.2) fun _ => .bind
    ((ensures_read (P := fun w => (w.sessions.get session).isSome ∧ Holds S J hand w) _).imp
      (fun _ hs => hs) (fun _ _ hs => hs) fun _ _ => trivial) fun items => ?_
  split
  · refine .bind (ensures_calls hbuffer) fun buf => .assume (fun _ hs => hs.2.2) ?_
    rintro ⟨malloc, hmalloc, rfl⟩
    refine .bind (Q := fun w s => w.messageHandler = messageHandlers w.callbacks ∧
        Holds S J hand s.1) ?_ fun w => .assume (fun _ hs => hs.1) fun hhandlers => ?_
    · refine (ensures_calls (ensures_getWorld
        (P := fun w => (w.sessions.get session).isSome ∧ Holds S J hand w))).imp
        (fun _ hs => ⟨hs.1, hs.2.1⟩) ?_ fun _ hE => hE
      rintro w s ⟨rfl, hsome, hs⟩
      obtain ⟨σ, hσ⟩ := Option.isSome_iff_exists.mp hsome
      exact ⟨hs.1.messageHandler_eq hσ, hs⟩
    rw [hhandlers]
    refine .bind ((ensures_calls (h.holds_append hrequest (.hello malloc w.callbacks
      hmalloc))).imp (fun _ hs => hs.2) (fun _ _ hs => hs) fun _ hE => hE) fun _ => .bind
      (ensures_calls (Place.ensures_read trivial)) fun σ => .bind (ensures_calls
      (P := fun w => w.sessions.get session = some σ ∧ Holds S J hand w) ?_) fun _ =>
      .pure fun _ hs => hs
    refine ((hello σ).holds (E := Stop.Fair) ?_).imp (fun _ hw => ⟨hw.2, hw.1⟩)
      (fun _ _ hw => hw) fun _ hE => hE
    refine Place.ensures_write Stop.fair_dangling ?_
    rintro w τ ⟨hinv, hσ⟩ -
    refine hinv.setOutput hσ rfl rfl rfl (fun hS => ?_) fun _ _ _ _ hitem => hitem
    obtain ⟨htrace, htracked⟩ := hinv.output hS session σ hσ
    exact ⟨htrace, htracked⟩
  · exact .pure fun _ hs => hs.2

/-- **A message leaves an assertion alone** when the handler of the hello message does before
that message, and the parts of the others do afterwards, where more is known. -/
theorem leaves_sessionHandleInMessage_of (data size : ℕ)
    (hmalloc : ∀ w malloc, P w → ((∀ n, w.malloc n = true) → ∀ n, malloc n = true) →
      P { w with malloc := malloc })
    (hbefore : ∀ w σ, w.sessions.get session = some σ → σ.helloFinished = true → P w →
      Holds S J hand w)
    (hafter : ∀ w, Holds S J hand w → P w)
    (hello : ∀ requestId payloadCount, requestId < 2 ^ 32 → Attempt.Ensures
      (fun s => (∃ σ, s.1.sessions.get session = some σ ∧ σ.helloFinished = false) ∧ P s.1)
      (Wpcp.sessionHandleHelloMessage M fuel session requestId payloadCount) (fun _ s => P s.1)
      Stop.Any) :
    Leaves P (sessionHandleInMessage M app fuel session data size) := by
  have hdispatch : ∀ messageId requestId arrayCount, requestId < 2 ^ 32 → arrayCount < 2 ^ 32 →
      Attempt.Ensures (fun s => P s.1) (dispatch M app fuel session messageId requestId arrayCount)
        (fun _ s => P s.1) Stop.Any := by
    intro messageId requestId arrayCount hrequest hlt
    refine .bind (ensures_calls (P := P) (Place.ensures_read trivial)) fun σ =>
      .ite (fun hfinished => ?_) fun hfinished => ?_
    · exact (hello requestId arrayCount hrequest).imp
        (fun s hs => ⟨⟨σ, hs.1, by simpa using hfinished⟩, hs.2⟩) (fun _ _ hs => hs) fun _ hE => hE
    refine Attempt.Ensures.imp (P := fun s => Holds S J hand s.1)
      (Q := fun _ s => Holds S J hand s.1) (E := Stop.Any) ?_
      (fun s hs => hbefore s.1 σ hs.1 (by simpa using hfinished) hs.2)
      (fun _ s hs => hafter s.1 hs) fun _ hE => hE
    refine .bind (ensures_calls holds_getWorld) fun w => ?_
    split
    · exact .pure fun _ hs => hs
    split
    · rename_i handleFunction _
      cases handleFunction with
      | processed => exact .pure fun _ hs => hs
      | unsubscribe => exact h.sessionHandleUnsubscribeMessage M hrequest hlt
    · exact h.callHandleFunctionItems M fuel _ messageId hrequest hlt
  have hmessage : ∀ b₀, Attempt.Ensures (fun s => P s.1 ∧ s.2 = b₀)
      (handleMessage M app fuel session) (fun _ s => P s.1) Stop.Any := by
    intro b₀
    refine .bind ((ensures_reading (P := P) (readMessageHeader M)).imp (fun _ hs => hs)
      (fun _ _ hs => hs) fun _ _ => trivial) ?_
    rintro (_ | ⟨messageId, requestId, arrayCount⟩)
    · exact .pure fun s hs => hs.1
    · refine .assume (fun s hs => hs.2 _ rfl) ?_
      rintro ⟨b, hb⟩
      have hlt := (ensures_readMessageHeader_lt M b₀ trivial _ _ hb).1 _ rfl
      have hrequest := (ensures_readMessageHeader_requestId M b₀ trivial _ _ hb).1 _ rfl
      exact (hdispatch messageId requestId arrayCount hrequest hlt).imp (fun s hs => hs.1)
        (fun _ _ hs => hs)
        fun _ hE => hE
  intro w hw r w' hrun
  simp only [Wpcp.sessionHandleInMessage, Attempt.run] at hrun
  split at hrun
  · simp at hrun
  · rename_i ret s hm
    obtain ⟨rfl, rfl⟩ := Prod.mk.inj (Option.some.inj hrun)
    exact hmessage _ _ ⟨hmalloc w (fun n => w.malloc (2 * n + 1)) hw fun hm n => hm (2 * n + 1),
      rfl⟩ ret s hm

/-- **A message conserves an assertion** that its parts conserve, and the end of the hello. -/
theorem holds_sessionHandleInMessage
    (hello : ∀ σ, Moves S anyWorld J (fun w => w.sessions.get session = some σ) hand
      (sessions.write session { σ with helloFinished := true }) fun _ => hand)
    (data size : ℕ) :
    Attempt.Ensures (Holds S J hand) (sessionHandleInMessage M app fuel session data size)
      (fun _ => Holds S J hand) Stop.Any := by
  refine h.leaves_sessionHandleInMessage_of M fuel data size (fun w malloc hw hm =>
    h.holds_malloc hw hm) (fun _ _ _ _ hw => hw) (fun _ hw => hw)
    fun requestId payloadCount hrequest =>
    (h.sessionHandleHelloMessage M fuel hello hrequest payloadCount).imp ?_ (fun _ _ hs => hs)
      fun _ hE => hE
  rintro s ⟨⟨σ, hσ, -⟩, hs⟩
  exact ⟨Option.isSome_iff_exists.mpr ⟨σ, hσ⟩, hs⟩

end HandlesMessage

/-! ### Deleting a session -/

/-- The items of a session that is no more are released, with what the application does. -/
theorem holds_deletePublishItems (hcallback : CallbackConserves S app J)
    (hdelete : ∀ hand it, Moves S anyWorld J
      (fun w => ∃ i, w.publishItems.get it = some i ∧ w.sessions.get i.session = none)
      (.orphan it ::ₘ hand) (deletePublishItem it) fun k => .reference k ::ₘ hand)
    (result : ℕ) (items : List ℕ) (hitems : items.Nodup) :
    Attempt.Ensures
      (fun w => Holds S J (Multiset.replicate items.length (.answer result) +
        (orphans items + hand)) w ∧ w.Orphans items)
      (deletePublishItems app result items) (fun _ => Holds S J hand) Stop.Any := by
  induction items with
  | nil => exact .pure fun _ h => by simpa using h.1
  | cons it next ih =>
    obtain ⟨hnext, hnodup⟩ := List.nodup_cons.mp hitems
    -- the hand without what this round uses
    let rest : Multiset Token :=
      Multiset.replicate next.length (.answer result) + (orphans next + hand)
    refine .bind (Q := fun k w => Holds S J (.reference k ::ₘ .answer result ::ₘ rest) w ∧
      w.Orphans next) ?_ fun k => .bind (Q := fun _ w => Holds S J rest w ∧ w.Orphans next) ?_
      fun _ => ih hnodup
    · refine (Attempt.Ensures.and (hdelete (.answer result ::ₘ rest) it)
        (ensures_deletePublishItem (S := S) it next hnext)).imp
        ?_ (fun _ _ h => ⟨⟨h.2.1, h.1⟩, h.2.2⟩) fun _ _ => trivial
      rintro w ⟨⟨hinv, hj⟩, horphans⟩
      refine ⟨⟨hinv, trivial, ?_, horphans it List.mem_cons_self⟩, hinv, horphans⟩
      convert hj using 1
      rw [List.length_cons, Multiset.replicate_succ, orphans_cons, Multiset.cons_add,
        Multiset.cons_add, Multiset.add_cons, Multiset.cons_swap]
    · have hunsubscribe : Attempt.Ensures (Holds S J (.reference k ::ₘ .answer result ::ₘ rest))
          (unsubscribeCallback app result next.length k) (fun _ => Holds S J rest) Stop.Any := by
        refine .bind holds_getWorld fun w => .bind holds_assert fun _ =>
          (hcallback rest _ [.unsubscribe result (some k)] rfl).imp (fun w h => ?_)
          (fun _ _ h => h) fun _ h => h
        rw [owedTokens_cons, owedTokens_nil, Owed.tokens, add_zero, Multiset.cons_add,
          show reference (some k) = {.reference k} from rfl, Multiset.singleton_add,
          Multiset.cons_swap]
        exact h
      exact (hunsubscribe.and (ensures_unsubscribeCallback_orphans (S := S) app result next.length
        k next)).imp (fun w h => ⟨h.1, h.1.1, h.2⟩) (fun _ _ h => h) fun _ _ => trivial

end Wpcp
