import Mathlib.Tactic.Abel
import Wpcp.Session.Reachable

/-!
# What every run conserves

The functions that handle a message and those that delete a session are made of the
operations of `Wpcp.Conserves` and of calls of the application. An assertion that these
conserve therefore holds in every run (`Wpcp.ConservesRuns.of_run`). While a message is handled,
the answers to its items that have not been given to the application yet are in the hand.
-/

namespace Wpcp

open Cbor (SizeT Machine ReadBuffer Reading WriteBuffer MapItem)

variable {α : Type} {F : Owed → Prop} {S : Prop} {J : Multiset Token → World → Prop}
  {hand : Multiset Token}

/-! ### Counts fit 32 bits -/

theorem ensures_readUint_lt (M : Machine) {k : ℕ} (hk : k ≤ 4) :
    Attempt.Ensures (fun _ => True) (Cbor.readUint M k) (fun n _ => n < 2 ^ 32) fun _ => True := by
  refine .bind .anything fun ret => .pure fun b _ => ?_
  have hlt := BigEndian.value_lt (M.slice ret k)
  rw [Machine.slice, List.length_map, List.length_range] at hlt
  exact hlt.trans_le ((Nat.pow_le_pow_right (by omega) hk).trans (by norm_num))

/-- A header that is read has an argument of at most four bytes. -/
theorem ensures_readHeaderAndUint32_lt (M : Machine) :
    Attempt.Ensures (fun _ => True) (Cbor.readHeaderAndUint32 M) (fun p _ => p.2 < 2 ^ 32)
      fun _ => True := by
  refine .bind .anything fun firstByte => ?_
  have hread : ∀ k ≤ 4, Attempt.Ensures (fun _ => True) (do
      let temp ← Cbor.readUint M k
      pure (Cbor.headerType firstByte, temp)) (fun p _ => p.2 < 2 ^ 32) fun _ => True :=
    fun k hk => .bind (ensures_readUint_lt M hk) fun _ => .pure fun _ h => h
  refine .ite (fun hlt => .pure fun _ _ => ?_) fun _ => .ite (fun _ => ?_) fun _ =>
    .ite (fun _ => ?_) fun _ => .ite (fun _ => ?_) fun _ => .fail trivial
  · exact hlt.trans (by norm_num [Cbor.additonalBytes1])
  · exact (hread 1 (by omega)).imp (fun _ _ => trivial) (fun _ _ h => h) fun _ h => h
  · exact (hread 2 (by omega)).imp (fun _ _ => trivial) (fun _ _ h => h) fun _ h => h
  · exact (hread 4 (by omega)).imp (fun _ _ => trivial) (fun _ _ h => h) fun _ h => h

/-- A header that is read, or missing, has an argument of at most four bytes. -/
theorem ensures_readSpecificHeader_lt (M : Machine) (type : Cbor.MajorType) :
    Attempt.Ensures (fun _ => True) (Cbor.readSpecificHeaderAndUint32 M type 0)
      (fun p _ => p.2 < 2 ^ 32) fun _ => True := by
  refine .bind (Q := fun o _ => ∀ p ∈ o, p.2 < 2 ^ 32) ?_ ?_
  · intro b hb r t hrun
    have hread := ensures_readHeaderAndUint32_lt M b hb
    simp only [Cbor.orNull, Attempt.run] at hrun hread
    split at hrun
    · simp at hrun
    · rename_i p b' heq
      obtain ⟨rfl, rfl⟩ := Prod.mk.inj (Option.some.inj hrun)
      refine ⟨fun o ho q hq => ?_, fun _ _ => trivial⟩
      obtain rfl := Option.some.inj ((Except.ok.inj ho).trans hq)
      exact (hread _ _ heq).1 _ rfl
    · obtain ⟨rfl, rfl⟩ := Prod.mk.inj (Option.some.inj hrun)
      refine ⟨fun o ho q hq => ?_, fun _ _ => trivial⟩
      exact absurd ((Except.ok.inj ho).trans hq) (by simp)
    · obtain ⟨rfl, rfl⟩ := Prod.mk.inj (Option.some.inj hrun)
      exact ⟨fun o ho => (by cases ho), fun _ _ => trivial⟩
  · rintro (_ | ⟨type, value⟩)
    · exact .pure fun _ _ => by norm_num
    · exact .pure fun _ h => h _ rfl

/-- An array that is announced has less than 2^32 elements. -/
theorem ensures_readArrayHeader_lt (M : Machine) :
    Attempt.Ensures (fun _ => True) (Cbor.readArrayHeader M) (fun p _ => p.2 < 2 ^ 32)
      fun _ => True :=
  ensures_readSpecificHeader_lt M .array

theorem ensures_readMessageHeader_lt (M : Machine) :
    Attempt.Ensures (fun _ => True) (readMessageHeader M) (fun p _ => p.2.2 < 2 ^ 32)
      fun _ => True := by
  refine .bind (ensures_readArrayHeader_lt M) fun ⟨ok, arrayCount⟩ =>
    .assume (fun _ h => h) fun hlt => .ite (fun _ => .fail trivial) fun _ =>
    .ite (fun _ => .fail trivial) fun _ => .bind .anything fun ⟨ok, messageId⟩ =>
    .ite (fun _ => .fail trivial) fun _ => .bind .anything fun ⟨ok, requestId⟩ =>
    .ite (fun _ => .fail trivial) fun _ => .pure fun _ _ => ?_
  exact lt_of_le_of_lt (Nat.sub_le _ _) hlt

/-- The number of a request fits 32 bits. -/
theorem ensures_readMessageHeader_requestId (M : Machine) :
    Attempt.Ensures (fun _ => True) (readMessageHeader M) (fun p _ => p.2.1 < 2 ^ 32)
      fun _ => True := by
  refine .bind .anything fun ⟨ok, arrayCount⟩ => .ite (fun _ => .fail trivial) fun _ =>
    .ite (fun _ => .fail trivial) fun _ => .bind .anything fun ⟨ok, messageId⟩ =>
    .ite (fun _ => .fail trivial) fun _ => .bind (ensures_readSpecificHeader_lt M .unsignedInteger)
    fun ⟨ok, requestId⟩ => .ite (fun _ => .fail trivial) fun _ => .pure fun _ h => h

/-- The answer to the hello message is written by writes. -/
theorem writes_helloAnswer (buf : WriteBuffer) (handlers : List MessageHandler) :
    buf.Writes (helloAnswer buf handlers) := by
  have hfold : ∀ (l : List MessageHandler) (buf : WriteBuffer), buf.Writes (l.foldl
      (fun buf handler =>
        (buf.writeTextString (ascii handler.name)).writeUnsignedInteger handler.type.toNat)
          buf) := by
    intro l
    induction l with
    | nil => exact fun buf => .refl buf
    | cons handler l ih =>
      exact fun buf => ((WriteBuffer.writes_writeTextString _ _).trans
        (WriteBuffer.writes_writeTypeAndUint32Value _ _ _)).trans (ih _)
  exact ((((WriteBuffer.writes_writeTypeAndUint32Value buf .map 2).trans
    (WriteBuffer.writes_writeTextString _ (ascii "role"))).trans
    (WriteBuffer.writes_writeTypeAndUint32Value _ .unsignedInteger 1)).trans
    (WriteBuffer.writes_writeTextString _ (ascii "methods"))).trans
    ((WriteBuffer.writes_writeTypeAndUint32Value _ .array _).trans (hfold handlers _))

/-! ### Results that are allocated -/

/-- A result that is requested is the next one. -/
theorem ensures_requestResult_next {result : ℕ} (s requestId count : ℕ) :
    Attempt.Ensures (fun w => w.results.next = result) (requestResult s requestId count)
      (fun r _ => ∀ r', r = some r' → r' = result) Stop.Any := by
  have hmalloc : Attempt.Ensures (fun w => w.results.next = result) malloc
      (fun _ w => w.results.next = result) Stop.Any := by
    intro w hw r t hrun
    obtain ⟨rfl, rfl⟩ := Prod.mk.inj (Option.some.inj hrun)
    exact ⟨fun _ _ => hw, fun _ _ => trivial⟩
  have hbuffer : Attempt.Ensures (fun w => w.results.next = result) writeBufferInit
      (fun _ w => w.results.next = result) Stop.Any := by
    intro w hw r t hrun
    obtain ⟨rfl, rfl⟩ := Prod.mk.inj (Option.some.inj hrun)
    exact ⟨fun _ _ => hw, fun _ _ => trivial⟩
  refine .bind hmalloc fun _ => .bind (ensures_assert_any.imp (fun _ h => h) (fun _ _ h => h.2)
    fun _ h => h) fun _ => .ite (fun _ => .bind hbuffer fun buffer => ?_) fun _ =>
    .pure fun _ _ => nofun
  refine .bind (Q := fun r _ => r = result) (Place.ensures_new fun w h => h) fun r =>
    .assume (fun _ h => h) fun hr => .bind .anything fun σ => .bind .anything fun _ =>
    .pure fun _ _ r' hr' => ?_
  exact (Option.some.inj hr').symm.trans hr

/-- The stand-in for a session is the next result. -/
theorem ensures_closeSession_next {result : ℕ} (s : ℕ) (σ : Session) :
    Attempt.Ensures (fun w => w.results.next = result) (closeSession s σ)
      (fun r _ => ∀ r', r = some r' → r' = result) Stop.Any := by
  have hframed : Framed fun w => w.results.next = result := by
    rintro w w' hf h
    rw [hf.results]
    exact h
  have hfree : Attempt.Ensures (fun w => w.results.next = result) (sessions.free s)
      (fun _ w => w.results.next = result) Stop.Any := Place.ensures_free trivial fun _ _ h _ => h
  refine .bind (Q := fun _ w => w.results.next = result) ?_ fun _ =>
    .bind (((inert_publishQueueItemsDeref _).keeps hframed).imp (fun _ h => h) (fun _ _ h => h)
      fun _ _ => trivial) fun _ => .bind ((ensures_orphanResults (P := fun w =>
        w.results.next = result) σ.results).imp (fun _ h => h) (fun _ _ h => h) fun _ h => h)
      fun _ => .ite (fun _ => .bind (Q := fun r _ => r = result) (.bind hfree fun _ =>
        .bind (ensures_assert_any.imp (fun _ h => h) (fun _ _ h => h.2) fun _ h => h) fun _ =>
        Place.ensures_new fun _ h => h) fun r => .pure fun _ h r' hr' => ?_) fun _ =>
      .bind hfree fun _ => .pure fun _ _ => nofun
  · unfold releaseQueuedOutMessages
    dsimp only
    split
    · exact .pure fun _ h => h
    · exact .fail trivial
  · exact (Option.some.inj hr').symm.trans h

/-! ### Operations of the library -/

namespace ConservesRuns

variable (hJ : ConservesRuns F S anyWorld J)
include hJ

/-- A message without ids is queued. -/
theorem holds_append (s : ℕ) (messageId : MessageId) (requestId payloadCount : ℕ)
    {buffer : WriteBuffer} (hbuffer : ∃ malloc, (WriteBuffer.init malloc).Writes buffer) :
    Attempt.Ensures (Holds S J hand)
      (sessionAppendOutMessage s messageId requestId payloadCount buffer [])
      (fun _ => Holds S J hand) Stop.Any :=
  (hJ.append hand s messageId requestId payloadCount buffer hbuffer).always
    ((ensures_sessionAppendOutMessage (F := fun _ => True) s messageId requestId payloadCount
      buffer []).imp (fun _ h => ⟨h, trivial⟩) (fun _ _ h => h.1) fun _ h => h)

/-- A buffer is new, and what is written to it comes from writes. -/
theorem holds_writeBufferInit :
    Attempt.Ensures (Holds S J hand) writeBufferInit
      (fun buffer w => Holds S J hand w ∧ ∃ malloc, buffer = WriteBuffer.init malloc) Stop.Any := by
  intro w hw r t hrun
  have hinv := (Inert.writeBufferInit.preserves w hw.1 r t hrun).1
  obtain ⟨rfl, rfl⟩ := Prod.mk.inj (Option.some.inj hrun)
  refine ⟨fun a ha => ⟨⟨hinv a ha, hJ.malloc hand w _ hw.2 fun hm n => hm (2 * n + 1)⟩, ?_⟩,
    fun _ _ => trivial⟩
  obtain rfl := Except.ok.inj ha
  exact ⟨_, rfl⟩

theorem holds_requestResult {s requestId count : ℕ} (hne : count ≠ 0) (hlt : count < 2 ^ 32) :
    Attempt.Ensures (Holds S J hand) (Wpcp.requestResult s requestId count)
      (fun r => Holds S J (r.elim hand fun r => Multiset.replicate count (.answer r) + hand))
      Stop.Any :=
  (hJ.requestResult hand s requestId count hne hlt).always (preserves_requestResult hne)

/-- A result is the next one to be allocated. -/
theorem holds_requestResult_next {s requestId count result : ℕ} (hne : count ≠ 0)
    (hlt : count < 2 ^ 32) :
    Attempt.Ensures (fun w => Holds S J hand w ∧ w.results.next = result)
      (Wpcp.requestResult s requestId count)
      (fun r w => Holds S J (r.elim hand fun r => Multiset.replicate count (.answer r) + hand) w ∧
        ∀ r', r = some r' → r' = result) Stop.Any :=
  ((hJ.holds_requestResult hne hlt).and (ensures_requestResult_next s requestId count)).imp
    (fun _ h => h) (fun _ _ h => h) fun _ _ => trivial

/-! ### The handlers -/

section Handlers

variable (M : Machine) (app : Application) (fuel session : ℕ)

/-- A function that handles a message conserves the assertion. -/
abbrev Handles (S : Prop) (J : Multiset Token → World → Prop) (hand : Multiset Token)
    (m : Handling α)
    (hand' : Multiset Token) : Prop :=
  Attempt.Ensures (fun s => Holds S J hand s.1) m (fun _ s => Holds S J hand' s.1) Stop.Any

omit hJ in
theorem handles_reading (m : Reading α) : Handles S J hand (reading m) hand :=
  (ensures_read m).imp (fun _ h => h) (fun _ _ h => h) fun _ _ => trivial

theorem handles_sessionHandleHelloMessage (requestId payloadCount : ℕ) :
    Handles S J hand (sessionHandleHelloMessage M fuel session requestId payloadCount) hand := by
  refine .ite (fun _ => .pure fun _ h => h) fun _ => .bind (handles_reading _) fun items => ?_
  split
  · refine .bind (ensures_calls hJ.holds_writeBufferInit) fun buf =>
      .assume (fun s h => h.2) ?_
    rintro ⟨malloc, rfl⟩
    refine .bind (Q := fun _ s => Holds S J hand s.1) ((ensures_calls holds_getWorld).imp
      (fun _ h => h.1) (fun _ _ h => h) fun _ h => h) fun w =>
      .bind (ensures_calls (hJ.holds_append session .result requestId 1
        ⟨malloc, writes_helloAnswer _ _⟩)) fun _ =>
          .bind (ensures_calls (Place.ensures_read trivial)) fun σ => .bind
        (ensures_calls (P := fun w => w.sessions.get session = some σ ∧ Holds S J hand w) ?_)
        fun _ => .pure fun _ h => h
    refine ((hJ.hello hand session σ).holds (E := Stop.Fair) ?_).imp (fun _ h => ⟨h.2, h.1⟩)
      (fun _ _ h => h) fun _ h => h
    refine Place.ensures_write Stop.fair_dangling ?_
    rintro w τ ⟨hinv, hσ⟩ -
    refine hinv.setOutput hσ rfl rfl rfl (fun hS => ?_) fun _ _ _ _ h => h
    obtain ⟨htrace, htracked⟩ := hinv.output hS session σ hσ
    exact ⟨htrace, htracked⟩
  · exact .pure fun _ h => h

theorem handles_unsubscribeItems {result : ℕ} (hF : ∀ k, F (.unsubscribe result k))
    (payloadCount : ℕ) (ret : Bool) :
    Handles S J (Multiset.replicate payloadCount (.answer result) + hand)
      (unsubscribeItems M app session result payloadCount ret) hand := by
  induction payloadCount generalizing ret with
  | zero => exact .pure fun _ h => by simpa using h
  | succ payloadCount ih =>
    refine .bind (handles_reading _) fun read => ?_
    split
    · rename_i ok id
      refine .bind (ensures_calls ((hJ.unsubscribe _ session id).always
        (preserves_unsubscribeItem session id))) fun k => .bind (ensures_calls ?_) fun _ => ih _
      refine (hJ.holds_callback app [.unsubscribe result k] rfl (by simp [hF])).imp
        (fun w h => ?_) (fun _ _ h => h) fun _ h => h
      convert h using 1
      rw [owedTokens_cons, owedTokens_nil, Owed.tokens, Multiset.replicate_succ,
        ← Multiset.singleton_add, ← Multiset.singleton_add]
      abel
    · exact .fail trivial

theorem handles_sessionHandleUnsubscribeMessage {requestId payloadCount result : ℕ}
    (hF : ∀ k, F (.unsubscribe result k)) (hne : payloadCount ≠ 0) (hlt : payloadCount < 2 ^ 32) :
    Attempt.Ensures (fun s => Holds S J hand s.1 ∧ s.1.results.next = result)
      (sessionHandleUnsubscribeMessage M app session requestId payloadCount)
      (fun _ s => Holds S J hand s.1) Stop.Any := by
  refine .bind (ensures_calls (hJ.holds_requestResult_next hne hlt)) ?_
  rintro (_ | r)
  · exact .pure fun _ h => h.1
  · refine .assume (fun _ h => h.2 r rfl) fun hr => ?_
    subst hr
    exact (hJ.handles_unsubscribeItems M app session hF payloadCount true).imp (fun _ h => h.1)
      (fun _ _ h => h) fun _ h => h

/-- One item of a request takes one answer out of the hand. -/
theorem handles_handleItem (handler : MessageHandler) (callbackItems : HandleFunctionItems)
    {result : ℕ} (hF : ∀ k, ∀ o ∈ itemOwed handler.type result k, F o)
    (messageId remaining : ℕ) (ret : Bool) :
    Handles S J (.answer result ::ₘ hand)
      (handleItem M app fuel handler callbackItems messageId result remaining ret) hand := by
  refine .bind (ensures_readBegin (P := Holds S J (.answer result ::ₘ hand))) fun key =>
    .bind (handles_reading _) fun read => ?_
  split
  · refine .bind (Q := fun _ s => handler.type ≠ .general ∧ Holds S J (.answer result ::ₘ hand) s.1)
      (ensures_calls (P := Holds S J (.answer result ::ₘ hand)) ensures_assert_any) fun _ =>
      .assume (fun _ h => h.1) fun hgeneral => .bind
      (Q := fun k s => (handler.type = .call → k = none) ∧
        Holds S J (reference k + (.answer result ::ₘ hand)) s.1) ?_ fun k =>
      .assume (fun _ h => h.1) fun hcall => .bind ((ensures_calls
      (P := Holds S J (reference k + (.answer result ::ₘ hand))) ?_).imp (fun _ h => h.2)
      (fun _ _ h => h) fun _ h => h) fun _ => .pure fun _ h => h
    · refine .ite (fun hne => ?_) fun heq => .pure fun s h => ⟨fun _ => rfl, ?_⟩
      · refine .bind (ensures_readBegin (P := Holds S J (.answer result ::ₘ hand)) |>.imp
          (fun _ h => h.2) (fun _ _ h => h) fun _ h => h) fun begin =>
          .bind (Q := fun _ s => Holds S J (.answer result ::ₘ hand) s.1)
            (ensures_calls (P := Holds S J (.answer result ::ₘ hand)) ?_) fun _ => ?_
        · exact (((hJ.owe _ _ [] rfl).sure nofun).always (Inert.emit _ _).preserves).imp
            (fun _ h => by simpa using h) (fun _ _ h => h) fun _ h => h
        · exact (ensures_calls ((hJ.request _ messageId _).always
            (inert_requestSubscription _ _).preserves)).imp (fun _ h => h)
            (fun k _ h => ⟨fun heq => absurd heq hne, h⟩) fun _ h => h
      · simpa [reference] using h.2
    · refine (hJ.holds_callback app (itemOwed handler.type result k) rfl (hF k)).imp
        (fun w h => ?_) (fun _ _ h => h) fun _ h => h
      have htokens : owedTokens (itemOwed handler.type result k) =
          .answer result ::ₘ reference k := by
        cases htype : handler.type with
        | general => exact absurd htype hgeneral
        | call => rw [hcall htype]; rfl
        | subscribeEvent => cases k <;> rfl
        | subscribeState => cases k <;> rfl
        | subscribeFilter => cases k <;> rfl
      rw [htokens, Multiset.cons_add, ← Multiset.add_cons]
      exact h
  · exact .fail trivial

theorem handles_handleItems (handler : MessageHandler) (callbackItems : HandleFunctionItems)
    {result : ℕ} (hF : ∀ k, ∀ o ∈ itemOwed handler.type result k, F o)
    (messageId count : ℕ) (ret : Bool) :
    Handles S J (Multiset.replicate count (.answer result) + hand)
      (handleItems M app fuel handler callbackItems messageId result count ret) hand := by
  induction count generalizing ret with
  | zero => exact .pure fun _ h => by simpa using h
  | succ remaining ih =>
    rw [Multiset.replicate_succ, Multiset.cons_add]
    exact .bind (hJ.handles_handleItem M app fuel handler callbackItems hF messageId remaining
      ret) fun ret => ih ret

theorem handles_callHandleFunctionItems (handler : MessageHandler)
    (messageId requestId : ℕ) {arrayCount result : ℕ}
    (hF : ∀ k, ∀ o ∈ itemOwed handler.type result k, F o) (hlt : arrayCount < 2 ^ 32) :
    Attempt.Ensures (fun s => Holds S J hand s.1 ∧ s.1.results.next = result)
      (callHandleFunctionItems M app fuel session handler messageId requestId arrayCount)
      (fun _ s => Holds S J hand s.1) Stop.Any := by
  have hatEnd : Handles S J hand atEnd hand := ensures_atEnd (P := Holds S J hand)
  unfold callHandleFunctionItems
  split
  · exact .fail trivial
  refine .ite (fun hne => ?_) fun _ => ?_
  · refine .bind ((ensures_calls (P := fun w => Holds S J hand w ∧ w.results.next = result)
      ensures_assert_any).imp (fun _ h => h) (fun _ _ h => h.2) fun _ h => h) fun _ =>
      .bind (ensures_calls (hJ.holds_requestResult_next hne hlt)) ?_
    rintro (_ | r)
    · exact .pure fun _ h => h.1
    · refine .assume (fun _ h => h.2 r rfl) fun hr => ?_
      subst hr
      exact .bind ((hJ.handles_handleItems M app fuel handler _ hF messageId arrayCount true).imp
        (fun _ h => h.1) (fun _ _ h => h) fun _ h => h) fun ret =>
        .ite (fun _ => hatEnd) fun _ => .pure fun _ h => h
  · refine .bind ((ensures_calls hJ.holds_writeBufferInit).imp (fun _ h => h.1) (fun _ _ h => h)
      fun _ h => h) fun payload => .assume (fun _ h => h.2) ?_
    rintro ⟨malloc, rfl⟩
    exact .bind (Q := fun _ s => Holds S J hand s.1) ((ensures_calls
      (hJ.holds_append session .result requestId 0 ⟨malloc, .refl _⟩)).imp (fun _ h => h.1)
        (fun _ _ h => h) fun _ h => h) fun _ => hatEnd

/-! ### Deleting a session -/

theorem holds_deletePublishItems {result : ℕ} (hF : ∀ k, F (.unsubscribe result k))
    (items : List ℕ) (hitems : items.Nodup) :
    Attempt.Ensures
      (fun w => Holds S J (Multiset.replicate items.length (.answer result) +
        (orphans items + hand)) w ∧ w.Orphans items)
      (deletePublishItems app result items) (fun _ => Holds S J hand) Stop.Any := by
  induction items with
  | nil => exact .pure fun _ h => by simpa using h.1
  | cons it next ih =>
    obtain ⟨hnext, hnodup⟩ := List.nodup_cons.mp hitems
    -- the hand without what this round uses
    let rest : Multiset Token :=
      Multiset.replicate next.length (.answer result) + (orphans next + hand)
    refine .bind (Q := fun k w => Holds S J (.reference k ::ₘ .answer result ::ₘ rest) w ∧
      w.Orphans next) ?_ fun k => .bind (Q := fun _ w => Holds S J rest w ∧ w.Orphans next) ?_
      fun _ => ih hnodup
    · refine (Attempt.Ensures.and (hJ.deleteItem (.answer result ::ₘ rest) it)
        (ensures_deletePublishItem (S := S) it next hnext)).imp
        ?_ (fun _ _ h => ⟨⟨h.2.1, h.1⟩, h.2.2⟩) fun _ _ => trivial
      rintro w ⟨⟨hinv, hj⟩, horphans⟩
      refine ⟨⟨hinv, trivial, ?_, horphans it List.mem_cons_self⟩, hinv, horphans⟩
      convert hj using 1
      rw [List.length_cons, Multiset.replicate_succ, orphans_cons, Multiset.cons_add,
        Multiset.cons_add, Multiset.add_cons, Multiset.cons_swap]
    · have hcallback : Attempt.Ensures (Holds S J (.reference k ::ₘ .answer result ::ₘ rest))
          (unsubscribeCallback app result next.length k) (fun _ => Holds S J rest) Stop.Any := by
        refine .bind holds_getWorld fun w => .bind ensures_assert_any fun _ =>
          (hJ.holds_callback app [.unsubscribe result (some k)] rfl (by simp [hF])).imp
          (fun w h => ?_) (fun _ _ h => h) fun _ h => h
        rw [owedTokens_cons, owedTokens_nil, Owed.tokens, add_zero, Multiset.cons_add,
          show reference (some k) = {.reference k} from rfl, Multiset.singleton_add,
          Multiset.cons_swap]
        exact h.2
      exact (hcallback.and (ensures_unsubscribeCallback_orphans (S := S) app result next.length
        k next)).imp (fun w h => ⟨h.1, h.1.1, h.2⟩) (fun _ _ h => h) fun _ _ => trivial

end Handlers

end ConservesRuns

/-! ### Kinds of results -/

/-- **An assertion that every step conserves.** What may be owed for a result depends on what the
result is for, which is settled when it is allocated; `k` says so of all the results there are, and
may still be chosen for the next one. -/
structure ConservesKinds {K : Type} (F : K → Owed → Prop) (S : Prop)
    (J : K → Multiset Token → World → Prop) : Prop where
  runs : ∀ k, ConservesRuns (F k) S anyWorld (J k)
  unsubscribe : ∀ k hand w, J k hand w →
    ∃ k', J k' hand w ∧ ∀ subscription, F k' (.unsubscribe w.results.next subscription)
  items : ∀ k hand w, J k hand w → ∃ k', J k' hand w ∧
    ∀ type subscription, ∀ o ∈ itemOwed type w.results.next subscription, F k' o

/-- An assertion for which all results are of one kind. -/
theorem ConservesRuns.kinds (hJ : ConservesRuns anyOwed S anyWorld J) :
    ConservesKinds (K := Unit) (fun _ => anyOwed) S fun _ => J where
  runs _ := hJ
  unsubscribe _ _ _ h := ⟨(), h, fun _ => trivial⟩
  items _ _ _ h := ⟨(), h, fun _ _ _ _ => trivial⟩

/-- The invariant and an assertion hold, whatever the results are for. -/
def Held {K : Type} (S : Prop) (J : K → Multiset Token → World → Prop) (hand : Multiset Token)
    (w : World) : Prop :=
  ∃ k, Holds S (J k) hand w

namespace ConservesKinds

variable {K : Type} {F : K → Owed → Prop} {J : K → Multiset Token → World → Prop}
  (hJ : ConservesKinds F S J)
include hJ

section Handlers

variable (M : Machine) (app : Application) (fuel session : ℕ)

theorem handles_dispatch (messageId requestId : ℕ) {arrayCount : ℕ}
    (hlt : arrayCount < 2 ^ 32) :
    Attempt.Ensures (fun s => Held S J hand s.1)
      (dispatch M app fuel session messageId requestId arrayCount)
      (fun _ s => Held S J hand s.1) Stop.Any := by
  refine .bind (ensures_calls (P := Held S J hand) (Place.ensures_read trivial)) fun σ =>
    .ite (fun _ => ?_) fun _ => .bind (ensures_calls
      (P := fun w => w.sessions.get session = some σ ∧ Held S J hand w)
      ensures_getWorld) fun w =>
      .assume (p := w.messageHandler = messageHandlers w.callbacks) ?_ fun hhandlers => ?_
  · rintro s ⟨-, k, hs⟩ r t hrun
    have hhello := @ConservesRuns.handles_sessionHandleHelloMessage _ _ _ hand (hJ.runs k) M fuel
      session requestId arrayCount
    exact ⟨fun a ha => ⟨k, (hhello s hs r t hrun).1 a ha⟩, fun _ _ => trivial⟩
  · rintro s ⟨rfl, hσ, k, hinv, -⟩
    exact hinv.messageHandler_eq hσ
  have hpre : ∀ s : World × ReadBuffer, (w = s.1 ∧ s.1.sessions.get session = some σ ∧
    Held S J hand s.1) → Held S J hand s.1 := fun s hs => hs.2.2
  split
  · exact .pure hpre
  split
  · rename_i handler hget handleFunction hfun
    cases handleFunction with
    | processed => exact .pure hpre
    | unsubscribe =>
      by_cases hcount : arrayCount = 0
      · -- the assertion of `wpcp_request_result` fails
        refine .bind (Q := fun _ _ => False) (ensures_calls (Q := fun _ _ => False)
          (P := fun _ => True) ?_ |>.imp (fun _ _ => trivial) (fun _ _ h => h) fun _ h => h)
          fun _ => .assume (fun _ h => h) False.elim
        exact .bind .anything fun _ => .bind (Q := fun _ _ => False)
          (ensures_assert_not (by simp [hcount]) trivial) fun _ => .assume (fun _ h => h) False.elim
      · -- the next result is for a request to unsubscribe
        rintro s ⟨-, -, k, hinv, h⟩ r t hrun
        obtain ⟨k', h', hF⟩ := hJ.unsubscribe k hand s.1 h
        have hmessage := @ConservesRuns.handles_sessionHandleUnsubscribeMessage _ _ _ _
          (hJ.runs k') M app session requestId _ _ hF hcount hlt s ⟨⟨hinv, h'⟩, rfl⟩ r t hrun
        exact ⟨fun a ha => ⟨k', hmessage.1 a ha⟩, fun _ _ => trivial⟩
  · rintro s ⟨-, -, k, hinv, h⟩ r t hrun
    obtain ⟨k', h', hF⟩ := hJ.items k hand s.1 h
    have hmessage := (hJ.runs k').handles_callHandleFunctionItems M app fuel session _ messageId
      requestId (hF _) hlt s ⟨⟨hinv, h'⟩, rfl⟩ r t hrun
    exact ⟨fun a ha => ⟨k', hmessage.1 a ha⟩, fun _ _ => trivial⟩

/-- **A message conserves the assertion.** -/
theorem holds_sessionHandleInMessage (data size : ℕ) :
    Attempt.Ensures (Held S J hand) (sessionHandleInMessage M app fuel session data size)
      (fun _ => Held S J hand) Stop.Any := by
  have hmessage : ∀ b₀, Attempt.Ensures (fun s => Held S J hand s.1 ∧ s.2 = b₀)
      (handleMessage M app fuel session) (fun _ s => Held S J hand s.1) Stop.Any := by
    intro b₀
    refine .bind ((ensures_reading (P := Held S J hand) (readMessageHeader M)).imp (fun _ h => h)
      (fun _ _ h => h) fun _ _ => trivial) ?_
    rintro (_ | ⟨messageId, requestId, arrayCount⟩)
    · exact .pure fun s hs => hs.1
    · refine .assume (fun s hs => hs.2 _ rfl) ?_
      rintro ⟨b, hb⟩
      have hlt := (ensures_readMessageHeader_lt M b₀ trivial _ _ hb).1 _ rfl
      exact (hJ.handles_dispatch M app fuel session messageId requestId hlt).imp
        (fun s hs => hs.1) (fun _ _ h => h) fun _ h => h
  rintro w ⟨k, hinv, h⟩ r w' hrun
  simp only [sessionHandleInMessage, Attempt.run] at hrun
  split at hrun
  · simp at hrun
  · rename_i ret s hm
    obtain ⟨rfl, rfl⟩ := Prod.mk.inj (Option.some.inj hrun)
    have hinv : World.Inv S none none { w with malloc := fun n => w.malloc (2 * n + 1) } :=
      hinv.frame ⟨rfl, rfl, rfl, rfl, rfl, rfl, Nat.le_refl _, fun _ s hs _ => ⟨s, hs, rfl⟩,
        fun h n => h (2 * n + 1)⟩
    exact hmessage _ _ ⟨⟨k, hinv, (hJ.runs k).malloc hand w _ h fun hm n => hm (2 * n + 1)⟩, rfl⟩
      ret s hm

/-- **Deleting a session conserves the assertion.** -/
theorem holds_sessionDelete (s : ℕ) :
    Attempt.Ensures (Held S J hand) (sessionDelete app s) (fun _ => Held S J hand) Stop.Any := by
  rintro w₀ ⟨k₀, hinv₀, h₀⟩
  -- the stand-in is the next result
  obtain ⟨k, h, hF⟩ := hJ.unsubscribe k₀ hand w₀ h₀
  suffices hdelete : Attempt.Ensures
      (fun w => Holds S (J k) hand w ∧ w.results.next = w₀.results.next) (sessionDelete app s)
      (fun _ => Holds S (J k) hand) Stop.Any from fun r t hrun =>
    ⟨fun a ha => ⟨k, (hdelete w₀ ⟨⟨hinv₀, h⟩, rfl⟩ r t hrun).1 a ha⟩, fun _ _ => trivial⟩
  refine .bind (Place.ensures_read trivial) fun σ => .assume (p := σ.items.Nodup)
    (fun w h => (h.2.1.1.session s σ h.1).nodup_items) fun hnodup =>
    .bind ((Attempt.Ensures.and ((hJ.runs k).close hand s σ)
      ((ensures_closeSession (S := S) s σ).and (ensures_closeSession_next s σ))).imp
      (fun _ h => ⟨⟨h.2.1.1, trivial, h.2.1.2, h.1⟩, ⟨h.2.1.1, h.1⟩, h.2.2⟩) (fun _ _ h => h)
      fun _ _ => trivial) ?_
  rintro (_ | result)
  · exact .pure fun _ h => ⟨h.2.1.1, h.1⟩
  · refine .assume (fun _ h => h.2.2 result rfl) fun hr => ?_
    subst hr
    exact ((hJ.runs k).holds_deletePublishItems app hF σ.items hnodup).imp
      (fun _ h => ⟨⟨h.2.1.1, h.1⟩, h.2.1.2⟩) (fun _ _ h => h) fun _ h => h

end Handlers

/-! ### Steps and runs -/

/-- **Every step conserves the assertion.** -/
theorem holds_step {app : Application} {w w' : World} {act : Act} (h : Held S J hand w)
    (hst : w.step app act = some w') : Held S J hand w' := by
  cases act with
  | sessionCreate =>
    obtain ⟨k, h⟩ := h
    exact ⟨k, after_of_ensures (((hJ.runs k).create hand).always preserves_sessionCreate) h hst⟩
  | inMessage session mem data size fuel =>
    exact after_of_ensures (hJ.holds_sessionHandleInMessage _ app fuel session data size) h hst
  | call call =>
    obtain ⟨k, h⟩ := h
    exact ⟨k, after_of_ensures ((hJ.runs k).holds_performLegal call) h hst⟩
  | sessionDelete session => exact after_of_ensures (hJ.holds_sessionDelete app session) h hst

/-- **What every operation conserves holds in every run**, with nothing in the hand. -/
theorem of_run {app : Application} {sizeT : SizeT} {callbacks : Callback → Bool}
    {malloc : ℕ → Bool} {acts : List Act} {w : World} (hmalloc : S → ∀ n, malloc n = true) (k : K)
    (hcreate : J k 0 (World.create sizeT callbacks malloc))
    (hrun : Transition.Run (World.step app) Transition.anyStep
      (World.create sizeT callbacks malloc) acts w) : Held S J 0 w :=
  hrun.invariant (motive := fun _ w => Held S J 0 w)
    ⟨k, inv_create sizeT callbacks hmalloc, hcreate⟩ fun _ _ _ _ h _ hst => hJ.holds_step h hst

end ConservesKinds

namespace ConservesRuns

variable (hJ : ConservesRuns anyOwed S anyWorld J)
include hJ

theorem holds_step {app : Application} {w w' : World} {act : Act} (h : Holds S J hand w)
    (hst : w.step app act = some w') : Holds S J hand w' :=
  (hJ.kinds.holds_step ⟨(), h⟩ hst).elim fun _ h => h

theorem of_run {app : Application} {sizeT : SizeT} {callbacks : Callback → Bool}
    {malloc : ℕ → Bool} {acts : List Act} {w : World} (hmalloc : S → ∀ n, malloc n = true)
    (hcreate : J 0 (World.create sizeT callbacks malloc))
    (hrun : Transition.Run (World.step app) Transition.anyStep
      (World.create sizeT callbacks malloc) acts w) : Holds S J 0 w :=
  (hJ.kinds.of_run hmalloc () hcreate hrun).elim fun _ h => h

end ConservesRuns

theorem Conserves.of_run (hJ : Conserves S anyWorld J) {app : Application} {sizeT : SizeT}
    {callbacks : Callback → Bool} {malloc : ℕ → Bool} {acts : List Act} {w : World}
    (hmalloc : S → ∀ n, malloc n = true) (hcreate : J 0 (World.create sizeT callbacks malloc))
    (hrun : Transition.Run (World.step app) Transition.anyStep
      (World.create sizeT callbacks malloc) acts w) : Holds S J 0 w :=
  hJ.runs.of_run hmalloc hcreate hrun

end Wpcp
