import Mathlib.Algebra.BigOperators.Group.Multiset.Basic
import Wpcp.Cbor.Writes
import Wpcp.Session.Settled

/-!
# What every operation conserves

An assertion about all runs is proved for a few operations only: those that
`Wpcp.ConservesCalls` lists, of which the calls of the application are made, and those that
`Wpcp.Conserves` adds, of which messages and the deletion of sessions are made. That the
functions of the library are made of them is shown once: of the calls of the application
here.

Such an assertion may speak of what is at stake while a function runs: a reference to a
subscription that the function has taken and not yet given away, or an answer that has still
to be counted. These are tokens (`Wpcp.Token`). The tokens of a function that runs are in its
*hand*; those of the application are in what it owes (`Wpcp.Owed.tokens`).
-/

namespace Wpcp

open Cbor (Value WriteBuffer)

variable {α : Type} {S : Prop}

/-! ### Tokens -/

/-- What has to be used once. -/
inductive Token where
  /-- A reference to a subscription, which is released once. -/
  | reference (subscription : ℕ)
  /-- An answer to an item of a request, which `remaining` of the result counts. -/
  | answer (result : ℕ)
  /-- An answer that `remaining_subresults` of the result counts. -/
  | subanswer (result : ℕ)
  /-- A publish item whose session is no more, and which is released once. -/
  | orphan (item : ℕ)
  deriving DecidableEq

/-- The reference to a subscription that may be the null pointer. -/
def reference (subscription : Option ℕ) : Multiset Token :=
  subscription.elim 0 fun k => {.reference k}

/-- The publish items of a session that is no more. -/
def orphans (items : List ℕ) : Multiset Token := items.map Token.orphan

@[simp] theorem orphans_nil : orphans [] = 0 := rfl

@[simp] theorem orphans_cons (item : ℕ) (items : List ℕ) :
    orphans (item :: items) = .orphan item ::ₘ orphans items := rfl

/-- What the application uses when it does what it owes. -/
def Owed.tokens : Owed → Multiset Token
  | .item result => {.answer result}
  | .subscribe result subscription => {.answer result, .reference subscription}
  | .unanswerable result => {.answer result}
  | .unsubscribe result subscription => .answer result ::ₘ reference subscription
  | .subitem result => {.subanswer result}
  | .alias subscription => {.reference subscription}

/-- The tokens of all that is owed. -/
def owedTokens (owed : List Owed) : Multiset Token := (owed.map Owed.tokens).sum

@[simp] theorem owedTokens_nil : owedTokens [] = 0 := rfl

@[simp] theorem owedTokens_cons (o : Owed) (owed : List Owed) :
    owedTokens (o :: owed) = o.tokens + owedTokens owed := by simp [owedTokens]

@[simp] theorem owedTokens_append (owed owed' : List Owed) :
    owedTokens (owed ++ owed') = owedTokens owed + owedTokens owed' := by
  rw [owedTokens, List.map_append, List.sum_append]
  rfl

theorem owedTokens_replicate_subitem (count result : ℕ) :
    owedTokens (List.replicate count (.subitem result)) =
      Multiset.replicate count (.subanswer result) := by
  induction count with
  | zero => rfl
  | succ count ih =>
    rw [List.replicate_succ, owedTokens_cons, ih, Multiset.replicate_succ, Owed.tokens,
      Multiset.singleton_add]

/-- What is taken out of what is owed leaves the rest. -/
theorem owedTokens_erase {o : Owed} {owed : List Owed} (h : o ∈ owed) :
    o.tokens + owedTokens (owed.erase o) = owedTokens owed := by
  rw [← owedTokens_cons]
  exact (List.Perm.sum_eq ((List.perm_cons_erase h).map Owed.tokens)).symm

/-! ### Operations -/

/-- The part of `wpcp_return_subscribe_internal` that uses the reference up: an id is found,
and the item with it requested. -/
def acceptSubscription (result session subscription : ℕ) : Calls (ℕ × Option ℕ) := do
  let id ← sessionGetNextFreePublishId session
  let item ← requestBlockedPublishItem result session subscription id
  pure (id, item)

/-- The rest of `wpcp_return_subscribe_internal`. -/
def answerSubscription (result : ℕ) (diagnosticInfo : Option (Value (List UInt8)))
    (subscription : ℕ) : ℕ × Option ℕ → Calls Bool
  | (_, none) => do
    resultAddUnsignedInteger result diagnosticInfo 0
    pure false
  | (id, some publishItem) => do
    resultAddUnsignedInteger result diagnosticInfo id
    let list ← malloc
    if list then do
      let list ← republishHandles.new publishItem
      emit (.republish list subscription) []
      pure true
    else pure false

theorem returnSubscribeInternal_eq (result : ℕ) (diagnosticInfo : Option (Value (List UInt8)))
    (subscription : ℕ) :
    returnSubscribeInternal result diagnosticInfo subscription =
      results.read result >>= fun ret => ret.session.elim (Attempt.fail .dangling) fun session =>
        acceptSubscription result session subscription >>=
          answerSubscription result diagnosticInfo subscription := by
  unfold returnSubscribeInternal acceptSubscription
  congr 1
  funext ret
  cases ret.session with
  | none => rfl
  | some session =>
    simp only [Attempt.bind_assoc, Option.elim_some]
    congr 1
    funext id
    congr 1
    funext item
    cases item with
    | none => rfl
    | some item => rfl

theorem settled_acceptSubscription (r s k : ℕ) : Settled (acceptSubscription r s k) :=
  .bind (settled_sessionGetNextFreePublishId s) fun id =>
    .bind (settled_requestBlockedPublishItem r s k id) fun _ => .pure _

theorem ensures_acceptSubscription (r s k : ℕ) :
    Attempt.Ensures (fun w => w.Inv S none none ∧ World.Waits r s w.results)
      (acceptSubscription r s k) (fun _ => World.Inv S none none) Stop.Fair :=
  .bind (ensures_sessionGetNextFreePublishId (F := World.Waits r s) s) fun id =>
    .bind (ensures_requestBlockedPublishItem r s k id) fun _ => .pure fun _ h => h

/-- An item that is accepted is registered. -/
theorem ensures_acceptSubscription_isRegistered (r s k : ℕ) :
    Attempt.Ensures (fun w => (w.sessions.get s).isSome) (acceptSubscription r s k)
      (fun p w => ∀ it, p.2 = some it → w.IsRegistered it) Stop.Any :=
  .bind ((settled_sessionGetNextFreePublishId s).keeps_alive s) fun id =>
    .bind (ensures_requestBlockedPublishItem_isRegistered r s k id) fun _ => .pure fun _ h => h

section Conserves

variable (F : Owed → Prop) (S : Prop) (I J : Multiset Token → World → Prop)

/-- An operation takes the assertion `J` from one hand to another, given the invariant, the
assertion `I` and the condition `P`. -/
def Moves (P : World → Prop) (hand : Multiset Token) (m : Calls α)
    (hand' : α → Multiset Token) : Prop :=
  Attempt.Ensures (fun w => w.Inv S none none ∧ I hand w ∧ J hand w ∧ P w) m
    (fun a => J (hand' a)) Stop.Any

/-- The events with which the application is called. -/
def Event.isCallback : Event → Bool
  | .requestSubscription .. | .item .. | .unsubscribe .. | .republish .. => true
  | .published .. | .released .. | .handedOut .. => false

/-- The predicate on what is owed that says nothing. -/
abbrev anyOwed (_ : Owed) : Prop := True

/-- **An assertion that the calls of the application conserve**, operation by operation, given
another one; of a subscription that is accepted nothing is said. All that is owed has `F`, and
the operations may rely on it. -/
structure ConservesBase : Prop where
  fits : ∀ hand w, I hand w → J hand w → ∀ o ∈ w.owed, F o := by exact fun _ _ _ _ _ _ => trivial
  malloc : ∀ hand w malloc, J hand w → ((∀ n, w.malloc n = true) → ∀ n, malloc n = true) →
    J hand { w with malloc := malloc }
  retain : ∀ hand k, Moves S I J (fun _ => True) hand (retainSubscription k)
    fun ret => .reference ret ::ₘ hand
  release : ∀ hand k, Moves S I J (fun _ => True) (.reference k ::ₘ hand) (releaseSubscription k)
    fun _ => hand
  write : ∀ hand r f, WriteBuffer.Encodes f →
    Moves S I J (fun _ => True) hand (writeResult r f) fun _ => hand
  answer : ∀ hand r, Moves S I J (fun _ => True) (.answer r ::ₘ hand) (releaseResult r)
    fun _ => hand
  announce : ∀ hand r count, count < 2 ^ 32 →
    Moves S I J (fun _ => True) (.answer r ::ₘ hand)
      (do
        modifyWorld fun w => { w with owed := w.owed ++ List.replicate count (.subitem r) }
        requestSubresult r count) fun _ => hand
  subanswer : ∀ hand r, Moves S I J (fun _ => True) (.subanswer r ::ₘ hand) (releaseSubresult r)
    fun _ => hand
  dummy : ∀ hand r, Moves S I J
    (fun w => (∃ k, F (.unsubscribe r k)) ∧ ∃ ret, w.results.get r = some ret ∧ ret.session = none)
    (.answer r ::ₘ hand) (releaseDummyUnsubscribeResult r) fun _ => hand
  owe : ∀ hand event owed, event.isCallback = true →
    Moves S I J (fun _ => ∀ o ∈ owed, F o) (owedTokens owed + hand) (emit event owed) fun _ => hand
  redeem : ∀ hand o, Moves S I J (fun w => o ∈ w.owed) hand
    (modifyWorld fun w => { w with owed := w.owed.erase o }) fun _ => o.tokens + hand
  oweAlias : ∀ hand k, Moves S I J (fun _ => True) (.reference k ::ₘ hand)
    (modifyWorld fun w => { w with owed := .alias k :: w.owed }) fun _ => hand
  freeRepublish : ∀ hand handle, Moves S I J (fun _ => True) hand (republishHandles.free handle)
    fun _ => hand
  publish : ∀ hand handle item, Moves S I J (fun w => (Call.publish handle item).Available w) hand
    (Call.publish handle item).perform fun _ => hand
  take : ∀ hand s, Moves S I J (fun w => w.HasOutMessage s) hand (sessionOutMessageCreate s)
    fun _ => hand
  slots : ∀ hand s count, count < 2 ^ 32 →
    Moves S I J (fun _ => True) hand (sessionAddFreePublishSlots s count) fun _ => hand

/-- **An assertion that the calls of the application conserve**, given another one: a subscription
is accepted in two operations, with the answer between them. -/
structure ConservesCalls : Prop extends ConservesBase anyOwed S I J where
  accept : ∀ hand r s k, Moves S I J (fun w => World.Waits r s w.results) (.reference k ::ₘ hand)
    (acceptSubscription r s k) fun _ => hand
  newRepublish : ∀ hand it, Moves S I J (fun w => w.IsRegistered it) hand (republishHandles.new it)
    fun _ => hand

/-- An assertion that the calls of the application conserve, given another one: a subscription is
accepted and answered in one. -/
structure ConservesAnswers : Prop extends ConservesBase F S I J where
  subscribe : ∀ hand r diagnosticInfo k, Moves S I J (fun _ => ∃ k, F (.subscribe r k))
    (.answer r ::ₘ .reference k ::ₘ hand) (returnSubscribeInternal r diagnosticInfo k) fun _ => hand

/-- What messages and the deletion of sessions add. -/
structure ConservesSessions : Prop where
  request : ∀ hand type key, Moves S I J (fun _ => True) hand (requestSubscription type key)
    fun k => reference k + hand
  append : ∀ hand s messageId requestId payloadCount buffer,
    (∃ malloc, (WriteBuffer.init malloc).Writes buffer) → Moves S I J (fun _ => True) hand
      (sessionAppendOutMessage s messageId requestId payloadCount buffer []) fun _ => hand
  requestResult : ∀ hand s requestId count, count ≠ 0 → count < 2 ^ 32 →
    Moves S I J (fun _ => True) hand (requestResult s requestId count)
      fun r => r.elim hand fun r => Multiset.replicate count (.answer r) + hand
  unsubscribe : ∀ hand s id, Moves S I J (fun _ => True) hand (unsubscribeItem s id)
    fun k => reference k + hand
  create : ∀ hand, Moves S I J (fun _ => True) hand sessionCreate fun _ => hand
  hello : ∀ hand s σ, Moves S I J (fun w => w.sessions.get s = some σ) hand
    (sessions.write s { σ with helloFinished := true }) fun _ => hand
  close : ∀ hand s σ, Moves S I J (fun w => w.sessions.get s = some σ) hand (closeSession s σ)
    fun r => r.elim hand fun r => Multiset.replicate σ.items.length (.answer r) +
      (orphans σ.items + hand)
  deleteItem : ∀ hand it, Moves S I J
    (fun w => ∃ i, w.publishItems.get it = some i ∧ w.sessions.get i.session = none)
    (.orphan it ::ₘ hand) (deletePublishItem it) fun k => .reference k ::ₘ hand

/-- **An assertion that every operation conserves**, given another one. -/
structure Conserves : Prop extends ConservesCalls S I J, ConservesSessions S I J

/-- An assertion that every operation conserves, and the acceptance of a subscription as one. -/
structure ConservesRuns : Prop extends ConservesAnswers F S I J, ConservesSessions S I J

end Conserves

/-- The assertion that says nothing. -/
abbrev anyWorld (_ : Multiset Token) (_ : World) : Prop := True

variable {F G : Owed → Prop} {I J : Multiset Token → World → Prop}

theorem Moves.and {P P' : World → Prop} {hand : Multiset Token} {m : Calls α}
    {hand' : α → Multiset Token} (hI : Moves S anyWorld I P' hand m hand')
    (hJ : Moves S I J P hand m hand') (hP : ∀ w, P w → P' w := by exact fun _ h => h) :
    Moves S anyWorld (fun hand w => I hand w ∧ J hand w) P hand m hand' :=
  (Attempt.Ensures.and hI hJ).imp
    (fun w h => ⟨⟨h.1, trivial, h.2.2.1.1, hP w h.2.2.2⟩, h.1, h.2.2.1.1, h.2.2.1.2, h.2.2.2⟩)
    (fun _ _ h => h) fun _ _ => trivial

theorem ConservesBase.and (hI : ConservesBase G S anyWorld I) (hJ : ConservesBase F S I J)
    (hG : ∀ o, F o → G o) :
    ConservesBase F S anyWorld fun hand w => I hand w ∧ J hand w where
  fits hand w _ h := hJ.fits hand w h.1 h.2
  malloc hand w malloc h hm := ⟨hI.malloc hand w malloc h.1 hm, hJ.malloc hand w malloc h.2 hm⟩
  retain hand k := (hI.retain hand k).and (hJ.retain hand k)
  release hand k := (hI.release hand k).and (hJ.release hand k)
  write hand r f hf := (hI.write hand r f hf).and (hJ.write hand r f hf)
  answer hand r := (hI.answer hand r).and (hJ.answer hand r)
  announce hand r count h := (hI.announce hand r count h).and (hJ.announce hand r count h)
  subanswer hand r := (hI.subanswer hand r).and (hJ.subanswer hand r)
  dummy hand r := (hI.dummy hand r).and (hJ.dummy hand r) fun _ h =>
    ⟨h.1.imp fun _ hF => hG _ hF, h.2⟩
  owe hand event owed h := (hI.owe hand event owed h).and (hJ.owe hand event owed h)
    fun _ hF o ho => hG o (hF o ho)
  redeem hand o := (hI.redeem hand o).and (hJ.redeem hand o)
  oweAlias hand k := (hI.oweAlias hand k).and (hJ.oweAlias hand k)
  freeRepublish hand handle := (hI.freeRepublish hand handle).and (hJ.freeRepublish hand handle)
  publish hand handle item := (hI.publish hand handle item).and (hJ.publish hand handle item)
  take hand s := (hI.take hand s).and (hJ.take hand s)
  slots hand s count h := (hI.slots hand s count h).and (hJ.slots hand s count h)

theorem ConservesCalls.and (hI : ConservesCalls S anyWorld I) (hJ : ConservesCalls S I J) :
    ConservesCalls S anyWorld fun hand w => I hand w ∧ J hand w where
  toConservesBase := hI.toConservesBase.and hJ.toConservesBase fun _ h => h
  accept hand r s k := (hI.accept hand r s k).and (hJ.accept hand r s k)
  newRepublish hand it := (hI.newRepublish hand it).and (hJ.newRepublish hand it)

theorem ConservesSessions.and (hI : ConservesSessions S anyWorld I) (hJ : ConservesSessions S I J) :
    ConservesSessions S anyWorld fun hand w => I hand w ∧ J hand w where
  request hand type key := (hI.request hand type key).and (hJ.request hand type key)
  append hand s messageId requestId payloadCount buffer h :=
    (hI.append hand s messageId requestId payloadCount buffer h).and
      (hJ.append hand s messageId requestId payloadCount buffer h)
  requestResult hand s requestId count h h' :=
    (hI.requestResult hand s requestId count h h').and
    (hJ.requestResult hand s requestId count h h')
  unsubscribe hand s id := (hI.unsubscribe hand s id).and (hJ.unsubscribe hand s id)
  create hand := (hI.create hand).and (hJ.create hand)
  hello hand s σ := (hI.hello hand s σ).and (hJ.hello hand s σ)
  close hand s σ := (hI.close hand s σ).and (hJ.close hand s σ)
  deleteItem hand it := (hI.deleteItem hand it).and (hJ.deleteItem hand it)

/-- **What is conserved given an assertion that is conserved, is conserved with it.** -/
theorem Conserves.and (hI : Conserves S anyWorld I) (hJ : Conserves S I J) :
    Conserves S anyWorld fun hand w => I hand w ∧ J hand w where
  toConservesCalls := hI.toConservesCalls.and hJ.toConservesCalls
  toConservesSessions := hI.toConservesSessions.and hJ.toConservesSessions

theorem ConservesRuns.and (hI : ConservesRuns G S anyWorld I) (hJ : ConservesRuns F S I J)
    (hG : ∀ o, F o → G o := by exact fun _ h => h) :
    ConservesRuns F S anyWorld fun hand w => I hand w ∧ J hand w where
  toConservesBase := hI.toConservesBase.and hJ.toConservesBase hG
  subscribe hand r diagnosticInfo k :=
    (hI.subscribe hand r diagnosticInfo k).and (hJ.subscribe hand r diagnosticInfo k)
      fun _ h => h.imp fun _ hF => hG _ hF
  toConservesSessions := hI.toConservesSessions.and hJ.toConservesSessions

/-! ### The calls of the application -/

/-- The invariant and an assertion hold. -/
def Holds (S : Prop) (J : Multiset Token → World → Prop) (hand : Multiset Token)
    (w : World) : Prop :=
  w.Inv S none none ∧ J hand w

section Moves

variable {P P' : World → Prop} {R : α → World → Prop} {hand : Multiset Token} {m : Calls α}
  {hand' : α → Multiset Token} {E : Stop → Prop}

/-- An operation that conserves an assertion and keeps the invariant, and what else is known
of it. -/
theorem Moves.holdsWith (hJ : Moves S anyWorld J P hand m hand')
    (hm : Attempt.Ensures (fun w => w.Inv S none none ∧ P' w) m
      (fun a w => w.Inv S none none ∧ R a w) E) (hP : ∀ w, P' w → P w) :
    Attempt.Ensures (fun w => Holds S J hand w ∧ P' w) m
      (fun a w => Holds S J (hand' a) w ∧ R a w) Stop.Any :=
  (hm.and hJ).imp (fun w h => ⟨⟨h.1.1, h.2⟩, h.1.1, trivial, h.1.2, hP w h.2⟩)
    (fun _ _ h => ⟨⟨h.1.1, h.2⟩, h.1.2⟩) fun _ _ => trivial

theorem Moves.holds (hJ : Moves S anyWorld J P hand m hand')
    (hm : Attempt.Ensures (fun w => w.Inv S none none ∧ P w) m
      (fun _ => World.Inv S none none) E) :
    Attempt.Ensures (fun w => Holds S J hand w ∧ P w) m (fun a => Holds S J (hand' a)) Stop.Any :=
  (hJ.holdsWith (R := fun _ _ => True) (hm.imp (fun _ h => h) (fun _ _ h => ⟨h, trivial⟩)
    fun _ h => h) fun _ h => h).imp (fun _ h => h) (fun _ _ h => h.1) fun _ h => h

/-- What an operation asks for is known. -/
theorem Moves.sure {p : Prop} (hJ : Moves S I J (fun _ => p) hand m hand') (hp : p) :
    Moves S I J (fun _ => True) hand m hand' :=
  hJ.imp (fun _ h => ⟨h.1, h.2.1, h.2.2.1, hp⟩) (fun _ _ h => h) fun _ h => h

/-- An operation that asks for nothing more. -/
theorem Moves.always (hJ : Moves S anyWorld J (fun _ => True) hand m hand')
    (hm : Preserves S m) :
    Attempt.Ensures (Holds S J hand) m (fun a => Holds S J (hand' a)) Stop.Any :=
  (hJ.holds (hm.imp (fun _ h => h.1) (fun _ _ h => h) fun _ h => h)).imp (fun _ h => ⟨h, trivial⟩)
    (fun _ _ h => h) fun _ h => h

end Moves

theorem holds_getWorld {hand : Multiset Token} :
    Attempt.Ensures (Holds S J hand) getWorld (fun _ => Holds S J hand) Stop.Any :=
  ensures_getWorld.imp (fun _ h => h) (fun _ _ h => h.2) fun _ h => h

namespace ConservesBase

variable (hJ : ConservesBase F S anyWorld J) {hand : Multiset Token}
include hJ

theorem holds_malloc :
    Attempt.Ensures (Holds S J hand) Wpcp.malloc (fun _ => Holds S J hand) Stop.Any := by
  intro w hw r t hrun
  have hinv := (Inert.malloc.preserves w hw.1 r t hrun).1
  obtain ⟨rfl, rfl⟩ := Prod.mk.inj (Option.some.inj hrun)
  exact ⟨fun a ha => ⟨hinv a ha, hJ.malloc hand w _ hw.2 fun hm n => hm (n + 1)⟩,
    fun _ _ => trivial⟩

theorem holds_addDiagnosticInfo (r : ℕ) (diagnosticInfo : Option (Value (List UInt8))) :
    Attempt.Ensures (Holds S J hand) (resultAddDiagnosticInfo r diagnosticInfo)
      (fun _ => Holds S J hand) Stop.Any := by
  refine .bind holds_getWorld fun w => ?_
  cases diagnosticInfo with
  | none =>
    exact (hJ.write hand r _ (WriteBuffer.encodes_writeNull)).always (preserves_writeResult r _)
  | some value =>
    exact (hJ.write hand r _ (WriteBuffer.encodes_writeWpcpValue w.sizeT value)).always
      (preserves_writeResult r _)

theorem holds_addUnsignedInteger (r : ℕ) (diagnosticInfo : Option (Value (List UInt8)))
    (value : ℕ) :
    Attempt.Ensures (Holds S J (.answer r ::ₘ hand))
      (resultAddUnsignedInteger r diagnosticInfo value) (fun _ => Holds S J hand) Stop.Any :=
  .bind (hJ.holds_addDiagnosticInfo r diagnosticInfo) fun _ =>
    .bind ((hJ.write _ r _ (WriteBuffer.encodes_writeUnsignedInteger value)).always
      (preserves_writeResult r _)) fun _ =>
    (hJ.answer hand r).always (preserves_releaseResult r)

theorem holds_addValue (r : ℕ) (diagnosticInfo : Option (Value (List UInt8)))
    (value : Value (List UInt8)) :
    Attempt.Ensures (Holds S J (.answer r ::ₘ hand)) (resultAddValue r diagnosticInfo value)
      (fun _ => Holds S J hand) Stop.Any :=
  .bind (hJ.holds_addDiagnosticInfo r diagnosticInfo) fun _ => .bind holds_getWorld fun w =>
    .bind ((hJ.write _ r _ (WriteBuffer.encodes_writeWpcpValue w.sizeT value)).always
      (preserves_writeResult r _)) fun _ =>
    (hJ.answer hand r).always (preserves_releaseResult r)

end ConservesBase

/-- **Accepting a subscription uses its reference and the answer.** -/
theorem ConservesCalls.holds_returnSubscribeInternal (hJ : ConservesCalls S anyWorld J)
    {hand : Multiset Token} (r : ℕ)
    (diagnosticInfo : Option (Value (List UInt8))) (subscription : ℕ) :
    Attempt.Ensures (Holds S J (.answer r ::ₘ .reference subscription ::ₘ hand))
      (returnSubscribeInternal r diagnosticInfo subscription) (fun _ => Holds S J hand)
      Stop.Any := by
  rw [returnSubscribeInternal_eq]
  refine .bind (Place.ensures_read trivial) fun ret => ?_
  cases hs : ret.session with
  | none => exact .fail trivial
  | some s =>
    refine .bind (Q := fun p w => Holds S J (.answer r ::ₘ hand) w ∧
      ∀ it, p.2 = some it → w.IsRegistered it) ?_ ?_
    · refine (((hJ.accept (.answer r ::ₘ hand) r s subscription).holds
        (ensures_acceptSubscription r s subscription)).and
        (ensures_acceptSubscription_isRegistered r s subscription)).imp ?_
        (fun _ _ h => h) fun _ _ => trivial
      rintro w ⟨hr, hw⟩
      rw [Multiset.cons_swap] at hw
      obtain ⟨σ, hσ, -⟩ := hw.1.waiting r ret s hr hs nofun
      exact ⟨⟨hw, ret, hr, hs⟩, Option.isSome_iff_exists.mpr ⟨σ, hσ⟩⟩
    · rintro ⟨id, _ | it⟩
      · exact .bind ((hJ.holds_addUnsignedInteger r diagnosticInfo 0).imp (fun _ h => h.1)
          (fun _ _ h => h) fun _ h => h) fun _ => .pure fun _ h => h
      · refine .bind (((hJ.holds_addUnsignedInteger r diagnosticInfo id).and
          ((settled_resultAddUnsignedInteger r diagnosticInfo id).keeps_isRegistered it)).imp
          (fun w h => ⟨h.1, h.2 it rfl⟩) (fun _ _ h => h) fun _ _ => trivial) fun _ => .bind
          ((hJ.holds_malloc.and (Inert.malloc.settled.keeps_isRegistered it)).imp (fun _ h => h)
            (fun _ _ h => h) fun _ _ => trivial) fun list => .ite (fun _ => ?_) fun _ =>
          .pure fun _ h => h.1
        refine .bind ((hJ.newRepublish hand it).holds
          ((Inert.new_republishHandles it).preserves.imp (fun _ h => h.1) (fun _ _ h => h)
            fun _ h => h)) fun handle => .bind ?_ fun _ => .pure fun _ h => h
        exact (((hJ.owe hand (.republish handle subscription) [] rfl).sure nofun).always
          (Inert.emit _ _).preserves).imp (fun _ h => by simpa using h) (fun _ _ h => h)
          fun _ h => h

/-- An assertion that the parts conserve is conserved by the whole. -/
theorem ConservesCalls.answers (hJ : ConservesCalls S anyWorld J) :
    ConservesAnswers anyOwed S anyWorld J where
  toConservesBase := hJ.toConservesBase
  subscribe _ r diagnosticInfo k := (hJ.holds_returnSubscribeInternal r diagnosticInfo k).imp
    (fun _ h => ⟨h.1, h.2.2.1⟩) (fun _ _ h => h.2) fun _ h => h

theorem Conserves.runs (hJ : Conserves S anyWorld J) : ConservesRuns anyOwed S anyWorld J where
  toConservesAnswers := hJ.toConservesCalls.answers
  toConservesSessions := hJ.toConservesSessions

namespace ConservesAnswers

variable (hJ : ConservesAnswers F S anyWorld J) {hand : Multiset Token}
include hJ

/-- **A call of the application conserves the assertion**: it uses what the application has
owed for it. -/
theorem holds_perform (call : Call) (hF : ∀ o ∈ call.owed, F o) :
    Attempt.Ensures
      (fun w => Holds S J (call.owed.elim 0 Owed.tokens + hand) w ∧ call.Available w)
      call.perform (fun _ => Holds S J hand) Stop.Any := by
  cases call with
  | subscribeAccept r diagnosticInfo subscription =>
    have hsubscribe : ∃ k, F (.subscribe r k) := ⟨subscription, hF _ rfl⟩
    refine .bind ((((hJ.subscribe hand r diagnosticInfo subscription).sure hsubscribe).always
      (preserves_returnSubscribeInternal r diagnosticInfo subscription)).imp
      (fun w h => ?_) (fun _ _ h => h) fun _ h => h) fun _ => .pure fun _ h => h
    simpa [Call.owed, Owed.tokens] using h.1
  | subscribeAlias r diagnosticInfo subscription other =>
    have hsubscribe : ∃ k, F (.subscribe r k) := ⟨subscription, hF _ rfl⟩
    refine .bind (Place.ensures_read trivial) fun s => .bind (Place.ensures_read trivial)
      fun o => .bind (Q := fun _ => Holds S J (.answer r ::ₘ .reference subscription ::ₘ hand))
      ?_ fun _ => .bind ((hJ.retain _ other).always (inert_retainSubscription other).preserves)
      fun k => ?_
    · refine .ite (fun _ => .pure fun w h => ?_) fun _ => .fail trivial
      simpa [Call.owed, Owed.tokens] using h.2.2.1
    refine .bind ((((hJ.subscribe _ r diagnosticInfo k).sure hsubscribe).always
      (preserves_returnSubscribeInternal r diagnosticInfo k)).imp (fun w h => ?_)
      (fun _ _ h => h) fun _ h => h) fun _ => (hJ.oweAlias hand subscription).always
        (inert_owed fun owed => .alias subscription :: owed).preserves
    rw [Multiset.cons_swap] at h
    exact h
  | aliasReturned subscription =>
    exact ((hJ.release hand subscription).always (inert_releaseSubscription _).preserves).imp
      (fun w h => by simpa [Call.owed, Owed.tokens] using h.1) (fun _ _ h => h) fun _ h => h
  | subscribeReject r diagnosticInfo subscription =>
    refine .bind (Place.ensures_read trivial) fun ret => ?_
    cases ret.session with
    | none => exact .fail trivial
    | some s =>
      refine .bind ((hJ.holds_addUnsignedInteger r diagnosticInfo 0).imp (fun w h => ?_)
        (fun _ _ h => h) fun _ h => h) fun _ =>
        (hJ.release hand subscription).always (inert_releaseSubscription _).preserves
      simpa [Call.owed, Owed.tokens] using h.2.1
  | unsubscribe r diagnosticInfo subscription =>
    refine .bind (Q := fun _ => Holds S J (.answer r ::ₘ hand)) ?_ fun _ =>
      .bind (Place.ensures_read trivial) fun ret => ?_
    · cases subscription with
      | none => exact .pure fun w h => by simpa [Call.owed, Owed.tokens, reference] using h.1
      | some k =>
        refine ((hJ.release (.answer r ::ₘ hand) k).always
          (inert_releaseSubscription k).preserves).imp (fun w h => ?_) (fun _ _ h => h) fun _ h => h
        rw [Multiset.cons_swap]
        simpa [Call.owed, Owed.tokens, reference] using h.1
    · cases hs : ret.session with
      | none =>
        have hinv : Attempt.Ensures (fun w => w.Inv S none none ∧ (∃ k, F (.unsubscribe r k)) ∧
            ∃ ret, w.results.get r = some ret ∧ ret.session = none)
            (releaseDummyUnsubscribeResult r) (fun _ => World.Inv S none none) Stop.Fair :=
          (ensures_releaseDummyUnsubscribeResult r).imp (fun _ h => ⟨h.1, h.2.2⟩)
            (fun _ _ h => h) fun _ h => h
        exact ((hJ.dummy hand r).holds hinv).imp
          (fun w h => ⟨h.2, ⟨subscription, hF _ rfl⟩, ret, h.1, hs⟩) (fun _ _ h => h) fun _ h => h
      | some s =>
        exact (hJ.holds_addValue r diagnosticInfo _).imp (fun _ h => h.2) (fun _ _ h => h)
          fun _ h => h
  | value r diagnosticInfo answer =>
    exact (hJ.holds_addValue r diagnosticInfo answer).imp
      (fun w h => by simpa [Call.owed, Owed.tokens] using h.1) (fun _ _ h => h) fun _ h => h
  | item r diagnosticInfo answer =>
    refine .bind ((hJ.holds_addDiagnosticInfo r diagnosticInfo).imp (fun _ h => h.1)
      (fun _ _ h => h) fun _ h => h) fun _ => .bind holds_getWorld fun w =>
      .bind ((hJ.write _ r _ (answer.encodes_write w.sizeT)).always (preserves_writeResult r _))
      fun _ => ?_
    exact ((hJ.answer hand r).always (preserves_releaseResult r)).imp
      (fun w h => by simpa [Call.owed, Owed.tokens] using h) (fun _ _ h => h) fun _ h => h
  | items r diagnosticInfo count =>
    refine .assume (fun w h => h.2) fun hcount => ?_
    refine .bind ((hJ.holds_addDiagnosticInfo r diagnosticInfo).imp (fun _ h => h.1)
      (fun _ _ h => h) fun _ h => h) fun _ => ?_
    refine ((hJ.announce hand r count hcount).always ?_).imp
      (fun w h => by simpa [Call.owed, Owed.tokens] using h) (fun _ _ h => h) fun _ h => h
    exact .bind (inert_owed fun owed => owed ++ List.replicate count (.subitem r)).preserves
      fun _ => preserves_requestSubresult r count
  | subitem r answer =>
    refine .bind (holds_getWorld.imp (fun _ h => h.1) (fun _ _ h => h) fun _ h => h) fun w =>
      .bind ((hJ.write _ r _ (answer.encodes_write w.sizeT)).always (preserves_writeResult r _))
      fun _ => ?_
    exact ((hJ.subanswer hand r).always (preserves_releaseSubresult r)).imp
      (fun w h => by simpa [Call.owed, Owed.tokens] using h) (fun _ _ h => h) fun _ h => h
  | publish handle answer =>
    exact ((hJ.publish hand handle answer).holds (Call.ensures_perform _)).imp
      (fun w h => by simpa [Call.owed] using h) (fun _ _ h => h) fun _ h => h
  | republish handle =>
    exact ((hJ.freeRepublish hand handle).always (Inert.free_republishHandles _).preserves).imp
      (fun w h => by simpa [Call.owed] using h.1) (fun _ _ h => h) fun _ h => h
  | outMessageCreate s =>
    refine .bind (((hJ.take hand s).holds (ensures_sessionOutMessageCreate s)).imp
      (fun w h => ⟨by simpa [Call.owed] using h.1, ?_⟩) (fun _ _ h => h) fun _ h => h)
      fun _ => .pure fun _ h => h
    exact World.hasOutMessage_of_any h.2
  | addFreePublishSlots s count =>
    refine .assume (fun w h => h.2.2) fun hcount => ?_
    exact ((hJ.slots hand s count hcount).always (ensures_sessionAddFreePublishSlots s count)).imp
      (fun w h => by simpa [Call.owed] using h.1) (fun _ _ h => h) fun _ h => h

/-- A call that the application may make conserves the assertion. -/
theorem holds_performLegal (call : Call) :
    Attempt.Ensures (Holds S J hand) call.performLegal (fun _ => Holds S J hand) Stop.Any := by
  refine .bind ensures_getWorld fun w => .ite (fun hlegal => ?_) fun _ => .pure fun _ h => h.2
  refine .assume (p := ∀ o ∈ call.owed, F o) ?_ fun hF => .bind (Q := fun _ w =>
    Holds S J (call.owed.elim 0 Owed.tokens + hand) w ∧ call.Available w) ?_ fun _ =>
    hJ.holds_perform call hF
  · rintro w' ⟨rfl, hw⟩ o ho
    exact hJ.fits hand w trivial hw.2 o (hlegal.1 o ho)
  cases howed : call.owed with
  | none =>
    refine ensures_modifyWorld ?_
    rintro w' ⟨rfl, hw⟩
    exact ⟨by simpa using hw, hlegal.2⟩
  | some o =>
    refine (((hJ.redeem hand o).holds ((inert_owed fun owed => owed.erase o).preserves.imp
      (fun _ h => h.1) (fun _ _ h => h) fun _ h => h)).and
      (ensures_modifyWorld (P := fun w => call.Available w) (E := Stop.Any)
        (Q := fun _ w => call.Available w) fun _ h => Call.available_owed h)).imp ?_
      (fun _ _ h => h) fun _ _ => trivial
    rintro w' ⟨rfl, hw⟩
    exact ⟨⟨hw, hlegal.1 o (by simp [howed])⟩, hlegal.2⟩

theorem holds_performAll (l : List Call) :
    Attempt.Ensures (Holds S J hand) (performAll l) (fun _ => Holds S J hand) Stop.Any := by
  induction l with
  | nil => exact .pure fun _ h => h
  | cons call rest ih => exact .bind (hJ.holds_performLegal call) fun _ => ih

/-- **A callback of the application conserves the assertion**; what it leaves to answer it
takes from the hand. -/
theorem holds_callback (app : Application) {event : Event} (owed : List Owed)
    (hevent : event.isCallback = true) (hF : ∀ o ∈ owed, F o) :
    Attempt.Ensures (Holds S J (owedTokens owed + hand)) (callback app event owed)
      (fun _ => Holds S J hand) Stop.Any :=
  .bind (((hJ.owe hand event owed hevent).sure hF).always (Inert.emit _ _).preserves) fun _ =>
    .bind holds_getWorld fun w => hJ.holds_performAll (app w)

end ConservesAnswers

end Wpcp
