import Wpcp.Session.Counters

/-!
# What a result is for

A result is allocated for a request to unsubscribe, for a request of another kind, or as the
stand-in of a session. What the application owes for it is accordingly an answer to an element of an
unsubscribe message, or to an item. The source does not record which results are for
unsubscribing; it is settled when a result is allocated, and **nothing ever owed contradicts it**
(`Wpcp.conservesKinds_plain`). A result that is for unsubscribing is *plain*: it never accepts
an item.
-/

namespace Wpcp

open Cbor (Value)

variable {S : Prop} {w : World} {plain : ℕ → Prop} {r : ℕ}

/-! ### Plain results -/

/-- What is owed goes with what its result is for. -/
def Owed.Fits (plain : ℕ → Prop) : Owed → Prop
  | .item result => ¬plain result
  | .subscribe result _ => ¬plain result
  | .unanswerable result => ¬plain result
  | .unsubscribe result _ => plain result
  | .subitem _ => True
  | .alias _ => True

/-- **The results that are plain accept no items**, and what is owed goes with what the results
are for. -/
structure World.Plain (plain : ℕ → Prop) (w : World) : Prop where
  owed : ∀ o ∈ w.owed, o.Fits plain
  items : ∀ r ret, w.results.get r = some ret → plain r → ret.items = []

namespace World.Plain

theorem ignoresAnswers : IgnoresAnswers (World.Plain plain) where
  malloc _ _ h := ⟨h.owed, h.items⟩
  publishData _ _ h := ⟨h.owed, h.items⟩
  events _ _ _ h := ⟨h.owed, h.items⟩
  sessions _ _ _ _ _ _ _ h := ⟨h.owed, h.items⟩
  answerResult w r ret ret' hr hsame h := by
    refine ⟨h.owed, fun k q hq hplain => ?_⟩
    have hq : (w.results.set r ret').get k = some q := hq
    rw [Heap.get_set hr] at hq
    split at hq
    · rename_i heq
      obtain rfl := Option.some.inj hq
      rw [hsame.2]
      exact h.items r ret hr (heq ▸ hplain)
    · exact h.items k q hq hplain
  freeResult w r h := ⟨h.owed, fun k q hq => h.items k q (Heap.get_of_get_free hq).2⟩
  newResult w ret hnil h := by
    refine ⟨h.owed, fun k q hq hplain => ?_⟩
    have hq : (w.results.alloc ret).get k = some q := hq
    rw [Heap.get_alloc] at hq
    split at hq
    · obtain rfl := Option.some.inj hq
      exact hnil
    · exact h.items k q hq hplain

theorem ignoresUnsubscribes : IgnoresUnsubscribes (World.Plain plain) where
  malloc _ _ h := ⟨h.owed, h.items⟩
  subscriptionTable _ _ h := ⟨h.owed, h.items⟩
  subscriptions _ _ h := ⟨h.owed, h.items⟩
  referencesPeak _ _ h := ⟨h.owed, h.items⟩
  itemLinks _ _ h := ⟨h.owed, h.items⟩
  freeItem _ _ h := ⟨h.owed, h.items⟩
  events _ _ _ h := ⟨h.owed, h.items⟩
  sessions _ _ _ _ _ _ h := ⟨h.owed, h.items⟩

/-- Something else is owed. -/
theorem setOwed (h : w.Plain plain) {owed : List Owed} (howed : ∀ o ∈ owed, o.Fits plain) :
    World.Plain plain { w with owed := owed } :=
  ⟨howed, h.items⟩

theorem addOwed (h : w.Plain plain) {owed : List Owed} (howed : ∀ o ∈ owed, o.Fits plain) :
    World.Plain plain { w with owed := w.owed ++ owed } := by
  refine h.setOwed fun o ho => ?_
  rcases List.mem_append.mp ho with ho | ho
  · exact h.owed o ho
  · exact howed o ho

/-- **What the next result is for may be chosen**: nothing is owed for it yet. -/
theorem choose (h : w.Plain plain) {hand : Multiset Token} (hcounted : counted hand w)
    (p : Prop) :
    w.Plain (Function.update plain w.results.next p) where
  owed o ho := by
    have hfits := h.owed o ho
    have hne : ∀ r, Token.answer r ∈ o.tokens → r ≠ w.results.next := by
      rintro r hmem rfl
      have hfresh := (hcounted.fresh w.results.next le_rfl).1
      rw [Multiset.count_eq_zero] at hfresh
      refine hfresh (Multiset.mem_add.mpr (Or.inr ?_))
      rw [← owedTokens_erase ho]
      exact Multiset.mem_add.mpr (Or.inl hmem)
    cases o with
    | item r => rwa [Owed.Fits, Function.update_of_ne (hne r (by simp [Owed.tokens]))]
    | subscribe r k => rwa [Owed.Fits, Function.update_of_ne (hne r (by simp [Owed.tokens]))]
    | unanswerable r => rwa [Owed.Fits, Function.update_of_ne (hne r (by simp [Owed.tokens]))]
    | unsubscribe r k => rwa [Owed.Fits, Function.update_of_ne (hne r (by simp [Owed.tokens]))]
    | _ => trivial
  items r ret hr hplain := by
    have hne : r ≠ w.results.next := by
      rintro rfl
      exact absurd (hr.symm.trans (w.results.fresh _ le_rfl)) (by simp)
    rw [Function.update_of_ne hne] at hplain
    exact h.items r ret hr hplain

end World.Plain

/-! ### Accepting items -/

theorem leaves_setBlockedPublishItem_plain (hr : ¬plain r) (id it : ℕ) :
    Leaves (World.Plain plain) (setBlockedPublishItem r id it) := by
  refine .read_bind fun ret => ?_
  cases ret.blockedItems with
  | none => exact .fail trivial
  | some blocked =>
    refine Place.ensures_write trivial ?_
    rintro w - ⟨hret, h⟩ -
    refine ⟨h.owed, fun k q hq hplain => ?_⟩
    have hq : (w.results.set r _).get k = some q := hq
    rw [Heap.get_set hret] at hq
    split at hq
    · rename_i heq
      exact absurd (heq ▸ hplain) hr
    · exact h.items k q hq hplain

/-- **Only the results that are not plain accept items.** -/
theorem leaves_returnSubscribeInternal_plain (hr : ¬plain r)
    (diagnosticInfo : Option (Value (List UInt8))) (k : ℕ) :
    Leaves (World.Plain plain) (returnSubscribeInternal r diagnosticInfo k) := by
  have hanswers : IgnoresAnswers (World.Plain plain) := World.Plain.ignoresAnswers
  have hsubs : IgnoresUnsubscribes (World.Plain plain) := World.Plain.ignoresUnsubscribes
  have haccept : ∀ s, Leaves (World.Plain plain) (acceptSubscription r s k) := by
    intro s
    refine .bind (hsubs.sessionGetNextFreePublishId s) fun id => .bind (.ite (.pure _)
      (.bind (hanswers.resultGetBlockedPublishItemTarget r) ?_)) fun _ => .pure _
    rintro (_ | target)
    · exact .pure _
    refine .bind (hsubs.sessionRequestPublishItem (fun _ _ h => ⟨h.owed, h.items⟩) s k id) ?_
    rintro (_ | it)
    · exact .pure _
    · exact .bind (leaves_setBlockedPublishItem_plain hr id it) fun _ => .pure _
  have hadd : ∀ value, Leaves (World.Plain plain)
      (resultAddUnsignedInteger r diagnosticInfo value) := fun value =>
    hanswers.resultAddUnsignedInteger r diagnosticInfo value
  rw [returnSubscribeInternal_eq]
  refine .bind (.read _ _) fun ret => ?_
  cases ret.session with
  | none => exact .fail _
  | some s =>
    refine .bind (haccept s) ?_
    rintro ⟨id, _ | it⟩
    · exact .bind (hadd 0) fun _ => .pure _
    · exact .bind (hadd id) fun _ => .bind (.malloc hanswers.malloc) fun _ => .ite (.bind
        (.new (fun _ _ h => ⟨h.owed, h.items⟩) it) fun _ => .bind (.modifyWorld fun w h =>
          ⟨by simpa using h.owed, h.items⟩) fun _ => .pure _) (.pure _)

/-! ### In every run -/

/-- What results are for, whatever is in the hand. -/
abbrev plainly (plain : ℕ → Prop) (_ : Multiset Token) (w : World) : Prop := w.Plain plain

/-- **Every operation keeps to what the results are for.** -/
theorem conservesRuns_plain {I : Multiset Token → World → Prop} (plain : ℕ → Prop) :
    ConservesRuns (Owed.Fits plain) S I (plainly plain) where
  fits _ _ _ h := h.owed
  malloc _ _ _ h _ := ⟨h.owed, h.items⟩
  retain _ k := (World.Plain.ignoresUnsubscribes.retainSubscription k).moves fun _ _ h => h
  release _ k := (World.Plain.ignoresUnsubscribes.releaseSubscription k).moves fun _ _ h => h
  write _ r f _ := (World.Plain.ignoresAnswers.writeResult r f).moves fun _ _ h => h
  answer _ r := (World.Plain.ignoresAnswers.releaseResult r).moves fun _ _ h => h
  announce _ r count _ := by
    refine Leaves.moves (.bind (.modifyWorld fun w h => h.addOwed fun o ho => ?_) fun _ =>
      World.Plain.ignoresAnswers.requestSubresult r count) fun _ _ h => h
    obtain rfl := List.eq_of_mem_replicate ho
    trivial
  subanswer _ r := (World.Plain.ignoresAnswers.releaseSubresult r).moves fun _ _ h => h
  dummy _ r := (World.Plain.ignoresAnswers.releaseDummyUnsubscribeResult r).moves fun _ _ h => h
  owe _ event owed _ := ensures_modifyWorld fun w h => by
    obtain ⟨howed, hitems⟩ := h.2.2.1.addOwed h.2.2.2
    exact ⟨howed, hitems⟩
  redeem _ o := Leaves.moves (.modifyWorld fun w h =>
    h.setOwed fun o' ho => h.owed o' (List.mem_of_mem_erase ho)) fun _ _ h => h
  oweAlias _ k := by
    refine Leaves.moves (.modifyWorld fun w h => h.setOwed fun o ho => ?_) fun _ _ h => h
    rcases List.mem_cons.mp ho with rfl | ho
    · trivial
    · exact h.owed o ho
  freeRepublish _ handle := Leaves.moves (.free (fun _ _ h => ⟨h.owed, h.items⟩) handle)
    fun _ _ h => h
  publish _ handle item := (World.Plain.ignoresAnswers.publish handle item).moves fun _ _ h => h
  take _ s := (World.Plain.ignoresAnswers.sessionOutMessageCreate s).moves fun _ _ h => h
  slots _ s count _ :=
    (World.Plain.ignoresAnswers.sessionAddFreePublishSlots s count).moves fun _ _ h => h
  subscribe _ r diagnosticInfo k := .assume (p := ¬plain r) (fun _ h => h.2.2.2.elim fun _ hr => hr)
    fun hr => (leaves_returnSubscribeInternal_plain hr diagnosticInfo k).imp
      (fun _ h => h.2.2.1) (fun _ _ h => h) fun _ h => h
  request _ type key :=
    (World.Plain.ignoresUnsubscribes.requestSubscription type key).moves fun _ _ h => h
  append _ s messageId requestId payloadCount buffer _ :=
    (World.Plain.ignoresAnswers.sessionAppendOutMessage s messageId requestId payloadCount buffer
      []).moves fun _ _ h => h
  requestResult _ s requestId count _ _ :=
    (World.Plain.ignoresAnswers.requestResult s requestId count).moves fun _ _ h => h
  unsubscribe _ s id := (World.Plain.ignoresUnsubscribes.unsubscribeItem s id).moves
    fun _ _ h => h
  create _ := Leaves.moves (.bind (.malloc World.Plain.ignoresAnswers.malloc) fun _ => .ite (.bind
    (.new (fun _ _ h => ⟨h.owed, h.items⟩) _) fun _ => .bind (.modifyWorld fun w h => by
      split
      · exact h
      · exact ⟨h.owed, h.items⟩) fun _ => .pure _) (.pure _)) fun _ _ h => h
  hello _ s σ := Place.ensures_write trivial fun _ _ h _ => ⟨h.2.2.1.owed, h.2.2.1.items⟩
  close _ s σ := (World.Plain.ignoresAnswers.closeSession
    (fun _ h => ⟨h.owed, h.items⟩) σ).moves fun _ _ h => h
  deleteItem _ it := (World.Plain.ignoresUnsubscribes.deletePublishItem it).moves fun _ _ h => h

/-- The results wait for what is owed, and what they are for goes with it. -/
abbrev settledKinds (plain : ℕ → Prop) (hand : Multiset Token) (w : World) : Prop :=
  (w.TablesFit ∧ counted hand w) ∧ w.Plain plain

/-- **What is conserved given what the results are for** is conserved in every run: for what a
result is for is chosen when it is allocated, and then nothing is owed for it. -/
theorem conservesKinds_plain {J : Multiset Token → World → Prop}
    (hJ : ∀ plain, ConservesRuns (Owed.Fits plain) S (settledKinds plain) J) :
    ConservesKinds Owed.Fits S fun plain hand w => settledKinds plain hand w ∧ J hand w where
  runs plain := (((conservesItems_tablesFit.conserves.and conserves_counted).runs).and
    (conservesRuns_plain plain) fun _ _ => trivial).and (hJ plain)
  unsubscribe plain hand w h :=
    ⟨_, ⟨⟨h.1.1, h.1.2.choose h.1.1.2 True⟩, h.2⟩, fun _ => by
      rw [Owed.Fits, Function.update_self]
      trivial⟩
  items plain hand w h := by
    have hnot : ¬Function.update plain w.results.next False w.results.next := by
      rw [Function.update_self]
      exact not_false
    refine ⟨_, ⟨⟨h.1.1, h.1.2.choose h.1.1.2 False⟩, h.2⟩, fun type k o ho => ?_⟩
    cases type with
    | general => exact List.eq_of_mem_singleton ho ▸ hnot
    | call => exact List.eq_of_mem_singleton ho ▸ hnot
    | _ =>
      obtain rfl := List.eq_of_mem_singleton ho
      cases k with
      | none => exact hnot
      | some k => exact hnot

end Wpcp
