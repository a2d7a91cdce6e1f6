import Wpcp.Session.Completion

/-!
# The calls of the application keep the invariant

Every call that the application may make keeps the invariant, and so does everything it
does in a callback. The longest way goes through `wpcp_return_subscribe_accept`: an id is
found, the item is registered under it, and the result then grants the id to the item.
-/

namespace Wpcp

open Cbor (Value)

variable {S : Prop}

/-! ### Accepting a subscription -/

/-- A result of a session is waiting. -/
def World.Waits (r s : ℕ) (R : Heap Result) : Prop :=
  ∃ ret, R.get r = some ret ∧ ret.session = some s

/-- A session has no item with an id. -/
def World.Free (w : World) (s id : ℕ) : Prop :=
  ∃ σ, w.sessions.get s = some σ ∧ σ.publishItems[id]? = some none

theorem framed_free (s id : ℕ) : Framed fun w => w.Free s id := by
  intro w w' hf h
  rw [World.Free, hf.sessions]
  exact h

/-- A list of blocked items is only allocated where there is none. -/
theorem ensures_getBlockedItems {P : World → Prop} (hP : Framed P) (ret : Result) :
    Attempt.Ensures P (getBlockedItems ret)
      (fun blocked w => P w ∧ (blocked = ret.blockedItems ∨
        ret.blockedItems = none ∧ ∃ slots, blocked = some ⟨[], [], slots⟩)) Stop.Fair := by
  unfold getBlockedItems
  split
  · rename_i heq
    exact .pure fun w hw => ⟨hw, Or.inl heq.symm⟩
  · rename_i heq
    refine .bind (Inert.malloc.keeps hP) fun ok => .bind (Inert.getWorld.keeps hP) fun _ =>
      .pure fun w hw => ⟨hw, ?_⟩
    cases ok with
    | true => exact Or.inr ⟨heq, _, rfl⟩
    | false => exact Or.inl heq.symm

theorem ensures_resultGetBlockedPublishItemTarget (r s id : ℕ) :
    Attempt.Ensures
      (fun w => w.Inv S none none ∧ World.Waits r s w.results ∧ w.Free s id)
      (resultGetBlockedPublishItemTarget r)
      (fun _ w => w.Inv S none none ∧ World.Waits r s w.results ∧ w.Free s id) Stop.Fair := by
  refine .bind (Place.ensures_read Stop.fair_dangling) fun ret =>
    .bind (ensures_getBlockedItems ((framed_results (F := fun R => R.get r = some ret)).and
      (framed_inv.and (framed_results.and (framed_free s id)))) ret) fun blocked =>
    .bind (Q := fun _ (w : World) => w.Inv S none none ∧ World.Waits r s w.results ∧ w.Free s id)
      (Place.ensures_write Stop.fair_dangling ?_) fun _ => ?_
  · rintro w - ⟨⟨hr, hinv, ⟨ret', hr', hs⟩, hfree⟩, hblocked⟩ -
    obtain rfl := Option.some.inj (hr.symm.trans hr')
    refine ⟨?_, ⟨_, (Heap.get_set hr _ _).trans (if_pos rfl), hs⟩, hfree⟩
    obtain rfl | ⟨hnone, slots, rfl⟩ := hblocked
    · exact hinv.setAnswer hr rfl rfl rfl
    · obtain ⟨-, hgranted, -, hgr⟩ := hinv.result r ret hr
      refine hinv.setResult hr rfl ⟨?_, nofun, ?_, hgr⟩ fun g hg => hg
      · intro b hb
        obtain rfl := Option.some.inj hb
        simp [hgranted hnone]
      · intro b hb e he
        obtain rfl := Option.some.inj hb
        simp at he
  · cases blocked with
    | none => exact .pure fun _ h => h
    | some blocked => exact .ite (fun _ => .pure fun _ h => h) fun _ => .fail Stop.fair_dangling

/-- **The result of an accepted subscription grants its id**, and so the invariant holds of
the item. -/
theorem ensures_setBlockedPublishItem (r s id it : ℕ) :
    Attempt.Ensures
      (fun w => w.Inv S none (some it) ∧ World.Waits r s w.results ∧ w.Registered s id it)
      (setBlockedPublishItem r id it) (fun _ => World.Inv S none none) Stop.Fair := by
  refine .bind (Place.ensures_read Stop.fair_dangling) fun ret => ?_
  cases hblocked : ret.blockedItems with
  | none => exact .fail Stop.fair_dangling
  | some blocked =>
    refine Place.ensures_write Stop.fair_dangling ?_
    rintro w - ⟨hr, hinv, ⟨ret', hr', hs⟩, i, hi, rfl, rfl, hitem⟩ -
    obtain rfl := Option.some.inj (hr.symm.trans hr')
    obtain ⟨hitems, -, hentries, hgr⟩ := hinv.result r ret hr
    have hset : World.Inv S none (some it)
        { w with results := w.results.set r { ret with
            blockedItems := some { blocked with items := blocked.items ++ [it] }
            granted := ret.granted ++ [(i.subscriptionid, it)] } } := by
      refine hinv.setResult hr rfl ⟨?_, nofun, ?_, ?_⟩ fun g hg => List.mem_append_left _ hg
      · intro b hb
        obtain rfl := Option.some.inj hb
        simp [hitems blocked hblocked]
      · intro b hb e he
        obtain rfl := Option.some.inj hb
        exact List.mem_append_left _ (hentries blocked hblocked e he)
      · intro id' it' hg
        obtain hg | hg := List.mem_append.mp hg
        · exact hgr id' it' hg
        · obtain ⟨rfl, rfl⟩ := Prod.mk.inj (List.mem_singleton.mp hg)
          refine ⟨Heap.lt_next hi, fun j hj => ?_⟩
          obtain rfl := Option.some.inj (hi.symm.trans hj)
          exact ⟨rfl, fun s hs' => Option.some.inj (hs.symm.trans hs')⟩
    exact hset.withItem hi ⟨hitem.session, hitem.table, hitem.handle⟩ fun _ σ hσ => Or.inl
      ⟨r, _, (Heap.get_set hr _ _).trans (if_pos rfl), hs, List.mem_append_right _
        (List.mem_singleton.mpr rfl)⟩

/-- Accepting a subscription under an id that is free, or 0. -/
theorem ensures_requestBlockedPublishItem (r s subscription id : ℕ) :
    Attempt.Ensures
      (fun w => w.Inv S none none ∧ World.Waits r s w.results ∧ (id = 0 ∨ w.Free s id))
      (requestBlockedPublishItem r s subscription id) (fun _ => World.Inv S none none)
      Stop.Fair := by
  refine .ite (fun _ => .pure fun _ h => h.1) fun hid => ?_
  refine .bind ((ensures_resultGetBlockedPublishItemTarget r s id).imp
    (fun w hw => ⟨hw.1, hw.2.1, hw.2.2.resolve_left hid⟩) (fun _ _ h => h) fun _ h => h) ?_
  rintro (_ | target)
  · exact .pure fun _ h => h.1
  refine .bind (ensures_sessionRequestPublishItem s subscription id) ?_
  rintro (_ | it)
  · exact .pure fun _ h => h
  · exact .bind (ensures_setBlockedPublishItem r s id it) fun _ => .pure fun _ h => h

theorem preserves_returnSubscribeInternal (r : ℕ)
    (diagnosticInfo : Option (Value (List UInt8))) (subscription : ℕ) :
    Preserves S (returnSubscribeInternal r diagnosticInfo subscription) := by
  refine .bind (Place.ensures_read Stop.fair_dangling) fun ret => ?_
  cases hs : ret.session with
  | none => exact .fail Stop.fair_dangling
  | some s =>
    refine .bind ((ensures_sessionGetNextFreePublishId (F := World.Waits r s) s).imp
      (fun w hw => ⟨hw.2, ret, hw.1, hs⟩) (fun _ _ h => h) fun _ h => h) fun id =>
      .bind (ensures_requestBlockedPublishItem r s subscription id) ?_
    rintro (_ | it)
    · exact .bind (preserves_resultAddUnsignedInteger _ _ _) fun _ => .pure fun _ h => h
    · refine .bind (preserves_resultAddUnsignedInteger _ _ _) fun _ =>
        .bind Inert.malloc.preserves fun list => .ite (fun _ => ?_) fun _ => .pure fun _ h => h
      exact .bind (Inert.new_republishHandles it).preserves fun _ =>
        .bind (Inert.emit _ _).preserves fun _ => .pure fun _ h => h

/-! ### The calls of the application -/

theorem preserves_returnUnsubscribe (r : ℕ) (diagnosticInfo : Option (Value (List UInt8)))
    (subscription : Option ℕ) : Preserves S (returnUnsubscribe r diagnosticInfo subscription) := by
  have hrelease : Inert (subscription.elim (pure ()) releaseSubscription) := by
    cases subscription with
    | none => exact .pure _
    | some k => exact inert_releaseSubscription k
  refine .bind hrelease.preserves fun _ => .bind (Place.ensures_read Stop.fair_dangling)
    fun ret => ?_
  cases hs : ret.session with
  | none =>
    exact (ensures_releaseDummyUnsubscribeResult r).imp (fun w hw => ⟨hw.2, ret, hw.1, hs⟩)
      (fun _ _ h => h) fun _ h => h
  | some s =>
    exact (preserves_resultAddValue _ _ _).imp (fun _ h => h.2) (fun _ _ h => h) fun _ h => h

/-- A change of what the application owes. -/
theorem inert_owed (f : List Owed → List Owed) :
    Inert (modifyWorld fun w => { w with owed := f w.owed }) :=
  .modifyWorld fun _ =>
    ⟨rfl, rfl, rfl, rfl, rfl, rfl, Nat.le_refl _, fun _ s hs _ => ⟨s, hs, rfl⟩, id⟩

/-- What taking a message out asks for. -/
theorem World.hasOutMessage_of_any {w : World} {s : ℕ}
    (h : (w.sessions.get s).any (·.out.sessionHasOutMessage) = true) : w.HasOutMessage s := by
  cases hσ : w.sessions.get s with
  | none => simp [hσ] at h
  | some σ => exact ⟨σ, hσ, by simpa [hσ] using h⟩

/-- **A call of the application keeps the invariant** and fails no assertion, if the
application has what it needs. -/
theorem Call.ensures_perform (call : Call) :
    Attempt.Ensures (fun w => w.Inv S none none ∧ call.Available w) call.perform
      (fun _ => World.Inv S none none) Stop.Fair := by
  cases call with
  | subscribeAccept r diagnosticInfo subscription =>
    refine .bind ((preserves_returnSubscribeInternal r diagnosticInfo subscription).imp
      (fun _ h => h.1) (fun _ _ h => h) fun _ h => h) fun _ => .pure fun _ h => h
  | subscribeAlias r diagnosticInfo subscription other =>
    refine .bind (Place.ensures_read Stop.fair_dangling) fun s =>
      .bind (Place.ensures_read Stop.fair_dangling) fun o =>
      .bind (ensures_assert fun w hw => ?_) fun _ =>
      .bind ((inert_retainSubscription other).preserves.imp (fun _ h => h.2.2.1)
        (fun _ _ h => h) fun _ h => h) fun _ =>
      .bind (preserves_returnSubscribeInternal _ _ _) fun _ =>
      (inert_owed fun owed => .alias subscription :: owed).preserves
    obtain ⟨ho, hs, -, htype, -⟩ := hw
    rw [show w.subscriptions.get subscription = some s from hs,
      show w.subscriptions.get other = some o from ho] at htype
    exact (Option.some.inj htype).symm
  | aliasReturned subscription =>
    exact (inert_releaseSubscription subscription).preserves.imp (fun _ h => h.1)
      (fun _ _ h => h) fun _ h => h
  | subscribeReject r diagnosticInfo subscription =>
    refine .bind (Place.ensures_read Stop.fair_dangling) fun ret => ?_
    cases ret.session with
    | none => exact .fail Stop.fair_dangling
    | some s =>
      exact .bind ((preserves_resultAddUnsignedInteger _ _ _).imp (fun _ h => h.2.1)
        (fun _ _ h => h) fun _ h => h) fun _ => (inert_releaseSubscription _).preserves
  | unsubscribe r diagnosticInfo subscription =>
    exact (preserves_returnUnsubscribe r diagnosticInfo subscription).imp (fun _ h => h.1)
      (fun _ _ h => h) fun _ h => h
  | value r diagnosticInfo answer =>
    exact (preserves_resultAddValue r diagnosticInfo answer).imp (fun _ h => h.1)
      (fun _ _ h => h) fun _ h => h
  | item r diagnosticInfo answer =>
    exact .bind ((preserves_resultAddDiagnosticInfo r diagnosticInfo).imp (fun _ h => h.1)
      (fun _ _ h => h) fun _ h => h) fun _ => .bind Inert.getWorld.preserves fun _ =>
      .bind (preserves_writeResult r _) fun _ => preserves_releaseResult r
  | items r diagnosticInfo count =>
    exact .bind ((preserves_resultAddDiagnosticInfo r diagnosticInfo).imp (fun _ h => h.1)
      (fun _ _ h => h) fun _ h => h) fun _ =>
      .bind (inert_owed fun owed => owed ++ List.replicate count (.subitem r)).preserves fun _ =>
      preserves_requestSubresult r count
  | subitem r answer =>
    exact .bind (Inert.getWorld.preserves.imp (fun _ h => h.1) (fun _ _ h => h) fun _ h => h)
      fun _ => .bind (preserves_writeResult r _) fun _ => preserves_releaseSubresult r
  | publish handle answer =>
    have hread : Inert (readHandle handle) := by
      cases handle with
      | subscription k => exact .bind (.read _ _) fun _ => .pure _
      | republish k => exact .bind (.read _ _) fun _ => .pure _
    refine .bind (hread.preserves.imp (fun _ h => h.1) (fun _ _ h => h) fun _ h => h) fun h =>
      .bind (preserves_publishGeneral h) ?_
    rintro (_ | data)
    · exact .pure fun _ h => h
    · refine .bind Inert.getWorld.preserves fun w => .bind (Inert.read _ data).preserves fun d => ?_
      cases answer.write w.sizeT d.outputBuffer with
      | none => exact .fail Stop.fair_encoder
      | some buffer => exact (Inert.write_publishData _ _).preserves
  | republish handle =>
    exact (Inert.free_republishHandles handle).preserves.imp (fun _ h => h.1) (fun _ _ h => h)
      fun _ h => h
  | outMessageCreate s =>
    exact .bind ((ensures_sessionOutMessageCreate s).imp
      (fun w hw => ⟨hw.1, World.hasOutMessage_of_any hw.2⟩) (fun _ _ h => h) fun _ h => h)
      fun _ => .pure fun _ h => h
  | addFreePublishSlots s count =>
    exact (ensures_sessionAddFreePublishSlots s count).imp (fun _ h => h.1) (fun _ _ h => h)
      fun _ h => h

/-- What a call needs does not depend on what the application owes. -/
theorem Call.available_owed {call : Call} {w : World} {owed : List Owed}
    (h : call.Available w) : call.Available { w with owed := owed } := by
  cases call with
  | publish handle answer =>
    cases handle with
    | subscription k => exact h
    | republish k => exact h
  | _ => exact h

theorem preserves_performLegal (call : Call) : Preserves S call.performLegal := by
  refine .bind ensures_getWorld fun w => .ite (fun hlegal => ?_) fun _ => .pure fun _ h => h.2
  refine .bind (ensures_modifyWorld ?_) fun _ => call.ensures_perform
  rintro w' ⟨rfl, hinv⟩
  exact ⟨hinv.frame ⟨rfl, rfl, rfl, rfl, rfl, rfl, Nat.le_refl _, fun _ s hs _ => ⟨s, hs, rfl⟩, id⟩,
    Call.available_owed hlegal.2⟩

theorem preserves_performAll (l : List Call) : Preserves S (performAll l) := by
  induction l with
  | nil => exact .pure fun _ h => h
  | cons call rest ih => exact .bind (preserves_performLegal call) fun _ => ih

theorem preserves_callback (app : Application) (event : Event) (owed : List Owed) :
    Preserves S (callback app event owed) :=
  .bind (Inert.emit event owed).preserves fun _ => .bind Inert.getWorld.preserves fun w =>
    preserves_performAll (app w)

end Wpcp
