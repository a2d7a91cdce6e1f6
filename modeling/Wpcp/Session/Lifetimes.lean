import Wpcp.Session.Messages

/-!
# Which sessions there are

Neither a call of the application nor a message makes a session or ends one
(`Wpcp.World.followsOutputs_sameSessions`), and **deleting a session ends it and no other**
(`Wpcp.ensures_sessionDelete_sessions`), whatever the application does meanwhile.
-/

namespace Wpcp

open Cbor (Machine)

variable {P : World → Prop} {app : Application}

namespace FollowsOutputs

variable (h : FollowsOutputs P)
include h

theorem callbackConserves : CallbackConserves False app fun _ => P :=
  fun _ _ owed hevent => h.conservesCalls.answers.holds_callback app owed hevent
    fun _ _ => trivial

/-- What the steps of outputs keep, the parts of handling a message keep. -/
theorem handlesMessage (session : ℕ) : HandlesMessage False app session fun _ => P where
  malloc _ w _ hw _ := h.world w _ rfl hw
  emit _ event _ := (h.emit event []).moves fun _ _ hw => hw
  request _ type key := (h.ignoresTable.requestSubscription type key).moves fun _ _ hw => hw
  requestResult _ requestId count _ _ _ :=
    (h.requestResult session requestId count).moves fun _ _ hw => hw
  append _ requestId payloadCount buffer _ _ :=
    (h.sessionAppendOutMessage session .result requestId payloadCount buffer []).moves
      fun _ _ hw => hw
  unsubscribe _ id := (h.ignoresTable.unsubscribeItem session id).moves fun _ _ hw => hw
  callback := h.callbackConserves

/-- What the steps of outputs keep, a message keeps. -/
theorem leaves_sessionHandleInMessage (M : Machine) (app : Application)
    (fuel session data size : ℕ) :
    Leaves (fun w => w.Inv False none none ∧ P w)
      (sessionHandleInMessage M app fuel session data size) := by
  have hholds : Attempt.Ensures (Holds False (fun _ => P) 0)
      (sessionHandleInMessage M app fuel session data size)
      (fun _ => Holds False (fun _ => P) 0) Stop.Any :=
    (h.handlesMessage session).holds_sessionHandleInMessage M fuel (fun _ =>
      Place.ensures_write trivial fun w _ hw _ => h.step w session _ _ hw.2.2.2 .refl hw.2.2.1)
      data size
  exact hholds

theorem leaves_performLegal (call : Call) :
    Leaves (fun w => w.Inv False none none ∧ P w) call.performLegal := by
  have hholds : Attempt.Ensures (Holds False (fun _ => P) 0) call.performLegal
      (fun _ => Holds False (fun _ => P) 0) Stop.Any :=
    h.conservesCalls.answers.holds_performLegal call
  exact hholds

end FollowsOutputs

/-- The same sessions are there. -/
def World.SameSessions (w₀ w : World) : Prop :=
  ∀ s, (w.sessions.get s).isSome = (w₀.sessions.get s).isSome

/-- **Neither a call of the application nor a message makes a session or ends one.** -/
theorem World.followsOutputs_sameSessions (w₀ : World) : FollowsOutputs w₀.SameSessions where
  world w w' hsessions h s := by rw [hsessions, h s]
  step w s σ σ' _ _ h k := (w.sessions.isSome_get_set s k σ').trans (h k)

/-- When a session ends, the other ones are as they were. -/
theorem ensures_closeSession_sessions (w₀ : World) (s : ℕ) (σ : Session) :
    Attempt.Ensures (fun w => w.sessions = w₀.sessions) (closeSession s σ)
      (fun _ w => w.sessions = w₀.sessions.free s) Stop.Any := by
  have hfree : Attempt.Ensures (fun w => w.sessions = w₀.sessions) (sessions.free s)
      (fun _ w => w.sessions = w₀.sessions.free s) Stop.Any :=
    Place.ensures_free trivial fun w _ hw _ => congrArg (Heap.free · s) hw
  have hdata : Leaves (fun w => w.sessions = w₀.sessions)
      (publishQueueItemsDeref σ.out.publishQueue) :=
    .publishQueueItemsDeref (fun _ _ hw => hw) _
  have horphan : Leaves (fun w => w.sessions = w₀.sessions) (orphanResults σ.results) :=
    .orphanResults fun _ _ _ _ _ hw => hw
  refine .bind (Leaves.releaseQueuedOutMessages σ) fun _ => .bind hdata fun _ =>
    .bind horphan fun _ => .ite (fun _ => ?_) fun _ => .bind hfree fun _ => .pure fun _ hw => hw
  exact .bind (.bind hfree fun _ => .bind (Leaves.assert _) fun _ =>
    Place.ensures_new (Q := fun _ w => w.sessions = w₀.sessions.free s) fun _ hw => hw)
    fun _ => .pure fun _ hw => hw

/-- **Deleting a session ends it and no other.** -/
theorem ensures_sessionDelete_sessions (app : Application) (w₀ : World) (s : ℕ) :
    Attempt.Ensures (fun w => w.Inv False none none ∧ w.sessions = w₀.sessions)
      (sessionDelete app s)
      (fun _ w => ∀ t, (w.sessions.get t).isSome = ((w₀.sessions.free s).get t).isSome)
      Stop.Any := by
  -- the world in which the session has ended
  let w₁ : World := { w₀ with sessions := w₀.sessions.free s }
  have hfollows := w₁.followsOutputs_sameSessions
  have hsame : ∀ w, w.sessions = w₀.sessions.free s → w₁.SameSessions w := by
    intro w hw t
    rw [hw]
  refine .bind (Place.ensures_read trivial) fun σ => .assume (p := σ.items.Nodup)
    (fun w hw => (hw.2.1.session s σ hw.1).nodup_items) fun hnodup =>
    .bind (((ensures_closeSession (S := False) s σ).and
      (ensures_closeSession_sessions w₀ s σ)).imp (fun _ hw => ⟨⟨hw.2.1, hw.1⟩, hw.2.2⟩)
      (fun _ _ hw => hw) fun _ hE => trivial) ?_
  rintro (_ | result)
  · exact .pure fun w hw => hsame w hw.2
  · have hdelete : ∀ (hand : Multiset Token) it, Moves False anyWorld (fun _ => w₁.SameSessions)
        (fun w => ∃ i, w.publishItems.get it = some i ∧ w.sessions.get i.session = none)
        (.orphan it ::ₘ hand) (deletePublishItem it) fun k => .reference k ::ₘ hand :=
      fun _ it => (hfollows.ignoresTable.deletePublishItem it).moves fun _ _ hw => hw
    have hholds : Attempt.Ensures _ (deletePublishItems app result σ.items)
        (fun _ => Holds False (fun _ => w₁.SameSessions) 0) _ :=
      holds_deletePublishItems hfollows.callbackConserves hdelete result σ.items hnodup
    exact hholds.imp (fun w hw => ⟨⟨hw.1.1, hsame w hw.2⟩, hw.1.2⟩) (fun _ _ hw => hw.2)
      fun _ hE => hE

end Wpcp
