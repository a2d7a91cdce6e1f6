import Mathlib.Logic.Relation
import Wpcp.Session.Leaves

/-!
# What the library does to the output of a session

Whatever happens, the output of a session changes by five kinds of steps only
(`Wpcp.OutSystem.Step`): a RESULT is queued or could not be, entries are published, slots are
added, a message is taken out, or a publish that could not be allocated marks the session.
**Every step of the library is, for each session, a number of these**
(`Wpcp.World.outputsFrom_of_step`), so that what they keep is kept in every run: a session that
is marked to be killed stays so and hands nothing out any more, and a session that has got
something to send has called `has_out_message.cb`, except where the mark is all it has got.
-/

namespace Wpcp

open Cbor (Value WriteBuffer)

/-! ### Steps of an output -/

section Steps

variable {ρ ε : Type}

/-- What can happen to the output of a session. -/
inductive OutSystem.Step (S : OutSystem ρ ε) : OutSystem ρ ε → Prop
  /-- `wpcp_session_append_out_message`, and whether the message could be allocated. -/
  | append (malloc : Bool) (content : ρ) :
      S.Step ⟨S.session.sessionAppendOutMessage malloc content, S.handedOut⟩
  /-- A publish that reaches `wpcp_session_publish_queue_append`. -/
  | publish (first : ε) (rest : List ε) :
      S.Step ⟨S.session.sessionPublishQueueAppend first rest, S.handedOut⟩
  /-- `wpcp_session_add_free_publish_slots` -/
  | slots (count : ℕ) : count < 2 ^ 32 →
      S.Step ⟨S.session.sessionAddFreePublishSlots count, S.handedOut⟩
  /-- `wpcp_session_out_message_create`, where there is a message. -/
  | take (malloc : Bool) : S.session.sessionHasOutMessage = true →
      S.Step ⟨(S.session.sessionOutMessageCreate malloc).2,
        S.handedOut ++ (S.session.sessionOutMessageCreate malloc).1.toList⟩
  /-- `wpcp_publish_general` could not allocate the data of a publish. -/
  | kill : S.Step ⟨{ S.session with kill := true }, S.handedOut⟩

/-- Any number of steps. -/
abbrev OutSystem.Steps : OutSystem ρ ε → OutSystem ρ ε → Prop :=
  Relation.ReflTransGen OutSystem.Step

/-- **What a session has got to send it has told**: it has not become quieter, it is still
marked if it was, and if it has told nothing, it had something to send before. -/
structure OutState.Tells (s t : OutState ρ ε) : Prop where
  notified : s.notified ≤ t.notified
  kill : t.kill = false → s.kill = false
  message : t.notified = s.notified → t.kill = false → t.sessionHasOutMessage = true →
    s.sessionHasOutMessage = true

theorem OutState.Tells.refl (s : OutState ρ ε) : s.Tells s := ⟨le_rfl, id, fun _ _ => id⟩

theorem OutState.Tells.trans {s t u : OutState ρ ε} (h : s.Tells t) (h' : t.Tells u) :
    s.Tells u := by
  refine ⟨h.notified.trans h'.notified, h.kill ∘ h'.kill, fun heq hkill hout => ?_⟩
  have ht := h.notified
  have hu := h'.notified
  exact h.message (by omega) (h'.kill hkill) (h'.message (by omega) hkill hout)

/-- An operation that calls `has_out_message.cb` may do anything else. -/
theorem OutState.Tells.of_notified {s t : OutState ρ ε} (h : t.notified = s.notified + 1)
    (hkill : t.kill = false → s.kill = false) : s.Tells t :=
  ⟨by omega, hkill, fun heq => by omega⟩

theorem OutState.notified_appendOutMessage (s : OutState ρ ε) (malloc : Bool) (content : ρ) :
    (s.sessionAppendOutMessage malloc content).notified = s.notified + 1 := by
  cases malloc with
  | false => rfl
  | true =>
    simp only [sessionAppendOutMessage, if_true, storeAtInsertLocation]
    split <;> rfl

theorem OutState.tells_append (s : OutState ρ ε) (malloc : Bool) (content : ρ) :
    s.Tells (s.sessionAppendOutMessage malloc content) := by
  refine .of_notified (s.notified_appendOutMessage malloc content) fun hkill => ?_
  cases malloc with
  | false => exact absurd hkill nofun
  | true => rwa [kill_append] at hkill

/-- Entries that are published without slots are nothing to send. -/
theorem OutState.tells_publish (s : OutState ρ ε) (first : ε) (rest : List ε) :
    s.Tells (s.sessionPublishQueueAppend first rest) := by
  rcases Nat.eq_zero_or_pos s.freePublishSlots with hzero | hpos
  · have heq : s.sessionPublishQueueAppend first rest =
        { s with publishQueue := s.publishQueue ++ first :: rest } :=
      if_neg (not_not.mpr hzero)
    refine ⟨(congrArg OutState.notified heq).ge, fun hkill => by rwa [heq] at hkill,
      fun _ _ hout => ?_⟩
    rw [heq] at hout
    simpa [sessionHasOutMessage, sessionHasSendablePublishItem, hzero] using hout
  · refine .of_notified ?_ fun hkill => by rwa [kill_publishQueueAppend] at hkill
    simp only [sessionPublishQueueAppend]
    split_ifs <;> first | rfl | omega

/-- Slots that are added where there were some tell nothing new. -/
theorem OutState.tells_slots (s : OutState ρ ε) {count : ℕ} (hcount : count < 2 ^ 32) :
    s.Tells (s.sessionAddFreePublishSlots count) := by
  have hkill := s.kill_addFreePublishSlots count
  simp only [sessionAddFreePublishSlots] at hkill ⊢
  split_ifs with h
  · exact .of_notified rfl fun hk => hk
  · refine ⟨le_rfl, fun hk => hk, fun _ hk hout => ?_⟩
    simp only [sessionHasOutMessage, sessionHasSendablePublishItem] at hout h ⊢
    split at hout
    · rw [if_pos ‹_›]
    · rename_i hqueue
      rw [if_neg hqueue]
      rcases Nat.eq_zero_or_pos s.freePublishSlots with hzero | hpos
      · simp only [hzero, Nat.zero_add, Nat.mod_eq_of_lt hcount, true_and] at h hout
        simp only [h, Bool.false_or] at hout
        exact absurd (hk.symm.trans hout) (by simp)
      · simp only [Bool.or_eq_true, Bool.and_eq_true] at hout ⊢
        rcases hout with ⟨hne, -⟩ | hkill
        · exact Or.inl ⟨hne, by simpa using hpos.ne'⟩
        · exact Or.inr hkill

theorem OutState.notified_create (s : OutState ρ ε) (malloc : Bool) :
    (s.sessionOutMessageCreate malloc).2.notified = s.notified := by
  cases hq : s.queuedOutMessages with
  | none =>
    simp only [sessionOutMessageCreate, hq]
    split_ifs <;> rfl
  | some m =>
    simp only [sessionOutMessageCreate, hq]
    split_ifs <;> rfl

/-- **A step tells what there is to send.** -/
theorem OutSystem.Step.tells {S T : OutSystem ρ ε} (h : S.Step T) :
    S.session.Tells T.session := by
  cases h with
  | append malloc content => exact S.session.tells_append malloc content
  | publish first rest => exact S.session.tells_publish first rest
  | slots count hcount => exact S.session.tells_slots hcount
  | take malloc hout =>
    refine ⟨(S.session.notified_create malloc).ge, fun hkill => ?_, fun _ _ _ => hout⟩
    exact (S.session.kill_create malloc).symm.trans hkill
  | kill => exact ⟨le_rfl, nofun, fun _ hkill => (nomatch hkill)⟩

theorem OutSystem.Steps.tells {S T : OutSystem ρ ε} (h : S.Steps T) :
    S.session.Tells T.session := by
  induction h with
  | refl => exact .refl _
  | tail _ hst ih => exact ih.trans hst.tells

/-- A session that is marked to be killed stays so, and hands nothing out. -/
theorem OutSystem.Step.killed {S T : OutSystem ρ ε} (h : S.Step T)
    (hkill : S.session.kill = true) :
    T.session.kill = true ∧ T.handedOut = S.handedOut := by
  have hstays : T.session.kill = true := by
    rcases hT : T.session.kill with _ | _
    · exact absurd (hkill.symm.trans (h.tells.kill hT)) nofun
    · rfl
  refine ⟨hstays, ?_⟩
  cases h with
  | take malloc hout =>
    have hnone : (S.session.sessionOutMessageCreate malloc).1 = none := by
      simp only [OutState.sessionOutMessageCreate, hkill, if_true]
    simp only [hnone, Option.toList_none, List.append_nil]
  | _ => rfl

theorem OutSystem.Steps.killed {S T : OutSystem ρ ε} (h : S.Steps T)
    (hkill : S.session.kill = true) :
    T.session.kill = true ∧ T.handedOut = S.handedOut := by
  induction h with
  | refl => exact ⟨hkill, rfl⟩
  | tail _ hst ih =>
    obtain ⟨hkill', heq⟩ := ih
    exact ⟨(hst.killed hkill').1, (hst.killed hkill').2.trans heq⟩

end Steps

/-! ### The library -/

/-- The output of a session, with what it has handed out. -/
def Session.output (σ : Session) : OutSystem QueuedOutMessage Entry := ⟨σ.out, σ.handedOut⟩

/-- The output of a session; a session that is still to be created has a fresh one. -/
def World.outputOf (w : World) (s : ℕ) : OutSystem QueuedOutMessage Entry :=
  (w.sessions.get s).elim .create Session.output

/-- Every session there is has come from its output in `w₀` by steps of the output. -/
def World.OutputsFrom (w₀ w : World) : Prop :=
  ∀ s σ, w.sessions.get s = some σ → (w₀.outputOf s).Steps σ.output

/-- An assertion that speaks of nothing but the outputs of sessions, and that their steps
keep. -/
structure FollowsOutputs (P : World → Prop) : Prop where
  world : ∀ w w', w'.sessions = w.sessions → P w → P w'
  step : ∀ w s σ σ', w.sessions.get s = some σ → σ.output.Steps σ'.output → P w →
    P { w with sessions := w.sessions.set s σ' }

/-- An assertion that a session which is created or deleted keeps as well. -/
structure FollowsSessions (P : World → Prop) : Prop extends FollowsOutputs P where
  free : ∀ w s, P w → P { w with sessions := w.sessions.free s }
  create : ∀ w, P w → P { w with sessions := w.sessions.alloc .create }

theorem World.OutputsFrom.refl (w : World) : w.OutputsFrom w := by
  intro s σ hσ
  rw [World.outputOf, hσ]
  exact .refl

theorem World.followsSessions (w₀ : World) : FollowsSessions fun w =>
    w₀.OutputsFrom w ∧ w₀.sessions.next ≤ w.sessions.next where
  world w w' hsessions h := by rwa [World.OutputsFrom, hsessions]
  step w s σ σ' hσ hsteps h := by
    refine ⟨fun t τ hτ => ?_, h.2⟩
    have hget : (w.sessions.set s σ').get t = some τ := hτ
    rw [Heap.get_set hσ] at hget
    split at hget
    · subst t
      obtain rfl := Option.some.inj hget
      exact (h.1 s σ hσ).trans hsteps
    · exact h.1 t τ hget
  free w s h := ⟨fun t τ hτ => h.1 t τ (Heap.get_of_get_free hτ).2, h.2⟩
  create w h := by
    refine ⟨fun t τ hτ => ?_, h.2.trans (Nat.le_succ _)⟩
    have hget : (w.sessions.alloc .create).get t = some τ := hτ
    rw [Heap.get_alloc] at hget
    split at hget
    · subst t
      obtain rfl := Option.some.inj hget
      have hnone : w₀.sessions.get w.sessions.next = none := by
        rcases heq : w₀.sessions.get w.sessions.next with _ | σ₀
        · rfl
        · exact absurd (Heap.lt_next heq) (Nat.not_lt.mpr h.2)
      rw [World.outputOf, hnone]
      exact .refl
    · exact h.1 t τ hget

namespace FollowsOutputs

variable {P : World → Prop} (h : FollowsOutputs P)
include h

theorem malloc : Leaves P malloc := .malloc fun w _ => h.world w _ rfl

theorem ignoresTable : IgnoresTable P where
  malloc w _ := h.world w _ rfl
  subscriptionTable w _ := h.world w _ rfl
  subscriptions w _ := h.world w _ rfl
  referencesPeak w _ := h.world w _ rfl
  itemLinks w _ := h.world w _ rfl
  freeItem w _ := h.world w _ rfl
  events w _ _ := h.world w _ rfl
  newItem w _ := h.world w _ rfl
  results w _ _ _ _ _ := h.world w _ rfl
  sessions w s σ σ' hσ hsame := by
    obtain ⟨items, next, rfl⟩ := hsame
    exact h.step w s σ _ hσ .refl

theorem write_results (r : ℕ) (ret : Result) : Leaves P (results.write r ret) :=
  .write (fun w _ => h.world w _ rfl) r ret

theorem free_results (r : ℕ) : Leaves P (results.free r) := .free (fun w _ => h.world w _ rfl) r

theorem owed (f : List Owed → List Owed) :
    Leaves P (modifyWorld fun w => { w with owed := f w.owed }) :=
  .modifyWorld fun w => h.world w _ rfl

theorem emit (event : Event) (owed : List Owed) : Leaves P (emit event owed) :=
  .modifyWorld fun w => h.world w _ rfl

/-- The output of a session makes a step. -/
theorem write_sessions {s : ℕ} {σ σ' : Session} (hstep : σ.output.Steps σ'.output) :
    Attempt.Ensures (fun w => w.sessions.get s = some σ ∧ P w) (sessions.write s σ')
      (fun _ => P) Stop.Any :=
  Place.ensures_write trivial fun w _ hw _ => h.step w s σ σ' hw.1 hstep hw.2

theorem sessionAppendOutMessage (s : ℕ) (messageId : MessageId) (requestId payloadCount : ℕ)
    (buffer : WriteBuffer) (granted : List (ℕ × ℕ)) :
    Leaves P (sessionAppendOutMessage s messageId requestId payloadCount buffer granted) :=
  .bind h.malloc fun ret => .read_bind fun _ => h.write_sessions (.single (.append ret _))

theorem sessionPublishQueueAppend (s : ℕ) (first : Entry) (rest : List Entry) :
    Leaves P (sessionPublishQueueAppend s first rest) :=
  .read_bind fun _ => h.write_sessions (.single (.publish first rest))

theorem publishQueueItemsDeref (entries : List Entry) :
    Leaves P (publishQueueItemsDeref entries) :=
  .publishQueueItemsDeref (fun w _ => h.world w _ rfl) entries

theorem sendResult (r : ℕ) (ret : Result) : Leaves P (sendResult r ret) := by
  unfold Wpcp.sendResult
  split
  · refine .read_bind fun σ => .bind (h.write_sessions .refl) fun _ => Leaves.bind
      (h.sessionAppendOutMessage _ _ _ _ _ _) fun _ => ?_
    split
    · exact h.sessionPublishQueueAppend _ _ _
    · exact .pure _
  · split
    · exact h.publishQueueItemsDeref _
    · exact .pure _

theorem releaseResult (r : ℕ) : Leaves P (releaseResult r) :=
  .bind (.read _ _) fun ret => .bind (h.write_results _ _) fun _ =>
    .ite (.pure _) (.bind (h.sendResult r ret) fun _ => h.free_results r)

theorem writeResult (r : ℕ) (f : WriteBuffer → Option WriteBuffer) :
    Leaves P (writeResult r f) := by
  refine .bind (.read _ _) fun ret => ?_
  split
  · exact h.write_results _ _
  · exact .fail _

theorem requestSubresult (r count : ℕ) : Leaves P (requestSubresult r count) :=
  .bind (h.writeResult _ _) fun _ => .ite (.bind (.read _ _) fun _ => h.write_results _ _)
    (h.releaseResult r)

theorem releaseSubresult (r : ℕ) : Leaves P (releaseSubresult r) :=
  .bind (.read _ _) fun _ => .bind (h.write_results _ _) fun _ =>
    .ite (.pure _) (h.releaseResult r)

theorem releaseDummyUnsubscribeResult (r : ℕ) : Leaves P (releaseDummyUnsubscribeResult r) :=
  .bind (.read _ _) fun _ => .bind (.assert _) fun _ => .bind (h.write_results _ _) fun _ =>
    .ite (.pure _) (h.free_results r)

theorem requestResult (s requestId count : ℕ) : Leaves P (requestResult s requestId count) :=
  .bind h.malloc fun _ => .bind (.assert _) fun _ => .ite
    (.bind (.writeBufferInit fun w _ => h.world w _ rfl) fun _ => .bind
      (.new (fun w _ => h.world w _ rfl) _) fun _ => .read_bind fun _ =>
      .bind (h.write_sessions .refl) fun _ => .pure fun _ hw => hw) (.pure _)

/-- A publish reaches sessions, or marks the first of them. -/
theorem publishGeneral (handle : PublishHandle) : Leaves P (publishGeneral handle) := by
  refine .ite (.pure _) (.bind (.bind (.assert _) fun _ => .bind h.malloc fun _ => .ite
    (.bind (.writeBufferInit fun w _ => h.world w _ rfl) fun _ => .bind
      (.new (fun w _ => h.world w _ rfl) _) fun _ => .bind (h.emit _ _) fun _ => .bind
      (.publishEntries (fun w _ _ _ _ _ _ => h.world w _ rfl) h.sessionPublishQueueAppend _ _ _)
      fun _ => .pure _) (.pure _)) ?_)
  rintro (_ | data)
  · cases handle.items with
    | nil => exact .fail _
    | cons it next =>
      exact .bind (.read _ _) fun i => .read_bind fun _ =>
        .bind (h.write_sessions (.single .kill)) fun _ => .pure fun _ hw => hw
  · exact .pure _

theorem publish (handle : Handle) (answer : Cbor.Item) :
    Leaves P (Call.publish handle answer).perform := by
  have hread : Leaves P (readHandle handle) := by
    cases handle with
    | subscription k => exact .bind (.read _ _) fun _ => .pure _
    | republish k => exact .bind (.read _ _) fun _ => .pure _
  refine .bind hread fun handle => .bind (h.publishGeneral handle) ?_
  rintro (_ | data)
  · exact .pure _
  · refine .bind .getWorld fun w => .bind (.read _ _) fun d => ?_
    split
    · exact .write (fun w _ => h.world w _ rfl) _ _
    · exact .fail _

theorem handOut (s size : ℕ) (messages : List QueuedOutMessage) (message : OutMessage Entry) :
    Leaves P (handOut s size messages message) := by
  cases message with
  | queued m =>
    refine .bind .getWorld fun w => ?_
    split
    · exact h.emit _ _
    · exact .fail _
  | publish entries =>
    exact .bind .getWorld fun w => .bind (.writePublish (fun w _ => h.world w _ rfl) _ _)
      fun _ => .ite (h.emit _ _) (.fail _)

/-- A message is taken out where there is one. -/
theorem sessionOutMessageCreate (s : ℕ) :
    Attempt.Ensures (fun w => P w ∧ w.HasOutMessage s) (sessionOutMessageCreate s) (fun _ => P)
      Stop.Any := by
  refine .bind (Place.ensures_read trivial) fun σ => .assume
    (p := σ.out.sessionHasOutMessage = true) ?_ fun hout => ?_
  · rintro w ⟨hσ, -, τ, hτ, hout⟩
    obtain rfl := Option.some.inj (hσ.symm.trans hτ)
    exact hout
  refine .bind ((Leaves.publishContentSize (P := fun w => w.sessions.get s = some σ ∧ P w) _).imp
    (fun _ hw => ⟨hw.1, hw.2.1⟩) (fun _ _ hw => hw) fun _ hE => hE) fun size => .bind
    (Leaves.ite (.malloc fun w _ hw => ⟨hw.1, h.world w _ rfl hw.2⟩) (.pure _)) fun ret => ?_
  have hstep := OutSystem.Step.take (S := σ.output) ret hout
  rcases hcreate : σ.out.sessionOutMessageCreate ret with ⟨message, out⟩
  rw [show σ.output.session = σ.out from rfl, hcreate] at hstep
  refine .bind (h.write_sessions (.single hstep)) fun _ => ?_
  cases message with
  | none => exact Leaves.pure _
  | some message => exact Leaves.bind (h.handOut _ _ _ _) fun _ => .pure _

/-- **The calls of the application keep what the steps of outputs keep.** -/
theorem conservesCalls {S : Prop} {I : Multiset Token → World → Prop} :
    ConservesCalls S I fun _ => P where
  malloc _ w _ hw _ := h.world w _ rfl hw
  retain _ k := (h.ignoresTable.retainSubscription k).moves fun _ _ hw => hw
  release _ k := (h.ignoresTable.releaseSubscription k).moves fun _ _ hw => hw
  accept _ r s k := (h.ignoresTable.acceptSubscription r s k).moves fun _ _ hw => hw
  write _ r f _ := (h.writeResult r f).moves fun _ _ hw => hw
  answer _ r := (h.releaseResult r).moves fun _ _ hw => hw
  announce _ r count _ := (Leaves.bind (h.owed fun owed => owed ++ List.replicate count
    (.subitem r)) fun _ => h.requestSubresult r count).moves fun _ _ hw => hw
  subanswer _ r := (h.releaseSubresult r).moves fun _ _ hw => hw
  dummy _ r := (h.releaseDummyUnsubscribeResult r).moves fun _ _ hw => hw
  owe _ event owed _ := (h.emit event owed).moves fun _ _ hw => hw
  redeem _ o := (h.owed fun owed => owed.erase o).moves fun _ _ hw => hw
  oweAlias _ k := (h.owed fun owed => .alias k :: owed).moves fun _ _ hw => hw
  newRepublish _ it := (Leaves.new (fun w _ => h.world w _ rfl) it).moves fun _ _ hw => hw
  freeRepublish _ k := (Leaves.free (fun w _ => h.world w _ rfl) k).moves fun _ _ hw => hw
  publish _ handle item := (h.publish handle item).moves fun _ _ hw => hw
  take _ s := (h.sessionOutMessageCreate s).imp (fun _ hw => hw.2.2) (fun _ _ hw => hw)
    fun _ hE => hE
  slots _ s count hcount := (Leaves.read_bind fun _ => h.write_sessions
    (.single (.slots count hcount))).moves fun _ _ hw => hw

end FollowsOutputs

namespace FollowsSessions

variable {P : World → Prop} (h : FollowsSessions P)
include h

theorem sessionCreate : Leaves P sessionCreate := by
  have hnew : Leaves P (sessions.new .create) := Place.ensures_new fun w hw => h.create w hw
  refine .bind h.malloc fun ret => .ite (.bind hnew fun s => .bind (.modifyWorld fun w hw => ?_)
    fun _ => .pure _) (.pure _)
  split
  · exact hw
  · exact h.world w _ rfl hw

theorem closeSession (s : ℕ) (σ : Session) : Leaves P (closeSession s σ) :=
  .closeSession (fun w _ => h.world w _ rfl) (fun w _ _ _ _ => h.world w _ rfl)
    (fun w => h.free w s) fun w _ _ _ _ _ => h.world w _ rfl

/-- **Every operation keeps what the steps of outputs keep.** -/
theorem conserves {S : Prop} {I : Multiset Token → World → Prop} :
    Conserves S I fun _ => P where
  toConservesCalls := h.conservesCalls
  request _ type key := (h.ignoresTable.requestSubscription type key).moves fun _ _ hw => hw
  append _ s messageId requestId payloadCount buffer _ :=
    (h.sessionAppendOutMessage s messageId requestId payloadCount buffer []).moves
      fun _ _ hw => hw
  requestResult _ s requestId count _ _ :=
    (h.requestResult s requestId count).moves fun _ _ hw => hw
  unsubscribe _ s id := (h.ignoresTable.unsubscribeItem s id).moves fun _ _ hw => hw
  create _ := h.sessionCreate.moves fun _ _ hw => hw
  hello _ _ σ := Place.ensures_write trivial fun w _ hw _ =>
    h.step w _ σ _ hw.2.2.2 .refl hw.2.2.1
  close _ s σ := (h.closeSession s σ).moves fun _ _ hw => hw
  deleteItem _ it := (h.ignoresTable.deletePublishItem it).moves fun _ _ hw => hw

end FollowsSessions

variable {S : Prop} {app : Application} {w w' : World}

/-- **A step of the library is a number of steps of each output.** -/
theorem World.outputsFrom_of_step (hinv : w.Inv S none none) {act : Act}
    (hst : w.step app act = some w') : w.OutputsFrom w' := by
  have hholds : Holds S (fun _ w' => w.OutputsFrom w' ∧ w.sessions.next ≤ w'.sessions.next) 0 w' :=
    w.followsSessions.conserves.runs.holds_step ⟨hinv, World.OutputsFrom.refl w, le_rfl⟩ hst
  exact hholds.2.1

/-- What a session hands out it goes on having handed out. -/
theorem OutSystem.Steps.handedOut_prefix {ρ ε : Type} {S T : OutSystem ρ ε} (h : S.Steps T) :
    S.handedOut <+: T.handedOut := by
  induction h with
  | refl => exact List.prefix_rfl
  | tail _ hst ih =>
    refine ih.trans ?_
    cases hst with
    | take malloc hout => exact List.prefix_append _ _
    | _ => exact List.prefix_rfl

/-- **No wake-up is lost, and a mark is for good.** In a step of any run, a session that had
nothing to send and now has something has called `has_out_message.cb`, unless it is now marked to
be killed; what was marked before stays so and hands nothing out. -/
theorem wakesUp_of_run {app : Application} {sizeT : Cbor.SizeT} {callbacks : Callback → Bool}
    {malloc : ℕ → Bool} {acts : List Act} {act : Act}
    (hrun : Transition.Run (World.step app) Transition.anyStep
      (World.create sizeT callbacks malloc) acts w)
    (hst : w.step app act = some w') {s : ℕ} {σ' : Session} (hσ' : w'.sessions.get s = some σ') :
    (w.outputOf s).handedOut <+: σ'.handedOut ∧
    ((w.outputOf s).session.kill = true →
      σ'.out.kill = true ∧ σ'.handedOut = (w.outputOf s).handedOut) ∧
    ((w.outputOf s).session.sessionHasOutMessage = false → σ'.out.sessionHasOutMessage = true →
      σ'.out.kill = false → (w.outputOf s).session.notified < σ'.out.notified) := by
  have hsteps := World.outputsFrom_of_step (inv_of_run (S := False) False.elim hrun) hst s σ' hσ'
  refine ⟨hsteps.handedOut_prefix, hsteps.killed, fun hbefore hafter hkill => ?_⟩
  have htells := hsteps.tells
  rcases Nat.lt_or_ge (w.outputOf s).session.notified σ'.out.notified with hlt | hge
  · exact hlt
  · have hmessage := htells.message (le_antisymm hge htells.notified) hkill hafter
    exact absurd (hbefore.symm.trans hmessage) nofun

/-- A client says hello: the answer is announced. -/
theorem wakesUp_hello : ∃ w w' σ',
    Transition.Run (World.step silent) Transition.anyStep
      (World.create .bits64 subscriptionCallbacks fun _ => true) [.sessionCreate] w ∧
    w.step silent hello = some w' ∧ w'.sessions.get 0 = some σ' ∧
    (w.outputOf 0).session.notified < σ'.out.notified := by
  have hcheck : (Transition.execute (World.step silent) Transition.anyStep
      (World.create .bits64 subscriptionCallbacks fun _ => true) [.sessionCreate]).any
        (fun w => !(w.outputOf 0).session.sessionHasOutMessage &&
          (w.step silent hello).any fun w' => (w'.sessions.get 0).any fun σ' =>
            σ'.out.sessionHasOutMessage && !σ'.out.kill) = true := by
    decide +kernel
  obtain ⟨w, hw, hfacts⟩ := (Option.any_eq_true _ _).mp hcheck
  obtain ⟨hbefore, hfacts⟩ := Bool.and_eq_true_iff.mp hfacts
  obtain ⟨w', hst, hfacts⟩ := (Option.any_eq_true _ _).mp hfacts
  obtain ⟨σ', hσ', hfacts⟩ := (Option.any_eq_true _ _).mp hfacts
  obtain ⟨hafter, hkill⟩ := Bool.and_eq_true_iff.mp hfacts
  have hrun := Transition.run_of_execute hw
  exact ⟨w, w', σ', hrun, hst, hσ', (wakesUp_of_run hrun hst hσ').2.2 (by simpa using hbefore)
    hafter (by simpa using hkill)⟩

end Wpcp
