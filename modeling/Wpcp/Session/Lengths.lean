import Wpcp.Session.Unsubscribing

/-!
# The length that a RESULT announces

The array header of a request announces how many elements it has, and the one of its RESULT how
many that has: two for each element, and two more. The source computes both in 32 bits. Between
the two the count is in the result, which other messages, the calls of the application and the
end of the session do not change (`Wpcp.World.Asked`). In every run **the RESULT announces its
length exactly if the request has at most `2 ^ 31 - 2` elements** (`Wpcp.announces_of_run`).
-/

namespace Wpcp

open Cbor (Machine ReadBuffer WriteBuffer Value)

/-! ### What is announced -/

/-- The number of elements in the array header of a message. -/
def QueuedOutMessage.announced (message : QueuedOutMessage) : ℕ :=
  (2 + message.payloadCount) % 2 ^ 32

/-- The header of a message starts with it. -/
theorem outMessageHeader_eq (message : QueuedOutMessage) :
    outMessageHeader message.messageId message.requestId message.payloadCount =
      Cbor.writeArrayHeader message.announced ++
        Cbor.writeUnsignedInteger message.messageId.toNat ++
        Cbor.writeUnsignedInteger message.requestId :=
  rfl

/-- The product and the sum are what they are without bounds, and the header announces the sum. -/
def QueuedOutMessage.Fits (message : QueuedOutMessage) (n : ℕ) : Prop :=
  message.payloadCount = 2 * n ∧ message.announced = 2 + 2 * n ∧
    outMessageHeader message.messageId message.requestId message.payloadCount =
      Cbor.writeArrayHeader (2 + 2 * n) ++ Cbor.writeUnsignedInteger message.messageId.toNat ++
        Cbor.writeUnsignedInteger message.requestId

/-- **The product and the sum fit 32 bits** for all counts up to `2 ^ 31 - 2`, and no others. -/
theorem QueuedOutMessage.fits_iff {message : QueuedOutMessage} {n : ℕ}
    (hcount : message.payloadCount = n * 2 % 2 ^ 32) : message.Fits n ↔ n ≤ 2 ^ 31 - 2 := by
  constructor
  · rintro ⟨hproduct, hsum, -⟩
    rw [announced] at hsum
    rw [hcount] at hproduct hsum
    omega
  · intro hn
    have hsum : message.announced = 2 + 2 * n := by
      rw [announced, hcount]
      omega
    refine ⟨by omega, hsum, ?_⟩
    rw [outMessageHeader_eq, hsum]

/-- A session has queued the RESULT of a request after its first `k` calls, or is marked to be
killed. -/
def Session.Answers (σ : Session) (k requestId n : ℕ) : Prop :=
  σ.out.kill = true ∨ ∃ message, .append message ∈ σ.ops.drop k ∧ message.messageId = .result ∧
    message.requestId = requestId ∧ message.payloadCount = n * 2 % 2 ^ 32

/-- What has been queued stays so. -/
theorem Session.Answers.of_sentMore {σ σ' : Session} {k requestId n : ℕ}
    (h : σ.Answers k requestId n) (hmore : σ.SentMore σ') : σ'.Answers k requestId n := by
  obtain ⟨⟨more, hops⟩, hkill⟩ := hmore
  rcases h with hk | ⟨message, hmem, hmessage⟩
  · exact Or.inl (hkill hk)
  · refine Or.inr ⟨message, ?_, hmessage⟩
    rw [← hops, List.drop_append]
    exact List.mem_append_left _ hmem

/-! ### What is known of a request -/

/-- The session is gone, or has answered. -/
def World.HasAnswered (s k requestId n : ℕ) (w : World) : Prop :=
  ∀ σ, w.sessions.get s = some σ → σ.Answers k requestId n

/-- **The request that a result is for**: the count is kept, and with the result goes its RESULT.
Where `exempt` holds the result may have lost its session. -/
structure World.Asked (r s k requestId n : ℕ) (exempt : Prop) (w : World) : Prop where
  result : r < w.results.next
  session : s < w.sessions.next
  since : ∀ σ, w.sessions.get s = some σ → k ≤ σ.ops.length
  pending : ∀ ret, w.results.get r = some ret →
    (ret.requestId = requestId ∧ ret.requestPayloadCount = n) ∧
      (exempt ∨ ret.session = some s ∨ w.sessions.get s = none)
  answered : w.results.get r = none → w.HasAnswered s k requestId n

variable {S : Prop} {w : World} {r s k requestId n : ℕ} {exempt : Prop}

theorem World.HasAnswered.setSession (h : w.HasAnswered s k requestId n) {t : ℕ} {σ σ' : Session}
    (hσ : w.sessions.get t = some σ) (hmore : σ.SentMore σ') :
    World.HasAnswered s k requestId n { w with sessions := w.sessions.set t σ' } := by
  intro τ hτ
  have hτ : (w.sessions.set t σ').get s = some τ := hτ
  rw [Heap.get_set hσ] at hτ
  split at hτ
  · rename_i heq
    obtain rfl := Option.some.inj hτ
    exact (h σ (heq ▸ hσ)).of_sentMore hmore
  · exact h τ hτ

theorem World.HasAnswered.ignoresWrites :
    IgnoresWrites (World.HasAnswered s k requestId n) where
  malloc _ _ h := h
  setResult _ _ _ _ _ _ _ h := h
  publishData _ _ h := h
  events _ _ _ h := h
  sessions _ _ _ _ hσ _ hmore h := h.setSession hσ hmore

namespace World.Asked

/-- Only results and sessions matter. -/
theorem congr {w' : World} (h : w.Asked r s k requestId n exempt)
    (hresults : w'.results = w.results) (hsessions : w'.sessions = w.sessions) :
    w'.Asked r s k requestId n exempt := by
  obtain ⟨hresult, hsession, hsince, hpending, hanswered⟩ := h
  unfold World.HasAnswered at hanswered
  rw [← hresults] at hresult hpending hanswered
  rw [← hsessions] at hsession hsince hpending hanswered
  exact ⟨hresult, hsession, hsince, hpending, hanswered⟩

/-- A result is written to, but not its request. -/
theorem setResult (h : w.Asked r s k requestId n exempt) {q : ℕ} {ret ret' : Result}
    (hq : w.results.get q = some ret) (hid : ret'.requestId = ret.requestId)
    (hcount : ret'.requestPayloadCount = ret.requestPayloadCount)
    (hsession : q = r → exempt ∨ ret'.session = ret.session) :
    World.Asked r s k requestId n exempt { w with results := w.results.set q ret' } where
  result := h.result
  session := h.session
  since := h.since
  pending ret₁ hr := by
    have hr : (w.results.set q ret').get r = some ret₁ := hr
    rw [Heap.get_set hq] at hr
    split at hr
    · rename_i heq
      obtain rfl := Option.some.inj hr
      obtain ⟨⟨hid₁, hcount₁⟩, hsession₁⟩ := h.pending ret (heq ▸ hq)
      refine ⟨⟨hid.trans hid₁, hcount.trans hcount₁⟩, ?_⟩
      rcases hsession heq.symm with hexempt | hsame
      · exact Or.inl hexempt
      · rwa [hsame]
    · exact h.pending ret₁ hr
  answered hr := by
    have hr : (w.results.set q ret').get r = none := hr
    rw [Heap.get_set hq] at hr
    split at hr
    · exact absurd hr nofun
    · exact h.answered hr

theorem setSession (h : w.Asked r s k requestId n exempt) {t : ℕ} {σ σ' : Session}
    (hσ : w.sessions.get t = some σ) (hmore : σ.SentMore σ') :
    World.Asked r s k requestId n exempt { w with sessions := w.sessions.set t σ' } where
  result := h.result
  session := h.session
  since τ hτ := by
    have hτ : (w.sessions.set t σ').get s = some τ := hτ
    rw [Heap.get_set hσ] at hτ
    split at hτ
    · rename_i heq
      obtain rfl := Option.some.inj hτ
      exact (h.since σ (heq ▸ hσ)).trans hmore.1.length_le
    · exact h.since τ hτ
  pending ret hr := by
    obtain ⟨hrequest, hsession⟩ := h.pending ret hr
    refine ⟨hrequest, hsession.imp_right fun hor => hor.imp_right fun hnone => ?_⟩
    exact Option.isNone_iff_eq_none.mp (by
      rw [← Option.not_isSome, w.sessions.isSome_get_set t s σ', hnone]
      rfl)
  answered hr := (h.answered hr).setSession hσ hmore

theorem ignoresWrites : IgnoresWrites (World.Asked r s k requestId n exempt) where
  malloc _ _ h := h.congr rfl rfl
  setResult _ _ _ _ hq _ hrequest h :=
    h.setResult hq hrequest.2.1 hrequest.2.2 fun _ => Or.inr hrequest.1
  publishData _ _ h := h.congr rfl rfl
  events _ _ _ h := h.congr rfl rfl
  sessions _ _ _ _ hσ _ hmore h := h.setSession hσ hmore

theorem ignoresTable : IgnoresTable (World.Asked r s k requestId n exempt) where
  malloc _ _ h := h.congr rfl rfl
  subscriptionTable _ _ h := h.congr rfl rfl
  subscriptions _ _ h := h.congr rfl rfl
  referencesPeak _ _ h := h.congr rfl rfl
  itemLinks _ _ h := h.congr rfl rfl
  freeItem _ _ h := h.congr rfl rfl
  events _ _ _ h := h.congr rfl rfl
  newItem _ _ h := h.congr rfl rfl
  sessions _ _ _ _ hσ hsame h := by
    obtain ⟨items, next, rfl⟩ := hsame
    exact h.setSession hσ (.of_eq rfl rfl)
  results _ _ _ _ hq hsame h := by
    obtain ⟨-, blocked, granted, rfl⟩ := hsame
    exact h.setResult hq rfl rfl fun _ => Or.inr rfl

/-- Another result is made. -/
theorem newResult (h : w.Asked r s k requestId n exempt) (ret : Result) :
    World.Asked r s k requestId n exempt { w with results := w.results.alloc ret } where
  result := Nat.lt_succ_of_lt h.result
  session := h.session
  since := h.since
  pending ret₁ hr := by
    have hr : (w.results.alloc ret).get r = some ret₁ := hr
    rw [Heap.get_alloc, if_neg h.result.ne] at hr
    exact h.pending ret₁ hr
  answered hr := by
    have hr : (w.results.alloc ret).get r = none := hr
    rw [Heap.get_alloc, if_neg h.result.ne] at hr
    exact h.answered hr

/-- A result is freed; where it is the one of the request, that is answered. -/
theorem freeResult (h : w.Asked r s k requestId n exempt) {q : ℕ}
    (hanswered : q = r → w.HasAnswered s k requestId n) :
    World.Asked r s k requestId n exempt { w with results := w.results.free q } where
  result := h.result
  session := h.session
  since := h.since
  pending ret hr := h.pending ret (Heap.get_of_get_free hr).2
  answered hr := by
    have hr : (w.results.free q).get r = none := hr
    rw [Heap.get_free] at hr
    split at hr
    · rename_i heq
      exact hanswered heq.symm
    · exact h.answered hr

end World.Asked

/-! ### Answers -/

/-- **The RESULT is queued with the count of the request.** -/
theorem ensures_sendResult_answered (q : ℕ) {ret : Result} (hid : ret.requestId = requestId)
    (hcount : ret.requestPayloadCount = n) :
    Attempt.Ensures (fun w => (ret.session = some s ∨ w.sessions.get s = none) ∧
        ∀ σ, w.sessions.get s = some σ → k ≤ σ.ops.length)
      (sendResult q ret) (fun _ => World.HasAnswered s k requestId n) Stop.Any := by
  intro w hw o t hrun
  obtain ⟨hsession, hsince⟩ := hw
  by_cases hgone : w.sessions.get s = none
  · -- a session that is gone has nothing to send
    have hanswered : w.HasAnswered s k requestId n := fun σ hσ =>
      absurd (hgone.symm.trans hσ) nofun
    exact World.HasAnswered.ignoresWrites.sendResult q ret w hanswered o t hrun
  obtain ⟨σ, hσ⟩ := Option.ne_none_iff_exists'.mp hgone
  have hs := hsession.resolve_right hgone
  have hsend := run_sendResult (r := q) hs hσ
  obtain ⟨rfl, rfl⟩ := Prod.mk.inj (Option.some.inj (hrun.symm.trans hsend))
  refine ⟨fun _ _ τ hτ => ?_, fun _ _ => trivial⟩
  have hτ : (w.sessions.set s (σ.completed q ret (w.malloc 0))).get s = some τ := hτ
  rw [Heap.get_set hσ, if_pos rfl] at hτ
  obtain rfl := Option.some.inj hτ
  -- the RESULT is behind the calls there were, and what is held back behind it
  let σ₁ : Session := { σ with results := σ.results.erase q }
  have happended : Session.Answers (σ₁.appended (w.malloc 0) (σ.resultMessage ret)) k
      requestId n := by
    cases w.malloc 0 with
    | false => exact Or.inl rfl
    | true =>
      refine Or.inr ⟨σ.resultMessage ret, ?_, rfl, hid, hcount ▸ rfl⟩
      show _ ∈ (σ.ops ++ [_]).drop k
      rw [List.drop_append_of_le_length (hsince σ hσ)]
      exact List.mem_append_right _ (List.mem_singleton.mpr rfl)
  rw [Session.completed]
  cases ret.entries with
  | nil => exact happended
  | cons first rest => exact happended.of_sentMore (Session.sentMore_publish _ first rest)

/-- A complete result is sent, and freed. -/
theorem leaves_releaseResult_asked (q : ℕ) :
    Leaves (World.Asked r s k requestId n False) (releaseResult q) := by
  refine .read_bind fun ret => ?_
  dsimp only
  generalize (ret.remaining + (2 ^ 32 - 1)) % 2 ^ 32 = remaining
  refine .bind (Q := fun _ w => w.Asked r s k requestId n False ∧ (q = r →
      (ret.requestId = requestId ∧ ret.requestPayloadCount = n) ∧
      (ret.session = some s ∨ w.sessions.get s = none))) (Place.ensures_write trivial ?_) fun _ =>
    .ite (fun _ => .pure fun _ h => h.1) fun _ => .bind (Q := fun _ w =>
      w.Asked r s k requestId n False ∧ (q = r → w.HasAnswered s k requestId n)) ?_ fun _ =>
    Place.ensures_free trivial fun w _ h _ => h.1.freeResult h.2
  · rintro w - ⟨hq, h⟩ -
    refine ⟨h.setResult hq rfl rfl fun _ => Or.inr rfl, fun heq => ?_⟩
    obtain ⟨hrequest, hsession⟩ := h.pending ret (heq ▸ hq)
    exact ⟨hrequest, hsession.resolve_left id⟩
  · have hignores : IgnoresWrites (World.Asked r s k requestId n False) :=
      World.Asked.ignoresWrites
    have hasked := hignores.sendResult q ret
    by_cases heq : q = r
    · refine .assume (fun w h => (h.2 heq).1) fun hrequest => ?_
      exact (hasked.and (ensures_sendResult_answered q hrequest.1 hrequest.2)).imp
        (fun w h => ⟨h.1, (h.2 heq).2, h.1.since⟩) (fun _ _ h => ⟨h.1, fun _ => h.2⟩)
        fun _ _ => trivial
    · exact hasked.imp (fun _ h => h.1) (fun _ _ h => ⟨h, fun hq => absurd hq heq⟩) fun _ h => h

theorem leaves_requestSubresult_asked (q count : ℕ) :
    Leaves (World.Asked r s k requestId n False) (requestSubresult q count) :=
  .bind (World.Asked.ignoresWrites.writeResult q _) fun _ => .ite (.read_bind fun _ =>
    Place.ensures_write trivial fun _ _ h _ => h.2.setResult h.1 rfl rfl fun _ => Or.inr rfl)
    (leaves_releaseResult_asked q)

theorem leaves_releaseSubresult_asked (q : ℕ) :
    Leaves (World.Asked r s k requestId n False) (releaseSubresult q) :=
  .read_bind fun _ => .bind (Q := fun _ => World.Asked r s k requestId n False)
    (Place.ensures_write trivial fun _ _ h _ => h.2.setResult h.1 rfl rfl fun _ => Or.inr rfl)
    fun _ => Leaves.ite (.pure _) (leaves_releaseResult_asked q)

/-- The stand-in for a session answers no request. -/
theorem leaves_releaseDummyUnsubscribeResult_asked (q : ℕ) :
    Leaves (World.Asked r s k requestId n False) (releaseDummyUnsubscribeResult q) := by
  refine .read_bind fun ret => .bind ensures_assert_any fun _ =>
    .assume (fun _ h => h.1) fun hnone => .bind (Q := fun _ w =>
      w.Asked r s k requestId n False ∧ (q = r → w.HasAnswered s k requestId n))
    (Place.ensures_write trivial ?_) fun _ => .ite (fun _ => .pure fun _ h => h.1) fun _ =>
    Place.ensures_free trivial fun w _ h _ => h.1.freeResult h.2
  rintro w - ⟨-, hq, h⟩ -
  refine ⟨h.setResult hq rfl rfl fun _ => Or.inr rfl, fun heq σ hσ => ?_⟩
  rcases (h.pending ret (heq ▸ hq)).2 with hfalse | hsome | hgone
  · exact hfalse.elim
  · exact absurd (hnone.symm.trans hsome) nofun
  · exact absurd (hgone.symm.trans hσ) nofun

theorem leaves_requestResult_asked (t requestId' count : ℕ) :
    Leaves (World.Asked r s k requestId n False) (requestResult t requestId' count) := by
  have hwrites : IgnoresWrites (World.Asked r s k requestId n False) :=
    World.Asked.ignoresWrites
  refine .bind (.malloc hwrites.malloc) fun _ => .bind (.assert _) fun _ => .ite
    (.bind (.writeBufferInit hwrites.malloc) fun _ => .bind (Place.ensures_new fun w h =>
      h.newResult _) fun _ => ?_) (.pure _)
  exact Leaves.read_bind fun _ => .bind (hwrites.write_sessions t ⟨rfl, rfl⟩ (.of_eq rfl rfl))
    fun _ => .pure fun _ h => h

theorem leaves_returnSubscribeInternal_asked (q : ℕ)
    (diagnosticInfo : Option (Value (List UInt8))) (subscription : ℕ) :
    Leaves (World.Asked r s k requestId n False)
      (returnSubscribeInternal q diagnosticInfo subscription) := by
  have hwrites : IgnoresWrites (World.Asked r s k requestId n False) :=
    World.Asked.ignoresWrites
  have hadd : ∀ value, Leaves (World.Asked r s k requestId n False)
      (resultAddUnsignedInteger q diagnosticInfo value) := by
    refine fun value => .bind (.bind .getWorld fun w => ?_) fun _ =>
      .bind (hwrites.writeResult q _) fun _ => leaves_releaseResult_asked q
    cases diagnosticInfo with
    | none => exact hwrites.writeResult q _
    | some value => exact hwrites.writeResult q _
  rw [returnSubscribeInternal_eq]
  refine .bind (.read _ _) fun ret => ?_
  cases ret.session with
  | none => exact .fail _
  | some t =>
    refine .bind (World.Asked.ignoresTable.acceptSubscription q t subscription) ?_
    rintro ⟨id, _ | it⟩
    · exact .bind (hadd 0) fun _ => .pure _
    · exact .bind (hadd id) fun _ => .bind (.malloc hwrites.malloc) fun _ => .ite
        (.bind (.new (fun _ _ h => h.congr rfl rfl) it)
          fun _ => .bind (hwrites.emit rfl) fun _ => .pure _) (.pure _)

/-! ### Sessions -/

/-- When a session ends, it is no more. -/
theorem ensures_closeSession_gone (t : ℕ) (σ : Session) :
    Attempt.Ensures (fun _ => True) (closeSession t σ) (fun _ w => w.sessions.get t = none)
      Stop.Any := by
  have hfree : Attempt.Ensures (fun _ => True) (sessions.free t)
      (fun _ w => w.sessions.get t = none) Stop.Any :=
    Place.ensures_free trivial fun w _ _ _ => (Heap.get_free _ _ _).trans (if_pos rfl)
  refine .bind .anything fun _ => .bind .anything fun _ => .bind .anything fun _ =>
    .ite (fun _ => .bind (.bind hfree fun _ => .bind (Leaves.assert _) fun _ =>
      Leaves.new (fun _ _ h => h) _) fun _ => .pure fun _ h => h) fun _ => .bind hfree fun _ =>
    .pure fun _ h => h

/-- A session that is no more does not come back when another one ends. -/
theorem leaves_closeSession_gone (t : ℕ) (σ : Session) :
    Leaves (fun w => w.sessions.get s = none) (closeSession t σ) := by
  refine .closeSession (fun _ _ h => h) (fun _ _ _ _ _ h => h) (fun w h => ?_)
    fun _ _ _ _ _ _ h => h
  show (w.sessions.free t).get s = none
  rw [Heap.get_free, h, ite_self]

/-- **When a session ends**, its results lose it, and the requests of other sessions keep theirs. -/
theorem ensures_closeSession_asked (t : ℕ) (σ : Session) :
    Attempt.Ensures
      (fun w => w.Inv S none none ∧ w.Asked r s k requestId n False ∧ w.sessions.get t = some σ)
      (closeSession t σ) (fun _ => World.Asked r s k requestId n False) Stop.Any := by
  -- the result of the request may lose its session, if it waits for the one that ends
  have hclose : Leaves (World.Asked r s k requestId n (r ∈ σ.results)) (closeSession t σ) := by
    refine .closeSession (fun _ _ h => h.congr rfl rfl)
      (fun w q hmem ret hq h => h.setResult hq rfl rfl fun heq => Or.inl (heq ▸ hmem))
      (fun w h => ?_) fun w ret _ _ _ _ h => h.newResult ret
    have hget : ∀ τ, (w.sessions.free t).get s = some τ → w.sessions.get s = some τ :=
      fun τ hτ => (Heap.get_of_get_free hτ).2
    refine ⟨h.result, h.session, fun τ hτ => h.since τ (hget τ hτ), fun ret hr => ?_,
      fun hr τ hτ => h.answered hr τ (hget τ hτ)⟩
    obtain ⟨hrequest, hsession⟩ := h.pending ret hr
    refine ⟨hrequest, hsession.imp_right fun hor => hor.imp_right fun hnone => ?_⟩
    show (w.sessions.free t).get s = none
    rw [Heap.get_free, hnone, ite_self]
  by_cases hmem : r ∈ σ.results
  · have hgone : Attempt.Ensures (fun w => t = s ∨ w.sessions.get s = none) (closeSession t σ)
        (fun _ w => w.sessions.get s = none) Stop.Any := by
      by_cases hts : t = s
      · subst hts
        exact (ensures_closeSession_gone t σ).imp (fun _ _ => trivial) (fun _ _ h => h) fun _ h => h
      · exact (leaves_closeSession_gone t σ).imp (fun _ h => h.resolve_left hts) (fun _ _ h => h)
          fun _ h => h
    refine (hclose.and hgone).imp ?_ (fun _ w h => ⟨h.1.result, h.1.session, h.1.since,
      fun ret hr => ⟨(h.1.pending ret hr).1, Or.inr (Or.inr h.2)⟩, h.1.answered⟩)
      fun _ _ => trivial
    rintro w ⟨hinv, h, hσ⟩
    refine ⟨⟨h.result, h.session, h.since, fun ret hr => ⟨(h.pending ret hr).1, Or.inl hmem⟩,
      h.answered⟩, ?_⟩
    obtain ⟨ret, hr, hret⟩ := (hinv.session t σ hσ).results r hmem
    refine (h.pending ret hr).2.elim False.elim fun hor => hor.imp_left fun hs => ?_
    exact Option.some.inj (hret.symm.trans hs)
  · exact hclose.imp (fun w h => ⟨h.2.1.result, h.2.1.session, h.2.1.since, fun ret hr =>
      ⟨(h.2.1.pending ret hr).1, (h.2.1.pending ret hr).2.imp_left False.elim⟩, h.2.1.answered⟩)
      (fun _ w h => ⟨h.result, h.session, h.since, fun ret hr =>
        ⟨(h.pending ret hr).1, (h.pending ret hr).2.imp_left hmem⟩, h.answered⟩) fun _ h => h

/-- A new session is another one. -/
theorem leaves_sessionCreate_asked :
    Leaves (World.Asked r s k requestId n False) sessionCreate := by
  refine .bind (.malloc World.Asked.ignoresWrites.malloc) fun _ => .ite
    (.bind (Place.ensures_new fun w h => ?_) fun _ => .bind (.modifyWorld fun w h => ?_)
      fun _ => .pure _) (.pure _)
  · have hget : (w.sessions.alloc .create).get s = w.sessions.get s := by
      rw [Heap.get_alloc, if_neg h.session.ne]
    refine ⟨h.result, Nat.lt_succ_of_lt h.session, fun σ hσ => h.since σ (hget.symm.trans hσ),
      fun ret hr => ?_, fun hr σ hσ => h.answered hr σ (hget.symm.trans hσ)⟩
    obtain ⟨hrequest, hsession⟩ := h.pending ret hr
    exact ⟨hrequest, hsession.imp_right fun hor => hor.imp_right hget.trans⟩
  · split
    · exact h
    · exact h.congr rfl rfl

/-! ### Every run -/

/-- What is known of a request, whatever is in the hand. -/
abbrev asked (r s k requestId n : ℕ) (_ : Multiset Token) (w : World) : Prop :=
  w.Asked r s k requestId n False

/-- **Every operation keeps the count of a request**, and answers with it. -/
theorem conservesRuns_asked : ConservesRuns anyOwed S anyWorld (asked r s k requestId n) where
  malloc _ _ _ h _ := h.congr rfl rfl
  retain _ q := (World.Asked.ignoresTable.retainSubscription q).moves fun _ _ h => h
  release _ q := (World.Asked.ignoresTable.releaseSubscription q).moves fun _ _ h => h
  write _ q f _ := (World.Asked.ignoresWrites.writeResult q f).moves fun _ _ h => h
  answer _ q := (leaves_releaseResult_asked q).moves fun _ _ h => h
  announce _ q count _ := Leaves.moves (.bind (.modifyWorld fun _ h =>
    h.congr rfl rfl) fun _ =>
    leaves_requestSubresult_asked q count) fun _ _ h => h
  subanswer _ q := (leaves_releaseSubresult_asked q).moves fun _ _ h => h
  dummy _ q := (leaves_releaseDummyUnsubscribeResult_asked q).moves fun _ _ h => h
  owe _ _ _ _ := Leaves.moves (.modifyWorld fun _ h =>
    h.congr rfl rfl) fun _ _ h => h
  redeem _ _ := Leaves.moves (.modifyWorld fun _ h =>
    h.congr rfl rfl) fun _ _ h => h
  oweAlias _ _ := Leaves.moves (.modifyWorld fun _ h =>
    h.congr rfl rfl) fun _ _ h => h
  freeRepublish _ handle := Leaves.moves (.free (fun _ _ h =>
    h.congr rfl rfl) handle) fun _ _ h => h
  publish _ handle item := (World.Asked.ignoresWrites.publish handle item).moves fun _ _ h => h
  take _ t := (World.Asked.ignoresWrites.sessionOutMessageCreate t).moves fun _ _ h => h
  slots _ t count _ :=
    (World.Asked.ignoresWrites.sessionAddFreePublishSlots t count).moves fun _ _ h => h
  subscribe _ q diagnosticInfo subscription :=
    (leaves_returnSubscribeInternal_asked q diagnosticInfo subscription).moves fun _ _ h => h
  request _ type key :=
    (World.Asked.ignoresTable.requestSubscription type key).moves fun _ _ h => h
  append _ t messageId requestId payloadCount buffer _ :=
    (World.Asked.ignoresWrites.sessionAppendOutMessage t messageId requestId payloadCount buffer
      []).moves fun _ _ h => h
  requestResult _ t requestId count _ _ :=
    (leaves_requestResult_asked t requestId count).moves fun _ _ h => h
  unsubscribe _ t id := (World.Asked.ignoresTable.unsubscribeItem t id).moves fun _ _ h => h
  create _ := leaves_sessionCreate_asked.moves fun _ _ h => h
  hello _ _ _ := Place.ensures_write trivial fun _ _ h _ =>
    h.2.2.1.setSession h.2.2.2 (.of_eq rfl rfl)
  close _ t σ := (ensures_closeSession_asked t σ).imp (fun _ h => ⟨h.1, h.2.2.1, h.2.2.2⟩)
    (fun _ _ h => h) fun _ h => h
  deleteItem _ it := (World.Asked.ignoresTable.deletePublishItem it).moves fun _ _ h => h

/-! ### The message of the request -/

section Message

variable {M : Machine} {app : Application} {fuel : ℕ} {σ : Session}

/-- A message is handled, and no result has been made: the session is as it was. -/
structure World.Asking (r s : ℕ) (σ : Session) (w : World) : Prop where
  inv : w.Inv False none none
  session : w.sessions.get s = some σ
  next : w.results.next = r

/-- No result has been made, or the one of the request. -/
def World.AskedOrNot (r s k requestId n : ℕ) (w : World) : Prop :=
  w.results.next = r ∨ w.Asked r s k requestId n False

theorem ignoresWrites_next : IgnoresWrites (fun w => w.results.next = r) where
  malloc _ _ h := h
  setResult _ _ _ _ _ _ _ h := h
  publishData _ _ h := h
  events _ _ _ h := h
  sessions _ _ _ _ _ _ _ h := h

/-- **The result of a request has its count.** -/
theorem ensures_requestResult_asks (hne : n ≠ 0) :
    Attempt.Ensures (World.Asking r s σ) (requestResult s requestId n)
      (fun o w => (o = none → w.results.next = r) ∧
        ∀ q, o = some q → Holds False (asked r s σ.ops.length requestId n) 0 w) Stop.Any := by
  intro w hw o t hrun
  refine ⟨fun a ha => ?_, fun _ _ => trivial⟩
  subst ha
  have hinv := (preserves_requestResult hne).ok hw.inv hrun
  cases hmalloc : w.malloc 0 with
  | true =>
    have hrequest := run_requestResult requestId hne hw.session hmalloc
    obtain ⟨ha, rfl⟩ := Prod.mk.inj (Option.some.inj (hrun.symm.trans hrequest))
    obtain rfl := Except.ok.inj ha
    obtain rfl := hw.next
    have hs : s < w.sessions.next := Heap.lt_next hw.session
    refine ⟨by simp, fun q _ => ⟨hinv, Nat.lt_succ_self _, hs,
      fun τ hτ => ?_, fun ret hr => ?_, fun hr => ?_⟩⟩
    · have hτ : (w.sessions.set s _).get s = some τ := hτ
      rw [Heap.get_set hw.session, if_pos rfl] at hτ
      obtain rfl := Option.some.inj hτ
      exact Nat.le_refl _
    · have hr : (w.results.alloc _).get w.results.next = some ret := hr
      rw [Heap.get_alloc, if_pos rfl] at hr
      obtain rfl := Option.some.inj hr
      exact ⟨⟨rfl, rfl⟩, Or.inr (Or.inl rfl)⟩
    · have hr : (w.results.alloc _).get w.results.next = none := hr
      rw [Heap.get_alloc, if_pos rfl] at hr
      cases hr
  | false =>
    have hnone : (requestResult s requestId n).run w =
        some (.ok none, { w with malloc := fun n => w.malloc (n + 1) }) := by
      rw [requestResult, Attempt.run_bind_ok (run_malloc w), hmalloc, assert, if_pos hne]
      rfl
    obtain ⟨ha, rfl⟩ := Prod.mk.inj (Option.some.inj (hrun.symm.trans hnone))
    obtain rfl := Except.ok.inj ha
    exact ⟨fun _ => hw.next, fun q hq => absurd hq (by simp)⟩

/-- What a message does while no result is made. -/
theorem ensures_calls_next {α : Type} {m : Calls α}
    (h : Leaves (fun w => w.results.next = r) m) :
    Attempt.Ensures (fun p : World × ReadBuffer => p.1.results.next = r) (calls m)
      (fun _ p => p.1.results.next = r) Stop.Any :=
  ensures_calls h

/-- The hello message asks for nothing. -/
theorem ensures_sessionHandleHelloMessage_next (count : ℕ) :
    Attempt.Ensures (fun p : World × ReadBuffer => p.1.results.next = r)
      (sessionHandleHelloMessage M fuel s requestId count)
      (fun _ p => p.1.results.next = r) Stop.Any := by
  have hread : ∀ {α : Type} (m : Cbor.Reading α), Attempt.Ensures
      (fun p : World × ReadBuffer => p.1.results.next = r) (reading m)
      (fun _ p => p.1.results.next = r) Stop.Any := fun m =>
    (ensures_read (P := fun w => w.results.next = r) m).imp (fun _ h => h) (fun _ _ h => h)
      fun _ _ => trivial
  refine .ite (fun _ => .pure fun _ h => h) fun _ => .bind (hread _) fun items => ?_
  split
  · exact .bind (ensures_calls_next (.writeBufferInit ignoresWrites_next.malloc)) fun _ =>
      .bind (ensures_calls_next .getWorld) fun _ => .bind (ensures_calls_next
        (ignoresWrites_next.sessionAppendOutMessage _ _ _ _ _ _)) fun _ =>
      .bind (ensures_calls_next (.read _ _)) fun _ => .bind (ensures_calls_next
        (.write (fun _ _ h => h) _ _)) fun _ => .pure fun _ h => h
  · exact .pure fun _ h => h

/-- **A message that asks for elements is the request of a new result**, or of none. -/
theorem ensures_dispatch_asked (messageId : ℕ) :
    Attempt.Ensures (fun p : World × ReadBuffer => p.1.Asking r s σ)
      (dispatch M app fuel s messageId requestId n)
      (fun _ p => p.1.AskedOrNot r s σ.ops.length requestId n) Stop.Any := by
  have hJ : ConservesRuns anyOwed False anyWorld (asked r s σ.ops.length requestId n) :=
    conservesRuns_asked
  have hpre : ∀ p : World × ReadBuffer, p.1.Asking r s σ →
      p.1.AskedOrNot r s σ.ops.length requestId n := fun _ h => Or.inl h.next
  have hrequest : n ≠ 0 → ∀ {α : Type} (f : Option ℕ → Handling α),
      Attempt.Ensures (fun p : World × ReadBuffer => p.1.results.next = r) (f none)
        (fun _ p => p.1.AskedOrNot r s σ.ops.length requestId n) Stop.Any →
      (∀ q, ConservesRuns.Handles False (asked r s σ.ops.length requestId n) 0 (f (some q)) 0) →
      Attempt.Ensures (fun p : World × ReadBuffer => p.1.Asking r s σ)
        (calls (requestResult s requestId n) >>= f)
        (fun _ p => p.1.AskedOrNot r s σ.ops.length requestId n) Stop.Any := by
    intro hne α f hnone hsome
    refine .bind (ensures_calls (ensures_requestResult_asks hne)) ?_
    rintro (_ | q)
    · exact hnone.imp (fun _ h => h.1 rfl) (fun _ _ h => h) fun _ h => h
    · exact (hsome q).imp (fun _ h => h.2 q rfl) (fun _ _ h => Or.inr h.2) fun _ h => h
  refine .bind (ensures_calls (Place.ensures_read trivial)) fun τ => .ite (fun _ => ?_)
    fun _ => .bind ((ensures_calls (Leaves.getWorld (P := World.Asking r s σ))).imp
      (fun _ h => h.2) (fun _ _ h => h) fun _ h => h) fun w => ?_
  · exact (ensures_sessionHandleHelloMessage_next n).imp (fun _ h => h.2.next)
      (fun _ _ h => Or.inl h) fun _ h => h
  split
  · exact .pure hpre
  split
  · rename_i handleFunction _
    cases handleFunction with
    | processed => exact .pure hpre
    | unsubscribe =>
      by_cases hn : n = 0
      · -- the assertion of `wpcp_request_result` fails
        refine .bind (Q := fun _ _ => False) (ensures_calls (Q := fun _ _ => False)
          (P := fun _ => True) ?_ |>.imp (fun _ _ => trivial) (fun _ _ h => h) fun _ h => h)
          fun _ => .assume (fun _ h => h) False.elim
        exact .bind .anything fun _ => .bind (Q := fun _ _ => False)
          (ensures_assert_not (by simp [hn]) trivial) fun _ => .assume (fun _ h => h) False.elim
      · exact hrequest hn _ (.pure fun _ h => Or.inl h) fun q =>
          @ConservesRuns.handles_unsubscribeItems _ _ _ 0 hJ M app s q (fun _ => trivial) n true
  · rename_i handler _ _ _
    unfold callHandleFunctionItems
    split
    · exact .fail trivial
    refine .ite (fun hn => ?_) fun _ => ?_
    · refine .bind (ensures_calls (ensures_assert_any.imp (fun _ h => h) (fun _ _ h => h.2)
        fun _ h => h)) fun _ => hrequest hn _ (.pure fun _ h => Or.inl h) fun q => ?_
      exact .bind (@ConservesRuns.handles_handleItems _ _ _ 0 hJ M app fuel handler _ q
        (fun _ _ _ => trivial) messageId n true)
        fun ret => .ite (fun _ => ensures_atEnd (P := Holds False _ 0)) fun _ =>
        .pure fun _ h => h
    · refine (Attempt.Ensures.bind (ensures_calls_next (r := r)
        (.writeBufferInit ignoresWrites_next.malloc)) fun _ => .bind (ensures_calls_next
        (ignoresWrites_next.sessionAppendOutMessage _ _ _ _ _ _)) fun _ =>
        ensures_atEnd (P := fun w => w.results.next = r)).imp (fun _ h => h.next)
        (fun _ _ h => Or.inl h) fun _ h => h

/-- The message is for a session. -/
theorem ensures_dispatch_session (messageId : ℕ) :
    Attempt.Ensures (fun p : World × ReadBuffer => p.1.sessions.get s = none)
      (dispatch M app fuel s messageId requestId n) (fun _ _ => False) Stop.Any :=
  .bind (ensures_calls (P := fun w => w.sessions.get s = none) (Place.ensures_read trivial))
    fun _ => .assume (fun _ h => absurd (h.1.symm.trans h.2) nofun) False.elim

/-- **A message that makes a result asks for its elements.** -/
theorem exists_asked_of_run {w' : World} {data size messageId : ℕ} {ret : Bool} {b : ReadBuffer}
    (hinv : w.Inv False none none)
    (hheader : (readMessageHeader M).run (readBuffer M data size w.malloc) =
      some (.ok (messageId, requestId, n), b))
    (hrun : (sessionHandleInMessage M app fuel s data size).run w = some (.ok ret, w'))
    (hadmitted : w.results.next < w'.results.next) :
    ∃ σ, w.sessions.get s = some σ ∧
      w'.Asked w.results.next s σ.ops.length requestId n False := by
  obtain ⟨b', hrun⟩ := handleMessage_of_run hrun
  have hdispatch : (dispatch M app fuel s messageId requestId n).run (w.handling, b) =
      some (.ok ret, (w', b')) := by
    rw [handleMessage, Attempt.run_bind_ok (run_reading_ok _ hheader)] at hrun
    exact hrun
  cases hσ : w.sessions.get s with
  | none => exact ((ensures_dispatch_session messageId).ok (s := (w.handling, b)) hσ hdispatch).elim
  | some σ =>
    refine ⟨σ, rfl, ?_⟩
    have hasking : w.handling.Asking w.results.next s σ := ⟨hinv.handling, hσ, rfl⟩
    rcases (ensures_dispatch_asked messageId).ok (s := (w.handling, b)) hasking hdispatch with
      hnext | hasked
    · exact absurd hnext hadmitted.ne'
    · exact hasked

end Message

/-! ### In every run -/

/-- From one world to another the session has queued the RESULT of a request, with a length that
is right in the case `p` only; or it is marked to be killed. -/
def World.Announces (s requestId n : ℕ) (p : Prop) (w w' : World) : Prop :=
  ∀ σ σ', w.sessions.get s = some σ → w'.sessions.get s = some σ' → σ'.out.kill = true ∨
    ∃ message, .append message ∈ σ'.ops.drop σ.ops.length ∧ message.messageId = .result ∧
      message.requestId = requestId ∧ (message.Fits n ↔ p)

theorem World.Asked.announces {w' : World} {σ : Session} (hσ : w.sessions.get s = some σ)
    (h : w'.Asked r s σ.ops.length requestId n False) (hgone : w'.results.get r = none) :
    World.Announces s requestId n (n ≤ 2 ^ 31 - 2) w w' := by
  intro σ₁ σ' hσ₁ hσ'
  obtain rfl := Option.some.inj (hσ.symm.trans hσ₁)
  refine (h.answered hgone σ' hσ').imp_right ?_
  rintro ⟨message, hmem, hresult, hid, hcount⟩
  exact ⟨message, hmem, hresult, hid, message.fits_iff hcount⟩

/-- **The RESULT of every request announces its length exactly if the request has at most
`2 ^ 31 - 2` elements.** A message is handled that announces `n` elements for a request, and a
result is made. When the last element has been answered, which is in the same message or in a
later step of a run, the RESULT is queued; its product and its sum fit 32 bits for these `n` and
no others. -/
theorem announces_of_run {app : Application} {sizeT : Cbor.SizeT} {callbacks : Callback → Bool}
    {malloc : ℕ → Bool} {acts : List Act} {w w₁ : World} {s : ℕ} {mem : ℕ → UInt8}
    {data size fuel messageId requestId n : ℕ} {b : ReadBuffer}
    (hrun : Transition.Run (World.step app) Transition.anyStep
      (World.create sizeT callbacks malloc) acts w)
    (hheader : (readMessageHeader ⟨w.sizeT, mem⟩).run
      (readBuffer ⟨w.sizeT, mem⟩ data size w.malloc) = some (.ok (messageId, requestId, n), b))
    (hmessage : w.step app (.inMessage s mem data size fuel) = some w₁)
    (hadmitted : w.results.next < w₁.results.next) :
    (w₁.results.get w.results.next = none →
      w.Announces s requestId n (n ≤ 2 ^ 31 - 2) w₁) ∧
    ∀ acts' act w₂ w₃,
      Transition.Run (World.step app) Transition.anyStep w₁ acts' w₂ →
      w₂.step app act = some w₃ → (w₂.results.get w.results.next).isSome →
      w₃.results.get w.results.next = none →
      w₂.Announces s requestId n (n ≤ 2 ^ 31 - 2) w₃ := by
  have hJ {k : ℕ} : ConservesRuns anyOwed False anyWorld (asked w.results.next s k requestId n) :=
    conservesRuns_asked
  have hinv : w.Inv False none none := inv_of_run False.elim hrun
  obtain ⟨ret, hhandled⟩ := Calls.exists_run_of_after hmessage
  obtain ⟨σ, hσ, hasked⟩ := exists_asked_of_run hinv hheader hhandled hadmitted
  refine ⟨fun hgone => hasked.announces hσ hgone, fun acts' act w₂ w₃ hrun' hstep halive hgone =>
    ?_⟩
  have hinv₁ : w₁.Inv False none none := inv_of_run False.elim (.snoc hrun trivial hmessage)
  obtain ⟨hinv₂, hasked₂⟩ : Holds False (asked w.results.next s σ.ops.length requestId n) 0 w₂ :=
    hrun'.invariant (motive := fun _ w => Holds False (asked _ s σ.ops.length requestId n) 0 w)
      ⟨hinv₁, hasked⟩ fun _ _ _ _ h _ hst => hJ.holds_step h hst
  -- the calls that are counted are those before the step
  intro σ₂ σ₃ hσ₂ hσ₃
  have hfrom : w₂.Asked w.results.next s σ₂.ops.length requestId n False :=
    ⟨hasked₂.result, hasked₂.session, fun σ' hσ' => by
      obtain rfl := Option.some.inj (hσ₂.symm.trans hσ')
      exact Nat.le_refl _, hasked₂.pending, fun hnone => by
      rw [hnone] at halive
      exact absurd halive nofun⟩
  obtain ⟨-, hasked₃⟩ := @ConservesRuns.holds_step _ _ 0 hJ app _ _ _ ⟨hinv₂, hfrom⟩ hstep
  exact hasked₃.announces hσ₂ hgone σ₂ σ₃ hσ₂ hσ₃

/-- Two subscriptions are asked for, and accepted one after the other. -/
theorem announces_two : ∃ w w₁ w₂ w₃,
    Transition.Run (World.step silent) Transition.anyStep
      (World.create .bits64 subscriptionCallbacks fun _ => true) [.sessionCreate, hello] w ∧
    w.step silent (subscribeBoth 4 1 2) = some w₁ ∧
    w₁.step silent (accept 0 0) = some w₂ ∧ w₂.step silent (accept 0 1) = some w₃ ∧
    w₂.Announces 0 1 2 (2 ≤ 2 ^ 31 - 2) w₃ := by
  let bytes : List UInt8 :=
    [0x84, 4, 0x01, 0xa1, 0x62, 0x69, 0x64, 1, 0xa1, 0x62, 0x69, 0x64, 2]
  let header (w : World) : Option (Except Cbor.Failure (ℕ × ℕ × ℕ) × ReadBuffer) :=
    (readMessageHeader (.withMessage w.sizeT 1000 bytes)).run
      (readBuffer (.withMessage w.sizeT 1000 bytes) 1000 13 w.malloc)
  have hcheck : (Transition.execute (World.step silent) Transition.anyStep
      (World.create .bits64 subscriptionCallbacks fun _ => true) [.sessionCreate, hello]).any
        (fun w => (header w).any (fun p => p.1.toOption = some (4, 1, 2)) &&
          (w.step silent (subscribeBoth 4 1 2)).any fun w₁ =>
            decide (w.results.next = 0 ∧ w.results.next < w₁.results.next) &&
            (w₁.step silent (accept 0 0)).any fun w₂ => (w₂.results.get 0).isSome &&
              (w₂.step silent (accept 0 1)).any fun w₃ => (w₃.results.get 0).isNone) = true := by
    decide +kernel
  obtain ⟨w, hw, hfacts⟩ := (Option.any_eq_true _ _).mp hcheck
  obtain ⟨hread, hfacts⟩ := Bool.and_eq_true_iff.mp hfacts
  obtain ⟨⟨ret, b⟩, hheader, hret⟩ := (Option.any_eq_true _ _).mp hread
  obtain ⟨w₁, hmessage, hfacts⟩ := (Option.any_eq_true _ _).mp hfacts
  obtain ⟨hnext, hfacts⟩ := Bool.and_eq_true_iff.mp hfacts
  obtain ⟨w₂, hfirst, hfacts⟩ := (Option.any_eq_true _ _).mp hfacts
  obtain ⟨halive, hfacts⟩ := Bool.and_eq_true_iff.mp hfacts
  obtain ⟨w₃, hsecond, hgone⟩ := (Option.any_eq_true _ _).mp hfacts
  obtain ⟨hzero, hlt⟩ := of_decide_eq_true hnext
  have hret : ret = .ok (4, 1, 2) := by
    cases ret with
    | ok p => exact congrArg Except.ok (Option.some.inj (of_decide_eq_true hret))
    | error e => exact absurd (of_decide_eq_true hret) nofun
  rw [hret] at hheader
  have hrun := Transition.run_of_execute hw
  refine ⟨w, w₁, w₂, w₃, hrun, hmessage, hfirst, hsecond, ?_⟩
  exact (announces_of_run hrun hheader hmessage hlt).2 _ _ w₂ w₃ (.snoc .nil trivial hfirst) hsecond
    (hzero ▸ halive) (hzero ▸ Option.isNone_iff_eq_none.mp hgone)

end Wpcp
