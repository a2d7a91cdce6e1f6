import Wpcp.Session.Disposal
import Wpcp.Session.Orphaned
import Wpcp.Session.Released

/-!
# The stand-in for a deleted session

`wpcp_session_delete` turns the memory of a session that has publish items into a result, and
asks the application to unsubscribe the items one after the other, each time with this result.
The application may answer within the callback or later, in any order: the stand-in counts the
answers that are still to come, as long as the loop runs it waits for one at least, and the last
answer frees it (`Wpcp.World.StandsIn`).

**Every session with items is deleted so, whatever the schedule of the answers, exactly if its
queued messages lead to the marker, the callback is set and the references to its subscriptions
have not wrapped** (`Wpcp.unsubscribesItems_iff`). A queue that leads to a message already handed
out is one that the library itself makes (`Wpcp.not_unsubscribesItems`).
-/

namespace Wpcp

open Linked (IsPath)
open Cbor (Value)

/-! ### The queue of a session that is deleted -/

namespace OutSystem

variable {ρ ε : Type}

/-- The queued messages lead to the marker, in no more steps than there have been messages, and
past none that has been handed out. -/
def LeadsToMarker (S : OutSystem ρ ε) : Prop :=
  ∃ l, IsPath S.session.next S.session.queuedOutMessages l ∧
    l.length ≤ S.session.messages.length + 1 ∧ ∀ m ∈ l, m ∉ S.handedOutMessages

end OutSystem

/-- The queue leads to the marker if the loop over it does. -/
theorem leadsToMarker_iff {σ : Session} :
    OutSystem.LeadsToMarker ⟨σ.out, σ.handedOut⟩ ↔
      (freeQueuedOutMessages σ.out.next (σ.out.messages.length + 1)
        (OutSystem.handedOutMessages ⟨σ.out, σ.handedOut⟩) σ.out.queuedOutMessages).isSome := by
  constructor
  · rintro ⟨l, hpath, hlength, hfresh⟩
    exact Option.isSome_of_mem
      (freeQueuedOutMessages_of_isPath hpath hlength hpath.nodup hfresh)
  · intro hsome
    obtain ⟨freed, hfreed⟩ := Option.isSome_iff_exists.mp hsome
    obtain ⟨l, hpath, -, hlength, hfresh⟩ := exists_isPath_of_freeQueuedOutMessages hfreed
    exact ⟨l, hpath, hlength, hfresh⟩

/-- **The first loop of `wpcp_session_delete`** comes to an end where the queue leads to the
marker. -/
theorem run_releaseQueuedOutMessages_iff {w w' : World} {σ : Session} :
    (releaseQueuedOutMessages σ).run w = some (.ok (), w') ↔
      w' = w ∧ OutSystem.LeadsToMarker ⟨σ.out, σ.handedOut⟩ := by
  rw [releaseQueuedOutMessages, leadsToMarker_iff]
  split
  · rename_i hfreed
    rw [hfreed]
    constructor
    · exact fun h => ⟨(Prod.mk.inj (Option.some.inj h)).2.symm, rfl⟩
    · rintro ⟨rfl, -⟩
      rfl
  · rename_i hnone
    rw [hnone]
    exact iff_of_false (by simp) fun h => absurd h.2 (by simp)

/-! ### What is claimed -/

/-- Of some items those on a subscription; the items are as in a heap. -/
def countOn (own : Heap PublishItem) (items : List ℕ) (k : ℕ) : ℕ :=
  items.countP fun it => (own.get it).any fun i => i.subscription = k

@[simp] theorem countOn_nil (own : Heap PublishItem) (k : ℕ) : countOn own [] k = 0 := rfl

/-- The answers to a result that the application owes. -/
def World.awaited (w : World) (r : ℕ) : ℕ := w.owed.countP fun o => o.result = some r

/-- The call is an answer to the callback in which the stand-in is given. -/
def Call.AnswersStandIn (r : ℕ) (call : Call) : Prop :=
  ∃ diagnosticInfo subscription, call = .unsubscribe r diagnosticInfo subscription

/-- **A round of the last loop of `wpcp_session_delete`.** When the callback is called, the item
is in no handle any more and the stand-in is still there; the callback is called once, with the
own subscription of the item. -/
def World.Unsubscribes (app : Application) (own : Heap PublishItem) (r it remaining : ℕ)
    (w w' : World) : Prop :=
  ∃ i w₁ referenced, own.get it = some i ∧
    (deletePublishItem it).run w = some (.ok i.subscription, w₁) ∧
    (w₁.results.get r).isSome ∧
    (∀ k s, w₁.subscriptions.get k = some s → it ∉ s.publishHandle.items) ∧
    (unsubscribeCallback app r remaining i.subscription).run w₁ = some (.ok (), w') ∧
    w'.events = w.events ++ [.released it referenced,
      .unsubscribe r remaining (some i.subscription)]

/-- The rounds of the loop, with as many remaining as there are items left. -/
inductive World.UnsubscribesAll (app : Application) (own : Heap PublishItem) (r : ℕ) :
    List ℕ → World → World → Prop
  | nil {w : World} : UnsubscribesAll app own r [] w w
  | cons {it : ℕ} {items : List ℕ} {w w₁ w' : World}
      (round : w.Unsubscribes app own r it items.length w₁)
      (rest : UnsubscribesAll app own r items w₁ w') : UnsubscribesAll app own r (it :: items) w w'

/-- There is a first round, if there are items. -/
theorem World.UnsubscribesAll.first {app : Application} {own : Heap PublishItem} {r it : ℕ}
    {items : List ℕ} {w w' : World} (h : World.UnsubscribesAll app own r (it :: items) w w') :
    ∃ w₁, w.Unsubscribes app own r it items.length w₁ := by
  cases h with
  | cons round _ => exact ⟨_, round⟩

/-- **Deleting a session unsubscribes its items**, in the order of their ids, where the
application answers in its callbacks as it does and makes the calls `later` afterwards: the
stand-in waits for as many answers as are owed and is freed with the last one, and the references
to a subscription are then less by the items the session had on it. -/
structure World.UnsubscribesItems (app : Application) (later : List Call) (s : ℕ) (σ : Session)
    (w : World) : Prop where
  increasing : σ.items.Pairwise fun it it' => ∀ i i', w.publishItems.get it = some i →
    w.publishItems.get it' = some i' → i.subscriptionid < i'.subscriptionid
  deleted : ∃ w₀ w₁ w₂, (closeSession s σ).run w = some (.ok (some w.results.next), w₀) ∧
    World.UnsubscribesAll app w.publishItems w.results.next σ.items w₀ w₁ ∧
    (sessionDelete app s).run w = some (.ok (), w₁) ∧
    (performAll later).run w₁ = some (.ok (), w₂) ∧
    (w₀.results.get w.results.next).elim 0 Result.remaining = σ.items.length ∧
    (w₂.results.get w.results.next).elim 0 Result.remaining = w₂.awaited w.results.next ∧
    (w₂.results.get w.results.next = none ↔ w₂.awaited w.results.next = 0) ∧
    (w₂.awaited w.results.next = 0 →
      ∀ k, w₂.references k + countOn w.publishItems σ.items k = w.references k)

/-- The session is deleted so for every application that does nothing in its callbacks but answer,
and for every schedule of the answers. -/
def World.UnsubscribesAnyhow (s : ℕ) (σ : Session) (w : World) : Prop :=
  ∀ (app : Application) (later : List Call),
    (∀ w', ∀ call ∈ app w', call.AnswersStandIn w.results.next) →
    (∀ call ∈ later, call.AnswersStandIn w.results.next) → w.UnsubscribesItems app later s σ

/-- What has to hold before. -/
structure World.DeletesItems (σ : Session) (w : World) : Prop where
  queue : OutSystem.LeadsToMarker ⟨σ.out, σ.handedOut⟩
  callback : w.callbacks .unsubscribe = true
  references : ∀ k, countOn w.publishItems σ.items k ≤ w.references k

/-- The world in which the callback of the last loop has been called. -/
def World.asked (w : World) (r remaining k : ℕ) : World :=
  { w with
    events := w.events ++ [.unsubscribe r remaining (some k)]
    owed := w.owed ++ [.unsubscribe r (some k)] }

/-! ### The stand-in -/

variable {w w' : World} {app : Application} {own : Heap PublishItem} {r it : ℕ} {items : List ℕ}
  {final : ℕ → ℕ}

/-- **The stand-in waits**: for an answer for each item that is left and each one that is owed.
A subscription has the references that it keeps at the end, one for each item that is left, and
one for each answer that is owed. -/
structure World.StandsIn (own : Heap PublishItem) (final : ℕ → ℕ) (r : ℕ) (items : List ℕ)
    (w : World) : Prop where
  orderly : w.Orderly
  callback : w.callbacks .unsubscribe = true
  nodup : items.Nodup
  item : ∀ it ∈ items, ∃ i, own.get it = some i ∧ w.publishItems.get it = some i
  references : ∀ k, w.references k =
    final k + countOn own items k + w.owed.count (.unsubscribe r (some k))
  owed : ∀ o ∈ w.owed, o.result = some r → ∃ k, o = .unsubscribe r (some k)
  fits : items.length + w.awaited r < 2 ^ 32
  gone : items.length + w.awaited r = 0 → w.results.get r = none
  waits : 0 < items.length + w.awaited r → ∃ ret, w.results.get r = some ret ∧
    ret.session = none ∧ ret.remaining = items.length + w.awaited r

/-- **An answer to the stand-in** is counted, or frees it. -/
theorem exists_releaseDummyUnsubscribeResult {ret : Result} (hr : w.results.get r = some ret)
    (hsession : ret.session = none) (hpos : 0 < ret.remaining) (hfits : ret.remaining < 2 ^ 32) :
    ∃ heap : Heap Result, (releaseDummyUnsubscribeResult r).run w =
        some (.ok (), { w with results := heap }) ∧
      heap.get r = if ret.remaining = 1 then none
        else some { ret with remaining := ret.remaining - 1 } := by
  rw [releaseDummyUnsubscribeResult, Attempt.run_bind_ok (Place.run_read hr), assert,
    if_pos hsession]
  dsimp only
  rw [decrement_eq hpos hfits]
  refine ⟨if ret.remaining = 1 then (w.results.set r { ret with
    remaining := ret.remaining - 1 }).free r else w.results.set r { ret with
      remaining := ret.remaining - 1 }, ?_, ?_⟩
  · refine (Attempt.run_bind_ok (Place.run_write hr _)).trans ?_
    by_cases hone : ret.remaining = 1
    · rw [if_neg (by omega), if_pos hone]
      exact Place.run_free (p := results) ((Heap.get_set hr _ r).trans (if_pos rfl))
    · rw [if_pos (by omega), if_neg hone]
      rfl
  · split
    · exact (Heap.get_free _ _ _).trans (if_pos rfl)
    · exact (Heap.get_set hr _ r).trans (if_pos rfl)

namespace World.StandsIn

/-- Answers that are owed are a count that the last answer brings to none. -/
theorem awaited_erase {o : Owed} (ho : o ∈ w.owed) (hr : o.result = some r) :
    World.awaited { w with owed := w.owed.erase o } r + 1 = w.awaited r := by
  have hpos : 0 < w.awaited r := List.countP_pos_iff.mpr ⟨o, ho, decide_eq_true hr⟩
  rw [World.awaited, World.awaited, List.countP_erase, if_pos ⟨ho, decide_eq_true hr⟩]
  exact Nat.sub_add_cancel hpos

/-- **A call that answers** returns; one that is not owed does nothing. -/
theorem exists_answer (h : w.StandsIn own final r items) {call : Call}
    (hcall : call.AnswersStandIn r) :
    ∃ w', call.performLegal.run w = some (.ok (), w') ∧ w'.StandsIn own final r items ∧
      w'.events = w.events := by
  obtain ⟨diagnosticInfo, subscription, rfl⟩ := hcall
  by_cases hlegal : (Call.unsubscribe r diagnosticInfo subscription).Legal w
  swap
  · have hrun : (Call.unsubscribe r diagnosticInfo subscription).performLegal.run w =
      (if (Call.unsubscribe r diagnosticInfo subscription).Legal w then do
        modifyWorld fun w => { w with owed := w.owed.erase (.unsubscribe r subscription) }
        (Call.unsubscribe r diagnosticInfo subscription).perform
      else pure ()).run w := rfl
    rw [if_neg hlegal] at hrun
    exact ⟨w, hrun, h, rfl⟩
  have hmem : Owed.unsubscribe r subscription ∈ w.owed := hlegal.1 _ rfl
  obtain ⟨k, hk⟩ := h.owed _ hmem rfl
  obtain ⟨-, rfl⟩ := Owed.unsubscribe.inj hk
  -- the subscription is released
  let w₁ : World := { w with owed := w.owed.erase (.unsubscribe r (some k)) }
  have hcount : 0 < w.owed.count (.unsubscribe r (some k)) := List.count_pos_iff.mpr hmem
  have hpos : 0 < w₁.references k := by
    have := h.references k
    show 0 < w.references k
    omega
  have horderly : w₁.Orderly := h.orderly.congr rfl rfl rfl
  obtain ⟨w₂, hrelease, hreleased⟩ := horderly.exists_releaseSubscription hpos
  -- the answer is counted
  have hawaited : w₁.awaited r + 1 = w.awaited r := awaited_erase hmem rfl
  obtain ⟨ret, hr, hsession, hremaining⟩ := h.waits (by omega)
  have hr₂ : w₂.results.get r = some ret := hreleased.results ▸ hr
  have hfits := h.fits
  obtain ⟨heap, hdummy, hheap⟩ := exists_releaseDummyUnsubscribeResult hr₂ hsession (by omega)
    (by omega)
  refine ⟨{ w₂ with results := heap }, ?_, ?_, hreleased.events⟩
  · refine (Call.run_performLegal hlegal).trans ?_
    show (returnUnsubscribe r diagnosticInfo (some k)).run w₁ = _
    rw [returnUnsubscribe, Option.elim_some, Attempt.run_bind_ok hrelease,
      Attempt.run_bind_ok (Place.run_read hr₂), hsession]
    exact hdummy
  · have howed : w₂.owed = w.owed.erase (.unsubscribe r (some k)) := hreleased.owed
    have hawaited₂ : World.awaited { w₂ with results := heap } r = w₁.awaited r :=
      congrArg (List.countP _) howed
    refine ⟨hreleased.orderly.congr rfl rfl rfl, ?_, h.nodup, fun it hit => ?_, fun j => ?_,
      fun o ho => ?_, ?_, fun hnone => ?_, fun hsome => ?_⟩
    · exact (congrFun hreleased.callbacks _).trans h.callback
    · obtain ⟨i, hown, hi⟩ := h.item it hit
      exact ⟨i, hown, hreleased.publishItems ▸ hi⟩
    · have hj := hreleased.references j
      have hj₀ := h.references j
      show w₂.references j = _ + List.count _ w₂.owed
      rw [howed, List.count_erase]
      change w₂.references j + _ = w.references j at hj
      by_cases hjk : j = k
      · subst j
        rw [if_pos rfl] at hj
        simp only [beq_self_eq_true, if_true]
        omega
      · rw [if_neg hjk] at hj
        rw [if_neg (by simpa using Ne.symm hjk)]
        omega
    · rw [show ({ w₂ with results := heap } : World).owed = _ from howed] at ho
      exact h.owed o (List.mem_of_mem_erase ho)
    · rw [hawaited₂]
      omega
    · rw [hawaited₂] at hnone
      exact hheap.trans (if_pos (by omega))
    · rw [hawaited₂] at hsome ⊢
      exact ⟨_, hheap.trans (if_neg (by omega)), hsession, by dsimp only; omega⟩

/-- **Calls that answer**, one after the other. -/
theorem exists_performAll {calls : List Call} (h : w.StandsIn own final r items)
    (hcalls : ∀ call ∈ calls, call.AnswersStandIn r) :
    ∃ w', (performAll calls).run w = some (.ok (), w') ∧ w'.StandsIn own final r items ∧
      w'.events = w.events := by
  induction calls generalizing w with
  | nil => exact ⟨w, rfl, h, rfl⟩
  | cons call rest ih =>
    obtain ⟨w₁, hrun, h₁, hevents⟩ := h.exists_answer (hcalls call List.mem_cons_self)
    obtain ⟨w', hrest, h', hevents'⟩ := ih h₁ fun c hc => hcalls c (List.mem_cons_of_mem _ hc)
    exact ⟨w', (Attempt.run_bind_ok hrun).trans hrest, h', hevents'.trans hevents⟩

/-- An item that is left counts on its own subscription. -/
theorem countOn_cons {i : PublishItem} (hi : own.get it = some i) (k : ℕ) :
    countOn own (it :: items) k = countOn own items k + if i.subscription = k then 1 else 0 := by
  rw [countOn, countOn, List.countP_cons, hi, Option.any_some]
  simp only [decide_eq_true_eq]

/-- **The callback of the loop** is called if it is set, with an answer to be given for it. -/
theorem run_unsubscribeCallback (app : Application) (r remaining k : ℕ) (w : World) :
    (unsubscribeCallback app r remaining k).run w =
      if w.callbacks .unsubscribe = true then
        (performAll (app (w.asked r remaining k))).run (w.asked r remaining k)
      else some (.error .aborted, w) := by
  have hrun : (unsubscribeCallback app r remaining k).run w =
      ((if w.callbacks .unsubscribe = true then pure () else Attempt.fail .aborted) >>= fun _ =>
        Wpcp.callback app (.unsubscribe r remaining (some k)) [.unsubscribe r (some k)]).run w :=
          rfl
  rw [hrun]
  split
  · rfl
  · rfl

/-- **A round**: the item is gone, and an answer for it is owed or has been given. -/
theorem exists_round (h : w.StandsIn own final r (it :: items))
    (happ : ∀ w', ∀ call ∈ app w', call.AnswersStandIn r) :
    ∃ w', w.Unsubscribes app own r it items.length w' ∧ w'.StandsIn own final r items := by
  obtain ⟨i, hown, hi⟩ := h.item it List.mem_cons_self
  obtain ⟨hit, hnodup⟩ := List.nodup_cons.mp h.nodup
  have hpos : 0 < w.references i.subscription := by
    have := h.references i.subscription
    rw [countOn_cons hown, if_pos rfl] at this
    omega
  obtain ⟨w₁, hdelete, hreleases⟩ := h.orderly.exists_deletePublishItem hi hpos
  obtain ⟨referenced, hevents⟩ := hreleases.events
  -- the callback is called
  let o : Owed := .unsubscribe r (some i.subscription)
  let w₂ : World := w₁.asked r items.length i.subscription
  have howed : w₂.owed = w.owed ++ [o] := congrArg (· ++ [o]) hreleases.owed
  have hawaited : w₂.awaited r = w.awaited r + 1 := by
    rw [World.awaited, howed, List.countP_append, List.countP_singleton]
    exact congrArg (World.awaited w r + ·) (if_pos (decide_eq_true rfl))
  have hlength : (it :: items).length = items.length + 1 := List.length_cons
  have hfits := h.fits
  have h₂ : w₂.StandsIn own final r items := by
    refine ⟨hreleases.orderly.congr rfl rfl rfl,
      (congrFun hreleases.callbacks _).trans h.callback, hnodup, fun it' hit' => ?_, fun k => ?_,
      fun o' ho' => ?_, by omega, fun hnone => by omega, fun _ => ?_⟩
    · obtain ⟨i', hown', hi'⟩ := h.item it' (List.mem_cons_of_mem _ hit')
      refine ⟨i', hown', ?_⟩
      show w₁.publishItems.get it' = some i'
      rw [hreleases.publishItems, Heap.get_free, if_neg]
      · exact hi'
      · rintro rfl
        exact hit hit'
    · have hk := h.references k
      rw [countOn_cons hown] at hk
      show w₁.references k = _
      rw [hreleases.references, hk, howed, List.count_append, List.count_singleton]
      by_cases hsub : i.subscription = k
      · rw [if_pos hsub, if_pos (by simp [o, hsub])]
        omega
      · rw [if_neg hsub, if_neg (by simpa [o] using hsub)]
        omega
    · rw [howed] at ho'
      intro hr
      rcases List.mem_append.mp ho' with ho' | ho'
      · exact h.owed o' ho' hr
      · exact ⟨i.subscription, List.mem_singleton.mp ho'⟩
    · obtain ⟨ret, hr, hsession, hremaining⟩ := h.waits (by omega)
      exact ⟨ret, hreleases.results ▸ hr, hsession, by omega⟩
  -- and may answer at once
  obtain ⟨w', hanswers, h', hquiet⟩ := h₂.exists_performAll (happ w₂)
  refine ⟨w', ⟨i, w₁, referenced, hown, hdelete, ?_, fun k s hs hmem => ?_, ?_, ?_⟩, h'⟩
  · obtain ⟨ret, hr, -⟩ := h₂.waits (by omega)
    exact Option.isSome_of_mem hr
  · obtain ⟨i', hi', -⟩ := ((hreleases.orderly.handle k s hs).mem it).mp hmem
    rw [hreleases.publishItems] at hi'
    exact (Heap.get_of_get_free hi').1 rfl
  · have hcallback : w₁.callbacks .unsubscribe = true :=
      (congrFun hreleases.callbacks _).trans h.callback
    rw [run_unsubscribeCallback, if_pos hcallback]
    exact hanswers
  · rw [hquiet]
    show w₁.events ++ _ = _
    rw [hevents, List.append_assoc]
    rfl

/-- **All rounds.** -/
theorem exists_rounds (h : w.StandsIn own final r items)
    (happ : ∀ w', ∀ call ∈ app w', call.AnswersStandIn r) :
    ∃ w', World.UnsubscribesAll app own r items w w' ∧ w'.StandsIn own final r [] := by
  induction items generalizing w with
  | nil => exact ⟨w, .nil, h⟩
  | cons it items ih =>
    obtain ⟨w₁, hround, h₁⟩ := h.exists_round happ
    obtain ⟨w', hrest, h'⟩ := ih h₁
    exact ⟨w', .cons hround hrest, h'⟩

end World.StandsIn

/-- The rounds are the loop. -/
theorem World.UnsubscribesAll.run (h : World.UnsubscribesAll app own r items w w') :
    (deletePublishItems app r items).run w = some (.ok (), w') := by
  induction h with
  | nil => rfl
  | cons round rest ih =>
    obtain ⟨i, w₁, referenced, -, hdelete, -, -, hcallback, -⟩ := round
    rw [deletePublishItems, Attempt.run_bind_ok hdelete, Attempt.run_bind_ok hcallback]
    exact ih

/-! ### The end of the session -/

/-- What the end of a session with items leaves: the stand-in, and nothing else is touched of
what the loop uses. -/
structure World.EndsSession (count : ℕ) (w w' : World) : Prop where
  result : ∃ ret, w'.results.get w.results.next = some ret ∧ ret.session = none ∧
    ret.remaining = count
  subscriptionTable : w'.subscriptionTable = w.subscriptionTable
  subscriptions : w'.subscriptions = w.subscriptions
  publishItems : w'.publishItems = w.publishItems
  callbacks : w'.callbacks = w.callbacks
  owed : w'.owed = w.owed

/-- **A session with items ends**, and the stand-in waits for an answer for each of them. -/
theorem exists_run_closeSession_of_items {s : ℕ} {σ : Session} (hinv : w.Inv False none none)
    (hcovered : w.AllCovered) (hσ : w.sessions.get s = some σ)
    (hqueue : OutSystem.LeadsToMarker ⟨σ.out, σ.handedOut⟩) (hitems : σ.items ≠ []) :
    ∃ w', (closeSession s σ).run w = some (.ok (some w.results.next), w') ∧
      w.EndsSession σ.items.length w' := by
  obtain ⟨data, heap, hheap, -, hclose⟩ := OutSystem.exists_run_loops hinv hcovered hσ
    (run_releaseQueuedOutMessages_iff.mpr ⟨rfl, hqueue⟩)
  have hgone : (sessions.free s).run { w with publishData := data, results := heap } = _ :=
    Place.run_free (p := sessions) hσ
  have hlength : σ.items.length ≠ 0 := fun h => hitems (List.length_eq_zero_iff.mp h)
  let ret : Result := ⟨none, none, 0, 0, σ.items.length, 0, .init fun _ => false, [], false⟩
  let w' : World := { w with
    publishData := data
    sessions := w.sessions.free s
    results := heap.alloc ret }
  have hend : (convertSessionToDummyUnsubscribleResult s σ.items.length).run
      { w with publishData := data, results := heap } = some (.ok heap.next, w') := by
    rw [convertSessionToDummyUnsubscribleResult, assert, if_pos hlength]
    exact (Attempt.run_bind_ok hgone).trans rfl
  refine ⟨w', ?_, ⟨⟨ret, ?_, rfl, rfl⟩, rfl, rfl, rfl, rfl, rfl⟩⟩
  · rw [closeSession, hclose, if_pos hlength, ← hheap]
    exact (Attempt.run_bind_ok hend).trans rfl
  · rw [← hheap]
    exact (Heap.get_alloc _ _ _).trans (if_pos rfl)

/-- The items of a session are in the order of their ids. -/
theorem SessionInv.pairwise_items {s : ℕ} {σ : Session} (h : SessionInv w s σ) :
    σ.items.Pairwise fun it it' => ∀ i i', w.publishItems.get it = some i →
      w.publishItems.get it' = some i' → i.subscriptionid < i'.subscriptionid := by
  rw [Session.items, List.pairwise_filterMap, List.pairwise_iff_getElem]
  intro m n hm hn hlt it hit it' hit' i i' hi hi'
  rw [List.getElem_drop] at hit hit'
  have hget := fun (k : ℕ) (item : ℕ) (hk : k < σ.publishItems.length)
    (heq : σ.publishItems[k] = some item) =>
      h.table k item (List.getElem?_eq_some_iff.mpr ⟨hk, heq⟩)
  obtain ⟨j, hj, -, hid⟩ := hget _ _ _ hit
  obtain ⟨j', hj', -, hid'⟩ := hget _ _ _ hit'
  obtain rfl := Option.some.inj (hi.symm.trans hj)
  obtain rfl := Option.some.inj (hi'.symm.trans hj')
  omega

/-- No answer to a result that is still to be allocated is owed. -/
theorem awaited_next_eq_zero (h : counted 0 w) : w.awaited w.results.next = 0 := by
  have hfresh := World.CountedBut.fresh h w.results.next (Nat.le_refl _)
  rw [zero_add] at hfresh
  refine List.countP_eq_zero.mpr fun o ho hr => ?_
  exact (count_eq_zero_iff _ _).mp hfresh o ho (of_decide_eq_true hr)

/-- **When the session has ended, its stand-in waits.** -/
theorem World.EndsSession.standsIn {s : ℕ} {σ : Session} (h : w.EndsSession σ.items.length w')
    (horderly : w.Orderly) (hinv : SessionInv w s σ) (hcounted : counted 0 w)
    (hfits : σ.publishItems.length < 2 ^ 32) (hitems : σ.items ≠ [])
    (hcallback : w.callbacks .unsubscribe = true)
    (hreferences : ∀ k, countOn w.publishItems σ.items k ≤ w.references k) :
    w'.StandsIn w.publishItems (fun k => w.references k - countOn w.publishItems σ.items k)
      w.results.next σ.items := by
  have hawaited : w'.awaited w.results.next = 0 := by
    rw [World.awaited, h.owed]
    exact awaited_next_eq_zero hcounted
  have hnone : ∀ o ∈ w'.owed, o.result ≠ some w.results.next := fun o ho hr =>
    List.countP_eq_zero.mp hawaited o ho (decide_eq_true hr)
  have hlength := List.length_pos_iff.mpr hitems
  have hle := σ.length_items_le
  refine ⟨horderly.congr h.subscriptionTable h.subscriptions h.publishItems,
    (congrFun h.callbacks _).trans hcallback, hinv.nodup_items, fun it hit => ?_, fun k => ?_,
    fun o ho hr => absurd hr (hnone o ho), by omega, fun hnil => by omega, fun _ => ?_⟩
  · obtain ⟨id, hid⟩ := Session.mem_items hit
    obtain ⟨i, hi, -⟩ := hinv.table id it hid
    exact ⟨i, hi, h.publishItems ▸ hi⟩
  · have hzero : w'.owed.count (.unsubscribe w.results.next (some k)) = 0 :=
      List.count_eq_zero.mpr fun hmem => hnone _ hmem rfl
    have := hreferences k
    have hsame : w'.references k = w.references k := by
      rw [World.references, World.references, h.subscriptions]
    rw [hsame, hzero]
    omega
  · obtain ⟨ret, hr, hsession, hremaining⟩ := h.result
    exact ⟨ret, hr, hsession, by omega⟩

/-! ### Every schedule -/

/-- **A session with items is deleted as it is to be**, whatever the schedule of the answers. -/
theorem World.DeletesItems.unsubscribesAnyhow {s : ℕ} {σ : Session} (h : w.DeletesItems σ)
    (hinv : w.Inv False none none) (hcovered : w.AllCovered) (horderly : w.Orderly)
    (hcounted : counted 0 w) (hfits : σ.publishItems.length < 2 ^ 32)
    (hσ : w.sessions.get s = some σ) (hitems : σ.items ≠ []) : w.UnsubscribesAnyhow s σ := by
  intro app later happ hlater
  obtain ⟨w₀, hclose, hends⟩ :=
    exists_run_closeSession_of_items hinv hcovered hσ h.queue hitems
  have hstart := hends.standsIn horderly (hinv.session s σ hσ) hcounted hfits hitems h.callback
    h.references
  obtain ⟨w₁, hrounds, h₁⟩ := hstart.exists_rounds happ
  obtain ⟨w₂, hanswers, h₂, -⟩ := h₁.exists_performAll hlater
  refine ⟨(hinv.session s σ hσ).pairwise_items, w₀, w₁, w₂, hclose, hrounds, ?_, hanswers, ?_, ?_,
    ⟨fun hnone => ?_, fun hzero => ?_⟩, fun hzero k => ?_⟩
  · rw [sessionDelete, Attempt.run_bind_ok (Place.run_read hσ), Attempt.run_bind_ok hclose]
    exact hrounds.run
  · obtain ⟨ret, hr, -, hremaining⟩ := hends.result
    rw [hr, Option.elim_some, hremaining]
  · rcases Nat.eq_zero_or_pos (w₂.awaited w.results.next) with hzero | hpos
    · rw [h₂.gone (by simpa using hzero), hzero]
      rfl
    · obtain ⟨ret, hr, -, hremaining⟩ := h₂.waits (by simpa using hpos)
      rw [hr, Option.elim_some, hremaining, List.length_nil, Nat.zero_add]
  · by_contra hpos
    obtain ⟨ret, hr, -⟩ := h₂.waits (by simpa using Nat.pos_of_ne_zero hpos)
    exact absurd (hnone.symm.trans hr) nofun
  · exact h₂.gone (by simpa using hzero)
  · -- no answer is owed, and so none of those that carry the subscription
    have hcount : w₂.owed.count (.unsubscribe w.results.next (some k)) = 0 :=
      List.count_eq_zero.mpr fun hmem => List.countP_eq_zero.mp hzero _ hmem (decide_eq_true rfl)
    have hk := h₂.references k
    have hle := h.references k
    rw [hcount, countOn_nil] at hk
    omega

/-- The application that answers every request to unsubscribe in the callback, with the result
`r`. -/
def answerAtOnce (r : ℕ) : Application := fun w =>
  match w.events.getLast? with
  | some (.unsubscribe _ _ subscription) => [.unsubscribe r none subscription]
  | _ => []

theorem answersStandIn_answerAtOnce (w : World) :
    ∀ call ∈ answerAtOnce r w, call.AnswersStandIn r := by
  intro call hcall
  rw [answerAtOnce] at hcall
  split at hcall
  · exact ⟨none, _, List.mem_singleton.mp hcall⟩
  · exact absurd hcall List.not_mem_nil

/-- What the application owes and which callbacks are set is left alone by the library. -/
theorem ignoresReleases_owed (c : Callback → Bool) (owed : List Owed) :
    IgnoresReleases fun w => w.callbacks = c ∧ w.owed = owed where
  malloc _ _ h := h
  subscriptionTable _ _ h := h
  subscriptions _ _ h := h
  referencesPeak _ _ h := h
  itemLinks _ _ h := h
  freeItem _ _ h := h
  events _ _ _ h := h

theorem ignoresOutput_owed (c : Callback → Bool) (owed : List Owed) :
    IgnoresOutput fun w => w.callbacks = c ∧ w.owed = owed where
  malloc _ _ h := h
  publishData _ _ h := h
  events _ _ _ h := h
  sessions _ _ _ _ _ _ _ h := h
  results _ _ h := h
  republishHandles _ _ h := h

theorem leaves_returnUnsubscribe_owed (c : Callback → Bool) (owed : List Owed) (r : ℕ)
    (diagnosticInfo : Option (Value (List UInt8))) (subscription : Option ℕ) :
    Leaves (fun w => w.callbacks = c ∧ w.owed = owed)
      (returnUnsubscribe r diagnosticInfo subscription) := by
  have hreleases := ignoresReleases_owed c owed
  have houtput := ignoresOutput_owed c owed
  refine Leaves.bind ?_ fun _ => .bind (.read _ _) fun ret => ?_
  · cases subscription with
    | none => exact .pure _
    | some k => exact hreleases.releaseSubscription k
  · split
    · exact .bind (houtput.resultAddDiagnosticInfo r diagnosticInfo) fun _ => .bind .getWorld
        fun _ => .bind (houtput.writeResult r _) fun _ => houtput.releaseResult r
    · exact houtput.releaseDummyUnsubscribeResult r

/-- **Where each callback is answered at once, nothing is owed after a round** that was not
before. -/
theorem World.Unsubscribes.owed_answerAtOnce {remaining : ℕ}
    (h : w.Unsubscribes (answerAtOnce r) own r it remaining w')
    (hnone : ∀ o ∈ w.owed, o.result ≠ some r) : w'.owed = w.owed := by
  obtain ⟨i, w₁, referenced, -, hdelete, -, -, hcallback, -⟩ := h
  have h₁ : w₁.callbacks = w.callbacks ∧ w₁.owed = w.owed :=
    ((ignoresReleases_owed w.callbacks w.owed).deletePublishItem it).ok ⟨rfl, rfl⟩ hdelete
  rw [World.StandsIn.run_unsubscribeCallback] at hcallback
  split at hcallback
  swap
  · exact absurd hcallback nofun
  -- the answer is the one that is owed last
  have happ : answerAtOnce r (w₁.asked r remaining i.subscription) =
      [.unsubscribe r none (some i.subscription)] := by
    rw [answerAtOnce, show (w₁.asked r remaining i.subscription).events.getLast? = some _ from
      List.getLast?_concat ..]
  have howed : (w₁.asked r remaining i.subscription).owed =
      w.owed ++ [.unsubscribe r (some i.subscription)] := congrArg (· ++ _) h₁.2
  have hlegal : (Call.unsubscribe r none (some i.subscription)).Legal
      (w₁.asked r remaining i.subscription) := by
    refine ⟨fun o ho => ?_, trivial⟩
    obtain rfl := Option.some.inj ho
    rw [howed]
    exact List.mem_append_right _ List.mem_cons_self
  rw [happ] at hcallback
  obtain ⟨e, t, -, heq⟩ | ⟨a, t, hanswer, hrest⟩ := Attempt.run_bind_eq_some.mp hcallback
  · exact absurd heq nofun
  · obtain rfl := (Prod.mk.inj (Option.some.inj hrest)).2
    rw [Call.run_performLegal hlegal] at hanswer
    have hleaves := (leaves_returnUnsubscribe_owed w.callbacks _ r none (some i.subscription)).ok
      (by exact ⟨h₁.1, rfl⟩) hanswer
    rw [hleaves.2, howed]
    show List.erase _ (Owed.unsubscribe r (some i.subscription)) = _
    rw [List.erase_append_right _ fun hmem => hnone _ hmem rfl, List.erase_cons_head,
      List.append_nil]

theorem World.UnsubscribesAll.owed_answerAtOnce
    (h : World.UnsubscribesAll (answerAtOnce r) own r items w w')
    (hnone : ∀ o ∈ w.owed, o.result ≠ some r) : w'.owed = w.owed := by
  generalize happ : answerAtOnce r = app at h
  induction h with
  | nil => rfl
  | cons round _ ih =>
    have hround :=
      (happ ▸ round : World.Unsubscribes (answerAtOnce r) _ _ _ _ _ _).owed_answerAtOnce hnone
    exact (ih (hround ▸ hnone)).trans hround

/-- **Only such a session is deleted so.** -/
theorem World.UnsubscribesAnyhow.deletesItems {s : ℕ} {σ : Session} (h : w.UnsubscribesAnyhow s σ)
    (hcounted : counted 0 w) (hitems : σ.items ≠ []) : w.DeletesItems σ := by
  obtain ⟨-, w₀, w₁, w₂, hclose, hrounds, -, hlater, -, -, -, hreferences⟩ :=
    h (answerAtOnce w.results.next) [] answersStandIn_answerAtOnce nofun
  obtain rfl := (Prod.mk.inj (Option.some.inj hlater)).2
  have h₀ : w₀.callbacks = w.callbacks ∧ w₀.owed = w.owed :=
    ((ignoresOutput_owed w.callbacks w.owed).closeSession (fun _ h => h) σ).ok ⟨rfl, rfl⟩ hclose
  have hnone : ∀ o ∈ w₀.owed, o.result ≠ some w.results.next := by
    rw [h₀.2]
    exact fun o ho hr => List.countP_eq_zero.mp (awaited_next_eq_zero hcounted) o ho
      (decide_eq_true hr)
  refine ⟨?_, ?_, fun k => ?_⟩
  · obtain ⟨e, t, -, heq⟩ | ⟨a, t, hrelease, -⟩ := Attempt.run_bind_eq_some.mp hclose
    · exact absurd heq nofun
    · exact (run_releaseQueuedOutMessages_iff.mp hrelease).2
  · obtain ⟨it, items, hcons⟩ := List.exists_cons_of_ne_nil hitems
    rw [hcons] at hrounds
    obtain ⟨w', i, w₁, referenced, -, hdelete, -, -, hcallback, -⟩ := hrounds.first
    have h₁ := ((ignoresReleases_owed w₀.callbacks w₀.owed).deletePublishItem it).ok
      ⟨rfl, rfl⟩ hdelete
    rw [World.StandsIn.run_unsubscribeCallback] at hcallback
    split at hcallback
    · rename_i hset
      rwa [h₁.1, h₀.1] at hset
    · exact absurd hcallback nofun
  · have howed : w₁.owed = w.owed := (hrounds.owed_answerAtOnce hnone).trans h₀.2
    have hzero : w₁.awaited w.results.next = 0 := by
      rw [World.awaited, howed]
      exact awaited_next_eq_zero hcounted
    have := hreferences hzero k
    omega

/-- In every run the tables of the sessions fit 32 bits. -/
theorem tablesFit_of_run {sizeT : Cbor.SizeT} {callbacks : Callback → Bool} {malloc : ℕ → Bool}
    {acts : List Act} (hrun : Transition.Run (World.step app) Transition.anyStep
      (World.create sizeT callbacks malloc) acts w) : w.TablesFit := by
  have hfits : Holds False (fun _ => World.TablesFit) 0 w :=
    (conservesItems_tablesFit (I := anyWorld)).conserves.of_run False.elim nofun hrun
  exact hfits.2

/-- **Deleting a session unsubscribes each of its items once**, in the order of their ids, and the
stand-in is there as long as it is waited for, whatever the schedule of the answers, where the
application does nothing else in its callbacks: exactly if the queued messages lead to the marker,
the callback is set and no reference is missing. -/
theorem unsubscribesItems_iff {sizeT : Cbor.SizeT} {callbacks : Callback → Bool}
    {malloc : ℕ → Bool} {acts : List Act} (hrun : Transition.Run (World.step app) Transition.anyStep
      (World.create sizeT callbacks malloc) acts w) {s : ℕ} {σ : Session}
    (hσ : w.sessions.get s = some σ) (hitems : σ.items ≠ []) :
    w.UnsubscribesAnyhow s σ ↔ w.DeletesItems σ :=
  ⟨fun h => h.deletesItems (counted_of_run hrun) hitems, fun h =>
    h.unsubscribesAnyhow (inv_of_run False.elim hrun) (covered_of_run hrun) (orderly_of_run hrun)
      (counted_of_run hrun) (tablesFit_of_run hrun s σ hσ) hσ hitems⟩

/-! ### Counts that have not wrapped -/

/-- **No reference is missing** as long as there have been fewer than 2^32 to each
subscription. -/
theorem World.Balanced.countOn_le {S : Prop} {tokens : Multiset Token} (h : w.Balanced S tokens)
    (hpeak : w.referencesPeak < 2 ^ 32) (hitems : items.Nodup) (k : ℕ) :
    countOn w.publishItems items k ≤ w.references k := by
  have hcount : countOn w.publishItems items k = (items.filter fun it =>
    (w.publishItems.get it).any fun i => i.subscription = k).length := List.countP_eq_length_filter
  have hmem : ∀ it, it ∈ items.filter (fun it => (w.publishItems.get it).any fun i =>
      i.subscription = k) → ∃ i, w.publishItems.get it = some i ∧ i.subscription = k := by
    intro it hit
    obtain ⟨i, hi, hk⟩ := (Option.any_eq_true _ _).mp (List.mem_filter.mp hit).2
    exact ⟨i, hi, of_decide_eq_true hk⟩
  rcases hs : w.subscriptions.get k with _ | s
  · rw [hcount, List.length_eq_zero_iff.mpr]
    · exact Nat.zero_le _
    · refine List.eq_nil_iff_forall_not_mem.mpr fun it hit => ?_
      obtain ⟨i, hi, hk⟩ := hmem it hit
      exact (h.absent hpeak k hs).2 it i hi hk
  · have hsub : items.filter _ ⊆ s.publishHandle.items := fun it hit =>
      ((h.handle k s hs).mem it).mpr (hmem it hit)
    have hle := ((hitems.filter _).subperm hsub).length_le
    have hbalance := (h.count hpeak k s hs).le
    rw [hcount, World.references, hs, Option.elim_some]
    omega

/-- **A session whose queue leads to the marker is deleted as it is to be**, where the callback is
set and there have been fewer than 2^32 references to each subscription. -/
theorem deletesItems_of_run {sizeT : Cbor.SizeT} {callbacks : Callback → Bool} {malloc : ℕ → Bool}
    {acts : List Act} (hrun : Transition.Run (World.step app) Transition.anyStep
      (World.create sizeT callbacks malloc) acts w) {s : ℕ} {σ : Session}
    (hσ : w.sessions.get s = some σ) (hqueue : OutSystem.LeadsToMarker ⟨σ.out, σ.handedOut⟩)
    (hcallback : w.callbacks .unsubscribe = true) (hpeak : w.referencesPeak < 2 ^ 32) :
    w.DeletesItems σ :=
  ⟨hqueue, hcallback, (balanced_of_run False.elim hrun).countOn_le hpeak
    ((inv_of_run False.elim hrun).session s σ hσ).nodup_items⟩

/-! ### Two runs -/

/-- Two subscriptions are accepted and the session is deleted. -/
theorem unsubscribesAnyhow_two : ∃ w σ,
    Transition.Run (World.step acceptAll) Transition.anyStep
      (World.create .bits64 subscriptionCallbacks fun _ => true)
      [.sessionCreate, hello, subscribe 4 1, subscribe 4 2] w ∧
    w.sessions.get 0 = some σ ∧ σ.items = [0, 1] ∧ w.UnsubscribesAnyhow 0 σ := by
  have hrun : (sessionAfter subscriptionCallbacks
      [.sessionCreate, hello, subscribe 4 1, subscribe 4 2]).any (fun p =>
        p.2.items = [0, 1] ∧ p.1.callbacks .unsubscribe = true ∧ p.1.referencesPeak = 1 ∧
        (freeQueuedOutMessages p.2.out.next (p.2.out.messages.length + 1)
          (OutSystem.handedOutMessages ⟨p.2.out, p.2.handedOut⟩)
          p.2.out.queuedOutMessages).isSome) = true := by decide +kernel
  obtain ⟨⟨w, σ⟩, hw, hfacts⟩ := (Option.any_eq_true _ _).mp hrun
  obtain ⟨hitems, hcallback, hpeak, hqueue⟩ := of_decide_eq_true hfacts
  obtain ⟨hw, hσ⟩ := run_of_sessionAfter hw
  dsimp only at hitems
  exact ⟨w, σ, hw, hσ, hitems, (unsubscribesItems_iff hw hσ (by rw [hitems]; nofun)).mpr
    (deletesItems_of_run hw hσ (leadsToMarker_iff.mpr hqueue) hcallback
      (by rw [hpeak]; norm_num))⟩

/-- What makes the queue lead to a message that has been handed out: it was queued behind the
marker, and after it has been taken out the next PUBLISH message follows the old link of the
marker. -/
def behindMarker : List Act :=
  [.sessionCreate, hello, takeOut, subscribe 4 1, takeOut, publish 0, subscribe 4 2, takeOut,
    takeOut, publish 0, takeOut]

/-- **A session with items cannot be deleted** then: the message would be freed again. -/
theorem not_unsubscribesItems : ∃ w σ,
    Transition.Run (World.step acceptAll) Transition.anyStep
      (World.create .bits64 subscriptionCallbacks fun _ => true) behindMarker w ∧
    w.sessions.get 0 = some σ ∧ σ.items = [0, 1] ∧ ¬w.UnsubscribesAnyhow 0 σ := by
  have hrun : (sessionAfter subscriptionCallbacks behindMarker).any (fun p =>
        p.2.items = [0, 1] ∧ (freeQueuedOutMessages p.2.out.next (p.2.out.messages.length + 1)
          (OutSystem.handedOutMessages ⟨p.2.out, p.2.handedOut⟩)
          p.2.out.queuedOutMessages).isSome = false) = true := by decide +kernel
  obtain ⟨⟨w, σ⟩, hw, hfacts⟩ := (Option.any_eq_true _ _).mp hrun
  obtain ⟨hitems, hqueue⟩ := of_decide_eq_true hfacts
  obtain ⟨hw, hσ⟩ := run_of_sessionAfter hw
  dsimp only at hitems hqueue
  refine ⟨w, σ, hw, hσ, hitems, fun h => ?_⟩
  have hdeletes := (unsubscribesItems_iff hw hσ (by rw [hitems]; nofun)).mp h
  rw [leadsToMarker_iff.mp hdeletes.queue] at hqueue
  exact absurd hqueue nofun

end Wpcp
