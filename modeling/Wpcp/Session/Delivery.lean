import Wpcp.Session.Entries

/-!
# Every entry is delivered once and in order

The operations of the library move the entries of an item from the result that holds them
back to the publish queue, and from there to the messages handed out, or leave them where
they are; a publish adds one at the end. **In every run the entries of an item are what has
been published to it** (`Wpcp.delivered_of_run`).
-/

namespace Wpcp

open Cbor (WriteBuffer)

variable {S : Prop} {pending : ℕ → List ℕ} {w : World}

/-! ### Results -/

theorem leaves_writeResult_delivers (r : ℕ) (f : WriteBuffer → Option WriteBuffer) :
    Leaves (World.Delivers pending) (writeResult r f) := by
  refine .read_bind fun ret => ?_
  split
  · exact Place.ensures_write trivial fun w _ h _ => h.2.setAnswer h.1 rfl
  · exact .fail trivial

/-- A search does not notice that something it does not look for is missing. -/
theorem find?_erase_of_neg {p : ℕ → Bool} {a : ℕ} (ha : p a = false) (l : List ℕ) :
    (l.erase a).find? p = l.find? p := by
  induction l with
  | nil => rfl
  | cons b l ih =>
    by_cases hb : b = a
    · subst hb
      rw [List.erase_cons_head, List.find?_cons_of_neg (by simp [ha])]
    · rw [List.erase_cons_tail (by simpa using hb), List.find?_cons, List.find?_cons, ih]

/-- **When a result is complete its entries move to the publish queue**, where they follow
those of the session. -/
theorem World.Delivers.complete (h : w.Delivers pending) (hinv : w.Inv S none none) {r s : ℕ}
    {ret ret' : Result} {σ : Session} (hr : w.results.get r = some ret')
    (hentries : ret'.entries = ret.entries) (hσ : w.sessions.get s = some σ)
    (hmem : r ∈ σ.results) (ok : Bool) :
    World.Delivers pending { w with sessions := w.sessions.set s (σ.completed r ret ok) } := by
  refine h.setSession hσ (fun hslots => ?_) fun it => ?_
  · rw [Session.SlotsCounted, Session.handedOutEntries, Session.handedOut_completed,
      Session.freePublishSlots_completed, Session.slotsAdded_completed, Session.slotsPeak_completed]
    exact hslots
  have hmove : (ret.entries ++ w.heldBack (σ.completed r ret ok) it).filter (fun e => e.item = it) =
      (w.heldBack σ it).filter fun e => e.item = it := by
    have hblocked := blockedEntries_of_get hr
    rw [hentries] at hblocked
    by_cases hit : it ∈ w.blockedItems r
    · rw [heldBack_of_mem h.apart hmem hit, hblocked, heldBack_of_forall_notMem, List.append_nil]
      intro k hk hitk
      rw [Session.results_completed] at hk
      obtain rfl := h.apart it r k hit hitk
      exact (hinv.session s σ hσ).nodup.not_mem_erase hk
    · have hnil : ret.entries.filter (fun e => e.item = it) = [] := by
        refine List.filter_eq_nil_iff.mpr fun e he heq => hit ?_
        rw [← of_decide_eq_true heq]
        exact hinv.item_mem_blockedItems (hblocked ▸ he)
      have hholder : w.holder (σ.completed r ret ok) it = w.holder σ it := by
        rw [World.holder, World.holder, Session.results_completed]
        exact find?_erase_of_neg (by simpa using hit) _
      rw [List.filter_append, hnil, List.nil_append, World.heldBack, World.heldBack, hholder]
  rw [World.entriesOf, World.entriesOf, Session.handedOutEntries, Session.handedOut_completed,
    Session.publishQueue_completed, List.append_assoc, List.append_assoc, List.filter_append,
    List.filter_append, hmove, ← List.filter_append, ← List.filter_append, ← List.append_assoc]
  rfl

/-- A result is answered once more. -/
theorem ensures_releaseResult_delivers (r : ℕ) :
    Attempt.Ensures (fun w => w.Inv S none none ∧ w.Delivers pending) (releaseResult r)
      (fun _ => World.Delivers pending) Stop.Any := by
  -- no session waits for the result any more
  let Sent : World → Prop := fun w => w.Delivers pending ∧
    ∀ s σ, w.sessions.get s = some σ → r ∉ σ.results
  refine .bind (Place.ensures_read trivial) fun ret => .bind (Q := fun _ (w : World) =>
    w.results.get r = some { ret with remaining := (ret.remaining + (2 ^ 32 - 1)) % 2 ^ 32 } ∧
      w.Inv S none none ∧ w.Delivers pending) (Place.ensures_write trivial ?_) fun _ =>
    .ite (fun _ => .pure fun _ h => h.2.2) fun _ => .bind (Q := fun _ => Sent) ?_ fun _ =>
    Place.ensures_free trivial fun w _ h _ => h.1.freeResult h.2
  · rintro w - ⟨hr, hinv, h⟩ -
    refine ⟨?_, hinv.setAnswer hr rfl rfl rfl, h.setAnswer hr rfl⟩
    show (w.results.set r _).get r = _
    rw [Heap.get_set hr, if_pos rfl]
  · rcases hs : ret.session with _ | s
    · -- the entries that have waited are dropped
      have hdata : ∀ w heap, Sent w → Sent { w with publishData := heap } := fun w heap h =>
        ⟨h.1.congr rfl rfl rfl rfl, h.2⟩
      have hsent : Leaves Sent (sendResult r ret) := by
        rw [sendResult, hs]
        dsimp only
        split
        · exact .publishQueueItemsDeref hdata _
        · exact .pure _
      refine hsent.imp (fun w hw => ⟨hw.2.2, fun s σ hσ hmem => ?_⟩) (fun _ _ h => h) fun _ h => h
      obtain ⟨ret', hr, hs'⟩ := (hw.2.1.session s σ hσ).results r hmem
      obtain rfl := Option.some.inj (hr.symm.trans hw.1)
      cases hs'
    · refine .of_run fun w hw => ?_
      obtain ⟨hr, hinv, h⟩ := hw
      obtain ⟨σ, hσ, hmem⟩ := hinv.waiting r _ s hr rfl (by simp)
      refine ⟨_, _, run_sendResult hs hσ, fun _ _ => ⟨?_, fun t τ hτ hmem' => ?_⟩,
        fun _ _ => trivial⟩
      · exact (h.complete hinv hr rfl hσ hmem (w.malloc 0)).congr rfl rfl rfl rfl
      · have hτ : (w.sessions.set s _).get t = some τ := hτ
        rw [Heap.get_set hσ] at hτ
        split at hτ
        · obtain rfl := Option.some.inj hτ
          rw [Session.results_completed] at hmem'
          exact (hinv.session s σ hσ).nodup.not_mem_erase hmem'
        · obtain ⟨ret', hr', hs'⟩ := (hinv.session t τ hτ).results r hmem'
          obtain rfl := Option.some.inj (hr.symm.trans hr')
          exact absurd (Option.some.inj hs').symm ‹_›

theorem ensures_requestSubresult_delivers (r count : ℕ) :
    Attempt.Ensures (fun w => w.Inv S none none ∧ w.Delivers pending) (requestSubresult r count)
      (fun _ => World.Delivers pending) Stop.Any := by
  refine .bind (Attempt.Ensures.imp ((preserves_writeResult (S := S) r _).and
    (leaves_writeResult_delivers r _)) (fun _ h => h) (fun _ _ h => h)
    fun _ _ => trivial) fun _ => .ite (fun _ => ?_) fun _ => ensures_releaseResult_delivers r
  exact .bind (Place.ensures_read trivial) fun ret => Place.ensures_write trivial
    fun w _ h _ => h.2.2.setAnswer h.1 rfl

theorem ensures_releaseSubresult_delivers (r : ℕ) :
    Attempt.Ensures (fun w => w.Inv S none none ∧ w.Delivers pending) (releaseSubresult r)
      (fun _ => World.Delivers pending) Stop.Any := by
  refine .bind (Place.ensures_read trivial) fun ret => .bind
    (Q := fun _ w => w.Inv S none none ∧ w.Delivers pending) (Place.ensures_write trivial ?_)
    fun _ => .ite (fun _ => .pure fun _ h => h.2) fun _ => ensures_releaseResult_delivers r
  rintro w - ⟨hr, hinv, h⟩ -
  exact ⟨hinv.setAnswer hr rfl rfl rfl, h.setAnswer hr rfl⟩

/-- A stand-in is answered once more. -/
theorem ensures_releaseDummyUnsubscribeResult_delivers (r : ℕ) :
    Attempt.Ensures (fun w => w.Inv S none none ∧ w.Delivers pending)
      (releaseDummyUnsubscribeResult r) (fun _ => World.Delivers pending) Stop.Any := by
  refine .bind (Place.ensures_read trivial) fun ret => .bind ensures_assert_any fun _ =>
    .bind (Q := fun _ w => w.Delivers pending ∧
      ∀ s σ, w.sessions.get s = some σ → r ∉ σ.results) (Place.ensures_write trivial ?_) fun _ =>
    .ite (fun _ => .pure fun _ h => h.1) fun _ => Place.ensures_free trivial fun w _ h _ =>
      h.1.freeResult h.2
  rintro w - ⟨hnone, hr, hinv, h⟩ -
  refine ⟨h.setAnswer hr rfl, fun s σ hσ hmem => ?_⟩
  obtain ⟨ret', hr', hs⟩ := (hinv.session s σ hσ).results r hmem
  obtain rfl := Option.some.inj (hr.symm.trans hr')
  exact absurd (hnone.symm.trans hs) nofun

/-- A new result holds nothing back. -/
theorem leaves_requestResult_delivers (s requestId count : ℕ) :
    Leaves (World.Delivers pending) (requestResult s requestId count) := by
  have hmalloc : ∀ w malloc, World.Delivers pending w →
      World.Delivers pending { w with malloc := malloc } := fun _ _ h => h.congr rfl rfl rfl rfl
  refine .bind (.malloc hmalloc) fun _ => .bind (.assert _) fun _ => .ite
    (.bind (.writeBufferInit hmalloc) fun _ => Attempt.Ensures.bind
      (Q := fun r w => w.Delivers pending ∧ w.blockedItems r = []) (Place.ensures_new ?_) fun r =>
      .bind (Place.ensures_read trivial) fun σ => .bind (Q := fun _ => World.Delivers pending)
      (Place.ensures_write trivial fun w _ h _ => h.2.1.listResult h.1 h.2.2) fun _ =>
      .pure fun _ h => h) (.pure _)
  intro w h
  refine ⟨h.newResult rfl, ?_⟩
  rw [World.blockedItems_eq]
  show ((w.results.alloc _).get _).elim [] _ = _
  rw [Heap.get_alloc, if_pos rfl]
  rfl

/-! ### Publishing -/

/-- A publish is recorded, and its entries are still to be put into their places. -/
theorem World.Delivers.publish (h : w.Delivers fun _ => []) (data : ℕ) (items : List ℕ) :
    World.Delivers (fun it => List.replicate (items.count it) data)
      { w with events := w.events ++ [.published data items] } := by
  have hevents : ∀ it, published (w.events ++ [.published data items]) it =
      published w.events it ++ List.replicate (items.count it) data := fun it => by
    simp [published]
  refine ⟨h.apart, h.slots, fun it hit => ?_, fun it => ?_⟩
  · exact (hevents it).trans (by rw [h.fresh it hit, List.nil_append])
  · obtain ⟨home, id, hlt, hitem, hentries, helse⟩ := h.delivers it
    refine ⟨home, id, hlt, hitem, fun σ hσ => ?_, helse⟩
    have heq : w.entriesOf σ it = entriesFor id it (published w.events it) := by
      simpa [entriesFor] using hentries σ hσ
    show w.entriesOf σ it ++ _ = entriesFor id it (published (w.events ++ _) it)
    rw [hevents, heq, entriesFor, entriesFor, entriesFor, List.map_append]

/-- **One entry is put into its place**: at the end of the entries of its item. -/
theorem World.Delivers.push {v : World} (h : w.Delivers pending) {it data : ℕ} {rest : List ℕ}
    {i : PublishItem} (hpending : pending it = data :: rest)
    (hi : w.publishItems.get it = some i) (hapart : v.Apart)
    (hitems : v.publishItems = w.publishItems) (hevents : v.events = w.events)
    (halive : v.sessions.next = w.sessions.next)
    (hsessions : ∀ s σ', v.sessions.get s = some σ' → ∃ σ, w.sessions.get s = some σ ∧
      (σ.SlotsCounted → σ'.SlotsCounted) ∧ ∀ k, v.entriesOf σ' k = w.entriesOf σ k ++
        if s = i.session ∧ k = it then [⟨i.subscriptionid, data, it⟩] else []) :
    v.Delivers (Function.update pending it rest) where
  apart := hapart
  slots s σ' hσ' := by
    obtain ⟨σ, hσ, hslots, -⟩ := hsessions s σ' hσ'
    exact hslots (h.slots s σ hσ)
  fresh k hk := by
    rw [hitems] at hk
    have hlt := Heap.lt_next hi
    rw [hevents, h.fresh k hk, Function.update_of_ne (by omega)]
  delivers k := by
    obtain ⟨home, id, hlt, hitem, hentries, helse⟩ := h.delivers k
    refine ⟨home, id, fun hk => ?_, fun j hj => hitem j (hitems ▸ hj), fun σ' hσ' => ?_,
      fun s σ' hs hσ' => ?_⟩
    · rw [halive]
      exact hlt (hitems ▸ hk)
    · obtain ⟨σ, hσ, -, heq⟩ := hsessions home σ' hσ'
      rw [heq, hevents, ← hentries σ hσ]
      by_cases hk : k = it
      · subst hk
        obtain ⟨rfl, rfl⟩ := hitem i hi
        rw [if_pos ⟨rfl, rfl⟩, Function.update_self, hpending, List.append_assoc]
        rfl
      · rw [if_neg fun hand => hk hand.2, List.append_nil, Function.update_of_ne hk]
    · obtain ⟨σ, hσ, -, heq⟩ := hsessions s σ' hσ'
      rw [heq, helse s σ hs hσ, List.nil_append]
      refine if_neg ?_
      rintro ⟨rfl, rfl⟩
      exact hs (hitem i hi).1

theorem entriesOf_queued (σ : Session) (e : Entry) (k : ℕ) :
    w.entriesOf (σ.queued e []) k =
      (σ.handedOutEntries ++ (σ.out.publishQueue ++ [e]) ++ w.heldBack σ k).filter
        fun e => e.item = k := by
  rw [World.entriesOf, show (σ.queued e []).out.publishQueue = σ.out.publishQueue ++ [e] from
    OutState.publishQueue_publishQueueAppend _ _ _]
  rfl

/-- An entry for the output goes to the end of the publish queue. -/
theorem World.Delivers.pushQueue (h : w.Delivers pending) {it data : ℕ} {rest : List ℕ}
    {i : PublishItem} {σ : Session} (hpending : pending it = data :: rest)
    (hi : w.publishItems.get it = some i) (hσ : w.sessions.get i.session = some σ)
    (hholder : w.holder σ it = none) :
    World.Delivers (Function.update pending it rest) { w with
      sessions := w.sessions.set i.session (σ.queued ⟨i.subscriptionid, data, it⟩ []) } := by
  refine h.push hpending hi h.apart rfl rfl rfl fun s σ' hσ' => ?_
  have hσ' : (w.sessions.set i.session _).get s = some σ' := hσ'
  rw [Heap.get_set hσ] at hσ'
  split at hσ'
  · rename_i hs
    obtain rfl := Option.some.inj hσ'
    rw [hs]
    refine ⟨σ, hσ, fun hslots => ?_, fun k => ?_⟩
    · rw [Session.SlotsCounted, show (σ.queued _ []).out.freePublishSlots =
        σ.out.freePublishSlots from OutState.freePublishSlots_publishQueueAppend _ _ _]
      exact hslots
    show w.entriesOf _ k = _
    rw [entriesOf_queued]
    by_cases hk : k = it
    · subst hk
      have hnil : w.heldBack σ k = [] := by rw [World.heldBack, hholder, Option.elim_none]
      rw [if_pos ⟨rfl, rfl⟩, World.entriesOf, hnil]
      simp
    · rw [if_neg fun hand => hk hand.2, World.entriesOf]
      simp [Ne.symm hk]
  · rename_i hs
    refine ⟨σ', hσ', id, fun k => ?_⟩
    rw [if_neg fun hand => hs hand.1, List.append_nil]
    rfl

/-- An entry that is held back goes to the end of those that wait with the result. -/
theorem World.Delivers.pushBlocked (h : w.Delivers pending) (hinv : w.Inv S none none)
    {it data r : ℕ} {rest : List ℕ} {i : PublishItem} {σ : Session} {ret : Result}
    {blocked : BlockedItemList} (hpending : pending it = data :: rest)
    (hi : w.publishItems.get it = some i) (hσ : w.sessions.get i.session = some σ)
    (hholder : w.holder σ it = some r) (hr : w.results.get r = some ret)
    (hblocked : ret.blockedItems = some blocked) :
    World.Delivers (Function.update pending it rest) { w with
      results := w.results.set r { ret with blockedItems := some { blocked with
        publishQueue := blocked.publishQueue ++ [⟨i.subscriptionid, data, it⟩] } } } := by
  let e : Entry := ⟨i.subscriptionid, data, it⟩
  let ret' : Result := { ret with blockedItems := some { blocked with
    publishQueue := blocked.publishQueue ++ [e] } }
  let w' : World := { w with results := w.results.set r ret' }
  have hitems : ∀ k, w'.blockedItems k = w.blockedItems k := by
    intro k
    rw [blockedItems_set hr]
    split
    · rename_i hk
      rw [hk, blockedItems_of_get hr, Result.items, Result.items, hblocked]
      rfl
    · rfl
  have hentries : ∀ k, w'.blockedEntries k =
      w.blockedEntries k ++ if k = r then [e] else [] := by
    intro k
    rw [blockedEntries_set hr]
    split
    · rename_i hk
      rw [hk, blockedEntries_of_get hr, Result.entries, Result.entries, hblocked]
      rfl
    · rw [List.append_nil]
  have hmem := List.mem_of_find?_eq_some hholder
  refine h.push (v := w') hpending hi (fun k q q' hq hq' => ?_) rfl rfl rfl fun s τ hτ =>
    ⟨τ, hτ, id, fun k => ?_⟩
  · rw [hitems] at hq hq'
    exact h.apart k q q' hq hq'
  have hsame : w'.holder τ k = w.holder τ k :=
    List.find?_congr fun q _ => by rw [hitems]
  have hheld : (w'.heldBack τ k).filter (fun e => e.item = k) =
      (w.heldBack τ k).filter (fun e => e.item = k) ++
        if s = i.session ∧ k = it then [e] else [] := by
    rw [World.heldBack, World.heldBack, hsame]
    by_cases hhere : s = i.session ∧ k = it
    · -- the place of the entry
      obtain ⟨rfl, rfl⟩ := hhere
      obtain rfl := Option.some.inj (hσ.symm.trans hτ)
      rw [hholder, if_pos ⟨rfl, rfl⟩, Option.elim_some, Option.elim_some, hentries, if_pos rfl,
        List.filter_append]
      simp [e]
    · rw [if_neg hhere, List.append_nil]
      rcases hq : w.holder τ k with _ | q
      · rfl
      rw [Option.elim_some, Option.elim_some, hentries]
      split
      · subst q
        rw [List.filter_append]
        have hne : it ≠ k := by
          rintro rfl
          refine hhere ⟨?_, rfl⟩
          obtain ⟨ret₁, hr₁, hs₁⟩ := (hinv.session _ σ hσ).results r hmem
          obtain ⟨ret₂, hr₂, hs₂⟩ := (hinv.session s τ hτ).results r
            (List.mem_of_find?_eq_some hq)
          obtain rfl := Option.some.inj (hr₁.symm.trans hr₂)
          exact Option.some.inj (hs₂.symm.trans hs₁)
        simp [e, hne]
      · rw [List.append_nil]
  rw [World.entriesOf, World.entriesOf, List.filter_append, hheld,
    List.filter_append (τ.handedOutEntries ++ τ.out.publishQueue) (w.heldBack τ k),
      List.append_assoc]

/-- **An entry is put into its place.** -/
theorem ensures_sessionAddPublishQueueItem_delivers (pending : ℕ → List ℕ) {it data : ℕ} (id : ℕ)
    {rest : List ℕ} (hpending : pending it = data :: rest) :
    Attempt.Ensures (fun w => w.Inv S none none ∧ w.Delivers pending ∧
        ∃ i, w.publishItems.get it = some i ∧ i.subscriptionid = id)
      (sessionAddPublishQueueItem it ⟨id, data, it⟩)
      (fun _ => World.Delivers (Function.update pending it rest)) Stop.Any := by
  refine .bind (Q := fun found (w : World) => w.Inv S none none ∧ w.Delivers pending ∧ ∃ i σ,
    w.publishItems.get it = some i ∧ i.subscriptionid = id ∧
      w.sessions.get i.session = some σ ∧ found = w.holder σ it) ?_ ?_
  · refine .bind (Place.ensures_read trivial) fun i => .bind (Place.ensures_read trivial) fun σ =>
      .bind ensures_getWorld fun w => .pure ?_
    rintro w' ⟨rfl, hσ, hi, hinv, h, j, hj, hid⟩
    obtain rfl := Option.some.inj (hi.symm.trans hj)
    exact ⟨hinv, h, i, σ, hi, hid, hσ, rfl⟩
  rintro (_ | r)
  · refine .bind (Place.ensures_read trivial) fun i => .of_run ?_
    rintro w ⟨hi, hinv, h, j, σ, hj, rfl, hσ, hholder⟩
    obtain rfl := Option.some.inj (hi.symm.trans hj)
    exact ⟨_, _, run_sessionPublishQueueAppend hσ _ _,
      fun _ _ => h.pushQueue hpending hi hσ hholder.symm, fun _ _ => trivial⟩
  · refine .bind (Place.ensures_read trivial) fun ret => ?_
    rcases hblocked : ret.blockedItems with _ | blocked
    · refine .pure ?_
      rintro w ⟨hr, hinv, h, i, σ, hi, hid, hσ, hholder⟩
      have hmem : it ∈ w.blockedItems r := by simpa using List.find?_some hholder.symm
      rw [blockedItems_of_get hr, Result.items, hblocked] at hmem
      exact absurd hmem List.not_mem_nil
    · refine Place.ensures_write trivial ?_
      rintro w - ⟨hr, hinv, h, i, σ, hi, rfl, hσ, hholder⟩ -
      exact h.pushBlocked hinv hpending hi hσ hholder.symm hr hblocked

/-- The entries of a publish are put into their places, one after the other. -/
theorem ensures_publishEntries_delivers (data length : ℕ) (items : List ℕ) :
    Attempt.Ensures (fun w => w.Inv S none none ∧
        w.Delivers fun it => List.replicate ((items.take length).count it) data)
      (publishEntries data length items) (fun _ => World.Delivers fun _ => []) Stop.Any := by
  induction length generalizing items with
  | zero => exact .pure fun _ h => h.2
  | succ length ih =>
    rcases items with _ | ⟨it, next⟩
    · exact .fail trivial
    refine .bind (Place.ensures_read trivial) fun i => .bind ?_ fun _ => ih next
    have hpending : (fun k => List.replicate (((it :: next).take (length + 1)).count k) data) it =
        data :: List.replicate ((next.take length).count it) data := by
      show List.replicate _ _ = _
      rw [List.take_succ_cons, List.count_cons_self, List.replicate_succ]
    have hrest : Function.update
        (fun k => List.replicate (((it :: next).take (length + 1)).count k) data) it
        (List.replicate ((next.take length).count it) data) =
        fun k => List.replicate ((next.take length).count k) data := by
      funext k
      rw [Function.update_apply]
      split
      · rename_i hk
        rw [hk]
      · rename_i hk
        rw [List.take_succ_cons, List.count_cons_of_ne (Ne.symm hk)]
    have hadd := ensures_sessionAddPublishQueueItem_delivers (S := S)
      (fun k => List.replicate (((it :: next).take (length + 1)).count k) data)
      i.subscriptionid hpending
    rw [hrest] at hadd
    refine ((ensures_sessionAddPublishQueueItem (S := S) it ⟨i.subscriptionid, data, it⟩).and
      hadd).imp ?_ (fun _ _ h => h) fun _ _ => trivial
    rintro w ⟨hi, hinv, h⟩
    exact ⟨⟨hinv, i, hi, rfl, rfl⟩, hinv, h, i, hi, rfl⟩

/-- A publish that allocates its data block delivers it, and one that does not kills a
session. -/
theorem ensures_publishGeneral_delivers (handle : PublishHandle) :
    Attempt.Ensures (fun w => w.Inv S none none ∧ w.Delivers fun _ => []) (publishGeneral handle)
      (fun _ => World.Delivers fun _ => []) Stop.Any := by
  -- what both parts need, as long as nothing has been published
  let Idle : World → Prop := fun w => w.Inv S none none ∧ w.Delivers fun _ => []
  have hdelivers : ∀ w w' : World, Frame w w' → w'.events = w.events → Idle w → Idle w' :=
    fun w w' hf hevents h =>
      ⟨h.1.frame hf, h.2.congr hf.publishItems hf.sessions hf.results hevents⟩
  have hmalloc : Leaves Idle malloc := by
    intro w hw r t hrun
    obtain ⟨rfl, rfl⟩ := Prod.mk.inj (Option.some.inj hrun)
    exact ⟨fun _ _ => hdelivers w _ ((Inert.malloc w w (.refl w) _ _ rfl).1 _ rfl) rfl hw,
      fun _ _ => trivial⟩
  have hinit : Leaves Idle writeBufferInit := by
    intro w hw r t hrun
    obtain ⟨rfl, rfl⟩ := Prod.mk.inj (Option.some.inj hrun)
    exact ⟨fun _ _ => hdelivers w _ ((Inert.writeBufferInit w w (.refl w) _ _ rfl).1 _ rfl) rfl hw,
      fun _ _ => trivial⟩
  have hnew : ∀ d, Leaves Idle (publishData.new d) := fun d => Place.ensures_new fun w hw =>
    hdelivers w _ ((Inert.new_publishData d w w (.refl w) _ _ rfl).1 _ rfl) rfl hw
  have hpublish : Attempt.Ensures Idle (publishHandlePublish handle)
      (fun _ => World.Delivers fun _ => []) Stop.Any := by
    refine .bind (Leaves.assert _) fun _ => .bind hmalloc fun _ => .ite (fun _ => ?_) fun _ =>
      .pure fun w h => h.2
    refine .bind hinit fun buffer => .bind (hnew _) fun data => .bind (Q := fun _ w =>
      w.Inv S none none ∧ w.Delivers fun it =>
        List.replicate ((handle.items.take handle.length).count it) data) (ensures_emit ?_)
      fun _ => .bind (ensures_publishEntries_delivers _ _ _) fun _ => .pure fun w h => h
    intro w h
    have hframe := (Inert.emit (.published data (handle.items.take handle.length)) [] w w (.refl w)
      _ _ rfl).1 _ rfl
    exact ⟨h.1.frame hframe, (h.2.publish data _).congr rfl rfl rfl rfl⟩
  refine .ite (fun _ => .pure fun _ h => h.2) fun _ => .bind hpublish ?_
  rintro (_ | data)
  · rcases handle.items with _ | ⟨it, next⟩
    · exact .fail trivial
    · exact .bind (Place.ensures_read trivial) fun i => .bind (Place.ensures_read trivial) fun σ =>
        .bind (Q := fun _ => World.Delivers fun _ => []) (Place.ensures_write trivial
          fun w _ h _ => h.2.2.setSession h.1 id fun _ => rfl) fun _ => .pure fun _ h => h
  · exact .pure fun _ h => h

theorem ensures_publish_delivers (handle : Handle) (answer : Cbor.Item) :
    Attempt.Ensures (fun w => w.Inv S none none ∧ w.Delivers fun _ => [])
      (Call.publish handle answer).perform (fun _ => World.Delivers fun _ => []) Stop.Any := by
  have hread : Leaves (fun w => w.Inv S none none ∧ w.Delivers fun _ => [])
    (readHandle handle) := by
    cases handle with
    | subscription k => exact .bind (.read _ _) fun _ => .pure _
    | republish k => exact .bind (.read _ _) fun _ => .pure _
  refine .bind hread fun handle => .bind (ensures_publishGeneral_delivers handle) ?_
  rintro (_ | data)
  · exact .pure fun _ h => h
  · refine Leaves.bind .getWorld fun w => .bind (.read _ _) fun d => ?_
    split
    · exact .write (fun _ _ h => h.congr rfl rfl rfl rfl) _ _
    · exact .fail _

/-! ### Taking messages out -/

/-- **Taking a message out moves the first entries** of the publish queue, if any. -/
theorem OutState.entries_sessionOutMessageCreate {ρ ε : Type} (out : OutState ρ ε) (malloc : Bool)
    (handedOut : List (OutMessage ε)) :
    OutSystem.handedOutEntries ⟨(out.sessionOutMessageCreate malloc).2,
        handedOut ++ (out.sessionOutMessageCreate malloc).1.toList⟩ ++
      (out.sessionOutMessageCreate malloc).2.publishQueue =
    OutSystem.handedOutEntries ⟨out, handedOut⟩ ++ out.publishQueue := by
  rcases hq : out.queuedOutMessages with _ | m
  · simp only [sessionOutMessageCreate, hq]
    split_ifs
    · simp [OutSystem.handedOutEntries]
    · rename_i hdrop
      rw [hdrop]
      simp [OutSystem.handedOutEntries, List.take_of_length_le (List.drop_eq_nil_iff.mp hdrop)]
    · simp [OutSystem.handedOutEntries]
    · simp [OutSystem.handedOutEntries]
  · simp only [sessionOutMessageCreate, hq]
    split_ifs
    · simp [OutSystem.handedOutEntries]
    · simp [OutSystem.handedOutEntries]
    · simp [OutSystem.handedOutEntries]

/-- **Taking a message out uses one slot for each entry.** -/
theorem OutState.slots_sessionOutMessageCreate {ρ ε : Type} (out : OutState ρ ε) (malloc : Bool)
    (hout : out.sessionHasOutMessage = true) (handedOut : List (OutMessage ε)) :
    (OutSystem.handedOutEntries ⟨(out.sessionOutMessageCreate malloc).2,
        handedOut ++ (out.sessionOutMessageCreate malloc).1.toList⟩).length +
      (out.sessionOutMessageCreate malloc).2.freePublishSlots =
    (OutSystem.handedOutEntries ⟨out, handedOut⟩).length + out.freePublishSlots := by
  rcases hq : out.queuedOutMessages with _ | m
  · by_cases hkill : out.kill = true
    · simp [sessionOutMessageCreate, hq, hkill, OutSystem.handedOutEntries]
    · have hkill : out.kill = false := by simpa using hkill
      obtain ⟨-, hslots⟩ := out.sendable_of_hasOutMessage hout hkill hq
      have hcount : publishItemCount out.freePublishSlots 0 out.publishQueue = _ :=
        publishItemCount_eq hslots
      simp only [sessionOutMessageCreate, hq, hkill, hcount]
      split_ifs
      all_goals simp [OutSystem.handedOutEntries]
  · simp only [sessionOutMessageCreate, hq]
    split_ifs
    all_goals simp [OutSystem.handedOutEntries]

theorem ensures_sessionOutMessageCreate_delivers (s : ℕ) :
    Attempt.Ensures (fun w => w.Delivers pending ∧ w.HasOutMessage s) (sessionOutMessageCreate s)
      (fun _ => World.Delivers pending) Stop.Any := by
  refine .bind (Place.ensures_read trivial) fun σ => .assume
    (p := σ.out.sessionHasOutMessage = true) ?_ fun hout => .bind
    ((Leaves.publishContentSize (P := fun w => w.sessions.get s = some σ ∧
      w.Delivers pending) _).imp
      (fun _ h => ⟨h.1, h.2.1⟩) (fun _ _ h => h) fun _ h => h) fun size => .bind (Leaves.ite
    (.malloc fun w malloc h => ⟨h.1, h.2.congr rfl rfl rfl rfl⟩) (.pure _)) fun ret => ?_
  · rintro w ⟨hσ, -, τ, hτ, hout⟩
    obtain rfl := Option.some.inj (hσ.symm.trans hτ)
    exact hout
  have hentries := σ.out.entries_sessionOutMessageCreate ret σ.handedOut
  have hslots := σ.out.slots_sessionOutMessageCreate ret hout σ.handedOut
  rcases hcreate : σ.out.sessionOutMessageCreate ret with ⟨message, out⟩
  rw [hcreate] at hentries hslots
  refine .bind (Q := fun _ => World.Delivers pending) (Place.ensures_write trivial ?_) fun _ => ?_
  · rintro w - ⟨hσ, h⟩ -
    refine h.setSession hσ (fun hcounted hpeak => hslots.trans (hcounted hpeak)) fun it => ?_
    have hsame : (Session.handedOutEntries { σ with
        out := out
        handedOut := σ.handedOut ++ message.toList
        ops := σ.ops ++ [.create] } ++ out.publishQueue) =
        σ.handedOutEntries ++ σ.out.publishQueue := hentries
    rw [World.entriesOf, World.entriesOf, hsame]
    rfl
  · have hdata : ∀ w heap, World.Delivers pending w →
        World.Delivers pending { w with publishData := heap } := fun _ _ h =>
      h.congr rfl rfl rfl rfl
    have hemit : ∀ m contents data, Leaves (World.Delivers pending)
        (emit (.handedOut s m contents data) []) := fun m contents data => ensures_emit fun w h =>
      (h.event (e := .handedOut s m contents data) fun _ => rfl).congr rfl rfl rfl rfl
    rcases message with _ | message | entries
    · exact Leaves.pure _
    · refine Leaves.bind ?_ fun _ => .pure _
      refine .bind .getWorld fun w => ?_
      split
      · exact hemit _ _ _
      · exact .fail _
    · exact Leaves.bind (.bind .getWorld fun w => .bind (.writePublish hdata _ _) fun _ =>
        .ite (hemit _ _ _) (.fail _)) fun _ => .pure _

end Wpcp
