import Wpcp.Session.Traversal

/-!
# Deleting a session keeps the invariant

When a session ends, its results lose it all at once, and nothing more is said of its
publish items than that they are in the lists of their subscriptions; that is all the last
loop of `wpcp_session_delete` needs. What the application does between two rounds of the
loop leaves the items that are still to be released alone.
-/

namespace Wpcp

variable {S : Prop} {er ei : Option ℕ}

/-! ### The results lose their session -/

/-- A result without its session. -/
def Result.orphan (ret : Result) : Result := { ret with session := none }

/-- The world in which some results have no session. -/
def World.orphaned (w : World) (l : List ℕ) : World :=
  { w with results := w.results.modify l Result.orphan }

/-- The loop over the results changes nothing else. -/
theorem ensures_orphanResults {P : World → Prop} (l : List ℕ) :
    Attempt.Ensures (fun w => P (w.orphaned l)) (orphanResults l) (fun _ => P) Stop.Any := by
  induction l with
  | nil =>
    refine .pure fun w hw => ?_
    rw [World.orphaned, Heap.modify_nil] at hw
    exact hw
  | cons r next ih =>
    refine .bind (Place.ensures_read trivial) fun ret => .bind
      (Q := fun _ w => P (w.orphaned next)) (Place.ensures_write trivial ?_) fun _ => ih
    rintro w - ⟨hr, hw⟩ -
    have hr : w.results.get r = some ret := hr
    have heq := Heap.modify_set (f := Result.orphan) hr rfl next
    rw [World.orphaned] at hw ⊢
    exact heq ▸ hw

/-- **When a session ends with its results taken away from it, the invariant holds** of what
is left. -/
theorem World.Inv.close {w : World} {s : ℕ} {σ : Session} (h : w.Inv S none none)
    (hσ : w.sessions.get s = some σ) :
    World.Inv S none none
      { w.orphaned σ.results with sessions := w.sessions.free s } where
  malloc := h.malloc
  handlers := h.handlers.imp_right fun ⟨hnil, hnone⟩ => ⟨hnil, fun t => by
    rw [Heap.get_free, hnone t, ite_self]⟩
  session := by
    intro t τ hτ
    obtain ⟨hts, hτ⟩ := Heap.get_of_get_free hτ
    obtain ⟨hnodup, hresults, htable, hfree⟩ := h.session t τ hτ
    refine ⟨hnodup, fun r hr => ?_, htable, hfree⟩
    obtain ⟨ret, hret, hs⟩ := hresults r hr
    refine ⟨ret, (Heap.get_modify _ _ _ _).trans ((if_neg fun hmem => ?_).trans hret), hs⟩
    obtain ⟨ret', hret', hs'⟩ := (h.session s σ hσ).results r hmem
    obtain rfl := Option.some.inj (hret.symm.trans hret')
    exact hts (Option.some.inj (hs.symm.trans hs'))
  output := fun hS t τ hτ => h.output hS t τ (Heap.get_of_get_free hτ).2
  result := by
    intro r ret hret
    obtain ⟨ret', hret', ⟨-, rfl⟩ | ⟨-, rfl⟩⟩ := Heap.get_of_get_modify hret
    · obtain ⟨hitems, hnone, hentries, hgranted⟩ := h.result r ret' hret'
      refine ⟨hitems, hnone, hentries, fun id it hg => ?_⟩
      obtain ⟨hlt, hitem⟩ := hgranted id it hg
      exact ⟨hlt, fun i hi => ⟨(hitem i hi).1, nofun⟩⟩
    · obtain ⟨hitems, hnone, hentries, hgranted⟩ := h.result r ret hret'
      exact ⟨hitems, hnone, hentries, hgranted⟩
  waiting := by
    intro r ret t hret hs _
    obtain ⟨ret', hret', ⟨-, rfl⟩ | ⟨hmem, rfl⟩⟩ := Heap.get_of_get_modify hret
    · exact absurd hs nofun
    · obtain ⟨τ, hτ, hr⟩ := h.waiting r ret t hret' hs nofun
      refine ⟨τ, (Heap.get_free _ _ _).trans ((if_neg ?_).trans hτ), hr⟩
      rintro rfl
      obtain rfl := Option.some.inj (hσ.symm.trans hτ)
      exact hmem hr
  unlisted := nofun
  item := by
    intro it i hi _
    obtain ⟨hlt, htable, hhandle⟩ := h.item it i hi nofun
    exact ⟨hlt, fun τ hτ => htable τ (Heap.get_of_get_free hτ).2, hhandle⟩
  announced := by
    intro hS it i τ hi _ hτ
    obtain ⟨hne, hτ⟩ := Heap.get_of_get_free hτ
    refine (h.announced hS it i τ hi nofun hτ).imp_left ?_
    rintro ⟨r, ret, hret, hs, hg⟩
    refine ⟨r, ret, (Heap.get_modify _ _ _ _).trans ((if_neg fun hmem => ?_).trans hret), hs, hg⟩
    obtain ⟨ret', hret', hs'⟩ := (h.session s σ hσ).results r hmem
    obtain rfl := Option.some.inj (hret.symm.trans hret')
    exact hne (Option.some.inj (hs.symm.trans hs'))

/-- A result without a session need not be in a list. -/
theorem World.Inv.stray {w : World} {r : ℕ} {ret : Result} (h : w.Inv S (some r) ei)
    (hr : w.results.get r = some ret) (hs : ret.session = none) : w.Inv S none ei where
  __ := h
  waiting := by
    intro k ret' s hk hs' _
    refine h.waiting k ret' s hk hs' fun heq => ?_
    obtain rfl := Option.some.inj heq
    obtain rfl := Option.some.inj (hr.symm.trans hk)
    exact absurd (hs.symm.trans hs') nofun
  unlisted := nofun

/-- The items of a session are in its table. -/
theorem Session.mem_items {σ : Session} {it : ℕ} (h : it ∈ σ.items) :
    ∃ id : ℕ, σ.publishItems[id]? = some (some it) := by
  obtain ⟨item, hitem, rfl⟩ := List.mem_filterMap.mp h
  obtain ⟨n, hn⟩ := List.getElem?_of_mem (List.mem_of_mem_drop hitem)
  exact ⟨n, hn⟩

/-- No item is in the table of a session twice. -/
theorem SessionInv.nodup_items {w : World} {s : ℕ} {σ : Session} (h : SessionInv w s σ) :
    σ.items.Nodup := by
  rw [Session.items, List.Nodup, List.pairwise_filterMap, List.pairwise_iff_getElem]
  rintro m n hm hn hlt it hit it' hit' rfl
  rw [List.getElem_drop] at hit hit'
  have hget := fun (k : ℕ) (hk : k < σ.publishItems.length) (heq : σ.publishItems[k] = some it) =>
    h.table k it (List.getElem?_eq_some_iff.mpr ⟨hk, heq⟩)
  obtain ⟨i, hi, -, hid⟩ := hget _ _ hit
  obtain ⟨j, hj, -, hid'⟩ := hget _ _ hit'
  obtain rfl := Option.some.inj (hi.symm.trans hj)
  omega

/-- The items that are still to be released when their session is no more. -/
def World.Orphans (w : World) (items : List ℕ) : Prop :=
  ∀ it ∈ items, ∃ i, w.publishItems.get it = some i ∧ w.sessions.get i.session = none

theorem ensures_closeSession (s : ℕ) (σ : Session) :
    Attempt.Ensures (fun w => w.Inv S none none ∧ w.sessions.get s = some σ) (closeSession s σ)
      (fun _ w => w.Inv S none none ∧ w.Orphans σ.items) Stop.Any := by
  have hframed : Framed fun w => w.Inv S none none ∧ w.sessions.get s = some σ := by
    rintro w w' hf ⟨hinv, hσ⟩
    exact ⟨hinv.frame hf, by rw [hf.sessions, hσ]⟩
  refine .bind (Q := fun _ w => w.Inv S none none ∧ w.sessions.get s = some σ) ?_ fun _ =>
    .bind (((inert_publishQueueItemsDeref _).keeps hframed).imp (fun _ h => h) (fun _ _ h => h)
      fun _ _ => trivial) fun _ => .bind (Q := fun _ w => World.Inv S none none
        { w with sessions := w.sessions.free s } ∧
        World.Orphans { w with sessions := w.sessions.free s } σ.items) ?_ fun _ =>
    .ite (fun _ => ?_) fun _ => ?_
  · unfold releaseQueuedOutMessages
    dsimp only
    split
    · exact .pure fun _ h => h
    · exact .fail trivial
  · refine (ensures_orphanResults (P := fun w => World.Inv S none none
      { w with sessions := w.sessions.free s } ∧
      World.Orphans { w with sessions := w.sessions.free s } σ.items) σ.results).imp ?_
      (fun _ _ h => h) fun _ h => h
    rintro w ⟨hinv, hσ⟩
    refine ⟨hinv.close hσ, fun it hit => ?_⟩
    obtain ⟨id, hid⟩ := Session.mem_items hit
    obtain ⟨i, hi, rfl, -⟩ := (hinv.session s σ hσ).table id it hid
    exact ⟨i, hi, (Heap.get_free _ _ _).trans (if_pos rfl)⟩
  · refine .bind (.bind (Q := fun _ w => w.Inv S none none ∧ w.Orphans σ.items)
      (Place.ensures_free trivial fun w _ h _ => h) fun _ => .bind
      (Q := fun _ w => w.Inv S none none ∧ w.Orphans σ.items) ?_ fun _ =>
      Place.ensures_new (Q := fun _ w => w.Inv S none none ∧ w.Orphans σ.items) ?_)
      fun _ => .pure fun _ h => h
    · exact .ite (fun _ => .pure fun _ h => h) fun _ => .fail trivial
    · rintro w ⟨hinv, horphans⟩
      exact ⟨(hinv.newResult rfl rfl).stray ((Heap.get_alloc _ _ _).trans (if_pos rfl)) rfl,
        horphans⟩
  · exact .bind (Q := fun _ w => w.Inv S none none ∧ w.Orphans σ.items)
      (Place.ensures_free trivial fun w _ h _ => h) fun _ => .pure fun _ h => h

/-! ### The application releases nothing -/

theorem Settled.moves {α : Type} {m : Calls α} (h : Settled m) (w₀ : World)
    {P : World → Prop} {hand : Multiset Token} {hand' : α → Multiset Token} :
    Moves S anyWorld (fun _ => w₀.Later) P hand m hand' :=
  (h w₀).imp (fun _ h => h.2.2.1) (fun _ _ h => h) fun _ h => h

/-- **What the application calls is settled.** -/
theorem conservesCalls_later (w₀ : World) : ConservesCalls S anyWorld fun _ => w₀.Later where
  malloc _ _ _ h _ := ⟨h.items, h.sessions⟩
  retain _ k := (inert_retainSubscription k).settled.moves w₀
  release _ k := (inert_releaseSubscription k).settled.moves w₀
  accept _ r s k := (settled_acceptSubscription r s k).moves w₀
  write _ r f _ := (settled_writeResult r f).moves w₀
  answer _ r := (settled_releaseResult r).moves w₀
  announce _ r count _ := (Settled.bind
    (inert_owed fun owed => owed ++ List.replicate count (.subitem r)).settled
    fun _ => settled_requestSubresult r count).moves w₀
  subanswer _ r := (settled_releaseSubresult r).moves w₀
  dummy _ r := (settled_releaseDummyUnsubscribeResult r).moves w₀
  owe _ event owed _ := (Inert.emit event owed).settled.moves w₀
  redeem _ o := (inert_owed fun owed => owed.erase o).settled.moves w₀
  oweAlias _ k := (inert_owed fun owed => .alias k :: owed).settled.moves w₀
  newRepublish _ it := (Inert.new_republishHandles it).settled.moves w₀
  freeRepublish _ handle := (Inert.free_republishHandles handle).settled.moves w₀
  publish _ handle item := (settled_publish handle item).moves w₀
  take _ s := (settled_sessionOutMessageCreate s).moves w₀
  slots _ s count _ := (settled_sessionAddFreePublishSlots s count).moves w₀

/-! ### The items are released -/

theorem World.Orphans.framed (items : List ℕ) : Framed fun w => w.Orphans items := by
  intro w w' hf h
  rw [World.Orphans, hf.publishItems, hf.sessions]
  exact h

/-- To release an item leaves the other ones. -/
theorem ensures_publishItemRelease_orphans (it : ℕ) (next : List ℕ) (hnext : it ∉ next) :
    Attempt.Ensures (fun w => w.Orphans next) (publishItemRelease it)
      (fun _ w => w.Orphans next) Stop.Any := by
  refine .bind (Place.ensures_read trivial) fun j => .bind (Place.ensures_read trivial)
    fun s => .bind (Q := fun _ w => w.Orphans next) (.ite (fun _ => .pure fun _ h => h.2.2)
      fun _ => .fail trivial) fun _ => .bind (Q := fun _ w => w.Orphans next)
    (Place.ensures_write trivial fun w _ h _ => h) fun _ =>
    .bind (Q := fun _ w => w.Orphans next) (ensures_modifyWorld fun _ h => h) fun _ =>
    .bind (Q := fun _ w => w.Orphans next) (Place.ensures_free trivial ?_) fun _ =>
    ((Inert.bind .getWorld fun w => .bind (.emit _ _) fun _ =>
      inert_releaseSubscription _).keeps (World.Orphans.framed next)).imp (fun _ h => h)
      (fun _ _ h => h) fun _ _ => trivial
  intro w _ h _ k hk
  obtain ⟨i, hi, hnone⟩ := h k hk
  refine ⟨i, (Heap.get_free _ _ _).trans ((if_neg ?_).trans hi), hnone⟩
  rintro rfl
  exact hnext hk

/-- **An item of a session that is no more is released**, and the other ones stay. -/
theorem ensures_deletePublishItem (it : ℕ) (next : List ℕ) (hnext : it ∉ next) :
    Attempt.Ensures (fun w => w.Inv S none none ∧ w.Orphans (it :: next)) (deletePublishItem it)
      (fun _ w => w.Inv S none none ∧ w.Orphans next) Stop.Any := by
  refine .bind (Place.ensures_read trivial) fun i => .bind
    (Q := fun _ w => (w.Inv S none (some it) ∧ w.Untabled it ∧ w.Handled it) ∧ w.Orphans next)
    ?_ fun _ => .bind (Q := fun _ w => w.Inv S none none ∧ w.Orphans next)
    (((ensures_publishItemRelease it).and (ensures_publishItemRelease_orphans it next hnext)).imp
      (fun _ h => h) (fun _ _ h => h) fun _ _ => trivial) fun _ => .pure fun _ h => h
  refine ((inert_retainSubscription i.subscription).keeps
    (framed_inv.and (World.Orphans.framed (it :: next)))).imp (fun _ h => h.2)
    (fun _ w h => ?_) fun _ _ => trivial
  obtain ⟨hinv, horphans⟩ := h
  obtain ⟨i, hi, hnone⟩ := horphans it List.mem_cons_self
  refine ⟨⟨hinv.exempt it, fun s σ id hσ hid => ?_, fun j s hj hs => ?_⟩,
    fun k hk => horphans k (List.mem_cons_of_mem _ hk)⟩
  · obtain ⟨j, hj, rfl, -⟩ := (hinv.session s σ hσ).table id it hid
    obtain rfl := Option.some.inj (hi.symm.trans hj)
    exact absurd (hnone.symm.trans hσ) nofun
  · exact (hinv.item it j hj nofun).handle.2 s hs

theorem World.Later.orphans {w₀ w : World} (h : w₀.Later w) {items : List ℕ}
    (ho : w₀.Orphans items) : w.Orphans items := by
  intro it hit
  obtain ⟨i, hi, hnone⟩ := ho it hit
  refine ⟨i, h.items it i hi, ?_⟩
  have hsome := h.sessions i.session
  rw [hnone, Option.isSome_none, Option.isSome_eq_false_iff, Option.isNone_iff_eq_none] at hsome
  exact hsome

variable (app : Application)

/-- What the application does leaves the items that are still to be released alone. -/
theorem ensures_unsubscribeCallback_orphans (result remaining subscription : ℕ)
    (items : List ℕ) :
    Attempt.Ensures (fun w => w.Inv S none none ∧ w.Orphans items)
      (unsubscribeCallback app result remaining subscription) (fun _ w => w.Orphans items)
      Stop.Any := by
  rintro w₀ ⟨hinv, horphans⟩ r w hrun
  have hcalls : Attempt.Ensures (fun w => w.Inv S none none ∧ w₀.Later w)
      (unsubscribeCallback app result remaining subscription)
      (fun _ => Holds S (fun _ => w₀.Later) 0) Stop.Any := by
    refine .bind ensures_getWorld fun w => .bind (Q := fun _ w => w.Inv S none none ∧ w₀.Later w)
      (.ite (fun _ => .pure fun _ h => h.2) fun _ => .fail trivial) fun _ => ?_
    have hcallback (event : Event) (owed : List Owed) (hevent : event.isCallback = true) :
        Attempt.Ensures (Holds S (fun _ => w₀.Later) (owedTokens owed + 0))
          (callback app event owed) (fun _ => Holds S (fun _ => w₀.Later) 0) Stop.Any :=
      (conservesCalls_later w₀).answers.holds_callback app owed hevent fun _ _ => trivial
    exact (hcallback _ _ rfl).imp (fun _ h => h) (fun _ _ h => h) fun _ h => h
  exact ⟨fun a ha => ((hcalls w₀ ⟨hinv, .refl w₀⟩ r w hrun).1 a ha).2.orphans horphans,
    fun _ _ => trivial⟩

theorem ensures_unsubscribeCallback (result remaining subscription : ℕ) :
    Attempt.Ensures (World.Inv S none none)
      (unsubscribeCallback app result remaining subscription) (fun _ => World.Inv S none none)
      Stop.Any :=
  .bind (ensures_getWorld.imp (fun _ h => h) (fun _ _ h => h.2) fun _ h => h) fun _ =>
    .bind (.ite (fun _ => .pure fun _ h => h) fun _ => .fail trivial) fun _ =>
    (preserves_callback app _ _).imp (fun _ h => h) (fun _ _ h => h) fun _ _ => trivial

theorem ensures_deletePublishItems (result : ℕ) (items : List ℕ) (hitems : items.Nodup) :
    Attempt.Ensures (fun w => w.Inv S none none ∧ w.Orphans items)
      (deletePublishItems app result items) (fun _ => World.Inv S none none) Stop.Any := by
  induction items with
  | nil => exact .pure fun _ h => h.1
  | cons it next ih =>
    obtain ⟨hnext, hnodup⟩ := List.nodup_cons.mp hitems
    refine .bind (ensures_deletePublishItem it next hnext) fun k => .bind
      (((ensures_unsubscribeCallback app result _ k).and
        (ensures_unsubscribeCallback_orphans app result _ k next)).imp
        (fun _ h => ⟨h.1, h.1, h.2⟩) (fun _ _ h => h) fun _ _ => trivial) fun _ =>
      ih hnodup

/-- **Deleting a session keeps the invariant.** -/
theorem ensures_sessionDelete (s : ℕ) :
    Attempt.Ensures (World.Inv S none none) (sessionDelete app s)
      (fun _ => World.Inv S none none) Stop.Any := by
  refine .bind (Place.ensures_read trivial) fun σ => .assume (p := σ.items.Nodup)
    (fun w h => (h.2.session s σ h.1).nodup_items) fun hnodup =>
    .bind ((ensures_closeSession s σ).imp (fun _ h => ⟨h.2, h.1⟩) (fun _ _ h => h)
      fun _ h => h) ?_
  rintro (_ | result)
  · exact .pure fun _ h => h.1
  · exact ensures_deletePublishItems app result σ.items hnodup

end Wpcp
