import Wpcp.Session.Frame

/-!
# Writes keep the invariant

One lemma for each kind of write to the heaps of sessions, results and publish items,
with the conditions under which `World.Inv` survives it. A result leaves the list of its
session, or an item its table, before it is freed; in between it is the exempted one.
-/

namespace Wpcp

variable {S : Prop} {er ei : Option ℕ} {w : World}

namespace World.Inv

/-- The invariant survives what leaves sessions, results and publish items alone. -/
theorem frame {w' : World} (h : w.Inv S er ei) (hf : Frame w w') : w'.Inv S er ei where
  malloc := fun hS => hf.malloc (h.malloc hS)
  handlers := by
    rw [hf.messageHandler, hf.callbacks, hf.sessions]
    exact h.handlers
  session := by
    intro s σ hσ
    rw [hf.sessions] at hσ
    obtain ⟨hnodup, hresults, htable, hfree⟩ := h.session s σ hσ
    refine ⟨hnodup, ?_, ?_, hfree⟩
    · rw [hf.results]
      exact hresults
    · rw [hf.publishItems]
      exact htable
  output := by
    rw [hf.sessions]
    exact h.output
  result := by
    intro r ret hr
    rw [hf.results] at hr
    obtain ⟨hitems, hnone, hentries, hgranted⟩ := h.result r ret hr
    refine ⟨hitems, hnone, hentries, ?_⟩
    rw [hf.publishItems]
    exact hgranted
  waiting := by
    rw [hf.results, hf.sessions]
    exact h.waiting
  unlisted := by
    rw [hf.sessions]
    exact h.unlisted
  item := by
    intro it i hi hne
    rw [hf.publishItems] at hi
    obtain ⟨hsession, htable, hlt, hhandle⟩ := h.item it i hi hne
    refine ⟨?_, ?_, Nat.lt_of_lt_of_le hlt hf.next, fun s' hs' => ?_⟩
    · rw [hf.sessions]
      exact hsession
    · rw [hf.sessions]
      exact htable
    · obtain ⟨s, hs, heq⟩ := hf.handle _ s' hs' hlt
      rw [heq]
      exact hhandle s hs
  announced := by
    rw [hf.publishItems, hf.sessions]
    unfold World.Pending
    rw [hf.results]
    exact h.announced

/-- A world with a session has its handlers. -/
theorem messageHandler_eq (h : w.Inv S er ei) {s : ℕ} {σ : Session}
    (hσ : w.sessions.get s = some σ) : w.messageHandler = messageHandlers w.callbacks := by
  obtain heq | ⟨-, hnone⟩ := h.handlers
  · exact heq
  · rw [hnone s] at hσ
    simp at hσ

/-! ### Sessions -/

/-- **A write to a session**: its list of results may change with the exempted result,
its table with the exempted item. -/
theorem setSession {er' : Option ℕ} {s : ℕ} {σ σ' : Session} (h : w.Inv S er ei)
    (hσ : w.sessions.get s = some σ) (hsession : SessionInv w s σ') (houtput : S → OutputInv σ')
    (hwaiting : ∀ r ret, w.results.get r = some ret → er' ≠ some r →
      (ret.session = some s → r ∈ σ'.results) ∧ (ret.session ≠ some s → er ≠ some r))
    (hunlisted : ∀ r, er' = some r →
      r ∉ σ'.results ∧ ∀ k τ, k ≠ s → w.sessions.get k = some τ → r ∉ τ.results)
    (hitem : ∀ it i, w.publishItems.get it = some i → ei ≠ some it → i.session = s →
      σ'.publishItems[i.subscriptionid]? = some (some it) ∧
        (S → w.Pending s i.subscriptionid it ∨ Announced σ'.ops i.subscriptionid it)) :
    World.Inv S er' ei { w with sessions := w.sessions.set s σ' } where
  malloc := h.malloc
  handlers := by
    obtain heq | ⟨-, hnone⟩ := h.handlers
    · exact Or.inl heq
    · rw [hnone s] at hσ
      simp at hσ
  session := by
    intro k τ hτ
    rw [Heap.get_set hσ] at hτ
    split at hτ
    · subst k
      obtain rfl := Option.some.inj hτ
      exact ⟨hsession.nodup, hsession.results, hsession.table, hsession.nextFree⟩
    · obtain ⟨hnodup, hresults, htable, hfree⟩ := h.session k τ hτ
      exact ⟨hnodup, hresults, htable, hfree⟩
  output := by
    intro hS k τ hτ
    rw [Heap.get_set hσ] at hτ
    split at hτ
    · obtain rfl := Option.some.inj hτ
      exact houtput hS
    · exact h.output hS k τ hτ
  result := fun r ret hr =>
    have ⟨hitems, hnone, hentries, hgranted⟩ := h.result r ret hr
    ⟨hitems, hnone, hentries, hgranted⟩
  waiting := by
    intro r ret k hr hk hne
    obtain ⟨hsame, hother⟩ := hwaiting r ret hr hne
    show ∃ τ, (w.sessions.set s σ').get k = some τ ∧ r ∈ τ.results
    rw [Heap.get_set hσ]
    split
    · subst k
      exact ⟨σ', rfl, hsame hk⟩
    · rename_i hks
      refine h.waiting r ret k hr hk (hother fun heq => hks ?_)
      exact Option.some.inj (hk.symm.trans heq)
  unlisted := by
    intro r hr k τ hτ
    rw [Heap.get_set hσ] at hτ
    split at hτ
    · obtain rfl := Option.some.inj hτ
      exact (hunlisted r hr).1
    · exact (hunlisted r hr).2 k τ ‹_› hτ
  item := by
    intro it i hi hne
    obtain ⟨hlt, htable, hhandle⟩ := h.item it i hi hne
    refine ⟨hlt, fun τ hτ => ?_, hhandle⟩
    rw [Heap.get_set hσ] at hτ
    split at hτ
    · obtain rfl := Option.some.inj hτ
      exact (hitem it i hi hne ‹_›).1
    · exact htable τ hτ
  announced := by
    intro hS it i τ hi hne hτ
    rw [Heap.get_set hσ] at hτ
    split at hτ
    · rename_i heq
      obtain rfl := Option.some.inj hτ
      rw [heq]
      exact (hitem it i hi hne heq).2 hS
    · exact h.announced hS it i τ hi hne hτ

/-- The conditions of `setSession` on the items, where the table keeps them and the trace
keeps what is announced. -/
theorem item_of_keeps {s : ℕ} {σ σ' : Session} (h : w.Inv S er ei)
    (hσ : w.sessions.get s = some σ)
    (htable : ∀ id it : ℕ, ei ≠ some it → σ.publishItems[id]? = some (some it) →
      σ'.publishItems[id]? = some (some it))
    (hannounced : S → ∀ id it : ℕ, σ.publishItems[id]? = some (some it) → Announced σ.ops id it →
      Announced σ'.ops id it) :
    ∀ it i, w.publishItems.get it = some i → ei ≠ some it → i.session = s →
      σ'.publishItems[i.subscriptionid]? = some (some it) ∧
        (S → w.Pending s i.subscriptionid it ∨ Announced σ'.ops i.subscriptionid it) := by
  rintro it i hi hne rfl
  have hid := (h.item it i hi hne).table σ hσ
  refine ⟨htable _ _ hne hid, fun hS => ?_⟩
  obtain hpending | hann := h.announced hS it i σ hi hne hσ
  · exact Or.inl hpending
  · exact Or.inr (hannounced hS _ _ hid hann)

/-- A write to a session that leaves its list of results alone. -/
theorem setTable {s : ℕ} {σ σ' : Session} (h : w.Inv S er ei)
    (hσ : w.sessions.get s = some σ) (hresults : σ'.results = σ.results)
    (htable' : ∀ id it, σ'.publishItems[id]? = some (some it) →
      ∃ i, w.publishItems.get it = some i ∧ i.session = s ∧ i.subscriptionid = id)
    (hfree : σ'.nextFreePublishItem ≤ σ'.publishItems.length + 1)
    (houtput : S → OutputInv σ')
    (htable : ∀ id it : ℕ, ei ≠ some it → σ.publishItems[id]? = some (some it) →
      σ'.publishItems[id]? = some (some it))
    (hannounced : S → ∀ id it : ℕ, σ.publishItems[id]? = some (some it) → Announced σ.ops id it →
      Announced σ'.ops id it) :
    World.Inv S er ei { w with sessions := w.sessions.set s σ' } := by
  have hinv := h.session s σ hσ
  refine h.setSession hσ ⟨?_, ?_, htable', hfree⟩ houtput ?_ ?_
    (h.item_of_keeps hσ htable hannounced)
  · rw [hresults]
    exact hinv.nodup
  · rw [hresults]
    exact hinv.results
  · intro r ret hr hne
    refine ⟨fun hs => ?_, fun _ => hne⟩
    obtain ⟨τ, hτ, hmem⟩ := h.waiting r ret s hr hs hne
    obtain rfl := Option.some.inj (hσ.symm.trans hτ)
    rw [hresults]
    exact hmem
  · intro r hr
    refine ⟨?_, fun k τ _ hτ => h.unlisted r hr k τ hτ⟩
    rw [hresults]
    exact h.unlisted r hr s σ hσ

/-- A write to the output of a session. -/
theorem setOutput {s : ℕ} {σ σ' : Session} (h : w.Inv S er ei)
    (hσ : w.sessions.get s = some σ) (hresults : σ'.results = σ.results)
    (htable : σ'.publishItems = σ.publishItems)
    (hfree : σ'.nextFreePublishItem = σ.nextFreePublishItem)
    (houtput : S → OutputInv σ')
    (hannounced : S → ∀ id it : ℕ, σ.publishItems[id]? = some (some it) → Announced σ.ops id it →
      Announced σ'.ops id it) :
    World.Inv S er ei { w with sessions := w.sessions.set s σ' } := by
  have hinv := h.session s σ hσ
  refine h.setTable hσ hresults ?_ ?_ houtput ?_ hannounced
  · rw [htable]
    exact hinv.table
  · rw [htable, hfree]
    exact hinv.nextFree
  · rw [htable]
    exact fun id it _ hid => hid

/-- A result that is in no list is put in front of the list of its session. -/
theorem listResult {s r : ℕ} {σ : Session} {ret : Result} (h : w.Inv S (some r) ei)
    (hσ : w.sessions.get s = some σ) (hr : w.results.get r = some ret)
    (hs : ret.session = some s) :
    World.Inv S none ei
      { w with sessions := w.sessions.set s { σ with results := r :: σ.results } } := by
  obtain ⟨hnodup, hresults, htable, hfree⟩ := h.session s σ hσ
  refine h.setSession hσ ⟨?_, ?_, htable, hfree⟩ (fun hS => ?_) ?_ (fun _ => nofun)
    (h.item_of_keeps hσ (fun _ _ _ hid => hid) fun _ _ _ _ => id)
  · exact List.nodup_cons.mpr ⟨h.unlisted r rfl s σ hσ, hnodup⟩
  · rintro k (_ | ⟨_, hk⟩)
    · exact ⟨ret, hr, hs⟩
    · exact hresults k hk
  · obtain ⟨htrace, htracked⟩ := h.output hS s σ hσ
    exact ⟨htrace, htracked⟩
  · intro k ret' hk _
    by_cases hkr : k = r
    · subst k
      obtain rfl := Option.some.inj (hr.symm.trans hk)
      exact ⟨fun _ => List.mem_cons_self, fun hne => absurd hs hne⟩
    · have hne : some r ≠ some k := fun heq => hkr (Option.some.inj heq).symm
      refine ⟨fun hks => List.mem_cons_of_mem _ ?_, fun _ => hne⟩
      obtain ⟨τ, hτ, hmem⟩ := h.waiting k ret' s hk hks hne
      obtain rfl := Option.some.inj (hσ.symm.trans hτ)
      exact hmem

/-- A result is taken out of the list of its session. -/
theorem unlistResult {s r : ℕ} {σ : Session} {ret : Result} (h : w.Inv S none ei)
    (hσ : w.sessions.get s = some σ) (hr : w.results.get r = some ret)
    (hs : ret.session = some s) :
    World.Inv S (some r) ei
      { w with sessions := w.sessions.set s { σ with results := σ.results.erase r } } := by
  obtain ⟨hnodup, hresults, htable, hfree⟩ := h.session s σ hσ
  refine h.setSession hσ ⟨hnodup.erase r, ?_, htable, hfree⟩ (fun hS => ?_) ?_ ?_
    (h.item_of_keeps hσ (fun _ _ _ hid => hid) fun _ _ _ _ => id)
  · exact fun k hk => hresults k (List.mem_of_mem_erase hk)
  · obtain ⟨htrace, htracked⟩ := h.output hS s σ hσ
    exact ⟨htrace, htracked⟩
  · intro k ret' hk hne
    refine ⟨fun hks => ?_, fun _ => nofun⟩
    obtain ⟨τ, hτ, hmem⟩ := h.waiting k ret' s hk hks nofun
    obtain rfl := Option.some.inj (hσ.symm.trans hτ)
    exact (List.mem_erase_of_ne fun heq => hne (congrArg some heq.symm)).mpr hmem
  · intro k heq
    obtain rfl := Option.some.inj heq
    refine ⟨hnodup.not_mem_erase, fun k τ hks hτ hmem => hks ?_⟩
    obtain ⟨ret', hr', hk⟩ := (h.session k τ hτ).results _ hmem
    obtain rfl := Option.some.inj (hr.symm.trans hr')
    exact Option.some.inj (hk.symm.trans hs)

/-! ### Results -/

/-- **A write to a result** that keeps what it has granted. -/
theorem setResult {r : ℕ} {ret ret' : Result} (h : w.Inv S er ei)
    (hr : w.results.get r = some ret) (hs : ret'.session = ret.session)
    (hinv : ResultInv w ret') (hgranted : ∀ g ∈ ret.granted, g ∈ ret'.granted) :
    World.Inv S er ei { w with results := w.results.set r ret' } where
  malloc := h.malloc
  handlers := h.handlers
  session := by
    intro s σ hσ
    obtain ⟨hnodup, hresults, htable, hfree⟩ := h.session s σ hσ
    refine ⟨hnodup, fun k hk => ?_, htable, hfree⟩
    show ∃ ret₂, (w.results.set r ret').get k = some ret₂ ∧ _
    rw [Heap.get_set hr]
    obtain ⟨ret₂, hret₂, hses⟩ := hresults k hk
    split
    · subst k
      obtain rfl := Option.some.inj (hr.symm.trans hret₂)
      exact ⟨ret', rfl, hs.trans hses⟩
    · exact ⟨ret₂, hret₂, hses⟩
  output := h.output
  result := by
    intro k ret₂ hk
    rw [Heap.get_set hr] at hk
    split at hk
    · obtain rfl := Option.some.inj hk
      exact ⟨hinv.items, hinv.noItems, hinv.entries, hinv.granted⟩
    · obtain ⟨hitems, hnone, hentries, hgr⟩ := h.result k ret₂ hk
      exact ⟨hitems, hnone, hentries, hgr⟩
  waiting := by
    intro k ret₂ s hk hks hne
    rw [Heap.get_set hr] at hk
    split at hk
    · subst k
      obtain rfl := Option.some.inj hk
      exact h.waiting r ret s hr (hs.symm.trans hks) hne
    · exact h.waiting k ret₂ s hk hks hne
  unlisted := h.unlisted
  item := fun it i hi hne =>
    have ⟨hlt, htable, hhandle⟩ := h.item it i hi hne
    ⟨hlt, htable, hhandle⟩
  announced := by
    intro hS it i σ hi hne hσ
    refine (h.announced hS it i σ hi hne hσ).imp ?_ id
    rintro ⟨k, ret₂, hk, hks, hmem⟩
    by_cases hkr : k = r
    · subst k
      obtain rfl := Option.some.inj (hr.symm.trans hk)
      refine ⟨r, ret', ?_, hs.trans hks, hgranted _ hmem⟩
      show (w.results.set r ret').get r = _
      rw [Heap.get_set hr, if_pos rfl]
    · refine ⟨k, ret₂, ?_, hks, hmem⟩
      show (w.results.set r ret').get k = _
      rw [Heap.get_set hr, if_neg hkr]
      exact hk

/-- A write to a result that changes neither its blocked items nor what it has granted. -/
theorem setAnswer {r : ℕ} {ret ret' : Result} (h : w.Inv S er ei)
    (hr : w.results.get r = some ret) (hs : ret'.session = ret.session)
    (hblocked : ret'.blockedItems = ret.blockedItems) (hgranted : ret'.granted = ret.granted) :
    World.Inv S er ei { w with results := w.results.set r ret' } := by
  obtain ⟨hitems, hnone, hentries, hgr⟩ := h.result r ret hr
  refine h.setResult hr hs ?_ fun g hg => hgranted ▸ hg
  constructor
  · rw [hblocked, hgranted]
    exact hitems
  · rw [hblocked, hgranted]
    exact hnone
  · rw [hblocked, hgranted]
    exact hentries
  · rw [hgranted, hs]
    exact hgr

/-- A result without grants is allocated. -/
theorem newResult {ret : Result} (h : w.Inv S none ei) (hblocked : ret.blockedItems = none)
    (hgranted : ret.granted = []) :
    World.Inv S (some w.results.next) ei { w with results := w.results.alloc ret } where
  malloc := h.malloc
  handlers := h.handlers
  session := by
    intro s σ hσ
    obtain ⟨hnodup, hresults, htable, hfree⟩ := h.session s σ hσ
    refine ⟨hnodup, fun k hk => ?_, htable, hfree⟩
    obtain ⟨ret', hret', hs⟩ := hresults k hk
    exact ⟨ret', Heap.get_alloc_of_get hret', hs⟩
  output := h.output
  result := by
    intro k ret' hk
    rw [Heap.get_alloc] at hk
    split at hk
    · obtain rfl := Option.some.inj hk
      refine ⟨?_, fun _ => hgranted, ?_, ?_⟩
      · rw [hblocked]
        simp
      · rw [hblocked]
        simp
      · rw [hgranted]
        simp
    · obtain ⟨hitems, hnone, hentries, hgr⟩ := h.result k ret' hk
      exact ⟨hitems, hnone, hentries, hgr⟩
  waiting := by
    intro k ret' s hk hks hne
    rw [Heap.get_alloc, if_neg fun heq => hne (congrArg some heq.symm)] at hk
    exact h.waiting k ret' s hk hks nofun
  unlisted := by
    intro r heq s σ hσ hmem
    obtain rfl := Option.some.inj heq
    obtain ⟨ret', hret', -⟩ := (h.session s σ hσ).results _ hmem
    exact Nat.lt_irrefl _ (Heap.lt_next hret')
  item := fun it i hi hne =>
    have ⟨hlt, htable, hhandle⟩ := h.item it i hi hne
    ⟨hlt, htable, hhandle⟩
  announced := by
    intro hS it i σ hi hne hσ
    refine (h.announced hS it i σ hi hne hσ).imp ?_ id
    rintro ⟨k, ret₂, hk, hks, hmem⟩
    exact ⟨k, ret₂, Heap.get_alloc_of_get hk, hks, hmem⟩

/-- A result that is in no list and whose grants have been announced is freed. -/
theorem freeResult {r : ℕ} {ret : Result} (h : w.Inv S er ei)
    (hr : w.results.get r = some ret) (her : er = some r ∨ er = none ∧ ret.session = none)
    (hann : S → ∀ s σ, ret.session = some s → w.sessions.get s = some σ →
      ∀ g ∈ ret.granted, Announced σ.ops g.1 g.2) :
    World.Inv S none ei { w with results := w.results.free r } where
  malloc := h.malloc
  handlers := h.handlers
  session := by
    intro s σ hσ
    obtain ⟨hnodup, hresults, htable, hfree⟩ := h.session s σ hσ
    refine ⟨hnodup, fun k hk => ?_, htable, hfree⟩
    obtain ⟨ret', hret', hs⟩ := hresults k hk
    refine ⟨ret', ?_, hs⟩
    show (w.results.free r).get k = _
    rw [Heap.get_free, if_neg, hret']
    rintro rfl
    obtain rfl | ⟨rfl, hnone⟩ := her
    · exact h.unlisted k rfl s σ hσ hk
    · obtain rfl := Option.some.inj (hr.symm.trans hret')
      rw [hnone] at hs
      simp at hs
  output := h.output
  result := by
    intro k ret' hk
    obtain ⟨hitems, hnone, hentries, hgr⟩ := h.result k ret' (Heap.get_of_get_free hk).2
    exact ⟨hitems, hnone, hentries, hgr⟩
  waiting := by
    intro k ret' s hk hks _
    obtain ⟨hkr, hk⟩ := Heap.get_of_get_free hk
    refine h.waiting k ret' s hk hks ?_
    obtain rfl | ⟨rfl, -⟩ := her
    · exact fun heq => hkr (Option.some.inj heq).symm
    · exact nofun
  unlisted := nofun
  item := fun it i hi hne =>
    have ⟨hlt, htable, hhandle⟩ := h.item it i hi hne
    ⟨hlt, htable, hhandle⟩
  announced := by
    intro hS it i σ hi hne hσ
    obtain ⟨k, ret', hk, hks, hmem⟩ | hdone := h.announced hS it i σ hi hne hσ
    · by_cases hkr : k = r
      · subst k
        obtain rfl := Option.some.inj (hr.symm.trans hk)
        exact Or.inr (hann hS _ σ hks hσ _ hmem)
      · refine Or.inl ⟨k, ret', ?_, hks, hmem⟩
        show (w.results.free r).get k = _
        rw [Heap.get_free, if_neg hkr, hk]
    · exact Or.inr hdone

/-! ### Publish items -/

/-- What the invariant says of the exempted item, once it holds. -/
theorem withItem {it : ℕ} {i : PublishItem} (h : w.Inv S er (some it))
    (hi : w.publishItems.get it = some i) (hinv : ItemInv w it i)
    (hann : S → ∀ σ, w.sessions.get i.session = some σ →
      w.Pending i.session i.subscriptionid it ∨ Announced σ.ops i.subscriptionid it) :
    w.Inv S er none where
  __ := h
  item := by
    intro k j hj _
    by_cases hk : k = it
    · subst k
      obtain rfl := Option.some.inj (hi.symm.trans hj)
      exact hinv
    · exact h.item k j hj fun heq => hk (Option.some.inj heq).symm
  announced := by
    intro hS k j σ hj _ hσ
    by_cases hk : k = it
    · subst k
      obtain rfl := Option.some.inj (hi.symm.trans hj)
      exact hann hS σ hσ
    · exact h.announced hS k j σ hj (fun heq => hk (Option.some.inj heq).symm) hσ

/-- Any item can be exempted. -/
theorem exempt (h : w.Inv S er none) (it : ℕ) : w.Inv S er (some it) where
  __ := h
  item := fun k j hj _ => h.item k j hj nofun
  announced := fun hS k j σ hj _ => h.announced hS k j σ hj nofun

/-- An item is allocated; it has still to be put into its places. -/
theorem newItem {i : PublishItem} (h : w.Inv S er none) :
    World.Inv S er (some w.publishItems.next)
      { w with publishItems := w.publishItems.alloc i } where
  malloc := h.malloc
  handlers := h.handlers
  session := by
    intro s σ hσ
    obtain ⟨hnodup, hresults, htable, hfree⟩ := h.session s σ hσ
    refine ⟨hnodup, hresults, fun id it hid => ?_, hfree⟩
    obtain ⟨j, hj, hs⟩ := htable id it hid
    exact ⟨j, Heap.get_alloc_of_get hj, hs⟩
  output := h.output
  result := by
    intro r ret hr
    obtain ⟨hitems, hnone, hentries, hgr⟩ := h.result r ret hr
    refine ⟨hitems, hnone, hentries, fun id it hid => ?_⟩
    obtain ⟨hlt, hget⟩ := hgr id it hid
    refine ⟨Nat.lt_succ_of_lt hlt, fun j hj => hget j ?_⟩
    rw [Heap.get_alloc, if_neg (by omega)] at hj
    exact hj
  waiting := h.waiting
  unlisted := h.unlisted
  item := by
    intro it j hj hne
    rw [Heap.get_alloc, if_neg fun heq => hne (congrArg some heq.symm)] at hj
    obtain ⟨hlt, htable, hhandle⟩ := h.item it j hj nofun
    exact ⟨hlt, htable, hhandle⟩
  announced := by
    intro hS it j σ hj hne
    rw [Heap.get_alloc, if_neg fun heq => hne (congrArg some heq.symm)] at hj
    exact h.announced hS it j σ hj nofun

/-- An item that is in no table is freed. -/
theorem freeItem {it : ℕ} (h : w.Inv S er (some it))
    (htables : ∀ s σ (id : ℕ), w.sessions.get s = some σ → σ.publishItems[id]? ≠ some (some it)) :
    World.Inv S er none { w with publishItems := w.publishItems.free it } where
  malloc := h.malloc
  handlers := h.handlers
  session := by
    intro s σ hσ
    obtain ⟨hnodup, hresults, htable, hfree⟩ := h.session s σ hσ
    refine ⟨hnodup, hresults, fun id k hid => ?_, hfree⟩
    obtain ⟨j, hj, hs⟩ := htable id k hid
    refine ⟨j, ?_, hs⟩
    show (w.publishItems.free it).get k = _
    rw [Heap.get_free, if_neg, hj]
    rintro rfl
    exact htables s σ id hσ hid
  output := h.output
  result := by
    intro r ret hr
    obtain ⟨hitems, hnone, hentries, hgr⟩ := h.result r ret hr
    refine ⟨hitems, hnone, hentries, fun id k hid => ?_⟩
    obtain ⟨hlt, hget⟩ := hgr id k hid
    exact ⟨hlt, fun j hj => hget j (Heap.get_of_get_free hj).2⟩
  waiting := h.waiting
  unlisted := h.unlisted
  item := by
    intro k j hj _
    obtain ⟨hk, hj⟩ := Heap.get_of_get_free hj
    obtain ⟨hlt, htable, hhandle⟩ := h.item k j hj fun heq => hk (Option.some.inj heq).symm
    exact ⟨hlt, htable, hhandle⟩
  announced := by
    intro hS k j σ hj _
    obtain ⟨hk, hj⟩ := Heap.get_of_get_free hj
    exact h.announced hS k j σ hj fun heq => hk (Option.some.inj heq).symm

/-- A write to the handle of a subscription, which may lose the exempted item. -/
theorem setHandle {k : ℕ} {s s' : Subscription} (h : w.Inv S er ei)
    (hs : w.subscriptions.get k = some s)
    (hkeeps : ∀ it ∈ s.publishHandle.items, ei ≠ some it → it ∈ s'.publishHandle.items) :
    World.Inv S er ei { w with subscriptions := w.subscriptions.set k s' } where
  malloc := h.malloc
  handlers := h.handlers
  session := fun s σ hσ =>
    have ⟨hnodup, hresults, htable, hfree⟩ := h.session s σ hσ
    ⟨hnodup, hresults, htable, hfree⟩
  output := h.output
  result := fun r ret hr =>
    have ⟨hitems, hnone, hentries, hgranted⟩ := h.result r ret hr
    ⟨hitems, hnone, hentries, hgranted⟩
  waiting := h.waiting
  unlisted := h.unlisted
  item := by
    intro it i hi hne
    obtain ⟨hsession, htable, hlt, hhandle⟩ := h.item it i hi hne
    refine ⟨hsession, htable, hlt, fun t ht => ?_⟩
    have hset : (w.subscriptions.set k s').get i.subscription = some t := ht
    rw [Heap.get_set hs] at hset
    split at hset
    · obtain rfl := Option.some.inj hset
      exact hkeeps it (hhandle s (by rw [‹i.subscription = k›, hs])) hne
    · exact hhandle t hset
  announced := h.announced

end World.Inv

end Wpcp
