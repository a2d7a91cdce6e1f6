import Mathlib.Data.List.Find
import Wpcp.Session.Leaves

/-!
# The entries of a publish item

What is published to an item is in three places: handed out, in the publish queue of its
session, or held back by the result that has accepted the item
(`Wpcp.World.entriesOf`). **Read in this order, the three hold one entry for each publish on
the item, in the order of the publishes, and no other session has any of them**
(`Wpcp.World.Delivers`). The entries move from one place to the next when a message is taken
out and when a result is complete, and no other function touches them.
-/

namespace Wpcp

open Cbor (WriteBuffer)

/-- The data blocks published to an item, in order: one for each place of the item in the
handle. -/
def published (events : List Event) (it : ℕ) : List ℕ :=
  events.flatMap fun
    | .published data items => List.replicate (items.count it) data
    | _ => []

/-- The entries that a session has handed out. -/
def Session.handedOutEntries (σ : Session) : List Entry :=
  OutSystem.handedOutEntries ⟨σ.out, σ.handedOut⟩

namespace World

variable (w : World)

/-- The entries that wait with a result. -/
def blockedEntries (r : ℕ) : List Entry := (w.results.get r).elim [] Result.entries

/-- The result of a session that has accepted an item and still waits. -/
def holder (σ : Session) (it : ℕ) : Option ℕ :=
  σ.results.find? fun r => it ∈ w.blockedItems r

/-- The entries that wait with the result that has accepted an item. -/
def heldBack (σ : Session) (it : ℕ) : List Entry :=
  (w.holder σ it).elim [] w.blockedEntries

/-- The entries of an item in a session: those handed out, those in the publish queue, and
those held back. -/
def entriesOf (σ : Session) (it : ℕ) : List Entry :=
  (σ.handedOutEntries ++ σ.out.publishQueue ++ w.heldBack σ it).filter fun e => e.item = it

/-- No item has been accepted by two results. -/
def Apart : Prop := ∀ it r r', it ∈ w.blockedItems r → it ∈ w.blockedItems r' → r = r'

end World

/-- **Every entry handed out has used one of the free slots**, those of the beginning and
those added, as long as their number has not run over. -/
def Session.SlotsCounted (σ : Session) : Prop :=
  σ.slotsPeak < 2 ^ 32 →
    σ.handedOutEntries.length + σ.out.freePublishSlots = 2 ^ 32 - 1 + σ.slotsAdded

/-- The entries of an item with some id, for some data blocks. -/
def entriesFor (id it : ℕ) (data : List ℕ) : List Entry := data.map fun d => ⟨id, d, it⟩

/-- The entries of an item in the session `home`, and `pending` ones that have still to be
put into their place, are what has been published to it. -/
structure World.DeliversTo (pending : List ℕ) (w : World) (it home id : ℕ) : Prop where
  lt_next : it < w.publishItems.next → home < w.sessions.next
  item : ∀ i, w.publishItems.get it = some i → i.session = home ∧ i.subscriptionid = id
  entries : ∀ σ, w.sessions.get home = some σ →
    w.entriesOf σ it ++ entriesFor id it pending = entriesFor id it (published w.events it)
  elsewhere : ∀ s σ, s ≠ home → w.sessions.get s = some σ → w.entriesOf σ it = []

/-- **Every item has its session**, and there the entries of the item. -/
structure World.Delivers (pending : ℕ → List ℕ) (w : World) : Prop where
  apart : w.Apart
  slots : ∀ s σ, w.sessions.get s = some σ → σ.SlotsCounted
  fresh : ∀ it, w.publishItems.next ≤ it → published w.events it = pending it
  delivers : ∀ it, ∃ home id, w.DeliversTo (pending it) it home id

/-! ### What waits with a result -/

section Blocked

variable {w : World} {r : ℕ} {ret : Result}

theorem World.blockedItems_eq (r : ℕ) :
    w.blockedItems r = (w.results.get r).elim [] Result.items := by
  unfold World.blockedItems Result.items
  cases w.results.get r with
  | none => rfl
  | some ret =>
    cases hblocked : ret.blockedItems with
    | none => simp [hblocked]
    | some blocked => simp [hblocked]

theorem blockedItems_of_get (hr : w.results.get r = some ret) :
    w.blockedItems r = ret.items := by
  rw [World.blockedItems_eq, hr, Option.elim_some]

theorem blockedEntries_of_get (hr : w.results.get r = some ret) :
    w.blockedEntries r = ret.entries := by
  rw [World.blockedEntries, hr, Option.elim_some]

theorem blockedItems_of_get_none (hr : w.results.get r = none) : w.blockedItems r = [] := by
  rw [World.blockedItems_eq, hr, Option.elim_none]

/-- What waits with the results after one of them has been written to. -/
theorem blockedItems_set (hr : w.results.get r = some ret) (ret' : Result) (k : ℕ) :
    World.blockedItems { w with results := w.results.set r ret' } k =
      if k = r then ret'.items else w.blockedItems k := by
  rw [World.blockedItems_eq, World.blockedItems_eq]
  show ((w.results.set r ret').get k).elim [] _ = _
  rw [Heap.get_set hr]
  split
  · rfl
  · rfl

theorem blockedEntries_set (hr : w.results.get r = some ret) (ret' : Result) (k : ℕ) :
    World.blockedEntries { w with results := w.results.set r ret' } k =
      if k = r then ret'.entries else w.blockedEntries k := by
  rw [World.blockedEntries, World.blockedEntries]
  show ((w.results.set r ret').get k).elim [] _ = _
  rw [Heap.get_set hr]
  split
  · rfl
  · rfl

/-- **A result holds entries only for the items it has accepted.** -/
theorem World.Inv.item_mem_blockedItems {S : Prop} {er ei : Option ℕ} (h : w.Inv S er ei)
    {e : Entry}
    (he : e ∈ w.blockedEntries r) : e.item ∈ w.blockedItems r := by
  cases hr : w.results.get r with
  | none =>
    rw [World.blockedEntries, hr, Option.elim_none] at he
    exact absurd he (List.not_mem_nil)
  | some ret =>
    rw [blockedEntries_of_get hr] at he
    rw [h.mem_blockedItems]
    refine ⟨ret, e.subscriptionid, hr, ?_⟩
    cases hblocked : ret.blockedItems with
    | none =>
      rw [Result.entries, hblocked, Option.elim_none] at he
      exact absurd he (List.not_mem_nil)
    | some blocked =>
      rw [Result.entries, hblocked, Option.elim_some] at he
      exact (h.result r ret hr).entries blocked hblocked e he

end Blocked

section HeldBack

variable {w w' : World} {σ σ' : Session} {it r : ℕ}

/-- What a session holds back depends on its results only. -/
theorem heldBack_congr (hresults : σ'.results = σ.results)
    (hitems : ∀ r ∈ σ.results, it ∈ w'.blockedItems r ↔ it ∈ w.blockedItems r)
    (hentries : ∀ r ∈ σ.results, it ∈ w.blockedItems r →
      w'.blockedEntries r = w.blockedEntries r) : w'.heldBack σ' it = w.heldBack σ it := by
  have hholder : w'.holder σ' it = w.holder σ it := by
    rw [World.holder, World.holder, hresults]
    exact List.find?_congr fun r hr => decide_eq_decide.mpr (hitems r hr)
  rw [World.heldBack, World.heldBack, hholder]
  cases hfind : w.holder σ it with
  | none => rfl
  | some r =>
    refine hentries r (List.mem_of_find?_eq_some hfind) ?_
    simpa using List.find?_some hfind

theorem heldBack_of_mem (hapart : w.Apart) (hr : r ∈ σ.results) (hit : it ∈ w.blockedItems r) :
    w.heldBack σ it = w.blockedEntries r := by
  have hholder : w.holder σ it = some r := by
    cases hfind : w.holder σ it with
    | none =>
      have hno := List.find?_eq_none.mp hfind r hr
      simp only [decide_eq_true_eq] at hno
      exact absurd hit hno
    | some r' =>
      have hit' : it ∈ w.blockedItems r' := by simpa using List.find?_some hfind
      rw [hapart it r r' hit hit']
  rw [World.heldBack, hholder, Option.elim_some]

theorem heldBack_of_forall_notMem (h : ∀ r ∈ σ.results, it ∉ w.blockedItems r) :
    w.heldBack σ it = [] := by
  have hholder : w.holder σ it = none :=
    List.find?_eq_none.mpr fun r hr => by simpa using h r hr
  rw [World.heldBack, hholder, Option.elim_none]

end HeldBack

/-! ### What changes the entries of nobody -/

namespace World.Delivers

variable {pending : ℕ → List ℕ} {w w' : World}

/-- **What leaves every session that is left with the same entries.** -/
theorem mono {v : World} (h : w.Delivers pending) (hapart : v.Apart)
    (hnext : v.publishItems.next = w.publishItems.next)
    (halive : w.sessions.next ≤ v.sessions.next)
    (hevents : ∀ it, published v.events it = published w.events it)
    (hitems : ∀ it i, v.publishItems.get it = some i → w.publishItems.get it = some i)
    (hsessions : ∀ s σ', v.sessions.get s = some σ' →
      ∃ σ, w.sessions.get s = some σ ∧ (σ.SlotsCounted → σ'.SlotsCounted) ∧
        ∀ it, v.entriesOf σ' it = w.entriesOf σ it) :
    v.Delivers pending where
  apart := hapart
  slots s σ' hσ' := by
    obtain ⟨σ, hσ, hslots, -⟩ := hsessions s σ' hσ'
    exact hslots (h.slots s σ hσ)
  fresh it hit := (hevents it).trans (h.fresh it (hnext ▸ hit))
  delivers it := by
    obtain ⟨home, id, hhome, hitem, hentries, helse⟩ := h.delivers it
    refine ⟨home, id, fun hit => (hhome (hnext ▸ hit)).trans_le halive,
      fun i hi => hitem i (hitems it i hi), fun σ' hσ' => ?_, fun s σ' hs hσ' => ?_⟩
    · obtain ⟨σ, hσ, -, heq⟩ := hsessions home σ' hσ'
      rw [heq, hevents]
      exact hentries σ hσ
    · obtain ⟨σ, hσ, -, heq⟩ := hsessions s σ' hσ'
      rw [heq]
      exact helse s σ hs hσ

/-- A session is written to, and its entries stay. -/
theorem setSession (h : w.Delivers pending) {s : ℕ} {σ σ' : Session}
    (hσ : w.sessions.get s = some σ) (hslots : σ.SlotsCounted → σ'.SlotsCounted)
    (heq : ∀ it, w.entriesOf σ' it = w.entriesOf σ it) :
    World.Delivers pending { w with sessions := w.sessions.set s σ' } := by
  refine h.mono (v := { w with sessions := w.sessions.set s σ' }) h.apart rfl (Nat.le_refl _)
    (fun _ => rfl) (fun _ _ hi => hi) fun t τ hτ => ?_
  have hτ : (w.sessions.set s σ').get t = some τ := hτ
  rw [Heap.get_set hσ] at hτ
  split at hτ
  · rename_i hts
    obtain rfl := Option.some.inj hτ
    rw [hts]
    exact ⟨σ, hσ, hslots, heq⟩
  · exact ⟨τ, hτ, id, fun _ => rfl⟩

/-- The results are written to, and the sessions hold back what they have held back. -/
theorem setResults (h : w.Delivers pending) {R : Heap Result}
    (hapart : World.Apart { w with results := R })
    (hheld : ∀ s σ it, w.sessions.get s = some σ →
      World.heldBack { w with results := R } σ it = w.heldBack σ it) :
    World.Delivers pending { w with results := R } := by
  refine h.mono (v := { w with results := R }) hapart rfl (Nat.le_refl _) (fun _ => rfl)
    (fun _ _ hi => hi) fun s σ hσ => ⟨σ, hσ, id, fun it => ?_⟩
  rw [World.entriesOf, World.entriesOf, hheld s σ it hσ]

/-- A write to a result that neither accepts an item nor lets an entry wait. -/
theorem setResult (h : w.Delivers pending) {r : ℕ} {ret ret' : Result}
    (hr : w.results.get r = some ret) (hitems : ret'.items = ret.items)
    (hentries : ret'.entries = ret.entries) :
    World.Delivers pending { w with results := w.results.set r ret' } := by
  have hblocked : ∀ k,
      World.blockedItems { w with results := w.results.set r ret' } k = w.blockedItems k := by
    intro k
    rw [blockedItems_set hr]
    split
    · rename_i hk
      rw [hk, blockedItems_of_get hr, hitems]
    · rfl
  refine h.setResults (fun it k k' hk hk' => ?_) fun s σ it _ =>
    heldBack_congr rfl (fun k _ => by rw [hblocked]) fun k _ _ => ?_
  · rw [hblocked] at hk hk'
    exact h.apart it k k' hk hk'
  · rw [blockedEntries_set hr]
    split
    · rename_i hk
      rw [hk, blockedEntries_of_get hr, hentries]
    · rfl

/-- A write to a result that leaves what waits with it alone. -/
theorem setAnswer (h : w.Delivers pending) {r : ℕ} {ret ret' : Result}
    (hr : w.results.get r = some ret) (hblocked : ret'.blockedItems = ret.blockedItems) :
    World.Delivers pending { w with results := w.results.set r ret' } :=
  h.setResult hr (by rw [Result.items, Result.items, hblocked])
    (by rw [Result.entries, Result.entries, hblocked])

/-- A result that no session waits for is freed. -/
theorem freeResult (h : w.Delivers pending) {r : ℕ}
    (hlisted : ∀ s σ, w.sessions.get s = some σ → r ∉ σ.results) :
    World.Delivers pending { w with results := w.results.free r } := by
  have hget : ∀ k, k ≠ r → (w.results.free r).get k = w.results.get k := fun k hk =>
    (Heap.get_free _ _ _).trans (if_neg hk)
  have hblocked : ∀ k, k ≠ r →
      World.blockedItems { w with results := w.results.free r } k = w.blockedItems k := by
    intro k hk
    rw [World.blockedItems_eq, World.blockedItems_eq]
    exact congrArg (Option.elim · [] Result.items) (hget k hk)
  have hfreed : World.blockedItems { w with results := w.results.free r } r = [] :=
    blockedItems_of_get_none ((Heap.get_free _ _ _).trans (if_pos rfl))
  refine h.setResults (fun it k k' hk hk' => ?_) fun s σ it hσ => ?_
  · have hne : ∀ k, it ∈ World.blockedItems { w with results := w.results.free r } k →
        k ≠ r := by
      rintro k hk rfl
      rw [hfreed] at hk
      exact absurd hk List.not_mem_nil
    rw [hblocked k (hne k hk)] at hk
    rw [hblocked k' (hne k' hk')] at hk'
    exact h.apart it k k' hk hk'
  · have hne : ∀ k ∈ σ.results, k ≠ r := fun k hk heq => hlisted s σ hσ (heq ▸ hk)
    refine heldBack_congr rfl (fun k hk => by rw [hblocked k (hne k hk)]) fun k hk _ => ?_
    exact congrArg (Option.elim · [] Result.entries) (hget k (hne k hk))

/-- A result is allocated. -/
theorem newResult (h : w.Delivers pending) {ret : Result} (hnone : ret.blockedItems = none) :
    World.Delivers pending { w with results := w.results.alloc ret } := by
  have hnext : w.results.get w.results.next = none := w.results.fresh _ (Nat.le_refl _)
  have hblocked : ∀ k,
      World.blockedItems { w with results := w.results.alloc ret } k = w.blockedItems k := by
    intro k
    rw [World.blockedItems_eq, World.blockedItems_eq]
    show ((w.results.alloc ret).get k).elim [] _ = _
    rw [Heap.get_alloc]
    split
    · rename_i hk
      rw [hk, hnext, Option.elim_some, Option.elim_none, Result.items, hnone, Option.elim_none]
    · rfl
  have hentries : ∀ k,
      World.blockedEntries { w with results := w.results.alloc ret } k = w.blockedEntries k := by
    intro k
    rw [World.blockedEntries, World.blockedEntries]
    show ((w.results.alloc ret).get k).elim [] _ = _
    rw [Heap.get_alloc]
    split
    · rename_i hk
      rw [hk, hnext, Option.elim_some, Option.elim_none, Result.entries, hnone, Option.elim_none]
    · rfl
  refine h.setResults (fun it k k' hk hk' => ?_) fun s σ it _ =>
    heldBack_congr rfl (fun k _ => by rw [hblocked]) fun k _ _ => hentries k
  rw [hblocked] at hk hk'
  exact h.apart it k k' hk hk'

/-- A result that has accepted nothing is put into the list of its session. -/
theorem listResult (h : w.Delivers pending) {s r : ℕ} {σ : Session}
    (hσ : w.sessions.get s = some σ) (hr : w.blockedItems r = []) :
    World.Delivers pending
      { w with sessions := w.sessions.set s { σ with results := r :: σ.results } } := by
  refine h.setSession hσ (fun h => h) fun it => ?_
  have hholder : w.holder { σ with results := r :: σ.results } it = w.holder σ it :=
    List.find?_cons_of_neg (by simp [hr])
  rw [World.entriesOf, World.entriesOf, World.heldBack, World.heldBack, hholder]
  rfl

/-- An item is freed. -/
theorem freeItem (h : w.Delivers pending) (it : ℕ) :
    World.Delivers pending { w with publishItems := w.publishItems.free it } :=
  h.mono (v := { w with publishItems := w.publishItems.free it }) h.apart rfl (Nat.le_refl _)
    (fun _ => rfl) (fun _ _ hi => (Heap.get_of_get_free hi).2) fun _ σ hσ =>
      ⟨σ, hσ, id, fun _ => rfl⟩

/-- A session is freed. -/
theorem freeSession (h : w.Delivers pending) (s : ℕ) :
    World.Delivers pending { w with sessions := w.sessions.free s } :=
  h.mono (v := { w with sessions := w.sessions.free s }) h.apart rfl (Nat.le_refl _)
    (fun _ => rfl) (fun _ _ hi => hi) fun _ σ hσ =>
      ⟨σ, (Heap.get_of_get_free hσ).2, id, fun _ => rfl⟩

/-- An event that is no publish. -/
theorem event (h : w.Delivers pending) {e : Event} (he : ∀ it, published [e] it = []) :
    World.Delivers pending { w with events := w.events ++ [e] } := by
  refine h.mono (v := { w with events := w.events ++ [e] }) h.apart rfl (Nat.le_refl _)
    (fun it => ?_) (fun _ _ hi => hi) fun _ σ hσ => ⟨σ, hσ, id, fun _ => rfl⟩
  show published (w.events ++ [e]) it = _
  rw [published, List.flatMap_append]
  show published w.events it ++ published [e] it = _
  rw [he, List.append_nil]

/-- What leaves sessions, results, items and events alone. -/
theorem congr (h : w.Delivers pending) (hitems : w'.publishItems = w.publishItems)
    (hsessions : w'.sessions = w.sessions) (hresults : w'.results = w.results)
    (hevents : w'.events = w.events) : w'.Delivers pending := by
  have hblocked : ∀ r, w'.blockedItems r = w.blockedItems r := fun r => by
    rw [World.blockedItems_eq, World.blockedItems_eq, hresults]
  have hentries : ∀ r, w'.blockedEntries r = w.blockedEntries r := fun r => by
    rw [World.blockedEntries, World.blockedEntries, hresults]
  refine h.mono (fun it r r' hr hr' => ?_) (by rw [hitems]) (by rw [hsessions])
    (fun _ => by rw [hevents]) (fun _ _ hi => hitems ▸ hi) fun s σ hσ =>
    ⟨σ, hsessions ▸ hσ, id, fun it => ?_⟩
  · rw [hblocked] at hr hr'
    exact h.apart it r r' hr hr'
  · rw [World.entriesOf, World.entriesOf, heldBack_congr rfl (fun r _ => by rw [hblocked r])
      fun r _ _ => hentries r]

theorem ignoresUnsubscribes : IgnoresUnsubscribes (World.Delivers pending) where
  malloc _ _ h := h.congr rfl rfl rfl rfl
  subscriptionTable _ _ h := h.congr rfl rfl rfl rfl
  subscriptions _ _ h := h.congr rfl rfl rfl rfl
  referencesPeak _ _ h := h.congr rfl rfl rfl rfl
  itemLinks _ _ h := h.congr rfl rfl rfl rfl
  freeItem _ it h := h.freeItem it
  events _ e he h := h.event fun it => by
    cases e with
    | released => rfl
    | _ => exact absurd he nofun
  sessions _ s σ σ' hσ hsame h := by
    obtain ⟨items, next, rfl⟩ := hsame
    exact h.setSession hσ id fun _ => rfl

end World.Delivers

end Wpcp
