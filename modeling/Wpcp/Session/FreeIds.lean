import Mathlib.Order.Bounds.Defs
import Wpcp.Session.Accepting
import Wpcp.Session.ItemTables

/-!
# The least free id

`wpcp_session_get_next_free_publish_id` does not search the whole table: it starts at
`next_free_publish_item`, which a request puts behind the id it uses and a release pulls back to
the id it gives up. The search is right because **every id below the start is in use**
(`Wpcp.Session.Hinted`), and the three functions keep this up as long as a request uses the id
that was obtained right before (`Wpcp.World.Ids.request`). So in every run of the three functions
on a session **the id that is found is the least one not in use** (`Wpcp.leastIds_of_run`).

Of a table with more than 2^30 places the source could not compute the size where an address has
32 bits; the items that fill it would not fit into memory there.
-/

namespace Wpcp

/-! ### Ids in use -/

/-- There is an item with the id. -/
def Session.Uses (σ : Session) (id : ℕ) : Prop := ∃ it, σ.publishItems[id]? = some (some it)

instance (σ : Session) (id : ℕ) : Decidable (σ.Uses id) :=
  match h : σ.publishItems[id]? with
  | some (some it) => isTrue ⟨it, h⟩
  | some none => isFalse fun ⟨_, hit⟩ => nomatch h.symm.trans hit
  | none => isFalse fun ⟨_, hit⟩ => nomatch h.symm.trans hit

/-- There is an item with the id in a session. -/
def World.InUse (w : World) (s id : ℕ) : Prop := ∃ σ, w.sessions.get s = some σ ∧ σ.Uses id

/-- **The search may start where it does**: every id below is in use. -/
structure Session.Hinted (σ : Session) : Prop extends σ.IdsFromOne where
  nextFree : σ.nextFreePublishItem ≤ σ.publishItems.length + 1
  used : ∀ id, 1 ≤ id → id < σ.nextFreePublishItem → σ.Uses id

/-- The least place of the table that is free, and it is not the first. -/
structure Session.LeastFree (σ : Session) (id : ℕ) : Prop where
  pos : 1 ≤ id
  free : σ.publishItems[id]? = some none
  used : ∀ j, 1 ≤ j → j < id → σ.Uses j

/-- The table of a session: where the search starts is right, and the items know their ids. -/
structure World.Ids (s : ℕ) (w : World) : Prop where
  hinted : ∃ σ, w.sessions.get s = some σ ∧ σ.Hinted
  listed : ∀ σ id it, w.sessions.get s = some σ → σ.publishItems[id]? = some (some it) →
    it < w.publishItems.next ∧ ∀ i, w.publishItems.get it = some i → i.subscriptionid = id

/-- An id is the least free one of a session. -/
def World.LeastFree (s id : ℕ) (w : World) : Prop :=
  ∀ σ, w.sessions.get s = some σ → σ.LeastFree id

/-! ### The search -/

/-- Every place that the search has come past is taken. -/
theorem nextFreeId_used (items : List (Option ℕ)) {start id : ℕ} (hle : start ≤ id)
    (hlt : id < nextFreeId items start) : ∃ it, items[id - start]? = some (some it) := by
  induction items generalizing start with
  | nil =>
    rw [nextFreeId] at hlt
    omega
  | cons item items ih =>
    cases item with
    | none =>
      rw [nextFreeId] at hlt
      omega
    | some it =>
      rw [nextFreeId] at hlt
      rcases hle.eq_or_lt with rfl | hgt
      · rw [Nat.sub_self]
        exact ⟨it, rfl⟩
      · obtain ⟨it', hit'⟩ := ih hgt hlt
        rw [show id - start = id - (start + 1) + 1 by omega]
        exact ⟨it', hit'⟩

section Session

variable {σ : Session} {id it : ℕ}

/-- A table that is made longer has the same items. -/
theorem Session.getElem?_roomy :
    σ.roomy.publishItems[id]? = some (some it) ↔ σ.publishItems[id]? = some (some it) := by
  rw [Session.roomy]
  split
  · by_cases hid : id < σ.publishItems.length
    · rw [List.getElem?_append_left hid]
    · rw [List.getElem?_append_right (by omega), List.getElem?_replicate,
        List.getElem?_eq_none (by omega)]
      split
      · simp
      · simp
  · rfl

theorem Session.uses_roomy : σ.roomy.Uses id ↔ σ.Uses id :=
  exists_congr fun _ => Session.getElem?_roomy

/-- A table that is made longer is searched from the same place. -/
theorem Session.Hinted.roomy (h : σ.Hinted) : σ.roomy.Hinted := by
  have hnext : σ.roomy.nextFreePublishItem = σ.nextFreePublishItem := by
    rw [Session.roomy]
    split
    · rfl
    · rfl
  have hlength : σ.publishItems.length ≤ σ.roomy.publishItems.length := by
    rw [Session.roomy]
    split
    · exact (List.length_append ▸ Nat.le_add_right _ _)
    · exact Nat.le_refl _
  refine ⟨⟨hnext ▸ h.next, fun it hit => h.first it (Session.getElem?_roomy.mp hit)⟩, ?_,
    fun id hpos hlt => ?_⟩
  · have := h.nextFree
    omega
  · exact Session.uses_roomy.mpr (h.used id hpos (hnext ▸ hlt))

/-- **The id that the search comes to is the least free one**, in a table with a free place. -/
theorem Session.Hinted.leastFree (h : σ.Hinted) : σ.roomy.LeastFree σ.nextId := by
  have hle : σ.nextFreePublishItem ≤ σ.nextId := le_nextFreeId _ _
  constructor
  · exact h.next.trans hle
  · have htable := nextFreeId_table h.nextFree
    rw [Session.roomy]
    split
    · exact htable
    · rename_i hfull
      exact (List.getElem?_append_left (not_not.mp hfull)).symm.trans htable
  · intro j hpos hlt
    rw [Session.uses_roomy]
    by_cases hj : j < σ.nextFreePublishItem
    · exact h.used j hpos hj
    · obtain ⟨it, hit⟩ := nextFreeId_used _ (by omega) hlt
      rw [List.getElem?_drop] at hit
      exact ⟨it, by rwa [show σ.nextFreePublishItem + (j - σ.nextFreePublishItem) = j by omega]
        at hit⟩

/-- The least free id is taken. -/
theorem Session.Hinted.take (h : σ.Hinted) (hid : σ.LeastFree id) (it : ℕ) :
    Session.Hinted { σ with
      publishItems := σ.publishItems.set id (some it), nextFreePublishItem := id + 1 } := by
  have hlt := (List.getElem?_eq_some_iff.mp hid.free).1
  refine ⟨⟨Nat.le_add_left 1 id, fun it' => ?_⟩, ?_, fun j hpos hj => ?_⟩
  · show (σ.publishItems.set id (some it))[0]? ≠ _
    rw [List.getElem?_set_ne (by have := hid.pos; omega)]
    exact h.first it'
  · show id + 1 ≤ (σ.publishItems.set id (some it)).length + 1
    rw [List.length_set]
    omega
  · rcases Nat.lt_succ_iff_lt_or_eq.mp hj with hj | rfl
    · obtain ⟨it', hit'⟩ := hid.used j hpos hj
      exact ⟨it', (List.getElem?_set_ne (by omega)).trans hit'⟩
    · exact ⟨it, List.getElem?_set_self hlt⟩

/-- An id is given up, and the next search starts no later. -/
theorem Session.Hinted.giveUp (h : σ.Hinted) (hid : 1 ≤ id) :
    Session.Hinted { σ with
      publishItems := σ.publishItems.set id none
      nextFreePublishItem := min id σ.nextFreePublishItem } := by
  refine ⟨⟨le_min hid h.next, fun it => ?_⟩, ?_, fun j hpos hj => ?_⟩
  · show (σ.publishItems.set id none)[0]? ≠ _
    rw [List.getElem?_set_ne (by omega)]
    exact h.first it
  · show min id σ.nextFreePublishItem ≤ (σ.publishItems.set id none).length + 1
    rw [List.length_set]
    exact (min_le_right _ _).trans h.nextFree
  · obtain ⟨hlt, hnext⟩ := lt_min_iff.mp hj
    obtain ⟨it, hit⟩ := h.used j hpos hnext
    exact ⟨it, (List.getElem?_set_ne (by omega)).trans hit⟩

end Session

/-! ### The three functions -/

namespace World.Ids

variable {s : ℕ} {w : World} {σ : Session}

/-- The table of the session is written to. -/
theorem set (hσ : w.sessions.get s = some σ) {σ' : Session} (hhinted : σ'.Hinted)
    (hlisted : ∀ id it, σ'.publishItems[id]? = some (some it) →
      it < w.publishItems.next ∧ ∀ i, w.publishItems.get it = some i → i.subscriptionid = id) :
    World.Ids s { w with sessions := w.sessions.set s σ' } := by
  have hset : (w.sessions.set s σ').get s = some σ' := (Heap.get_set hσ _ _).trans (if_pos rfl)
  refine ⟨⟨σ', hset, hhinted⟩, fun τ id it hτ hit => ?_⟩
  obtain rfl := Option.some.inj (hset.symm.trans hτ)
  exact hlisted id it hit

theorem ignoresReleases : IgnoresReleases (World.Ids s) where
  malloc _ _ h := ⟨h.hinted, h.listed⟩
  subscriptionTable _ _ h := ⟨h.hinted, h.listed⟩
  subscriptions _ _ h := ⟨h.hinted, h.listed⟩
  referencesPeak _ _ h := ⟨h.hinted, h.listed⟩
  itemLinks _ _ h := ⟨h.hinted, h.listed⟩
  freeItem _ _ h := ⟨h.hinted, fun σ id it hσ hit => ⟨(h.listed σ id it hσ hit).1,
    fun i hi => (h.listed σ id it hσ hit).2 i (Heap.get_of_get_free hi).2⟩⟩
  events _ _ _ h := ⟨h.hinted, h.listed⟩

/-- **A request for the least free id** keeps the table, and leaves the id free where it fails. -/
theorem request (s k id : ℕ) :
    Attempt.Ensures (fun w => w.Ids s ∧ w.LeastFree s id) (sessionRequestPublishItem s k id)
      (fun ret w => w.Ids s ∧ (ret = none → w.LeastFree s id)) Stop.Any := by
  have hignores : IgnoresSubscriptions fun w => w.Ids s ∧ w.LeastFree s id :=
    ⟨fun _ _ h => ⟨⟨h.1.hinted, h.1.listed⟩, h.2⟩, fun _ _ h => ⟨⟨h.1.hinted, h.1.listed⟩, h.2⟩,
      fun _ _ h => ⟨⟨h.1.hinted, h.1.listed⟩, h.2⟩, fun _ _ h => ⟨⟨h.1.hinted, h.1.listed⟩, h.2⟩,
      fun _ _ h => ⟨⟨h.1.hinted, h.1.listed⟩, h.2⟩⟩
  -- the new item, which is not in the table yet
  let F (it : ℕ) : World → Prop := fun w => (w.Ids s ∧ w.LeastFree s id) ∧
    w.publishItems.get it = some ⟨k, s, id⟩
  have hF : ∀ it w w', w'.sessions = w.sessions → w'.publishItems = w.publishItems →
      F it w → F it w' := by
    rintro it w w' hsessions hitems ⟨⟨⟨hhinted, hlisted⟩, hleast⟩, hit⟩
    refine ⟨⟨⟨hsessions ▸ hhinted, fun σ id it hσ hid => ?_⟩, fun σ hσ => ?_⟩, hitems ▸ hit⟩
    · rw [hitems]
      exact hlisted σ id it (hsessions ▸ hσ) hid
    · exact hleast σ (hsessions ▸ hσ)
  refine .bind (Q := fun _ (w : World) => w.Ids s ∧ w.LeastFree s id)
    (Leaves.malloc hignores.malloc) fun _ => .ite (fun _ => .bind (Q := fun it => F it)
    (Place.ensures_new fun w h => ?_) fun it =>
      .bind (Q := fun _ => F it) (Leaves.read _ _) fun sub => .bind (Q := fun _ => F it)
      (Leaves.write (fun w heap => hF it w _ rfl rfl) _ _) fun _ => .bind (Q := fun _ => F it)
      (Leaves.modifyWorld fun w => hF it w _ rfl rfl) fun _ => .bind (Place.ensures_read trivial)
      fun σ => .bind (Q := fun _ => World.Ids s) (Place.ensures_write trivial ?_) fun _ =>
      .pure fun w h => ⟨h, nofun⟩) fun _ => .bind (hignores.releaseSubscription k) fun _ =>
      .pure fun w h => ⟨h.1, fun _ => h.2⟩
  · refine ⟨⟨⟨h.1.hinted, fun σ j it hσ hit => ?_⟩, h.2⟩,
      (Heap.get_alloc _ _ _).trans (if_pos rfl)⟩
    obtain ⟨hlt, hitem⟩ := h.1.listed σ j it hσ hit
    refine ⟨hlt.trans (Nat.lt_succ_self _), fun i hi => hitem i ?_⟩
    have hi : (w.publishItems.alloc _).get it = some i := hi
    rwa [Heap.get_alloc, if_neg hlt.ne] at hi
  · rintro w - ⟨hσ, ⟨hids, hleast⟩, hitem⟩ -
    obtain ⟨σ', hσ', hhinted⟩ := hids.hinted
    obtain rfl := Option.some.inj (hσ'.symm.trans hσ)
    refine set hσ (hhinted.take (hleast _ hσ) it) fun j it' hit' => ?_
    have hset : (σ'.publishItems.set id (some it))[j]? = some (some it') := hit'
    by_cases hj : id = j
    · subst hj
      rw [List.getElem?_set_self (List.getElem?_eq_some_iff.mp (hleast _ hσ).free).1] at hset
      obtain rfl := Option.some.inj (Option.some.inj hset)
      refine ⟨Heap.lt_next hitem, fun i hi => ?_⟩
      obtain rfl := Option.some.inj (hitem.symm.trans hi)
      rfl
    · rw [List.getElem?_set_ne hj] at hset
      exact hids.listed _ j it' hσ hset

/-- **To release an item of the table** keeps the table. -/
theorem release {it id : ℕ} (hσ : w.sessions.get s = some σ)
    (hid : σ.publishItems[id]? = some (some it)) (h : w.Ids s) {w' : World}
    (hrun : (sessionReleasePublishItem s it).run w = some (.ok (), w')) : w'.Ids s := by
  have hensures : Attempt.Ensures (fun w => w.sessions.get s = some σ ∧ w.Ids s)
      (sessionReleasePublishItem s it) (fun _ => World.Ids s) Stop.Any := by
    refine .bind (Place.ensures_read trivial) fun σ' => .bind (Place.ensures_read trivial)
      fun i => .bind (Q := fun _ => World.Ids s) (Place.ensures_write trivial ?_) fun _ =>
      ignoresReleases.publishItemRelease it
    rintro w - ⟨hi, hσ', hσ, hids⟩ -
    obtain rfl := Option.some.inj (hσ.symm.trans hσ')
    obtain ⟨τ, hτ, hhinted⟩ := hids.hinted
    obtain rfl := Option.some.inj (hτ.symm.trans hσ)
    obtain rfl : i.subscriptionid = id := (hids.listed τ id it hσ hid).2 i hi
    have hpos : 1 ≤ i.subscriptionid := by
      refine Nat.one_le_iff_ne_zero.mpr fun hzero => ?_
      rw [hzero] at hid
      exact hhinted.first it hid
    refine set hσ (hhinted.giveUp hpos) fun j it' hit' => ?_
    have hset : (τ.publishItems.set i.subscriptionid none)[j]? = some (some it') := hit'
    by_cases hj : i.subscriptionid = j
    · subst hj
      rw [List.getElem?_set_self (List.getElem?_eq_some_iff.mp hid).1] at hset
      cases hset
    · rw [List.getElem?_set_ne hj] at hset
      exact hids.listed τ j it' hσ hset
  exact hensures.ok ⟨hσ, h⟩ hrun

/-- **A search gives the least free id**, or 0 where the table is full and cannot be made
longer; a table that is as long as its length can say is not made longer. -/
theorem next (h : w.Ids s) (hσ : w.sessions.get s = some σ) :
    (∃ w', (sessionGetNextFreePublishId s).run w = some (.ok σ.nextId, w') ∧
      ¬(σ.Full ∧ w.malloc 0 = false) ∧ w'.sessions.get s = some σ.roomy ∧ w'.Ids s ∧
      w'.LeastFree s σ.nextId) ∨
    (σ.Full ∧ w.malloc 0 = false ∧
      (sessionGetNextFreePublishId s).run w = some (.ok 0, w.allocated 1)) ∨
    (¬σ.publishItems.length + 16 < 2 ^ 32 ∧
      (sessionGetNextFreePublishId s).run w = some (.error .dangling, w.allocated 1)) := by
  obtain ⟨τ, hτ, hhinted⟩ := h.hinted
  obtain rfl := Option.some.inj (hτ.symm.trans hσ)
  by_cases hgrows : w.Grows τ
  · let w' : World := { w.allocated τ.growths with sessions := w.sessions.set s τ.roomy }
    have hset : w'.sessions.get s = some τ.roomy := (Heap.get_set hσ _ _).trans (if_pos rfl)
    refine Or.inl ⟨w', run_sessionGetNextFreePublishId hσ hgrows, ?_, hset,
      ⟨⟨_, hset, hhinted.roomy⟩, fun ρ id it hρ hit => ?_⟩, fun ρ hρ => ?_⟩
    · rintro ⟨hfull, hfails⟩
      rw [(hgrows hfull).1] at hfails
      exact absurd hfails nofun
    · obtain rfl := Option.some.inj (hset.symm.trans hρ)
      exact h.listed τ id it hσ (Session.getElem?_roomy.mp hit)
    · obtain rfl := Option.some.inj (hset.symm.trans hρ)
      exact hhinted.leastFree
  · obtain ⟨hfull, hno⟩ := Classical.not_imp.mp hgrows
    rcases hmalloc : w.malloc 0 with _ | _
    · exact Or.inr (Or.inl ⟨hfull, rfl, run_sessionGetNextFreePublishId_failed hσ hfull hmalloc⟩)
    · have hfits : ¬τ.publishItems.length + 16 < 2 ^ 32 := fun hfits => hno ⟨hmalloc, hfits⟩
      exact Or.inr (Or.inr ⟨hfits,
        run_sessionGetNextFreePublishId_overflow hσ hfull hmalloc hfits⟩)

end World.Ids

/-! ### Runs -/

/-- A call of one of the three functions. -/
inductive IdCall where
  | next
  | request (subscription : ℕ)
  | release (item : ℕ)

/-- A world, and the id that was obtained last and is not used yet. -/
structure IdSystem where
  world : World
  obtained : Option ℕ

/-- A publish item is in the table of a session. -/
def World.Listed (w : World) (s item : ℕ) : Bool :=
  (w.sessions.get s).any fun σ => some item ∈ σ.publishItems

/-- A call on a session is made and returns. What is requested is the id obtained right before,
and what is released is registered. -/
def IdSystem.step (s : ℕ) (h : IdSystem) : IdCall → Option IdSystem
  | .next =>
    match (sessionGetNextFreePublishId s).run h.world with
    | some (.ok id, w) => some ⟨w, if id = 0 then none else some id⟩
    | _ => none
  | .request subscription =>
    match h.obtained with
    | some id =>
      match (sessionRequestPublishItem s subscription id).run h.world with
      | some (.ok ret, w) => some ⟨w, if ret.isSome then none else some id⟩
      | _ => none
    | none => none
  | .release item =>
    if h.world.Listed s item then
      match (sessionReleasePublishItem s item).run h.world with
      | some (.ok _, w) => some ⟨w, none⟩
      | _ => none
    else none

/-- What the three functions keep up. -/
structure IdSystem.Inv (s : ℕ) (h : IdSystem) : Prop where
  ids : h.world.Ids s
  obtained : ∀ id ∈ h.obtained, h.world.LeastFree s id

/-- **Every call keeps the table**, and an id that was obtained free until it is used. -/
theorem IdSystem.Inv.step {s : ℕ} {h h' : IdSystem} (hinv : h.Inv s) {call : IdCall}
    (hst : h.step s call = some h') : h'.Inv s := by
  cases call with
  | next =>
    obtain ⟨σ, hσ, -⟩ := hinv.ids.hinted
    simp only [IdSystem.step] at hst
    rcases hinv.ids.next hσ with ⟨w', hrun, -, -, hids, hleast⟩ | ⟨-, -, hrun⟩ | ⟨-, hrun⟩
    · rw [hrun] at hst
      obtain rfl := Option.some.inj hst
      refine ⟨hids, fun id hid => ?_⟩
      have hid : id ∈ if σ.nextId = 0 then none else some σ.nextId := hid
      split at hid
      · exact absurd hid nofun
      · obtain rfl := Option.some.inj hid
        exact hleast
    · rw [hrun] at hst
      obtain rfl := Option.some.inj hst
      exact ⟨World.Ids.ignoresReleases.malloc h.world _ hinv.ids, nofun⟩
    · rw [hrun] at hst
      exact absurd hst nofun
  | request k =>
    simp only [IdSystem.step] at hst
    rcases hobtained : h.obtained with _ | id
    · rw [hobtained] at hst
      exact absurd hst nofun
    · rw [hobtained] at hst
      dsimp only at hst
      split at hst
      · rename_i ret w hrun
        obtain rfl := Option.some.inj hst
        obtain ⟨hids, hfails⟩ := (World.Ids.request s k id).ok
          ⟨hinv.ids, hinv.obtained id hobtained⟩ hrun
        refine ⟨hids, fun j hj => ?_⟩
        rcases ret with _ | it
        · obtain rfl := Option.some.inj hj
          exact hfails rfl
        · exact absurd hj nofun
      · exact absurd hst nofun
  | release it =>
    simp only [IdSystem.step] at hst
    split at hst
    · rename_i hlisted
      obtain ⟨σ, hσ, hmem⟩ := (Option.any_eq_true _ _).mp hlisted
      obtain ⟨id, hid⟩ := List.getElem?_of_mem (of_decide_eq_true hmem)
      split at hst
      · rename_i u w hrun
        obtain rfl := Option.some.inj hst
        exact ⟨hinv.ids.release hσ hid hrun, nofun⟩
      · exact absurd hst nofun
    · exact absurd hst nofun

/-- The ids of a session are given out from the least one on. -/
structure World.LeastIds (w : World) (s : ℕ) : Prop where
  /-- What is below the start of the search is in use. -/
  used : ∀ σ, w.sessions.get s = some σ → ∀ id, 1 ≤ id → id < σ.nextFreePublishItem → w.InUse s id
  /-- The id 0 is not in use. -/
  zero : ¬w.InUse s 0
  /-- A search returns, and no other id is in use then. It fails where the table is full and
  cannot be made longer; otherwise it gives the least id that is free, which is in the table. -/
  next : ∃ σ, w.sessions.get s = some σ ∧ (σ.publishItems.length < 2 ^ 32 - 16 →
    ∃ id w', (sessionGetNextFreePublishId s).run w = some (.ok id, w') ∧
      (∀ j, w'.InUse s j ↔ w.InUse s j) ∧
      (σ.Full ∧ w.malloc 0 = false ∧ id = 0 ∨
        ¬(σ.Full ∧ w.malloc 0 = false) ∧ IsLeast {j | 1 ≤ j ∧ ¬w.InUse s j} id ∧
          ∃ σ', w'.sessions.get s = some σ' ∧ id < σ'.publishItems.length))

/-- What the three functions keep up is what makes the search right. -/
theorem World.Ids.leastIds {s : ℕ} {w : World} (h : w.Ids s) : w.LeastIds s := by
  obtain ⟨σ, hσ, hhinted⟩ := h.hinted
  have hsame : ∀ {τ}, w.sessions.get s = some τ → τ = σ := fun hτ =>
    Option.some.inj (hτ.symm.trans hσ)
  have hinUse : ∀ j, w.InUse s j ↔ σ.Uses j := fun j =>
    ⟨fun ⟨τ, hτ, huses⟩ => hsame hτ ▸ huses, fun huses => ⟨σ, hσ, huses⟩⟩
  constructor
  · rintro τ hτ id hpos hlt
    obtain rfl := hsame hτ
    exact (hinUse id).mpr (hhinted.used id hpos hlt)
  · rw [hinUse]
    rintro ⟨it, hit⟩
    exact hhinted.first it hit
  · refine ⟨σ, hσ, fun hfits => ?_⟩
    rcases h.next hσ with ⟨w', hrun, hgrows, hσ', -, hleast⟩ | ⟨hfull, hmalloc, hrun⟩ | ⟨hno, -⟩
    · have hroomy := hleast _ hσ'
      have hinUse' : ∀ j, w'.InUse s j ↔ w.InUse s j := by
        intro j
        rw [hinUse, ← Session.uses_roomy]
        refine ⟨fun ⟨τ, hτ, huses⟩ => ?_, fun huses => ⟨_, hσ', huses⟩⟩
        obtain rfl := Option.some.inj (hτ.symm.trans hσ')
        exact huses
      refine ⟨σ.nextId, w', hrun, hinUse', Or.inr ⟨hgrows, ⟨⟨hroomy.pos, ?_⟩, ?_⟩, _, hσ',
        (List.getElem?_eq_some_iff.mp hroomy.free).1⟩⟩
      · rw [hinUse, ← Session.uses_roomy]
        rintro ⟨it, hit⟩
        rw [hroomy.free] at hit
        cases hit
      · rintro j ⟨hpos, hfree⟩
        by_contra hlt
        refine hfree ((hinUse j).mpr (Session.uses_roomy.mp (hroomy.used j hpos (by omega))))
    · exact ⟨0, w.allocated 1, hrun, fun _ => Iff.rfl, Or.inl ⟨hfull, hmalloc, rfl⟩⟩
    · omega

/-- A new session has the table of `Wpcp.Session.create`. -/
theorem ensures_sessionCreate_get : Attempt.Ensures (fun _ => True) sessionCreate
    (fun ret w => ∀ s ∈ ret, w.sessions.get s = some .create) Stop.Any := by
  refine .bind (Leaves.malloc fun _ _ _ => trivial) fun _ => .ite (fun _ =>
    .bind (Q := fun s w => w.sessions.get s = some .create) (Place.ensures_new fun w _ => ?_)
    fun s => .bind (Q := fun _ w => w.sessions.get s = some .create)
    (ensures_modifyWorld fun w hw => ?_) fun _ => .pure fun w hw s' hs' => ?_)
    fun _ => .pure fun _ _ => nofun
  · exact (Heap.get_alloc _ _ _).trans (if_pos rfl)
  · split
    · exact hw
    · exact hw
  · obtain rfl := Option.some.inj hs'
    exact hw

/-- **In every run of the three functions on a new session ids are given out from the least one
on**, whichever allocations fail. -/
theorem leastIds_of_run {w₀ w₁ : World} {s : ℕ}
    (hcreate : sessionCreate.run w₀ = some (.ok (some s), w₁)) {idCalls : List IdCall}
    {h : IdSystem} (hrun : Transition.Run (IdSystem.step s) Transition.anyStep ⟨w₁, none⟩
      idCalls h) : h.world.LeastIds s := by
  have hget : w₁.sessions.get s = some .create :=
    ensures_sessionCreate_get.ok trivial hcreate s rfl
  have hinit : IdSystem.Inv s ⟨w₁, none⟩ := by
    refine ⟨⟨⟨_, hget, ⟨⟨Nat.le_refl 1, nofun⟩, Nat.le_refl 1, fun id hpos hlt => ?_⟩⟩,
      fun σ id it hσ hit => ?_⟩, nofun⟩
    · exact absurd hlt (Nat.not_lt.mpr hpos)
    · obtain rfl := Option.some.inj (hget.symm.trans hσ)
      exact absurd hit nofun
  exact (hrun.invariant (motive := fun _ (h : IdSystem) => h.Inv s) hinit
    fun _ _ _ _ ih _ hst => ih.step hst).ids.leastIds

/-- Two items are requested, where the second id is obtained twice, and the first item is
released. -/
theorem leastIds_released : ∃ h : IdSystem, h.world.InUse 0 2 ∧ ¬h.world.InUse 0 1 ∧
    h.world.LeastIds 0 := by
  let w₀ : World := { World.create .bits64 (fun _ => false) fun _ => true with
    subscriptions := Heap.empty.alloc ⟨⟨0, []⟩, 2, 3, [1]⟩ }
  let idCalls : List IdCall := [.next, .request 0, .next, .next, .request 0, .release 0]
  let w₁ : World := { w₀ with
    sessions := Heap.empty.alloc .create
    messageHandler := messageHandlers fun _ => false }
  have hcheck : (Transition.execute (IdSystem.step 0) Transition.anyStep ⟨w₁, none⟩ idCalls).any
      (fun h => (h.world.sessions.get 0).any fun σ =>
        σ.publishItems[1]? = some none ∧ σ.publishItems[2]? = some (some 1)) = true := by
    decide +kernel
  obtain ⟨h, hh, hany⟩ := (Option.any_eq_true _ _).mp hcheck
  obtain ⟨σ, hσ, hitems⟩ := (Option.any_eq_true _ _).mp hany
  obtain ⟨hfirst, hsecond⟩ := of_decide_eq_true hitems
  refine ⟨h, ⟨σ, hσ, 1, hsecond⟩, ?_,
    @leastIds_of_run w₀ w₁ 0 rfl _ h (Transition.run_of_execute hh)⟩
  rintro ⟨τ, hτ, it, hit⟩
  obtain rfl := Option.some.inj (hτ.symm.trans hσ)
  rw [hfirst] at hit
  exact absurd hit nofun

end Wpcp
