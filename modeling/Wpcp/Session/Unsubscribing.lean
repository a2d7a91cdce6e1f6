import Wpcp.Session.Closing
import Wpcp.Session.Items
import Wpcp.Session.Referred

/-!
# Unsubscribing what a message names

The loop of `wpcp_session_handle_unsubscribe_message` is to release the publish items whose ids
are elements of the message, up to the first element that is no unsigned integer. It goes on
after that element, and reads a number from it as well: whatever it reads is looked up, and an
item that is found is released. **A message releases what it names and nothing more exactly
where no item is found under what a malformed element is read as, or an element behind one**
(`Wpcp.unsubscribesNamed_iff_harmless`).

What is found depends on the application, which can have an item registered in its callback
under an id that has just become free; an id that comes twice may therefore name two items.
-/

namespace Wpcp

open Cbor (Machine ReadBuffer)

variable {α : Type} {S : Prop} {w w' : World}

/-! ### What is heard -/

/-- The release of an item, or a call of `unsubscribe.ex_cb`. -/
inductive Heard where
  | released (item : ℕ)
  | told (result remaining : ℕ) (subscription : Option ℕ)
  deriving DecidableEq

/-- What an event is in this respect. -/
def Event.heard : Event → Option Heard
  | .released it _ => some (.released it)
  | .unsubscribe result remaining subscription => some (.told result remaining subscription)
  | _ => none

/-- The events that are heard. -/
def Event.ofUnsubscribe (event : Event) : Bool := event.heard.isSome

instance : Event.Uncalled Event.ofUnsubscribe :=
  ⟨fun _ _ => rfl, fun _ _ => rfl, fun _ _ _ _ => rfl⟩

/-- All that has been heard. -/
def World.heard (w : World) : List Heard := w.events.filterMap Event.heard

theorem World.heard_eq (w : World) :
    w.heard = (w.events.filter Event.ofUnsubscribe).filterMap Event.heard := by
  rw [List.filterMap_filter]
  refine List.filterMap_congr fun event _ => ?_
  rcases h : event.heard with _ | heard
  · rw [ite_self]
  · rw [if_pos (by rw [Event.ofUnsubscribe, h, Option.isSome_some])]

/-- Nothing is heard of a call without such events. -/
theorem QuietOn.heard_eq {m : Calls α} (h : QuietOn Event.ofUnsubscribe m) {r : Except Stop α}
    (hrun : m.run w = some (r, w')) : w'.heard = w.heard := by
  rw [World.heard_eq, World.heard_eq, h.filter_eq hrun]

/-! ### Elements and items -/

/-- The item that is registered under an id, with its subscription. -/
def World.itemUnder (w : World) (s id : ℕ) : Option (ℕ × ℕ) :=
  (w.sessions.get s).bind fun σ => (σ.publishItems[id]?.bind fun item => item).bind fun it =>
    (w.publishItems.get it).map fun i => (it, i.subscription)

/-- An element of the payload: whether it is well-formed, the number that is read, and the item
that is then registered under it, with its subscription. -/
structure IdElement where
  ok : Bool
  id : ℕ
  item : Option (ℕ × ℕ)
  deriving DecidableEq

/-- What each element names: the item under its id, if no element so far is malformed. -/
def nameds : Bool → List IdElement → List (Option (ℕ × ℕ))
  | _, [] => []
  | ok, e :: es => (if (ok && e.ok) = true then e.item else none) :: nameds (ok && e.ok) es

/-- What is heard of elements that find some items: each item is released, and the application
is told its subscription, or the null pointer. -/
def story (result : ℕ) : List (Option (ℕ × ℕ)) → List Heard
  | [] => []
  | found :: rest =>
    (found.map fun x => Heard.released x.1).toList ++
      .told result rest.length (found.map Prod.snd) :: story result rest

/-- The items that are released. -/
def itemsOf (found : List (Option (ℕ × ℕ))) : List ℕ := found.filterMap (Option.map Prod.fst)

/-! ### The loop as a system -/

/-- The loop of `wpcp_session_handle_unsubscribe_message`, between two rounds. -/
structure Unsubscribing where
  world : World
  buffer : ReadBuffer
  payloadCount : ℕ
  ret : Bool

section System

variable (M : Machine) (app : Application) (s result : ℕ)

/-- The part of a round that follows the read of an id. -/
def unsubscribeElement (payloadCount id : ℕ) : Calls Unit := do
  let subscription ← unsubscribeItem s id
  callback app (.unsubscribe result payloadCount subscription) [.unsubscribe result subscription]

/-- **One round**: the element is read, what is found is released, and the application told. -/
def Unsubscribing.step (t : Unsubscribing) (e : IdElement) : Option Unsubscribing :=
  match t.payloadCount, (Cbor.readUnsignedInteger M 0).run t.buffer with
  | payloadCount + 1, some (.ok (ok, id), b) =>
    if e = ⟨ok, id, t.world.itemUnder s id⟩ then
      match (unsubscribeElement app s result payloadCount id).run t.world with
      | some (.ok (), w) => some ⟨w, b, payloadCount, t.ret && ok⟩
      | _ => none
    else none
  | _, _ => none

/-- A malformed element, and any behind one, finds nothing. -/
def Unsubscribing.Harmless (t : Unsubscribing) (e : IdElement) : Prop :=
  (t.ret && e.ok) = false → e.item = none

instance (t : Unsubscribing) (e : IdElement) : Decidable (t.Harmless e) :=
  inferInstanceAs (Decidable (_ → _))

end System

/-- **What an unsubscribe message is to do**, from its elements. -/
structure World.UnsubscribesNamed (w w' : World) (s result : ℕ) (es : List IdElement) : Prop where
  heard : w'.heard = w.heard ++ story result (nameds true es)
  once : (itemsOf (nameds true es)).Nodup
  first : ∀ before e after, es = before ++ e :: after → (∀ e' ∈ before, e'.id ≠ e.id) →
    ∀ x, w.itemUnder s e.id = some x → e.item = some x
  again : ∀ before e after, es = before ++ e :: after → (∃ e' ∈ before, e'.id = e.id) →
    ∀ x, e.item = some x → w.publishItems.next ≤ x.1
  stays : ∀ it i, w.publishItems.get it = some i → it ∉ itemsOf (nameds true es) →
    w'.publishItems.get it = some i ∧ w'.InTable it

/-! ### One round -/

/-- Some items are no more, the other ones are as they were, and there are the same sessions. -/
structure World.Unregisters (w w' : World) (gone : List ℕ) : Prop where
  next : w.publishItems.next ≤ w'.publishItems.next
  items : ∀ it < w.publishItems.next,
    w'.publishItems.get it = if it ∈ gone then none else w.publishItems.get it
  sessions : ∀ s, (w'.sessions.get s).isSome = (w.sessions.get s).isSome

namespace World.Unregisters

/-- Nothing happens. -/
theorem refl (w : World) : w.Unregisters w [] :=
  ⟨Nat.le_refl _, fun it _ => by rw [if_neg List.not_mem_nil], fun _ => rfl⟩

theorem trans {w₁ w₂ w₃ : World} {gone gone' : List ℕ} (h : w₁.Unregisters w₂ gone)
    (h' : w₂.Unregisters w₃ gone') : w₁.Unregisters w₃ (gone ++ gone') where
  next := h.next.trans h'.next
  items := by
    intro it hlt
    rw [h'.items it (hlt.trans_le h.next), h.items it hlt]
    by_cases hmem : it ∈ gone
    · rw [if_pos hmem, ite_self, if_pos (List.mem_append_left _ hmem)]
    · rw [if_neg hmem]
      exact if_congr (by rw [List.mem_append, or_iff_right hmem]) rfl rfl
  sessions s := (h'.sessions s).trans (h.sessions s)

end World.Unregisters

/-- An item that is no more. -/
def World.Gone (it : ℕ) (w : World) : Prop :=
  w.publishItems.get it = none ∧ it < w.publishItems.next

namespace World.Gone

variable {it : ℕ}

theorem ignoresOutput : IgnoresOutput (World.Gone it) where
  malloc _ _ h := h
  results _ _ h := h
  publishData _ _ h := h
  republishHandles _ _ h := h
  events _ _ _ h := h
  sessions _ _ _ _ _ _ _ h := h

theorem ignoresTable : IgnoresTable (World.Gone it) where
  malloc _ _ h := h
  subscriptionTable _ _ h := h
  subscriptions _ _ h := h
  referencesPeak _ _ h := h
  itemLinks _ _ h := h
  freeItem w k h := by
    refine ⟨?_, h.2⟩
    show (w.publishItems.free k).get it = none
    rw [Heap.get_free]
    split
    · rfl
    · exact h.1
  events _ _ _ h := h
  sessions _ _ _ _ _ _ h := h
  newItem w i h := by
    refine ⟨?_, Nat.lt_succ_of_lt h.2⟩
    show (w.publishItems.alloc i).get it = none
    rw [Heap.get_alloc, if_neg h.2.ne]
    exact h.1
  results _ _ _ _ _ _ h := h

/-- **An item that is no more does not come back.** -/
theorem conservesItems {I : Multiset Token → World → Prop} :
    ConservesItems S I fun _ => World.Gone it where
  answers _ := ignoresOutput.toIgnoresAnswers
  owed _ _ _ _ _ h := h
  retain _ k := (ignoresTable.retainSubscription k).moves fun _ _ h => h
  release _ k := (ignoresTable.releaseSubscription k).moves fun _ _ h => h
  request _ type key := (ignoresTable.requestSubscription type key).moves fun _ _ h => h
  accept _ r s k := (ignoresTable.acceptSubscription r s k).moves fun _ _ h => h
  newRepublish _ k := (Leaves.new ignoresOutput.republishHandles k).moves fun _ _ h => h
  freeRepublish _ handle :=
    (Leaves.free ignoresOutput.republishHandles handle).moves fun _ _ h => h
  unsubscribe _ s id := (ignoresTable.unsubscribeItem s id).moves fun _ _ h => h
  create _ := (Leaves.bind (.malloc fun _ _ h => h) fun _ => .ite
    (.bind (.new (fun _ _ h => h) _) fun _ => .bind (.modifyWorld fun w h => by
      split
      · exact h
      · exact h) fun _ => .pure _) (.pure _)).moves fun _ _ h => h
  close _ s σ := (ignoresOutput.closeSession (fun _ h => h) σ).moves fun _ _ h => h
  deleteItem _ k := (ignoresTable.deletePublishItem k).moves fun _ _ h => h

end World.Gone

section Round

variable {M : Machine} {app : Application} {s result payloadCount id : ℕ}

/-- **An item is found under an id**, and it is one of the session with that id. -/
theorem World.Inv.get_of_itemUnder (hinv : w.Inv S none none) {x : ℕ × ℕ}
    (hx : w.itemUnder s id = some x) : w.publishItems.get x.1 = some ⟨x.2, s, id⟩ := by
  obtain ⟨σ, hσ, hx⟩ := Option.bind_eq_some_iff.mp hx
  obtain ⟨it, hit, hx⟩ := Option.bind_eq_some_iff.mp hx
  obtain ⟨i, hi, rfl⟩ := Option.map_eq_some_iff.mp hx
  obtain ⟨item, hitem, rfl⟩ := Option.bind_eq_some_iff.mp hit
  obtain ⟨j, hj, rfl, rfl⟩ := (hinv.session s σ hσ).table id it hitem
  obtain rfl := Option.some.inj (hi.symm.trans hj)
  exact hi

/-- **An item of a session that is there is found under its id.** -/
theorem World.Inv.itemUnder_of_get (hinv : w.Inv S none none)
    (hs : (w.sessions.get s).isSome) {x : ℕ × ℕ}
    (hx : w.publishItems.get x.1 = some ⟨x.2, s, id⟩) : w.itemUnder s id = some x := by
  obtain ⟨σ, hσ⟩ := Option.isSome_iff_exists.mp hs
  have htable := (hinv.item x.1 _ hx nofun).table σ hσ
  rw [World.itemUnder, hσ, Option.bind_some, htable, Option.bind_some, Option.bind_some, hx]
  rfl

/-- What is known between the parts of a round that began in `w₀`. -/
structure World.Between (w₀ : World) (heard : List Heard) (items : Heap PublishItem) (w : World) :
    Prop where
  heard : w.heard = heard
  items : w.publishItems = items
  sessions : ∀ s, (w.sessions.get s).isSome = (w₀.sessions.get s).isSome

theorem World.Between.ignoresSubscriptions {w₀ : World} {heard : List Heard}
    {items : Heap PublishItem} : IgnoresSubscriptions (w₀.Between heard items) where
  malloc _ _ h := ⟨h.heard, h.items, h.sessions⟩
  subscriptionTable _ _ h := ⟨h.heard, h.items, h.sessions⟩
  subscriptions _ _ h := ⟨h.heard, h.items, h.sessions⟩
  referencesPeak _ _ h := ⟨h.heard, h.items, h.sessions⟩
  itemLinks _ _ h := ⟨h.heard, h.items, h.sessions⟩

/-- An item is released, and this is heard. -/
theorem ensures_publishItemRelease_between {w₀ : World} {heard : List Heard}
    {items : Heap PublishItem} (it : ℕ) :
    Attempt.Ensures (w₀.Between heard items) (publishItemRelease it)
      (fun _ => w₀.Between (heard ++ [.released it]) (items.free it)) Stop.Any := by
  refine ensures_publishItemRelease_of World.Between.ignoresSubscriptions
    World.Between.ignoresSubscriptions ?_
  rintro w h w' rfl
  refine ⟨?_, ?_, h.sessions⟩
  · show (w.events ++ [_]).filterMap Event.heard = _
    rw [List.filterMap_append, ← h.heard]
    rfl
  · show w.publishItems.free it = _
    rw [h.items]

/-- **What is found under an id is released**, and its subscription given back. -/
theorem ensures_unsubscribeItem_between (w : World) (s id : ℕ) :
    Attempt.Ensures (fun w' => w' = w) (unsubscribeItem s id) (fun subscription w' =>
      subscription = (w.itemUnder s id).map Prod.snd ∧
      w.Between (w.heard ++ ((w.itemUnder s id).map fun x => Heard.released x.1).toList)
        ((w.itemUnder s id).elim w.publishItems fun x => w.publishItems.free x.1) w') Stop.Any := by
  have hsame : w.Between w.heard w.publishItems w := ⟨rfl, rfl, fun _ => rfl⟩
  refine .bind (Place.ensures_read trivial) fun σ => .assume (p := w.sessions.get s = some σ)
    (fun w' h => h.2 ▸ h.1) fun hσ => ?_
  have hnone (h : (σ.publishItems[id]?.bind fun item => item) = none) :
      w.itemUnder s id = none := by
    rw [World.itemUnder, hσ, Option.bind_some, h]
    rfl
  rcases hget : σ.publishItems[id]? with _ | _ | it
  · rw [hnone (by rw [hget]; rfl)]
    refine .pure ?_
    rintro w' ⟨-, rfl⟩
    exact ⟨rfl, by simpa using hsame⟩
  · rw [hnone (by rw [hget]; rfl)]
    refine .pure ?_
    rintro w' ⟨-, rfl⟩
    exact ⟨rfl, by simpa using hsame⟩
  refine .bind (Place.ensures_read trivial) fun i => .assume
    (p := w.publishItems.get it = some i) (fun w' h => h.2.2 ▸ h.1) fun hi => ?_
  have hfound : w.itemUnder s id = some (it, i.subscription) := by
    rw [World.itemUnder, hσ, Option.bind_some, hget, Option.bind_some, Option.bind_some, hi]
    rfl
  rw [hfound]
  refine .bind (Q := fun _ => w.Between w.heard w.publishItems) (.ite (fun _ => .pure ?_)
    fun _ => .fail trivial) fun _ => .bind
    (Q := fun k w' => k = i.subscription ∧ w.Between w.heard w.publishItems w')
    (.bind (Leaves.read _ _) fun _ => .bind
      (Leaves.write World.Between.ignoresSubscriptions.subscriptions _ _) fun _ => .bind
      (Leaves.modifyWorld fun w' => World.Between.ignoresSubscriptions.referencesPeak w' _) fun _ =>
      .pure fun _ h => ⟨rfl, h⟩) fun k => .assume (fun _ h => h.1) ?_
  · rintro w' ⟨-, -, rfl⟩
    exact hsame
  rintro rfl
  refine .bind (Q := fun _ => w.Between (w.heard ++ [.released it]) (w.publishItems.free it))
    (.bind (Place.ensures_read trivial) fun τ => .bind (Q := fun _ w' =>
      w'.sessions.get s = some τ ∧ w.Between w.heard w.publishItems w')
      ((Leaves.read _ _).imp (fun _ h => ⟨h.1, h.2.2⟩) (fun _ _ h => h) fun _ h => h) fun j =>
    .bind (Q := fun _ => w.Between w.heard w.publishItems) (Place.ensures_write trivial ?_)
    fun _ => ensures_publishItemRelease_between it) fun _ => .pure fun _ h => ⟨rfl, h⟩
  rintro w' _ ⟨-, h⟩ -
  exact ⟨h.heard, h.items, fun k => (w'.sessions.isSome_get_set s k _).trans (h.sessions k)⟩

/-- The items are what is left of those before. -/
theorem World.Between.unregisters {heard : List Heard} (found : Option (ℕ × ℕ))
    (h : w.Between heard (found.elim w.publishItems fun x => w.publishItems.free x.1) w') :
    w.Unregisters w' (found.map Prod.fst).toList := by
  rcases found with _ | ⟨it, k⟩
  · have hitems : w'.publishItems = w.publishItems := h.items
    refine ⟨by rw [hitems], fun it _ => ?_, h.sessions⟩
    rw [hitems]
    exact (if_neg List.not_mem_nil).symm
  · have hitems : w'.publishItems = w.publishItems.free it := h.items
    refine ⟨by rw [hitems]; exact Nat.le_refl _, fun it' _ => ?_, h.sessions⟩
    rw [hitems, Heap.get_free]
    exact if_congr List.mem_singleton.symm rfl rfl

/-- **What the application does in its callback** releases nothing, and is not heard of. -/
theorem run_unsubscribe_callback (hinv : w.Inv S none none) {subscription : Option ℕ}
    (h : (callback app (.unsubscribe result payloadCount subscription)
      [.unsubscribe result subscription]).run w = some (.ok (), w')) :
    w'.Inv S none none ∧ w'.heard = w.heard ++ [.told result payloadCount subscription] ∧
      w.Unregisters w' [] := by
  let owed : List Owed := [.unsubscribe result subscription]
  have hcallback : Attempt.Ensures (Holds S (fun _ => w.Later) (owedTokens owed + 0))
      (callback app (.unsubscribe result payloadCount subscription) owed)
      (fun _ => Holds S (fun _ => w.Later) 0) Stop.Any :=
    (conservesCalls_later w).answers.holds_callback app owed rfl fun _ _ => trivial
  obtain ⟨hinv', hlater⟩ := hcallback.ok ⟨hinv, .refl w⟩ h
  have hkept : ∀ it < w.publishItems.next,
      w'.publishItems.get it = w.publishItems.get it ∧ it < w'.publishItems.next := by
    intro it hlt
    rcases hget : w.publishItems.get it with _ | i
    · have hgone : Attempt.Ensures (Holds S (fun _ => World.Gone it) (owedTokens owed + 0))
          (callback app (.unsubscribe result payloadCount subscription) owed)
          (fun _ => Holds S (fun _ => World.Gone it) 0) Stop.Any :=
        (World.Gone.conservesItems (I := anyWorld)).conserves.answers.holds_callback app owed rfl
          fun _ _ => trivial
      exact (hgone.ok ⟨hinv, hget, hlt⟩ h).2
    · have hi := hlater.items it i hget
      exact ⟨hi, Heap.lt_next hi⟩
  refine ⟨hinv', ?_, ?_, fun it hlt => ?_, hlater.sessions⟩
  · obtain ⟨e, t, he, -⟩ | ⟨_, w₁, hemit, hrest⟩ := Attempt.run_bind_eq_some.mp h
    · exact absurd he nofun
    obtain ⟨-, rfl⟩ := Prod.mk.inj (Option.some.inj hemit)
    have hquiet : QuietOn Event.ofUnsubscribe (getWorld >>= fun w => performAll (app w)) :=
      .bind .getWorld fun w => quiet_performAll (app w)
    rw [hquiet.heard_eq hrest]
    show (w.events ++ [_]).filterMap Event.heard = _
    rw [List.filterMap_append]
    rfl
  · by_contra hlt
    exact Nat.lt_irrefl _ (hkept _ (not_le.mp hlt)).2
  · rw [if_neg List.not_mem_nil]
    exact (hkept it hlt).1

/-- **One round** releases what is found under the id, and tells the application of it. -/
theorem run_unsubscribeElement (hinv : w.Inv S none none)
    (h : (unsubscribeElement app s result payloadCount id).run w = some (.ok (), w')) :
    w'.Inv S none none ∧
      w'.heard = w.heard ++ (((w.itemUnder s id).map fun x => Heard.released x.1).toList ++
        [.told result payloadCount ((w.itemUnder s id).map Prod.snd)]) ∧
      w.Unregisters w' ((w.itemUnder s id).map Prod.fst).toList := by
  obtain ⟨e, t, -, heq⟩ | ⟨subscription, w₁, hitem, hcallback⟩ := Attempt.run_bind_eq_some.mp h
  · exact absurd (Prod.mk.inj heq).1 nofun
  have hinv₁ := (preserves_unsubscribeItem s id).ok hinv hitem
  obtain ⟨rfl, hbetween⟩ := (ensures_unsubscribeItem_between w s id).ok rfl hitem
  obtain ⟨hinv', hheard, hunregisters⟩ := run_unsubscribe_callback hinv₁ hcallback
  refine ⟨hinv', ?_, ?_⟩
  · rw [hheard, hbetween.heard, List.append_assoc]
  · simpa using hbetween.unregisters.trans hunregisters

end Round

/-! ### All rounds -/

section Rounds

variable {M : Machine} {app : Application} {s result : ℕ} {t u : Unsubscribing} {e : IdElement}
  {es : List IdElement} {ok : Unsubscribing → IdElement → Prop}

/-- **What a round is.** -/
theorem Unsubscribing.step_eq_some :
    t.step M app s result e = some u ↔ t.payloadCount = u.payloadCount + 1 ∧
      (Cbor.readUnsignedInteger M 0).run t.buffer = some (.ok (e.ok, e.id), u.buffer) ∧
      e.item = t.world.itemUnder s e.id ∧ u.ret = (t.ret && e.ok) ∧
      (unsubscribeElement app s result u.payloadCount e.id).run t.world =
        some (.ok (), u.world) := by
  obtain ⟨w, b, n, ret⟩ := t
  obtain ⟨w', b', n', ret'⟩ := u
  obtain ⟨eok, id, item⟩ := e
  constructor
  · intro h
    unfold Unsubscribing.step at h
    split at h
    · rename_i payloadCount eok' id' b₁ hcount hread
      split at h
      · rename_i heq
        split at h
        · rename_i w₁ hrun
          obtain ⟨rfl, rfl, rfl⟩ := IdElement.mk.inj heq
          obtain ⟨rfl, rfl, rfl, rfl⟩ := Unsubscribing.mk.inj (Option.some.inj h)
          exact ⟨hcount, hread, rfl, rfl, hrun⟩
        · exact absurd h nofun
      · exact absurd h nofun
    · exact absurd h nofun
  · rintro ⟨hcount, hread, hitem, hret, hrun⟩
    dsimp only at hcount hread hitem hret hrun
    subst hcount hitem hret
    simp only [Unsubscribing.step, hread, if_true, hrun]

/-- A run of the loop is one of the system. -/
theorem exists_run_of_unsubscribeItems {n : ℕ} {ret ret' : Bool} {b b' : ReadBuffer}
    (h : (unsubscribeItems M app s result n ret).run (w, b) = some (.ok ret', (w', b'))) :
    ∃ es, Transition.Run (Unsubscribing.step M app s result) Transition.anyStep ⟨w, b, n, ret⟩ es
      ⟨w', b', 0, ret'⟩ := by
  induction n generalizing ret w b with
  | zero =>
    obtain ⟨heq, hstate⟩ := Prod.mk.inj (Option.some.inj h)
    obtain ⟨rfl, rfl⟩ := Prod.mk.inj hstate
    obtain rfl := Except.ok.inj heq
    exact ⟨[], .nil⟩
  | succ n ih =>
    obtain ⟨-, e, he⟩ | ⟨read, b₁, hread, h⟩ := run_reading_bind h
    · exact absurd he nofun
    rcases read with _ | ⟨ok, id⟩
    · exact absurd (Prod.mk.inj (Option.some.inj h)).1 nofun
    obtain ⟨-, e, he, -⟩ | ⟨subscription, w₁, hitem, h⟩ := run_calls_bind h
    · exact absurd he nofun
    obtain ⟨-, e, he, -⟩ | ⟨_, w₂, hcallback, h⟩ := run_calls_bind h
    · exact absurd he nofun
    obtain ⟨es, hrun⟩ := ih h
    refine ⟨⟨ok, id, w.itemUnder s id⟩ :: es, .cons trivial (Unsubscribing.step_eq_some.mpr
      ⟨rfl, hread _ rfl, rfl, rfl, ?_⟩) hrun⟩
    rw [unsubscribeElement, Attempt.run_bind_ok hitem]
    exact hcallback

/-- What the rounds have released, and what is heard of them. -/
structure Unsubscribing.Rounds (t u : Unsubscribing) (result : ℕ) (es : List IdElement) : Prop where
  inv : u.world.Inv False none none
  count : t.payloadCount = es.length + u.payloadCount
  heard : u.payloadCount = 0 →
    u.world.heard = t.world.heard ++ story result (es.map IdElement.item)
  unregisters : t.world.Unregisters u.world (itemsOf (es.map IdElement.item))

theorem Unsubscribing.rounds_of_run (hinv : t.world.Inv False none none)
    (hrun : Transition.Run (Unsubscribing.step M app s result) ok t es u) :
    t.Rounds u result es := by
  induction es generalizing t with
  | nil =>
    obtain rfl := hrun.eq_of_nil
    exact ⟨hinv, (Nat.zero_add _).symm, fun _ => (List.append_nil _).symm, .refl _⟩
  | cons e es ih =>
    obtain ⟨t', -, hstep, hrest⟩ := hrun.exists_of_cons
    obtain ⟨hcount, -, hitem, -, helement⟩ := Unsubscribing.step_eq_some.mp hstep
    obtain ⟨hinv', hheard, hunregisters⟩ := run_unsubscribeElement hinv helement
    obtain ⟨hinv'', hcount', hheard', hunregisters'⟩ := ih hinv' hrest
    rw [← hitem] at hheard hunregisters
    refine ⟨hinv'', ?_, fun hzero => ?_, ?_⟩
    · rw [hcount, hcount', List.length_cons]
      omega
    · rw [hheard' hzero, hheard, List.map_cons, story, List.length_map]
      rw [hzero, Nat.add_zero] at hcount'
      rw [hcount']
      simp
    · have htrans := hunregisters.trans hunregisters'
      rw [List.map_cons, itemsOf, List.filterMap_cons]
      rcases hfound : e.item with _ | x
      · rw [hfound] at htrans
        exact htrans
      · rw [hfound] at htrans
        exact htrans

/-- **An item that is found at the start is found** until its id is read. -/
theorem Unsubscribing.itemUnder_of_run (hinv : t.world.Inv False none none) {id : ℕ} {x : ℕ × ℕ}
    (hx : t.world.itemUnder s id = some x) (hes : ∀ e ∈ es, e.id ≠ id)
    (hrun : Transition.Run (Unsubscribing.step M app s result) ok t es u) :
    u.world.itemUnder s id = some x := by
  induction es generalizing t with
  | nil =>
    obtain rfl := hrun.eq_of_nil
    exact hx
  | cons e es ih =>
    obtain ⟨t', -, hstep, hrest⟩ := hrun.exists_of_cons
    obtain ⟨-, -, -, -, helement⟩ := Unsubscribing.step_eq_some.mp hstep
    obtain ⟨hinv', -, hunregisters⟩ := run_unsubscribeElement hinv helement
    obtain ⟨hne, hes⟩ := List.forall_mem_cons.mp hes
    refine ih hinv' (hinv'.itemUnder_of_get ?_ ?_) hes hrest
    · rw [hunregisters.sessions]
      obtain ⟨σ, hσ, -⟩ := Option.bind_eq_some_iff.mp hx
      exact Option.isSome_iff_exists.mpr ⟨σ, hσ⟩
    · -- what is released has another id
      have hget := hinv.get_of_itemUnder hx
      rw [hunregisters.items x.1 (Heap.lt_next hget), if_neg, hget]
      intro hmem
      obtain ⟨y, hy, heq⟩ := Option.map_eq_some_iff.mp (Option.mem_toList.mp hmem)
      have hget' := hinv.get_of_itemUnder hy
      rw [heq, hget] at hget'
      exact hne (PublishItem.mk.inj (Option.some.inj hget')).2.2.symm

/-- **An item that is found at the start is released** when its id is read. -/
theorem Unsubscribing.mem_itemsOf_of_run (hinv : t.world.Inv False none none) {id : ℕ} {x : ℕ × ℕ}
    (hx : t.world.itemUnder s id = some x) (hes : ∃ e ∈ es, e.id = id)
    (hrun : Transition.Run (Unsubscribing.step M app s result) ok t es u) :
    x.1 ∈ itemsOf (es.map IdElement.item) := by
  obtain ⟨e, hmem, hid⟩ := hes
  -- the first element with the id
  obtain ⟨e, before, after, hbefore, hid, rfl, -⟩ := List.exists_of_eraseP
    (p := fun e => decide (e.id = id)) hmem (decide_eq_true hid)
  obtain ⟨t', hfirst, hrest⟩ := hrun.exists_of_append
  obtain ⟨u', -, hstep, -⟩ := hrest.exists_of_cons
  obtain ⟨-, -, hitem, -⟩ := Unsubscribing.step_eq_some.mp hstep
  have hfound := itemUnder_of_run hinv hx (fun e' he' heq => hbefore e' he'
    (decide_eq_true heq)) hfirst
  rw [of_decide_eq_true hid, hfound] at hitem
  rw [itemsOf, List.map_append, List.filterMap_append, List.map_cons, List.filterMap_cons, hitem]
  exact List.mem_append_right _ List.mem_cons_self

/-- What is released was there at the start, or is new. -/
theorem Unsubscribing.isSome_of_run (hinv : t.world.Inv False none none)
    (hrun : Transition.Run (Unsubscribing.step M app s result) ok t es u) {it : ℕ}
    (hmem : it ∈ itemsOf (es.map IdElement.item)) (hlt : it < t.world.publishItems.next) :
    (t.world.publishItems.get it).isSome := by
  induction es generalizing t with
  | nil => exact absurd hmem List.not_mem_nil
  | cons e es ih =>
    obtain ⟨t', -, hstep, hrest⟩ := hrun.exists_of_cons
    obtain ⟨-, -, hitem, -, helement⟩ := Unsubscribing.step_eq_some.mp hstep
    obtain ⟨hinv', -, hunregisters⟩ := run_unsubscribeElement hinv helement
    obtain ⟨o, ho, hsome⟩ := List.mem_filterMap.mp hmem
    obtain ⟨x, rfl, rfl⟩ := Option.map_eq_some_iff.mp hsome
    obtain heq | hlater := List.mem_cons.mp ho
    · exact Option.isSome_iff_exists.mpr ⟨_, hinv.get_of_itemUnder (hitem.symm.trans heq.symm)⟩
    · have hsome := ih hinv' hrest (List.mem_filterMap.mpr ⟨_, hlater, hsome⟩)
        (hlt.trans_le hunregisters.next)
      rw [hunregisters.items _ hlt] at hsome
      split at hsome
      · exact absurd hsome nofun
      · exact hsome

/-- **No item is released twice.** -/
theorem Unsubscribing.nodup_of_run (hinv : t.world.Inv False none none)
    (hrun : Transition.Run (Unsubscribing.step M app s result) ok t es u) :
    (itemsOf (es.map IdElement.item)).Nodup := by
  induction es generalizing t with
  | nil => exact List.nodup_nil
  | cons e es ih =>
    obtain ⟨t', -, hstep, hrest⟩ := hrun.exists_of_cons
    obtain ⟨-, -, hitem, -, helement⟩ := Unsubscribing.step_eq_some.mp hstep
    obtain ⟨hinv', -, hunregisters⟩ := run_unsubscribeElement hinv helement
    have hnodup := ih hinv' hrest
    rw [List.map_cons, itemsOf, List.filterMap_cons]
    rcases hfound : e.item with _ | x
    · exact hnodup
    refine List.nodup_cons.mpr ⟨fun hmem => ?_, hnodup⟩
    have hlt := Heap.lt_next (hinv.get_of_itemUnder (hitem.symm.trans hfound))
    have hsome := isSome_of_run hinv' hrest hmem (hlt.trans_le hunregisters.next)
    rw [hunregisters.items _ hlt, ← hitem, hfound, if_pos (by simp)] at hsome
    exact absurd hsome nofun

/-! ### What the message names -/

/-- What is heard tells what was found. -/
theorem story_injective : Function.Injective (story result) := by
  intro found found' h
  induction found generalizing found' with
  | nil =>
    rcases found' with _ | ⟨_ | x, rest⟩
    · rfl
    · exact absurd h nofun
    · exact absurd h nofun
  | cons x found ih =>
    rcases found' with _ | ⟨x', found'⟩
    · rcases x with _ | x
      · exact absurd h nofun
      · exact absurd h nofun
    · rcases x with _ | x
      · rcases x' with _ | x'
        · rw [ih (List.cons.inj h).2]
        · exact absurd (List.cons.inj h).1 nofun
      · rcases x' with _ | x'
        · exact absurd (List.cons.inj h).1 nofun
        · obtain ⟨hreleased, h⟩ := List.cons.inj h
          obtain ⟨htold, h⟩ := List.cons.inj h
          have hsub := Option.some.inj (Heard.told.inj htold).2.2
          rw [ih h, Prod.ext (Heard.released.inj hreleased) hsub]

/-- **All rounds are harmless** exactly where what is found is named. -/
theorem Unsubscribing.harmless_iff
    (hrun : Transition.Run (Unsubscribing.step M app s result) Transition.anyStep t es u) :
    Transition.Run (Unsubscribing.step M app s result) Unsubscribing.Harmless t es u ↔
      nameds t.ret es = es.map IdElement.item := by
  induction es generalizing t with
  | nil =>
    obtain rfl := hrun.eq_of_nil
    exact ⟨fun _ => rfl, fun _ => .nil⟩
  | cons e es ih =>
    obtain ⟨t', -, hstep, hrest⟩ := hrun.exists_of_cons
    have hret := (Unsubscribing.step_eq_some.mp hstep).2.2.2.1
    have hhead : t.Harmless e ↔ (if (t.ret && e.ok) = true then e.item else none) = e.item := by
      rcases hok : (t.ret && e.ok) with _ | _
      · exact ⟨fun h => (h hok).symm, fun h _ => h.symm⟩
      · exact ⟨fun _ => rfl, fun _ h => absurd (hok.symm.trans h) nofun⟩
    rw [nameds, List.map_cons, List.cons.injEq, ← hhead, ← hret, ← ih hrest]
    constructor
    · intro h
      obtain ⟨t'', hharmless, hstep', hrest'⟩ := h.exists_of_cons
      obtain rfl := Option.some.inj (hstep.symm.trans hstep')
      exact ⟨hharmless, hrest'⟩
    · rintro ⟨hharmless, hrest'⟩
      exact .cons hharmless hstep hrest'

/-- **The rounds do what the message names** exactly where all of them are harmless. -/
theorem Unsubscribing.unsubscribesNamed_iff (hinv : t.world.Inv False none none)
    (hsessions : ∀ it i, t.world.publishItems.get it = some i →
      (t.world.sessions.get i.session).isSome)
    (hret : t.ret = true) (hzero : u.payloadCount = 0)
    (hrun : Transition.Run (Unsubscribing.step M app s result) Transition.anyStep t es u) :
    t.world.UnsubscribesNamed u.world s result es ↔
      Transition.Run (Unsubscribing.step M app s result) Unsubscribing.Harmless t es u := by
  obtain ⟨hinv', -, hheard, hunregisters⟩ := rounds_of_run hinv hrun
  have hheard := hheard hzero
  rw [harmless_iff hrun, hret]
  constructor
  · intro h
    exact (story_injective (List.append_cancel_left (hheard.symm.trans h.heard))).symm
  · intro hnamed
    rw [← hnamed] at hheard hunregisters
    refine ⟨hheard, hnamed ▸ nodup_of_run hinv hrun, ?_, ?_, fun it i hi hmem => ?_⟩
    · rintro before e after rfl hbefore x hx
      obtain ⟨t', hfirst, hrest⟩ := hrun.exists_of_append
      obtain ⟨u', -, hstep, -⟩ := hrest.exists_of_cons
      obtain ⟨-, -, hitem, -⟩ := Unsubscribing.step_eq_some.mp hstep
      exact hitem.trans (itemUnder_of_run hinv hx hbefore hfirst)
    · rintro before e after rfl hbefore x hx
      obtain ⟨t', hfirst, hrest⟩ := hrun.exists_of_append
      obtain ⟨u', -, hstep, -⟩ := hrest.exists_of_cons
      obtain ⟨-, -, hitem, -⟩ := Unsubscribing.step_eq_some.mp hstep
      obtain ⟨hinv₁, -, -, hunregisters₁⟩ := rounds_of_run hinv hfirst
      by_contra hlt
      -- an item that was there has gone with the first element that has its id
      have hget := hinv₁.get_of_itemUnder (hitem.symm.trans hx)
      rw [hunregisters₁.items _ (not_le.mp hlt)] at hget
      split at hget
      · exact absurd hget nofun
      · rename_i hmem
        exact hmem (mem_itemsOf_of_run hinv (hinv.itemUnder_of_get (hsessions _ _ hget) hget)
          hbefore hfirst)
    · have hget := hunregisters.items it (Heap.lt_next hi)
      rw [if_neg hmem, hi] at hget
      have hsome := hunregisters.sessions i.session
      rw [hsessions it i hi] at hsome
      obtain ⟨σ, hσ⟩ := Option.isSome_iff_exists.mp hsome
      exact ⟨hget, i, σ, hget, hσ, (hinv'.item it i hget nofun).table σ hσ⟩

end Rounds

/-! ### The message -/

section Message

variable {M : Machine} {app : Application} {s requestId n : ℕ}

/-- Making a result is not heard of, and leaves all items. -/
theorem run_requestResult_unregisters (hinv : w.Inv False none none) (hn : n ≠ 0) {o : Option ℕ}
    (h : (requestResult s requestId n).run w = some (.ok o, w')) :
    w'.Inv False none none ∧ w'.heard = w.heard ∧ w'.publishItems = w.publishItems ∧
      ∀ k, (w'.sessions.get k).isSome = (w.sessions.get k).isSome := by
  have hsame : IgnoresAnswers fun w' => w'.publishItems = w.publishItems ∧
      ∀ k, (w'.sessions.get k).isSome = (w.sessions.get k).isSome :=
    { malloc := fun _ _ h => h
      answerResult := fun _ _ _ _ _ _ h => h
      freeResult := fun _ _ h => h
      newResult := fun _ _ _ h => h
      publishData := fun _ _ h => h
      events := fun _ _ _ h => h
      sessions := fun w' k _ τ _ _ _ h =>
        ⟨h.1, fun k' => (w'.sessions.isSome_get_set k k' τ).trans (h.2 k')⟩ }
  exact ⟨(preserves_requestResult hn).ok hinv h, (quiet_requestResult s requestId n).heard_eq h,
    (hsame.requestResult s requestId n).ok ⟨rfl, fun _ => rfl⟩ h⟩

/-- Where the same has been heard, and the same items are found, a message is to do the same. -/
theorem World.UnsubscribesNamed.congr {w₁ : World} (hheard : w₁.heard = w.heard)
    (hitems : w₁.publishItems = w.publishItems)
    (hfound : ∀ id, w₁.itemUnder s id = w.itemUnder s id) {result : ℕ} {es : List IdElement} :
    w.UnsubscribesNamed w' s result es ↔ w₁.UnsubscribesNamed w' s result es := by
  constructor
  · rintro ⟨h, once, first, again, stays⟩
    refine ⟨hheard ▸ h, once, ?_, hitems ▸ again, hitems ▸ stays⟩
    rintro before e after rfl hbefore x hx
    exact first before e after rfl hbefore x (hfound e.id ▸ hx)
  · rintro ⟨h, once, first, again, stays⟩
    refine ⟨hheard ▸ h, once, ?_, hitems ▸ again, hitems ▸ stays⟩
    rintro before e after rfl hbefore x hx
    exact first before e after rfl hbefore x ((hfound e.id).trans hx)

/-- Nothing is released where nothing is read. -/
theorem World.UnsubscribesNamed.nil (hinv : w'.Inv False none none)
    (htables : ∀ it i, w.publishItems.get it = some i → (w.sessions.get i.session).isSome)
    (hheard : w'.heard = w.heard) (hitems : w'.publishItems = w.publishItems)
    (hsessions : ∀ k, (w'.sessions.get k).isSome = (w.sessions.get k).isSome) (s result : ℕ) :
    w.UnsubscribesNamed w' s result [] := by
  refine ⟨hheard.trans (List.append_nil _).symm, List.nodup_nil, ?_, ?_, fun it i hi _ => ?_⟩
  · rintro before e after heq
    exact absurd heq (by simp)
  · rintro before e after heq
    exact absurd heq (by simp)
  · have hget : w'.publishItems.get it = some i := by rw [hitems, hi]
    obtain ⟨σ, hσ⟩ := Option.isSome_iff_exists.mp ((hsessions _).trans (htables it i hi))
    exact ⟨hget, i, σ, hget, hσ, (hinv.item it i hget nofun).table σ hσ⟩

/-- The same items are found under the ids. -/
theorem World.Inv.itemUnder_eq (hinv : w.Inv False none none) (hinv' : w'.Inv False none none)
    (hitems : w'.publishItems = w.publishItems)
    (hsessions : ∀ k, (w'.sessions.get k).isSome = (w.sessions.get k).isSome) (s id : ℕ) :
    w'.itemUnder s id = w.itemUnder s id := by
  have halive {v : World} {x : ℕ × ℕ} (hx : v.itemUnder s id = some x) :
      (v.sessions.get s).isSome := by
    obtain ⟨σ, hσ, -⟩ := Option.bind_eq_some_iff.mp hx
    exact Option.isSome_iff_exists.mpr ⟨σ, hσ⟩
  ext x
  constructor
  · intro hx
    have hget := hinv'.get_of_itemUnder hx
    rw [hitems] at hget
    exact hinv.itemUnder_of_get ((hsessions s).symm.trans (halive hx)) hget
  · intro hx
    have hget := hinv.get_of_itemUnder hx
    rw [← hitems] at hget
    exact hinv'.itemUnder_of_get ((hsessions s).trans (halive hx)) hget

/-- What a handler of a message starts with: the read buffer has the other allocations. -/
def World.handling (w : World) : World := { w with malloc := fun n => w.malloc (2 * n + 1) }

theorem World.Inv.handling (h : w.Inv S none none) : w.handling.Inv S none none :=
  h.frame ⟨rfl, rfl, rfl, rfl, rfl, rfl, Nat.le_refl _, fun _ s hs _ => ⟨s, hs, rfl⟩,
    fun hm n => hm (2 * n + 1)⟩

/-- **A message releases what it names** exactly where what a malformed element is read as, and
any element behind it, finds no item. Where there is no memory for the result, nothing is read
from the payload. -/
theorem unsubscribesNamed_iff_harmless {sizeT : Cbor.SizeT} {callbacks : Callback → Bool}
    {malloc : ℕ → Bool} {acts : List Act}
    (hrun : Transition.Run (World.step app) Transition.anyStep
      (World.create sizeT callbacks malloc) acts w) (hn : 1 ≤ n) {ret : Bool} {b b' : ReadBuffer}
    (h : (sessionHandleUnsubscribeMessage M app s requestId n).run (w.handling, b) =
      some (.ok ret, (w', b'))) :
    (∃ w₁, (requestResult s requestId n).run w.handling = some (.ok none, w₁) ∧ ret = false ∧
        ∀ result, w.UnsubscribesNamed w' s result []) ∨
      ∃ result w₁ es, (requestResult s requestId n).run w.handling = some (.ok (some result), w₁) ∧
        Transition.Run (Unsubscribing.step M app s result) Transition.anyStep ⟨w₁, b, n, true⟩ es
          ⟨w', b', 0, ret⟩ ∧
        (w.UnsubscribesNamed w' s result es ↔
          Transition.Run (Unsubscribing.step M app s result) Unsubscribing.Harmless
            ⟨w₁, b, n, true⟩ es ⟨w', b', 0, ret⟩) := by
  have hinv : w.Inv False none none := inv_of_run False.elim hrun
  have htables : ∀ it i, w.publishItems.get it = some i → (w.sessions.get i.session).isSome := by
    intro it i hi
    obtain ⟨j, σ, hj, hσ, -⟩ := inTable_of_run hrun hi
    obtain rfl := Option.some.inj (hi.symm.trans hj)
    exact Option.isSome_iff_exists.mpr ⟨σ, hσ⟩
  obtain ⟨-, e, he, -⟩ | ⟨o, w₁, hrequest, h⟩ := run_calls_bind h
  · exact absurd he nofun
  obtain ⟨hinv₁, hheard, hitems, hsessions⟩ :=
    run_requestResult_unregisters hinv.handling (by omega) hrequest
  have hheard : w₁.heard = w.heard := hheard
  have hitems : w₁.publishItems = w.publishItems := hitems
  have hsessions : ∀ k, (w₁.sessions.get k).isSome = (w.sessions.get k).isSome := hsessions
  rcases o with _ | result
  · obtain ⟨heq, hstate⟩ := Prod.mk.inj (Option.some.inj h)
    obtain ⟨rfl, rfl⟩ := Prod.mk.inj hstate
    exact Or.inl ⟨w₁, hrequest, (Except.ok.inj heq).symm, fun result =>
      .nil hinv₁ htables hheard hitems hsessions s result⟩
  · obtain ⟨es, hes⟩ := exists_run_of_unsubscribeItems h
    refine Or.inr ⟨result, w₁, es, hrequest, hes, ?_⟩
    rw [← Unsubscribing.unsubscribesNamed_iff hinv₁ (fun it i hi => ?_) rfl rfl hes]
    · exact World.UnsubscribesNamed.congr hheard hitems
        (hinv.itemUnder_eq hinv₁ hitems hsessions s)
    · exact (hsessions _).trans (htables it i (hitems ▸ hi))

end Message

/-! ### A payload of one element -/

/-- A payload, at address 1000. -/
def payloadMachine (bytes : List UInt8) : Machine := ⟨.bits64, fun a => bytes.getD (a - 1000) 0⟩

/-- The read buffer of a payload. -/
def payloadBuffer (bytes : List UInt8) : ReadBuffer :=
  readBuffer (payloadMachine bytes) 1000 bytes.length fun _ => true

/-- What has been heard before and after a handler returns. -/
def heardAfter (w : World) :
    Option (Except Stop Bool × (World × ReadBuffer)) → Option (List Heard × List Heard)
  | some (.ok _, (w', _)) => some (w.heard, w'.heard)
  | _ => none

theorem exists_of_heardAfter {o : Option (Except Stop Bool × (World × ReadBuffer))}
    {before after : List Heard} (h : heardAfter w o = some (before, after)) :
    ∃ ret w' b', o = some (.ok ret, (w', b')) ∧ w.heard = before ∧ w'.heard = after := by
  rcases o with _ | ⟨_ | ret, w', b'⟩
  · exact absurd h nofun
  · exact absurd h nofun
  · obtain ⟨rfl, rfl⟩ := Prod.mk.inj (Option.some.inj h)
    exact ⟨ret, w', b', rfl, rfl, rfl⟩

/-- A session with one item, which has the id 1. -/
def subscribedOnce : List Act := [.sessionCreate, hello, subscribe 4 1]

/-- A message with a payload of one element is handled. -/
def handleElement (bytes : List UInt8) (w : World) :
    Option (Except Stop Bool × (World × ReadBuffer)) :=
  (sessionHandleUnsubscribeMessage (payloadMachine bytes) acceptAll 0 1 1).run
    (w.handling, payloadBuffer bytes)

/-- What is heard of it. -/
def heardOf (bytes : List UInt8) : Option (List Heard × List Heard) :=
  (Transition.execute (World.step acceptAll) Transition.anyStep
    (World.create .bits64 subscriptionCallbacks fun _ => true) subscribedOnce).bind fun w =>
    heardAfter w (handleElement bytes w)

theorem exists_of_heardOf {bytes : List UInt8} {before after : List Heard}
    (h : heardOf bytes = some (before, after)) : ∃ w w' ret b',
    Transition.Run (World.step acceptAll) Transition.anyStep
      (World.create .bits64 subscriptionCallbacks fun _ => true) subscribedOnce w ∧
    handleElement bytes w = some (.ok ret, (w', b')) ∧ w.heard = before ∧ w'.heard = after := by
  obtain ⟨w, hw, h⟩ := Option.bind_eq_some_iff.mp h
  obtain ⟨ret, w', b', hrun, hbefore, hafter⟩ := exists_of_heardAfter h
  exact ⟨w, w', ret, b', Transition.run_of_execute hw, hrun, hbefore, hafter⟩

/-- **An id is named**, its item released, and its subscription given to the application. -/
theorem unsubscribesNamed_one : ∃ w w' ret b',
    handleElement [0x01] w = some (.ok ret, (w', b')) ∧
    w'.heard = w.heard ++ [.released 0, .told 1 0 (some 0)] ∧
    ((∃ w₁, (requestResult 0 1 1).run w.handling = some (.ok none, w₁) ∧ ret = false ∧
        ∀ result, w.UnsubscribesNamed w' 0 result []) ∨
      ∃ result w₁ es, (requestResult 0 1 1).run w.handling = some (.ok (some result), w₁) ∧
        Transition.Run (Unsubscribing.step (payloadMachine [0x01]) acceptAll 0 result)
          Transition.anyStep ⟨w₁, payloadBuffer [0x01], 1, true⟩ es ⟨w', b', 0, ret⟩ ∧
        (w.UnsubscribesNamed w' 0 result es ↔
          Transition.Run (Unsubscribing.step (payloadMachine [0x01]) acceptAll 0 result)
            Unsubscribing.Harmless ⟨w₁, payloadBuffer [0x01], 1, true⟩ es ⟨w', b', 0, ret⟩)) := by
  have hheard : heardOf [0x01] = some ([], [.released 0, .told 1 0 (some 0)]) := by decide +kernel
  obtain ⟨w, w', ret, b', hrun, h, hbefore, hafter⟩ := exists_of_heardOf hheard
  refine ⟨w, w', ret, b', h, ?_, unsubscribesNamed_iff_harmless hrun (Nat.le_refl 1) h⟩
  rw [hbefore, hafter]
  rfl

/-- **A negative integer releases an item**: it is read as the number it is made of. -/
theorem not_unsubscribesNamed : ¬ ∀ (app : Application) (sizeT : Cbor.SizeT)
    (callbacks : Callback → Bool) (malloc : ℕ → Bool) (acts : List Act) (w : World),
    Transition.Run (World.step app) Transition.anyStep (World.create sizeT callbacks malloc)
      acts w → ∀ (M : Machine) (s requestId n : ℕ) (ret : Bool) (b b' : ReadBuffer) (w' : World),
    1 ≤ n → (sessionHandleUnsubscribeMessage M app s requestId n).run (w.handling, b) =
      some (.ok ret, (w', b')) →
    (∃ w₁, (requestResult s requestId n).run w.handling = some (.ok none, w₁) ∧ ret = false ∧
        ∀ result, w.UnsubscribesNamed w' s result []) ∨
      ∃ result w₁ es, (requestResult s requestId n).run w.handling = some (.ok (some result), w₁) ∧
        Transition.Run (Unsubscribing.step M app s result) Transition.anyStep ⟨w₁, b, n, true⟩ es
          ⟨w', b', 0, ret⟩ ∧ w.UnsubscribesNamed w' s result es := by
  intro hall
  have hheard : heardOf [0x21] = some ([], [.released 0, .told 1 0 (some 0)]) := by decide +kernel
  have hread : ((Cbor.readUnsignedInteger (payloadMachine [0x21]) 0).run
      (payloadBuffer [0x21])).map (fun o => o.1.toOption.map Prod.fst) = some (some false) := by
    decide +kernel
  obtain ⟨w, w', ret, b', hrun, h, hbefore, hafter⟩ := exists_of_heardOf hheard
  obtain ⟨w₁, -, -, hnamed⟩ | ⟨result, w₁, es, -, hrounds, hnamed⟩ :=
    hall acceptAll .bits64 subscriptionCallbacks _ _ w hrun _ 0 1 1 ret _ b' w' (Nat.le_refl 1) h
  · -- something is heard
    have hheard := (hnamed 0).heard
    rw [hbefore, hafter] at hheard
    exact absurd hheard nofun
  have hheard := hnamed.heard
  rw [hbefore, hafter, List.nil_append] at hheard
  rcases es with _ | ⟨e, es⟩
  · exact absurd hheard nofun
  -- nothing is released for an element that is malformed
  obtain ⟨t, -, hstep, -⟩ := hrounds.exists_of_cons
  have hok : e.ok = false := by
    have hread' : (Cbor.readUnsignedInteger (payloadMachine [0x21]) 0).run (payloadBuffer [0x21]) =
      some (.ok (e.ok, e.id), t.buffer) := (Unsubscribing.step_eq_some.mp hstep).2.1
    rw [hread'] at hread
    exact Option.some.inj (Option.some.inj hread)
  rw [nameds, hok] at hheard
  exact absurd hheard nofun

end Wpcp
