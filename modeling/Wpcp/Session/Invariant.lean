import Mathlib.Data.List.Nodup
import Wpcp.Session.System

/-!
# What holds in every run

The tables of a session, its results and the subscriptions refer to each other, and
`World.Inv` says how: a place in a table and the item in it name each other, an item is
in the list of its subscription, a result is in the list of its session, and what a
result has accepted are items of its session.

The last part is about time. An id is *announced* to an item (`Wpcp.Announced`) once a
RESULT that grants it has been queued. **An item is registered from the moment its
subscription is accepted, and is announced or has its result still waiting**; therefore
an entry that reaches the output is for an item that has been announced
(`Wpcp.TraceOk`).

The functions of the library break parts of this while they run. The two parameters of
`World.Inv` name one result that is in no list and one item of which nothing is said.
-/

namespace Wpcp

open Cbor (WriteBuffer)

/-! ### Announcements -/

/-- The ids granted by the messages queued in a run, in order. -/
def grants (ops : List (OutOp QueuedOutMessage Entry)) : List Granted :=
  (OutSystem.appended ops).flatMap QueuedOutMessage.granted

/-- The item an id was granted to last. -/
def lastGrant (granted : List Granted) (id : ℕ) : Option ℕ :=
  (granted.filter fun g => g.subscriptionid = id).getLast?.map Granted.item

/-- A message that grants the id to the item has been queued; and where no id had been
given to another item when its message was queued, no later one grants it to another. -/
def Announced (ops : List (OutOp QueuedOutMessage Entry)) (id item : ℕ) : Prop :=
  (∃ g ∈ grants ops, g.subscriptionid = id ∧ g.item = item) ∧
    ((∀ g ∈ grants ops, g.reused = false) → lastGrant (grants ops) id = some item)

/-- Every entry was published after its item had been announced. -/
def TraceOk (ops : List (OutOp QueuedOutMessage Entry)) : Prop :=
  ∀ before first rest after, ops = before ++ .publish first rest :: after →
    ∀ e ∈ first :: rest, Announced before e.subscriptionid e.item

section Announcements

variable {ops : List (OutOp QueuedOutMessage Entry)} {id item : ℕ}

@[simp] theorem grants_append (message : QueuedOutMessage) :
    grants (ops ++ [.append message]) = grants ops ++ message.granted := by
  simp [grants, OutSystem.appended]

@[simp] theorem grants_publish (first : Entry) (rest : List Entry) :
    grants (ops ++ [.publish first rest]) = grants ops := by
  simp [grants, OutSystem.appended]

@[simp] theorem grants_create : grants (ops ++ [.create]) = grants ops := by
  simp [grants, OutSystem.appended]

/-- The last grant of two lists is that of the second, if it has one. -/
theorem lastGrant_append (gs hs : List Granted) :
    lastGrant (gs ++ hs) id = (lastGrant hs id).or (lastGrant gs id) := by
  unfold lastGrant
  rw [List.filter_append, List.getLast?_append, Option.map_or]

/-- The last grant is one of the list. -/
theorem exists_of_lastGrant {gs : List Granted} (h : lastGrant gs id = some item) :
    ∃ g ∈ gs, g.subscriptionid = id ∧ g.item = item := by
  obtain ⟨g, hg, hitem⟩ := Option.map_eq_some_iff.mp h
  have hmem := List.mem_of_getLast? hg
  rw [List.mem_filter] at hmem
  exact ⟨g, hmem.1, by simpa using hmem.2, hitem⟩

/-- Where all grants of an id are to one item, so is the last one. -/
theorem lastGrant_eq_of_forall {gs : List Granted}
    (hall : ∀ g ∈ gs, g.subscriptionid = id → g.item = item)
    (hex : ∃ g ∈ gs, g.subscriptionid = id) : lastGrant gs id = some item := by
  obtain ⟨g, hg, hid⟩ := hex
  have hmem : g ∈ gs.filter fun g => g.subscriptionid = id :=
    List.mem_filter.mpr ⟨hg, by simpa using hid⟩
  obtain ⟨last, hlast⟩ := Option.isSome_iff_exists.mp
    (List.getLast?_isSome.mpr (List.ne_nil_of_mem hmem))
  have hlast' := List.mem_filter.mp (List.mem_of_getLast? hlast)
  rw [lastGrant, hlast, Option.map_some, hall last hlast'.1 (by simpa using hlast'.2)]

/-- **A message leaves an announced id with its item**, when it grants the id to no other
item, except where the id had been given away. -/
theorem Announced.append (h : Announced ops id item) {message : QueuedOutMessage}
    (hsame : ∀ g ∈ message.granted, g.reused = false → g.subscriptionid = id →
      g.item = item) : Announced (ops ++ [.append message]) id item := by
  obtain ⟨⟨g, hg, hid, hitem⟩, hlast⟩ := h
  refine ⟨⟨g, by simp [hg], hid, hitem⟩, fun hreg => ?_⟩
  rw [grants_append] at hreg ⊢
  have hold := hlast fun g hg => hreg g (List.mem_append_left _ hg)
  rw [lastGrant_append, hold]
  by_cases hex : ∃ g ∈ message.granted, g.subscriptionid = id
  · rw [lastGrant_eq_of_forall
      (fun g hg hid => hsame g hg (hreg g (List.mem_append_right _ hg)) hid) hex]
    rfl
  · have hnone : message.granted.filter (fun g => g.subscriptionid = id) = [] :=
      List.filter_eq_nil_iff.mpr fun g hg hid => hex ⟨g, hg, by simpa using hid⟩
    simp [lastGrant, hnone]

/-- **The message that grants an id announces it.** -/
theorem announced_append {message : QueuedOutMessage}
    (hgrants : ∃ g ∈ message.granted, g.subscriptionid = id ∧ g.item = item)
    (hsame : (∀ g ∈ message.granted, g.reused = false) →
      ∀ g ∈ message.granted, g.subscriptionid = id → g.item = item) :
    Announced (ops ++ [.append message]) id item := by
  obtain ⟨g, hg, hid, hitem⟩ := hgrants
  refine ⟨⟨g, by simp [hg], hid, hitem⟩, fun hreg => ?_⟩
  rw [grants_append] at hreg ⊢
  rw [lastGrant_append, lastGrant_eq_of_forall
    (hsame fun g hg => hreg g (List.mem_append_right _ hg)) ⟨g, hg, hid⟩]
  rfl

theorem Announced.publish (h : Announced ops id item) (first : Entry) (rest : List Entry) :
    Announced (ops ++ [.publish first rest]) id item := by
  simpa [Announced] using h

theorem Announced.create (h : Announced ops id item) :
    Announced (ops ++ [.create]) id item := by
  simpa [Announced] using h

/-- One more call keeps the trace in order, if the entries it publishes are for items
that have been announced. -/
theorem TraceOk.snoc (h : TraceOk ops) {op : OutOp QueuedOutMessage Entry}
    (hop : ∀ first rest, op = .publish first rest →
      ∀ e ∈ first :: rest, Announced ops e.subscriptionid e.item) :
    TraceOk (ops ++ [op]) := by
  intro before first rest after heq
  rcases List.eq_nil_or_concat after with rfl | ⟨after', last, rfl⟩
  · obtain ⟨rfl, hlast⟩ := List.append_inj' heq rfl
    exact hop first rest (List.singleton_inj.mp hlast)
  · rw [List.concat_eq_append, ← List.cons_append, ← List.append_assoc] at heq
    exact h before first rest after' (List.append_inj' heq rfl).1

/-- What is in order with one more call was in order before it, and its entries had been
announced. -/
theorem TraceOk.of_snoc {op : OutOp QueuedOutMessage Entry} (h : TraceOk (ops ++ [op])) :
    TraceOk ops ∧ ∀ first rest, op = .publish first rest →
      ∀ e ∈ first :: rest, Announced ops e.subscriptionid e.item := by
  constructor
  · rintro before first rest after rfl
    exact h before first rest (after ++ [op]) (by simp)
  · rintro first rest rfl
    exact h ops first rest [] rfl

end Announcements

/-! ### The invariant -/

/-- A result that waits for a session has granted an id to an item. -/
def World.Pending (w : World) (s id it : ℕ) : Prop :=
  ∃ r ret, w.results.get r = some ret ∧ ret.session = some s ∧ (id, it) ∈ ret.granted

/-- What holds of a session. -/
structure SessionInv (w : World) (s : ℕ) (σ : Session) : Prop where
  nodup : σ.results.Nodup
  results : ∀ r ∈ σ.results, ∃ ret, w.results.get r = some ret ∧ ret.session = some s
  table : ∀ id it, σ.publishItems[id]? = some (some it) →
    ∃ i, w.publishItems.get it = some i ∧ i.session = s ∧ i.subscriptionid = id
  nextFree : σ.nextFreePublishItem ≤ σ.publishItems.length + 1

/-- What holds of a result. -/
structure ResultInv (w : World) (ret : Result) : Prop where
  items : ∀ blocked, ret.blockedItems = some blocked →
    blocked.items = ret.granted.map Prod.snd
  noItems : ret.blockedItems = none → ret.granted = []
  entries : ∀ blocked, ret.blockedItems = some blocked →
    ∀ e ∈ blocked.publishQueue, (e.subscriptionid, e.item) ∈ ret.granted
  granted : ∀ id it, (id, it) ∈ ret.granted → it < w.publishItems.next ∧
    ∀ i, w.publishItems.get it = some i → i.subscriptionid = id ∧
      ∀ s, ret.session = some s → i.session = s

/-- What holds of a publish item; its session may be the one that is being deleted. -/
structure ItemInv (w : World) (it : ℕ) (i : PublishItem) : Prop where
  session : i.session < w.sessions.next
  table : ∀ σ, w.sessions.get i.session = some σ →
    σ.publishItems[i.subscriptionid]? = some (some it)
  handle : i.subscription < w.subscriptions.next ∧
    ∀ s, w.subscriptions.get i.subscription = some s → it ∈ s.publishHandle.items

/-- What holds of the output of a session whose allocations all succeed: its trace is in
order, and it is what the calls of the trace make, unless slots have been added. -/
structure OutputInv (σ : Session) : Prop where
  trace : TraceOk σ.ops
  tracked : σ.slotsAdded = 0 → Transition.Run OutSystem.step Transition.anyStep
    OutSystem.create σ.ops ⟨σ.out, σ.handedOut⟩

/-- **The invariant of a run.** The result `exemptResult` is in no list, and nothing is
said of the item `exemptItem`. Where `succeeds` holds, every allocation succeeds, and each
registered item has its result waiting or is announced. -/
structure World.Inv (succeeds : Prop) (exemptResult exemptItem : Option ℕ) (w : World) :
    Prop where
  malloc : succeeds → ∀ n, w.malloc n = true
  handlers : w.messageHandler = messageHandlers w.callbacks ∨
    w.messageHandler = [] ∧ ∀ s, w.sessions.get s = none
  session : ∀ s σ, w.sessions.get s = some σ → SessionInv w s σ
  output : succeeds → ∀ s σ, w.sessions.get s = some σ → OutputInv σ
  result : ∀ r ret, w.results.get r = some ret → ResultInv w ret
  waiting : ∀ r ret s, w.results.get r = some ret → ret.session = some s →
    exemptResult ≠ some r → ∃ σ, w.sessions.get s = some σ ∧ r ∈ σ.results
  unlisted : ∀ r, exemptResult = some r → ∀ s σ, w.sessions.get s = some σ → r ∉ σ.results
  item : ∀ it i, w.publishItems.get it = some i → exemptItem ≠ some it → ItemInv w it i
  announced : succeeds → ∀ it i σ, w.publishItems.get it = some i → exemptItem ≠ some it →
    w.sessions.get i.session = some σ →
      w.Pending i.session i.subscriptionid it ∨ Announced σ.ops i.subscriptionid it

end Wpcp
