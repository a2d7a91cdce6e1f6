import Wpcp.Lib.NullTerminated
import Wpcp.Session.Accepting
import Wpcp.Session.Room

/-!
# The array of blocked items in memory

The size of the list of blocked items is computed in `size_t`, and where that has 32 bits the
size for 2^30 − 3 answers is 0. Here the list is the array it is in memory: it has as many cells
as lie inside the bytes that are asked for (`Wpcp.blockedItemsCells`), and both loops over it stop
with `Wpcp.Stop.dangling` when they leave these.

**Every answer finds its slot inside the array, whatever the answers are, exactly where the size
does not wrap** (`Wpcp.BlockedResult.sound_iff`). In every world the function on worlds does what
the one on the array does (`Wpcp.BlockedResult.Represents.target`), also where that leaves it.
-/

namespace Wpcp

open Cbor (SizeT)
open NullTerminated (cells findNull search)

/-! ### The array -/

/-- What of a `struct wpcp_result_t` has to do with the array. -/
structure BlockedResult where
  remaining : ℕ
  /-- `blocked_items->items`, the cells that have been allocated. -/
  blockedItems : Option (List (Option ℕ))
  /-- The items that have been accepted (not in the source). -/
  accepted : List ℕ

/-- An answer to a subscription; of an acceptance the item, and whether there are an id, the
memory for the array and the memory for the item. -/
inductive SubscribeAnswer where
  | accept (item : ℕ) (id array publishItem : Bool)
  | aliased (item : ℕ) (id array publishItem : Bool)
  | reject

namespace BlockedResult

/-- `wpcp_request_result` -/
def request (payloadCount : ℕ) : BlockedResult := ⟨payloadCount, none, []⟩

/-- `wpcp_result_get_blocked_publish_item_target` -/
def target (sizeT : SizeT) (array : Bool) (result : BlockedResult) :
    Except Stop (Option ℕ × BlockedResult) :=
  let blockedItems := result.blockedItems.or
    (if array then some (List.replicate (blockedItemsCells sizeT result.remaining) none) else none)
  match blockedItems with
  | none => .ok (none, result)
  | some items =>
    match findNull items with
    | none => .error .dangling
    | some ret =>
      match items[ret + 1]? with
      | none => .error .dangling
      | some (some _) => .error .aborted
      | some none => .ok (some ret, { result with blockedItems := some items })

/-- `*blocked_publish_item_target = publish_item` -/
def setTarget (result : BlockedResult) (target item : ℕ) : BlockedResult :=
  { result with
    blockedItems := result.blockedItems.map fun items => items.set target (some item)
    accepted := result.accepted ++ [item] }

/-- The part of `wpcp_release_result` that counts the answer. -/
def release (result : BlockedResult) : BlockedResult :=
  { result with remaining := (result.remaining + (2 ^ 32 - 1)) % 2 ^ 32 }

/-- `wpcp_return_subscribe_internal` -/
def returnSubscribeInternal (sizeT : SizeT) (item : ℕ) (id array publishItem : Bool)
    (result : BlockedResult) : Except Stop BlockedResult :=
  if id then
    match result.target sizeT array with
    | .error e => .error e
    | .ok (none, result) => .ok result.release
    | .ok (some target, result) =>
      if publishItem then .ok (result.setTarget target item).release else .ok result.release
  else .ok result.release

/-- One answer. -/
def answer (sizeT : SizeT) (result : BlockedResult) : SubscribeAnswer → Except Stop BlockedResult
  | .accept item id array publishItem =>
    result.returnSubscribeInternal sizeT item id array publishItem
  | .aliased item id array publishItem =>
    result.returnSubscribeInternal sizeT item id array publishItem
  | .reject => .ok result.release

/-- One answer after the other. -/
def answerAll (sizeT : SizeT) (result : BlockedResult) (answers : List SubscribeAnswer) :
    Except Stop BlockedResult :=
  answers.foldlM (answer sizeT) result

/-- **The array does not overflow and is terminated.** -/
structure Sound (sizeT : SizeT) (result : BlockedResult) : Prop where
  /-- As long as an answer is missing there is a slot, unless the array cannot be allocated; the
  slot and the one behind it are in the array, and before it are the items accepted so far. -/
  target : 0 < result.remaining → ∀ array, ∃ slot result',
    result.target sizeT array = .ok (slot, result') ∧
      (slot = none ↔ result.blockedItems = none ∧ array = false) ∧
      ∀ i ∈ slot, ∃ items, result'.blockedItems = some items ∧
        (∀ old ∈ result.blockedItems, items = old) ∧ i + 1 < items.length ∧
        items.take i = result.accepted.map some
  /-- Behind the items accepted is a null pointer in the array, and the scan for an item ends. -/
  terminated : ∀ items, result.blockedItems = some items →
    items[result.accepted.length]? = some none ∧
      ∀ item, search item items = some (decide (item ∈ result.accepted))

/-! ### What every answer keeps -/

variable {sizeT : SizeT} {result result' : BlockedResult}

/-- Behind the items accepted there are more free cells than answers are missing. -/
structure Roomy (result : BlockedResult) : Prop where
  fits : result.remaining < 2 ^ 32
  empty : result.blockedItems = none → result.accepted = []
  room : ∀ items, result.blockedItems = some items →
    ∃ free, items = cells result.accepted (free + 1) ∧ result.remaining ≤ free

theorem roomy_request {n : ℕ} (hn : n < 2 ^ 32) : (request n).Roomy := ⟨hn, fun _ => rfl, nofun⟩

@[simp] theorem release_blockedItems : result.release.blockedItems = result.blockedItems := by
  obtain ⟨remaining, blockedItems, accepted⟩ := result
  show (release ⟨remaining, blockedItems, accepted⟩).blockedItems = blockedItems
  rfl

@[simp] theorem release_accepted : result.release.accepted = result.accepted := by
  obtain ⟨remaining, blockedItems, accepted⟩ := result
  show (release ⟨remaining, blockedItems, accepted⟩).accepted = accepted
  rfl

namespace Roomy

/-- **The slot is the first free cell**, and there is another one behind it. -/
theorem target (h : result.Roomy) (hpos : 0 < result.remaining)
    (hsize : result.blockedItems = none → BlockedItemsFit sizeT result.remaining) (array : Bool) :
    (result.blockedItems = none ∧ array = false ∧
      result.target sizeT array = .ok (none, result)) ∨
    ∃ free, result.remaining ≤ free + 1 ∧
      (result.blockedItems = none → array = true ∧ result.remaining = free + 1) ∧
      (∀ old ∈ result.blockedItems, cells result.accepted (free + 2) = old) ∧
      result.target sizeT array = .ok (some result.accepted.length,
        { result with blockedItems := some (cells result.accepted (free + 2)) }) := by
  have hfound : ∀ free items, items = cells result.accepted (free + 2) →
      result.blockedItems.or (if array then
        some (List.replicate (blockedItemsCells sizeT result.remaining) none) else none) =
        some items →
      result.target sizeT array = .ok (some result.accepted.length,
        { result with blockedItems := some (cells result.accepted (free + 2)) }) := by
    rintro free items rfl hitems
    have hnext : (cells result.accepted (free + 2))[result.accepted.length + 1]? = some none := by
      rw [NullTerminated.getElem?_cells, if_pos (by omega)]
    simp only [BlockedResult.target, hitems, NullTerminated.findNull_cells, hnext]
  rcases hblocked : result.blockedItems with _ | items
  · rcases array with _ | _
    · refine Or.inl ⟨rfl, rfl, ?_⟩
      simp only [BlockedResult.target, hblocked, Option.none_or, Bool.false_eq_true, if_false]
    · have hsize' := blockedItemsCells_of_fits h.fits (hsize hblocked)
      obtain ⟨free, hfree⟩ := Nat.exists_eq_add_of_lt hpos
      rw [Nat.zero_add] at hfree
      refine Or.inr ⟨free, by omega, fun _ => ⟨rfl, hfree⟩, nofun,
        hfound free (cells [] (free + 2)) ?_ ?_⟩
      · rw [h.empty hblocked]
      · rw [hblocked, Option.none_or, if_pos rfl, hsize', hfree]
        rfl
  · obtain ⟨free, hitems, hle⟩ := h.room items hblocked
    obtain ⟨free, rfl⟩ := Nat.exists_eq_add_of_lt (hpos.trans_le hle)
    rw [Nat.zero_add] at hitems hle
    refine Or.inr ⟨free, hle, nofun, fun old hold => ?_, hfound free items hitems ?_⟩
    · obtain rfl := Option.some.inj hold
      exact hitems.symm
    · rw [hblocked, Option.some_or]

/-- An answer that accepts nothing. -/
theorem release (h : result.Roomy) (hpos : 0 < result.remaining) : result.release.Roomy := by
  have hfits := h.fits
  have hremaining : result.release.remaining = result.remaining - 1 := by
    show (result.remaining + (2 ^ 32 - 1)) % 2 ^ 32 = _
    omega
  constructor
  · rw [hremaining]
    omega
  · rw [release_blockedItems, release_accepted]
    exact h.empty
  · intro items hitems
    rw [release_blockedItems] at hitems
    obtain ⟨free, heq, hle⟩ := h.room items hitems
    rw [hremaining, release_accepted]
    exact ⟨free, heq, by omega⟩

/-- **An item takes a cell, and its answer gives it back.** -/
theorem setTarget {free : ℕ} (hpos : 0 < result.remaining) (hfits : result.remaining < 2 ^ 32)
    (hle : result.remaining ≤ free + 1)
    (hitems : result.blockedItems = some (cells result.accepted (free + 2))) (item : ℕ) :
    (result.setTarget result.accepted.length item).release.Roomy := by
  have hremaining : (result.setTarget result.accepted.length item).release.remaining =
      result.remaining - 1 := by
    show (result.remaining + (2 ^ 32 - 1)) % 2 ^ 32 = _
    omega
  refine ⟨?_, fun hnone => ?_, fun items hset => ?_⟩
  · rw [hremaining]
    omega
  · have hnone : result.blockedItems.map _ = none := hnone
    rw [hitems] at hnone
    exact absurd hnone nofun
  · have hset : result.blockedItems.map (fun items => items.set result.accepted.length
        (some item)) = some items := hset
    rw [hitems, Option.map_some, NullTerminated.set_cells] at hset
    obtain rfl := Option.some.inj hset
    rw [hremaining]
    exact ⟨free, rfl, by omega⟩

/-- **Every answer keeps the room**, and the array. -/
theorem answer (h : result.Roomy) (hpos : 0 < result.remaining)
    (hsize : result.blockedItems = none → BlockedItemsFit sizeT result.remaining)
    (a : SubscribeAnswer) :
    ∃ result', result.answer sizeT a = .ok result' ∧ result'.Roomy ∧
      result'.remaining = result.remaining - 1 ∧
      (result'.blockedItems = none → result.blockedItems = none) := by
  have hfits := h.fits
  have hremaining : (result.remaining + (2 ^ 32 - 1)) % 2 ^ 32 = result.remaining - 1 := by omega
  have hinternal : ∀ item id array publishItem, ∃ result',
      result.returnSubscribeInternal sizeT item id array publishItem = .ok result' ∧
        result'.Roomy ∧ result'.remaining = result.remaining - 1 ∧
          (result'.blockedItems = none → result.blockedItems = none) := by
    intro item id array publishItem
    rcases id with _ | _
    · exact ⟨_, rfl, h.release hpos, hremaining, fun hnone => release_blockedItems ▸ hnone⟩
    · rcases h.target hpos hsize array with ⟨-, -, htarget⟩ | ⟨free, hle, -, -, htarget⟩
      · refine ⟨result.release, ?_, h.release hpos, hremaining,
          fun hnone => release_blockedItems ▸ hnone⟩
        simp only [returnSubscribeInternal, htarget, if_true]
      · rcases publishItem with _ | _
        · refine ⟨_, ?_, @Roomy.release { result with
            blockedItems := some (cells result.accepted (free + 2)) } ?_ hpos, hremaining,
            fun hnone => ?_⟩
          · simp only [returnSubscribeInternal, htarget, if_true, Bool.false_eq_true, if_false]
          · refine ⟨hfits, nofun, fun items hitems => ?_⟩
            obtain rfl := Option.some.inj hitems
            exact ⟨free + 1, rfl, hle⟩
          · rw [release_blockedItems] at hnone
            exact absurd hnone nofun
        · refine ⟨_, ?_, @setTarget { result with
            blockedItems := some (cells result.accepted (free + 2)) } _ hpos hfits hle rfl item,
            hremaining, fun hnone => ?_⟩
          · simp only [returnSubscribeInternal, htarget, if_true]
          · rw [release_blockedItems] at hnone
            exact absurd hnone nofun
  cases a with
  | accept item id array publishItem => exact hinternal item id array publishItem
  | aliased item id array publishItem => exact hinternal item id array publishItem
  | reject =>
    exact ⟨_, rfl, h.release hpos, hremaining, fun hnone => release_blockedItems ▸ hnone⟩

/-- With room an array does not overflow and is terminated. -/
theorem sound (h : result.Roomy)
    (hsize : result.blockedItems = none → BlockedItemsFit sizeT result.remaining) :
      result.Sound sizeT := by
  constructor
  · intro hpos array
    rcases h.target hpos hsize array with ⟨hnone, harray, htarget⟩ | ⟨free, -, -, hold, htarget⟩
    · exact ⟨none, result, htarget, ⟨fun _ => ⟨hnone, harray⟩, fun _ => rfl⟩, nofun⟩
    · refine ⟨_, _, htarget, ⟨nofun, fun ⟨hnone, harray⟩ => ?_⟩, fun i hi => ?_⟩
      · rw [BlockedResult.target, hnone, harray] at htarget
        exact absurd htarget nofun
      · obtain rfl := Option.some.inj hi
        refine ⟨_, rfl, hold, ?_, NullTerminated.take_cells _ _⟩
        rw [NullTerminated.length_cells]
        omega
  · intro items hitems
    obtain ⟨free, rfl, -⟩ := h.room items hitems
    refine ⟨?_, fun item => NullTerminated.search_cells _ _ item⟩
    have hnext := NullTerminated.getElem?_cells result.accepted (free + 1) 0
    rwa [if_pos (Nat.succ_pos free)] at hnext

end Roomy

/-- **No answer overflows the array** where the size for all the answers does not wrap. -/
theorem Roomy.answerAll (h : result.Roomy) {answers : List SubscribeAnswer}
    (hlength : answers.length ≤ result.remaining)
    (hsize : result.blockedItems = none → BlockedItemsFit sizeT result.remaining) :
    ∃ result', result.answerAll sizeT answers = .ok result' ∧ result'.Roomy ∧
      (result'.blockedItems = none → BlockedItemsFit sizeT result'.remaining) := by
  induction answers generalizing result with
  | nil => exact ⟨result, rfl, h, hsize⟩
  | cons a answers ih =>
    rw [List.length_cons] at hlength
    obtain ⟨next, hanswer, hroomy, hremaining, hkept⟩ := h.answer (by omega) hsize a
    have hnext : next.blockedItems = none → BlockedItemsFit sizeT next.remaining := fun hnone =>
      (hsize (hkept hnone)).anti (by omega)
    obtain ⟨last, hall, hlast⟩ := ih hroomy (by omega) hnext
    refine ⟨last, ?_, hlast⟩
    rw [BlockedResult.answerAll, List.foldlM_cons, hanswer]
    exact hall

/-! ### Where the size wraps -/

/-- A slot is in the array, which is allocated if need be. -/
theorem exists_of_target {slot : Option ℕ}
    (h : result.target sizeT true = .ok (slot, result')) :
    ∃ i items, slot = some i ∧ result' = { result with blockedItems := some items } ∧
      items = result.blockedItems.getD
        (List.replicate (blockedItemsCells sizeT result.remaining) none) := by
  have hor : result.blockedItems.or
      (some (List.replicate (blockedItemsCells sizeT result.remaining) none)) =
      some (result.blockedItems.getD
        (List.replicate (blockedItemsCells sizeT result.remaining) none)) := by
    cases result.blockedItems with
    | none => rfl
    | some items => rfl
  simp only [target, if_true, hor] at h
  split at h
  · exact absurd h nofun
  · split at h
    · exact absurd h nofun
    · exact absurd h nofun
    · obtain ⟨rfl, rfl⟩ := Prod.mk.inj (Except.ok.inj h)
      exact ⟨_, _, rfl, rfl, rfl⟩

/-- An acceptance for which there is memory appends its item, in an array that does not grow. -/
theorem exists_of_answer_accept {item : ℕ}
    (h : result.answer sizeT (.accept item true true true) = .ok result') :
    result'.accepted = result.accepted ++ [item] ∧ ∃ items, result'.blockedItems = some items ∧
      items.length = (result.blockedItems.getD
        (List.replicate (blockedItemsCells sizeT result.remaining) none)).length := by
  simp only [answer, returnSubscribeInternal, if_true] at h
  rcases htarget : result.target sizeT true with e | ⟨slot, next⟩
  · rw [htarget] at h
    exact absurd h nofun
  · obtain ⟨i, items, rfl, rfl, hitems⟩ := exists_of_target htarget
    rw [htarget] at h
    obtain rfl := Except.ok.inj h
    rw [release_accepted, release_blockedItems]
    exact ⟨rfl, items.set i (some item), rfl, by rw [List.length_set, hitems]⟩

/-- **As many acceptances as there are cells** leave no free cell behind. -/
theorem exists_of_answerAll_accept {n k : ℕ} (hpos : 0 < k)
    (h : (request n).answerAll sizeT (List.replicate k (.accept 0 true true true)) = .ok result') :
    result'.accepted.length = k ∧ ∃ items, result'.blockedItems = some items ∧
      items.length = blockedItemsCells sizeT n := by
  induction k generalizing result' with
  | zero => exact absurd hpos (Nat.lt_irrefl 0)
  | succ k ih =>
    rw [answerAll, List.replicate_succ', List.foldlM_append] at h
    rcases hbefore : (request n).answerAll sizeT (List.replicate k (.accept 0 true true true))
      with e | before
    · rw [← answerAll, hbefore] at h
      exact absurd h nofun
    · rw [← answerAll, hbefore] at h
      have hlast : before.answer sizeT (.accept 0 true true true) = .ok result' := by
        rw [← h]
        show _ = List.foldlM (answer sizeT) before [_]
        rw [List.foldlM_cons]
        cases before.answer sizeT (.accept 0 true true true) with
        | error e => rfl
        | ok next => rfl
      obtain ⟨haccepted, items, hitems, hlength⟩ := exists_of_answer_accept hlast
      rw [haccepted, List.length_append, List.length_singleton]
      rcases Nat.eq_zero_or_pos k with rfl | hk
      · obtain rfl : request n = before := Except.ok.inj hbefore
        refine ⟨rfl, items, hitems, hlength.trans ?_⟩
        exact List.length_replicate
      · obtain ⟨hcount, old, hold, hsize⟩ := ih hk hbefore
        refine ⟨by rw [hcount], items, hitems, hlength.trans ?_⟩
        rw [hold]
        exact hsize

/-- **The array of blocked items does not overflow and stays terminated, whatever the answers
are, if and only if its size for all the answers of the request does not wrap.** -/
theorem sound_iff (sizeT : SizeT) {n : ℕ} (hn : n < 2 ^ 32) :
    (∀ answers : List SubscribeAnswer, answers.length ≤ n →
      ∃ result, (request n).answerAll sizeT answers = .ok result ∧ result.Sound sizeT) ↔
    (sizeT = .bits64 ∨ 12 + 4 * n < 2 ^ 32) := by
  constructor
  · intro h
    by_contra hno
    obtain ⟨hbits, hwraps⟩ := not_or.mp hno
    have hbits : sizeT = .bits32 := by
      cases sizeT with
      | bits32 => rfl
      | bits64 => exact absurd rfl hbits
    subst hbits
    -- all the cells are filled
    have hcells := blockedItemsCells_le hwraps
    let k := max (blockedItemsCells .bits32 n) 1
    obtain ⟨result, hall, hsound⟩ := h (List.replicate k (.accept 0 true true true)) (by
      rw [List.length_replicate]
      omega)
    obtain ⟨haccepted, items, hitems, hlength⟩ := exists_of_answerAll_accept (by omega) hall
    have hnull := (hsound.terminated items hitems).1
    rw [haccepted, List.getElem?_eq_none (by omega)] at hnull
    exact absurd hnull nofun
  · intro hfits answers hlength
    obtain ⟨result, hall, hroomy, hsize⟩ := (roomy_request hn).answerAll hlength fun _ => hfits
    exact ⟨result, hall, hroomy.sound hsize⟩

/-- 2^30 answers fit where `size_t` has 64 bits. -/
theorem sound_iff_bits64 : 2 ^ 30 < 2 ^ 32 ∧ ∀ answers : List SubscribeAnswer,
    answers.length ≤ 2 ^ 30 →
      ∃ result, (request (2 ^ 30)).answerAll .bits64 answers = .ok result ∧
        result.Sound .bits64 :=
  ⟨by decide, (sound_iff .bits64 (by decide)).mpr (Or.inl rfl)⟩

/-- **For 2^30 answers the array has one cell where `size_t` has 32 bits**, and the first
acceptance reads behind it. -/
theorem not_sound_bits32 : ¬∀ answers : List SubscribeAnswer, answers.length ≤ 2 ^ 30 →
    ∃ result, (request (2 ^ 30)).answerAll .bits32 answers = .ok result ∧
      result.Sound .bits32 := by
  intro h
  obtain ⟨result, hall, -⟩ := h [.accept 0 true true true] (by decide)
  have hstop : (request (2 ^ 30)).answerAll .bits32 [.accept 0 true true true] =
      .error .dangling := by rfl
  rw [hstop] at hall
  exact absurd hall nofun

/-! ### On worlds -/

/-- The array holds the items that a result has accepted, in as many cells as its list has
places. -/
structure Represents (result : BlockedResult) (ret : Result) : Prop where
  remaining : result.remaining = ret.remaining
  accepted : result.accepted = ret.items
  blockedItems : result.blockedItems = ret.blockedItems.map fun blocked =>
    cells blocked.items (blocked.slots - blocked.items.length)

/-- The place in an array of some items and some free cells. -/
theorem target_cells {array : Bool} {items : List ℕ} {free : ℕ}
    (hitems : result.blockedItems.or
      (if array then some (List.replicate (blockedItemsCells sizeT result.remaining) none)
        else none) = some (cells items free)) :
    result.target sizeT array =
      if 1 < free then .ok (some items.length,
        { result with blockedItems := some (cells items free) }) else .error .dangling := by
  rcases free with _ | _ | free
  · simp only [target, hitems, NullTerminated.findNull_cells_zero]
    rfl
  · have hnext : (cells items 1)[items.length + 1]? = none := by
      rw [NullTerminated.getElem?_cells, if_neg (Nat.lt_irrefl 1)]
    simp only [target, hitems, NullTerminated.findNull_cells, hnext]
    rfl
  · have hnext : (cells items (free + 2))[items.length + 1]? = some none := by
      rw [NullTerminated.getElem?_cells, if_pos (by omega)]
    simp only [target, hitems, NullTerminated.findNull_cells, hnext]
    rw [if_pos (by omega)]

/-- **The slot in the array is the place in the list**: in every world the function on worlds
returns what the one on the array returns, and stops where that stops. -/
theorem Represents.target {ret : Result} {w : World} {r : ℕ} (h : result.Represents ret)
    (hr : w.results.get r = some ret) :
    match result.target w.sizeT (w.malloc 0) with
    | .ok (slot, result') => ∃ w' ret',
      (resultGetBlockedPublishItemTarget r).run w = some (.ok slot, w') ∧
        w'.results.get r = some ret' ∧ result'.Represents ret'
    | .error e => ∃ w', (resultGetBlockedPublishItemTarget r).run w = some (.error e, w') := by
  by_cases hblocks : w.Blocks 0 ret
  · -- the list is there, or allocated
    let list := ret.blockedList w.sizeT
    have hitems : result.blockedItems.or (if w.malloc 0 then
        some (List.replicate (blockedItemsCells w.sizeT result.remaining) none) else none) =
          some (cells list.items (list.slots - list.items.length)) := by
      rw [h.blockedItems]
      rcases hblocked : ret.blockedItems with _ | blocked
      · have hlist : list = ⟨[], [], blockedItemsCells w.sizeT ret.remaining⟩ := by
          rw [show list = ret.blockedItems.getD _ from rfl, hblocked, Option.getD_none]
        rw [Option.map_none, Option.none_or, if_pos (hblocks hblocked), hlist, h.remaining]
        rfl
      · have hlist : list = blocked := by
          rw [show list = ret.blockedItems.getD _ from rfl, hblocked, Option.getD_some]
        rw [Option.map_some, Option.some_or, hlist]
    rw [target_cells hitems]
    by_cases hroom : ret.HasRoom w.sizeT
    · have hplace : 1 < list.slots - list.items.length := by
        have hroom : list.items.length + 1 < list.slots := hroom
        omega
      rw [if_pos hplace]
      refine ⟨_, _, run_resultGetBlockedPublishItemTarget hr hblocks hroom,
        (Heap.get_set hr _ _).trans (if_pos rfl), h.remaining, ?_, rfl⟩
      rw [Result.items_blocking]
      exact h.accepted
    · have hnone : ¬1 < list.slots - list.items.length := by
        have hroom : ¬list.items.length + 1 < list.slots := hroom
        omega
      rw [if_neg hnone]
      exact ⟨_, run_resultGetBlockedPublishItemTarget_crowded hr hblocks hroom⟩
  · obtain ⟨hnone, hmalloc⟩ := Classical.not_imp.mp hblocks
    have hmalloc : w.malloc 0 = false := by simpa using hmalloc
    have hempty : result.blockedItems = none := by rw [h.blockedItems, hnone, Option.map_none]
    have htarget : result.target w.sizeT (w.malloc 0) = .ok (none, result) := by
      simp only [BlockedResult.target, hempty, hmalloc, Option.none_or, Bool.false_eq_true,
        if_false]
    rw [htarget]
    exact ⟨_, ret, run_resultGetBlockedPublishItemTarget_failed hr hnone hmalloc, hr, h⟩

end BlockedResult

end Wpcp
