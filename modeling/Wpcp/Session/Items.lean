import Wpcp.Cbor.ItemReads
import Wpcp.Session.Assertions
import Wpcp.Session.Events

/-!
# The items of a message, one after the other

The loop over the items of a message goes on after an item whose map cannot be read: the
request has a result that waits for one answer to each announced item, so that the
application is asked about each. Where the handling returns, **every announced item has reached
the application, in order and once, with what has been read of it**
(`Wpcp.ItemMessage.delivered`); that the map of some item could not be read shows in the value
that is returned.
-/

namespace Wpcp

open Cbor (SizeT Machine ReadBuffer Reading MapItem MapItems)

/-! ### The reads -/

/-- The map items of a handler before anything is read. -/
def MessageHandler.itemMap (handler : MessageHandler) : List MapItem :=
  handler.mapItems.map fun key => ⟨ascii key, none⟩

/-- What the application is given of an item. -/
def Delivered.ofItem (callbackItems : HandleFunctionItems) (remaining : ℕ) (items : MapItems) :
    Delivered :=
  ⟨callbackItems, remaining, items.map.map MapItem.value, items.additional⟩

/-- What the application is given of the first of `count` items. -/
def deliveries (callbackItems : HandleFunctionItems) :
    ℕ → List (Bool × MapItems) → List Delivered
  | remaining + 1, (_, items) :: rest =>
    .ofItem callbackItems remaining items :: deliveries callbackItems remaining rest
  | _, _ => []

/-- The key with which a subscription is requested for an item, from where its read has
started and where it has stopped. -/
def MessageHandler.requestedKey (M : Machine) (handler : MessageHandler) (b b' : ReadBuffer) :
    List (ℕ × ℕ) :=
  if handler.type ≠ .call then
    [(b.beginPtr, (b'.beginPtr + (M.sizeT.count - b.beginPtr)) % M.sizeT.count)]
  else []

/-! ### One item -/

section Item

variable {M : Machine} {app : Application} {fuel session : ℕ} {handler : MessageHandler}
  {callbackItems : HandleFunctionItems} {messageId result remaining : ℕ} {ret : Bool}
  {w : World} {b : ReadBuffer}

variable {α β : Type} {r : Except Stop β} {w' : World} {b' : ReadBuffer}

/-- How a call ends while a message is handled. -/
theorem run_calls {m : Calls β} (h : (calls m).run (w, b) = some (r, (w', b'))) :
    b' = b ∧ m.run w = some (r, w') := by
  simp only [Attempt.run, calls] at h ⊢
  split at h
  · simp at h
  · obtain ⟨rfl, heq⟩ := Prod.mk.inj (Option.some.inj h)
    obtain ⟨rfl, rfl⟩ := Prod.mk.inj heq
    exact ⟨rfl, ‹_›⟩

/-- A call while a message is handled: it ends the handling, or what follows goes on with the
world it leaves and the same buffer. -/
theorem run_calls_bind {m : Calls α} {f : α → Handling β}
    (h : (calls m >>= f).run (w, b) = some (r, (w', b'))) :
    (b' = b ∧ ∃ e, r = .error e ∧ m.run w = some (.error e, w')) ∨
      ∃ a w₁, m.run w = some (.ok a, w₁) ∧ (f a).run (w₁, b) = some (r, (w', b')) := by
  obtain ⟨e, t, he, heq⟩ | ⟨a, ⟨w₁, b₁⟩, ha, hf⟩ := Attempt.run_bind_eq_some.mp h
  · obtain ⟨rfl, rfl⟩ := Prod.mk.inj heq
    obtain ⟨hb, hm⟩ := run_calls he
    exact Or.inl ⟨hb, e, rfl, hm⟩
  · obtain ⟨hb, hm⟩ := run_calls ha
    rw [hb] at hf
    exact Or.inr ⟨a, w₁, hm, hf⟩

/-- An assertion that holds leaves the world alone. -/
theorem run_assert {c : Prop} [Decidable c] {w' : World}
    (h : (assert c).run w = some (.ok (), w')) : w' = w := by
  unfold assert at h
  split at h
  · exact (Prod.mk.inj (Option.some.inj h)).2.symm
  · exact absurd h nofun

theorem run_readBegin : readBegin.run (w, b) = some (.ok b.beginPtr, (w, b)) := rfl

/-- A read while a message is handled: the decoder stops, or what follows goes on with what is
read. -/
theorem run_reading_bind {m : Reading α} {f : Option α → Handling β}
    (h : (reading m >>= f).run (w, b) = some (r, (w', b'))) :
    (w' = w ∧ ∃ e, r = .error e) ∨
      ∃ o b₁, (∀ a, o = some a → m.run b = some (.ok a, b₁)) ∧
        (f o).run (w, b₁) = some (r, (w', b')) := by
  obtain ⟨e, t, he, heq⟩ | ⟨a, t, ha, hf⟩ := Attempt.run_bind_eq_some.mp h
  · obtain ⟨rfl, rfl⟩ := Prod.mk.inj heq
    simp only [Attempt.run, reading] at he
    split at he
    · simp at he
    all_goals
      obtain ⟨-, heq⟩ := Prod.mk.inj (Option.some.inj he)
      obtain ⟨rfl, -⟩ := Prod.mk.inj heq
      exact Or.inl ⟨rfl, e, rfl⟩
  · simp only [Attempt.run, reading] at ha
    split at ha
    · simp at ha
    · obtain ⟨heq, rfl⟩ := Prod.mk.inj (Option.some.inj ha)
      obtain rfl := Except.ok.inj heq
      refine Or.inr ⟨_, _, ?_, hf⟩
      rintro a' heq
      obtain rfl := Option.some.inj heq
      assumption
    · obtain ⟨heq, rfl⟩ := Prod.mk.inj (Option.some.inj ha)
      obtain rfl := Except.ok.inj heq
      exact Or.inr ⟨none, _, by simp, hf⟩
    · simp at ha

theorem World.requested_of_append {w w' : World} {events : List Event}
    (h : w'.itemEvents = w.itemEvents ++ events) :
    w'.requested = w.requested ++ events.filterMap Event.requested := by
  rw [World.requested, h, List.filterMap_append]
  rfl

theorem World.delivered_of_append {w w' : World} {events : List Event}
    (h : w'.itemEvents = w.itemEvents ++ events) :
    w'.delivered = w.delivered ++ events.filterMap Event.delivered := by
  rw [World.delivered, h, List.filterMap_append]
  rfl

/-- An event of an item is recorded. -/
theorem run_emit_ofItem {event : Event} (hevent : event.ofItem = true) {owed : List Owed}
    {r : Except Stop Unit} {w' : World} (h : (emit event owed).run w = some (r, w')) :
    w'.itemEvents = w.itemEvents ++ [event] := by
  obtain ⟨-, rfl⟩ := Prod.mk.inj (Option.some.inj h)
  show (w.events ++ [event]).filter _ = _
  rw [List.filter_append, List.filter_cons_of_pos hevent, List.filter_nil]
  rfl

/-- **The request of a subscription** has the key that was read, and nothing more is known
to the application. -/
theorem run_itemSubscription {key : ℕ} {r : Except Stop (Option ℕ)}
    (h : (itemSubscription M handler messageId key).run (w, b) = some (r, (w', b'))) :
    b' = b ∧ w'.delivered = w.delivered ∧ w'.requested = w.requested ++
      if handler.type ≠ .call then
        [(key, (b.beginPtr + (M.sizeT.count - key)) % M.sizeT.count)]
      else [] := by
  unfold itemSubscription at h
  by_cases htype : handler.type ≠ .call
  · rw [if_pos htype, Attempt.run_bind_ok run_readBegin] at h
    rw [if_pos htype]
    obtain ⟨rfl, e, rfl, he⟩ | ⟨_, w₁, hemit, hcalls⟩ := run_calls_bind h
    · exact absurd he nofun
    have hevents := run_emit_ofItem rfl hemit
    obtain ⟨hb, hrequest⟩ := run_calls hcalls
    rw [← Quiet.itemEvents_eq (quiet_requestSubscription _ _) hrequest] at hevents
    exact ⟨hb, (World.delivered_of_append hevents).trans (List.append_nil _),
      World.requested_of_append hevents⟩
  · rw [if_neg htype] at h ⊢
    obtain ⟨-, heq⟩ := Prod.mk.inj (Option.some.inj h)
    obtain ⟨rfl, rfl⟩ := Prod.mk.inj heq
    exact ⟨rfl, rfl, (List.append_nil _).symm⟩

/-- **The callback of an item** is the one thing it tells the application of items. -/
theorem run_callback_item {map : List (Option (Cbor.Value Cbor.StringData))}
    {additional : List Cbor.AdditionalItem} {subscription : Option ℕ} {owed : List Owed}
    {r : Except Stop Unit} {w' : World}
    (h : (callback app (.item callbackItems result remaining map additional subscription)
      owed).run w = some (r, w')) :
    w'.delivered = w.delivered ++ [⟨callbackItems, remaining, map, additional⟩] ∧
      w'.requested = w.requested := by
  obtain ⟨e, t, he, -⟩ | ⟨_, w₁, hemit, h⟩ := Attempt.run_bind_eq_some.mp h
  · exact absurd he nofun
  have hevents := run_emit_ofItem rfl hemit
  have hquiet : Quiet (getWorld >>= fun w => performAll (app w)) :=
    .bind .getWorld fun w => quiet_performAll (app w)
  rw [← hquiet.itemEvents_eq h] at hevents
  exact ⟨World.delivered_of_append hevents,
    (World.requested_of_append hevents).trans (List.append_nil _)⟩

/-- **One item**: unless the decoder stops, its map is read, with or without success, the
subscription is requested where there is one, and the callback is called. -/
theorem run_handleItem {r : Except Stop Bool} {w' : World} {b' : ReadBuffer}
    (h : (handleItem M app fuel handler callbackItems messageId result remaining ret).run (w, b) =
      some (r, (w', b'))) :
    (w'.delivered = w.delivered ∧ w'.requested = w.requested ∧ ∃ e, r = .error e) ∨
      ∃ ok items, (Cbor.readMapItems M fuel handler.itemMap).run b = some (.ok (ok, items), b') ∧
        w'.requested = w.requested ++ handler.requestedKey M b b' ∧
        ((w'.delivered = w.delivered ∧ ∃ e, r = .error e) ∨
          (w'.delivered = w.delivered ++ [.ofItem callbackItems remaining items] ∧
            ∀ ret', r = .ok ret' → ret' = true → ret = true ∧ ok = true)) := by
  rw [handleItem, Attempt.run_bind_ok run_readBegin] at h
  obtain ⟨rfl, e, rfl⟩ | ⟨read, b₁, hread, h⟩ := run_reading_bind h
  · exact Or.inl ⟨rfl, rfl, e, rfl⟩
  cases read with
  | none =>
    obtain ⟨rfl, heq⟩ := Prod.mk.inj (Option.some.inj h)
    obtain ⟨rfl, -⟩ := Prod.mk.inj heq
    exact Or.inl ⟨rfl, rfl, _, rfl⟩
  | some read =>
    obtain ⟨ok, items⟩ := read
    have hread := hread _ rfl
    obtain ⟨rfl, e, rfl, he⟩ | ⟨_, w₁, hassert, h⟩ := run_calls_bind h
    · have hquiet := Quiet.itemEvents_eq (.assert _) he
      exact Or.inl ⟨congrArg (List.filterMap _) hquiet, congrArg (List.filterMap _) hquiet, e, rfl⟩
    have hquiet := Quiet.itemEvents_eq (.assert _) hassert
    have hdelivered : w₁.delivered = w.delivered := congrArg (List.filterMap _) hquiet
    have hrequested : w₁.requested = w.requested := congrArg (List.filterMap _) hquiet
    refine Or.inr ⟨ok, items, ?_⟩
    obtain ⟨e, ⟨w₂, b₂⟩, he, heq⟩ | ⟨subscription, ⟨w₂, b₂⟩, hsub, hrest⟩ :=
      Attempt.run_bind_eq_some.mp h
    · -- the subscription cannot be requested
      obtain ⟨rfl, hstate⟩ := Prod.mk.inj heq
      obtain ⟨rfl, rfl⟩ := Prod.mk.inj hstate
      obtain ⟨rfl, hd, hr⟩ := run_itemSubscription he
      rw [hd, hr, hdelivered, hrequested]
      exact ⟨hread, rfl, Or.inl ⟨rfl, e, rfl⟩⟩
    obtain ⟨rfl, hd, hr⟩ := run_itemSubscription hsub
    obtain ⟨rfl, e, rfl, he⟩ | ⟨_, w₃, hcallback, hpure⟩ := run_calls_bind hrest
    · -- the application stops in its callback
      obtain ⟨hd', hr'⟩ := run_callback_item he
      rw [hd', hr', hd, hr, hdelivered, hrequested]
      exact ⟨hread, rfl, Or.inr ⟨rfl, nofun⟩⟩
    · obtain ⟨hd', hr'⟩ := run_callback_item hcallback
      obtain ⟨rfl, heq⟩ := Prod.mk.inj (Option.some.inj hpure)
      obtain ⟨rfl, rfl⟩ := Prod.mk.inj heq
      rw [hd', hr', hd, hr, hdelivered, hrequested]
      refine ⟨hread, rfl, Or.inr ⟨rfl, ?_⟩⟩
      rintro ret' heq rfl
      obtain ⟨hret, -⟩ := Bool.and_eq_true_iff.mp (Except.ok.inj heq)
      exact Bool.and_eq_true_iff.mp hret

end Item

/-! ### All items -/

section Items

variable {M : Machine} {app : Application} {fuel session : ℕ} {handler : MessageHandler}
  {callbackItems : HandleFunctionItems} {messageId requestId result count : ℕ} {ret : Bool}
  {w w' : World} {b b' : ReadBuffer} {r : Except Stop Bool}

/-- **The items of a message**, as far as the handling gets: each is delivered, and a map that
could not be read makes the result false. -/
theorem run_handleItems
    (h : (handleItems M app fuel handler callbackItems messageId result count ret).run (w, b) =
      some (r, (w', b'))) :
    ∃ n ≤ count, ∃ items b₁, (Cbor.readItems M fuel handler.itemMap n).run b =
        some (.ok items, b₁) ∧
      w'.delivered = w.delivered ++ deliveries callbackItems count items ∧
      ∀ ret', r = .ok ret' → n = count ∧
        (ret' = true → ret = true ∧ ∀ item ∈ items, item.1 = true) := by
  induction count generalizing ret w b with
  | zero =>
    obtain ⟨rfl, heq⟩ := Prod.mk.inj (Option.some.inj h)
    obtain ⟨rfl, rfl⟩ := Prod.mk.inj heq
    refine ⟨0, Nat.le_refl _, [], b, rfl, (List.append_nil _).symm, ?_⟩
    rintro ret' heq
    obtain rfl := Except.ok.inj heq
    exact ⟨rfl, fun hret => ⟨hret, by simp⟩⟩
  | succ remaining ih =>
    -- the handling ends within this item, before its callback
    have hnone : ∀ {e}, r = .error e → w'.delivered = w.delivered → ∃ n ≤ remaining + 1,
        ∃ items b₁, (Cbor.readItems M fuel handler.itemMap n).run b = some (.ok items, b₁) ∧
          w'.delivered = w.delivered ++ deliveries callbackItems (remaining + 1) items ∧
          ∀ ret', r = .ok ret' → n = remaining + 1 ∧
            (ret' = true → ret = true ∧ ∀ item ∈ items, item.1 = true) := by
      rintro e rfl hdelivered
      exact ⟨0, Nat.zero_le _, [], b, rfl, by simp [hdelivered, deliveries],
        fun _ heq => by cases heq⟩
    obtain ⟨e, ⟨w₁, b₁⟩, he, heq⟩ | ⟨ret₁, ⟨w₁, b₁⟩, hitem, hrest⟩ := Attempt.run_bind_eq_some.mp h
    · obtain ⟨rfl, hstate⟩ := Prod.mk.inj heq
      obtain ⟨rfl, rfl⟩ := Prod.mk.inj hstate
      obtain ⟨hd, -⟩ | ⟨ok, items, hread, -, ⟨hd, -⟩ | ⟨hd, -⟩⟩ := run_handleItem he
      · exact hnone rfl hd
      · exact hnone rfl hd
      · refine ⟨1, by omega, [(ok, items)], b', ?_, ?_, fun _ heq => by cases heq⟩
        · rw [Cbor.readItems, Attempt.run_bind_ok hread]
          rfl
        · simpa [deliveries] using hd
    · obtain ⟨-, -, e, he⟩ | ⟨ok, items, hread, -, ⟨-, e, he⟩ | ⟨hd, hret⟩⟩ := run_handleItem hitem
      · cases he
      · cases he
      obtain ⟨n, hn, rest, b₂, hreads, hdelivered, hok⟩ := ih hrest
      refine ⟨n + 1, by omega, (ok, items) :: rest, b₂, ?_, ?_, fun ret' heq => ?_⟩
      · rw [Cbor.readItems, Attempt.run_bind_ok hread, Attempt.run_bind_ok hreads]
        rfl
      · rw [hdelivered, hd, List.append_assoc]
        rfl
      · obtain ⟨rfl, hall⟩ := hok ret' heq
        refine ⟨rfl, fun htrue => ?_⟩
        obtain ⟨hret₁, hrest⟩ := hall htrue
        obtain ⟨hret, hok⟩ := hret ret₁ rfl hret₁
        exact ⟨hret, List.forall_mem_cons.mpr ⟨hok, hrest⟩⟩

/-- A message for a session that has seen the hello, with a complete header and the id of a
handler for items. -/
structure ItemMessage (M : Machine) (session : ℕ) (w : World) (data size : ℕ)
    (messageId requestId count : ℕ) (handler : MessageHandler)
    (callbackItems : HandleFunctionItems) (b : ReadBuffer) : Prop where
  hello : ∃ σ, w.sessions.get session = some σ ∧ σ.helloFinished = true
  header : (readMessageHeader M).run (readBuffer M data size w.malloc) =
    some (.ok (messageId, requestId, count), b)
  get : w.messageHandler[messageId]? = some handler
  noFunction : handler.handleFunction = none
  items : handler.handleFunctionItems = some callbackItems

/-- A run of `sessionHandleInMessage` is one of `handleMessage`. -/
theorem handleMessage_of_run {data size : ℕ}
    (h : (sessionHandleInMessage M app fuel session data size).run w = some (r, w')) :
    ∃ b', (handleMessage M app fuel session).run
      ({ w with malloc := fun n => w.malloc (2 * n + 1) }, readBuffer M data size w.malloc) =
        some (r, (w', b')) := by
  simp only [Attempt.run, sessionHandleInMessage] at h ⊢
  split at h
  · simp at h
  · obtain ⟨rfl, rfl⟩ := Prod.mk.inj (Option.some.inj h)
    exact ⟨_, ‹_›⟩

/-- A call for a result leaves the events alone, and gives none only when its allocation
fails. -/
theorem run_requestResult_none {o : Option ℕ}
    (h : (requestResult session requestId count).run w = some (.ok o, w')) (ho : o = none) :
    w.malloc 0 = false := by
  subst ho
  by_contra hmalloc
  have hmalloc : w.malloc 0 = true := by simpa using hmalloc
  have hrun : (malloc : Calls Bool).run w =
      some (.ok true, { w with malloc := fun n => w.malloc (n + 1) }) := by
    show some (Except.ok (w.malloc 0), _) = _
    rw [hmalloc]
  rw [requestResult, Attempt.run_bind_ok hrun] at h
  obtain ⟨e, t, -, heq⟩ | ⟨_, w₁, -, h⟩ := Attempt.run_bind_eq_some.mp h
  · cases heq
  rw [if_pos rfl] at h
  obtain ⟨e, t, -, heq⟩ | ⟨buf, w₂, -, h⟩ := Attempt.run_bind_eq_some.mp h
  · cases heq
  obtain ⟨e, t, -, heq⟩ | ⟨ret, w₃, -, h⟩ := Attempt.run_bind_eq_some.mp h
  · cases heq
  obtain ⟨e, t, -, heq⟩ | ⟨σ, w₄, -, h⟩ := Attempt.run_bind_eq_some.mp h
  · cases heq
  obtain ⟨e, t, -, heq⟩ | ⟨_, w₅, -, h⟩ := Attempt.run_bind_eq_some.mp h
  · cases heq
  cases h

/-- **A message for a handler of items**: nothing is told of items where there are none, or
where the result cannot be had; otherwise the handling is that of its items. -/
theorem ItemMessage.run {data size : ℕ}
    (hmessage : ItemMessage M session w data size messageId requestId count handler callbackItems b)
    (h : (sessionHandleInMessage M app fuel session data size).run w = some (r, w')) :
    (w'.itemEvents = w.itemEvents ∧
        ∀ ret, r = .ok ret → count = 0 ∨ w.malloc 1 = false ∧ ret = false) ∨
      ∃ result w₁ b' r', w₁.itemEvents = w.itemEvents ∧
        (handleItems M app fuel handler callbackItems messageId result count true).run (w₁, b) =
          some (r', (w', b')) ∧
        ∀ ret, r = .ok ret → ∃ ret', r' = .ok ret' ∧ (ret = true → ret' = true) := by
  obtain ⟨⟨σ, hσ, hhello⟩, hheader, hhandler, hfunction, hitems⟩ := hmessage
  obtain ⟨b', h⟩ := handleMessage_of_run h
  rw [handleMessage, Attempt.run_bind_ok (run_reading_ok _ hheader)] at h
  have h : (dispatch M app fuel session messageId requestId count).run _ = _ := h
  rw [dispatch, Attempt.run_bind_ok (run_calls_ok b (Place.run_read hσ)), hhello,
    if_neg (by simp), Attempt.run_bind_ok (run_calls_ok b rfl)] at h
  simp only [hhandler, hfunction] at h
  unfold callHandleFunctionItems at h
  rw [hitems] at h
  dsimp only at h
  split at h
  · rename_i hcount
    obtain ⟨-, e, rfl, he⟩ | ⟨_, w₁, hassert, h⟩ := run_calls_bind h
    · have hquiet := Quiet.itemEvents_eq (.assert _) he
      exact Or.inl ⟨hquiet, by simp⟩
    have hw₁ : w₁ = { w with malloc := fun n => w.malloc (2 * n + 1) } := by
      unfold assert at hassert
      split at hassert
      · exact (Prod.mk.inj (Option.some.inj hassert)).2.symm
      · cases hassert
    obtain ⟨-, e, rfl, he⟩ | ⟨o, w₂, hrequest, h⟩ := run_calls_bind h
    · exact Or.inl ⟨(Quiet.itemEvents_eq (quiet_requestResult _ _ _) he).trans (by rw [hw₁]; rfl),
        by simp⟩
    have hw₂ : w₂.itemEvents = w.itemEvents :=
      (Quiet.itemEvents_eq (quiet_requestResult _ _ _) hrequest).trans (by rw [hw₁]; rfl)
    cases o with
    | none =>
      have hmalloc := run_requestResult_none hrequest rfl
      obtain ⟨rfl, heq⟩ := Prod.mk.inj (Option.some.inj h)
      obtain ⟨rfl, -⟩ := Prod.mk.inj heq
      refine Or.inl ⟨hw₂, fun ret heq => Or.inr ⟨?_, (Except.ok.inj heq).symm⟩⟩
      rw [hw₁] at hmalloc
      exact hmalloc
    | some result =>
      obtain ⟨e, ⟨w₃, b₃⟩, he, heq⟩ | ⟨ret, ⟨w₃, b₃⟩, hrun, hend⟩ := Attempt.run_bind_eq_some.mp h
      · obtain ⟨rfl, hstate⟩ := Prod.mk.inj heq
        obtain ⟨rfl, rfl⟩ := Prod.mk.inj hstate
        exact Or.inr ⟨result, w₂, b', _, hw₂, he, by simp⟩
      · refine Or.inr ⟨result, w₂, b₃, .ok ret, hw₂, ?_, ?_⟩
        · split at hend
          · obtain ⟨-, heq⟩ := Prod.mk.inj (Option.some.inj hend)
            obtain ⟨rfl, -⟩ := Prod.mk.inj heq
            exact hrun
          · obtain ⟨-, heq⟩ := Prod.mk.inj (Option.some.inj hend)
            obtain ⟨rfl, -⟩ := Prod.mk.inj heq
            exact hrun
        · rintro ret' rfl
          refine ⟨ret, rfl, ?_⟩
          rintro rfl
          by_contra hret
          rw [if_neg hret] at hend
          cases hend
  · rename_i hcount
    refine Or.inl ⟨?_, fun _ _ => Or.inl (by simpa using hcount)⟩
    obtain ⟨-, e, rfl, he⟩ | ⟨payload, w₁, hinit, h⟩ := run_calls_bind h
    · have hquiet := Quiet.itemEvents_eq .writeBufferInit he
      exact hquiet
    have hw₁ := Quiet.itemEvents_eq .writeBufferInit hinit
    obtain ⟨-, e, rfl, he⟩ | ⟨_, w₂, happend, h⟩ := run_calls_bind h
    · exact (Quiet.itemEvents_eq (quiet_sessionAppendOutMessage _ _ _ _ _ _) he).trans hw₁
    obtain ⟨-, heq⟩ := Prod.mk.inj (Option.some.inj h)
    obtain ⟨rfl, -⟩ := Prod.mk.inj heq
    exact (Quiet.itemEvents_eq (quiet_sessionAppendOutMessage _ _ _ _ _ _) happend).trans hw₁

/-- **Every announced item has reached the application** where the handling returns, once and in
order, with what its read has stored, also where the map could not be read; then the call returns
false. There is no callback only where the result of the request cannot be allocated. -/
theorem ItemMessage.delivered {data size : ℕ}
    (hmessage : ItemMessage M session w data size messageId requestId count handler callbackItems b)
    (h : (sessionHandleInMessage M app fuel session data size).run w = some (r, w')) :
    ∃ n ≤ count, ∃ items b₁, (Cbor.readItems M fuel handler.itemMap n).run b =
        some (.ok items, b₁) ∧
      w'.delivered = w.delivered ++ deliveries callbackItems count items ∧
      ∀ ret, r = .ok ret →
        (n = count ∨ n = 0 ∧ w.malloc 1 = false ∧ ret = false) ∧
        (ret = true → ∀ item ∈ items, item.1 = true) := by
  obtain ⟨hquiet, hnone⟩ | ⟨result, w₁, b₁, r', hquiet, hrun, hret⟩ := hmessage.run h
  · have hdelivered : w'.delivered = w.delivered := congrArg (List.filterMap _) hquiet
    refine ⟨0, Nat.zero_le _, [], b, rfl, by simp [hdelivered, deliveries], fun ret heq => ?_⟩
    obtain rfl | hmalloc := hnone ret heq
    · exact ⟨Or.inl rfl, by simp⟩
    · exact ⟨Or.inr ⟨rfl, hmalloc⟩, by simp⟩
  · have hdelivered : w₁.delivered = w.delivered := congrArg (List.filterMap _) hquiet
    obtain ⟨n, hn, items, b₂, hreads, hd, hok⟩ := run_handleItems hrun
    refine ⟨n, hn, items, b₂, hreads, by rw [hd, hdelivered], fun ret heq => ?_⟩
    obtain ⟨ret', rfl, htrue⟩ := hret ret heq
    obtain ⟨rfl, hall⟩ := hok ret' rfl
    exact ⟨Or.inl rfl, fun hret => (hall (htrue hret)).2⟩

end Items

/-! ### Where the callbacks are called -/

/-- The callback of an item is called in `w₁`, in some round of the loop over the items. -/
inductive CallbackAt (M : Machine) (app : Application) (fuel : ℕ) (handler : MessageHandler)
    (callbackItems : HandleFunctionItems) (messageId result : ℕ) :
    ℕ → Bool → World × ReadBuffer → World → Prop
  | here {remaining : ℕ} {ret ok : Bool} {w w₁ : World} {b b' : ReadBuffer} {items : Cbor.MapItems}
      {subscription : Option ℕ}
      (read : (Cbor.readMapItems M fuel handler.itemMap).run b = some (.ok (ok, items), b'))
      (requested : (itemSubscription M handler messageId b.beginPtr).run (w, b') =
        some (.ok subscription, (w₁, b'))) :
      CallbackAt M app fuel handler callbackItems messageId result (remaining + 1) ret (w, b)
        { w₁ with
          events := w₁.events ++ [.item callbackItems result remaining
            (items.map.map MapItem.value) items.additional subscription]
          owed := w₁.owed ++ itemOwed handler.type result subscription }
  | later {remaining : ℕ} {ret ret' : Bool} {s s' : World × ReadBuffer} {w₁ : World}
      (round : (handleItem M app fuel handler callbackItems messageId result remaining ret).run s =
        some (.ok ret', s'))
      (at_ : CallbackAt M app fuel handler callbackItems messageId result remaining ret' s' w₁) :
      CallbackAt M app fuel handler callbackItems messageId result (remaining + 1) ret s w₁

/-- The callback of an item is called in `w₁`, while a message is handled. -/
def CallbackIn (M : Machine) (app : Application) (fuel session data size : ℕ) (w w₁ : World) :
    Prop :=
  ∃ messageId requestId count handler callbackItems b result w₀,
    ItemMessage M session w data size messageId requestId count handler callbackItems b ∧
    (requestResult session requestId count).run
        { w with malloc := fun n => w.malloc (2 * n + 1) } = some (.ok (some result), w₀) ∧
    CallbackAt M app fuel handler callbackItems messageId result count true (w₀, b) w₁

end Wpcp
