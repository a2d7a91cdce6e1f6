import Wpcp.Session.Closing

/-!
# Every run keeps the invariant

The handling of a message, and with it every step and every run (`Wpcp.inv_of_run`). What
is read from the message does not matter here, nor does what the application does in its
callbacks. An assertion can only fail in the dispatcher, and `Wpcp.Trips` says on which
messages: those whose handler has no function, and a request to unsubscribe nothing.
-/

namespace Wpcp

open Cbor (SizeT Machine ReadBuffer Reading)

variable {S : Prop} {α : Type}

/-! ### Calls and reads -/

/-- What is ensured of a call of the library is ensured while a message is handled. -/
theorem ensures_calls {m : Calls α} {P : World → Prop} {Q : α → World → Prop}
    {E : Stop → Prop} (h : Attempt.Ensures P m Q E) :
    Attempt.Ensures (fun s => P s.1) (calls m) (fun a s => Q a s.1) E := by
  rintro ⟨w, b⟩ hw r ⟨w', b'⟩ hrun
  simp only [calls, Attempt.run] at hrun
  split at hrun
  · simp at hrun
  · rename_i ret v hm
    obtain ⟨rfl, heq⟩ := Prod.mk.inj (Option.some.inj hrun)
    obtain ⟨rfl, rfl⟩ := Prod.mk.inj heq
    exact h w hw ret v hm

/-- A read leaves the world alone, and gives what is read from the buffer. -/
theorem ensures_reading {P : World → Prop} {b₀ : ReadBuffer} (m : Reading α) :
    Attempt.Ensures (fun s => P s.1 ∧ s.2 = b₀) (reading m)
      (fun o s => P s.1 ∧ ∀ a, o = some a → ∃ b, m.run b₀ = some (.ok a, b)) Stop.Fair := by
  rintro ⟨w, b⟩ ⟨hw, rfl⟩ r ⟨w', b'⟩ hrun
  simp only [reading, Attempt.run] at hrun
  split at hrun
  · simp at hrun
  · obtain ⟨rfl, heq⟩ := Prod.mk.inj (Option.some.inj hrun)
    obtain ⟨rfl, rfl⟩ := Prod.mk.inj heq
    rename_i hread
    refine ⟨fun o ho => ⟨hw, fun a ha => ?_⟩, fun _ he => (by cases he)⟩
    obtain rfl := Option.some.inj ((Except.ok.inj ho).trans ha)
    exact ⟨_, hread⟩
  · obtain ⟨rfl, heq⟩ := Prod.mk.inj (Option.some.inj hrun)
    obtain ⟨rfl, rfl⟩ := Prod.mk.inj heq
    refine ⟨fun o ho => ⟨hw, fun a ha => ?_⟩, fun _ he => (by cases he)⟩
    exact absurd ((Except.ok.inj ho).trans ha) (by simp)
  · obtain ⟨rfl, heq⟩ := Prod.mk.inj (Option.some.inj hrun)
    obtain ⟨rfl, rfl⟩ := Prod.mk.inj heq
    refine ⟨fun _ ha => (by cases ha), fun e he => ?_⟩
    obtain rfl := Except.error.inj he
    intro hstop
    cases hstop

/-- A read leaves the world alone. -/
theorem ensures_read {P : World → Prop} (m : Reading α) :
    Attempt.Ensures (fun s => P s.1) (reading m) (fun _ s => P s.1) Stop.Fair :=
  fun s hs r t hrun => by
    obtain ⟨hok, herror⟩ := ensures_reading (P := P) m s ⟨hs, rfl⟩ r t hrun
    exact ⟨fun a ha => (hok a ha).1, herror⟩

theorem ensures_readBegin {P : World → Prop} {E : Stop → Prop} :
    Attempt.Ensures (fun s => P s.1) readBegin (fun _ s => P s.1) E := by
  rintro ⟨w, b⟩ hw r ⟨w', b'⟩ hrun
  obtain ⟨rfl, heq⟩ := Prod.mk.inj (Option.some.inj hrun)
  obtain ⟨rfl, rfl⟩ := Prod.mk.inj heq
  exact ⟨fun _ _ => hw, fun _ he => (nomatch he)⟩

theorem ensures_atEnd {P : World → Prop} {E : Stop → Prop} :
    Attempt.Ensures (fun s => P s.1) atEnd (fun _ s => P s.1) E := by
  rintro ⟨w, b⟩ hw r ⟨w', b'⟩ hrun
  obtain ⟨rfl, heq⟩ := Prod.mk.inj (Option.some.inj hrun)
  obtain ⟨rfl, rfl⟩ := Prod.mk.inj heq
  exact ⟨fun _ _ => hw, fun _ he => (nomatch he)⟩

/-- A function that handles a message keeps the invariant and fails no assertion. -/
abbrev HandlingPreserves (S : Prop) (m : Handling α) : Prop :=
  Attempt.Ensures (fun s => s.1.Inv S none none) m (fun _ s => s.1.Inv S none none) Stop.Fair

theorem Preserves.calls {m : Calls α} (h : Preserves S m) : HandlingPreserves S (calls m) :=
  ensures_calls h

/-! ### The handlers -/

section Handlers

variable (M : Machine) (app : Application) (fuel session : ℕ)

theorem preserves_sessionHandleHelloMessage (requestId payloadCount : ℕ) :
    HandlingPreserves S (sessionHandleHelloMessage M fuel session requestId payloadCount) := by
  refine .ite (fun _ => .pure fun _ h => h) fun _ => .bind (ensures_read _) fun items => ?_
  split
  · refine .bind (Inert.writeBufferInit.preserves.calls) fun buf =>
      .bind Inert.getWorld.preserves.calls fun w =>
      .bind (ensures_calls ((ensures_sessionAppendOutMessage (F := fun _ => True) session .result
        requestId 1 _ []).imp (fun _ h => ⟨h, trivial⟩) (fun _ _ h => h.1) fun _ h => h)) fun _ =>
      .bind (ensures_calls (Place.ensures_read Stop.fair_dangling)) fun σ =>
      .bind (ensures_calls (P := fun w => w.sessions.get session = some σ ∧ w.Inv S none none)
        (Q := fun _ => World.Inv S none none) (Place.ensures_write Stop.fair_dangling ?_))
        fun _ => .pure fun _ h => h
    rintro w - ⟨hσ, hinv⟩ -
    refine hinv.setOutput hσ rfl rfl rfl (fun hS => ?_) fun _ _ _ _ h => h
    obtain ⟨htrace, htracked⟩ := hinv.output hS session σ hσ
    exact ⟨htrace, htracked⟩
  · exact .pure fun _ h => h

/-- **An item of the table has the id under which it is found**, which is what the
assertion in the loop asks for. -/
theorem preserves_unsubscribeItem (subscriptionId : ℕ) :
    Preserves S (unsubscribeItem session subscriptionId) := by
  refine .bind (Place.ensures_read Stop.fair_dangling) fun σ => ?_
  split
  · rename_i item heq
    refine .bind (Place.ensures_read Stop.fair_dangling) fun i => ?_
    refine .assume (p := i.session = session ∧ i.subscriptionid = subscriptionId) ?_ ?_
    · rintro w ⟨hi, hσ, hinv⟩
      obtain ⟨j, hj, hid⟩ := (hinv.session session σ hσ).table _ _ heq
      obtain rfl := Option.some.inj (hi.symm.trans hj)
      exact hid
    · rintro ⟨hs, hid⟩
      have hframed : Framed fun w => w.Inv S none none ∧
          ∃ i, w.publishItems.get item = some i ∧ i.session = session := by
        rintro w w' hf ⟨hinv, hi⟩
        refine ⟨hinv.frame hf, ?_⟩
        rw [hf.publishItems]
        exact hi
      exact .bind (ensures_assert fun _ _ => hid) fun _ =>
        .bind (((inert_retainSubscription i.subscription).keeps hframed).imp
          (fun w hw => ⟨hw.2.2, i, hw.1, hs⟩) (fun _ _ h => h) fun _ h => h) fun k =>
        .bind (ensures_sessionReleasePublishItem session item) fun _ => .pure fun _ h => h
  · exact .pure fun _ h => h.2

theorem preserves_unsubscribeItems (result payloadCount : ℕ) (ret : Bool) :
    HandlingPreserves S (unsubscribeItems M app session result payloadCount ret) := by
  induction payloadCount generalizing ret with
  | zero => exact .pure fun _ h => h
  | succ payloadCount ih =>
    refine .bind (ensures_read _) fun read => ?_
    split
    · exact .bind (preserves_unsubscribeItem session _).calls fun _ =>
        .bind (preserves_callback app _ _).calls fun _ => ih _
    · exact .fail nofun

theorem preserves_sessionHandleUnsubscribeMessage {requestId payloadCount : ℕ}
    (hcount : payloadCount ≠ 0) :
    HandlingPreserves S
      (sessionHandleUnsubscribeMessage M app session requestId payloadCount) := by
  refine .bind (preserves_requestResult hcount).calls ?_
  rintro (_ | result)
  · exact .pure fun _ h => h
  · exact preserves_unsubscribeItems M app session result payloadCount true

theorem preserves_itemSubscription (handler : MessageHandler) (messageId key : ℕ) :
    HandlingPreserves S (itemSubscription M handler messageId key) := by
  refine .ite (fun _ => ?_) fun _ => .pure fun _ h => h
  exact .bind ensures_readBegin fun _ => .bind (Inert.emit _ _).preserves.calls fun _ =>
    (inert_requestSubscription _ _).preserves.calls

theorem preserves_handleItem {handler : MessageHandler} (htype : handler.type ≠ .general)
    (callbackItems : HandleFunctionItems) (messageId result remaining : ℕ) (ret : Bool) :
    HandlingPreserves S
      (handleItem M app fuel handler callbackItems messageId result remaining ret) := by
  refine .bind ensures_readBegin fun key => .bind (ensures_read _) fun read => ?_
  split
  · exact .bind (ensures_calls (ensures_assert fun _ _ => htype)) fun _ =>
      .bind (preserves_itemSubscription M handler messageId key) fun _ =>
      .bind (preserves_callback app _ _).calls fun _ => .pure fun _ h => h
  · exact .fail nofun

theorem preserves_handleItems {handler : MessageHandler} (htype : handler.type ≠ .general)
    (callbackItems : HandleFunctionItems) (messageId result count : ℕ) (ret : Bool) :
    HandlingPreserves S
      (handleItems M app fuel handler callbackItems messageId result count ret) := by
  induction count generalizing ret with
  | zero => exact .pure fun _ h => h
  | succ remaining ih =>
    exact .bind (preserves_handleItem M app fuel htype callbackItems messageId result remaining ret)
      fun ret => ih ret

/-- A handler with a callback for the items of a request. -/
structure MessageHandler.ForItems (handler : MessageHandler) : Prop where
  noFunction : handler.handleFunction = none
  items : handler.handleFunctionItems.isSome
  type : handler.type ≠ .general
  mapItems : handler.mapItems.length ≤ 8

theorem preserves_callHandleFunctionItems {handler : MessageHandler} (hitems : handler.ForItems)
    (messageId requestId arrayCount : ℕ) :
    HandlingPreserves S
      (callHandleFunctionItems M app fuel session handler messageId requestId arrayCount) := by
  obtain ⟨callbackItems, hcallback⟩ := Option.isSome_iff_exists.mp hitems.items
  unfold callHandleFunctionItems
  rw [hcallback]
  refine .ite (fun hcount => ?_) fun _ => ?_
  · refine .bind (ensures_calls (ensures_assert fun _ _ => hitems.mapItems)) fun _ =>
      .bind (preserves_requestResult hcount).calls ?_
    rintro (_ | result)
    · exact .pure fun _ h => h
    · exact .bind (preserves_handleItems M app fuel hitems.type callbackItems messageId result
        arrayCount true) fun ret => .ite (fun _ => ensures_atEnd) fun _ => .pure fun _ h => h
  · exact .bind Inert.writeBufferInit.preserves.calls fun payload =>
      .bind (ensures_calls ((ensures_sessionAppendOutMessage (F := fun _ => True) session .result
        requestId 0 payload []).imp (fun _ h => ⟨h, trivial⟩) (fun _ _ h => h.1) fun _ h => h))
      fun _ => ensures_atEnd

end Handlers

/-! ### The table of handlers -/

/-- The messages on which an assertion fails or a null pointer is called. -/
def Trips (callbacks : Callback → Bool) (messageId arrayCount : ℕ) : Prop :=
  messageId = 0 ∨ messageId = 2 ∨
    messageId = 3 ∧ callbacks .unsubscribe = true ∧ arrayCount = 0

theorem forItems_of_mem {callbacks : Callback → Bool} {type : MessageType} {name : String}
    {f : HandleFunctionItems} {mapItems : List String} {handler : MessageHandler}
    (h : handler ∈ handleFunctionItems callbacks type name f mapItems)
    (htype : type ≠ .general) (hlength : mapItems.length ≤ 8) : handler.ForItems := by
  unfold handleFunctionItems at h
  split at h
  · obtain rfl := List.mem_singleton.mp h
    exact ⟨rfl, rfl, htype, hlength⟩
  · simp at h

theorem forItems_of_mem_itemHandlers {callbacks : Callback → Bool} {handler : MessageHandler}
    (h : handler ∈ itemHandlers callbacks) : handler.ForItems := by
  simp only [itemHandlers, List.mem_append] at h
  obtain ((((((h | h) | h) | h) | h) | h) | h) | h := h
  all_goals exact forItems_of_mem h nofun (by decide)

/-- **The table of handlers**: two without a function, then `processed`, `unsubscribe` if
its callback is set, and handlers for items. -/
theorem messageHandlers_get {callbacks : Callback → Bool} {id : ℕ} {handler : MessageHandler}
    (h : (messageHandlers callbacks)[id]? = some handler) :
    ((id = 0 ∨ id = 2) ∧ handler.handleFunction = none ∧ handler.handleFunctionItems = none) ∨
      handler.handleFunction = some .processed ∨
      (id = 3 ∧ callbacks .unsubscribe = true ∧ handler.handleFunction = some .unsubscribe) ∨
      handler.ForItems := by
  match id with
  | 0 =>
    obtain rfl := Option.some.inj h
    exact Or.inl ⟨Or.inl rfl, rfl, rfl⟩
  | 1 =>
    obtain rfl := Option.some.inj h
    exact Or.inr (Or.inl rfl)
  | 2 =>
    obtain rfl := Option.some.inj h
    exact Or.inl ⟨Or.inr rfl, rfl, rfl⟩
  | id + 3 =>
    simp only [messageHandlers, List.getElem?_cons_succ, handleFunctionCall] at h
    split at h
    · cases id with
      | zero =>
        obtain rfl := Option.some.inj h
        exact Or.inr (Or.inr (Or.inl ⟨rfl, ‹_›, rfl⟩))
      | succ id =>
        exact Or.inr (Or.inr (Or.inr (forItems_of_mem_itemHandlers (List.mem_of_getElem? h))))
    · exact Or.inr (Or.inr (Or.inr (forItems_of_mem_itemHandlers (List.mem_of_getElem? h))))

/-! ### A message -/

section Messages

variable (M : Machine) (app : Application) (fuel session : ℕ)

/-- **After the header**, an assertion fails or a null pointer is called only where the
session has seen the hello and `Trips` says so. -/
theorem ensures_dispatch (messageId requestId arrayCount : ℕ) (w₀ : World) :
    Attempt.Ensures (fun s => s.1.Inv S none none ∧ Frame w₀ s.1)
      (dispatch M app fuel session messageId requestId arrayCount)
      (fun _ s => s.1.Inv S none none)
      (fun e => e = .aborted → ∃ σ, w₀.sessions.get session = some σ ∧
        σ.helloFinished = true ∧ Trips w₀.callbacks messageId arrayCount) := by
  have hfair : ∀ e : Stop, e.Fair → (e = .aborted → ∃ σ, w₀.sessions.get session = some σ ∧
      σ.helloFinished = true ∧ Trips w₀.callbacks messageId arrayCount) :=
    fun e he heq => absurd heq he
  refine .bind (ensures_calls (P := fun w => w.Inv S none none ∧ Frame w₀ w)
    ((Place.ensures_read Stop.fair_dangling).imp (fun _ h => h) (fun _ _ h => h) hfair))
    fun σ => .assume (p := w₀.sessions.get session = some σ) ?_ fun hσ₀ => ?_
  · rintro s ⟨hσ, -, hframe⟩
    rw [← hframe.sessions]
    exact hσ
  refine .ite (fun _ => ?_) fun hhello => ?_
  · exact (preserves_sessionHandleHelloMessage M fuel session requestId arrayCount).imp
      (fun s h => h.2.1) (fun _ _ h => h) hfair
  simp only [Bool.not_eq_true, Bool.not_eq_false] at hhello
  refine .bind (ensures_calls (P := fun w => w.sessions.get session = some σ ∧
    w.Inv S none none ∧ Frame w₀ w) ensures_getWorld) fun w =>
    .assume (p := w.messageHandler = messageHandlers w₀.callbacks) ?_ fun hhandlers => ?_
  · rintro s ⟨rfl, hσ, hinv, hframe⟩
    rw [hinv.messageHandler_eq hσ, hframe.callbacks]
  have hpre : ∀ s : World × ReadBuffer, (w = s.1 ∧ s.1.sessions.get session = some σ ∧
      s.1.Inv S none none ∧ Frame w₀ s.1) → s.1.Inv S none none := fun s hs => hs.2.2.1
  split
  · exact .pure hpre
  rename_i handler hget
  rw [hhandlers] at hget
  obtain ⟨hid, hfun, hnone⟩ | hprocessed | ⟨hid, hunsub, hfun⟩ | hitems :=
    messageHandlers_get hget
  · rw [hfun]
    unfold callHandleFunctionItems
    rw [hnone]
    exact .fail fun _ => ⟨σ, hσ₀, hhello, hid.elim Or.inl fun h => Or.inr (Or.inl h)⟩
  · rw [hprocessed]
    exact .pure hpre
  · rw [hfun]
    by_cases hcount : arrayCount = 0
    · -- the assertion of `wpcp_request_result` fails
      have hE := fun _ : Stop.aborted = .aborted => (⟨σ, hσ₀, hhello,
        Or.inr (Or.inr ⟨hid, hunsub, hcount⟩)⟩ : ∃ σ, w₀.sessions.get session = some σ ∧
          σ.helloFinished = true ∧ Trips w₀.callbacks messageId arrayCount)
      exact .bind (ensures_calls (P := fun w' => w = w' ∧ w'.sessions.get session = some σ ∧
        w'.Inv S none none ∧ Frame w₀ w') (Q := fun _ _ => False)
        (.bind (Q := fun _ _ => True) ((Inert.malloc w).imp (fun w' h => h.1 ▸ Frame.refl w)
          (fun _ _ _ => trivial) hfair) fun _ => .bind (Q := fun _ _ => False)
            (ensures_assert_not (by simp [hcount]) hE)
            fun _ => .assume (fun _ h => h) False.elim))
        fun _ => .assume (fun _ h => h) False.elim
    · exact (preserves_sessionHandleUnsubscribeMessage M app session hcount).imp hpre
        (fun _ _ h => h) hfair
  · rw [hitems.noFunction]
    exact (preserves_callHandleFunctionItems M app fuel session hitems _ _ _).imp hpre
      (fun _ _ h => h) hfair

/-- A message on which an assertion fails or a null pointer is called: its session has seen
the hello, its header is complete, and `Trips` says so. -/
def TripsOn (w : World) (data size : ℕ) : Prop :=
  ∃ σ, w.sessions.get session = some σ ∧ σ.helloFinished = true ∧
    ∃ messageId requestId arrayCount b,
      (readMessageHeader M).run (readBuffer M data size w.malloc) =
        some (.ok (messageId, requestId, arrayCount), b) ∧
      Trips w.callbacks messageId arrayCount

/-- **A message keeps the invariant**, and only the messages of `TripsOn` are not handled
to their end because an assertion fails or a null pointer is called. -/
theorem ensures_sessionHandleInMessage (data size : ℕ) (w₀ : World) :
    Attempt.Ensures (fun w => w = w₀ ∧ w₀.Inv S none none)
      (sessionHandleInMessage M app fuel session data size) (fun _ => World.Inv S none none)
      (fun e => e = .aborted → TripsOn M session w₀ data size) := by
  have hmessage : Attempt.Ensures
      (fun s => (s.1.Inv S none none ∧ Frame w₀ s.1) ∧ s.2 = readBuffer M data size w₀.malloc)
      (handleMessage M app fuel session) (fun _ s => s.1.Inv S none none)
      (fun e => e = .aborted → TripsOn M session w₀ data size) := by
    refine .bind ((ensures_reading (P := fun w => w.Inv S none none ∧ Frame w₀ w)
      (readMessageHeader M)).imp (fun _ h => h) (fun _ _ h => h) fun e he heq => absurd heq he) ?_
    rintro (_ | ⟨messageId, requestId, arrayCount⟩)
    · exact .pure fun s hs => hs.1.1
    · refine .assume (fun s hs => hs.2 _ rfl) fun hheader =>
        (ensures_dispatch M app fuel session messageId requestId arrayCount w₀).imp
          (fun s hs => hs.1) (fun _ _ h => h) fun e he heq => ?_
      obtain ⟨σ, hσ, hhello, htrips⟩ := he heq
      obtain ⟨b, hb⟩ := hheader
      exact ⟨σ, hσ, hhello, messageId, requestId, arrayCount, b, hb, htrips⟩
  rintro w ⟨rfl, hinv⟩ r w' hrun
  simp only [sessionHandleInMessage, Attempt.run] at hrun
  split at hrun
  · simp at hrun
  · rename_i ret s hm
    obtain ⟨rfl, rfl⟩ := Prod.mk.inj (Option.some.inj hrun)
    have hframe : Frame w { w with malloc := fun n => w.malloc (2 * n + 1) } :=
      ⟨rfl, rfl, rfl, rfl, rfl, rfl, Nat.le_refl _, fun _ s hs _ => ⟨s, hs, rfl⟩,
        fun h n => h (2 * n + 1)⟩
    exact hmessage _ ⟨⟨hinv.frame hframe, hframe⟩, rfl⟩ ret s hm

end Messages

/-! ### Steps and runs -/

/-- The invariant holds after `wpcp_create`. -/
theorem inv_create (sizeT : SizeT) (callbacks : Callback → Bool) {malloc : ℕ → Bool}
    (hS : S → ∀ n, malloc n = true) :
    (World.create sizeT callbacks malloc).Inv S none none where
  malloc := hS
  handlers := Or.inr ⟨rfl, fun _ => rfl⟩
  session := nofun
  output := nofun
  result := nofun
  waiting := nofun
  unlisted := nofun
  item := nofun
  announced := nofun

/-- A fresh session is added, and the handlers are set up. -/
theorem World.Inv.newSession {w : World} (h : w.Inv S none none) :
    World.Inv S none none
      { w with
        sessions := w.sessions.alloc .create
        messageHandler := messageHandlers w.callbacks } where
  malloc := h.malloc
  handlers := Or.inl rfl
  session := by
    intro s σ hσ
    rw [Heap.get_alloc] at hσ
    split at hσ
    · obtain rfl := Option.some.inj hσ
      exact ⟨List.nodup_nil, nofun, nofun, Nat.le_refl _⟩
    · obtain ⟨hnodup, hresults, htable, hfree⟩ := h.session s σ hσ
      exact ⟨hnodup, hresults, htable, hfree⟩
  output := by
    intro hS s σ hσ
    rw [Heap.get_alloc] at hσ
    split at hσ
    · obtain rfl := Option.some.inj hσ
      exact ⟨fun before first rest after heq => by simp [Session.create] at heq, fun _ => .nil⟩
    · exact h.output hS s σ hσ
  result := fun r ret hr =>
    have ⟨hitems, hnone, hentries, hgranted⟩ := h.result r ret hr
    ⟨hitems, hnone, hentries, hgranted⟩
  waiting := by
    intro r ret s hr hs hne
    obtain ⟨σ, hσ, hmem⟩ := h.waiting r ret s hr hs hne
    exact ⟨σ, Heap.get_alloc_of_get hσ, hmem⟩
  unlisted := nofun
  item := by
    intro it i hi hne
    obtain ⟨hlt, htable, hhandle⟩ := h.item it i hi hne
    refine ⟨Nat.lt_succ_of_lt hlt, fun σ hσ => htable σ ?_, hhandle⟩
    rw [Heap.get_alloc, if_neg (Nat.ne_of_lt hlt)] at hσ
    exact hσ
  announced := by
    intro hS it i σ hi hne hσ
    rw [Heap.get_alloc, if_neg (Nat.ne_of_lt (h.item it i hi hne).session)] at hσ
    exact h.announced hS it i σ hi hne hσ

theorem preserves_sessionCreate : Preserves S sessionCreate := by
  refine .bind Inert.malloc.preserves fun ok => .ite (fun _ => ?_) fun _ => .pure fun _ h => h
  refine .bind (Q := fun _ (w : World) => ∃ w₀ : World, w₀.Inv S none none ∧ w = { w₀ with
    sessions := w₀.sessions.alloc .create })
    (Place.ensures_new fun w hinv => ⟨w, hinv, rfl⟩) fun ret =>
    .bind (Q := fun _ => World.Inv S none none) (ensures_modifyWorld ?_) fun _ => .pure fun _ h => h
  rintro _ ⟨w, hinv, rfl⟩
  have hnew := hinv.newSession
  split
  · rename_i hne
    obtain heq | ⟨hnil, -⟩ := hinv.handlers
    · rw [← heq] at hnew
      exact hnew
    · exact absurd hnil hne
  · exact hnew

/-- What a call that returns leaves behind. -/
theorem after_of_ensures {P Q : World → Prop} {E : Stop → Prop} {m : Calls α}
    (h : Attempt.Ensures P m (fun _ => Q) E) {w w' : World} (hw : P w)
    (hrun : Calls.after m w = some w') : Q w' := by
  obtain ⟨a, hrun⟩ := Calls.exists_run_of_after hrun
  exact h.ok hw hrun

/-- **Every step keeps the invariant.** -/
theorem inv_step {app : Application} {w w' : World} {act : Act} (hinv : w.Inv S none none)
    (hst : w.step app act = some w') : w'.Inv S none none := by
  cases act with
  | sessionCreate => exact after_of_ensures preserves_sessionCreate hinv hst
  | inMessage session mem data size fuel =>
    exact after_of_ensures (ensures_sessionHandleInMessage _ app fuel session data size w)
      ⟨rfl, hinv⟩ hst
  | call call => exact after_of_ensures (preserves_performLegal call) hinv hst
  | sessionDelete session => exact after_of_ensures (ensures_sessionDelete app session) hinv hst

/-- **Every run keeps the invariant.** -/
theorem inv_of_run {app : Application} {sizeT : SizeT} {callbacks : Callback → Bool}
    {malloc : ℕ → Bool} {acts : List Act} {w : World} (hS : S → ∀ n, malloc n = true)
    (hrun : Transition.Run (World.step app) Transition.anyStep
      (World.create sizeT callbacks malloc) acts w) : w.Inv S none none :=
  hrun.invariant (motive := fun _ w => w.Inv S none none) (inv_create sizeT callbacks hS)
    fun _ _ _ _ hinv _ hst => inv_step hinv hst

end Wpcp
