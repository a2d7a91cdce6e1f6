import Wpcp.Session.Invariant

/-!
# Calls that leave sessions, results and publish items alone

The rules for the smallest functions, and the many functions that only allocate, count
references or record an event: they are *inert* (`Wpcp.Inert`), and whatever is said of
sessions, results and publish items survives them.
-/

namespace Wpcp

variable {α β : Type} {P : World → Prop}

/-- The failures that are no failed assertion of the session layer. -/
def Stop.Fair (e : Stop) : Prop := e ≠ .aborted

theorem Stop.fair_dangling : Stop.dangling.Fair := nofun

theorem Stop.fair_encoder : Stop.encoder.Fair := nofun

/-! ### The smallest functions -/

theorem run_malloc (w : World) :
    malloc.run w = some (.ok (w.malloc 0), { w with malloc := fun n => w.malloc (n + 1) }) := rfl

theorem ensures_getWorld {E : Stop → Prop} :
    Attempt.Ensures P getWorld (fun w' w => w' = w ∧ P w) E := by
  intro w hw r t hrun
  obtain ⟨rfl, rfl⟩ := Prod.mk.inj (Option.some.inj hrun)
  refine ⟨fun a ha => ?_, fun e he => (nomatch he)⟩
  obtain rfl := Except.ok.inj ha
  exact ⟨rfl, hw⟩

theorem ensures_modifyWorld {E : Stop → Prop} {Q : Unit → World → Prop} {f : World → World}
    (h : ∀ w, P w → Q () (f w)) : Attempt.Ensures P (modifyWorld f) Q E := by
  intro w hw r t hrun
  obtain ⟨rfl, rfl⟩ := Prod.mk.inj (Option.some.inj hrun)
  exact ⟨fun _ _ => h w hw, fun e he => (nomatch he)⟩

theorem ensures_emit {E : Stop → Prop} {Q : Unit → World → Prop} {event : Event}
    {owed : List Owed}
    (h : ∀ w, P w → Q () { w with events := w.events ++ [event], owed := w.owed ++ owed }) :
    Attempt.Ensures P (emit event owed) Q E :=
  ensures_modifyWorld h

theorem ensures_assert {E : Stop → Prop} {c : Prop} [Decidable c] (h : ∀ w, P w → c) :
    Attempt.Ensures P (assert c) (fun _ => P) E := by
  intro w hw r t hrun
  rw [assert, if_pos (h w hw)] at hrun
  obtain ⟨rfl, rfl⟩ := Prod.mk.inj (Option.some.inj hrun)
  exact ⟨fun _ _ => hw, fun e he => (nomatch he)⟩

theorem ensures_assert_not {E : Stop → Prop} {Q : Unit → World → Prop} {c : Prop} [Decidable c]
    (h : ¬c) (hE : E .aborted) : Attempt.Ensures P (assert c) Q E := by
  rw [assert, if_neg h]
  exact .fail hE

namespace Place

variable {p : Place α} {E : Stop → Prop}

theorem run_read {w : World} {r : ℕ} {a : α} (h : (p.heap w).get r = some a) :
    (p.read r).run w = some (.ok a, w) := by
  simp only [read, Attempt.run, h]

theorem run_read_none {w : World} {r : ℕ} (h : (p.heap w).get r = none) :
    (p.read r).run w = some (.error .dangling, w) := by
  simp only [read, Attempt.run, h]

theorem run_write {w : World} {r : ℕ} {a : α} (h : (p.heap w).get r = some a) (b : α) :
    (p.write r b).run w = some (.ok (), p.put ((p.heap w).set r b) w) := by
  simp only [write, Attempt.run, h]

theorem run_free {w : World} {r : ℕ} {a : α} (h : (p.heap w).get r = some a) :
    (p.free r).run w = some (.ok (), p.put ((p.heap w).free r) w) := by
  simp only [free, Attempt.run, h]

/-- Reading gives what is there. -/
theorem ensures_read {r : ℕ} (hE : E .dangling) :
    Attempt.Ensures P (p.read r) (fun a w => (p.heap w).get r = some a ∧ P w) E := by
  intro w hw o t hrun
  simp only [read, Attempt.run] at hrun
  split at hrun
  · obtain ⟨rfl, rfl⟩ := Prod.mk.inj (Option.some.inj hrun)
    refine ⟨fun a ha => ?_, fun e he => (nomatch he)⟩
    obtain rfl := Except.ok.inj ha
    exact ⟨‹_›, hw⟩
  · obtain ⟨rfl, rfl⟩ := Prod.mk.inj (Option.some.inj hrun)
    refine ⟨fun a ha => (nomatch ha), fun e he => ?_⟩
    obtain rfl := Except.error.inj he
    exact hE

/-- Writing changes the cell. -/
theorem ensures_write {r : ℕ} {a : α} {Q : Unit → World → Prop} (hE : E .dangling)
    (h : ∀ w b, P w → (p.heap w).get r = some b → Q () (p.put ((p.heap w).set r a) w)) :
    Attempt.Ensures P (p.write r a) Q E := by
  intro w hw o t hrun
  simp only [write, Attempt.run] at hrun
  split at hrun
  · obtain ⟨rfl, rfl⟩ := Prod.mk.inj (Option.some.inj hrun)
    exact ⟨fun _ _ => h w _ hw ‹_›, fun e he => (nomatch he)⟩
  · obtain ⟨rfl, rfl⟩ := Prod.mk.inj (Option.some.inj hrun)
    refine ⟨fun a ha => (nomatch ha), fun e he => ?_⟩
    obtain rfl := Except.error.inj he
    exact hE

theorem ensures_free {r : ℕ} {Q : Unit → World → Prop} (hE : E .dangling)
    (h : ∀ w b, P w → (p.heap w).get r = some b → Q () (p.put ((p.heap w).free r) w)) :
    Attempt.Ensures P (p.free r) Q E := by
  intro w hw o t hrun
  simp only [free, Attempt.run] at hrun
  split at hrun
  · obtain ⟨rfl, rfl⟩ := Prod.mk.inj (Option.some.inj hrun)
    exact ⟨fun _ _ => h w _ hw ‹_›, fun e he => (nomatch he)⟩
  · obtain ⟨rfl, rfl⟩ := Prod.mk.inj (Option.some.inj hrun)
    refine ⟨fun a ha => (nomatch ha), fun e he => ?_⟩
    obtain rfl := Except.error.inj he
    exact hE

theorem ensures_new {a : α} {Q : ℕ → World → Prop}
    (h : ∀ w, P w → Q (p.heap w).next (p.put ((p.heap w).alloc a) w)) :
    Attempt.Ensures P (p.new a) Q E := by
  intro w hw o t hrun
  obtain ⟨rfl, rfl⟩ := Prod.mk.inj (Option.some.inj hrun)
  refine ⟨fun b hb => ?_, fun e he => (nomatch he)⟩
  obtain rfl := Except.ok.inj hb
  exact h w hw

end Place

/-! ### Inert calls -/

/-- Sessions, results and publish items are the same, and so are the handles of the
subscriptions that are left. -/
structure Frame (w w' : World) : Prop where
  sizeT : w'.sizeT = w.sizeT
  callbacks : w'.callbacks = w.callbacks
  messageHandler : w'.messageHandler = w.messageHandler
  sessions : w'.sessions = w.sessions
  results : w'.results = w.results
  publishItems : w'.publishItems = w.publishItems
  next : w.subscriptions.next ≤ w'.subscriptions.next
  handle : ∀ k s', w'.subscriptions.get k = some s' → k < w.subscriptions.next →
    ∃ s, w.subscriptions.get k = some s ∧ s'.publishHandle = s.publishHandle
  malloc : (∀ n, w.malloc n = true) → ∀ n, w'.malloc n = true

theorem Frame.refl (w : World) : Frame w w :=
  ⟨rfl, rfl, rfl, rfl, rfl, rfl, Nat.le_refl _, fun _ s hs _ => ⟨s, hs, rfl⟩, id⟩

theorem Frame.trans {w₁ w₂ w₃ : World} (h : Frame w₁ w₂) (h' : Frame w₂ w₃) : Frame w₁ w₃ where
  sizeT := h'.sizeT.trans h.sizeT
  callbacks := h'.callbacks.trans h.callbacks
  messageHandler := h'.messageHandler.trans h.messageHandler
  sessions := h'.sessions.trans h.sessions
  results := h'.results.trans h.results
  publishItems := h'.publishItems.trans h.publishItems
  next := Nat.le_trans h.next h'.next
  handle := by
    intro k s₃ hs₃ hk
    obtain ⟨s₂, hs₂, heq₂⟩ := h'.handle k s₃ hs₃ (Nat.lt_of_lt_of_le hk h.next)
    obtain ⟨s₁, hs₁, heq₁⟩ := h.handle k s₂ hs₂ hk
    exact ⟨s₁, hs₁, heq₂.trans heq₁⟩
  malloc := fun hm => h'.malloc (h.malloc hm)

/-- A call that leaves sessions, results and publish items alone, and fails no
assertion. -/
def Inert (m : Calls α) : Prop :=
  ∀ w₀, Attempt.Ensures (Frame w₀) m (fun _ => Frame w₀) Stop.Fair

namespace Inert

/-- What survives a frame survives an inert call. -/
theorem ensures {m : Calls α} (h : Inert m) (hP : ∀ w w', Frame w w' → P w → P w') :
    Attempt.Ensures P m (fun _ => P) Stop.Fair := by
  intro w hw r t hrun
  have h := h w w (Frame.refl w) r t hrun
  exact ⟨fun a ha => hP w t (h.1 a ha) hw, h.2⟩

theorem bind {m : Calls α} {f : α → Calls β} (hm : Inert m) (hf : ∀ a, Inert (f a)) :
    Inert (m >>= f) :=
  fun w₀ => .bind (hm w₀) fun a => hf a w₀

theorem pure (a : α) : Inert (Pure.pure a : Calls α) := fun _ => .pure fun _ h => h

theorem fail {e : Stop} (h : e.Fair) : Inert (Attempt.fail e : Calls α) := fun _ => .fail h

theorem ite {c : Prop} [Decidable c] {m m' : Calls α} (h : Inert m) (h' : Inert m') :
    Inert (if c then m else m') := by
  split
  · exact h
  · exact h'

theorem loop {body : β → Calls (β ⊕ α)} (hbody : ∀ b, Inert (body b)) (fuel : ℕ) (b : β) :
    Inert (Attempt.loop body fuel b) := by
  intro w₀
  refine (Attempt.Ensures.loop (I := fun _ => Frame w₀) (fun b => ?_) fuel b)
  refine (hbody b w₀).imp (fun _ h => h) ?_ fun _ h => h
  rintro (b | a) w hw
  · exact hw
  · exact hw

theorem read (p : Place α) (r : ℕ) : Inert (p.read r) := fun _ =>
  (Place.ensures_read Stop.fair_dangling).imp (fun _ h => h) (fun _ _ h => h.2) fun _ h => h

theorem getWorld : Inert getWorld := fun _ =>
  ensures_getWorld.imp (fun _ h => h) (fun _ _ h => h.2) fun _ h => h

theorem modifyWorld {f : World → World} (h : ∀ w, Frame w (f w)) : Inert (modifyWorld f) :=
  fun _ => ensures_modifyWorld fun w hw => hw.trans (h w)

theorem emit (event : Event) (owed : List Owed) : Inert (emit event owed) :=
  modifyWorld fun _ => ⟨rfl, rfl, rfl, rfl, rfl, rfl, Nat.le_refl _, fun _ s hs _ =>
    ⟨s, hs, rfl⟩, id⟩

/-- The links of publish items are no matter of the items. -/
theorem linkItem (k it : ℕ) : Inert (linkItem k it) :=
  modifyWorld fun _ => ⟨rfl, rfl, rfl, rfl, rfl, rfl, Nat.le_refl _, fun _ s hs _ =>
    ⟨s, hs, rfl⟩, id⟩

theorem unlinkItem (k it : ℕ) : Inert (unlinkItem k it) :=
  modifyWorld fun _ => ⟨rfl, rfl, rfl, rfl, rfl, rfl, Nat.le_refl _, fun _ s hs _ =>
    ⟨s, hs, rfl⟩, id⟩

theorem malloc : Inert malloc := by
  intro w₀ w hw r t hrun
  obtain ⟨rfl, rfl⟩ := Prod.mk.inj (Option.some.inj hrun)
  refine ⟨fun _ _ => hw.trans ?_, fun e he => (nomatch he)⟩
  exact ⟨rfl, rfl, rfl, rfl, rfl, rfl, Nat.le_refl _, fun _ s hs _ => ⟨s, hs, rfl⟩,
    fun hm n => hm (n + 1)⟩

theorem writeBufferInit : Inert writeBufferInit := by
  intro w₀ w hw r t hrun
  obtain ⟨rfl, rfl⟩ := Prod.mk.inj (Option.some.inj hrun)
  refine ⟨fun _ _ => hw.trans ?_, fun e he => (nomatch he)⟩
  exact ⟨rfl, rfl, rfl, rfl, rfl, rfl, Nat.le_refl _, fun _ s hs _ => ⟨s, hs, rfl⟩,
    fun hm n => hm (2 * n + 1)⟩

/-- A publish data block or a handle is no session, result or publish item. -/
theorem write_publishData (r : ℕ) (d : PublishQueueItemData) : Inert (publishData.write r d) :=
  fun _ => Place.ensures_write Stop.fair_dangling fun _ _ hw _ =>
    hw.trans ⟨rfl, rfl, rfl, rfl, rfl, rfl, Nat.le_refl _, fun _ s hs _ => ⟨s, hs, rfl⟩, id⟩

theorem free_publishData (r : ℕ) : Inert (publishData.free r) :=
  fun _ => Place.ensures_free Stop.fair_dangling fun _ _ hw _ =>
    hw.trans ⟨rfl, rfl, rfl, rfl, rfl, rfl, Nat.le_refl _, fun _ s hs _ => ⟨s, hs, rfl⟩, id⟩

theorem new_publishData (d : PublishQueueItemData) : Inert (publishData.new d) :=
  fun _ => Place.ensures_new fun _ hw =>
    hw.trans ⟨rfl, rfl, rfl, rfl, rfl, rfl, Nat.le_refl _, fun _ s hs _ => ⟨s, hs, rfl⟩, id⟩

theorem free_republishHandles (r : ℕ) : Inert (republishHandles.free r) :=
  fun _ => Place.ensures_free Stop.fair_dangling fun _ _ hw _ =>
    hw.trans ⟨rfl, rfl, rfl, rfl, rfl, rfl, Nat.le_refl _, fun _ s hs _ => ⟨s, hs, rfl⟩, id⟩

theorem new_republishHandles (item : ℕ) : Inert (republishHandles.new item) :=
  fun _ => Place.ensures_new fun _ hw =>
    hw.trans ⟨rfl, rfl, rfl, rfl, rfl, rfl, Nat.le_refl _, fun _ s hs _ => ⟨s, hs, rfl⟩, id⟩

theorem free_subscriptions (r : ℕ) : Inert (subscriptions.free r) := by
  refine fun _ => Place.ensures_free Stop.fair_dangling fun w _ hw _ => hw.trans ?_
  refine ⟨rfl, rfl, rfl, rfl, rfl, rfl, Nat.le_refl _, fun k s' hs' _ => ?_, id⟩
  exact ⟨s', (Heap.get_of_get_free hs').2, rfl⟩

theorem new_subscriptions (s : Subscription) : Inert (subscriptions.new s) := by
  refine fun _ => Place.ensures_new fun w hw => hw.trans ?_
  refine ⟨rfl, rfl, rfl, rfl, rfl, rfl, Nat.le_succ _, fun k s' hk hlt => ?_, id⟩
  have hnew : (w.subscriptions.alloc s).get k = some s' := hk
  rw [Heap.get_alloc, if_neg (by omega)] at hnew
  exact ⟨s', hnew, rfl⟩

/-- A change of a subscription that leaves its handle alone. -/
theorem read_write_subscriptions (r : ℕ) (f : Subscription → Subscription)
    (hf : ∀ s, (f s).publishHandle = s.publishHandle) {m : Subscription → Calls α}
    (hm : ∀ s, Inert (m s)) :
    Inert (do
      let s ← subscriptions.read r
      subscriptions.write r (f s)
      m s) := by
  intro w₀
  refine .bind (Place.ensures_read Stop.fair_dangling) fun s => .bind (Q := fun _ => Frame w₀)
    (Place.ensures_write Stop.fair_dangling ?_) fun _ => hm s w₀
  rintro w - ⟨hs, hw⟩ -
  refine hw.trans ⟨rfl, rfl, rfl, rfl, rfl, rfl, Nat.le_refl _, fun k s' hk _ => ?_, id⟩
  have hset : (w.subscriptions.set r (f s)).get k = some s' := hk
  rw [Heap.get_set hs] at hset
  split at hset
  · subst k
    obtain rfl := Option.some.inj hset
    exact ⟨s, hs, hf s⟩
  · exact ⟨s', hset, rfl⟩

end Inert

/-! ### The table of subscriptions -/

theorem inert_retainSubscription (subscription : ℕ) :
    Inert (retainSubscription subscription) :=
  .read_write_subscriptions subscription
    (fun s => { s with referenceCount := (s.referenceCount + 1) % 2 ^ 32 })
    (fun _ => rfl) fun _ => .bind (.modifyWorld fun _ => ⟨rfl, rfl, rfl, rfl, rfl, rfl,
      Nat.le_refl _, fun _ s hs _ => ⟨s, hs, rfl⟩, id⟩) fun _ => .pure _

theorem inert_searchStep (type : ℕ) (key : List UInt8) (range : ℕ × ℕ) :
    Inert (searchStep type key range) := by
  refine .bind .getWorld fun w => ?_
  dsimp only
  split
  · exact .fail Stop.fair_dangling
  · refine .bind (.read _ _) fun item => ?_
    split
    · exact .pure _
    · exact .pure _
    · exact .pure _

theorem inert_searchSubscription (type : ℕ) (key : List UInt8) (range : ℕ × ℕ) :
    Inert (searchSubscription type key range) := by
  refine .ite (.pure _) (.bind (inert_searchStep type key range) ?_)
  rintro (range | ⟨pos, subscription⟩)
  · exact .pure _
  · exact .pure _

/-- The array of subscriptions is neither a session, a result nor a publish item. -/
theorem inert_subscriptionTable (f : List ℕ → List ℕ) :
    Inert (modifyWorld fun w => { w with subscriptionTable := f w.subscriptionTable }) :=
  .modifyWorld fun _ => ⟨rfl, rfl, rfl, rfl, rfl, rfl, Nat.le_refl _, fun _ s hs _ =>
    ⟨s, hs, rfl⟩, id⟩

/-- Requesting a subscription is inert. -/
theorem inert_requestSubscription (type : ℕ) (key : List UInt8) :
    Inert (requestSubscription type key) := by
  refine .bind .getWorld fun w => .bind (.loop (inert_searchSubscription type key) _ _) ?_
  rintro ⟨subscription | _, low⟩
  · refine .bind .malloc fun realloc => .ite (.bind .malloc fun ret => .ite ?_ (.pure _)) (.pure _)
    exact .bind (.new_subscriptions _) fun ret =>
      .bind (inert_subscriptionTable fun table => table.insertIdx low ret) fun _ => .pure _
  · exact .bind (inert_retainSubscription _) fun ret => .pure _

/-- Releasing a subscription is inert. -/
theorem inert_releaseSubscription (subscription : ℕ) :
    Inert (releaseSubscription subscription) := by
  refine .read_write_subscriptions subscription
    (fun s => { s with referenceCount := (s.referenceCount + (2 ^ 32 - 1)) % 2 ^ 32 })
    (fun _ => rfl) fun s => .ite (.pure _) (.bind .getWorld fun w => ?_)
  refine .bind (.loop (inert_searchStep s.type s.key) _ _) fun found => ?_
  exact .bind (inert_subscriptionTable fun table => table.eraseIdx found.1) fun _ =>
    .bind .malloc fun _ => .free_subscriptions subscription

/-! ### Publish data blocks -/

theorem inert_publishQueueItemDeref (data : ℕ) : Inert (publishQueueItemDeref data) :=
  .bind (.read _ _) fun _ => .ite (.write_publishData _ _) (.free_publishData _)

theorem inert_publishQueueItemsDeref (entries : List Entry) :
    Inert (publishQueueItemsDeref entries) := by
  induction entries with
  | nil => exact .pure _
  | cons e entries ih => exact .bind (inert_publishQueueItemDeref e.data) fun _ => ih

theorem inert_publishContentSize (out : OutState QueuedOutMessage Entry) :
    Inert (publishContentSize out) := by
  have hsize (entries : List Entry) : Inert (publishSize entries) := by
    induction entries with
    | nil => exact .pure _
    | cons e entries ih =>
      exact .bind (.read _ _) fun _ => .bind ih fun _ => .bind .getWorld fun _ => .pure _
  exact .ite (hsize _) (.pure _)

theorem inert_writePublish (dest : PublishDest) (entries : List Entry) :
    Inert (writePublish dest entries) := by
  induction entries generalizing dest with
  | nil => exact .pure _
  | cons e entries ih =>
    exact .ite (.bind (.read _ _) fun _ => .bind (inert_publishQueueItemDeref _) fun _ => ih _)
      (.fail Stop.fair_dangling)

/-- What is returned to the caller is no session, result or publish item. -/
theorem inert_handOut (session size : ℕ) (messages : List QueuedOutMessage)
    (message : OutMessage Entry) : Inert (handOut session size messages message) := by
  cases message with
  | queued m =>
    refine .bind .getWorld fun w => ?_
    split
    · exact .emit _ _
    · exact .fail Stop.fair_dangling
  | publish entries =>
    exact .bind .getWorld fun w => .bind (inert_writePublish _ _) fun _ =>
      .ite (.emit _ _) (.fail Stop.fair_dangling)

end Wpcp
