import Wpcp.Session.DeliveryRuns
import Wpcp.Session.References

/-!
# Who misses a publish

A publish that allocates its data block gives an entry to every item of the handle. Where the
allocation fails, `wpcp_publish_general` marks the session of the first item of the handle to be
killed, and the handle of a subscription has the items of all sessions that are subscribed to
it. **So a publish misses nobody exactly if the allocation succeeds, or there is no item of
another session in the handle that is still alive** (`Wpcp.missesNobody_iff`).
-/

namespace Wpcp

open Cbor (Item SizeT)

variable {S : Prop} {w w' : World}

/-- The contents of a handle. -/
def World.handle (w : World) : Handle → Option PublishHandle
  | .subscription k => (w.subscriptions.get k).map Subscription.publishHandle
  | .republish k => (w.republishHandles.get k).map fun item => ⟨1, [item]⟩

/-- What a session holds for an item: the entries in its publish queue and those held back. -/
def World.held (w : World) (σ : Session) (it : ℕ) : List Entry :=
  (σ.out.publishQueue ++ w.heldBack σ it).filter fun e => e.item = it

/-- The session is marked to be killed. -/
def World.killed (w : World) (s : ℕ) : Prop := ∃ σ, w.sessions.get s = some σ ∧ σ.out.kill = true

/-- **A publish misses nobody**: between the two worlds each session with items among these has
got one entry for each of them, or it is marked to be killed. -/
def MissesNobody (w w' : World) (items : List ℕ) : Prop :=
  ∀ s, w'.killed s ∨ ∀ it ∈ items, ∀ i, w.publishItems.get it = some i → i.session = s →
    ∃ σ σ' data, w.sessions.get s = some σ ∧ w'.sessions.get s = some σ' ∧
      w'.held σ' it = w.held σ it ++ [⟨i.subscriptionid, data, it⟩]

/-- Every item belongs to the session of the first one, or to one marked to be killed. -/
def World.FirstOrKilled (w : World) (items : List ℕ) : Prop :=
  ∀ it ∈ items, ∀ i, w.publishItems.get it = some i → w.killed i.session ∨
    ∃ first j, items.head? = some first ∧ w.publishItems.get first = some j ∧
      i.session = j.session

theorem World.entriesOf_eq (w : World) (σ : Session) (it : ℕ) :
    w.entriesOf σ it = σ.handedOutEntries.filter (fun e => e.item = it) ++ w.held σ it := by
  rw [World.entriesOf, World.held, List.append_assoc, List.filter_append]

/-! ### The two ends of a publish -/

/-- What a publish that succeeds has done since `w₀`, as far as it does not say which entries
there are. -/
structure World.Published (w₀ : World) (items : List ℕ) (w : World) : Prop where
  sessions : ∀ s σ, w₀.sessions.get s = some σ →
    ∃ σ', w.sessions.get s = some σ' ∧ σ'.handedOut = σ.handedOut
  events : ∃ data, w.events = w₀.events ++ [.published data items]

/-- A publish hands nothing out. -/
theorem leaves_publishEntries_published (w₀ : World) (handled items : List ℕ) (data length : ℕ) :
    Leaves (w₀.Published handled) (publishEntries data length items) := by
  refine .publishEntries (fun _ _ _ _ _ _ _ h => ⟨h.sessions, h.events⟩) (fun s first rest => ?_)
    _ _ _
  refine .read_bind fun τ => Place.ensures_write trivial ?_
  rintro w - ⟨hτ, h⟩ -
  refine ⟨fun k σ hσ => ?_, h.events⟩
  obtain ⟨σ', hσ', heq⟩ := h.sessions k σ hσ
  by_cases hk : k = s
  · subst hk
    obtain rfl := Option.some.inj (hτ.symm.trans hσ')
    exact ⟨_, (Heap.get_set hτ _ _).trans (if_pos rfl), heq⟩
  · exact ⟨σ', (Heap.get_set hτ _ _).trans ((if_neg hk).trans hσ'), heq⟩

/-- **A publish whose allocation succeeds** publishes to all items of the handle. -/
theorem ensures_publishGeneral_published {w₀ : World} {handle : PublishHandle}
    (hlength : handle.length ≠ 0) (hmalloc : w₀.malloc 0 = true) :
    Attempt.Ensures (fun w => w = w₀) (publishGeneral handle)
      (fun _ => w₀.Published (handle.items.take handle.length)) Stop.Any := by
  let Idle : World → Prop := fun w => w.sessions = w₀.sessions ∧ w.events = w₀.events
  refine .ite (fun h => absurd h hlength) fun _ => .bind
    (Q := fun data w => data.isSome ∧ w₀.Published (handle.items.take handle.length) w) ?_ ?_
  · refine .bind (Leaves.assert _) fun _ => .bind (Q := fun ok w => ok = true ∧ Idle w) ?_
      fun ok => .ite (fun _ => ?_) fun hok => .assume (fun _ h => h.1) fun heq => absurd heq hok
    · refine .of_run fun w hw => ⟨_, _, run_malloc w, fun ok hok => ?_, fun _ _ => trivial⟩
      obtain rfl := Except.ok.inj hok
      subst hw
      exact ⟨hmalloc, rfl, rfl⟩
    · refine .bind (Leaves.writeBufferInit fun _ _ h => h) fun buffer => .bind
        (Leaves.new (fun _ _ h => h) _) fun data => .bind (Q := fun _ =>
        w₀.Published (handle.items.take handle.length)) (ensures_emit ?_) fun _ =>
        .bind (leaves_publishEntries_published w₀ _ _ _ _) fun _ => .pure fun _ h => ⟨rfl, h⟩
      rintro w ⟨-, hsessions, hevents⟩
      refine ⟨fun s σ hσ => ⟨σ, ?_, rfl⟩, data, ?_⟩
      · rw [hsessions]
        exact hσ
      · rw [hevents]
  · rintro (_ | data)
    · exact .assume (fun _ h => h.1) fun h => absurd h nofun
    · exact .pure fun _ h => h.2

/-- What a publish that fails has done since `w₀`: the session of the first item is marked to
be killed. -/
def World.Failed (w₀ : World) (items : List ℕ) (w : World) : Prop :=
  ∃ first j σ, items.head? = some first ∧ w₀.publishItems.get first = some j ∧
    w₀.sessions.get j.session = some σ ∧ w.results = w₀.results ∧
    w.sessions = w₀.sessions.set j.session { σ with out := { σ.out with kill := true } }

/-- **A publish whose allocation fails** marks one session. -/
theorem ensures_publishGeneral_failed {w₀ : World} {handle : PublishHandle}
    (hlength : handle.length ≠ 0) (hmalloc : w₀.malloc 0 = false) :
    Attempt.Ensures (fun w => w = w₀) (publishGeneral handle) (fun _ => w₀.Failed handle.items)
      Stop.Any := by
  let Idle : World → Prop := fun w =>
    w.sessions = w₀.sessions ∧ w.publishItems = w₀.publishItems ∧ w.results = w₀.results
  refine .ite (fun h => absurd h hlength) fun _ => .bind
    (Q := fun data w => data = none ∧ Idle w) ?_ ?_
  · refine .bind (Leaves.assert _) fun _ => .bind (Q := fun ok w => ok = false ∧ Idle w) ?_
      fun ok => .ite (fun hok => .assume (fun _ h => h.1) fun heq => ?_) fun _ =>
      .pure fun _ h => ⟨rfl, h.2⟩
    · refine .of_run fun w hw => ⟨_, _, run_malloc w, fun ok hok => ?_, fun _ _ => trivial⟩
      obtain rfl := Except.ok.inj hok
      subst hw
      exact ⟨hmalloc, rfl, rfl, rfl⟩
    · rw [heq] at hok
      exact absurd hok nofun
  · rintro (_ | data)
    · rcases hitems : handle.items with _ | ⟨first, rest⟩
      · exact .fail trivial
      refine .bind (Place.ensures_read trivial) fun j => .bind (Place.ensures_read trivial)
        fun σ => .bind (Place.ensures_write (Q := fun _ => w₀.Failed (first :: rest)) trivial ?_)
        fun _ => .pure fun _ h => h
      rintro w - ⟨hσ, hj, -, hsessions, hitems, hresults⟩ -
      refine ⟨first, j, σ, rfl, ?_, ?_, hresults, ?_⟩
      · rw [← hitems]
        exact hj
      · rw [← hsessions]
        exact hσ
      · rw [← hsessions]
    · exact .assume (fun _ h => h.1) fun h => absurd h nofun

/-! ### Publishing on a handle -/

/-- What `wpcp_publish_general` ensures, the whole publish ensures. -/
theorem ensures_publish {w₀ : World} {Q : World → Prop} {handle : Handle} {h : PublishHandle}
    (answer : Item) (hhandle : w₀.handle handle = some h)
    (hgeneral : Attempt.Ensures (fun w => w = w₀) (publishGeneral h) (fun _ => Q) Stop.Any)
    (hdata : ∀ w heap, Q w → Q { w with publishData := heap }) :
    Attempt.Ensures (fun w => w = w₀) (Call.publish handle answer).perform (fun _ => Q)
      Stop.Any := by
  have hread : Attempt.Ensures (fun w => w = w₀) (readHandle handle)
      (fun h' w => h' = h ∧ w = w₀) Stop.Any := by
    cases handle with
    | subscription k =>
      refine .bind (Place.ensures_read trivial) fun s => .pure ?_
      rintro w ⟨hs, rfl⟩
      obtain ⟨s', hs', rfl⟩ := Option.map_eq_some_iff.mp hhandle
      obtain rfl := Option.some.inj (hs.symm.trans hs')
      exact ⟨rfl, rfl⟩
    | republish k =>
      refine .bind (Place.ensures_read trivial) fun it => .pure ?_
      rintro w ⟨hit, rfl⟩
      obtain ⟨it', hit', rfl⟩ := Option.map_eq_some_iff.mp hhandle
      obtain rfl := Option.some.inj (hit.symm.trans hit')
      exact ⟨rfl, rfl⟩
  refine .bind hread fun h' => .assume (fun _ h => h.1) ?_
  rintro rfl
  refine .bind (hgeneral.imp (fun _ h => h.2) (fun _ _ h => h) fun _ h => h) ?_
  rintro (_ | data)
  · exact .pure fun _ h => h
  · refine Leaves.bind .getWorld fun w => .bind (.read _ _) fun d => ?_
    split
    · exact .write hdata _ _
    · exact .fail _

/-- A call that may be made is made. -/
theorem ensures_performLegal_of {w₀ : World} {Q : World → Prop} {E : Stop → Prop} {call : Call}
    (hlegal : call.Legal w₀)
    (h : Attempt.Ensures (fun w => w = { w₀ with owed := call.owed.elim w₀.owed w₀.owed.erase })
      call.perform (fun _ => Q) E) :
    Attempt.Ensures (fun w => w = w₀) call.performLegal (fun _ => Q) E := by
  refine .bind ensures_getWorld fun w => .ite (fun _ => .bind (ensures_modifyWorld ?_)
    fun _ => h) fun hnot => .assume (p := False) ?_ False.elim
  · rintro w' ⟨rfl, rfl⟩
    rfl
  · rintro w' ⟨rfl, rfl⟩
    exact hnot hlegal

/-- What the publish ensures, the step that publishes does. -/
theorem of_step_publish {app : Application} {handle : Handle} {answer : Item} {h : PublishHandle}
    {Q : World → Prop} (hhandle : w.handle handle = some h)
    (hgeneral : Attempt.Ensures (fun v => v = w) (publishGeneral h) (fun _ => Q) Stop.Any)
    (hdata : ∀ w heap, Q w → Q { w with publishData := heap })
    (hstep : w.step app (.call (.publish handle answer)) = some w') : Q w' := by
  have hlegal : (Call.publish handle answer).Legal w := by
    refine ⟨nofun, ?_⟩
    cases handle with
    | subscription k =>
      obtain ⟨s, hs, -⟩ := Option.map_eq_some_iff.mp hhandle
      exact Option.isSome_iff_exists.mpr ⟨s, hs⟩
    | republish k =>
      obtain ⟨it, hit, -⟩ := Option.map_eq_some_iff.mp hhandle
      exact Option.isSome_iff_exists.mpr ⟨it, hit⟩
  exact after_of_ensures (ensures_performLegal_of hlegal
    (ensures_publish answer hhandle hgeneral hdata)) rfl hstep

/-! ### When nobody is missed -/

attribute [local simp] published Session.handedOutEntries entriesFor World.blockedEntries

/-- The items of a handle are those it is as long as, without repetition. -/
theorem handle_of_run {app : Application} {sizeT : SizeT} {callbacks : Callback → Bool}
    {malloc : ℕ → Bool} {acts : List Act}
    (hrun : Transition.Run (World.step app) Transition.anyStep
      (World.create sizeT callbacks malloc) acts w) {handle : Handle} {h : PublishHandle}
    (hhandle : w.handle handle = some h) : h.length = h.items.length ∧ h.items.Nodup := by
  cases handle with
  | subscription k =>
    obtain ⟨s, hs, rfl⟩ := Option.map_eq_some_iff.mp hhandle
    have hbalance : w.Balanced False (owedTokens w.owed) := balanced_of_run False.elim hrun
    exact ⟨(hbalance.handle k s hs).length, (hbalance.handle k s hs).nodup⟩
  | republish k =>
    obtain ⟨it, hit, rfl⟩ := Option.map_eq_some_iff.mp hhandle
    exact ⟨rfl, List.nodup_singleton it⟩

/-- **A publish misses nobody exactly if its allocation succeeds, or every item of the handle
belongs to the session of the first one or to one marked to be killed.** -/
theorem missesNobody_iff {app : Application} {sizeT : SizeT} {callbacks : Callback → Bool}
    {malloc : ℕ → Bool} {acts : List Act} {handle : Handle} {answer : Item} {h : PublishHandle}
    (hrun : Transition.Run (World.step app) Transition.anyStep
      (World.create sizeT callbacks malloc) acts w)
    (hhandle : w.handle handle = some h) (hlength : h.length ≠ 0)
    (hstep : w.step app (.call (.publish handle answer)) = some w') :
    MissesNobody w w' h.items ↔ w.malloc 0 = true ∨ w.FirstOrKilled h.items := by
  have hhomed : w.Homed 0 := homed_of_run hrun
  have halive : ∀ it i, w.publishItems.get it = some i →
      ∃ σ, w.sessions.get i.session = some σ := by
    intro it i hi
    obtain hsome | hmem := hhomed it i hi
    · exact Option.isSome_iff_exists.mp hsome
    · exact absurd hmem (Multiset.notMem_zero _)
  cases hmalloc : w.malloc 0 with
  | true =>
    refine iff_of_true (fun s => Or.inr fun it hit i hi hs => ?_) (Or.inl rfl)
    subst hs
    obtain ⟨hlen, hnodup⟩ := handle_of_run hrun hhandle
    have hpublished := of_step_publish hhandle (ensures_publishGeneral_published hlength hmalloc)
      (fun _ _ h => ⟨h.sessions, h.events⟩) hstep
    obtain ⟨σ, hσ⟩ := halive it i hi
    obtain ⟨σ', hσ', hhanded⟩ := hpublished.sessions _ σ hσ
    obtain ⟨data, hevents⟩ := hpublished.events
    rw [hlen, List.take_length] at hevents
    -- the item is still there, so that it has the same session and id
    have hi' : w'.publishItems.get it = some i :=
      (of_step_publish hhandle ((settled_publishGeneral h w).imp
        (fun _ hv => hv ▸ .refl w) (fun _ _ h => h) fun _ h => h)
        (fun _ _ h => ⟨h.items, h.sessions⟩) hstep).items it i hi
    obtain ⟨home, id, hdelivered⟩ := (delivered_of_run hrun).1 it
    obtain ⟨home', id', hdelivered'⟩ := (delivered_of_run (hrun.snoc trivial hstep)).1 it
    obtain ⟨rfl, rfl⟩ := hdelivered.item i hi
    obtain ⟨rfl, rfl⟩ := hdelivered'.item i hi'
    have hentries := hdelivered.entries σ hσ
    have hentries' := hdelivered'.entries σ' hσ'
    have hcount : published w'.events it = published w.events it ++ [data] := by
      simp [published, hevents, List.count_eq_one_of_mem hnodup hit]
    have hsame : σ'.handedOutEntries = σ.handedOutEntries := by
      rw [Session.handedOutEntries, Session.handedOutEntries, hhanded]
      rfl
    refine ⟨σ, σ', data, hσ, hσ', ?_⟩
    rw [hcount, entriesFor, List.map_append, ← entriesFor, ← hentries, World.entriesOf_eq,
      World.entriesOf_eq, hsame, List.append_assoc] at hentries'
    exact List.append_cancel_left hentries'
  | false =>
    obtain ⟨first, j, τ, hfirst, hj, hτ, hresults, hsessions⟩ := of_step_publish hhandle
      (ensures_publishGeneral_failed hlength hmalloc) (fun _ _ h => h) hstep
    have hkilled : ∀ s, w'.killed s ↔ w.killed s ∨ s = j.session := by
      intro s
      rw [World.killed, hsessions]
      constructor
      · rintro ⟨σ, hσ, hkill⟩
        rw [Heap.get_set hτ] at hσ
        split at hσ
        · exact Or.inr ‹_›
        · exact Or.inl ⟨σ, hσ, hkill⟩
      · rintro (⟨σ, hσ, hkill⟩ | rfl)
        · by_cases hs : s = j.session
          · exact ⟨_, (Heap.get_set hτ _ _).trans (if_pos hs), rfl⟩
          · exact ⟨σ, (Heap.get_set hτ _ _).trans ((if_neg hs).trans hσ), hkill⟩
        · exact ⟨_, (Heap.get_set hτ _ _).trans (if_pos rfl), rfl⟩
    constructor
    · intro hmisses
      refine Or.inr fun it hit i hi => ?_
      by_cases hs : i.session = j.session
      · exact Or.inr ⟨first, j, hfirst, hj, hs⟩
      obtain hkill | hheld := hmisses i.session
      · exact Or.inl (((hkilled _).mp hkill).resolve_right hs)
      · -- nothing has been put into the queue of a session that is not marked
        obtain ⟨σ, σ', data, hσ, hσ', hheld⟩ := hheld it hit i hi rfl
        rw [hsessions, Heap.get_set hτ, if_neg hs, hσ] at hσ'
        obtain rfl := Option.some.inj hσ'
        have hsame : w'.held σ it = w.held σ it := by
          rw [World.held, World.held, heldBack_congr rfl (fun r _ => ?_) fun r _ _ => ?_]
          · rw [World.blockedItems_eq, World.blockedItems_eq, hresults]
          · rw [World.blockedEntries, World.blockedEntries, hresults]
        rw [hsame] at hheld
        exact absurd (List.append_right_eq_self.mp hheld.symm) (List.cons_ne_nil _ _)
    · rintro (h | hfirst')
      · exact absurd h nofun
      refine fun s => or_iff_not_imp_left.mpr fun hnot it hit i hi hs => ?_
      subst hs
      obtain hkill | ⟨first', j', hfirst'', hj', heq⟩ := hfirst' it hit i hi
      · exact absurd ((hkilled _).mpr (Or.inl hkill)) hnot
      · obtain rfl := Option.some.inj (hfirst.symm.trans hfirst'')
        obtain rfl := Option.some.inj (hj.symm.trans hj')
        exact absurd ((hkilled _).mpr (Or.inr heq)) hnot

/-! ### Two sessions with one subscription -/

/-- The sessions 0 and 1 subscribe to the same key, and both are accepted. -/
def sharedSubscription : List Act :=
  [.sessionCreate, .sessionCreate, hello, .message 1 1000 [0x83, 0x01, 0x00, 0xa0] 9,
    subscribe 4 1, .message 1 1000 [0x83, 0x04, 0x01, 0xa1, 0x62, 0x69, 0x64, 0x01] 9,
    accept 0 0, accept 1 0]

/-- The allocation that fails is that of the data block of the publish after the acts of
`sharedSubscription`. -/
def failingPublish (n : ℕ) : Bool := n ≠ 3125

/-- The handle has the item 1 of session 1 first; session 0 keeps nothing of the publish. -/
theorem execute_sharedSubscription : ∃ w w' : World,
    Transition.Run (World.step silent) Transition.anyStep
      (World.create .bits64 subscriptionCallbacks failingPublish) sharedSubscription w ∧
    w.step silent (publish 0) = some w' ∧ w.handle (.subscription 0) = some ⟨2, [1, 0]⟩ ∧
    w.malloc 0 = false ∧ w.publishItems.get 0 = some ⟨0, 0, 1⟩ ∧
    (w'.sessions.get 0).any (fun σ => σ.out.kill = false ∧ w'.held σ 0 = []) = true := by
  have hrun : (Transition.execute (World.step silent) Transition.anyStep
      (World.create .bits64 subscriptionCallbacks failingPublish) sharedSubscription).any
      (fun w => (w.step silent (publish 0)).any fun w' =>
        w.handle (.subscription 0) = some ⟨2, [1, 0]⟩ ∧ w.malloc 0 = false ∧
        w.publishItems.get 0 = some ⟨0, 0, 1⟩ ∧
        (w'.sessions.get 0).any (fun σ => σ.out.kill = false ∧ w'.held σ 0 = []) = true) =
      true := by
    decide +kernel
  obtain ⟨w, hw, hsome⟩ := (Option.any_eq_true _ _).mp hrun
  obtain ⟨w', hw', hfacts⟩ := (Option.any_eq_true _ _).mp hsome
  rw [decide_eq_true_eq] at hfacts
  exact ⟨w, w', Transition.run_of_execute hw, hw', hfacts⟩

/-- Of two sessions with one subscription, a publish that fails misses the one that is not
first in the handle. -/
theorem not_missesNobody : ¬ ∀ (app : Application) (sizeT : SizeT) (callbacks : Callback → Bool)
    (malloc : ℕ → Bool) (acts : List Act) (w w' : World) (handle : Handle) (answer : Item)
    (h : PublishHandle),
    Transition.Run (World.step app) Transition.anyStep (World.create sizeT callbacks malloc)
      acts w → w.handle handle = some h → h.length ≠ 0 →
      w.step app (.call (.publish handle answer)) = some w' → MissesNobody w w' h.items := by
  obtain ⟨w, w', hrun, hstep, hhandle, -, hitem, hmissed⟩ := execute_sharedSubscription
  intro hall
  obtain ⟨σ, hσ, hfacts⟩ := (Option.any_eq_true _ _).mp hmissed
  rw [decide_eq_true_eq] at hfacts
  obtain ⟨hkill, hheld⟩ := hfacts
  rcases hall silent .bits64 _ _ _ w w' _ _ _ hrun hhandle (by decide) hstep 0 with
    ⟨σ', hσ', hkill'⟩ | hnew
  · obtain rfl := Option.some.inj (hσ.symm.trans hσ')
    rw [hkill] at hkill'
    exact absurd hkill' nofun
  · obtain ⟨_, σ', data, -, hσ', hnew⟩ := hnew 0 (by decide) _ hitem rfl
    obtain rfl := Option.some.inj (hσ.symm.trans hσ')
    rw [hheld] at hnew
    exact absurd hnew.symm (List.append_ne_nil_of_right_ne_nil _ (List.cons_ne_nil _ _))

/-- The publish of `sharedSubscription` misses somebody, as its allocation fails and its items
belong to two sessions. -/
theorem missesNobody_sharedSubscription : ∃ w w' : World,
    w.step silent (publish 0) = some w' ∧
      (MissesNobody w w' [1, 0] ↔ w.malloc 0 = true ∨ w.FirstOrKilled [1, 0]) := by
  obtain ⟨w, w', hrun, hstep, hhandle, -⟩ := execute_sharedSubscription
  exact ⟨w, w', hstep, missesNobody_iff hrun hhandle (by decide) hstep⟩

end Wpcp
