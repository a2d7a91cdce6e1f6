import Wpcp.Session.Dispatched
import Wpcp.Session.Registry

/-!
# A reference count that goes round

The count of the references to a subscription has 32 bits, and nothing checks it when it goes
up. A client that subscribes to one key again and again, and an application that does not answer,
make it go round (`Wpcp.exists_crowded`). The next answer then takes the last of the references
that are counted, and the subscription is freed while a publish item is registered for it: **the
registry is not consistent in every run** (`Wpcp.not_registryConsistent`).
-/

namespace Wpcp

open Cbor (Machine SizeT)

variable {n : ℕ} {w : World}

/-- The step in which a message with given bytes arrives. -/
theorem World.step_message (app : Application) (w : World) (session address : ℕ)
    (bytes : List UInt8) (fuel : ℕ) : w.step app (.message session address bytes fuel) =
      (sessionHandleInMessage (.withMessage w.sizeT address bytes) app fuel session address
        bytes.length).after w := rfl

/-- The memory that a subscription to the key 1 comes in. -/
def crowdingMachine : Machine :=
  .withMessage .bits64 1000 [0x83, 4, 0x01, 0xa1, 0x62, 0x69, 0x64, 1]

/-- The handler for `subscribedata`. -/
def crowdedHandler : MessageHandler where
  type := .subscribeState
  name := "subscribedata"
  handleFunction := none
  handleFunctionItems := some .subscribeData
  mapItems := ["id"]

/-- A subscription with one publish item, `n` more references to which have been counted. -/
structure World.Crowded (n : ℕ) (w : World) : Prop where
  sizeT : w.sizeT = .bits64
  malloc : w.malloc = fun _ => true
  handler : w.messageHandler[4]? = some crowdedHandler
  session : ∃ σ, w.sessions.get 0 = some σ ∧ σ.helloFinished = true
  table : w.subscriptionTable = [0]
  sorted : ∃ keys, w.Sorted keys
  subscription : w.subscriptions.get 0 =
    some ⟨⟨1, [0]⟩, (n + 1) % 2 ^ 32, 4, [0xa1, 0x62, 0x69, 0x64, 1]⟩
  item : w.publishItems.get 0 = some ⟨0, 0, 1⟩

/-- A request for the subscription waits for its only answer. -/
def World.WaitsForAnswer (w : World) : Prop :=
  ∃ r ret, Owed.subscribe r 0 ∈ w.owed ∧ w.results.get r = some ret ∧ ret.session = some 0 ∧
    ret.remaining = 1

/-- The subscription is found. -/
theorem World.Crowded.run_requestSubscription (h : w.Crowded n) :
    (requestSubscription 4 [0xa1, 0x62, 0x69, 0x64, 1]).run w = some (.ok (some 0),
      w.retained 0 ⟨⟨1, [0]⟩, (n + 1) % 2 ^ 32, 4, [0xa1, 0x62, 0x69, 0x64, 1]⟩) := by
  obtain ⟨keys, hkeys⟩ := h.sorted
  obtain ⟨k, s, hs, hkey, hrun⟩ | ⟨place, hcut, hne, -⟩ :=
    hkeys.run_requestSubscription 4 [0xa1, 0x62, 0x69, 0x64, 1]
  · obtain rfl := hkeys.eq_of_sortKey hs h.subscription hkey
    obtain rfl := Option.some.inj (hs.symm.trans h.subscription)
    exact hrun
  · -- the one entry of the table has the key
    obtain ⟨i, hi, hkey⟩ := hkeys.exists_place h.subscription
    have hprobe : BinarySearch.probeList compareKeys (sortKey 4 [0xa1, 0x62, 0x69, 0x64, 1]) keys i
        = .eq := by
      rw [BinarySearch.probeList, hkey]
      exact compareKeys_self _
    obtain rfl := hcut.eq_place hprobe (List.getElem?_eq_some_iff.mp hkey).1
    exact absurd hprobe hne

/-- **One more request for the subscription** is counted, and waits. -/
theorem World.Crowded.step (h : w.Crowded n) : ∃ w', w.step silent (subscribe 4 1) = some w' ∧
    w'.Crowded (n + 1) ∧ w'.WaitsForAnswer := by
  obtain ⟨σ, hσ, hhello⟩ := h.session
  have hodd : { w with malloc := fun n => w.malloc (2 * n + 1) } = w := by
    rw [h.malloc, ← h.malloc]
  have hheader : (readMessageHeader crowdingMachine).run
      (readBuffer crowdingMachine 1000 8 w.malloc) =
        some (.ok (4, 1, 1), ⟨1003, 1008, fun _ => true, false⟩) := by
    rw [h.malloc]
    cbv
  obtain ⟨items, hread⟩ : ∃ items, (Cbor.readMapItems crowdingMachine 9 [⟨ascii "id", none⟩]).run
      ⟨1003, 1008, fun _ => true, false⟩ =
        some (.ok (true, items), ⟨1008, 1008, fun _ => true, false⟩) := ⟨_, rfl⟩
  have hresult := run_requestResult 1 one_ne_zero hσ (by rw [h.malloc])
  -- the world with the result, with the event, and with the reference
  let ret : Result := .requested 0 1 1 (.init fun n => w.malloc (2 * n + 1))
  let w₁ : World := { w with
    malloc := fun n => w.malloc (2 * n + 1 + 1)
    results := w.results.alloc ret
    sessions := w.sessions.set 0 { σ with results := w.results.next :: σ.results } }
  let w₂ : World := { w₁ with events := w₁.events ++ [.requestSubscription 4 1003 5]
                              owed := w₁.owed ++ [] }
  have hcrowded : w₂.Crowded n :=
    { sizeT := h.sizeT
      malloc := by
        show (fun n => w.malloc _) = _
        rw [h.malloc]
      handler := h.handler
      session := ⟨_, (Heap.get_set hσ _ 0).trans (if_pos rfl), hhello⟩
      table := h.table
      sorted := by
        obtain ⟨keys, hkeys⟩ := h.sorted
        exact ⟨keys, hkeys.congr rfl fun _ => rfl⟩
      subscription := h.subscription
      item := h.item }
  let s : Subscription := ⟨⟨1, [0]⟩, (n + 1) % 2 ^ 32, 4, [0xa1, 0x62, 0x69, 0x64, 1]⟩
  let w₃ : World := w₂.retained 0 s
  have hrequest : (requestSubscription 4 [0xa1, 0x62, 0x69, 0x64, 1]).run w₂ =
      some (.ok (some 0), w₃) := hcrowded.run_requestSubscription
  let w₄ : World := { w₃ with
    events := w₃.events ++ [.item .subscribeData w.results.next 0
      (items.map.map Cbor.MapItem.value) items.additional (some 0)]
    owed := w₃.owed ++ [.subscribe w.results.next 0] }
  refine ⟨w₄, ?_, ?_, w.results.next, ret, List.mem_append_right _ (List.mem_singleton_self _),
    (Heap.get_alloc _ _ _).trans (if_pos rfl), rfl, rfl⟩
  · have hitem : (handleItem crowdingMachine silent 9 crowdedHandler .subscribeData 4
        w.results.next 0 true).run (w₁, ⟨1003, 1008, fun _ => true, false⟩) =
          some (.ok true, (w₄, ⟨1008, 1008, fun _ => true, false⟩)) := by
      rw [handleItem, Attempt.run_bind_ok run_readBegin]
      dsimp only
      rw [show crowdedHandler.mapItems.map (fun key => Cbor.MapItem.mk (ascii key) none) =
        [⟨ascii "id", none⟩] from rfl, Attempt.run_bind_ok (run_reading_ok w₁ hread)]
      dsimp only
      rw [Attempt.run_bind_ok (@run_calls_ok _ _ _ w₁ () _ rfl)]
      have hsubscription : (itemSubscription crowdingMachine crowdedHandler 4 1003).run
          (w₁, ⟨1008, 1008, fun _ => true, false⟩) =
            some (.ok (some 0), (w₃, ⟨1008, 1008, fun _ => true, false⟩)) := by
        rw [itemSubscription, if_pos (by decide), Attempt.run_bind_ok run_readBegin]
        dsimp only
        rw [show (1008 + (crowdingMachine.sizeT.count - 1003)) % crowdingMachine.sizeT.count = 5 by
          decide, show crowdingMachine.slice 1003 5 = [0xa1, 0x62, 0x69, 0x64, 1] by decide,
          Attempt.run_bind_ok (@run_calls_ok _ _ _ w₂ () _ rfl)]
        exact run_calls_ok _ hrequest
      rw [Attempt.run_bind_ok hsubscription,
        Attempt.run_bind_ok (@run_calls_ok _ _ _ w₄ () _ rfl)]
      rfl
    have hitems : (handleItems crowdingMachine silent 9 crowdedHandler .subscribeData 4
        w.results.next 1 true).run (w₁, ⟨1003, 1008, fun _ => true, false⟩) =
          some (.ok true, (w₄, ⟨1008, 1008, fun _ => true, false⟩)) :=
      Attempt.run_bind_ok hitem
    have hhandle : (handleMessage crowdingMachine silent 9 0).run
        (w, readBuffer crowdingMachine 1000 8 w.malloc) =
          some (.ok true, (w₄, ⟨1008, 1008, fun _ => true, false⟩)) := by
      rw [handleMessage, Attempt.run_bind_ok (run_reading_ok w hheader)]
      show (dispatch crowdingMachine silent 9 0 4 1 1).run _ = _
      rw [dispatch, Attempt.run_bind_ok (run_calls_ok _ (Place.run_read hσ)), hhello,
        if_neg (by simp), Attempt.run_bind_ok (@run_calls_ok _ _ _ w w _ rfl), h.handler]
      show (callHandleFunctionItems crowdingMachine silent 9 0 crowdedHandler 4 1 1).run _ = _
      unfold callHandleFunctionItems
      show Attempt.run (ite _ _ _) _ = _
      rw [if_pos one_ne_zero, Attempt.run_bind_ok (@run_calls_ok _ _ _ w () _ rfl),
        Attempt.run_bind_ok (run_calls_ok _ hresult)]
      dsimp only
      rw [Attempt.run_bind_ok hitems]
      rfl
    rw [subscribe, clientMessage, World.step_message, h.sizeT]
    show (sessionHandleInMessage crowdingMachine silent 9 0 1000 8).after w = _
    simp only [Attempt.run] at hhandle
    simp only [Calls.after, Attempt.run, sessionHandleInMessage, hodd, hhandle]
  · exact
      { sizeT := h.sizeT
        malloc := hcrowded.malloc
        handler := h.handler
        session := hcrowded.session
        table := h.table
        sorted := by
          obtain ⟨keys, hkeys⟩ := hcrowded.sorted
          have hset : World.Sorted { w₂ with subscriptions := w₂.subscriptions.set 0 { s with
              referenceCount := (s.referenceCount + 1) % 2 ^ 32 } } keys :=
            hkeys.set hcrowded.subscription rfl rfl
          exact ⟨keys, hset.congr rfl fun _ => rfl⟩
        subscription := by
          refine (Heap.get_set h.subscription _ 0).trans ((if_pos rfl).trans ?_)
          rw [show ((n + 1) % 2 ^ 32 + 1) % 2 ^ 32 = (n + 1 + 1) % 2 ^ 32 from
            Nat.mod_add_mod _ _ _]
        item := h.item }

/-- **The count goes on by any number**, as long as the application does not answer. -/
theorem exists_crowded (n : ℕ) : ∃ acts w, Transition.Run (World.step silent) Transition.anyStep
      (World.create .bits64 subscriptionCallbacks fun _ => true) acts w ∧
    w.Crowded (n + 1) ∧ w.WaitsForAnswer := by
  induction n with
  | zero =>
    have hcheck : (Transition.execute (World.step silent) Transition.anyStep
        (World.create .bits64 subscriptionCallbacks fun _ => true)
        [.sessionCreate, hello, subscribe 4 1, accept 0 0]).any (fun w =>
          decide (w.sizeT = .bits64 ∧ w.subscriptionTable = [0] ∧ w.subscriptions.get 0 =
            some ⟨⟨1, [0]⟩, 1, 4, [0xa1, 0x62, 0x69, 0x64, 1]⟩ ∧
            w.publishItems.get 0 = some ⟨0, 0, 1⟩) &&
          ((w.sessions.get 0).any (·.helloFinished) && w.messageHandler[4]?.any fun handler =>
            decide (handler.type = .subscribeState ∧ handler.name = "subscribedata" ∧
              handler.handleFunction = none ∧ handler.handleFunctionItems = some .subscribeData ∧
              handler.mapItems = ["id"]))) = true := by
      decide +kernel
    obtain ⟨w, hw, hfacts⟩ := (Option.any_eq_true _ _).mp hcheck
    simp only [Bool.and_eq_true, decide_eq_true_eq] at hfacts
    obtain ⟨⟨hsize, htable, hsubscription, hitem⟩, hsession, hhandler⟩ := hfacts
    obtain ⟨σ, hσ, hhello⟩ := (Option.any_eq_true _ _).mp hsession
    obtain ⟨⟨type, name, function, items, mapItems⟩, hget, hfields⟩ :=
      (Option.any_eq_true _ _).mp hhandler
    simp only [decide_eq_true_eq] at hfields
    obtain ⟨rfl, rfl, rfl, rfl, rfl⟩ := hfields
    have hrun := Transition.run_of_execute hw
    have hinv : w.Inv True none none := inv_of_run (fun _ _ => rfl) hrun
    have hbalance : w.Balanced True (owedTokens w.owed) := balanced_of_run (fun _ _ => rfl) hrun
    have hcrowded : w.Crowded 0 :=
      ⟨hsize, funext (hinv.malloc trivial), hget, ⟨σ, hσ, hhello⟩, htable, hbalance.sorted,
        hsubscription, hitem⟩
    obtain ⟨w', hstep, hcrowded', hwaits⟩ := hcrowded.step
    exact ⟨_, w', .snoc hrun trivial hstep, hcrowded', hwaits⟩
  | succ n ih =>
    obtain ⟨acts, w, hrun, hcrowded, -⟩ := ih
    obtain ⟨w', hstep, hcrowded', hwaits⟩ := hcrowded.step
    exact ⟨_, w', .snoc hrun trivial hstep, hcrowded', hwaits⟩

/-- **The last reference that is counted is given back**, and the subscription is freed. -/
theorem World.Crowded.step_reject (h : w.Crowded n) (hn : (n + 1) % 2 ^ 32 = 1)
    (hwaits : w.WaitsForAnswer) : ∃ (r : ℕ) (w' : World),
      w.step silent (.call (.subscribeReject r none 0)) = some w' ∧
      w'.subscriptions.get 0 = none ∧ w'.publishItems.get 0 = some ⟨0, 0, 1⟩ := by
  obtain ⟨r, ret, howed, hr, hs, hone⟩ := hwaits
  obtain ⟨σ, hσ, -⟩ := h.session
  obtain ⟨keys, hkeys⟩ := h.sorted
  have hlegal : (Call.subscribeReject r none 0).Legal w := by
    refine ⟨?_, trivial⟩
    rintro o ho
    obtain rfl := Option.some.inj ho
    exact howed
  -- the world in which the call is made, with the answer, and with the RESULT
  let w₁ : World := { w with owed := w.owed.erase (.subscribe r 0) }
  let ret' : Result :=
    { ret with outputBuffer := ret.outputBuffer.writeNull.writeUnsignedInteger 0 }
  let w₂ : World := { w₁ with results := w.results.set r ret' }
  let w₃ : World := { w₂ with
    malloc := fun n => w.malloc (n + 1)
    sessions := w.sessions.set 0 (σ.completed r ret' (w.malloc 0))
    results := w₂.results.free r }
  have hr' : w₂.results.get r = some ret' := (Heap.get_set hr ret' r).trans (if_pos rfl)
  have hrelease : (releaseResult r).run w₂ = some (.ok (), w₃) :=
    run_releaseResult_complete (w := w₂) hr' hs hσ (by
      show (ret.remaining + (2 ^ 32 - 1)) % 2 ^ 32 = 0
      rw [hone]
      norm_num)
  have hanswer : (resultAddUnsignedInteger r none 0).run w₁ = some (.ok (), w₃) :=
    (run_resultAddUnsignedInteger (w := w₁) 0 hr rfl).trans hrelease
  have hsorted : w₃.Sorted keys := hkeys.congr rfl fun _ => rfl
  obtain ⟨hne, -⟩ | ⟨-, place, -, -, hfree⟩ := hsorted.run_releaseSubscription h.subscription
  · dsimp only at hne
    rw [hn] at hne
    norm_num at hne
  let w₄ : World := w₃.unlisted 0 ⟨⟨1, [0]⟩, (n + 1) % 2 ^ 32, 4, [0xa1, 0x62, 0x69, 0x64, 1]⟩ place
  refine ⟨r, w₄, ?_, ?_, h.item⟩
  · have hperform : (Call.subscribeReject r none 0).performLegal.run w =
        some (.ok (), w₄) := by
      rw [Call.performLegal, Attempt.run_bind_ok (a := w) (t := w) rfl, if_pos hlegal,
        Attempt.run_bind_ok (a := ()) (t := w₁) rfl]
      show (returnSubscribeReject r none 0).run w₁ = _
      rw [returnSubscribeReject, Attempt.run_bind_ok (Place.run_read (w := w₁) hr), hs]
      show Attempt.run (_ >>= _) _ = _
      rw [Attempt.run_bind_ok hanswer]
      exact hfree
    rw [World.step, Calls.after, hperform]
  · exact (Heap.get_free _ _ _).trans (if_pos rfl)

/-- **The registry is not consistent in every run**: 2^32 references later, the subscription of
a registered item is no more. -/
theorem not_registryConsistent : ¬∀ (app : Application) (sizeT : SizeT)
      (callbacks : Callback → Bool) (malloc : ℕ → Bool) (acts : List Act) (w : World),
      (∀ n, malloc n = true) → Transition.Run (World.step app) Transition.anyStep
        (World.create sizeT callbacks malloc) acts w → w.RegistryConsistent := by
  intro hall
  obtain ⟨acts, w, hrun, hcrowded, hwaits⟩ := exists_crowded (2 ^ 32 - 1)
  obtain ⟨r, w', hstep, hnone, hitem⟩ := hcrowded.step_reject (by norm_num) hwaits
  have hrun' := hrun.snoc trivial hstep
  have hconsistent := hall silent .bits64 subscriptionCallbacks _ _ w' (fun _ => rfl) hrun'
  obtain ⟨s, hs, -⟩ := (hconsistent.linked 0 0).mpr ⟨inTable_of_run hrun' hitem, _, hitem, rfl⟩
  rw [hnone] at hs
  exact absurd hs nofun

end Wpcp
