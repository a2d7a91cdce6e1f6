import Wpcp.Session.Lengths

/-!
# A request that is too long for its RESULT

A request may announce more elements than its message has: the loop over them goes on behind the
end of the message, and asks the application about each. A message of seven bytes that
unsubscribes `2 ^ 31 - 1` ids is therefore a request like any other, and is answered. Its RESULT
has `2 ^ 32` elements, and announces that it has none: **the length does not fit 32 bits**
(`Wpcp.not_announcesLength`).
-/

namespace Wpcp

open Cbor (Machine ReadBuffer SizeT)

variable {M : Machine} {w : World} {b : ReadBuffer} {r s n : ℕ} {σ : Session}

/-! ### Elements that are not there -/

/-- Behind the end of the message nothing is read, and the place to read from moves by one. -/
theorem run_readUnsignedInteger_end (hend : b.endPtr ≤ b.beginPtr)
    (hfits : b.beginPtr + 1 < M.sizeT.count) :
    (Cbor.readUnsignedInteger M 0).run b = some (.ok (false, 0), b.advance M 1) := by
  have hbegin : (b.advance M 1).beginPtr = b.beginPtr + 1 := Nat.mod_eq_of_lt hfits
  have hraw : (Cbor.readRaw M 1).run b = some (.error .null, b.advance M 1) := by
    show (if (b.advance M 1).endPtr < (b.advance M 1).beginPtr then _ else _) = _
    rw [if_pos]
    rw [hbegin]
    exact Nat.lt_succ_of_le hend
  have huint : (Cbor.readUint8 M).run b = some (.error .null, b.advance M 1) :=
    Attempt.run_bind_error hraw
  have hheader : (Cbor.readHeaderAndUint32 M).run b = some (.error .null, b.advance M 1) :=
    Attempt.run_bind_error huint
  have hnull : (Cbor.orNull (Cbor.readHeaderAndUint32 M)).run b =
      some (.ok none, b.advance M 1) := by
    simp only [Attempt.run] at hheader ⊢
    simp only [Cbor.orNull, hheader]
  exact Attempt.run_bind_ok hnull

/-- **An element that is not there is asked about**, and still to be answered. -/
theorem run_unsubscribeItems_end (hσ : w.sessions.get s = some σ) (hnone : σ.publishItems = [])
    (hend : b.endPtr ≤ b.beginPtr) (hfits : b.beginPtr + n < M.sizeT.count) (ret : Bool) :
    ∃ events ret' b', (unsubscribeItems M silent s r n ret).run (w, b) = some (.ok ret', ({ w with
      events := w.events ++ events
      owed := w.owed ++ List.replicate n (.unsubscribe r none) }, b')) := by
  induction n generalizing w b ret with
  | zero => exact ⟨[], ret, b, by simp [unsubscribeItems]⟩
  | succ n ih =>
    have hread := run_readUnsignedInteger_end (M := M) hend (by omega)
    have hitem : (unsubscribeItem s 0).run w = some (.ok none, w) := by
      rw [unsubscribeItem, Attempt.run_bind_ok (Place.run_read hσ), hnone]
      rfl
    let w' : World := { w with
      events := w.events ++ [.unsubscribe r n none]
      owed := w.owed ++ [.unsubscribe r none] }
    have hbegin : (b.advance M 1).beginPtr = b.beginPtr + 1 := Nat.mod_eq_of_lt (by omega)
    have hend' : (b.advance M 1).endPtr ≤ (b.advance M 1).beginPtr := by
      rw [hbegin]
      exact hend.trans (Nat.le_succ _)
    obtain ⟨events, ret', b', hrest⟩ := ih (w := w') (b := b.advance M 1) hσ hend'
      (by rw [hbegin]; omega) (ret && false)
    refine ⟨.unsubscribe r n none :: events, ret', b', ?_⟩
    have howed : w.owed ++ List.replicate (n + 1) (.unsubscribe r none) =
        w.owed ++ [.unsubscribe r none] ++ List.replicate n (.unsubscribe r none) := by
      rw [List.append_assoc]
      rfl
    rw [unsubscribeItems, Attempt.run_bind_ok (run_reading_ok w hread)]
    dsimp only
    rw [Attempt.run_bind_ok (run_calls_ok _ hitem), Attempt.run_bind_ok
      (@run_calls_ok _ _ w w' () (b.advance M 1) rfl), hrest, howed, List.append_cons w.events]

/-! ### One answer after the other -/

/-- A result waits for as many answers as the application owes it; nothing has been queued for
the session since. -/
structure World.Awaits (r s requestId n : ℕ) (σ : Session) (missing : ℕ) (w : World) : Prop where
  malloc : w.malloc = fun _ => true
  session : w.sessions.get s = some σ
  result : ∃ ret, w.results.get r = some ret ∧ ret.session = some s ∧ ret.blockedItems = none ∧
    (ret.requestId = requestId ∧ ret.requestPayloadCount = n) ∧ ret.remaining = missing
  owed : missing ≤ w.owed.count (.unsubscribe r none)
  fits : missing < 2 ^ 32

variable {requestId missing : ℕ}

/-- The call that answers one element. -/
def answerUnsubscribe (r : ℕ) : Act := .call (.unsubscribe r none none)

/-- What the call does before the answer is counted. -/
theorem World.Awaits.step_eq (h : w.Awaits r s requestId n σ (missing + 1)) :
    ∃ ret, w.results.get r = some ret ∧ ∃ ret', ret'.session = some s ∧ ret'.blockedItems = none ∧
      (ret'.requestId = requestId ∧ ret'.requestPayloadCount = n) ∧
      ret'.remaining = missing + 1 ∧
      w.step silent (answerUnsubscribe r) = (releaseResult r).after { w with
        owed := w.owed.erase (.unsubscribe r none)
        results := w.results.set r ret' } := by
  obtain ⟨ret, hr, hs, hblocked, hrequest, hremaining⟩ := h.result
  have howed : Owed.unsubscribe r none ∈ w.owed :=
    List.count_pos_iff.mp ((Nat.succ_pos missing).trans_le h.owed)
  have hlegal : (Call.unsubscribe r none none).Legal w := by
    refine ⟨?_, trivial⟩
    rintro o ho
    obtain rfl := Option.some.inj ho
    exact howed
  let w₁ : World := { w with owed := w.owed.erase (.unsubscribe r none) }
  let ret₁ : Result := { ret with outputBuffer := ret.outputBuffer.writeNull }
  let w₂ : World := { w₁ with results := w.results.set r ret₁ }
  let ret₂ : Result := { ret₁ with
    outputBuffer := ret₁.outputBuffer.writeTypeAndUint64Value .unsignedInteger 0 }
  have hr₂ : w₂.results.get r = some ret₁ := (Heap.get_set hr ret₁ r).trans (if_pos rfl)
  have hinfo : (resultAddDiagnosticInfo r none).run w₁ = some (.ok (), w₂) :=
    run_resultAddDiagnosticInfo (w := w₁) hr rfl
  have hwrite : (writeResult r fun buffer => buffer.writeWpcpValue w.sizeT (.uint64 0)).run w₂ =
      some (.ok (), { w₁ with results := w.results.set r ret₂ }) := by
    refine (run_writeResult (w := w₂) (f := fun buffer =>
      buffer.writeWpcpValue w.sizeT (.uint64 0)) hr₂ rfl).trans ?_
    show some (Except.ok (), { w₂ with results := (w.results.set r ret₁).set r ret₂ }) = _
    rw [Heap.set_set]
  refine ⟨ret, hr, ret₂, hs, hblocked, hrequest, hremaining, ?_⟩
  have hperform : (Call.unsubscribe r none none).performLegal.run w =
      (releaseResult r).run { w₁ with results := w.results.set r ret₂ } := by
    rw [Call.performLegal, Attempt.run_bind_ok (a := w) (t := w) rfl, if_pos hlegal,
      Attempt.run_bind_ok (a := ()) (t := w₁) rfl]
    show (returnUnsubscribe r none none).run w₁ = _
    rw [returnUnsubscribe, Attempt.run_bind_ok (a := ()) (t := w₁) rfl,
      Attempt.run_bind_ok (Place.run_read (w := w₁) hr), hs]
    show (resultAddValue r none (.uint64 0)).run w₁ = _
    rw [resultAddValue, Attempt.run_bind_ok hinfo, Attempt.run_bind_ok (a := w₂) (t := w₂) rfl]
    exact Attempt.run_bind_ok hwrite
  rw [answerUnsubscribe, World.step, Calls.after, hperform]
  rfl

/-- An answer that is not the last one. -/
theorem World.Awaits.step_pending (h : w.Awaits r s requestId n σ (missing + 1))
    (hmore : missing ≠ 0) : ∃ w', w.step silent (answerUnsubscribe r) = some w' ∧
      w'.Awaits r s requestId n σ missing := by
  obtain ⟨ret, hr, ret', hs, hblocked, hrequest, hremaining, hstep⟩ := h.step_eq
  have hfits := h.fits
  have hr' : (w.results.set r ret').get r = some ret' := (Heap.get_set hr ret' r).trans (if_pos rfl)
  have hleft : (ret'.remaining + (2 ^ 32 - 1)) % 2 ^ 32 = missing := by omega
  let w₁ : World := { w with
    owed := w.owed.erase (.unsubscribe r none)
    results := w.results.set r ret' }
  have hrelease := run_releaseResult_pending (w := w₁) hr' (hleft ▸ hmore)
  rw [hleft] at hrelease
  let w' : World := { w₁ with results := w₁.results.set r { ret' with remaining := missing } }
  refine ⟨w', ?_, h.malloc, h.session, ⟨{ ret' with remaining := missing },
    (Heap.get_set hr' _ r).trans (if_pos rfl), hs, hblocked, hrequest, rfl⟩, ?_, by omega⟩
  · rw [hstep, Calls.after, hrelease]
  · show missing ≤ (w.owed.erase _).count _
    rw [List.count_erase_self]
    exact Nat.le_sub_of_add_le h.owed

/-- **All answers but one** are given, one after the other. -/
theorem World.Awaits.exists_run (h : w.Awaits r s requestId n σ (missing + 1)) :
    ∃ acts w', Transition.Run (World.step silent) Transition.anyStep w acts w' ∧
      w'.Awaits r s requestId n σ 1 := by
  induction missing generalizing w with
  | zero => exact ⟨[], w, .nil, h⟩
  | succ missing ih =>
    obtain ⟨w₁, hstep, h₁⟩ := h.step_pending (Nat.succ_ne_zero missing)
    obtain ⟨acts, w', hrun, h'⟩ := ih h₁
    exact ⟨_, w', .cons trivial hstep hrun, h'⟩

/-- **The last answer** sends the RESULT. -/
theorem World.Awaits.step_last (h : w.Awaits r s requestId n σ 1) :
    ∃ w' σ' message, w.step silent (answerUnsubscribe r) = some w' ∧ w'.results.get r = none ∧
      w'.sessions.get s = some σ' ∧ σ'.out.kill = σ.out.kill ∧
      σ'.ops = σ.ops ++ [.append message] ∧ message.payloadCount = n * 2 % 2 ^ 32 := by
  obtain ⟨ret, hr, ret', hs, hblocked, hrequest, hremaining, hstep⟩ := World.Awaits.step_eq h
  have hr' : (w.results.set r ret').get r = some ret' := (Heap.get_set hr ret' r).trans (if_pos rfl)
  have hlast : (ret'.remaining + (2 ^ 32 - 1)) % 2 ^ 32 = 0 := by omega
  have hrelease := run_releaseResult_complete (w := { w with
    owed := w.owed.erase (.unsubscribe r none)
    results := w.results.set r ret' }) hr' hs h.session hlast
  have hcompleted : σ.completed r ret' true = Session.appended
      { σ with results := σ.results.erase r } true (σ.resultMessage ret') := by
    rw [Session.completed, Result.entries, hblocked]
    rfl
  refine ⟨_, σ.completed r ret' true, σ.resultMessage ret', by rw [hstep, Calls.after, hrelease],
    (Heap.get_free _ _ _).trans (if_pos rfl), ?_, ?_, ?_, ?_⟩
  · show (w.sessions.set s (σ.completed r ret' (w.malloc 0))).get s = _
    rw [Heap.get_set h.session, if_pos rfl, h.malloc]
  · rw [hcompleted]
    exact σ.out.kill_append _
  · rw [hcompleted]
    rfl
  · show ret'.requestPayloadCount * 2 % 2 ^ 32 = _
    rw [hrequest.2]

/-! ### The message -/

/-- **A request to unsubscribe ids that are not there** waits for an answer to each of them. -/
theorem exists_awaits {mem : ℕ → UInt8} {data size fuel messageId : ℕ} {handler : MessageHandler}
    (hmalloc : w.malloc = fun _ => true) (hσ : w.sessions.get s = some σ)
    (hhello : σ.helloFinished = true) (hnone : σ.publishItems = [])
    (hhandler : w.messageHandler[messageId]? = some handler)
    (hfunction : handler.handleFunction = some .unsubscribe)
    (hheader : (readMessageHeader ⟨w.sizeT, mem⟩).run
      (readBuffer ⟨w.sizeT, mem⟩ data size w.malloc) = some (.ok (messageId, requestId, n), b))
    (hend : b.endPtr ≤ b.beginPtr) (hfits : b.beginPtr + n < w.sizeT.count) (hne : n ≠ 0)
    (hlt : n < 2 ^ 32) : ∃ w₁, w.step silent (.inMessage s mem data size fuel) = some w₁ ∧
      w.results.next < w₁.results.next ∧ w₁.Awaits w.results.next s requestId n
        { σ with results := w.results.next :: σ.results } n := by
  have hhandling : w.handling = w := by
    rw [World.handling, hmalloc, ← hmalloc]
  -- the world with the result, and with what has been asked about the elements
  let ret : Result := .requested s requestId n (.init fun n => w.malloc (2 * n + 1))
  let σ₁ : Session := { σ with results := w.results.next :: σ.results }
  let w₂ : World := { w with
    malloc := fun n => w.malloc (2 * n + 1 + 1)
    results := w.results.alloc ret
    sessions := w.sessions.set s σ₁ }
  have hσ₁ : w₂.sessions.get s = some σ₁ := (Heap.get_set hσ σ₁ s).trans (if_pos rfl)
  obtain ⟨events, ret', b', hitems⟩ := run_unsubscribeItems_end (M := ⟨w.sizeT, mem⟩)
    (r := w.results.next) hσ₁ hnone hend hfits true
  let w₁ : World := { w₂ with
    events := w₂.events ++ events
    owed := w₂.owed ++ List.replicate n (.unsubscribe w.results.next none) }
  refine ⟨w₁, ?_, Nat.lt_succ_self _,
    ⟨?_, hσ₁, ⟨ret, (Heap.get_alloc _ _ _).trans (if_pos rfl), rfl,
    rfl, ⟨rfl, rfl⟩, rfl⟩, ?_, hlt⟩⟩
  · have hrequest := run_requestResult requestId hne hσ (by rw [hmalloc])
    have hdispatch : (dispatch ⟨w.sizeT, mem⟩ silent fuel s messageId requestId n).run (w, b) =
        some (.ok ret', (w₁, b')) := by
      rw [dispatch, Attempt.run_bind_ok (run_calls_ok _ (Place.run_read hσ)), hhello,
        if_neg (by simp), Attempt.run_bind_ok (@run_calls_ok _ _ _ w w b rfl)]
      simp only [hhandler, hfunction]
      show (sessionHandleUnsubscribeMessage ⟨w.sizeT, mem⟩ silent s requestId n).run _ = _
      rw [sessionHandleUnsubscribeMessage, Attempt.run_bind_ok (run_calls_ok _ hrequest)]
      exact hitems
    have hhandle : (handleMessage ⟨w.sizeT, mem⟩ silent fuel s).run
        (w.handling, readBuffer ⟨w.sizeT, mem⟩ data size w.malloc) =
          some (.ok ret', (w₁, b')) := by
      rw [hhandling, handleMessage, Attempt.run_bind_ok (run_reading_ok w hheader)]
      exact hdispatch
    simp only [Attempt.run, World.handling] at hhandle
    simp only [World.step, Calls.after, Attempt.run, sessionHandleInMessage, hhandle]
  · show (fun n => w.malloc (2 * n + 1 + 1)) = _
    rw [hmalloc]
  · show n ≤ (w.owed ++ _).count _
    rw [List.count_append, List.count_replicate_self]
    exact Nat.le_add_left _ _

/-- The RESULT of a request announces its length, in every run and for every count that a
message can announce. -/
def AnnouncesLength : Prop :=
  ∀ (app : Application) (sizeT : SizeT) (callbacks : Callback → Bool) (malloc : ℕ → Bool)
    (acts acts' : List Act) (w w₁ w₂ : World) (s : ℕ) (mem : ℕ → UInt8)
    (data size fuel messageId requestId n : ℕ) (b : ReadBuffer),
    Transition.Run (World.step app) Transition.anyStep
      (World.create sizeT callbacks malloc) acts w →
    (readMessageHeader ⟨w.sizeT, mem⟩).run (readBuffer ⟨w.sizeT, mem⟩ data size w.malloc) =
      some (.ok (messageId, requestId, n), b) →
    w.step app (.inMessage s mem data size fuel) = some w₁ →
    w.results.next < w₁.results.next → 1 ≤ n → n ≤ 2 ^ 32 - 3 →
    Transition.Run (World.step app) Transition.anyStep w₁ acts' w₂ →
    w₂.results.get w.results.next = none → w.Announces s requestId n True w₂

local instance (σ : Session) : Decidable (σ.out.kill = false) :=
  match σ.out.kill with
  | false => isTrue rfl
  | true => isFalse nofun

/-- A request to unsubscribe `2 ^ 31 - 1` ids. -/
def longRequest : List UInt8 := [0x9a, 0x80, 0x00, 0x00, 0x01, 0x03, 0x00]

/-- The callback for requests to unsubscribe. -/
def unsubscribeOnly (c : Callback) : Bool := c = .unsubscribe

/-- **The length of a RESULT does not fit 32 bits** for a request of `2 ^ 31 - 1` elements: it has
`2 ^ 32` elements, and announces none. -/
theorem not_announcesLength : ¬AnnouncesLength := by
  intro hall
  have hcheck : (Transition.execute (World.step silent) Transition.anyStep
      (World.create .bits64 unsubscribeOnly fun _ => true) [.sessionCreate, hello]).any (fun w =>
        decide (w.sizeT = .bits64) && (w.sessions.get 0).any (fun σ =>
          σ.helloFinished && decide (σ.publishItems = [] ∧ σ.out.kill = false)) &&
        w.messageHandler[3]?.any fun handler =>
          decide (handler.handleFunction = some .unsubscribe)) = true := by
    decide +kernel
  obtain ⟨w, hw, hfacts⟩ := (Option.any_eq_true _ _).mp hcheck
  simp only [Bool.and_eq_true, decide_eq_true_eq] at hfacts
  obtain ⟨⟨hsize, hsession⟩, hhandler⟩ := hfacts
  obtain ⟨σ, hσ, hfields⟩ := (Option.any_eq_true _ _).mp hsession
  simp only [Bool.and_eq_true, decide_eq_true_eq] at hfields
  obtain ⟨hhello, hnone, hkill⟩ := hfields
  obtain ⟨handler, hget, hfunction⟩ := (Option.any_eq_true _ _).mp hhandler
  have hrun := Transition.run_of_execute hw
  have hinv : w.Inv True none none := inv_of_run (fun _ _ => rfl) hrun
  have hmalloc : w.malloc = fun _ => true := funext (hinv.malloc trivial)
  let mem : ℕ → UInt8 := fun a => longRequest.getD (a - 1000) 0
  have hheader : (readMessageHeader ⟨w.sizeT, mem⟩).run
      (readBuffer ⟨w.sizeT, mem⟩ 1000 7 w.malloc) =
        some (.ok (3, 0, 2 ^ 31 - 1), ⟨1007, 1007, fun _ => true, false⟩) := by
    rw [hsize, hmalloc]
    cbv
  obtain ⟨w₁, hmessage, hadmitted, hawaits⟩ := @exists_awaits w _ 0 (2 ^ 31 - 1) σ 0 mem 1000 7
    9 3 _ hmalloc hσ hhello hnone hget (of_decide_eq_true hfunction) hheader (Nat.le_refl _)
      (by rw [hsize]; decide) (by decide)
    (by decide)
  obtain ⟨acts, w₂, hrun', hawaits'⟩ := @World.Awaits.exists_run _ _ _ _ _ _ (2 ^ 31 - 2) hawaits
  obtain ⟨w₃, σ₃, message, hlast, hgone, hσ₃, hkill₃, hops, hcount⟩ := hawaits'.step_last
  have hannounces := hall silent .bits64 unsubscribeOnly (fun _ => true) _ _ w w₁ w₃ 0 mem
    1000 7 9 3
    0 (2 ^ 31 - 1) _ hrun hheader hmessage hadmitted (by decide) (by decide)
    (hrun'.snoc trivial hlast) hgone
  obtain hk | ⟨message', hmem, -, -, hfits⟩ := hannounces σ σ₃ hσ hσ₃
  · rw [hkill₃] at hk
    exact absurd (hk.symm.trans hkill) nofun
  · -- the RESULT is all that has been queued
    rw [hops, List.drop_left, List.mem_singleton] at hmem
    obtain rfl := OutOp.append.inj hmem
    exact absurd ((message'.fits_iff hcount).mp (hfits.mpr trivial)) (by norm_num)

end Wpcp
