import Wpcp.Cbor.Bounds
import Wpcp.Session.Reachable

/-!
# The messages on which an assertion fails

The handlers of `publish` and `result` have no function, so that a message with one of
these ids fails the assertion of the dispatcher, and a request to unsubscribe is passed on
without a look at the number of its elements, which `wpcp_request_result` asserts not to be
zero. **On every other message, in every world that can be reached, no assertion fails and
no null pointer is called** (`Wpcp.neverAborts_iff`).
-/

namespace Wpcp

open Cbor (SizeT Machine ReadBuffer Reading)

variable {α : Type}

/-! ### Computing with attempts on the message -/

theorem run_calls_ok {m : Calls α} {w w' : World} {a : α} (b : ReadBuffer)
    (h : m.run w = some (.ok a, w')) : (calls m).run (w, b) = some (.ok a, (w', b)) := by
  simp only [Attempt.run, calls] at h ⊢
  rw [h]

theorem run_calls_error {m : Calls α} {w w' : World} {e : Stop} (b : ReadBuffer)
    (h : m.run w = some (.error e, w')) :
    (calls m).run (w, b) = some (.error e, (w', b)) := by
  simp only [Attempt.run, calls] at h ⊢
  rw [h]

theorem run_reading_ok {m : Reading α} {b b' : ReadBuffer} {a : α} (w : World)
    (h : m.run b = some (.ok a, b')) : (reading m).run (w, b) = some (.ok (some a), (w, b')) := by
  simp only [Attempt.run, reading] at h ⊢
  rw [h]

/-- A failure of `sessionHandleInMessage` is one of `handleMessage`. -/
theorem run_sessionHandleInMessage {M : Machine} {app : Application} {fuel session data size : ℕ}
    {w : World} {e : Stop} {s : World × ReadBuffer}
    (h : (handleMessage M app fuel session).run
      ({ w with malloc := fun n => w.malloc (2 * n + 1) }, readBuffer M data size w.malloc) =
        some (.error e, s)) :
    (sessionHandleInMessage M app fuel session data size).run w = some (.error e, s.1) := by
  simp only [Attempt.run, sessionHandleInMessage] at h ⊢
  rw [h]

/-! ### The failures -/

section Failures

variable {M : Machine} {app : Application} {fuel session : ℕ} {w : World} {b : ReadBuffer}

/-- The request of a result without elements fails its assertion. -/
theorem run_requestResult_zero (w : World) (session requestId : ℕ) :
    ∃ w', (requestResult session requestId 0).run w = some (.error .aborted, w') := by
  refine ⟨{ w with malloc := fun n => w.malloc (n + 1) }, ?_⟩
  rw [requestResult, Attempt.run_bind_ok rfl]
  rfl

/-- **After the header**, an assertion fails where `Trips` says so. -/
theorem run_dispatch_aborted (app : Application) (fuel requestId arrayCount : ℕ)
    {messageId : ℕ} {σ : Session} (hσ : w.sessions.get session = some σ)
    (hhello : σ.helloFinished = true)
    (hhandlers : w.messageHandler = messageHandlers w.callbacks)
    (htrips : Trips w.callbacks messageId arrayCount) :
    ∃ s, (dispatch M app fuel session messageId requestId arrayCount).run (w, b) =
      some (.error .aborted, s) := by
  unfold dispatch
  rw [Attempt.run_bind_ok (run_calls_ok b (Place.run_read hσ)), hhello, if_neg (by simp),
    Attempt.run_bind_ok (run_calls_ok b rfl), hhandlers]
  obtain rfl | rfl | ⟨rfl, hunsub, rfl⟩ := htrips
  · exact ⟨_, rfl⟩
  · exact ⟨_, rfl⟩
  · obtain ⟨w', hw'⟩ := run_requestResult_zero w session requestId
    have hget : (messageHandlers w.callbacks)[3]? =
        some ⟨.call, "unsubscribe", some .unsubscribe, none, []⟩ := by
      simp [messageHandlers, handleFunctionCall, hunsub]
    rw [hget]
    exact ⟨_, Attempt.run_bind_error (run_calls_error b hw')⟩

end Failures

/-- Handling the message fails no assertion and calls no null pointer, whatever the fuel. -/
def NeverAborts (M : Machine) (app : Application) (session : ℕ) (w : World) (data size : ℕ) :
    Prop :=
  ∀ fuel w', (sessionHandleInMessage M app fuel session data size).run w ≠
    some (.error .aborted, w')

/-- **When no message can trip an assertion**: in every world that can be reached, exactly
the messages of `TripsOn` are not handled to their end because an assertion fails or a null
pointer is called. -/
theorem neverAborts_iff {app : Application} {sizeT : SizeT} {callbacks : Callback → Bool}
    {malloc : ℕ → Bool} {acts : List Act} {w : World}
    (hrun : Transition.Run (World.step app) Transition.anyStep
      (World.create sizeT callbacks malloc) acts w)
    (M : Machine) (session data size : ℕ) :
    NeverAborts M app session w data size ↔ ¬TripsOn M session w data size := by
  have hinv : w.Inv False none none := inv_of_run False.elim hrun
  constructor
  · rintro hnever ⟨σ, hσ, hhello, messageId, requestId, arrayCount, b, hheader, htrips⟩
    obtain ⟨s, hs⟩ := run_dispatch_aborted (M := M) (b := b)
      (w := { w with malloc := fun n => w.malloc (2 * n + 1) }) app 0 requestId _ hσ hhello
      (hinv.messageHandler_eq hσ) htrips
    refine hnever 0 s.1 (run_sessionHandleInMessage ?_)
    rw [handleMessage, Attempt.run_bind_ok (run_reading_ok _ hheader)]
    exact hs
  · intro htrips fuel w' hrun'
    exact htrips ((ensures_sessionHandleInMessage M app fuel session data size w).error
      ⟨rfl, hinv⟩ hrun' rfl)

/-- The run that creates a session and finishes the hello, with `unsubscribe` set. -/
def helloRun : Option World :=
  Transition.execute (World.step fun _ => []) Transition.anyStep
    (World.create .bits64 (fun c => c = .unsubscribe) fun _ => true)
    [.sessionCreate, .message 0 1000 [0x83, 0x01, 0x00, 0xa0] 9]

/-- A run after which there is a session that has seen the hello. -/
theorem exists_helloRun : ∃ w σ,
    Transition.Run (World.step fun _ => []) Transition.anyStep
      (World.create .bits64 (fun c => c = .unsubscribe) fun _ => true)
      [.sessionCreate, .message 0 1000 [0x83, 0x01, 0x00, 0xa0] 9] w ∧
    w.sessions.get 0 = some σ ∧ σ.helloFinished = true ∧
    w.callbacks .unsubscribe = true := by
  have hhello : helloRun.any (fun w => (w.sessions.get 0).any (·.helloFinished) &&
      w.callbacks .unsubscribe) = true := by decide +kernel
  cases hrun : helloRun with
  | none => simp [hrun] at hhello
  | some w =>
    rw [hrun, Option.any_some, Bool.and_eq_true] at hhello
    cases hσ : w.sessions.get 0 with
    | none => simp [hσ] at hhello
    | some σ => exact ⟨w, σ, Transition.run_of_execute hrun, hσ, by simpa [hσ] using hhello⟩

/-- A request to unsubscribe id 7 trips nothing, one to unsubscribe nothing does. -/
theorem neverAborts_unsubscribe : ∃ w,
    NeverAborts (.withMessage .bits64 1000 [0x83, 0x03, 0x05, 0x07]) (fun _ => []) 0 w 1000 4 ∧
    ¬NeverAborts (.withMessage .bits64 1000 [0x82, 0x03, 0x05]) (fun _ => []) 0 w 1000 3 := by
  obtain ⟨w, σ, hrun, hσ, hhello, hunsub⟩ := exists_helloRun
  have hseven (malloc : ℕ → Bool) :
      ((readMessageHeader (.withMessage .bits64 1000 [0x83, 0x03, 0x05, 0x07])).run
        (readBuffer (.withMessage .bits64 1000 [0x83, 0x03, 0x05, 0x07]) 1000 4 malloc)).map
          Prod.fst = some (.ok (3, 5, 1)) := by cbv
  have hnothing (malloc : ℕ → Bool) :
      (readMessageHeader (.withMessage .bits64 1000 [0x82, 0x03, 0x05])).run
        (readBuffer (.withMessage .bits64 1000 [0x82, 0x03, 0x05]) 1000 3 malloc) =
          some (.ok (3, 5, 0), ⟨1003, 1003, fun n => malloc (2 * n), false⟩) := by cbv
  refine ⟨w, (neverAborts_iff hrun _ 0 1000 4).mpr ?_, fun hnever =>
    (neverAborts_iff hrun _ 0 1000 3).mp hnever ⟨σ, hσ, hhello, 3, 5, 0, _, hnothing w.malloc,
      Or.inr (Or.inr ⟨rfl, hunsub, rfl⟩)⟩⟩
  rintro ⟨-, -, -, messageId, requestId, arrayCount, b, hheader, htrips⟩
  have hread := hseven w.malloc
  rw [hheader, Option.map_some] at hread
  obtain ⟨rfl, -, rfl⟩ : messageId = 3 ∧ requestId = 5 ∧ arrayCount = 1 := by
    simpa using hread
  simp [Trips] at htrips

/-- **A handler has no function**: after the hello, the message that has only the id of
`publish` and a request id. -/
theorem aborts_publish : ∃ w σ,
    Transition.Run (World.step fun _ => []) Transition.anyStep
      (World.create .bits64 (fun c => c = .unsubscribe) fun _ => true)
      [.sessionCreate, .message 0 1000 [0x83, 0x01, 0x00, 0xa0] 9] w ∧
    w.sessions.get 0 = some σ ∧ σ.helloFinished = true ∧
    ¬NeverAborts (.withMessage .bits64 1000 [0x82, 0x00, 0x05]) (fun _ => []) 0 w 1000 3 := by
  obtain ⟨w, σ, hrun, hσ, hhello, -⟩ := exists_helloRun
  have hheader (malloc : ℕ → Bool) :
      (readMessageHeader (.withMessage .bits64 1000 [0x82, 0x00, 0x05])).run
        (readBuffer (.withMessage .bits64 1000 [0x82, 0x00, 0x05]) 1000 3 malloc) =
          some (.ok (0, 5, 0), ⟨1003, 1003, fun n => malloc (2 * n), false⟩) := by cbv
  refine ⟨w, σ, hrun, hσ, hhello, fun hnever => ?_⟩
  have hinv : w.Inv False none none := inv_of_run False.elim hrun
  obtain ⟨s, hs⟩ := run_dispatch_aborted (M := .withMessage .bits64 1000 [0x82, 0x00, 0x05])
    (b := ⟨1003, 1003, fun n => w.malloc (2 * n), false⟩)
    (w := { w with malloc := fun n => w.malloc (2 * n + 1) }) (fun _ => []) 0 5 0 hσ hhello
    (hinv.messageHandler_eq hσ) (Or.inl rfl)
  refine hnever 0 s.1 (run_sessionHandleInMessage ?_)
  rw [handleMessage, Attempt.run_bind_ok (run_reading_ok _ (hheader w.malloc))]
  exact hs

end Wpcp
