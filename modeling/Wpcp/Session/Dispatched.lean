import Wpcp.Cbor.MapItems
import Wpcp.Session.Items
import Wpcp.Session.References
import Wpcp.Session.Sending

/-!
# The items of a request are dispatched in isolation

One map array, one context and one cursor serve all items of a request. A request that was
encoded from maps is taken apart again: the header is read (`Wpcp.exists_readMessageHeader`),
a result is made for it (`Wpcp.run_requestResult`), and each round of the loop reads one map
and calls the callback with what that map says and nothing else (`Wpcp.exists_handleItem`).

`Wpcp.Told` says what the callback of one item is given, in terms of its own map alone, and
`Wpcp.Dispatched` that the callbacks of some items are called one after the other. Between two
of them the application does what it likes; what the loop needs of it is that it returns, and
the worlds in which it is called are those of `Wpcp.CallbackIn`.
-/

namespace Wpcp

open Cbor (SizeT Machine ReadBuffer Reading Value StringData KeyValuePair MapItem AdditionalItem
  Head MajorType mapEncoding MovesTo)

variable {M : Machine} {app : Application} {fuel session : ℕ} {handler : MessageHandler}
  {callbackItems : HandleFunctionItems} {messageId requestId result remaining : ℕ}
  {w : World} {b : ReadBuffer} {rest : List UInt8} {hand : Multiset Token}

/-! ### The request -/

/-- Where the loop over the items returns, every callback it has called has returned. -/
theorem CallbackAt.returns {count : ℕ} {ret : Bool} {s : World × ReadBuffer} {w₁ : World}
    (h : CallbackAt M app fuel handler callbackItems messageId result count ret s w₁) {r : Bool}
    {t : World × ReadBuffer}
    (hrun : (handleItems M app fuel handler callbackItems messageId result count ret).run s =
      some (.ok r, t)) : ∃ w₂, (performAll (app w₁)).run w₁ = some (.ok (), w₂) := by
  induction h with
  | @here remaining ret ok w w₁ b b' items subscription read requested =>
    obtain ⟨e, t₁, -, heq⟩ | ⟨ret₁, ⟨w₃, b₃⟩, hround, -⟩ := Attempt.run_bind_eq_some.mp hrun
    · cases heq
    rw [MessageHandler.itemMap] at read
    rw [handleItem, Attempt.run_bind_ok run_readBegin] at hround
    dsimp only at hround
    rw [Attempt.run_bind_ok (run_reading_ok w read)] at hround
    dsimp only at hround
    obtain ⟨-, e, heq, -⟩ | ⟨_, w₂, hassert, hround₂⟩ := run_calls_bind hround
    · cases heq
    obtain rfl := run_assert hassert
    rw [Attempt.run_bind_ok requested] at hround₂
    obtain ⟨-, e, heq, -⟩ | ⟨_, w₄, hcallback, -⟩ := run_calls_bind hround₂
    · cases heq
    obtain ⟨e, t₂, he, -⟩ | ⟨_, w₅, hemit, hperform⟩ := Attempt.run_bind_eq_some.mp hcallback
    · cases he
    obtain ⟨-, rfl⟩ := Prod.mk.inj (Option.some.inj hemit)
    exact ⟨w₄, hperform⟩
  | later round at_ ih =>
    rw [handleItems, Attempt.run_bind_ok round] at hrun
    exact ih hrun

/-- **Where the handling of a message returns, every callback it has called has returned.** -/
theorem CallbackIn.returns {data size : ℕ} {w₁ : World}
    (h : CallbackIn M app fuel session data size w w₁) {r : Bool} {w' : World}
    (hrun : (sessionHandleInMessage M app fuel session data size).run w = some (.ok r, w')) :
    ∃ w₂, (performAll (app w₁)).run w₁ = some (.ok (), w₂) := by
  obtain ⟨messageId, requestId, count, handler, callbackItems, b, result, w₀,
    ⟨⟨σ, hσ, hhello⟩, hheader, hhandler, hfunction, hitems⟩, hresult, hat⟩ := h
  obtain ⟨b', hrun⟩ := handleMessage_of_run hrun
  rw [handleMessage, Attempt.run_bind_ok (run_reading_ok _ hheader)] at hrun
  have hrun : (dispatch M app fuel session messageId requestId count).run _ = _ := hrun
  rw [dispatch, Attempt.run_bind_ok (run_calls_ok b (Place.run_read hσ)), hhello,
    if_neg (by simp), Attempt.run_bind_ok (run_calls_ok b rfl)] at hrun
  simp only [hhandler, hfunction] at hrun
  unfold callHandleFunctionItems at hrun
  rw [hitems] at hrun
  have hcount : count ≠ 0 := by
    rintro rfl
    cases hat
  dsimp only at hrun
  rw [if_pos hcount] at hrun
  obtain ⟨-, e, heq, -⟩ | ⟨_, w₂, hassert, hrun₂⟩ := run_calls_bind hrun
  · cases heq
  obtain rfl := run_assert hassert
  rw [Attempt.run_bind_ok (run_calls_ok b hresult)] at hrun₂
  obtain ⟨e, t, -, heq⟩ | ⟨ret, t, hloop, -⟩ := Attempt.run_bind_eq_some.mp hrun₂
  · cases heq
  exact hat.returns hloop

/-! ### One round -/

/-- What is known of the worlds of a run without allocation failures: the table of
subscriptions is sorted, and references balance. -/
abbrev sound (hand : Multiset Token) (w : World) : Prop := w.IdsFromOne ∧ balance True hand w

attribute [local simp] readBuffer

end Wpcp
