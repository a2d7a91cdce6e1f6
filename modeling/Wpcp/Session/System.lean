import Wpcp.Lib.Run
import Wpcp.Session.Delete

/-!
# Runs of the library

A run starts with `wpcp_create`; then sessions are created, messages arrive for them, in
any memory, the application makes calls, between messages and, as the `Application` it
is, in its callbacks, and sessions are deleted. A step that does not return, because of a pointer to
freed memory or an assertion, is no step of a run.
-/

namespace Wpcp

open Cbor (Machine)

/-- What can happen. -/
inductive Act where
  | sessionCreate
  /-- A message of `size` bytes at `data` arrives for a session; `fuel` bounds the
  nesting and the length of what is read. -/
  | inMessage (session : ℕ) (mem : ℕ → UInt8) (data size fuel : ℕ)
  /-- The application makes a call. -/
  | call (call : Call)
  | sessionDelete (session : ℕ)

/-- A message with these bytes arrives, at an address. -/
def Act.message (session address : ℕ) (bytes : List UInt8) (fuel : ℕ) : Act :=
  .inMessage session (fun a => bytes.getD (a - address) 0) address bytes.length fuel

/-- The world after a call that returns. -/
def Calls.after {α : Type} (m : Calls α) (w : World) : Option World :=
  match m.run w with
  | some (.ok _, w) => some w
  | _ => none

/-- What a call that returns has given. -/
theorem Calls.exists_run_of_after {α : Type} {m : Calls α} {w w' : World}
    (h : m.after w = some w') : ∃ a, m.run w = some (.ok a, w') := by
  unfold Calls.after at h
  split at h
  · obtain rfl := Option.some.inj h
    exact ⟨_, ‹_›⟩
  · exact absurd h nofun

/-- One step. -/
def World.step (app : Application) (w : World) : Act → Option World
  | .sessionCreate => sessionCreate.after w
  | .inMessage session mem data size fuel =>
    (sessionHandleInMessage ⟨w.sizeT, mem⟩ app fuel session data size).after w
  | .call call => call.performLegal.after w
  | .sessionDelete session => (sessionDelete app session).after w

/-! ### A client and an application -/

/-- The application that accepts every subscription and answers every request to
unsubscribe, at once. -/
def acceptAll : Application := fun w =>
  match w.events.getLast? with
  | some (.item _ result _ _ _ (some subscription)) =>
    [.subscribeAccept result none subscription]
  | some (.unsubscribe result _ subscription) => [.unsubscribe result none subscription]
  | _ => []

/-- The application that does nothing in its callbacks. -/
def silent : Application := fun _ => []

/-- A message of the client, at address 1000. -/
def clientMessage (bytes : List UInt8) : Act := .message 0 1000 bytes 9

/-- The messages of the client: hello, and a request that subscribes to `key`. -/
def hello : Act := clientMessage [0x83, 0x01, 0x00, 0xa0]

/-- A subscription to a key of one byte, by the handler of a message id. -/
def subscribe (messageId key : UInt8) : Act :=
  clientMessage [0x83, messageId, 0x01, 0xa1, 0x62, 0x69, 0x64, key]

/-- A request with two items: subscriptions to two keys of one byte. -/
def subscribeBoth (messageId key key' : UInt8) : Act :=
  clientMessage [0x84, messageId, 0x01, 0xa1, 0x62, 0x69, 0x64, key, 0xa1, 0x62, 0x69, 0x64, key']

/-- An item of a request is accepted. -/
def accept (result subscription : ℕ) : Act := .call (.subscribeAccept result none subscription)

/-- A publish on the handle of a subscription. -/
def publish (subscription : ℕ) : Act :=
  .call (.publish (.subscription subscription) (.data (some .null) 0 0 []))

/-- The next message is taken out. -/
def takeOut : Act := .call (.outMessageCreate 0)

/-- A request to unsubscribe an id. -/
def unsubscribe (id : UInt8) : Act := clientMessage [0x83, 0x03, 0x01, id]

/-- The callbacks for subscriptions to data. -/
def subscriptionCallbacks (c : Callback) : Bool := c = .items .subscribeData ∨ c = .unsubscribe

/-- The session after some acts, with `acceptAll` and the subscribe callback. -/
def sessionAfter (callbacks : Callback → Bool) (acts : List Act) : Option (World × Session) :=
  (Transition.execute (World.step acceptAll) Transition.anyStep
    (World.create .bits64 callbacks fun _ => true) acts).bind fun w =>
      (w.sessions.get 0).map fun σ => (w, σ)

/-- What has been computed is a run. -/
theorem run_of_sessionAfter {callbacks : Callback → Bool} {acts : List Act} {w : World}
    {σ : Session} (h : sessionAfter callbacks acts = some (w, σ)) :
    Transition.Run (World.step acceptAll) Transition.anyStep
      (World.create .bits64 callbacks fun _ => true) acts w ∧ w.sessions.get 0 = some σ := by
  obtain ⟨w', hw', hmap⟩ := Option.bind_eq_some_iff.mp h
  obtain ⟨σ', hσ', heq⟩ := Option.map_eq_some_iff.mp hmap
  obtain ⟨rfl, rfl⟩ := Prod.mk.inj heq
  exact ⟨Transition.run_of_execute hw', hσ'⟩

end Wpcp
