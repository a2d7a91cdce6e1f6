import Wpcp.Session.Backing
import Wpcp.Session.Messages

/-!
# What is asserted of each object

What goes into a message lies in four kinds of objects: in the output buffers of results and of
data blocks, in the queued messages of sessions and in the entries that wait to be published. An
assertion of each kind (`Wpcp.Traits`) is kept by most functions of the library because they only
move the objects; **and a message that is handed out is made of objects that have them**
(`Wpcp.Event.MadeOf`), byte by byte.
-/

namespace Wpcp

open Cbor (SizeT WriteBuffer)

/-! ### Traits -/

/-- What the size of a message depends on, besides its buffers, is the same. -/
def World.SameSizes (w₀ w : World) : Prop :=
  w.sizeT = w₀.sizeT ∧ w.outMessagePrePadding = w₀.outMessagePrePadding ∧
    w.outMessagePostPadding = w₀.outMessagePostPadding

theorem World.SameSizes.allocated {w₀ w : World} (h : w₀.SameSizes w) :
    w.queuedAllocated = w₀.queuedAllocated ∧ w.publishAllocated = w₀.publishAllocated := by
  obtain ⟨hsizeT, hpre, hpost⟩ := h
  constructor <;> funext n
  · rw [queuedAllocated, queuedAllocated, outMessageAllocated, outMessageAllocated, hsizeT, hpre,
      hpost]
  · rw [publishAllocated, publishAllocated, outMessageAllocated, outMessageAllocated, hsizeT, hpre,
      hpost]

/-- An assertion of the results, of the output buffers of the data blocks, of the queued
messages, and of the entries, with a world that says the sizes. -/
structure Traits where
  start : World
  result : ℕ → Result → Prop
  data : ℕ → WriteBuffer → Prop
  message : QueuedOutMessage → Prop
  entry : Entry → Prop

/-- Results have their traits whatever they have accepted, and give up their sessions. -/
structure Traits.Closed (K : Traits) : Prop where
  entries : ∀ r ret, K.result r ret → ∀ e ∈ ret.entries, K.entry e
  blocked : ∀ r ret blocked granted, K.result r ret →
    (∀ e ∈ Result.entries { ret with blockedItems := blocked }, K.entry e) →
    K.result r { ret with blockedItems := blocked, granted := granted }
  orphan : ∀ r ret, K.result r ret → K.result r { ret with session := none }

/-- What the second loop of `wpcp_session_out_message_create` writes for an entry. -/
def entryBytes (e : Entry) (buffer : WriteBuffer) : List UInt8 :=
  Cbor.writeUnsignedInteger e.subscriptionid ++ buffer.writeWriteBuffer.getD []

/-- What the first loop counts for some buffers. -/
def publishedSize (sizeT : SizeT) (buffers : List WriteBuffer) : ℕ :=
  (buffers.map fun buffer => 1 + 4 + buffer.usedSize).sum % sizeT.count

/-- A PUBLISH message that is built from entries and the output buffers of their data blocks. -/
def publishOutData (allocated : ℕ) (entries : List Entry) (buffers : List WriteBuffer) : OutData :=
  let written := outMessageHeader .publish 0 (entries.length * 2 % 2 ^ 32) ++
    (List.zipWith entryBytes entries buffers).flatten
  { allocated := allocated
    data := written.map some
    length := if buffers.all (·.writeWriteBuffer.isSome) then some written.length else none }

/-- Entries with the output buffers of their data blocks. -/
def Traits.Publishes (K : Traits) : List Entry → List WriteBuffer → Prop :=
  List.Forall₂ fun e buffer => K.entry e ∧ K.data e.data buffer

/-- **A message that is handed out is made of what was queued, or of what was published.** -/
def Event.MadeOf (K : Traits) : Event → Prop
  | .handedOut _ (.queued _) contents data =>
    ∃ message, K.message message ∧ contents = [message.content] ∧
      data = message.outData (K.start.queuedAllocated message.usedSize)
  | .handedOut _ (.publish entries) contents data =>
    ∃ buffers, K.Publishes entries buffers ∧
      contents = buffers.map WriteBuffer.writeWriteBuffer ∧
      data = publishOutData (K.start.publishAllocated (publishedSize K.start.sizeT buffers))
        entries buffers ∧ data.data.length ≤ data.allocated
  | _ => True

/-- All objects have their traits. -/
structure World.Has (K : Traits) (w : World) : Prop where
  result : ∀ r ret, w.results.get r = some ret → K.result r ret
  data : ∀ d block, w.publishData.get d = some block → K.data d block.outputBuffer
  message : ∀ s σ, w.sessions.get s = some σ → ∀ m ∈ σ.out.messages, K.message m
  entry : ∀ s σ, w.sessions.get s = some σ → ∀ e ∈ σ.out.publishQueue, K.entry e
  event : ∀ e ∈ w.events, e.MadeOf K
  sizes : K.start.SameSizes w

variable {K : Traits} {w : World}

/-- An event that hands nothing out. -/
def Event.isQuiet : Event → Bool
  | .handedOut .. => false
  | _ => true

theorem Event.madeOf_of_isQuiet {event : Event} (h : event.isQuiet = true) : event.MadeOf K := by
  cases event with
  | handedOut => exact absurd h nofun
  | _ => trivial

namespace World.Has

/-- Only results, data blocks, sessions, events and sizes matter. -/
theorem congr {w' : World} (h : w.Has K) (hresults : w'.results = w.results)
    (hdata : w'.publishData = w.publishData) (hsessions : w'.sessions = w.sessions)
    (hevents : w'.events = w.events) (hsizes : w.SameSizes w') : w'.Has K := by
  obtain ⟨hresult, hblock, hmessage, hentry, hevent, hsame⟩ := h
  rw [← hresults] at hresult
  rw [← hdata] at hblock
  rw [← hsessions] at hmessage hentry
  rw [← hevents] at hevent
  exact ⟨hresult, hblock, hmessage, hentry, hevent, hsizes.1.trans hsame.1,
    hsizes.2.1.trans hsame.2.1, hsizes.2.2.trans hsame.2.2⟩

theorem emit (h : w.Has K) {event : Event} (hevent : event.MadeOf K) (owed : List Owed) :
    World.Has K { w with events := w.events ++ [event], owed := owed } := by
  refine ⟨h.result, h.data, h.message, h.entry, List.forall_mem_append.mpr ⟨h.event, ?_⟩, h.sizes⟩
  intro e he
  obtain rfl := List.mem_singleton.mp he
  exact hevent

theorem setResult (h : w.Has K) {r : ℕ} {ret ret' : Result} (hr : w.results.get r = some ret)
    (hret : K.result r ret') : World.Has K { w with results := w.results.set r ret' } := by
  refine ⟨fun q ret₁ hq => ?_, h.data, h.message, h.entry, h.event, h.sizes⟩
  have hq : (w.results.set r ret').get q = some ret₁ := hq
  rw [Heap.get_set hr] at hq
  split at hq
  · rename_i heq
    obtain rfl := Option.some.inj hq
    exact heq ▸ hret
  · exact h.result q ret₁ hq

theorem freeResult (h : w.Has K) (r : ℕ) :
    World.Has K { w with results := w.results.free r } :=
  ⟨fun q ret hq => h.result q ret (Heap.get_of_get_free hq).2, h.data, h.message, h.entry,
    h.event, h.sizes⟩

theorem newResult (h : w.Has K) {ret : Result} (hret : K.result w.results.next ret) :
    World.Has K { w with results := w.results.alloc ret } := by
  refine ⟨fun q ret₁ hq => ?_, h.data, h.message, h.entry, h.event, h.sizes⟩
  have hq : (w.results.alloc ret).get q = some ret₁ := hq
  rw [Heap.get_alloc] at hq
  split at hq
  · rename_i heq
    obtain rfl := Option.some.inj hq
    exact heq ▸ hret
  · exact h.result q ret₁ hq

theorem newData (h : w.Has K) {block : PublishQueueItemData}
    (hblock : K.data w.publishData.next block.outputBuffer) :
    World.Has K { w with publishData := w.publishData.alloc block } := by
  refine ⟨h.result, fun d₁ block₁ hd₁ => ?_, h.message, h.entry, h.event, h.sizes⟩
  have hd₁ : (w.publishData.alloc block).get d₁ = some block₁ := hd₁
  rw [Heap.get_alloc] at hd₁
  split at hd₁
  · rename_i heq
    obtain rfl := Option.some.inj hd₁
    exact heq ▸ hblock
  · exact h.data d₁ block₁ hd₁

theorem setSession (h : w.Has K) {s : ℕ} {σ σ' : Session} (hσ : w.sessions.get s = some σ)
    (hmessage : ∀ m ∈ σ'.out.messages, K.message m)
    (hentry : ∀ e ∈ σ'.out.publishQueue, K.entry e) :
    World.Has K { w with sessions := w.sessions.set s σ' } := by
  have hget : ∀ t τ, (w.sessions.set s σ').get t = some τ →
      τ = σ' ∨ w.sessions.get t = some τ := by
    intro t τ hτ
    rw [Heap.get_set hσ] at hτ
    split at hτ
    · exact Or.inl (Option.some.inj hτ).symm
    · exact Or.inr hτ
  refine ⟨h.result, h.data, fun t τ hτ => ?_, fun t τ hτ => ?_, h.event, h.sizes⟩
  · rcases hget t τ hτ with rfl | hτ
    · exact hmessage
    · exact h.message t τ hτ
  · rcases hget t τ hτ with rfl | hτ
    · exact hentry
    · exact h.entry t τ hτ

theorem setTable (h : w.Has K) {s : ℕ} {σ σ' : Session} (hσ : w.sessions.get s = some σ)
    (hout : σ'.out = σ.out) : World.Has K { w with sessions := w.sessions.set s σ' } := by
  refine h.setSession hσ ?_ ?_
  · rw [hout]
    exact h.message s σ hσ
  · rw [hout]
    exact h.entry s σ hσ

theorem freeSession (h : w.Has K) (s : ℕ) :
    World.Has K { w with sessions := w.sessions.free s } :=
  ⟨h.result, h.data, fun t τ hτ => h.message t τ (Heap.get_of_get_free hτ).2,
    fun t τ hτ => h.entry t τ (Heap.get_of_get_free hτ).2, h.event, h.sizes⟩

theorem newSession (h : w.Has K) :
    World.Has K { w with sessions := w.sessions.alloc .create } := by
  have hget : ∀ t τ, (w.sessions.alloc .create).get t = some τ →
      τ = .create ∨ w.sessions.get t = some τ := by
    intro t τ hτ
    rw [Heap.get_alloc] at hτ
    split at hτ
    · exact Or.inl (Option.some.inj hτ).symm
    · exact Or.inr hτ
  refine ⟨h.result, h.data, fun t τ hτ => ?_, fun t τ hτ => ?_, h.event, h.sizes⟩
  · rcases hget t τ hτ with rfl | hτ
    · exact nofun
    · exact h.message t τ hτ
  · rcases hget t τ hτ with rfl | hτ
    · exact nofun
    · exact h.entry t τ hτ

theorem ignoresTable (hK : K.Closed) : IgnoresTable (World.Has K) where
  malloc _ _ h := h.congr rfl rfl rfl rfl ⟨rfl, rfl, rfl⟩
  subscriptionTable _ _ h := h.congr rfl rfl rfl rfl ⟨rfl, rfl, rfl⟩
  subscriptions _ _ h := h.congr rfl rfl rfl rfl ⟨rfl, rfl, rfl⟩
  referencesPeak _ _ h := h.congr rfl rfl rfl rfl ⟨rfl, rfl, rfl⟩
  itemLinks _ _ h := h.congr rfl rfl rfl rfl ⟨rfl, rfl, rfl⟩
  freeItem _ _ h := h.congr rfl rfl rfl rfl ⟨rfl, rfl, rfl⟩
  newItem _ _ h := h.congr rfl rfl rfl rfl ⟨rfl, rfl, rfl⟩
  events w event hevent h := by
    refine World.Has.emit h (Event.madeOf_of_isQuiet ?_) w.owed
    cases event <;> first | rfl | exact absurd hevent nofun
  sessions _ _ _ _ hσ hsame h := by
    obtain ⟨items, next, rfl⟩ := hsame
    exact h.setTable hσ rfl
  results _ r ret _ hr hsame h := by
    obtain ⟨hentries, blocked, granted, rfl⟩ := hsame
    refine h.setResult hr (hK.blocked r ret blocked granted (h.result r ret hr) fun e he => ?_)
    exact hK.entries r ret (h.result r ret hr) e (hentries ▸ he)

end World.Has

/-! ### What only moves objects -/

variable {s : ℕ}

end Wpcp
