import Wpcp.Session.Backing

/-!
# The last use of a data block

The entries of a publish lie inside the data block that they are for, so that with the last
reference to the block they are gone as well. Three loops read entries and give their references
up: the one that builds a PUBLISH message, the one over the publish queue of a session that ends,
and the one over what has waited with a result whose session is gone. In each an entry is read,
its link included, right before its reference is given up; so what has to be shown of a loop is
that every round finds the block of its entry (`Wpcp.World.Drops`). **A block is released with
the last of its entries, no sooner and no later** (`Wpcp.usedOnce_of_run`).
-/

namespace Wpcp

variable {α : Type} {w : World}

/-! ### Loops over entries -/

/-- **A loop drops entries**: it returns, each data block counts so many references less as it has
entries among these, and those are released that have no other entry. -/
def World.Drops (w : World) (entries : List Entry) (m : Calls α) : Prop :=
  ∃ a heap, m.run w = some (.ok a, { w with publishData := heap }) ∧
    ∀ data, dataReferences heap data + Wpcp.uses entries data =
        dataReferences w.publishData data ∧
      (heap.get data = none ↔ w.uses data = Wpcp.uses entries data)

/-- A data block that counts no reference has been released. -/
theorem get_eq_none_iff {heap : Heap PublishQueueItemData} (h : ReferencesPos heap) (data : ℕ) :
    heap.get data = none ↔ dataReferences heap data = 0 := by
  constructor
  · intro hnone
    rw [dataReferences, hnone]
    rfl
  · intro hzero
    rcases hd : heap.get data with _ | d
    · rfl
    · rw [dataReferences, hd, Option.elim_some] at hzero
      exact absurd hzero (h data d hd).ne'

/-- What is known of the output buffers survives. -/
theorem leaves_publishQueueItemDeref_buffer {B : ℕ → Cbor.WriteBuffer → Prop} (data : ℕ) :
    Leaves (fun w => ∀ k d, w.publishData.get k = some d → B k d.outputBuffer)
      (publishQueueItemDeref data) := by
  refine .read_bind fun d => .ite (fun _ => Place.ensures_write trivial ?_) fun _ =>
    Place.ensures_free trivial ?_
  · rintro w - ⟨hd, h⟩ - k d' hk
    have hk : (w.publishData.set data _).get k = some d' := hk
    rw [Heap.get_set hd] at hk
    split at hk
    · rename_i heq
      obtain rfl := Option.some.inj hk
      exact heq ▸ h data d hd
    · exact h k d' hk
  · rintro w - ⟨-, h⟩ - k d' hk
    exact h k d' (Heap.get_of_get_free hk).2

/-- The size of a message is read off its entries. -/
theorem run_publishSize {entries : List Entry}
    (h : ∀ e ∈ entries, 0 < dataReferences w.publishData e.data) :
    ∃ size, (publishSize entries).run w = some (.ok size, w) := by
  induction entries with
  | nil => exact ⟨0, rfl⟩
  | cons e next ih =>
    obtain ⟨size, hsize⟩ := ih fun e' he' => h e' (List.mem_cons_of_mem _ he')
    rcases hd : w.publishData.get e.data with _ | d
    · have hpos := h e List.mem_cons_self
      rw [dataReferences, hd] at hpos
      exact absurd hpos (Nat.lt_irrefl 0)
    · exact ⟨_, (Attempt.run_bind_ok (Place.run_read hd)).trans
        ((Attempt.run_bind_ok hsize).trans rfl)⟩

/-- **A PUBLISH message is written** and drops its entries, as long as no buffer but the last one
is broken: behind a broken buffer there is no place to write to. -/
theorem run_writePublish {entries : List Entry} {dest : PublishDest} (hvalid : dest.valid = true)
    (h : ∀ data, uses entries data ≤ dataReferences w.publishData data)
    (hbuffer : ∀ e ∈ entries.dropLast, ∀ d, w.publishData.get e.data = some d →
      d.outputBuffer.writeWriteBuffer.isSome = true) :
    ∃ dest' heap, (writePublish dest entries).run w =
        some (.ok dest', { w with publishData := heap }) ∧
      (∀ k, dataReferences heap k + uses entries k = dataReferences w.publishData k) ∧
      (ReferencesPos w.publishData → ReferencesPos heap) := by
  induction entries generalizing w dest with
  | nil => exact ⟨dest, w.publishData, rfl, fun _ => rfl, id⟩
  | cons e next ih =>
    have hpos : 0 < dataReferences w.publishData e.data := by
      refine lt_of_lt_of_le ?_ (h e.data)
      rw [uses_cons, if_pos rfl]
      exact Nat.succ_pos _
    obtain ⟨heap, hrun, hrefs, hheap⟩ := run_publishQueueItemDeref hpos
    obtain ⟨d, hd⟩ : ∃ d, w.publishData.get e.data = some d := by
      rcases hd : w.publishData.get e.data with _ | d
      · rw [dataReferences, hd] at hpos
        exact absurd hpos (Nat.lt_irrefl 0)
      · exact ⟨d, rfl⟩
    have hround : ∀ {f : Calls PublishDest}, (do
        publishQueueItemDeref e.data
        f).run w = f.run { w with publishData := heap } := fun {f} => Attempt.run_bind_ok hrun
    let dest₁ : PublishDest :=
      { written := dest.written ++ Cbor.writeUnsignedInteger e.subscriptionid ++
          d.outputBuffer.writeWriteBuffer.getD []
        valid := d.outputBuffer.writeWriteBuffer.isSome
        contents := dest.contents ++ [d.outputBuffer.writeWriteBuffer] }
    have hread : (writePublish dest (e :: next)).run w =
        (writePublish dest₁ next).run { w with publishData := heap } := by
      rw [writePublish, if_pos hvalid]
      exact (Attempt.run_bind_ok (Place.run_read hd)).trans hround
    rcases next with _ | ⟨e', next⟩
    · refine ⟨_, heap, hread.trans rfl, fun k => ?_, hheap⟩
      have heq := hrefs k
      rw [uses_cons]
      simpa [uses] using heq
    -- the next round finds what this one leaves
    have hvalid' : d.outputBuffer.writeWriteBuffer.isSome = true :=
      hbuffer e List.mem_cons_self d hd
    have hnext : ∀ data, uses (e' :: next) data ≤ dataReferences heap data := by
      intro data
      have hle := h data
      have heq := hrefs data
      rw [uses_cons] at hle
      omega
    have hbuffer' := (leaves_publishQueueItemDeref_buffer (B := fun k buffer =>
      (∃ e'' ∈ (e' :: next).dropLast, e''.data = k) → buffer.writeWriteBuffer.isSome = true)
      e.data w ?_ _ _ hrun).1 () rfl
    · obtain ⟨dest', heap', hrun', hrefs', hheap'⟩ := @ih { w with publishData := heap } dest₁
        hvalid' hnext fun e'' he'' d' hd' => hbuffer' e''.data d' hd' ⟨e'', he'', rfl⟩
      refine ⟨dest', heap', hread.trans hrun', fun k => ?_, fun hw => hheap' (hheap hw)⟩
      have heq := hrefs k
      have heq' : dataReferences heap' k + _ = dataReferences heap k := hrefs' k
      rw [uses_cons]
      omega
    · rintro k d' hk ⟨e'', he'', rfl⟩
      exact hbuffer e'' (List.mem_cons_of_mem _ he'') d' hk

/-! ### In every run -/

/-- **What is shared is used until its last use**: the data blocks count the entries there are,
those without an entry have been released and no others, and each of the three loops finds the
blocks of its entries. -/
structure World.UsedOnce (w : World) : Prop where
  references : ∀ data d, w.publishData.get data = some d → d.referencesActual = w.uses data
  released : ∀ data, w.publishData.get data = none ↔ w.uses data = 0
  ends : ∀ s σ, w.sessions.get s = some σ →
    w.Drops σ.out.publishQueue (publishQueueItemsDeref σ.out.publishQueue)
  completes : ∀ r ret, w.results.get r = some ret →
    w.Drops ret.entries (publishQueueItemsDeref ret.entries)
  sends : ∀ s σ n, w.sessions.get s = some σ →
    (∃ size, (publishSize (σ.out.publishQueue.take n)).run w = some (.ok size, w)) ∧
      ∀ dest : PublishDest, dest.valid = true →
        (∀ e ∈ (σ.out.publishQueue.take n).dropLast, ∀ d, w.publishData.get e.data = some d →
          d.outputBuffer.writeWriteBuffer.isSome = true) →
        w.Drops (σ.out.publishQueue.take n) (writePublish dest (σ.out.publishQueue.take n))

/-- What drops entries that are counted releases the blocks of which it drops all that are left. -/
theorem World.Covered.drops (h : w.AllCovered) {entries : List Entry} {m : Calls α}
    (hrun : ∃ a heap, m.run w = some (.ok a, { w with publishData := heap }) ∧
      (∀ k, dataReferences heap k + Wpcp.uses entries k = dataReferences w.publishData k) ∧
      (ReferencesPos w.publishData → ReferencesPos heap)) : w.Drops entries m := by
  obtain ⟨a, heap, hrun, hrefs, hpos⟩ := hrun
  refine ⟨a, heap, hrun, fun data => ⟨hrefs data, ?_⟩⟩
  have hcount := h.count data
  have heq := hrefs data
  rw [get_eq_none_iff (hpos h.pos)]
  simp only [Pi.zero_apply] at hcount
  omega

theorem World.Covered.usedOnce (h : w.AllCovered) : w.UsedOnce where
  references data d hd := by
    have hcount := h.count data
    rw [dataReferences, hd] at hcount
    exact hcount.symm
  released data := by
    rw [get_eq_none_iff h.pos]
    have hcount : w.uses data = dataReferences w.publishData data := h.count data
    rw [hcount]
  ends s σ hσ := by
    obtain ⟨heap, hrun⟩ := run_publishQueueItemsDeref (h.uses_publishQueue_le hσ)
    exact h.drops ⟨(), heap, hrun⟩
  completes r ret hr := by
    obtain ⟨heap, hrun⟩ := run_publishQueueItemsDeref (h.uses_entries_le hr)
    exact h.drops ⟨(), heap, hrun⟩
  sends s σ n hσ := by
    have htake : ∀ data, Wpcp.uses (σ.out.publishQueue.take n) data ≤
        dataReferences w.publishData data := fun data =>
      ((List.take_sublist n _).countP_le).trans (h.uses_publishQueue_le hσ data)
    refine ⟨run_publishSize fun e he => lt_of_lt_of_le ?_ (htake e.data), fun dest hvalid hbuffer =>
      h.drops (run_writePublish hvalid htake hbuffer)⟩
    exact List.countP_pos_iff.mpr ⟨e, he, by simp⟩

/-- **In every run each data block counts its entries and is released exactly with the last of
them**, and no loop comes to an entry of a block that has been released. -/
theorem usedOnce_of_run {app : Application} {sizeT : Cbor.SizeT} {callbacks : Callback → Bool}
    {malloc : ℕ → Bool} {acts : List Act}
    (hrun : Transition.Run (World.step app) Transition.anyStep
      (World.create sizeT callbacks malloc) acts w) : w.UsedOnce :=
  (covered_of_run hrun).usedOnce

/-- Two sessions with a subscription in common, one of which still has an item to answer, are
published to, and the other one is deleted: the entry that is held back is the last one. -/
theorem usedOnce_heldBack : ∃ w,
    Transition.Run (World.step silent) Transition.anyStep
      (World.create .bits64 subscriptionCallbacks fun _ => true)
      [.sessionCreate, hello, .sessionCreate, .message 1 1000 [0x83, 0x01, 0x00, 0xa0] 9,
        subscribe 4 1, accept 0 0, .message 1 1000 [0x84, 4, 0x01, 0xa1, 0x62, 0x69, 0x64, 1,
          0xa1, 0x62, 0x69, 0x64, 2] 9, accept 1 0, publish 0, .sessionDelete 0] w ∧
    (w.publishData.get 0).any (fun d => d.referencesActual = 1) = true ∧ w.UsedOnce := by
  have hrun : (Transition.execute (World.step silent) Transition.anyStep
      (World.create .bits64 subscriptionCallbacks fun _ => true)
      [.sessionCreate, hello, .sessionCreate, .message 1 1000 [0x83, 0x01, 0x00, 0xa0] 9,
        subscribe 4 1, accept 0 0, .message 1 1000 [0x84, 4, 0x01, 0xa1, 0x62, 0x69, 0x64, 1,
          0xa1, 0x62, 0x69, 0x64, 2] 9, accept 1 0, publish 0, .sessionDelete 0]).any
      (fun w => (w.publishData.get 0).any fun d => d.referencesActual = 1) = true := by
    decide +kernel
  obtain ⟨w, hw, hfacts⟩ := (Option.any_eq_true _ _).mp hrun
  have hw := Transition.run_of_execute hw
  exact ⟨w, hw, hfacts, usedOnce_of_run hw⟩

end Wpcp
