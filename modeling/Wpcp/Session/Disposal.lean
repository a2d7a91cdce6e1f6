import Wpcp.Session.Ahead
import Wpcp.Session.Backing
import Wpcp.Session.OutLinks

/-!
# What a session leaves behind when it is deleted

`wpcp_session_delete` frees the messages of the session from the head of the list on until
it comes to the marker, and drops each entry of the publish queue. The second is all there
is of the entries. The first reaches the messages ahead of the marker only: what is linked
behind it is not freed, and a message that an append has put into one that is no more is
linked nowhere.

So **a session disposes of all its output in every state of a run exactly if every append of
the run links its message ahead of the marker** (`Wpcp.OutSystem.disposes_run_iff`); one
publish with free slots before the first append is enough to lose that message
(`Wpcp.OutSystem.not_disposes`).
-/

namespace Wpcp

open Linked (IsPath)
open Cbor (SizeT)

/-! ### The loop over the queued messages -/

section Loop

variable {next : ℕ → OutLink} {freed l r : List ℕ} {p : OutLink} {fuel : ℕ}

/-- The loop frees the messages of the list, if it meets none that has been freed. -/
theorem freeQueuedOutMessages_of_isPath (hpath : IsPath next p l) (hfuel : l.length ≤ fuel)
    (hnodup : l.Nodup) (hfresh : ∀ m ∈ l, m ∉ freed) :
    freeQueuedOutMessages next fuel freed p = some (l.reverse ++ freed) := by
  induction l generalizing p freed fuel with
  | nil =>
    obtain rfl : p = none := hpath
    cases fuel with
    | zero => rfl
    | succ fuel => rfl
  | cons m l ih =>
    obtain ⟨rfl, hpath⟩ := hpath
    obtain ⟨hm, hnodup⟩ := List.nodup_cons.mp hnodup
    cases fuel with
    | zero => simp at hfuel
    | succ fuel =>
      rw [freeQueuedOutMessages, if_neg (hfresh m List.mem_cons_self),
        ih hpath (by simpa using hfuel) hnodup ?_, List.reverse_cons, List.append_assoc,
        List.singleton_append]
      intro k hk hmem
      rcases List.mem_cons.mp hmem with rfl | hmem
      · exact hm hk
      · exact hfresh k (List.mem_cons_of_mem _ hk) hmem

/-- What the loop has freed when it comes to the marker is a list from the head to it, of
messages that had not been freed. -/
theorem exists_isPath_of_freeQueuedOutMessages
    (h : freeQueuedOutMessages next fuel freed p = some r) :
    ∃ l, IsPath next p l ∧ r = l.reverse ++ freed ∧ l.length ≤ fuel ∧ ∀ m ∈ l, m ∉ freed := by
  induction fuel generalizing p freed with
  | zero =>
    cases p with
    | none => exact ⟨[], rfl, (Option.some.inj h).symm, Nat.le_refl _, nofun⟩
    | some m => exact absurd h nofun
  | succ fuel ih =>
    cases p with
    | none => exact ⟨[], rfl, (Option.some.inj h).symm, Nat.zero_le _, nofun⟩
    | some m =>
      rw [freeQueuedOutMessages] at h
      split at h
      · exact absurd h nofun
      · rename_i hm
        obtain ⟨l, hpath, rfl, hlength, hfresh⟩ := ih h
        refine ⟨m :: l, ⟨rfl, hpath⟩, by simp, Nat.succ_le_succ hlength, fun k hk => ?_⟩
        rcases List.mem_cons.mp hk with rfl | hk
        · exact hm
        · exact fun hmem => hfresh k hk (List.mem_cons_of_mem _ hmem)

end Loop

namespace OutSystem

section Messages

variable {ρ ε : Type} {S T : OutSystem ρ ε} {op : OutOp ρ ε}

/-- **The first loop frees each message that is pending once, and no other.** -/
def FreesPending (S : OutSystem ρ ε) : Prop :=
  ∃ freed : List ℕ, freeQueuedOutMessages S.session.next (S.session.messages.length + 1)
      S.handedOutMessages S.session.queuedOutMessages = some (freed ++ S.handedOutMessages) ∧
    freed.Nodup ∧ ∀ m, m ∈ freed ↔ S.Pending m

theorem length_ahead_le (S : OutSystem ρ ε) :
    S.session.ahead.length ≤ S.session.messages.length := by
  suffices h : ∀ next n (p : OutLink), (Linked.walk next n p).length ≤ n from h _ _ _
  intro next n
  induction n with
  | zero => exact fun p => Nat.le_refl 0
  | succ n ih =>
    rintro (_ | m)
    · exact Nat.zero_le _
    · exact Nat.succ_le_succ (ih _)

/-- **The messages that are freed are those ahead of the marker.** -/
theorem LinksForward.freesPending_iff (h : S.LinksForward) :
    S.FreesPending ↔ ∀ m, m ∈ S.session.ahead ↔ S.Pending m := by
  constructor
  · rintro ⟨freed, hrun, -, hmem⟩ m
    obtain ⟨l, hpath, heq, -⟩ := exists_isPath_of_freeQueuedOutMessages hrun
    obtain rfl := h.ahead_eq hpath
    rw [← hmem, List.append_cancel_right heq, List.mem_reverse]
  · intro hmem
    refine ⟨S.session.ahead.reverse, freeQueuedOutMessages_of_isPath h.isPath_ahead
      (Nat.le_succ_of_le S.length_ahead_le) h.ahead_pairwise.nodup fun m hm =>
        ((hmem m).mp hm).2, List.nodup_reverse.mpr h.ahead_pairwise.nodup, fun m => ?_⟩
    rw [List.mem_reverse]
    exact hmem m

/-- The call does not append a message anywhere but ahead of the marker. -/
def QueuesAhead (S : OutSystem ρ ε) : OutOp ρ ε → Prop
  | .append _ => S.AppendsAhead
  | _ => True

/-- **The messages ahead of the marker are those that are pending**, the marker has no link,
and at the head is only appended to an empty list. -/
structure AllAhead (S : OutSystem ρ ε) : Prop where
  links : S.LinksForward
  pending : ∀ m, m ∈ S.session.ahead ↔ S.Pending m
  marker : S.session.publishItemNext = none
  head : S.session.queuedOutMessageInsertLocation = .queuedOutMessages →
    S.session.queuedOutMessages = none

theorem allAhead_create : AllAhead (create : OutSystem ρ ε) where
  links := linksForward_create
  pending _ := ⟨nofun, fun h => absurd h.1 (Nat.not_lt_zero _)⟩
  marker := rfl
  head _ := rfl

theorem AllAhead.append (h : S.AllAhead) (hahead : S.AppendsAhead) (content : ρ) :
    AllAhead { S with session := S.session.sessionAppendOutMessage true content } where
  links := h.links.append content
  pending := by
    intro m
    rw [pending_append content m h.links.handedOut, ← h.pending]
    rcases hahead with hloc | ⟨last, hlast, hloc⟩
    · have hnil : S.session.ahead = [] := by
        refine h.links.ahead_eq ?_
        rw [h.head hloc]
        rfl
      rw [h.links.ahead_append_head content hloc, hnil]
      simp
    · rw [h.links.ahead_append_last content hlast hloc]
      simp
  marker := by
    rw [OutState.publishItemNext_append, if_neg, h.marker]
    rcases hahead with hloc | ⟨last, -, hloc⟩
    · simp [hloc]
    · simp [hloc]
  head := by simp

theorem AllAhead.publish (h : S.AllAhead) (first : ε) (rest : List ε) :
    AllAhead { S with session := S.session.sessionPublishQueueAppend first rest } where
  links := h.links.publish first rest
  pending := by
    intro m
    rw [pending_publishQueueAppend, ahead_publish]
    exact h.pending m
  marker := by simpa using h.marker
  head := by
    intro hloc
    rw [OutState.insertLocation_publishQueueAppend] at hloc
    rw [OutState.queuedOutMessages_publishQueueAppend]
    split at hloc
    · simp at hloc
    · exact h.head hloc

theorem AllAhead.create (h : S.AllAhead) (hst : S.step .create = some T) : T.AllAhead := by
  have hlinks := h.links.create hst
  obtain ⟨m, hm, hT⟩ | ⟨hm, -, -, hT⟩ := step_create h.links.kill hst
  · have hahead := h.links.ahead_queued hm hst
    have hnodup := h.links.ahead_pairwise.nodup
    rw [hahead, List.nodup_cons] at hnodup
    refine ⟨hlinks, fun k => ?_, by rw [hT]; exact h.marker, fun hloc => ?_⟩
    · have hpending : T.Pending k ↔ S.Pending k ∧ k ≠ m := by
        rw [hT]
        exact pending_queued rfl
      rw [hpending, ← h.pending, hahead, List.mem_cons]
      constructor
      · intro hk
        refine ⟨.inr hk, ?_⟩
        rintro rfl
        exact hnodup.1 hk
      · rintro ⟨rfl | hk, hne⟩
        · exact absurd rfl hne
        · exact hk
    · rw [hT] at hloc ⊢
      dsimp only at hloc ⊢
      split at hloc
      · rename_i hlast
        exact hlast.1
      · exact absurd (h.head hloc) (by simp [hm])
  · have hnone : T.session.queuedOutMessages = none := by
      rw [hT]
      exact h.marker
    refine ⟨hlinks, fun k => ?_, by rw [hT]; exact h.marker, fun _ => hnone⟩
    have hpending : T.Pending k ↔ S.Pending k := by
      rw [hT]
      exact pending_publish rfl
    have hT : T.session.ahead = [] := hlinks.ahead_eq (by rw [hnone]; rfl)
    have hS : S.session.ahead = [] := h.links.ahead_eq (by rw [hm]; rfl)
    rw [hpending, ← h.pending, hT, hS]

/-- **One call keeps all messages ahead.** -/
theorem AllAhead.step (h : S.AllAhead) (hok : S.QueuesAhead op) (hst : S.step op = some T) :
    T.AllAhead := by
  cases op with
  | append content =>
    obtain rfl := Option.some.inj hst
    exact h.append hok content
  | publish first rest =>
    obtain rfl := Option.some.inj hst
    exact h.publish first rest
  | create => exact h.create hst

/-- What holds of the links in every run. -/
theorem linksForward_of_run {ok : OutSystem ρ ε → OutOp ρ ε → Prop} {ops : List (OutOp ρ ε)}
    (hrun : Transition.Run OutSystem.step ok OutSystem.create ops S) : S.LinksForward :=
  hrun.invariant (motive := fun _ S => S.LinksForward) linksForward_create
    fun _ _ _ _ h _ hst => h.step hst

theorem allAhead_of_run {ops : List (OutOp ρ ε)}
    (hrun : Transition.Run OutSystem.step QueuesAhead OutSystem.create ops S) : S.AllAhead :=
  hrun.invariant (motive := fun _ S => S.AllAhead) allAhead_create
    fun _ _ _ _ h hok hst => h.step hok hst

/-- **A message that is not appended ahead of the marker is not freed.** -/
theorem LinksForward.queuesAhead (h : S.LinksForward) (hst : S.step op = some T)
    (hT : T.FreesPending) : S.QueuesAhead op := by
  cases op with
  | append content =>
    obtain rfl := Option.some.inj hst
    by_contra hother
    have hnew := ((h.append content).freesPending_iff.mp hT S.session.messages.length).mpr
      ((pending_append content _ h.handedOut).mpr (.inr rfl))
    rw [show (S.session.sessionAppendOutMessage true content).ahead = S.session.ahead from
      h.ahead_append_other content hother] at hnew
    exact h.length_notMem_ahead hnew
  | publish first rest => trivial
  | create => trivial

end Messages

/-! ### The entries of the publish queue -/

/-- The results of a session that are there all lose it. -/
theorem run_orphanResults {w : World} {l : List ℕ}
    (h : ∀ r ∈ l, ∃ ret, w.results.get r = some ret) :
    ∃ heap : Heap Result, heap.next = w.results.next ∧
      (orphanResults l).run w = some (.ok (), { w with results := heap }) := by
  induction l generalizing w with
  | nil => exact ⟨w.results, rfl, rfl⟩
  | cons r next ih =>
    obtain ⟨ret, hr⟩ := h r List.mem_cons_self
    let w₁ : World := { w with results := w.results.set r { ret with session := none } }
    have hnext : ∀ k ∈ next, ∃ ret', w₁.results.get k = some ret' := by
      intro k hk
      obtain ⟨ret', hk⟩ := h k (List.mem_cons_of_mem _ hk)
      show ∃ ret', (w.results.set r _).get k = some ret'
      rw [Heap.get_set hr]
      split
      · exact ⟨_, rfl⟩
      · exact ⟨ret', hk⟩
    obtain ⟨heap, hheap, hrun⟩ := ih hnext
    exact ⟨heap, hheap, (Attempt.run_bind_ok (Place.run_read hr)).trans
      ((Attempt.run_bind_ok (Place.run_write hr _)).trans hrun)⟩

/-- **The three loops of `wpcp_session_delete`** before the session ends: they go on to what
follows, if the first one comes to the marker. -/
theorem exists_run_loops {w : World} {s : ℕ} {σ : Session} (hinv : w.Inv False none none)
    (hcovered : w.AllCovered) (hσ : w.sessions.get s = some σ)
    (hrelease : (releaseQueuedOutMessages σ).run w = some (.ok (), w)) :
    ∃ (data : Heap PublishQueueItemData) (heap : Heap Result), heap.next = w.results.next ∧
      (∀ k, dataReferences data k + uses σ.out.publishQueue k = dataReferences w.publishData k) ∧
      ∀ f : Calls (Option ℕ), (do
        releaseQueuedOutMessages σ
        publishQueueItemsDeref σ.out.publishQueue
        orphanResults σ.results
        f).run w = f.run { w with publishData := data, results := heap } := by
  obtain ⟨data, hdrop, hrefs, -⟩ :=
    run_publishQueueItemsDeref (hcovered.uses_publishQueue_le hσ)
  have hresults : ∀ r ∈ σ.results, ∃ ret, { w with publishData := data }.results.get r = some ret :=
    fun r hr => ((hinv.session s σ hσ).results r hr).imp fun _ h => h.1
  obtain ⟨heap, hheap, horphan⟩ := run_orphanResults hresults
  exact ⟨data, heap, hheap, hrefs, fun f => (Attempt.run_bind_ok hrelease).trans
    ((Attempt.run_bind_ok hdrop).trans (Attempt.run_bind_ok horphan))⟩

/-- **A session that frees its messages goes on to drop its entries**, each once: its end lowers
the references of a data block by the number of its entries in the publish queue. -/
theorem exists_run_closeSession {w : World} {s : ℕ} {σ : Session} (hinv : w.Inv False none none)
    (hcovered : w.AllCovered) (hσ : w.sessions.get s = some σ)
    (hfrees : FreesPending ⟨σ.out, σ.handedOut⟩) :
    ∃ result w', (closeSession s σ).run w = some (.ok result, w') ∧
      ∀ data, dataReferences w'.publishData data + uses σ.out.publishQueue data =
        dataReferences w.publishData data := by
  obtain ⟨freed, hfreed, -⟩ := hfrees
  have hrelease : (releaseQueuedOutMessages σ).run w = some (.ok (), w) := by
    have hmatch : freeQueuedOutMessages σ.out.next (σ.out.messages.length + 1)
        (handedOutMessages ⟨σ.out, σ.handedOut⟩) σ.out.queuedOutMessages = some _ := hfreed
    rw [releaseQueuedOutMessages, hmatch]
    rfl
  obtain ⟨data, heap, -, hrefs, hclose⟩ := exists_run_loops hinv hcovered hσ hrelease
  have hgone : (sessions.free s).run { w with publishData := data, results := heap } = _ :=
    Place.run_free (p := sessions) hσ
  rw [closeSession, hclose]
  by_cases hitems : σ.items.length ≠ 0
  · rw [if_pos hitems, convertSessionToDummyUnsubscribleResult, assert, if_pos hitems]
    refine ⟨_, _, (Attempt.run_bind_ok ((Attempt.run_bind_ok hgone).trans rfl)).trans rfl, hrefs⟩
  · rw [if_neg hitems]
    exact ⟨_, _, (Attempt.run_bind_ok hgone).trans rfl, hrefs⟩

/-! ### What is disposed of -/

variable {S T : OutSystem QueuedOutMessage Entry}

/-- Wherever a run of the library has brought a session to this state, the end of the session
drops each entry of its publish queue once. -/
def DropsEntries (S : OutSystem QueuedOutMessage Entry) : Prop :=
  ∀ (app : Application) (sizeT : SizeT) (callbacks : Callback → Bool) (malloc : ℕ → Bool)
    (acts : List Act) (w : World) (s : ℕ) (σ : Session),
    Transition.Run (World.step app) Transition.anyStep
      (World.create sizeT callbacks malloc) acts w →
    w.sessions.get s = some σ → σ.out = S.session → σ.handedOut = S.handedOut →
    ∃ result w', (closeSession s σ).run w = some (.ok result, w') ∧
      ∀ data, dataReferences w'.publishData data + uses S.session.publishQueue data =
        dataReferences w.publishData data

/-- **Deleting the session disposes of all pending output.** -/
structure Disposes (S : OutSystem QueuedOutMessage Entry) : Prop where
  messages : S.FreesPending
  entries : S.DropsEntries

/-- The entries are dropped if the messages are freed. -/
theorem FreesPending.disposes (h : S.FreesPending) : S.Disposes := by
  refine ⟨h, fun app sizeT callbacks malloc acts w s σ hrun hσ hout hhanded => ?_⟩
  obtain ⟨session, handedOut⟩ := S
  obtain rfl : σ.out = session := hout
  obtain rfl : σ.handedOut = handedOut := hhanded
  exact exists_run_closeSession (inv_of_run False.elim hrun) (covered_of_run hrun) hσ h

/-- **In every state of a run the session disposes of its output exactly if every append of the
run links its message ahead of the marker.** -/
theorem disposes_run_iff {ops : List (OutOp QueuedOutMessage Entry)} :
    (Transition.Run OutSystem.step (fun S _ => S.Disposes) OutSystem.create ops S ∧ S.Disposes) ↔
      Transition.Run OutSystem.step QueuesAhead OutSystem.create ops S := by
  have hstate : ∀ {ops} {S : OutSystem QueuedOutMessage Entry},
      Transition.Run OutSystem.step QueuesAhead OutSystem.create ops S → S.Disposes := by
    intro ops S hrun
    have hall := allAhead_of_run hrun
    exact (hall.links.freesPending_iff.mpr hall.pending).disposes
  constructor
  · rintro ⟨hrun, hlast⟩
    -- an append between two states that are disposed of is one ahead of the marker
    induction hrun with
    | nil => exact .nil
    | snoc hrun hok hst ih =>
      exact .snoc (ih hok) ((linksForward_of_run hrun).queuesAhead hst hlast.messages) hst
  · intro hrun
    refine ⟨?_, hstate hrun⟩
    induction hrun with
    | nil => exact .nil
    | snoc hrun _ hst ih => exact .snoc ih (hstate hrun) hst

/-- **A message is leaked.** It is appended while an entry waits to be published, and so behind
the marker, where the session does not look for it when it is deleted. -/
theorem not_disposes : ∃ S : OutSystem QueuedOutMessage Entry,
    Transition.Run OutSystem.step Transition.anyStep OutSystem.create
      [.publish ⟨1, 0, 0⟩ [], .append ⟨.result, 1, 2, 0, some [], []⟩] S ∧ ¬S.Disposes := by
  let ops : List (OutOp QueuedOutMessage Entry) :=
    [.publish ⟨1, 0, 0⟩ [], .append ⟨.result, 1, 2, 0, some [], []⟩]
  let S : OutSystem QueuedOutMessage Entry := (after ops).get (by decide)
  have hrun : Transition.Run OutSystem.step Transition.anyStep OutSystem.create ops S :=
    Transition.run_of_execute (Option.some_get _).symm
  refine ⟨S, hrun, fun h => ?_⟩
  have hpending : S.Pending 0 := ⟨by decide, by decide⟩
  have hahead := ((linksForward_of_run hrun).freesPending_iff.mp h.messages 0).mpr hpending
  exact absurd hahead (by decide)

end OutSystem

end Wpcp
