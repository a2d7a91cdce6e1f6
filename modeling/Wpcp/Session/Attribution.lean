import Wpcp.Session.Overtaking

/-!
# Published data and reused ids

The client attributes an entry to the item that the last RESULT it has received for the id
granted it to. The library keeps no record of that: an id that is unsubscribed is given to
the next item at once, while entries published under it may still wait for their PUBLISH
message.

An entry is attributed wrongly when, between its publish and its PUBLISH message, a RESULT
that grants the id to another item is linked ahead of the marker; when a RESULT is queued
that grants an id which has been given to another item by then; when the entry's own RESULT
is behind the marker or lost; or when an old link of the marker makes an earlier RESULT the
last one. **In the runs without these four every entry is attributed to the item it was
published to** (`Wpcp.attributed_of_run`).
-/

namespace Wpcp

open Cbor (SizeT)

namespace OutSystem

variable {S T : OutSystem QueuedOutMessage Entry} {ops : List (OutOp QueuedOutMessage Entry)}

/-- The item that the RESULTs handed out last granted an id to. -/
def lastGranted (sent : List QueuedOutMessage) (id : ℕ) : Option ℕ :=
  lastGrant (sent.flatMap QueuedOutMessage.granted) id

/-- The entry was published to the item that its id was granted to last. -/
def GrantedTo (sent : List QueuedOutMessage) (e : Entry) : Prop :=
  lastGranted sent e.subscriptionid = some e.item

/-- **The condition** on each call: no RESULT is queued that grants an id which has been
given to another item by then, nor one ahead of the marker that grants the id of an entry
still to publish to another item; an entry is published when its RESULT has been handed out
or is ahead; and the marker does not link to a RESULT older than one handed out. -/
def KeepsAttribution (S : OutSystem QueuedOutMessage Entry) :
    OutOp QueuedOutMessage Entry → Prop
  | .append content => (∀ g ∈ content.granted, g.reused = false) ∧
      (S.AppendsAhead → ∀ e ∈ S.session.publishQueue, ∀ g ∈ content.granted,
        g.subscriptionid = e.subscriptionid → g.item = e.item)
  | .publish first rest => S.AnnouncedAhead (.publish first rest)
  | .create => S.session.queuedOutMessages = none →
      ∀ m ∈ S.session.publishItemNext, ∀ k ∈ S.handedOutMessages, k < m

instance (S : OutSystem QueuedOutMessage Entry) :
    (op : OutOp QueuedOutMessage Entry) → Decidable (S.KeepsAttribution op)
  | .append content => inferInstanceAs (Decidable ((∀ g ∈ content.granted, _) ∧ (_ → _)))
  | .publish first rest => inferInstanceAs (Decidable (S.AnnouncedAhead (.publish first rest)))
  | .create => inferInstanceAs (Decidable (_ → _))

/-! ### The last grant -/

theorem lastGranted_append (sent sent' : List QueuedOutMessage) (id : ℕ) :
    lastGranted (sent ++ sent') id = (lastGranted sent' id).or (lastGranted sent id) := by
  rw [lastGranted, List.flatMap_append, lastGrant_append]
  rfl

theorem lastGranted_singleton (c : QueuedOutMessage) (id : ℕ) :
    lastGranted [c] id = lastGrant c.granted id := by
  simp [lastGranted]

/-- Messages that do not grant an id grant it nobody. -/
theorem lastGranted_eq_none {sent : List QueuedOutMessage} {id : ℕ}
    (h : ∀ c ∈ sent, lastGrant c.granted id = none) : lastGranted sent id = none := by
  induction sent with
  | nil => rfl
  | cons c sent ih =>
    rw [← List.singleton_append, lastGranted_append,
      ih fun c' hc' => h c' (List.mem_cons_of_mem _ hc'), lastGranted_singleton,
      h c List.mem_cons_self]
    rfl

/-- **The message that grants an id last.** -/
theorem exists_lastGrant {sent : List QueuedOutMessage} {id item : ℕ}
    (h : lastGranted sent id = some item) : ∃ before c after, sent = before ++ c :: after ∧
      lastGrant c.granted id = some item ∧ ∀ c' ∈ after, lastGrant c'.granted id = none := by
  induction sent using List.reverseRecOn with
  | nil => simp [lastGranted, lastGrant] at h
  | append_singleton sent c ih =>
    rw [lastGranted_append, lastGranted_singleton] at h
    cases hc : lastGrant c.granted id with
    | some last =>
      rw [hc] at h
      exact ⟨sent, c, [], by simp, hc.trans h, by simp⟩
    | none =>
      rw [hc] at h
      obtain ⟨before, c', after, rfl, hc', hafter⟩ := ih h
      refine ⟨before, c', after ++ [c], by simp, hc', fun c₂ hc₂ => ?_⟩
      obtain hc₂ | hc₂ := List.mem_append.mp hc₂
      · exact hafter c₂ hc₂
      · obtain rfl := List.mem_singleton.mp hc₂
        exact hc

/-- **A part of the messages in which the order is kept, and which has the one that grants
an id last**, grants it to the same item. -/
theorem lastGranted_of_sorted {messages before after : List QueuedOutMessage}
    {c : QueuedOutMessage} {id item : ℕ} {l : List ℕ} (hmessages : messages = before ++ c :: after)
    (hc : lastGrant c.granted id = some item)
    (hafter : ∀ c' ∈ after, lastGrant c'.granted id = none) (hsorted : l.Pairwise (· < ·))
    (hmem : before.length ∈ l) : lastGranted (l.filterMap (messages[·]?)) id = some item := by
  obtain ⟨l₁, l₂, rfl⟩ := List.append_of_mem hmem
  have hlater : ∀ k ∈ l₂, before.length < k :=
    (List.pairwise_cons.mp (List.pairwise_append.mp hsorted).2.1).1
  have hnone : lastGranted (l₂.filterMap (messages[·]?)) id = none := by
    refine lastGranted_eq_none fun c' hc' => ?_
    obtain ⟨k, hk, hget⟩ := List.mem_filterMap.mp hc'
    have hlt := hlater k hk
    rw [hmessages, List.getElem?_append_right (by omega),
      show k - before.length = k - before.length - 1 + 1 by omega, List.getElem?_cons_succ] at hget
    exact hafter c' (List.mem_of_getElem? hget)
  have hget : messages[before.length]? = some c := by
    rw [hmessages, List.getElem?_append_right (Nat.le_refl _), Nat.sub_self]
    rfl
  rw [List.filterMap_append, List.filterMap_cons_some hget, ← List.singleton_append,
    lastGranted_append, lastGranted_append, hnone, lastGranted_singleton, hc]
  rfl

/-! ### The invariant -/

/-- The messages handed out or ahead of the marker, in their order. -/
def InSequence (S : OutSystem QueuedOutMessage Entry) : Prop :=
  (S.handedOutMessages ++ S.session.ahead).Pairwise (· < ·)

/-- What the messages handed out or ahead contain. -/
theorem sentOrAhead_eq (S : OutSystem QueuedOutMessage Entry) :
    S.sentOrAhead =
      (S.handedOutMessages ++ S.session.ahead).filterMap (S.session.messages[·]?) := by
  rw [sentOrAhead, List.filterMap_append, handedOutMessages, List.filterMap_filterMap]
  congr 1
  refine List.filterMap_congr fun message _ => ?_
  cases message with
  | queued m => rfl
  | publish entries => rfl

/-- **The order is kept**: an append puts the new message last or replaces the list, and a
PUBLISH message continues with later messages than those handed out. -/
theorem inSequence_step {op : OutOp QueuedOutMessage Entry} (h : S.LinksForward)
    (hseq : S.InSequence) (hok : S.KeepsAttribution op) (hst : S.step op = some T) :
    T.InSequence := by
  have hT := h.step hst
  cases op with
  | append content =>
    obtain rfl := Option.some.inj hst
    have hnew : ∀ k ∈ S.handedOutMessages ++ S.session.ahead, k < S.session.messages.length := by
      intro k hk
      exact (List.mem_append.mp hk).elim (h.handedOut k) h.lt_of_mem_ahead
    show (S.handedOutMessages ++
      (S.session.sessionAppendOutMessage true content).ahead).Pairwise (· < ·)
    by_cases hahead : S.AppendsAhead
    · obtain hloc | ⟨m, hm, hloc⟩ := id hahead
      · rw [h.ahead_append_head content hloc]
        refine List.pairwise_append.mpr ⟨(List.pairwise_append.mp hseq).1,
          List.pairwise_singleton ..,
          fun k hk n hn => ?_⟩
        obtain rfl := List.mem_singleton.mp hn
        exact h.handedOut k hk
      · rw [h.ahead_append_last content hm hloc, ← List.append_assoc]
        refine List.pairwise_append.mpr ⟨hseq, List.pairwise_singleton .., fun k hk n hn => ?_⟩
        obtain rfl := List.mem_singleton.mp hn
        exact hnew k hk
    · rw [h.ahead_append_other content hahead]
      exact hseq
  | publish first rest =>
    obtain rfl := Option.some.inj hst
    show (S.handedOutMessages ++
      (S.session.sessionPublishQueueAppend first rest).ahead).Pairwise (· < ·)
    rw [ahead_publish]
    exact hseq
  | create =>
    obtain ⟨m, hm, heq⟩ | ⟨hm, -, -, heq⟩ := step_create h.kill hst
    · have hahead := h.ahead_queued hm hst
      have hout : T.handedOutMessages = S.handedOutMessages ++ [m] := by
        rw [heq, handedOutMessages_queued]
        rfl
      rw [InSequence, hahead] at hseq
      rw [InSequence, hout, List.append_assoc]
      exact hseq
    · have hout : T.handedOutMessages = S.handedOutMessages := by
        rw [heq, handedOutMessages_publish]
        rfl
      rw [InSequence, hout]
      refine List.pairwise_append.mpr ⟨(List.pairwise_append.mp hseq).1, hT.ahead_pairwise,
        fun k hk n hn => ?_⟩
      have hpath := hT.isPath_ahead
      have hhead : T.session.queuedOutMessages = S.session.publishItemNext := by rw [heq]
      rw [hhead] at hpath
      cases hahead : T.session.ahead with
      | nil => simp [hahead] at hn
      | cons a l =>
        -- the first message behind the marker is later, and so are the others
        have hpairwise := hT.ahead_pairwise
        rw [hahead] at hpath hn hpairwise
        have ha := hok hm a hpath.1 k hk
        obtain rfl | hn := List.mem_cons.mp hn
        · exact ha
        · exact ha.trans ((List.pairwise_cons.mp hpairwise).1 n hn)

/-- What holds along the runs that keep the attribution. -/
structure AttributionInv (ops : List (OutOp QueuedOutMessage Entry))
    (S : OutSystem QueuedOutMessage Entry) : Prop where
  links : S.LinksForward
  messages : S.session.messages = appended ops
  unused : ∀ g ∈ grants ops, g.reused = false
  sequence : S.InSequence
  ready : S.Ready GrantedTo
  after : S.HandedOutAfter GrantedTo

/-- **The queue attributes every entry to its item.** -/
theorem attributionInv_of_run (htrace : TraceOk ops)
    (hrun : Transition.Run step KeepsAttribution create ops S) : AttributionInv ops S := by
  revert htrace
  refine hrun.invariant (motive := fun ops S => TraceOk ops → AttributionInv ops S) ?_ ?_
  · refine fun _ => ⟨linksForward_create, rfl, nofun, .nil, nofun,
      fun before entries after heq => ?_⟩
    simp [create] at heq
  intro ops S op T ih hok hst htrace
  obtain ⟨hbefore, hpublish⟩ := htrace.of_snoc
  obtain ⟨hlinks, hmessages, hunused, hseq, hready, hafter⟩ := ih hbefore
  refine ⟨hlinks.step hst, messages_step hlinks.kill hmessages hst, ?_,
    inSequence_step hlinks hseq hok hst, ready_step hlinks hready ?_ hst,
    handedOutAfter_step hlinks hready hafter hst⟩
  · intro g hg
    cases op with
    | append content =>
      rw [grants_append] at hg
      exact (List.mem_append.mp hg).elim (hunused g) (hok.1 g)
    | publish first rest =>
      rw [grants_publish] at hg
      exact hunused g hg
    | create =>
      rw [grants_create] at hg
      exact hunused g hg
  · cases op with
    | append content =>
      intro hahead e he hgranted
      rw [GrantedTo, lastGranted_append, lastGranted_singleton]
      cases hnew : lastGrant content.granted e.subscriptionid with
      | none => exact hgranted
      | some item =>
        obtain ⟨g, hg, hid, rfl⟩ := exists_of_lastGrant hnew
        exact congrArg some (hok.2 hahead e he g hg hid)
    | publish first rest =>
      intro e he
      -- the RESULT that granted the id last has been handed out or is ahead
      have hlast := (hpublish first rest rfl e he).2 hunused
      rw [grants, ← hmessages] at hlast
      obtain ⟨before, c, after, hsplit, hc, hnone⟩ := exists_lastGrant hlast
      have hget : S.session.messages[before.length]? = some c := by
        rw [hsplit, List.getElem?_append_right (Nat.le_refl _), Nat.sub_self]
        rfl
      obtain ⟨g, hg, hid, hitem⟩ := exists_of_lastGrant hc
      have hmem := hok e he before.length (List.getElem?_eq_some_iff.mp hget).1 c hget
        ⟨g, hg, hid, hitem⟩
      rw [GrantedTo, sentOrAhead_eq]
      exact lastGranted_of_sorted hsplit hc hnone hseq (List.mem_append.mpr hmem)
    | create => trivial

end OutSystem

/-- An entry that is handed out after a RESULT granting its id was published to the item to
which the last such RESULT granted it. -/
def Session.Attributed (σ : Session) : Prop :=
  OutSystem.HandedOutAfter (fun sent e => ∀ item, OutSystem.lastGranted sent e.subscriptionid =
    some item → e.item = item) ⟨σ.out, σ.handedOut⟩

/-- **Published data is attributed to the item it was published to**, in the runs that keep
to the condition. -/
theorem attributed_of_run {app : Application} {sizeT : SizeT} {callbacks : Callback → Bool}
    {acts : List Act} {w : World} {s : ℕ} {σ : Session}
    (hrun : Transition.Run (World.step app) Transition.anyStep
      (World.create sizeT callbacks fun _ => true) acts w)
    (hσ : w.sessions.get s = some σ)
    (hkeeps : Transition.Run OutSystem.step OutSystem.KeepsAttribution OutSystem.create σ.ops
      ⟨σ.out, σ.handedOut⟩) : σ.Attributed := by
  have hinv : w.Inv True none none := inv_of_run (fun _ _ => rfl) hrun
  have hattr := OutSystem.attributionInv_of_run (hinv.output trivial s σ hσ).trace hkeeps
  intro before entries after heq e he item hitem
  have hgranted := hattr.after before entries after heq e he
  exact Option.some.inj (hgranted.symm.trans hitem)

/-! ### Two runs -/

/-- The id is given to another item after what was published under it has been taken
out. -/
theorem attributed_takenOut : ∃ w σ,
    Transition.Run (World.step acceptAll) Transition.anyStep
      (World.create .bits64 subscriptionCallbacks fun _ => true)
      [.sessionCreate, hello, takeOut, subscribe 4 1, publish 0, takeOut, takeOut,
        unsubscribe 1, subscribe 4 3, publish 1, takeOut, takeOut, takeOut] w ∧
    w.sessions.get 0 = some σ ∧ σ.handedOut = [.queued 0, .queued 1, .publish [⟨1, 0, 0⟩],
      .queued 2, .queued 3, .publish [⟨1, 1, 1⟩]] ∧ σ.Attributed := by
  let acts := [.sessionCreate, hello, takeOut, subscribe 4 1, publish 0, takeOut, takeOut,
    unsubscribe 1, subscribe 4 3, publish 1, takeOut, takeOut, takeOut]
  have hrun : (sessionAfter subscriptionCallbacks acts).any (fun (_, σ) =>
      decide (σ.handedOut = [.queued 0, .queued 1, .publish [⟨1, 0, 0⟩],
        .queued 2, .queued 3, .publish [⟨1, 1, 1⟩]]) &&
      (Transition.execute OutSystem.step OutSystem.KeepsAttribution OutSystem.create
        σ.ops).isSome && decide (σ.slotsAdded = 0)) = true := by decide +kernel
  cases hafter : sessionAfter subscriptionCallbacks acts with
  | none => simp [hafter] at hrun
  | some p =>
    obtain ⟨w, σ⟩ := p
    rw [hafter, Option.any_some, Bool.and_eq_true, Bool.and_eq_true, decide_eq_true_eq,
      decide_eq_true_eq] at hrun
    obtain ⟨⟨hout, hsome⟩, hslots⟩ := hrun
    obtain ⟨hw, hσ⟩ := run_of_sessionAfter hafter
    have hinv : w.Inv True none none := inv_of_run (fun _ _ => rfl) hw
    exact ⟨w, σ, hw, hσ, hout,
      attributed_of_run hw hσ (((hinv.output trivial 0 σ hσ).tracked hslots).admitted hsome)⟩

/-- **An entry is attributed to the wrong item.** It is published under id 1 while another
RESULT is queued; the id is unsubscribed and given to a new item, and the RESULTs of both
are queued ahead of the marker, so that the entry is handed out after id 1 has been granted
to the new item. -/
theorem misattributes : ∃ w σ,
    Transition.Run (World.step acceptAll) Transition.anyStep
      (World.create .bits64 subscriptionCallbacks fun _ => true)
      [.sessionCreate, hello, takeOut, subscribe 4 1, takeOut, subscribe 4 2, publish 0,
        unsubscribe 1, subscribe 4 3, takeOut, takeOut, takeOut, takeOut] w ∧
    w.sessions.get 0 = some σ ∧ ¬σ.Attributed := by
  let acts := [.sessionCreate, hello, takeOut, subscribe 4 1, takeOut, subscribe 4 2, publish 0,
    unsubscribe 1, subscribe 4 3, takeOut, takeOut, takeOut, takeOut]
  have hrun : (sessionAfter subscriptionCallbacks acts).any (fun (_, σ) =>
      decide (σ.handedOut = [.queued 0, .queued 1, .queued 2, .queued 3, .queued 4] ++
        [.publish [⟨1, 0, 0⟩]]) &&
      decide (OutSystem.lastGranted (OutSystem.contents (ε := Entry) σ.out.messages
        [.queued 0, .queued 1, .queued 2, .queued 3, .queued 4]) 1 = some 2)) = true := by
    decide +kernel
  cases hafter : sessionAfter subscriptionCallbacks acts with
  | none => simp [hafter] at hrun
  | some p =>
    obtain ⟨w, σ⟩ := p
    rw [hafter, Option.any_some, Bool.and_eq_true, decide_eq_true_eq, decide_eq_true_eq] at hrun
    obtain ⟨hout, hlast⟩ := hrun
    obtain ⟨hw, hσ⟩ := run_of_sessionAfter hafter
    refine ⟨w, σ, hw, hσ, fun hattr => ?_⟩
    exact absurd (hattr _ _ [] hout ⟨1, 0, 0⟩ (by simp) 2 hlast) (by decide)

end Wpcp
