import Mathlib.Data.List.Range
import Wpcp.Lib.LinkedPath
import Wpcp.Session.OutQueue

/-!
# No queued message is lost, and their order is kept

The messages a session has still to hand out form two lists: those reached from the
head, ahead of the marker, and those reached from the marker, behind it. Handed
out, ahead and behind, in this order, they are all the messages in the order of
their allocation – as long as each append stores into the end of one of the two
lists.

That the code does not always do. The place to insert at can be left in a message
that has been handed out (the last message ahead of the marker is taken out while
entries are waiting), and it is set back to the head by every PUBLISH that empties
the publish queue, also when messages were queued behind the marker; an append then
overwrites the head. The link of the marker, finally, is never set back, and a later
PUBLISH follows it to messages handed out long ago. The runs that stay out of these
three situations (`Wpcp.OutSystem.KeepsMessages`) lose nothing
(`Wpcp.OutSystem.handedOutAll_of_run`).

The number of published entries is bounded by the initial number of slots, so that
in these runs a PUBLISH message always takes all the entries there are.
-/

namespace Wpcp

namespace OutSystem

open Linked (IsPath)

variable {ρ ε : Type} {S T : OutSystem ρ ε} {op : OutOp ρ ε}

/-- The place to insert at is neither in a message handed out nor the head of a list
that is not empty, and a PUBLISH does not follow a link of the marker to a message
handed out. -/
def KeepsMessages (S : OutSystem ρ ε) : OutOp ρ ε → Prop
  | .append _ =>
    (S.session.queuedOutMessageInsertLocation = .queuedOutMessages →
      S.session.queuedOutMessages = none) ∧
    ∀ m ∈ S.handedOutMessages, S.session.queuedOutMessageInsertLocation ≠ .messageNext m
  | .create => S.session.queuedOutMessages = none →
    ∀ m ∈ S.handedOutMessages, S.session.publishItemNext ≠ some m
  | .publish _ _ => True

instance (S : OutSystem ρ ε) : (op : OutOp ρ ε) → Decidable (S.KeepsMessages op)
  | .append _ => inferInstanceAs (Decidable (_ ∧ ∀ m ∈ S.handedOutMessages, _))
  | .create => inferInstanceAs (Decidable (_ → ∀ m ∈ S.handedOutMessages, _))
  | .publish _ _ => inferInstanceAs (Decidable True)

/-! ### The two lists of pending messages -/

/-- Where the place to insert at can be, given the messages ahead of the marker and
those behind it. -/
inductive Placed (s : OutState ρ ε) (handed ahead behind : List ℕ) : Prop
  /-- At the head, with nothing to publish. -/
  | head (hloc : s.queuedOutMessageInsertLocation = .queuedOutMessages)
      (hpub : s.publishQueue = []) (hbehind : behind = [])
  /-- In the last message ahead of the marker. -/
  | ahead {l : List ℕ} {m : ℕ} (hloc : s.queuedOutMessageInsertLocation = .messageNext m)
      (hahead : ahead = l ++ [m]) (hbehind : behind = [])
  /-- At the marker, which has nothing behind it yet: its link is not in use. -/
  | marker (hloc : s.queuedOutMessageInsertLocation = .publishItemNext)
      (hpub : s.publishQueue ≠ []) (hbehind : behind = [])
  /-- In the last message behind the marker. -/
  | behind {l : List ℕ} {m : ℕ} (hloc : s.queuedOutMessageInsertLocation = .messageNext m)
      (hpub : s.publishQueue ≠ []) (hbehind : behind = l ++ [m])
      (hpath : IsPath s.next s.publishItemNext behind)
  /-- In a message handed out, which was the last one ahead of the marker. -/
  | left {m : ℕ} (hloc : s.queuedOutMessageInsertLocation = .messageNext m)
      (hpub : s.publishQueue ≠ []) (hhanded : m ∈ handed) (hahead : ahead = [])
      (hbehind : behind = [])

/-- **The messages are handed out in order**: those handed out, those ahead of the
marker and those behind it are all the messages, as they were allocated. -/
def InOrder (S : OutSystem ρ ε) : Prop :=
  (∀ m, S.session.publishItemNext = some m → m < S.session.messages.length) ∧
  ∃ ahead behind, IsPath S.session.next S.session.queuedOutMessages ahead ∧
    S.handedOutMessages ++ ahead ++ behind = List.range S.session.messages.length ∧
    Placed S.session S.handedOutMessages ahead behind

/-- What holds along the runs that keep every message. -/
structure OrderInv (ops : List (OutOp ρ ε)) (S : OutSystem ρ ε) : Prop where
  kill : S.session.kill = false
  messages : S.session.messages = appended ops
  entries : S.handedOutEntries ++ S.session.publishQueue = published ops
  slots : S.session.freePublishSlots + S.handedOutEntries.length = 2 ^ 32 - 1
  inOrder : S.InOrder

theorem orderInv_create : OrderInv [] (create : OutSystem ρ ε) where
  kill := rfl
  messages := rfl
  entries := rfl
  slots := rfl
  inOrder := ⟨by simp [create, OutState.create], [], [], rfl, rfl, .head rfl rfl rfl⟩

/-- The parts of the list of the numbers below `n` hold numbers below `n`. -/
theorem mem_lt_of_range {l₁ l₂ l₃ : List ℕ} {n : ℕ} (h : l₁ ++ l₂ ++ l₃ = List.range n) :
    (∀ m ∈ l₁, m < n) ∧ (∀ m ∈ l₂, m < n) ∧ ∀ m ∈ l₃, m < n := by
  have hmem : ∀ m ∈ l₁ ++ l₂ ++ l₃, m < n := fun m hm => by
    rw [h] at hm
    exact List.mem_range.mp hm
  exact ⟨fun m hm => hmem m (by simp [hm]), fun m hm => hmem m (by simp [hm]),
    fun m hm => hmem m (by simp [hm])⟩

/-- The last of a list without repetitions is not among the others. -/
theorem notMem_of_nodup {l₁ l₂ : List ℕ} {m : ℕ} (h : (l₁ ++ (l₂ ++ [m])).Nodup) :
    m ∉ l₁ ∧ m ∉ l₂ := by
  rw [← List.append_assoc] at h
  have hne := (List.nodup_append.mp h).2.2
  exact ⟨fun hm => hne m (by simp [hm]) m (by simp) rfl,
    fun hm => hne m (by simp [hm]) m (by simp) rfl⟩

/-- **An append lengthens the list it stores into**: the one ahead of the marker or
the one behind it. -/
theorem inOrder_append (hin : S.InOrder) (content : ρ) (hok : S.KeepsMessages (.append content)) :
    InOrder { S with session := S.session.sessionAppendOutMessage true content } := by
  obtain ⟨hmarker, ahead, behind, hpath, hrange, hplaced⟩ := hin
  obtain ⟨hhead, hleft⟩ := hok
  refine ⟨fun m hm => ?_, ?_⟩
  · rw [OutState.publishItemNext_append] at hm
    rw [OutState.messages_append, List.length_append, List.length_singleton]
    split at hm
    · obtain rfl := Option.some.inj hm
      omega
    · have := hmarker m hm
      omega
  obtain ⟨hlt₁, hlt₂, hlt₃⟩ := mem_lt_of_range hrange
  have hnot₂ : S.session.messages.length ∉ ahead := fun h => Nat.lt_irrefl _ (hlt₂ _ h)
  have hnot₃ : S.session.messages.length ∉ behind := fun h => Nat.lt_irrefl _ (hlt₃ _ h)
  have hnodup : (S.handedOutMessages ++ (ahead ++ behind)).Nodup := by
    rw [← List.append_assoc, hrange]
    exact List.nodup_range
  have hgrow : S.handedOutMessages ++ ahead ++ behind ++ [S.session.messages.length] =
      List.range (S.session.messages.length + 1) := by
    rw [hrange, List.range_succ]
  cases hplaced with
  | head hloc hpub hbehind =>
    -- the list is empty, and the new message becomes its head
    subst hbehind
    obtain rfl : ahead = [] := by
      rw [hhead hloc] at hpath
      exact Linked.isPath_none.mp hpath
    refine ⟨[S.session.messages.length], [], ?_, ?_,
      .ahead (l := []) (OutState.insertLocation_append ..) rfl rfl⟩
    · rw [OutState.queuedOutMessages_append, if_pos hloc, OutState.next_append_session _ _
        (by simp [hloc])]
      exact ⟨rfl, Function.update_self ..⟩
    · simpa using hgrow
  | @ahead l m hloc hahead hbehind =>
    subst hahead hbehind
    have hm := notMem_of_nodup (by simpa using hnodup : (S.handedOutMessages ++ (l ++ [m])).Nodup)
    refine ⟨l ++ [m] ++ [S.session.messages.length], [], ?_, ?_,
      .ahead (OutState.insertLocation_append ..) rfl rfl⟩
    · rw [OutState.queuedOutMessages_append, if_neg (by simp [hloc]),
        OutState.next_append_messageNext _ _ hloc]
      refine (hpath.update hnot₂).snoc ?_ (Function.update_self ..) ?_
      · exact hm.2
      · exact fun h => hnot₂ (by simp [h])
    · simpa using hgrow
  | marker hloc hpub hbehind =>
    -- the link of the marker is overwritten, whatever it was
    subst hbehind
    refine ⟨ahead, [S.session.messages.length], ?_, ?_,
      .behind (l := []) (OutState.insertLocation_append ..) (by simpa using hpub) rfl ?_⟩
    · rw [OutState.queuedOutMessages_append, if_neg (by simp [hloc]),
        OutState.next_append_session _ _ (by simp [hloc])]
      exact hpath.update hnot₂
    · simpa using hgrow
    · rw [OutState.publishItemNext_append, if_pos hloc, OutState.next_append_session _ _
        (by simp [hloc])]
      exact ⟨rfl, Function.update_self ..⟩
  | @behind l m hloc hpub hbehind hpath' =>
    subst hbehind
    have hnodup' : ((S.handedOutMessages ++ ahead) ++ (l ++ [m])).Nodup := by simpa using hnodup
    obtain ⟨hm, hml⟩ := notMem_of_nodup hnodup'
    refine ⟨ahead, l ++ [m] ++ [S.session.messages.length], ?_, ?_,
      .behind (OutState.insertLocation_append ..) (by simpa using hpub) rfl ?_⟩
    · rw [OutState.queuedOutMessages_append, if_neg (by simp [hloc]),
        OutState.next_append_messageNext _ _ hloc]
      exact (hpath.update hnot₂).update (by simp at hm; exact hm.2)
    · simpa using hgrow
    · rw [OutState.publishItemNext_append, if_neg (by simp [hloc]),
        OutState.next_append_messageNext _ _ hloc]
      exact (hpath'.update hnot₃).snoc hml (Function.update_self ..)
        (fun h => hnot₃ (by simp [h]))
  | @left m hloc _ hhanded => exact absurd hloc (hleft m hhanded)

/-- Publishing entries moves no message; with free slots the place to insert at is
then no longer at the head. -/
theorem inOrder_publish (hin : S.InOrder) (hslots : 0 < S.session.freePublishSlots)
    (first : ε) (rest : List ε) :
    InOrder { S with session := S.session.sessionPublishQueueAppend first rest } := by
  obtain ⟨hmarker, ahead, behind, hpath, hrange, hplaced⟩ := hin
  have hloc := S.session.insertLocation_publishQueueAppend first rest
  have hpub : (S.session.sessionPublishQueueAppend first rest).publishQueue ≠ [] := by simp
  refine ⟨by simpa using hmarker, ahead, behind, by simpa using hpath, by simpa using hrange, ?_⟩
  cases hplaced with
  | head hhead _ hbehind =>
    exact .marker (hloc.trans (if_pos ⟨by omega, hhead⟩)) hpub hbehind
  | ahead hm hahead hbehind =>
    exact .ahead (hloc.trans ((if_neg (by simp [hm])).trans hm)) hahead hbehind
  | marker hm _ hbehind =>
    exact .marker (hloc.trans ((if_neg (by simp [hm])).trans hm)) hpub hbehind
  | behind hm _ hbehind hpath' =>
    exact .behind (hloc.trans ((if_neg (by simp [hm])).trans hm)) hpub hbehind
      (by simpa using hpath')
  | left hm _ hhanded hahead hbehind =>
    exact .left (hloc.trans ((if_neg (by simp [hm])).trans hm)) hpub hhanded hahead hbehind

/-- **Taking a message out moves it from the front of what is pending to the end of
what was handed out**; a PUBLISH that takes all the entries moves the messages behind
the marker ahead of it. -/
theorem inOrder_take (hkill : S.session.kill = false) (hin : S.InOrder)
    (hok : S.KeepsMessages .create)
    (hall : S.session.publishQueue.length ≤ S.session.freePublishSlots)
    (hst : S.step .create = some T) : T.InOrder := by
  obtain ⟨hmarker, ahead, behind, hpath, hrange, hplaced⟩ := hin
  obtain ⟨m, hm, rfl⟩ | ⟨hm, hne, -, rfl⟩ := step_create hkill hst
  · rw [hm] at hpath
    obtain ⟨l, rfl, hl⟩ := Linked.isPath_some.mp hpath
    refine ⟨hmarker, l, behind, hl, by simpa using hrange, ?_⟩
    cases hplaced with
    | head hloc hpub hbehind => exact .head (by simp [hloc]) hpub hbehind
    | @ahead l' k hloc hahead hbehind =>
      cases l' with
      | nil =>
        -- the last message ahead of the marker, which is where to insert at
        obtain ⟨rfl, rfl⟩ : m = k ∧ l = [] := by simpa using hahead
        have hend : S.session.next m = none := hl
        by_cases hpub : S.session.publishQueue = []
        · exact .head (by simp [hend, hpub]) hpub hbehind
        · exact .left (m := m) (by simp [hpub, hloc]) hpub (by simp) rfl hbehind
      | cons b l' =>
        obtain ⟨rfl, rfl⟩ : m = b ∧ l = l' ++ [k] := by simpa using hahead
        have hend : S.session.next m ≠ none := by
          intro hnone
          rw [hnone] at hl
          simp at hl
        exact .ahead (by simp [hend, hloc]) rfl hbehind
    | marker hloc hpub hbehind => exact .marker (by simp [hpub, hloc]) hpub hbehind
    | behind hloc hpub hbehind hpath' =>
      exact .behind (by simp [hpub, hloc]) hpub hbehind hpath'
    | left hloc hpub hhanded hahead hbehind => simp at hahead
  · -- the list ahead of the marker is used up, and the queue is drained
    rw [hm] at hpath
    obtain rfl := Linked.isPath_none.mp hpath
    have hdrain : S.session.publishQueue.drop S.session.freePublishSlots = [] :=
      List.drop_of_length_le hall
    suffices hbehind : IsPath S.session.next S.session.publishItemNext behind from
      ⟨hmarker, behind, [], hbehind, by simpa using hrange, .head (by simp [hdrain]) hdrain rfl⟩
    have hunused : behind = [] → IsPath S.session.next S.session.publishItemNext behind := by
      rintro rfl
      -- a link of the marker that was left over leads to a message handed out
      cases hnext : S.session.publishItemNext with
      | none => rfl
      | some k =>
        have hk : k ∈ S.handedOutMessages := by
          have hmem := List.mem_range.mpr (hmarker k hnext)
          rw [← hrange] at hmem
          simpa using hmem
        exact absurd hnext (hok hm k hk)
    cases hplaced with
    | head _ hpub _ => exact absurd hpub hne
    | ahead _ hahead _ => simp at hahead
    | marker _ _ hbehind => exact hunused hbehind
    | behind _ _ _ hpath' => exact hpath'
    | left _ _ _ _ hbehind => exact hunused hbehind

/-- A step adds what it publishes to the entries, and takes as many slots as it hands out
entries. -/
theorem accounts_step {ops : List (OutOp ρ ε)} (hkill : S.session.kill = false)
    (hentries : S.handedOutEntries ++ S.session.publishQueue = published ops)
    (hslots : S.session.freePublishSlots + S.handedOutEntries.length = 2 ^ 32 - 1)
    (hst : S.step op = some T) :
    T.handedOutEntries ++ T.session.publishQueue = published (ops ++ [op]) ∧
      T.session.freePublishSlots + T.handedOutEntries.length = 2 ^ 32 - 1 := by
  cases op with
  | append content =>
    obtain rfl := Option.some.inj hst
    refine ⟨?_, ?_⟩
    · simpa [published] using hentries
    · simpa using hslots
  | publish first rest =>
    obtain rfl := Option.some.inj hst
    refine ⟨?_, ?_⟩
    · simp only [handedOutEntries_session, OutState.publishQueue_publishQueueAppend]
      rw [← List.append_assoc, hentries]
      simp [published]
    · simpa using hslots
  | create =>
    obtain ⟨m, -, rfl⟩ | ⟨-, -, -, rfl⟩ := step_create hkill hst
    · refine ⟨?_, ?_⟩
      · simpa [published] using hentries
      · simpa using hslots
    · refine ⟨?_, ?_⟩
      · simpa [published] using hentries
      · simp only [handedOutEntries_publish, handedOutEntries_session, List.length_append,
          List.length_take]
        omega

/-- The invariant along the runs that keep every message and publish fewer entries
than there are slots. -/
theorem orderInv_of_run {ops : List (OutOp ρ ε)}
    (hrun : Transition.Run step KeepsMessages create ops S) :
    (published ops).length < 2 ^ 32 - 1 → OrderInv ops S := by
  refine hrun.invariant
    (motive := fun ops S => (published ops).length < 2 ^ 32 - 1 → OrderInv ops S)
    (fun _ => orderInv_create) ?_
  intro ops S op T ih hok hst hfew
  have hfew' : (published ops).length < 2 ^ 32 - 1 := by
    simp only [published, List.flatMap_append, List.length_append] at hfew ⊢
    omega
  have hinv := ih hfew'
  have hmessages := messages_step hinv.kill hinv.messages hst
  obtain ⟨hentries, hslots⟩ := accounts_step hinv.kill hinv.entries hinv.slots hst
  -- there are more slots than entries waiting
  have hcount := congrArg List.length hinv.entries
  have hsum := hinv.slots
  rw [List.length_append] at hcount
  refine ⟨kill_step hinv.kill hst, hmessages, hentries, hslots, ?_⟩
  cases op with
  | append content =>
    obtain rfl := Option.some.inj hst
    exact inOrder_append hinv.inOrder content hok
  | publish first rest =>
    obtain rfl := Option.some.inj hst
    exact inOrder_publish hinv.inOrder (by omega) first rest
  | create => exact inOrder_take hinv.kill hinv.inOrder hok (by omega) hst

/-- Nothing is left to send. -/
def Drained (S : OutSystem ρ ε) : Prop := S.session.sessionHasOutMessage = false

/-- Every message of a list of contents has been handed out, in order and once. -/
def HandedOutAll (contents : List ρ) (S : OutSystem ρ ε) : Prop :=
  S.session.messages = contents ∧ S.handedOutMessages = List.range contents.length

/-- **No RESULT is lost and their order is kept**, in the runs that keep every
message: whenever nothing is left to send, every message appended has been handed
out, in the order in which they were appended. -/
theorem handedOutAll_of_run {ops : List (OutOp ρ ε)}
    (hrun : Transition.Run step KeepsMessages create ops S)
    (hfew : (published ops).length < 2 ^ 32 - 1) (hdrained : S.Drained) :
    S.HandedOutAll (appended ops) := by
  have hinv := orderInv_of_run hrun hfew
  have hcount := congrArg List.length hinv.entries
  have hsum := hinv.slots
  rw [List.length_append] at hcount
  refine ⟨hinv.messages, ?_⟩
  simp only [Drained, OutState.sessionHasOutMessage, OutState.sessionHasSendablePublishItem,
    hinv.kill] at hdrained
  obtain ⟨-, ahead, behind, hpath, hrange, hplaced⟩ := hinv.inOrder
  rw [← hinv.messages, ← hrange]
  have hqueue : S.session.queuedOutMessages = none := by
    cases h : S.session.queuedOutMessages with
    | none => rfl
    | some m => simp [h] at hdrained
  have hpub : S.session.publishQueue = [] := by
    by_contra hne
    simp [hqueue, hne] at hdrained
    omega
  rw [hqueue] at hpath
  obtain rfl := Linked.isPath_none.mp hpath
  cases hplaced with
  | head _ _ hbehind => simp [hbehind]
  | ahead _ hahead _ => simp at hahead
  | marker _ hne _ => exact absurd hpub hne
  | behind _ hne _ _ => exact absurd hpub hne
  | left _ hne _ _ _ => exact absurd hpub hne

/-- A run that appends between a publish and its PUBLISH message and keeps every
message: the second append goes ahead of the marker. -/
theorem handedOutAll_of_run_mixed : ∃ S : OutSystem ℕ ℕ,
    Transition.Run step KeepsMessages create
      [.append 0, .publish 0 [], .append 1, .create, .create, .create] S ∧
    S.Drained ∧ S.HandedOutAll [0, 1] := by
  let ops : List (OutOp ℕ ℕ) :=
    [.append 0, .publish 0 [], .append 1, .create, .create, .create]
  have hsome : (Transition.execute step KeepsMessages create ops).isSome = true := by decide
  have hrun := Transition.run_of_execute (Option.some_get hsome).symm
  have hdrained : ((Transition.execute step KeepsMessages create ops).get hsome).Drained := rfl
  exact ⟨_, hrun, hdrained, handedOutAll_of_run hrun (by decide) hdrained⟩

/-- **A RESULT is lost.** A message was queued behind the marker; the PUBLISH that
empties the publish queue sets the place to insert at back to the head of the list,
which is that message, and the next append overwrites it. -/
theorem result_lost : ∃ S : OutSystem ℕ ℕ,
    Transition.Run step Transition.anyStep create
      [.publish 0 [], .append 0, .create, .append 1, .create] S ∧
    S.Drained ∧ ¬S.HandedOutAll [0, 1] := by
  let ops : List (OutOp ℕ ℕ) := [.publish 0 [], .append 0, .create, .append 1, .create]
  have hsome : (Transition.execute step Transition.anyStep create ops).isSome = true := by decide
  have hrun := Transition.run_of_execute (Option.some_get hsome).symm
  refine ⟨_, hrun, rfl, fun h => ?_⟩
  have hout : ((Transition.execute step Transition.anyStep create ops).get
      hsome).handedOutMessages = [1] := rfl
  exact absurd (hout.symm.trans h.2) (by decide)

end OutSystem

end Wpcp
