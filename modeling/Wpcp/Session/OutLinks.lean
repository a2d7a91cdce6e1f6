import Wpcp.Session.OutQueue

/-!
# The links of the output queue and the messages handed out

A message that has been handed out is the caller's, who deletes it: no link of the
session may refer to it any more. `Wpcp.OutSystem.LinksLive` says so of the three
references the session keeps, and it is what makes a message that is taken out one
that was never taken out before (`Wpcp.OutSystem.fresh_of_linksLive`).

The code keeps it only partly. The message at the head of the list is referred to by
the head, and it may also be the one `queued_out_message_insert_location` points
into, or the one the marker still links to from an earlier PUBLISH. Taking it out
moves the head, sets the insert location back only when the publish queue is empty,
and never touches the link of the marker. So the runs that keep the links are
exactly those in which no message is taken out while one of these two references is
left behind (`Wpcp.OutSystem.linksLive_run_iff`).
-/

namespace Wpcp

namespace OutSystem

variable {ρ ε : Type} {S T : OutSystem ρ ε} {op : OutOp ρ ε}

/-! ### Live links -/

/-- A message appended and not yet handed out. -/
def Pending (S : OutSystem ρ ε) (m : ℕ) : Prop :=
  m < S.session.messages.length ∧ m ∉ S.handedOutMessages

/-- A link refers to the marker of the session or to a pending message. -/
def LinkLive (S : OutSystem ρ ε) (link : OutLink) : Prop :=
  ∀ m, link = some m → S.Pending m

/-- An insert location lies in the session itself or in a pending message. -/
def LocationLive (S : OutSystem ρ ε) (location : InsertLocation) : Prop :=
  ∀ m, location = .messageNext m → S.Pending m

/-- **The three references of a session are live.** -/
structure LinksLive (S : OutSystem ρ ε) : Prop where
  queuedOutMessages : S.LinkLive S.session.queuedOutMessages
  publishItemNext : S.LinkLive S.session.publishItemNext
  insertLocation : S.LocationLive S.session.queuedOutMessageInsertLocation

/-- A message handed out by one call is the PUBLISH message that call built, or a
message that was appended and not handed out before. -/
def HandsOutFresh (S : OutSystem ρ ε) : Prop :=
  ∀ T, S.step .create = some T → ∃ message, T.handedOut = S.handedOut ++ [message] ∧
    ∀ m, message = .queued m → S.Pending m

/-- The call does not take out a message that the marker links to, nor the message
the insert location points into while there are entries to publish. -/
def LeavesNoLink (S : OutSystem ρ ε) : OutOp ρ ε → Prop
  | .create => ∀ m, S.session.queuedOutMessages = some m →
      S.session.publishItemNext ≠ some m ∧
      (S.session.queuedOutMessageInsertLocation = .messageNext m → S.session.publishQueue = [])
  | _ => True

/-- Live links hand out fresh messages only. -/
theorem fresh_of_linksLive (hkill : S.session.kill = false) (hlive : S.LinksLive) :
    S.HandsOutFresh := by
  intro T hst
  obtain ⟨m, hm, rfl⟩ | ⟨-, -, -, rfl⟩ := step_create hkill hst
  · refine ⟨.queued m, rfl, fun m' hm' => ?_⟩
    obtain rfl : m = m' := by simpa using hm'
    exact hlive.queuedOutMessages m hm
  · exact ⟨_, rfl, fun m hm => by simp at hm⟩

/-! ### The messages pending after a call -/

/-- The messages handed out were appended before. -/
def HandedOutAppended (S : OutSystem ρ ε) : Prop :=
  ∀ m ∈ S.handedOutMessages, m < S.session.messages.length

/-- The messages pending after an append are those before it and the new one. -/
theorem pending_append (content : ρ) (m : ℕ) (hout : S.HandedOutAppended) :
    Pending { S with session := S.session.sessionAppendOutMessage true content } m ↔
      (S.Pending m ∨ m = S.session.messages.length) := by
  simp only [Pending, OutState.messages_append, List.length_append, List.length_singleton]
  rw [handedOutMessages_congr (t := S.session)]
  constructor
  · rintro ⟨hlt, hnot⟩
    rcases Nat.lt_succ_iff_lt_or_eq.mp hlt with h | h
    · exact Or.inl ⟨h, hnot⟩
    · exact Or.inr h
  · rintro (⟨hlt, hnot⟩ | rfl)
    · exact ⟨by omega, hnot⟩
    · exact ⟨by omega, fun hmem => absurd (hout _ hmem) (Nat.lt_irrefl _)⟩

/-- The messages pending once `m` has been taken out. -/
theorem pending_queued {s : OutState ρ ε} (hs : s.messages = S.session.messages) {m n : ℕ} :
    Pending ⟨s, S.handedOut ++ [.queued m]⟩ n ↔ S.Pending n ∧ n ≠ m := by
  simp only [Pending, hs, handedOutMessages_queued, List.mem_append, List.mem_singleton]
  rw [handedOutMessages_congr (t := S.session)]
  tauto

/-- Building a PUBLISH takes no message out. -/
theorem pending_publish {s : OutState ρ ε} (hs : s.messages = S.session.messages)
    {es : List ε} {n : ℕ} : Pending ⟨s, S.handedOut ++ [.publish es]⟩ n ↔ S.Pending n := by
  simp only [Pending, hs, handedOutMessages_publish]
  rw [handedOutMessages_congr (t := S.session)]

/-- Publishing entries takes no message out. -/
theorem pending_publishQueueAppend (S : OutSystem ρ ε) (first : ε) (rest : List ε) (n : ℕ) :
    Pending { S with session := S.session.sessionPublishQueueAppend first rest } n ↔
      S.Pending n := by
  simp only [Pending, OutState.messages_publishQueueAppend]
  rw [handedOutMessages_congr (t := S.session)]

/-- No call hands out a message that was never appended. -/
theorem handedOutAppended_step (hkill : S.session.kill = false) (hout : S.HandedOutAppended)
    (hqueue : S.LinkLive S.session.queuedOutMessages) (hst : S.step op = some T) :
    T.HandedOutAppended := by
  cases op with
  | append content =>
    obtain rfl := Option.some.inj hst
    intro m hm
    have := hout m hm
    simp only [OutState.messages_append, List.length_append, List.length_singleton]
    omega
  | publish first rest =>
    obtain rfl := Option.some.inj hst
    intro m hm
    simpa using hout m hm
  | create =>
    obtain ⟨n, hn, rfl⟩ | ⟨-, -, -, rfl⟩ := step_create hkill hst
    · intro m hm
      rw [handedOutMessages_queued, List.mem_append, List.mem_singleton] at hm
      rcases hm with hm | rfl
      · exact hout m hm
      · exact (hqueue m hn).1
    · intro m hm
      rw [handedOutMessages_publish] at hm
      exact hout m hm

/-! ### The invariant

Besides the three references themselves it speaks of the links between pending
messages: a message is linked to from one place only, so that taking out its
predecessor moves that one link. -/

/-- What holds along the runs that leave no link behind. -/
structure LinkInv (S : OutSystem ρ ε) : Prop where
  kill : S.session.kill = false
  handedOut : S.HandedOutAppended
  live : S.LinksLive
  /-- The link of a pending message is live. -/
  next_live : ∀ m, S.Pending m → S.LinkLive (S.session.next m)
  /-- Two pending messages do not link to the same message. -/
  next_inj : ∀ m m' n, S.Pending m → S.Pending m' → S.session.next m = some n →
    S.session.next m' = some n → m = m'
  /-- A message a pending one links to is not the head of the list. -/
  next_ne_queue : ∀ m n, S.Pending m → S.session.next m = some n →
    S.session.queuedOutMessages ≠ some n
  /-- A message a pending one links to is not linked to by the marker. -/
  next_ne_marker : ∀ m n, S.Pending m → S.session.next m = some n →
    S.session.publishItemNext ≠ some n
  /-- The message to insert at is the last one. -/
  location_last : ∀ m, S.session.queuedOutMessageInsertLocation = .messageNext m →
    S.session.next m = none

theorem linkInv_create : LinkInv (create : OutSystem ρ ε) := by
  refine ⟨rfl, ?_, ⟨?_, ?_, ?_⟩, ?_, ?_, ?_, ?_, ?_⟩ <;>
    simp [create, OutState.create, LinkLive, LocationLive, Pending, HandedOutAppended,
      handedOutMessages]

/-- The link of a message after an append: that of the new message ends the list,
that of the message inserted at leads to the new one, every other is as it was. -/
theorem next_append_cases {content : ρ} {m n : ℕ}
    (h : (S.session.sessionAppendOutMessage true content).next m = some n) :
    (m ≠ S.session.messages.length ∧ S.session.next m = some n) ∨
      (n = S.session.messages.length ∧
        S.session.queuedOutMessageInsertLocation = .messageNext m) := by
  rw [OutState.next_append] at h
  split at h
  · rename_i hloc
    exact Or.inr ⟨(Option.some.inj h).symm, hloc⟩
  · split at h
    · simp at h
    · rename_i hnew
      exact Or.inl ⟨hnew, h⟩

/-- **Appending a message keeps the invariant**: the new message is linked to from
the place it was inserted at and from nowhere else. -/
theorem linkInv_append (hinv : S.LinkInv) (content : ρ) :
    LinkInv { S with session := S.session.sessionAppendOutMessage true content } := by
  have hpend := fun m => pending_append content m hinv.handedOut
  have hlen : ∀ m, S.Pending m → m ≠ S.session.messages.length := fun m hm => by
    have := hm.1
    omega
  have hold : ∀ link, S.LinkLive link →
      LinkLive { S with session := S.session.sessionAppendOutMessage true content } link :=
    fun link hlink m hm => (hpend m).mpr (Or.inl (hlink m hm))
  have hnew : LinkLive { S with session := S.session.sessionAppendOutMessage true content }
      (some S.session.messages.length) := fun m hm =>
    (hpend m).mpr (Or.inr (Option.some.inj hm).symm)
  have hprev : ∀ m, Pending { S with
      session := S.session.sessionAppendOutMessage true content } m →
      m ≠ S.session.messages.length → S.Pending m := fun m hm hne =>
    ((hpend m).mp hm).resolve_right hne
  refine ⟨?_, ?_, ⟨?_, ?_, ?_⟩, ?_, ?_, ?_, ?_, ?_⟩
  · simpa using hinv.kill
  · exact handedOutAppended_step hinv.kill hinv.handedOut hinv.live.queuedOutMessages
      (show step S (.append content) = some _ from rfl)
  · rw [OutState.queuedOutMessages_append]
    split
    · exact hnew
    · exact hold _ hinv.live.queuedOutMessages
  · rw [OutState.publishItemNext_append]
    split
    · exact hnew
    · exact hold _ hinv.live.publishItemNext
  · intro m hm
    rw [OutState.insertLocation_append] at hm
    exact hnew m (congrArg some (InsertLocation.messageNext.inj hm))
  · intro m hm n hn
    rcases next_append_cases hn with ⟨hne, h⟩ | ⟨rfl, -⟩
    · exact hold _ (hinv.next_live m (hprev m hm hne)) n h
    · exact hnew _ rfl
  · intro m m' n hm hm' hn hn'
    rcases next_append_cases hn with ⟨hne, h⟩ | ⟨rfl, hloc⟩ <;>
      rcases next_append_cases hn' with ⟨hne', h'⟩ | ⟨hlast, hloc'⟩
    · exact hinv.next_inj m m' n (hprev m hm hne) (hprev m' hm' hne') h h'
    · exact absurd hlast (hlen n (hinv.next_live m (hprev m hm hne) n h))
    · exact absurd rfl (hlen _ (hinv.next_live m' (hprev m' hm' hne') _ h'))
    · exact InsertLocation.messageNext.inj (hloc.symm.trans hloc')
  · intro m n hm hn
    rw [OutState.queuedOutMessages_append]
    rcases next_append_cases hn with ⟨hne, h⟩ | ⟨rfl, hloc⟩
    · have hlive := hinv.next_live m (hprev m hm hne) n h
      split
      · exact fun he => hlen n hlive (Option.some.inj he).symm
      · exact hinv.next_ne_queue m n (hprev m hm hne) h
    · rw [if_neg (by rw [hloc]; simp)]
      exact fun he => hlen _ (hinv.live.queuedOutMessages _ he) rfl
  · intro m n hm hn
    rw [OutState.publishItemNext_append]
    rcases next_append_cases hn with ⟨hne, h⟩ | ⟨rfl, hloc⟩
    · have hlive := hinv.next_live m (hprev m hm hne) n h
      split
      · exact fun he => hlen n hlive (Option.some.inj he).symm
      · exact hinv.next_ne_marker m n (hprev m hm hne) h
    · rw [if_neg (by rw [hloc]; simp)]
      exact fun he => hlen _ (hinv.live.publishItemNext _ he) rfl
  · intro m hm
    rw [OutState.insertLocation_append] at hm
    obtain rfl := InsertLocation.messageNext.inj hm
    cases hn : (S.session.sessionAppendOutMessage true content).next
        S.session.messages.length with
    | none => rfl
    | some n =>
      rcases next_append_cases hn with ⟨hne, -⟩ | ⟨rfl, hloc⟩
      · exact absurd rfl hne
      · exact absurd rfl (hlen _ (hinv.live.insertLocation _ hloc))

/-- Publishing entries keeps the invariant: it moves the insert location to the
marker at most. -/
theorem linkInv_publish (hinv : S.LinkInv) (first : ε) (rest : List ε) :
    LinkInv { S with session := S.session.sessionPublishQueueAppend first rest } := by
  have hpend := pending_publishQueueAppend S first rest
  have hloc : ∀ m, (S.session.sessionPublishQueueAppend first
      rest).queuedOutMessageInsertLocation = .messageNext m →
      S.session.queuedOutMessageInsertLocation = .messageNext m := by
    intro m hm
    rw [OutState.insertLocation_publishQueueAppend] at hm
    split at hm
    · simp at hm
    · exact hm
  refine ⟨by simpa using hinv.kill, ?_, ⟨?_, ?_, ?_⟩, ?_, ?_, ?_, ?_, ?_⟩
  · exact handedOutAppended_step hinv.kill hinv.handedOut hinv.live.queuedOutMessages
      (show step S (.publish first rest) = some _ from rfl)
  · exact fun m hm => (hpend m).mpr (hinv.live.queuedOutMessages m (by simpa using hm))
  · exact fun m hm => (hpend m).mpr (hinv.live.publishItemNext m (by simpa using hm))
  · exact fun m hm => (hpend m).mpr (hinv.live.insertLocation m (hloc m hm))
  · intro m hm n hn
    exact (hpend n).mpr (hinv.next_live m ((hpend m).mp hm) n (by simpa using hn))
  · intro m m' n hm hm' hn hn'
    exact hinv.next_inj m m' n ((hpend m).mp hm) ((hpend m').mp hm') (by simpa using hn)
      (by simpa using hn')
  · intro m n hm hn
    simpa using hinv.next_ne_queue m n ((hpend m).mp hm) (by simpa using hn)
  · intro m n hm hn
    simpa using hinv.next_ne_marker m n ((hpend m).mp hm) (by simpa using hn)
  · intro m hm
    simpa using hinv.location_last m (hloc m hm)

/-- **Taking out a message keeps the invariant when it leaves no link behind**: the
head, which referred to it, moves to its link, and the insert location is set back
with it. -/
theorem linkInv_take (hinv : S.LinkInv) (hok : S.LeavesNoLink .create)
    (hst : S.step .create = some T) : T.LinkInv := by
  have hout := handedOutAppended_step hinv.kill hinv.handedOut hinv.live.queuedOutMessages hst
  have hkill := kill_step hinv.kill hst
  obtain ⟨m, hm, rfl⟩ | ⟨hm, -, -, rfl⟩ := step_create hinv.kill hst
  · -- a queued message: it was linked to by the head, and by nothing else that stays
    have hpm : S.Pending m := hinv.live.queuedOutMessages m hm
    obtain ⟨hmarker, hlocation⟩ := hok m hm
    have hself : ∀ k, S.Pending k → S.session.next k ≠ some m := fun k hk hn =>
      hinv.next_ne_queue k m hk hn hm
    refine ⟨hkill, hout, ⟨?_, ?_, ?_⟩, ?_, ?_, ?_, ?_, ?_⟩
    · intro n hn
      refine (pending_queued rfl).mpr ⟨hinv.next_live m hpm n hn, ?_⟩
      rintro rfl
      exact hself _ hpm hn
    · intro n hn
      refine (pending_queued rfl).mpr ⟨hinv.live.publishItemNext n hn, ?_⟩
      rintro rfl
      exact hmarker hn
    · intro n hn
      simp only at hn
      split at hn
      · simp at hn
      · rename_i hreset
        refine (pending_queued rfl).mpr ⟨hinv.live.insertLocation n hn, ?_⟩
        rintro rfl
        exact hreset ⟨hinv.location_last _ hn, hlocation hn⟩
    · intro k hk n hn
      have hk' := ((pending_queued rfl).mp hk).1
      refine (pending_queued rfl).mpr ⟨hinv.next_live k hk' n hn, ?_⟩
      rintro rfl
      exact hself k hk' hn
    · intro k k' n hk hk' hn hn'
      exact hinv.next_inj k k' n ((pending_queued rfl).mp hk).1 ((pending_queued rfl).mp hk').1
        hn hn'
    · intro k n hk hn hqueue
      obtain ⟨hk, hne⟩ := (pending_queued rfl).mp hk
      exact hne (hinv.next_inj k m n hk hpm hn hqueue)
    · intro k n hk hn
      exact hinv.next_ne_marker k n ((pending_queued rfl).mp hk).1 hn
    · intro k hk
      simp only at hk
      split at hk
      · simp at hk
      · exact hinv.location_last k hk
  · -- a PUBLISH: the head takes over the link of the marker
    refine ⟨hkill, hout, ⟨?_, ?_, ?_⟩, ?_, ?_, ?_, ?_, ?_⟩
    · exact fun n hn => (pending_publish rfl).mpr (hinv.live.publishItemNext n hn)
    · exact fun n hn => (pending_publish rfl).mpr (hinv.live.publishItemNext n hn)
    · intro n hn
      simp only at hn
      split at hn
      · simp at hn
      · exact (pending_publish rfl).mpr (hinv.live.insertLocation n hn)
    · intro k hk n hn
      exact (pending_publish rfl).mpr (hinv.next_live k ((pending_publish rfl).mp hk) n hn)
    · intro k k' n hk hk' hn hn'
      exact hinv.next_inj k k' n ((pending_publish rfl).mp hk) ((pending_publish rfl).mp hk')
        hn hn'
    · intro k n hk hn
      exact hinv.next_ne_marker k n ((pending_publish rfl).mp hk) hn
    · intro k n hk hn
      exact hinv.next_ne_marker k n ((pending_publish rfl).mp hk) hn
    · intro k hk
      simp only at hk
      split at hk
      · simp at hk
      · exact hinv.location_last k hk

/-- The invariant along the runs that leave no link behind. -/
theorem linkInv_of_run {ops : List (OutOp ρ ε)}
    (hrun : Transition.Run step LeavesNoLink create ops S) : S.LinkInv := by
  refine hrun.invariant (motive := fun _ S => S.LinkInv) linkInv_create ?_
  intro _ S op T hinv hok hst
  cases op with
  | append content =>
    obtain rfl := Option.some.inj hst
    exact linkInv_append hinv content
  | publish first rest =>
    obtain rfl := Option.some.inj hst
    exact linkInv_publish hinv first rest
  | create => exact linkInv_take hinv hok hst

/-- A step between two states with live links leaves no link behind. -/
theorem leavesNoLink_of_linksLive (hkill : S.session.kill = false) (hlive : T.LinksLive)
    (hst : S.step op = some T) : S.LeavesNoLink op := by
  cases op with
  | append _ => trivial
  | publish _ _ => trivial
  | create =>
    intro m hm
    obtain ⟨n, hn, rfl⟩ | ⟨hn, -, -, -⟩ := step_create hkill hst
    · obtain rfl : n = m := Option.some.inj (hn.symm.trans hm)
      refine ⟨fun hmarker => ?_, fun hloc => ?_⟩
      · exact ((pending_queued rfl).mp (hlive.publishItemNext n hmarker)).2 rfl
      · by_contra hne
        have hkeep := hlive.insertLocation n
        simp only at hkeep
        rw [if_neg (fun h => hne h.2)] at hkeep
        exact ((pending_queued rfl).mp (hkeep hloc)).2 rfl
    · exact absurd (hn.symm.trans hm) (by simp)

/-- Without a failing allocation no run marks the session to be killed. -/
theorem kill_of_run {ok : OutSystem ρ ε → OutOp ρ ε → Prop} {ops : List (OutOp ρ ε)}
    (hrun : Transition.Run step ok create ops S) : S.session.kill = false :=
  hrun.invariant (motive := fun _ S => S.session.kill = false) rfl
    fun _ _ _ _ hkill _ hst => kill_step hkill hst

/-- **The runs that keep every link live are those that leave no link behind**, and
every message they hand out is fresh. -/
theorem linksLive_run_iff {ops : List (OutOp ρ ε)} :
    (Transition.Run step (fun S _ => S.LinksLive ∧ S.HandsOutFresh) create ops S ∧
        S.LinksLive ∧ S.HandsOutFresh) ↔
      Transition.Run step LeavesNoLink create ops S := by
  constructor
  · rintro ⟨hrun, hlive, -⟩
    -- a step taken between two live states is one that leaves no link behind
    induction hrun with
    | nil => exact .nil
    | snoc hrun hok hst ih =>
      exact .snoc (ih hok.1) (leavesNoLink_of_linksLive (kill_of_run hrun) hlive hst) hst
  · intro hrun
    have hstate : ∀ {ops} {S : OutSystem ρ ε}, Transition.Run step LeavesNoLink create ops S →
        S.LinksLive ∧ S.HandsOutFresh := fun hrun =>
      ⟨(linkInv_of_run hrun).live,
        fresh_of_linksLive (kill_of_run hrun) (linkInv_of_run hrun).live⟩
    refine ⟨?_, hstate hrun⟩
    induction hrun with
    | nil => exact .nil
    | snoc hrun _ hst ih => exact .snoc ih (hstate hrun) hst

/-- The state after a run of calls without a guard. -/
def after (ops : List (OutOp ρ ε)) : Option (OutSystem ρ ε) :=
  Transition.execute step Transition.anyStep create ops

/-- **A message is handed out twice.** It was appended behind the marker, which still
links to it after it has been taken out, so that the next PUBLISH makes it the head of
the list again. -/
theorem handedOut_twice : ∃ S : OutSystem ℕ ℕ,
    Transition.Run step Transition.anyStep create
      [.publish 0 [], .append 0, .create, .create, .publish 1 [], .create] S ∧
    ¬S.LinksLive ∧ ¬S.HandsOutFresh := by
  let S : OutSystem ℕ ℕ :=
    (after [.publish 0 [], .append 0, .create, .create, .publish 1 [], .create]).get (by decide)
  have hout : S.handedOutMessages = [0] := by decide
  have hqueue : S.session.queuedOutMessages = some 0 := by decide
  have hgone : ¬S.Pending 0 := fun h => h.2 (by rw [hout]; simp)
  refine ⟨S, Transition.run_of_execute (Option.some_get _).symm, fun hlive => ?_, fun hfresh => ?_⟩
  · exact hgone (hlive.queuedOutMessages 0 hqueue)
  · have hsome : (S.step .create).isSome = true := by decide
    obtain ⟨message, happend, hpending⟩ := hfresh _ (Option.some_get hsome).symm
    have htwice : ((S.step .create).get hsome).handedOut = S.handedOut ++ [.queued 0] := rfl
    have hmessage : message = .queued 0 := by
      simpa using List.append_cancel_left (happend.symm.trans htwice)
    exact hgone (hpending 0 hmessage)

end OutSystem

end Wpcp
