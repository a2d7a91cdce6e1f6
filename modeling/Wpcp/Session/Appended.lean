import Wpcp.Lib.LinkedPath
import Wpcp.Session.Outputs

/-!
# What stands in an output after something has been sent

Messages that are appended to an output are linked into a list of its own kind: it begins where
the place to insert at has been, and its links are the pointers that `sessionOutMessageCreate`
follows. **As long as nothing is taken out, the messages sent form one list, in their order, at
the place where the first of them was inserted; the entries sent stand at the end of the publish
queue, in theirs; and no other link has moved** (`Wpcp.OutState.Sent`). Whether an entry has been
published before the first message shows in that place: an entry that can be sent moves it from
the head of the list behind the marker (`Wpcp.OutState.place`).
-/

namespace Wpcp

variable {ρ ε : Type}

/-! ### What is sent -/

/-- The messages among what is sent. -/
def sentMessages (sent : List (ρ ⊕ ε)) : List ρ := sent.filterMap Sum.getLeft?

/-- The entries among what is sent. -/
def sentEntries (sent : List (ρ ⊕ ε)) : List ε := sent.filterMap Sum.getRight?

section Lists

@[simp] theorem sentMessages_append (sent sent' : List (ρ ⊕ ε)) :
    sentMessages (sent ++ sent') = sentMessages sent ++ sentMessages sent' :=
  List.filterMap_append

@[simp] theorem sentEntries_append (sent sent' : List (ρ ⊕ ε)) :
    sentEntries (sent ++ sent') = sentEntries sent ++ sentEntries sent' :=
  List.filterMap_append

@[simp] theorem sentMessages_inl (message : ρ) :
    sentMessages ([.inl message] : List (ρ ⊕ ε)) = [message] := rfl

@[simp] theorem sentEntries_inl (message : ρ) :
    sentEntries ([.inl message] : List (ρ ⊕ ε)) = [] := rfl

@[simp] theorem sentMessages_inr (entries : List ε) :
    sentMessages (entries.map .inr : List (ρ ⊕ ε)) = [] := by
  simp [sentMessages]

@[simp] theorem sentEntries_inr (entries : List ε) :
    sentEntries (entries.map .inr : List (ρ ⊕ ε)) = entries := by
  rw [sentEntries, List.filterMap_map]
  exact List.filterMap_some

end Lists

/-! ### Links -/

namespace OutState

/-- The link that is stored at a location. -/
def linkAt (s : OutState ρ ε) : InsertLocation → OutLink
  | .queuedOutMessages => s.queuedOutMessages
  | .publishItemNext => s.publishItemNext
  | .messageNext m => s.next m

/-- The location is a link of the session, or of a message there is. -/
def HasLink (s : OutState ρ ε) (location : InsertLocation) : Prop :=
  ∀ m, location = .messageNext m → m < s.messages.length

/-- The place to insert at, after an entry has been published. -/
def placePublished (s : OutState ρ ε) : InsertLocation :=
  if s.freePublishSlots ≠ 0 ∧ s.queuedOutMessageInsertLocation = .queuedOutMessages then
    .publishItemNext
  else s.queuedOutMessageInsertLocation

/-- The place at which the first message is inserted, if so much is sent. -/
def place (s : OutState ρ ε) : List (ρ ⊕ ε) → InsertLocation
  | .inr _ :: _ => s.placePublished
  | _ => s.queuedOutMessageInsertLocation

variable {s s₀ : OutState ρ ε} {sent : List (ρ ⊕ ε)}

/-- **One append stores two links**: the one to insert at leads to the new message, whose own ends
the list. -/
theorem linkAt_append (s : OutState ρ ε) (content : ρ) (location : InsertLocation) :
    (s.sessionAppendOutMessage true content).linkAt location =
      if location = s.queuedOutMessageInsertLocation then some s.messages.length
      else if location = .messageNext s.messages.length then none
      else s.linkAt location := by
  cases location with
  | queuedOutMessages =>
    rw [linkAt, queuedOutMessages_append]
    simp only [eq_comm, reduceCtorEq, if_false, linkAt]
  | publishItemNext =>
    rw [linkAt, publishItemNext_append]
    simp only [eq_comm, reduceCtorEq, if_false, linkAt]
  | messageNext m =>
    rw [linkAt, next_append]
    simp only [eq_comm, InsertLocation.messageNext.injEq, linkAt]

@[simp] theorem linkAt_publishQueueAppend (s : OutState ρ ε) (first : ε) (rest : List ε)
    (location : InsertLocation) :
    (s.sessionPublishQueueAppend first rest).linkAt location = s.linkAt location := by
  cases location <;> simp [linkAt]

/-- Only the first thing that is sent matters for the place. -/
theorem place_append (s : OutState ρ ε) (hne : sent ≠ []) (sent' : List (ρ ⊕ ε)) :
    s.place (sent ++ sent') = s.place sent := by
  cases sent with
  | nil => exact absurd rfl hne
  | cons x sent => cases x <;> rfl

theorem hasLink_place (h : s.HasLink s.queuedOutMessageInsertLocation) (sent : List (ρ ⊕ ε)) :
    s.HasLink (s.place sent) := by
  rcases sent with _ | ⟨_ | entry, sent⟩
  · exact h
  · exact h
  · show s.HasLink s.placePublished
    rw [placePublished]
    split
    · exact fun _ heq => absurd heq (by simp)
    · exact h

/-- A place that entries have been published at is moved by none any more. -/
theorem placePublished_idem (s : OutState ρ ε) :
    (if s.freePublishSlots ≠ 0 ∧ s.placePublished = .queuedOutMessages then
      InsertLocation.publishItemNext else s.placePublished) = s.placePublished := by
  rw [placePublished]
  split_ifs <;> simp_all

/-! ### What has been sent -/

/-- **What stands in an output after something has been sent**, and nothing else has been done. -/
structure Sent (s₀ s : OutState ρ ε) (sent : List (ρ ⊕ ε)) : Prop where
  messages : s.messages = s₀.messages ++ sentMessages sent
  publishQueue : s.publishQueue = s₀.publishQueue ++ sentEntries sent
  freePublishSlots : s.freePublishSlots = s₀.freePublishSlots
  kill : s.kill = s₀.kill
  /-- The next message is inserted behind the last one sent. -/
  location : s.queuedOutMessageInsertLocation =
    if sentMessages sent = [] then s₀.place sent else .messageNext (s.messages.length - 1)
  /-- From the place of the first message, the links lead through those sent and end. -/
  linked : sentMessages sent ≠ [] → Linked.IsPath s.next (s.linkAt (s₀.place sent))
    (List.range' s₀.messages.length (sentMessages sent).length)
  /-- Every other link is as it was. -/
  frame : ∀ location, s₀.HasLink location →
    (sentMessages sent ≠ [] → location ≠ s₀.place sent) → s.linkAt location = s₀.linkAt location

theorem Sent.refl (s : OutState ρ ε) : s.Sent s [] where
  messages := (List.append_nil _).symm
  publishQueue := (List.append_nil _).symm
  freePublishSlots := rfl
  kill := rfl
  location := rfl
  linked := fun hne => absurd rfl hne
  frame := fun _ _ _ => rfl

/-- **Entries that are published go to the end of the queue.** -/
theorem Sent.publish (h : s₀.Sent s sent) (first : ε) (rest : List ε) :
    s₀.Sent (s.sessionPublishQueueAppend first rest) (sent ++ (first :: rest).map .inr) := by
  have hsame : sentMessages (sent ++ (first :: rest).map .inr) = sentMessages sent := by
    rw [sentMessages_append, sentMessages_inr, List.append_nil]
  -- with a message there is something that has been sent before
  have hplace : sentMessages sent ≠ [] →
      s₀.place (sent ++ (first :: rest).map .inr) = s₀.place sent :=
    fun hne => s₀.place_append (fun hnil => hne (by rw [hnil]; rfl)) _
  refine ⟨?_, ?_, ?_, ?_, ?_, ?_, ?_⟩
  · rw [messages_publishQueueAppend, hsame, h.messages]
  · rw [publishQueue_publishQueueAppend, h.publishQueue, sentEntries_append, sentEntries_inr,
      List.append_assoc]
  · rw [freePublishSlots_publishQueueAppend, h.freePublishSlots]
  · rw [kill_publishQueueAppend, h.kill]
  · rw [insertLocation_publishQueueAppend, hsame, messages_publishQueueAppend, h.location,
      h.freePublishSlots]
    by_cases hnone : sentMessages sent = []
    · rw [if_pos hnone, if_pos hnone]
      rcases sent with _ | ⟨message | entry, sent⟩
      · rfl
      · exact absurd hnone (List.cons_ne_nil _ _)
      · exact s₀.placePublished_idem
    · rw [if_neg hnone, if_neg hnone]
      exact if_neg (by simp)
  · intro hne
    rw [hsame] at hne ⊢
    rw [next_publishQueueAppend, linkAt_publishQueueAppend, hplace hne]
    exact h.linked hne
  · intro location hlink hother
    rw [linkAt_publishQueueAppend]
    refine h.frame location hlink fun hne => ?_
    rw [← hplace hne]
    exact hother (by rwa [hsame])

/-- **A message that is appended comes behind those sent**, or to the place of the first one. -/
theorem Sent.append (h : s₀.Sent s sent)
    (hlocation : s₀.HasLink s₀.queuedOutMessageInsertLocation) (content : ρ) :
    s₀.Sent (s.sessionAppendOutMessage true content) (sent ++ [.inl content]) := by
  have hmessages : sentMessages (sent ++ [.inl content]) = sentMessages sent ++ [content] := by
    rw [sentMessages_append, sentMessages_inl]
  have hsome : sentMessages (sent ++ [.inl content]) ≠ [] := by
    rw [hmessages]
    exact List.append_ne_nil_of_right_ne_nil _ (List.cons_ne_nil _ _)
  have hlength : s.messages.length = s₀.messages.length + (sentMessages sent).length := by
    rw [h.messages, List.length_append]
  have hplace : s₀.place (sent ++ [.inl content]) = s₀.place sent := by
    cases sent with
    | nil => rfl
    | cons x sent => exact s₀.place_append (List.cons_ne_nil _ _) _
  have hhas := hasLink_place hlocation sent
  -- a link there was before is not that of a message sent
  have hold : ∀ location m, s₀.HasLink location → s₀.messages.length ≤ m →
      location ≠ .messageNext m := fun location m hlink hm heq => by
    have hlt := hlink m heq
    omega
  refine ⟨?_, ?_, ?_, ?_, ?_, fun _ => ?_, fun location hlink hother => ?_⟩
  · rw [messages_append, h.messages, hmessages, List.append_assoc]
  · rw [publishQueue_append, h.publishQueue, sentEntries_append, sentEntries_inl, List.append_nil]
  · rw [freePublishSlots_append, h.freePublishSlots]
  · rw [kill_append, h.kill]
  · rw [insertLocation_append, if_neg hsome, messages_append, List.length_append]
    rfl
  · rw [hplace, hmessages, List.length_append, List.length_singleton, List.range'_concat,
      Nat.one_mul, ← hlength, linkAt_append]
    have hloc := h.location
    by_cases hnone : sentMessages sent = []
    · -- the first message: its link ends the list
      rw [if_pos hnone] at hloc
      have hend := s.linkAt_append content (.messageNext s.messages.length)
      rw [hloc, if_neg (hold _ _ hhas (by omega)).symm, if_pos rfl] at hend
      rw [if_pos hloc.symm, hnone]
      exact ⟨rfl, hend⟩
    · -- another one: the link of the one before leads to it
      rw [if_neg hnone] at hloc
      obtain ⟨before, hbefore⟩ : ∃ n, (sentMessages sent).length = n + 1 :=
        Nat.exists_eq_add_one.mpr (List.length_pos_iff.mpr hnone)
      have hlast : s.messages.length - 1 = s₀.messages.length + before := by omega
      have hpath := h.linked hnone
      rw [hbefore, List.range'_concat, Nat.one_mul, ← hlast] at hpath
      have hpath' := hpath.update (b := s.messages.length) (q := none) (by
        rw [List.mem_append, List.mem_range'_1, List.mem_singleton]
        omega)
      rw [hloc, if_neg (hold _ _ hhas (by omega)), if_neg (hold _ _ hhas (by omega)),
        next_append_messageNext _ _ hloc, hbefore, List.range'_concat, Nat.one_mul, ← hlast]
      refine hpath'.snoc ?_ (Function.update_self _ _ _) (by omega)
      rw [List.mem_range'_1]
      omega
  · have hother : location ≠ s₀.place sent := by
      rw [← hplace]
      exact hother hsome
    rw [linkAt_append, if_neg, if_neg (hold _ _ hlink (by omega))]
    · exact h.frame location hlink fun _ => hother
    · rw [h.location]
      split
      · exact hother
      · rename_i hsent
        have hpos := List.length_pos_iff.mpr hsent
        exact hold _ _ hlink (by omega)

end OutState

/-! ### The place to insert at -/

/-- The place to insert at is a link there is. -/
def OutState.Inserts (s : OutState ρ ε) : Prop := s.HasLink s.queuedOutMessageInsertLocation

theorem OutState.inserts_create : (create : OutState ρ ε).Inserts := by
  intro m hm
  cases hm

/-- To take a message out leaves the place to insert at, or sets it back to the head. -/
theorem OutState.location_create (s : OutState ρ ε) (malloc : Bool) :
    (s.sessionOutMessageCreate malloc).2.queuedOutMessageInsertLocation = .queuedOutMessages ∨
      (s.sessionOutMessageCreate malloc).2.queuedOutMessageInsertLocation =
        s.queuedOutMessageInsertLocation := by
  cases hq : s.queuedOutMessages with
  | none =>
    simp only [sessionOutMessageCreate, hq]
    split_ifs <;> first | exact Or.inl rfl | exact Or.inr rfl
  | some m =>
    simp only [sessionOutMessageCreate, hq]
    split_ifs <;> first | exact Or.inl rfl | exact Or.inr rfl

theorem OutSystem.Step.inserts {S T : OutSystem ρ ε} (h : S.Step T) (hs : S.session.Inserts) :
    T.session.Inserts := by
  cases h with
  | append malloc content =>
    cases malloc with
    | false => exact hs
    | true =>
      intro m hm
      rw [OutState.insertLocation_append] at hm
      obtain rfl := InsertLocation.messageNext.inj hm
      rw [OutState.messages_append, List.length_append]
      exact Nat.lt_succ_self _
  | publish first rest =>
    intro m hm
    rw [OutState.insertLocation_publishQueueAppend] at hm
    rw [OutState.messages_publishQueueAppend]
    split at hm
    · exact absurd hm (by simp)
    · exact hs m hm
  | slots count hcount =>
    rw [OutState.Inserts, OutState.sessionAddFreePublishSlots]
    split
    · exact hs
    · exact hs
  | take malloc hout =>
    rcases S.session.location_create malloc with hlocation | hlocation
    · intro m hm
      rw [hlocation] at hm
      cases hm
    · intro m hm
      rw [S.session.messages_create malloc]
      exact hs m (hlocation.symm.trans hm)
  | kill => exact hs

theorem OutSystem.Steps.inserts {S T : OutSystem ρ ε} (h : S.Steps T) (hs : S.session.Inserts) :
    T.session.Inserts := by
  induction h with
  | refl => exact hs
  | tail _ hst ih => exact hst.inserts ih

/-- **In every run, every session inserts at a link there is.** -/
theorem inserts_of_run {app : Application} {sizeT : Cbor.SizeT} {callbacks : Callback → Bool}
    {malloc : ℕ → Bool} {acts : List Act} {w : World}
    (hrun : Transition.Run (World.step app) Transition.anyStep
      (World.create sizeT callbacks malloc) acts w) {s : ℕ} {σ : Session}
    (hσ : w.sessions.get s = some σ) : σ.out.Inserts := by
  have hall : w.Inv False none none ∧ ∀ s, (w.outputOf s).session.Inserts := by
    refine hrun.invariant
      (motive := fun _ w => w.Inv False none none ∧ ∀ s, (w.outputOf s).session.Inserts) ?_ ?_
    · exact ⟨inv_create sizeT callbacks False.elim, fun _ => OutState.inserts_create⟩
    · rintro - w act w' ⟨hinv, hinserts⟩ - hst
      refine ⟨inv_step hinv hst, fun s => ?_⟩
      rcases hσ : w'.sessions.get s with _ | σ
      · rw [World.outputOf, hσ]
        exact OutState.inserts_create
      · rw [World.outputOf, hσ]
        exact (World.outputsFrom_of_step hinv hst s σ hσ).inserts (hinserts s)
  have hinserts := hall.2 s
  rwa [World.outputOf, hσ] at hinserts

end Wpcp
