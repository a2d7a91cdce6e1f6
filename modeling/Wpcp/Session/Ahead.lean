import Wpcp.Lib.LinkedPath
import Wpcp.Session.OutQueue

/-!
# The messages ahead of the marker

Whatever the calls, and whatever is lost or handed out twice, a link of the output queue
only ever leads to a message appended later (`Wpcp.OutSystem.LinksForward`). So the
messages ahead of the marker, those that are handed out before the next PUBLISH message
is built, can be listed: `Wpcp.OutState.ahead`.

The last part is a rule for properties of the PUBLISH messages handed out. Let `Q` speak
of an entry and the messages handed out before it. **If `Q` holds of each entry and the
messages handed out or ahead of the marker when the entry is published, and every append
ahead of the marker keeps it, then it holds when the entry is handed out**
(`Wpcp.OutSystem.handedOutAfter_step`). The slots for entries are never given back; when
they have run out, no PUBLISH message is handed out any more.
-/

namespace Wpcp

open Linked (IsPath)

variable {ρ ε : Type}

/-- The messages reached from the head of the list. -/
def OutState.ahead (s : OutState ρ ε) : List ℕ :=
  Linked.walk s.next s.messages.length s.queuedOutMessages

namespace OutSystem

variable {S T : OutSystem ρ ε} {op : OutOp ρ ε}

/-- **Links lead to later messages**, the place to insert at has no link yet, and it is
the head only when there is nothing to publish or no slot to publish it in. -/
structure LinksForward (S : OutSystem ρ ε) : Prop where
  kill : S.session.kill = false
  next : ∀ m n, S.session.next m = some n → m < n ∧ n < S.session.messages.length
  head : ∀ m, S.session.queuedOutMessages = some m → m < S.session.messages.length
  marker : ∀ m, S.session.publishItemNext = some m → m < S.session.messages.length
  place : ∀ m, S.session.queuedOutMessageInsertLocation = .messageNext m →
    m < S.session.messages.length ∧ S.session.next m = none
  idle : 0 < S.session.freePublishSlots →
    S.session.queuedOutMessageInsertLocation = .queuedOutMessages → S.session.publishQueue = []
  handedOut : ∀ m ∈ S.handedOutMessages, m < S.session.messages.length

theorem linksForward_create : LinksForward (create : OutSystem ρ ε) where
  kill := rfl
  next := nofun
  head := nofun
  marker := nofun
  place := nofun
  idle := fun _ _ => rfl
  handedOut := nofun

theorem LinksForward.append (h : S.LinksForward) (content : ρ) :
    LinksForward { S with session := S.session.sessionAppendOutMessage true content } where
  kill := by simpa using h.kill
  next := by
    intro m n hn
    rw [OutState.next_append] at hn
    simp only [OutState.messages_append, List.length_append, List.length_singleton]
    split at hn
    · obtain rfl := Option.some.inj hn
      exact ⟨(h.place m ‹_›).1, Nat.lt_succ_self _⟩
    · split at hn
      · simp at hn
      · have := h.next m n hn
        omega
  head := by
    intro m hm
    rw [OutState.queuedOutMessages_append] at hm
    simp only [OutState.messages_append, List.length_append, List.length_singleton]
    split at hm
    · obtain rfl := Option.some.inj hm
      exact Nat.lt_succ_self _
    · exact Nat.lt_succ_of_lt (h.head m hm)
  marker := by
    intro m hm
    rw [OutState.publishItemNext_append] at hm
    simp only [OutState.messages_append, List.length_append, List.length_singleton]
    split at hm
    · obtain rfl := Option.some.inj hm
      exact Nat.lt_succ_self _
    · exact Nat.lt_succ_of_lt (h.marker m hm)
  place := by
    intro m hm
    obtain rfl : S.session.messages.length = m := by simpa using hm
    refine ⟨by simp, ?_⟩
    rw [OutState.next_append, if_neg, if_pos rfl]
    intro hloc
    exact Nat.lt_irrefl _ (h.place _ hloc).1
  idle := by simp
  handedOut := by
    intro m hm
    have := h.handedOut m hm
    simp only [OutState.messages_append, List.length_append, List.length_singleton]
    omega

theorem LinksForward.publish (h : S.LinksForward) (first : ε) (rest : List ε) :
    LinksForward { S with session := S.session.sessionPublishQueueAppend first rest } where
  kill := by simpa using h.kill
  next := by simpa using h.next
  head := by simpa using h.head
  marker := by simpa using h.marker
  place := by
    intro m hm
    rw [OutState.insertLocation_publishQueueAppend] at hm
    split at hm
    · simp at hm
    · simpa using h.place m hm
  idle := by
    intro hslots hloc
    rw [OutState.freePublishSlots_publishQueueAppend] at hslots
    rw [OutState.insertLocation_publishQueueAppend] at hloc
    split at hloc
    · simp at hloc
    · rename_i hne
      exact absurd ⟨by omega, hloc⟩ hne
  handedOut := by simpa using h.handedOut

theorem LinksForward.create (h : S.LinksForward) (hst : S.step .create = some T) :
    T.LinksForward := by
  obtain ⟨m, hm, rfl⟩ | ⟨hm, hne, hslots, rfl⟩ := step_create h.kill hst
  · refine ⟨h.kill, h.next, fun n hn => (h.next m n hn).2, h.marker, ?_, ?_, ?_⟩
    · intro n hn
      refine h.place n ?_
      simp only at hn
      split at hn
      · simp at hn
      · exact hn
    · intro hslots hloc
      simp only at hloc
      split at hloc
      · rename_i hempty
        exact hempty.2
      · exact h.idle hslots hloc
    · intro n hn
      rw [handedOutMessages_queued, List.mem_append, List.mem_singleton] at hn
      obtain hn | rfl := hn
      · exact h.handedOut n hn
      · exact h.head n hm
  · refine ⟨h.kill, h.next, h.marker, h.marker, ?_, ?_, ?_⟩
    · intro n hn
      refine h.place n ?_
      simp only at hn
      split at hn
      · simp at hn
      · exact hn
    · intro hslots' _
      simp only at hslots'
      exact List.drop_eq_nil_of_le (by omega)
    · intro n hn
      rw [handedOutMessages_publish] at hn
      exact h.handedOut n hn

/-- **No call makes a link lead back.** -/
theorem LinksForward.step (h : S.LinksForward) (hst : S.step op = some T) : T.LinksForward := by
  cases op with
  | append content =>
    obtain rfl := Option.some.inj hst
    exact h.append content
  | publish first rest =>
    obtain rfl := Option.some.inj hst
    exact h.publish first rest
  | create => exact h.create hst

/-! ### What a call does to the messages ahead -/

/-- An append links the new message ahead of the marker. -/
def AppendsAhead (S : OutSystem ρ ε) : Prop :=
  S.session.queuedOutMessageInsertLocation = .queuedOutMessages ∨
    ∃ m ∈ S.session.ahead, S.session.queuedOutMessageInsertLocation = .messageNext m

instance (S : OutSystem ρ ε) : Decidable S.AppendsAhead :=
  inferInstanceAs (Decidable (_ ∨ ∃ m ∈ S.session.ahead, _))

namespace LinksForward

theorem isPath_ahead (h : S.LinksForward) :
    IsPath S.session.next S.session.queuedOutMessages S.session.ahead :=
  Linked.isPath_walk h.next fun m hm => ⟨h.head m hm, by omega⟩

theorem ahead_eq (h : S.LinksForward) {l : List ℕ}
    (hl : IsPath S.session.next S.session.queuedOutMessages l) : S.session.ahead = l :=
  h.isPath_ahead.unique hl

theorem ahead_pairwise (h : S.LinksForward) : S.session.ahead.Pairwise (· < ·) :=
  h.isPath_ahead.pairwise_lt fun m n hn => (h.next m n hn).1

/-- The messages ahead have been appended. -/
theorem lt_of_mem_ahead (h : S.LinksForward) {m : ℕ} (hm : m ∈ S.session.ahead) :
    m < S.session.messages.length :=
  h.isPath_ahead.lt_of_mem (fun a b hb => (h.next a b hb).2) h.head hm

theorem length_notMem_ahead (h : S.LinksForward) :
    S.session.messages.length ∉ S.session.ahead :=
  fun hm => Nat.lt_irrefl _ (h.lt_of_mem_ahead hm)

/-- An append at the head replaces the list. -/
theorem ahead_append_head (h : S.LinksForward) (content : ρ)
    (hloc : S.session.queuedOutMessageInsertLocation = .queuedOutMessages) :
    (S.session.sessionAppendOutMessage true content).ahead = [S.session.messages.length] := by
  refine (h.append content).ahead_eq ⟨?_, ?_⟩
  · rw [OutState.queuedOutMessages_append, if_pos hloc]
  · rw [OutState.next_append, if_neg (by simp [hloc]), if_pos rfl]
    rfl

/-- An append at the last message ahead lengthens the list. -/
theorem ahead_append_last (h : S.LinksForward) (content : ρ) {m : ℕ} (hm : m ∈ S.session.ahead)
    (hloc : S.session.queuedOutMessageInsertLocation = .messageNext m) :
    (S.session.sessionAppendOutMessage true content).ahead =
      S.session.ahead ++ [S.session.messages.length] := by
  refine (h.append content).ahead_eq ?_
  obtain ⟨l, hl⟩ := h.isPath_ahead.eq_concat hm (h.place m hloc).2
  have hpath := h.isPath_ahead.update (q := none) h.length_notMem_ahead
  have hml : m ∉ l := by
    have hlt := h.ahead_pairwise
    rw [hl, List.pairwise_append] at hlt
    exact fun hmem => Nat.lt_irrefl m (hlt.2.2 m hmem m (by simp))
  have hne : S.session.messages.length ≠ m := fun heq => h.length_notMem_ahead (heq ▸ hm)
  rw [hl] at hpath ⊢
  rw [OutState.queuedOutMessages_append, if_neg (by simp [hloc]),
    OutState.next_append_messageNext _ _ hloc]
  exact hpath.snoc hml (Function.update_self ..) hne

/-- An append anywhere else leaves the list alone. -/
theorem ahead_append_other (h : S.LinksForward) (content : ρ) (hother : ¬S.AppendsAhead) :
    (S.session.sessionAppendOutMessage true content).ahead = S.session.ahead := by
  obtain ⟨hhead, hlast⟩ := not_or.mp hother
  refine (h.append content).ahead_eq ?_
  have hpath := h.isPath_ahead.update (q := none) h.length_notMem_ahead
  rw [OutState.queuedOutMessages_append, if_neg hhead]
  cases hloc : S.session.queuedOutMessageInsertLocation with
  | queuedOutMessages => exact absurd hloc hhead
  | publishItemNext =>
    rw [OutState.next_append_session _ _ (by simp [hloc])]
    exact hpath
  | messageNext m =>
    rw [OutState.next_append_messageNext _ _ hloc]
    exact hpath.update fun hm => hlast ⟨m, hm, hloc⟩

end LinksForward

theorem ahead_publish (s : OutState ρ ε) (first : ε) (rest : List ε) :
    (s.sessionPublishQueueAppend first rest).ahead = s.ahead := by
  simp [OutState.ahead]

/-- Taking a queued message out takes it from the front of the list. -/
theorem LinksForward.ahead_queued (h : S.LinksForward) {m : ℕ}
    (hm : S.session.queuedOutMessages = some m) (hst : S.step .create = some T) :
    S.session.ahead = m :: T.session.ahead := by
  have hT := h.create hst
  obtain ⟨n, hn, rfl⟩ | ⟨hn, -, -, rfl⟩ := step_create h.kill hst
  · obtain rfl := Option.some.inj (hm.symm.trans hn)
    exact h.ahead_eq ⟨hm, hT.isPath_ahead⟩
  · rw [hn] at hm
    simp at hm

/-! ### What is handed out before an entry -/

/-- What the queued messages of a list contain. -/
def contents (messages : List ρ) (l : List (OutMessage ε)) : List ρ :=
  l.filterMap fun
    | .queued m => messages[m]?
    | .publish _ => none

/-- What the messages handed out or ahead of the marker contain, in order. -/
def sentOrAhead (S : OutSystem ρ ε) : List ρ :=
  contents S.session.messages S.handedOut ++ S.session.ahead.filterMap (S.session.messages[·]?)

/-- Every entry handed out has `Q` of the messages handed out before it. -/
def HandedOutAfter (Q : List ρ → ε → Prop) (S : OutSystem ρ ε) : Prop :=
  ∀ before entries after, S.handedOut = before ++ .publish entries :: after →
    ∀ e ∈ entries, Q (contents S.session.messages before) e

/-- Every entry still to publish has `Q` of the messages handed out or ahead, as long as
there are slots. -/
def Ready (Q : List ρ → ε → Prop) (S : OutSystem ρ ε) : Prop :=
  0 < S.session.freePublishSlots → ∀ e ∈ S.session.publishQueue, Q S.sentOrAhead e

/-- An entry that is published has `Q`, and a message appended ahead takes it from none. -/
def InTime (Q : List ρ → ε → Prop) (S : OutSystem ρ ε) : OutOp ρ ε → Prop
  | .append content => S.AppendsAhead → ∀ e ∈ S.session.publishQueue, Q S.sentOrAhead e →
      Q (S.sentOrAhead ++ [content]) e
  | .publish first rest => ∀ e ∈ first :: rest, Q S.sentOrAhead e
  | .create => True

section Rule

variable {Q : List ρ → ε → Prop}

/-- An append leaves the contents of earlier messages alone. -/
theorem contents_append {messages : List ρ} (content : ρ) {l : List (OutMessage ε)}
    (hl : ∀ m, .queued m ∈ l → m < messages.length) :
    contents (messages ++ [content]) l = contents messages l := by
  refine List.filterMap_congr fun message hmem => ?_
  cases message with
  | queued m => exact List.getElem?_append_left (hl m hmem)
  | publish entries => rfl

/-- Taking the first of the messages ahead out changes nothing. -/
theorem sentOrAhead_queued {m : ℕ} (hmessages : T.session.messages = S.session.messages)
    (hout : T.handedOut = S.handedOut ++ [.queued m])
    (hahead : S.session.ahead = m :: T.session.ahead) : T.sentOrAhead = S.sentOrAhead := by
  have htake : contents S.session.messages (S.handedOut ++ [.queued m]) =
      contents S.session.messages S.handedOut ++ [m].filterMap (S.session.messages[·]?) := by
    rw [contents, List.filterMap_append]
    rfl
  rw [sentOrAhead, sentOrAhead, hmessages, hout, hahead, htake, List.append_assoc,
    ← List.filterMap_append, List.singleton_append]

/-- A message handed out is one of the queued ones. -/
theorem mem_handedOutMessages {m : ℕ} : m ∈ S.handedOutMessages ↔ .queued m ∈ S.handedOut := by
  unfold handedOutMessages
  rw [List.mem_filterMap]
  constructor
  · rintro ⟨message, hmem, heq⟩
    cases message with
    | queued n =>
      obtain rfl := Option.some.inj heq
      exact hmem
    | publish entries => simp at heq
  · exact fun hmem => ⟨_, hmem, rfl⟩

/-- What an append makes of the messages handed out or ahead. -/
theorem LinksForward.sentOrAhead_append (h : S.LinksForward) (content : ρ) :
    sentOrAhead { S with session := S.session.sessionAppendOutMessage true content } =
      contents S.session.messages S.handedOut ++
        (S.session.sessionAppendOutMessage true content).ahead.filterMap
          ((S.session.messages ++ [content])[·]?) := by
  unfold sentOrAhead
  rw [OutState.messages_append,
    contents_append content fun m hm => h.handedOut m (mem_handedOutMessages.mpr hm)]

/-- The contents of the messages ahead are not touched by an append. -/
theorem LinksForward.filterMap_ahead (h : S.LinksForward) (content : ρ) :
    S.session.ahead.filterMap ((S.session.messages ++ [content])[·]?) =
      S.session.ahead.filterMap (S.session.messages[·]?) :=
  List.filterMap_congr fun _ hm => List.getElem?_append_left (h.lt_of_mem_ahead hm)

/-- **One call keeps the entries to publish ready.** -/
theorem ready_step (h : S.LinksForward) (hready : S.Ready Q) (hin : S.InTime Q op)
    (hst : S.step op = some T) : T.Ready Q := by
  cases op with
  | append content =>
    obtain rfl := Option.some.inj hst
    intro hslots e he
    rw [OutState.freePublishSlots_append] at hslots
    rw [OutState.publishQueue_append] at he
    rw [h.sentOrAhead_append]
    by_cases hahead : S.AppendsAhead
    · obtain hloc | ⟨m, hm, hloc⟩ := id hahead
      · -- the head is the place to insert at only when nothing is to publish
        rw [h.idle hslots hloc] at he
        simp at he
      · rw [h.ahead_append_last content hm hloc, List.filterMap_append, h.filterMap_ahead,
          ← List.append_assoc]
        have hnew : [S.session.messages.length].filterMap
            ((S.session.messages ++ [content])[·]?) = [content] := by simp
        rw [hnew]
        exact hin hahead e he (hready hslots e he)
    · rw [h.ahead_append_other content hahead, h.filterMap_ahead]
      exact hready hslots e he
  | publish first rest =>
    obtain rfl := Option.some.inj hst
    intro hslots e he
    rw [OutState.freePublishSlots_publishQueueAppend] at hslots
    have hsame : sentOrAhead { S with session := S.session.sessionPublishQueueAppend first rest } =
        S.sentOrAhead := by
      unfold sentOrAhead
      rw [ahead_publish, OutState.messages_publishQueueAppend]
    rw [hsame]
    rw [OutState.publishQueue_publishQueueAppend] at he
    obtain he | he := List.mem_append.mp he
    · exact hready hslots e he
    · exact hin e he
  | create =>
    intro hslots e he
    obtain ⟨m, hm, hT⟩ | ⟨hm, -, -, rfl⟩ := step_create h.kill hst
    · have hahead := h.ahead_queued hm hst
      rw [sentOrAhead_queued (by rw [hT]) (by rw [hT]) hahead]
      subst hT
      exact hready hslots e he
    · simp only at hslots he
      rw [List.drop_eq_nil_of_le (by omega)] at he
      simp at he

/-- **What is handed out next has `Q`.** -/
theorem handedOutAfter_step (h : S.LinksForward) (hready : S.Ready Q)
    (hafter : S.HandedOutAfter Q) (hst : S.step op = some T) : T.HandedOutAfter Q := by
  cases op with
  | append content =>
    obtain rfl := Option.some.inj hst
    intro before entries after heq e he
    rw [OutState.messages_append, contents_append]
    · exact hafter before entries after heq e he
    · intro m hm
      refine h.handedOut m (mem_handedOutMessages.mpr ?_)
      rw [show S.handedOut = _ from heq]
      exact List.mem_append_left _ hm
  | publish first rest =>
    obtain rfl := Option.some.inj hst
    intro before entries after heq e he
    rw [OutState.messages_publishQueueAppend]
    exact hafter before entries after heq e he
  | create =>
    obtain ⟨-, -, rfl⟩ | ⟨hm, -, hslots, rfl⟩ := step_create h.kill hst
    · intro before entries after heq e he
      rcases List.eq_nil_or_concat after with rfl | ⟨after', last, rfl⟩
      · have hlast := (List.append_inj' heq rfl).2
        simp at hlast
      · rw [List.concat_eq_append, ← List.cons_append, ← List.append_assoc] at heq
        exact hafter before entries after' (List.append_inj' heq rfl).1 e he
    · intro before entries after heq e he
      rcases List.eq_nil_or_concat after with rfl | ⟨after', last, rfl⟩
      · obtain ⟨rfl, hlast⟩ := List.append_inj' heq rfl
        obtain rfl := OutMessage.publish.inj (List.singleton_inj.mp hlast)
        have hsent := hready hslots e (List.mem_of_mem_take he)
        have hnil : S.session.ahead = [] := by
          refine h.ahead_eq ?_
          rw [hm]
          rfl
        rw [sentOrAhead, hnil, List.filterMap_nil, List.append_nil] at hsent
        exact hsent
      · rw [List.concat_eq_append, ← List.cons_append, ← List.append_assoc] at heq
        exact hafter before entries after' (List.append_inj' heq rfl).1 e he

end Rule

end OutSystem

end Wpcp
