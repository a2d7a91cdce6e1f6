import Mathlib.Algebra.Group.Nat.Defs
import Mathlib.Logic.Function.Basic
import Mathlib.Tactic.Common
import Wpcp.Lib.Run

/-!
# The output queue of a session

What a session has to send is kept in two places: RESULT messages, encoded when
they are complete, in a linked list of `struct wpcp_queued_out_message_t`; entries
of PUBLISH messages, encoded when the message is built, in `publish_queue`. The
list of messages is circular through one more node, the marker `publish_item`
inside the session, which stands for the PUBLISH message that is still to be
built: a message is linked before the marker or behind it, and the place for the
next one is `queued_out_message_insert_location`, a pointer to the link to store
into. The four functions of this file are the only ones that touch these links.

The messages are numbered by their allocation, and `messages` keeps their contents,
also of those that have been handed out: a message that its caller has deleted
keeps its cell, so that a link to it can still be written down. The contents of a
message and of an entry play no part here and are arbitrary types.

The last part is the step relation of the output side, `Wpcp.OutSystem.step`: a
RESULT is appended, entries are appended to the publish queue, or, where
`sessionHasOutMessage` says there is one, a message is taken out and deleted by the
caller.
-/

namespace Wpcp

/-! ### The links of a session -/

/-- A `struct wpcp_queued_out_message_t *` of the circular list: `none` is the
address of the marker `session->publish_item`, `some m` the message allocated
`m`-th. -/
abbrev OutLink := Option ℕ

/-- A `struct wpcp_queued_out_message_t **`: the links of the list that
`queued_out_message_insert_location` can point to. -/
inductive InsertLocation where
  /-- `&session->queued_out_messages` -/
  | queuedOutMessages
  /-- `&session->publish_item.next` -/
  | publishItemNext
  /-- `&message->next` -/
  | messageNext (m : ℕ)
  deriving DecidableEq

/-- The fields of `struct wpcp_session_t` that hold its output. -/
structure OutState (ρ ε : Type) where
  queuedOutMessages : OutLink
  queuedOutMessageInsertLocation : InsertLocation
  /-- `publish_item.next`, the link of the marker. -/
  publishItemNext : OutLink
  /-- The link of each queued message. -/
  next : ℕ → OutLink
  /-- What the messages allocated so far contain, in the order of their allocation. -/
  messages : List ρ
  /-- The entries from `publish_queue.first` to `publish_queue.last`. -/
  publishQueue : List ε
  freePublishSlots : ℕ
  kill : Bool
  /-- How many times `has_out_message.cb` has been called. -/
  notified : ℕ

/-- A `struct wpcp_out_message_t` handed to the caller: a queued message, or the
PUBLISH message built from the entries of the publish queue. -/
inductive OutMessage (ε : Type) where
  | queued (m : ℕ)
  | publish (entries : List ε)
  deriving DecidableEq

namespace OutState

variable {ρ ε : Type}

/-- The output fields as `wpcp_session_create` sets them. -/
def create : OutState ρ ε where
  queuedOutMessages := none
  queuedOutMessageInsertLocation := .queuedOutMessages
  publishItemNext := none
  next := fun _ => none
  messages := []
  publishQueue := []
  freePublishSlots := 2 ^ 32 - 1
  kill := false
  notified := 0

/-- `*(session->queued_out_message_insert_location) = link` -/
def storeAtInsertLocation (s : OutState ρ ε) (link : OutLink) : OutState ρ ε :=
  match s.queuedOutMessageInsertLocation with
  | .queuedOutMessages => { s with queuedOutMessages := link }
  | .publishItemNext => { s with publishItemNext := link }
  | .messageNext m => { s with next := Function.update s.next m link }

/-- `wpcp_session_append_out_message`; `malloc` says whether the message could be
allocated. -/
def sessionAppendOutMessage (malloc : Bool) (s : OutState ρ ε) (content : ρ) : OutState ρ ε :=
  let s :=
    if malloc then
      let ret := s.messages.length
      let s := { s with
        messages := s.messages ++ [content]
        next := Function.update s.next ret none }
      let s := s.storeAtInsertLocation (some ret)
      { s with queuedOutMessageInsertLocation := .messageNext ret }
    else { s with kill := true }
  { s with notified := s.notified + 1 }

/-- `wpcp_session_has_sendable_publish_item` -/
def sessionHasSendablePublishItem (s : OutState ρ ε) : Bool :=
  !s.publishQueue.isEmpty && s.freePublishSlots != 0

/-- `wpcp_session_has_out_message` -/
def sessionHasOutMessage (s : OutState ρ ε) : Bool :=
  if s.queuedOutMessages.isSome then true
  else s.sessionHasSendablePublishItem || s.kill

/-- `wpcp_session_add_free_publish_slots` -/
def sessionAddFreePublishSlots (s : OutState ρ ε) (count : ℕ) : OutState ρ ε :=
  let s := { s with freePublishSlots := (s.freePublishSlots + count) % 2 ^ 32 }
  if s.freePublishSlots = count ∧ s.sessionHasSendablePublishItem then
    { s with notified := s.notified + 1 }
  else s

/-- `wpcp_session_publish_queue_append`, for the chain of entries `first :: rest`. -/
def sessionPublishQueueAppend (s : OutState ρ ε) (first : ε) (rest : List ε) : OutState ρ ε :=
  let s := { s with publishQueue := s.publishQueue ++ first :: rest }
  if s.freePublishSlots ≠ 0 then
    let s :=
      if s.queuedOutMessageInsertLocation = .queuedOutMessages then
        { s with queuedOutMessageInsertLocation := .publishItemNext }
      else s
    { s with notified := s.notified + 1 }
  else s

/-- The loop of `wpcp_session_out_message_create` that counts the entries the
message will hold: one more for each entry, while there is a next one and the
count is below the free slots. -/
def publishItemCount (maxItemCount : ℕ) : ℕ → List ε → ℕ
  | itemCount, [] => itemCount
  | itemCount, [_] => itemCount + 1
  | itemCount, _ :: item :: rest =>
    if itemCount + 1 < maxItemCount then
      publishItemCount maxItemCount (itemCount + 1) (item :: rest)
    else itemCount + 1

/-- `wpcp_session_out_message_create`; `malloc` says whether the PUBLISH message
could be allocated. The caller has seen `sessionHasOutMessage`, which is what the
two assertions on the publish queue and the free slots ask for. -/
def sessionOutMessageCreate (malloc : Bool) (s : OutState ρ ε) :
    Option (OutMessage ε) × OutState ρ ε :=
  let firstQueuedOutMessage := s.queuedOutMessages
  let s := { s with
    queuedOutMessages :=
      match firstQueuedOutMessage with
      | none => s.publishItemNext
      | some m => s.next m }
  if s.kill then (none, s)
  else
    match firstQueuedOutMessage with
    | some m =>
      let s :=
        if s.queuedOutMessages = none ∧ s.publishQueue = [] then
          { s with queuedOutMessageInsertLocation := .queuedOutMessages }
        else s
      (some (.queued m), s)
    | none =>
      let itemCount := publishItemCount s.freePublishSlots 0 s.publishQueue
      if malloc then
        let entries := s.publishQueue.take itemCount
        let s := { s with
          freePublishSlots := s.freePublishSlots - itemCount
          publishQueue := s.publishQueue.drop itemCount }
        let s :=
          if s.publishQueue = [] then
            { s with queuedOutMessageInsertLocation := .queuedOutMessages }
          else s
        (some (.publish entries), s)
      else (none, s)

/-! ### What the operations do to the fields -/

section Fields

variable (s : OutState ρ ε) (content : ρ) (first : ε) (rest : List ε)

/-- The counting loop adds the smaller of the number of entries and what is left of
the slots. -/
theorem publishItemCount_eq {max count : ℕ} {entries : List ε} (hmax : count < max) :
    publishItemCount max count entries = count + min entries.length (max - count) := by
  induction entries generalizing count with
  | nil => simp [publishItemCount]
  | cons e l ih =>
    cases l with
    | nil =>
      simp only [publishItemCount, List.length_singleton]
      omega
    | cons e' l =>
      rw [publishItemCount]
      split
      · rename_i hlt
        rw [ih hlt]
        simp only [List.length_cons]
        omega
      · simp only [List.length_cons]
        omega

/-- A session with a message to send that is not to be killed has a queued message
or entries and slots for a PUBLISH: the assertions of `sessionOutMessageCreate`. -/
theorem sendable_of_hasOutMessage (hout : s.sessionHasOutMessage = true) (hkill : s.kill = false)
    (hqueue : s.queuedOutMessages = none) : s.publishQueue ≠ [] ∧ 0 < s.freePublishSlots := by
  simp only [sessionHasOutMessage, hqueue, sessionHasSendablePublishItem, hkill] at hout
  simp at hout
  exact ⟨hout.1, by omega⟩

@[simp] theorem messages_append :
    (s.sessionAppendOutMessage true content).messages = s.messages ++ [content] := by
  simp only [sessionAppendOutMessage, if_true, storeAtInsertLocation]
  split <;> rfl

@[simp] theorem publishQueue_append :
    (s.sessionAppendOutMessage true content).publishQueue = s.publishQueue := by
  simp only [sessionAppendOutMessage, if_true, storeAtInsertLocation]
  split <;> rfl

@[simp] theorem freePublishSlots_append :
    (s.sessionAppendOutMessage true content).freePublishSlots = s.freePublishSlots := by
  simp only [sessionAppendOutMessage, if_true, storeAtInsertLocation]
  split <;> rfl

/-- The publish queue and the slots after an append that may fail. -/
@[simp] theorem publishQueue_appendOutMessage (malloc : Bool) :
    (s.sessionAppendOutMessage malloc content).publishQueue = s.publishQueue := by
  cases malloc with
  | true => exact s.publishQueue_append content
  | false => rfl

@[simp] theorem freePublishSlots_appendOutMessage (malloc : Bool) :
    (s.sessionAppendOutMessage malloc content).freePublishSlots = s.freePublishSlots := by
  cases malloc with
  | true => exact s.freePublishSlots_append content
  | false => rfl

@[simp] theorem kill_append : (s.sessionAppendOutMessage true content).kill = s.kill := by
  simp only [sessionAppendOutMessage, if_true, storeAtInsertLocation]
  split <;> rfl

@[simp] theorem insertLocation_append :
    (s.sessionAppendOutMessage true content).queuedOutMessageInsertLocation =
      .messageNext s.messages.length := by
  simp [sessionAppendOutMessage]

/-- The head of the list after an append: the new message where the head was the
place to insert at. -/
theorem queuedOutMessages_append :
    (s.sessionAppendOutMessage true content).queuedOutMessages =
      if s.queuedOutMessageInsertLocation = .queuedOutMessages then some s.messages.length
      else s.queuedOutMessages := by
  simp only [sessionAppendOutMessage, if_true, storeAtInsertLocation]
  split <;> simp_all

/-- The link of the marker after an append. -/
theorem publishItemNext_append :
    (s.sessionAppendOutMessage true content).publishItemNext =
      if s.queuedOutMessageInsertLocation = .publishItemNext then some s.messages.length
      else s.publishItemNext := by
  simp only [sessionAppendOutMessage, if_true, storeAtInsertLocation]
  split <;> simp_all

/-- The links of the messages when the place to insert at is a message. -/
theorem next_append_messageNext {m : ℕ}
    (hloc : s.queuedOutMessageInsertLocation = .messageNext m) :
    (s.sessionAppendOutMessage true content).next =
      Function.update (Function.update s.next s.messages.length none) m
        (some s.messages.length) := by
  simp only [sessionAppendOutMessage, if_true, storeAtInsertLocation, hloc]

/-- The links of the messages when the place to insert at is in the session. -/
theorem next_append_session
    (hloc : ∀ m, s.queuedOutMessageInsertLocation ≠ .messageNext m) :
    (s.sessionAppendOutMessage true content).next =
      Function.update s.next s.messages.length none := by
  simp only [sessionAppendOutMessage, if_true, storeAtInsertLocation]
  split
  · rfl
  · rfl
  · rename_i m hm
    exact absurd hm (hloc m)

/-- The link of one message after an append. -/
theorem next_append (n : ℕ) :
    (s.sessionAppendOutMessage true content).next n =
      if s.queuedOutMessageInsertLocation = .messageNext n then some s.messages.length
      else if n = s.messages.length then none
      else s.next n := by
  cases hloc : s.queuedOutMessageInsertLocation with
  | messageNext m =>
    rw [next_append_messageNext _ _ hloc]
    simp [Function.update_apply, eq_comm]
  | queuedOutMessages =>
    rw [next_append_session _ _ (by simp [hloc])]
    simp [Function.update_apply]
  | publishItemNext =>
    rw [next_append_session _ _ (by simp [hloc])]
    simp [Function.update_apply]

@[simp] theorem publishQueue_publishQueueAppend :
    (s.sessionPublishQueueAppend first rest).publishQueue = s.publishQueue ++ first :: rest := by
  simp only [sessionPublishQueueAppend]
  split_ifs <;> rfl

@[simp] theorem messages_publishQueueAppend :
    (s.sessionPublishQueueAppend first rest).messages = s.messages := by
  simp only [sessionPublishQueueAppend]
  split_ifs <;> rfl

@[simp] theorem next_publishQueueAppend :
    (s.sessionPublishQueueAppend first rest).next = s.next := by
  simp only [sessionPublishQueueAppend]
  split_ifs <;> rfl

@[simp] theorem queuedOutMessages_publishQueueAppend :
    (s.sessionPublishQueueAppend first rest).queuedOutMessages = s.queuedOutMessages := by
  simp only [sessionPublishQueueAppend]
  split_ifs <;> rfl

@[simp] theorem publishItemNext_publishQueueAppend :
    (s.sessionPublishQueueAppend first rest).publishItemNext = s.publishItemNext := by
  simp only [sessionPublishQueueAppend]
  split_ifs <;> rfl

@[simp] theorem freePublishSlots_publishQueueAppend :
    (s.sessionPublishQueueAppend first rest).freePublishSlots = s.freePublishSlots := by
  simp only [sessionPublishQueueAppend]
  split_ifs <;> rfl

@[simp] theorem kill_publishQueueAppend :
    (s.sessionPublishQueueAppend first rest).kill = s.kill := by
  simp only [sessionPublishQueueAppend]
  split_ifs <;> rfl

/-- The place to insert at after entries have been published: it moves behind the
marker only from the head of the list, and only when there are free slots. -/
theorem insertLocation_publishQueueAppend :
    (s.sessionPublishQueueAppend first rest).queuedOutMessageInsertLocation =
      if s.freePublishSlots ≠ 0 ∧ s.queuedOutMessageInsertLocation = .queuedOutMessages then
        .publishItemNext
      else s.queuedOutMessageInsertLocation := by
  simp only [sessionPublishQueueAppend]
  split_ifs <;> simp_all

/-- **Taking a queued message out**: it is the head of the list, the head moves to
its link, and the place to insert at is set back when nothing is left to send. -/
theorem create_queued {m : ℕ} (malloc : Bool) (hkill : s.kill = false)
    (hm : s.queuedOutMessages = some m) :
    s.sessionOutMessageCreate malloc = (some (.queued m),
      { s with
        queuedOutMessages := s.next m
        queuedOutMessageInsertLocation :=
          if s.next m = none ∧ s.publishQueue = [] then .queuedOutMessages
          else s.queuedOutMessageInsertLocation }) := by
  simp only [sessionOutMessageCreate, hm, hkill]
  split_ifs <;> simp_all

/-- **Building a PUBLISH message**: it takes as many entries as there are slots
for, the head of the list moves to the link of the marker, and the place to insert
at is set back when no entry is left. -/
theorem create_publish (hkill : s.kill = false) (hm : s.queuedOutMessages = none)
    (hslots : 0 < s.freePublishSlots) :
    s.sessionOutMessageCreate true =
      (some (.publish (s.publishQueue.take s.freePublishSlots)),
        { s with
          queuedOutMessages := s.publishItemNext
          freePublishSlots := s.freePublishSlots - s.publishQueue.length
          publishQueue := s.publishQueue.drop s.freePublishSlots
          queuedOutMessageInsertLocation :=
            if s.publishQueue.drop s.freePublishSlots = [] then .queuedOutMessages
            else s.queuedOutMessageInsertLocation }) := by
  have hcount : publishItemCount s.freePublishSlots 0 s.publishQueue =
      min s.publishQueue.length s.freePublishSlots := by
    rw [publishItemCount_eq hslots]
    omega
  have htake : s.publishQueue.take (min s.publishQueue.length s.freePublishSlots) =
      s.publishQueue.take s.freePublishSlots := by
    rcases Nat.le_total s.publishQueue.length s.freePublishSlots with h | h
    · rw [Nat.min_eq_left h, List.take_of_length_le h, List.take_length]
    · rw [Nat.min_eq_right h]
  have hdrop : s.publishQueue.drop (min s.publishQueue.length s.freePublishSlots) =
      s.publishQueue.drop s.freePublishSlots := by
    rcases Nat.le_total s.publishQueue.length s.freePublishSlots with h | h
    · rw [Nat.min_eq_left h, List.drop_of_length_le h, List.drop_length]
    · rw [Nat.min_eq_right h]
  have hslots' : s.freePublishSlots - min s.publishQueue.length s.freePublishSlots =
      s.freePublishSlots - s.publishQueue.length := by omega
  simp only [sessionOutMessageCreate, hm, hkill, hcount, htake, hdrop, hslots']
  split_ifs <;> simp_all

@[simp] theorem kill_create (malloc : Bool) :
    (s.sessionOutMessageCreate malloc).2.kill = s.kill := by
  cases hq : s.queuedOutMessages with
  | none =>
    simp only [sessionOutMessageCreate, hq]
    split_ifs <;> simp_all
  | some m =>
    simp only [sessionOutMessageCreate, hq]
    split_ifs <;> simp_all

@[simp] theorem messages_create (malloc : Bool) :
    (s.sessionOutMessageCreate malloc).2.messages = s.messages := by
  cases hq : s.queuedOutMessages with
  | none =>
    simp only [sessionOutMessageCreate, hq]
    split_ifs <;> rfl
  | some m =>
    simp only [sessionOutMessageCreate, hq]
    split_ifs <;> rfl

@[simp] theorem kill_addFreePublishSlots (count : ℕ) :
    (s.sessionAddFreePublishSlots count).kill = s.kill := by
  simp only [sessionAddFreePublishSlots]
  split_ifs <;> rfl

/-- Taking a message out adds no free slots. -/
theorem freePublishSlots_create_le (malloc : Bool) :
    (s.sessionOutMessageCreate malloc).2.freePublishSlots ≤ s.freePublishSlots := by
  cases hq : s.queuedOutMessages with
  | none =>
    simp only [sessionOutMessageCreate, hq]
    split_ifs <;> simp
  | some m =>
    simp only [sessionOutMessageCreate, hq]
    split_ifs <;> simp

@[simp] theorem publishQueue_addFreePublishSlots (count : ℕ) :
    (s.sessionAddFreePublishSlots count).publishQueue = s.publishQueue := by
  simp only [sessionAddFreePublishSlots]
  split_ifs <;> rfl

@[simp] theorem freePublishSlots_addFreePublishSlots (count : ℕ) :
    (s.sessionAddFreePublishSlots count).freePublishSlots =
      (s.freePublishSlots + count) % 2 ^ 32 := by
  simp only [sessionAddFreePublishSlots]
  split_ifs <;> rfl

/-- Adding no slots changes nothing. -/
theorem sessionAddFreePublishSlots_zero (hslots : s.freePublishSlots < 2 ^ 32) :
    s.sessionAddFreePublishSlots 0 = s := by
  simp only [sessionAddFreePublishSlots, Nat.add_zero, Nat.mod_eq_of_lt hslots]
  refine if_neg fun ⟨hzero, hsendable⟩ => ?_
  simp [sessionHasSendablePublishItem, hzero] at hsendable

end Fields

end OutState

/-! ### The step relation of the output side -/

/-- The calls that change the output of a session. -/
inductive OutOp (ρ ε : Type) where
  /-- `wpcp_session_append_out_message` -/
  | append (content : ρ)
  /-- A publish that reaches `wpcp_session_publish_queue_append`. -/
  | publish (first : ε) (rest : List ε)
  /-- `wpcp_session_out_message_create`, the message then being deleted. -/
  | create

/-- A session together with the messages handed out so far, oldest first. -/
structure OutSystem (ρ ε : Type) where
  session : OutState ρ ε
  handedOut : List (OutMessage ε)

namespace OutSystem

variable {ρ ε : Type}

/-- A fresh session has handed nothing out. -/
def create : OutSystem ρ ε := ⟨OutState.create, []⟩

/-- One call, with no allocation failing. A message is only taken out when there is
one, as the lws callback does. -/
def step (S : OutSystem ρ ε) : OutOp ρ ε → Option (OutSystem ρ ε)
  | .append content => some { S with session := S.session.sessionAppendOutMessage true content }
  | .publish first rest =>
    some { S with session := S.session.sessionPublishQueueAppend first rest }
  | .create =>
    if S.session.sessionHasOutMessage then
      let (message, session) := S.session.sessionOutMessageCreate true
      some ⟨session, S.handedOut ++ message.toList⟩
    else none

/-- The queued messages handed out so far, oldest first. -/
def handedOutMessages (S : OutSystem ρ ε) : List ℕ :=
  S.handedOut.filterMap fun
    | .queued m => some m
    | .publish _ => none

/-- The entries handed out so far, oldest first. -/
def handedOutEntries (S : OutSystem ρ ε) : List ε :=
  S.handedOut.flatMap fun
    | .queued _ => []
    | .publish entries => entries

/-- What the calls of a run appended, in order. -/
def appended (ops : List (OutOp ρ ε)) : List ρ :=
  ops.filterMap fun
    | .append content => some content
    | _ => none

/-- The entries the calls of a run published, in order. -/
def published (ops : List (OutOp ρ ε)) : List ε :=
  ops.flatMap fun
    | .publish first rest => first :: rest
    | _ => []

section Steps

variable {S T : OutSystem ρ ε}

/-- **What taking a message out does**, once for both kinds of message: the head of
the list is handed out and the head moves to its link, or the list starts at the
marker and the PUBLISH message is built. -/
theorem step_create (hkill : S.session.kill = false) (hst : S.step .create = some T) :
    (∃ m, S.session.queuedOutMessages = some m ∧
      T = ⟨{ S.session with
          queuedOutMessages := S.session.next m
          queuedOutMessageInsertLocation :=
            if S.session.next m = none ∧ S.session.publishQueue = [] then .queuedOutMessages
            else S.session.queuedOutMessageInsertLocation },
        S.handedOut ++ [.queued m]⟩) ∨
    (S.session.queuedOutMessages = none ∧ S.session.publishQueue ≠ [] ∧
      0 < S.session.freePublishSlots ∧
      T = ⟨{ S.session with
          queuedOutMessages := S.session.publishItemNext
          freePublishSlots := S.session.freePublishSlots - S.session.publishQueue.length
          publishQueue := S.session.publishQueue.drop S.session.freePublishSlots
          queuedOutMessageInsertLocation :=
            if S.session.publishQueue.drop S.session.freePublishSlots = [] then
              .queuedOutMessages
            else S.session.queuedOutMessageInsertLocation },
        S.handedOut ++ [.publish (S.session.publishQueue.take S.session.freePublishSlots)]⟩) := by
  simp only [step] at hst
  split at hst
  · rename_i hout
    cases hq : S.session.queuedOutMessages with
    | some m =>
      rw [OutState.create_queued _ _ hkill hq] at hst
      exact Or.inl ⟨m, rfl, (Option.some.inj hst).symm⟩
    | none =>
      obtain ⟨hne, hslots⟩ := S.session.sendable_of_hasOutMessage hout hkill hq
      rw [OutState.create_publish _ hkill hq hslots] at hst
      exact Or.inr ⟨rfl, hne, hslots, (Option.some.inj hst).symm⟩
  · simp at hst

/-- The free slots stay in the range of their type. -/
theorem slots_lt_of_run {ops : List (OutOp ρ ε)}
    (hrun : Transition.Run step Transition.anyStep create ops S) :
    S.session.freePublishSlots < 2 ^ 32 := by
  refine hrun.invariant (motive := fun _ S => S.session.freePublishSlots < 2 ^ 32) ?_ ?_
  · show 2 ^ 32 - 1 < 2 ^ 32
    omega
  · rintro - S (content | ⟨first, rest⟩ | _) T hlt - hst
    · obtain rfl := Option.some.inj hst
      simpa using hlt
    · obtain rfl := Option.some.inj hst
      simpa using hlt
    · simp only [step] at hst
      split at hst
      · obtain rfl := Option.some.inj hst
        exact Nat.lt_of_le_of_lt (S.session.freePublishSlots_create_le true) hlt
      · simp at hst

/-- Without a failing allocation no step marks the session to be killed. -/
theorem kill_step {op : OutOp ρ ε} (hkill : S.session.kill = false) (hst : S.step op = some T) :
    T.session.kill = false := by
  cases op with
  | append content =>
    obtain rfl := Option.some.inj hst
    simpa using hkill
  | publish first rest =>
    obtain rfl := Option.some.inj hst
    simpa using hkill
  | create =>
    obtain ⟨m, -, rfl⟩ | ⟨-, -, -, rfl⟩ := step_create hkill hst
    · exact hkill
    · exact hkill

/-- Only an append adds to the messages. -/
theorem messages_step {op : OutOp ρ ε} {ops : List (OutOp ρ ε)} (hkill : S.session.kill = false)
    (hmessages : S.session.messages = appended ops) (hst : S.step op = some T) :
    T.session.messages = appended (ops ++ [op]) := by
  cases op with
  | append content =>
    obtain rfl := Option.some.inj hst
    simp [hmessages, appended]
  | publish first rest =>
    obtain rfl := Option.some.inj hst
    simpa [appended] using hmessages
  | create =>
    obtain ⟨-, -, rfl⟩ | ⟨-, -, -, rfl⟩ := step_create hkill hst
    · simpa [appended] using hmessages
    · simpa [appended] using hmessages

@[simp] theorem handedOutMessages_queued (s : OutState ρ ε) (l : List (OutMessage ε)) (m : ℕ) :
    handedOutMessages ⟨s, l ++ [.queued m]⟩ = handedOutMessages ⟨s, l⟩ ++ [m] := by
  simp [handedOutMessages]

@[simp] theorem handedOutMessages_publish (s : OutState ρ ε) (l : List (OutMessage ε))
    (es : List ε) : handedOutMessages ⟨s, l ++ [.publish es]⟩ = handedOutMessages ⟨s, l⟩ := by
  simp [handedOutMessages]

@[simp] theorem handedOutEntries_queued (s : OutState ρ ε) (l : List (OutMessage ε)) (m : ℕ) :
    handedOutEntries ⟨s, l ++ [.queued m]⟩ = handedOutEntries ⟨s, l⟩ := by
  simp [handedOutEntries]

@[simp] theorem handedOutEntries_publish (s : OutState ρ ε) (l : List (OutMessage ε))
    (es : List ε) :
    handedOutEntries ⟨s, l ++ [.publish es]⟩ = handedOutEntries ⟨s, l⟩ ++ es := by
  simp [handedOutEntries]

@[simp] theorem handedOutMessages_session (S : OutSystem ρ ε) (s : OutState ρ ε) :
    handedOutMessages ⟨s, S.handedOut⟩ = S.handedOutMessages := rfl

@[simp] theorem handedOutEntries_session (S : OutSystem ρ ε) (s : OutState ρ ε) :
    handedOutEntries ⟨s, S.handedOut⟩ = S.handedOutEntries := rfl

/-- What has been handed out does not depend on the rest of the state. -/
theorem handedOutMessages_congr {s t : OutState ρ ε} {l : List (OutMessage ε)} :
    handedOutMessages ⟨s, l⟩ = handedOutMessages ⟨t, l⟩ := rfl

end Steps

end OutSystem

end Wpcp
