import Wpcp.Session.Messages

/-!
# The server

`wpcp_lws.c` puts sessions on websockets. For each connection there is a `struct helper_t` with
the session; when the session has something to send, `has_out_message.cb` asks libwebsockets to
call back once the connection can be written to, and one message is handed out and written in
each such call. The calls of the library are made with a lock held, but `lws_write` is not:
another thread of the application may come in between, and the callback looks once more whether
there is something to send after it has returned.

libwebsockets is not modelled: which of its callbacks comes next, for which connection, and how
much of a message it takes, is free (`Wpcp.LwsAct`), except that a connection is closed after its
callback has returned -1, and is heard of no more after that.

**Every run of the server is a run of the library** (`Wpcp.WpcpLws.exists_run_wpcp`), and **no
message is stuck** (`Wpcp.WpcpLws.Served.step`): every step keeps that an idle connection whose
session has something to send has asked to be called back, unless a publish has marked the session
to be killed.
-/

namespace Wpcp

open Cbor (SizeT)

/-! ### The callback -/

/-- What a connection is doing. -/
inductive Stage where
  /-- No callback is running. -/
  | idle
  /-- The callback is in `lws_write`, without the lock. -/
  | writing
  /-- The callback has returned -1. -/
  | failed
  /-- The connection is closed, and its `struct helper_t` freed. -/
  | closed
  deriving DecidableEq

/-- `struct helper_t`, and what libwebsockets knows of the connection. -/
structure Helper where
  session : Option ℕ
  /-- `lws_callback_on_writable` has been called since the connection has last been told that it
  can be written to. -/
  callbackOnWritable : Bool
  stage : Stage
  deriving DecidableEq

/-- `struct wpcp_lws_t`, with the connections in the order in which they were established. -/
structure WpcpLws where
  wpcp : World
  helpers : List Helper

/-- The reasons for which `rwpcp_wpcp_calback` is called, and a call of the application from
another thread. A connection is named by its number. -/
inductive LwsAct where
  /-- `LWS_CALLBACK_ESTABLISHED` -/
  | established
  /-- `LWS_CALLBACK_SERVER_WRITEABLE`, up to `lws_write`. -/
  | writeable (wsi : ℕ)
  /-- `lws_write` has returned; whether it has taken the whole message. -/
  | written (wsi : ℕ) (complete : Bool)
  /-- `LWS_CALLBACK_RECEIVE`, with the arguments of `Wpcp.Act.inMessage`. -/
  | receive (wsi : ℕ) (mem : ℕ → UInt8) (data size fuel : ℕ)
  /-- `LWS_CALLBACK_CLOSED` -/
  | closed (wsi : ℕ)
  /-- The application makes a call, with the lock held. -/
  | call (call : Call)

/-- What a call that returns has given, and the world after it. -/
def Calls.returned {α : Type} (m : Calls α) (w : World) : Option (α × World) :=
  match m.run w with
  | some (.ok a, w) => some (a, w)
  | _ => none

/-- How many times `has_out_message.cb` has been called for a session. -/
def World.notified (w : World) (session : ℕ) : ℕ := (w.outputOf session).session.notified

/-- `has_out_message_cb`, if it has been called for the session between two worlds. -/
def Helper.hasOutMessageCb (w w' : World) (helper : Helper) : Helper :=
  if helper.session.any fun session => w.notified session < w'.notified session then
    { helper with callbackOnWritable := true }
  else helper

namespace WpcpLws

/-- `wpcp_lws_create`, before the first connection. -/
def create (sizeT : SizeT) (callbacks : Callback → Bool) (malloc : ℕ → Bool) : WpcpLws :=
  ⟨.create sizeT callbacks malloc, []⟩

/-- A connection at one of some stages, and its session; the session may be the null pointer,
which is then followed. -/
def helper (l : WpcpLws) (wsi : ℕ) (stages : List Stage) : Option (Helper × ℕ) :=
  l.helpers[wsi]?.bind fun helper =>
    if helper.stage ∈ stages then helper.session.map fun session => (helper, session) else none

/-- `LWS_CALLBACK_SERVER_WRITEABLE`, up to `lws_write` -/
def writeable (l : WpcpLws) (wsi session : ℕ) (helper : Helper) : Option (List Helper × World) :=
  (l.wpcp.sessions.get session).bind fun σ =>
    if σ.out.sessionHasOutMessage then
      ((sessionOutMessageCreate session).returned l.wpcp).map fun (outMessage, w) =>
        (l.helpers.set wsi { helper with
          callbackOnWritable := false
          stage := if outMessage.isSome then .writing else .failed }, w)
    else some (l.helpers.set wsi { helper with callbackOnWritable := false }, l.wpcp)

/-- The rest of `LWS_CALLBACK_SERVER_WRITEABLE`, when `lws_write` has returned. -/
def written (l : WpcpLws) (wsi session : ℕ) (helper : Helper) (complete : Bool) :
    Option (List Helper × World) :=
  if complete then
    (l.wpcp.sessions.get session).map fun σ =>
      (l.helpers.set wsi { helper with
        callbackOnWritable := helper.callbackOnWritable || σ.out.sessionHasOutMessage
        stage := .idle }, l.wpcp)
  else some (l.helpers.set wsi { helper with stage := .failed }, l.wpcp)

/-- `rwpcp_wpcp_calback`: the connections and the library after a callback, without what
`has_out_message_cb` does. -/
def rwpcpWpcpCallback (app : Application) (l : WpcpLws) : LwsAct → Option (List Helper × World)
  | .established => (sessionCreate.returned l.wpcp).map fun (session, w) =>
    (l.helpers ++ [⟨session, false, .idle⟩], w)
  | .writeable wsi => (l.helper wsi [.idle]).bind fun (helper, session) =>
    l.writeable wsi session helper
  | .written wsi complete => (l.helper wsi [.writing]).bind fun (helper, session) =>
    l.written wsi session helper complete
  | .receive wsi mem data size fuel => (l.helper wsi [.idle]).bind fun (helper, session) =>
    ((sessionHandleInMessage ⟨l.wpcp.sizeT, mem⟩ app fuel session data size).returned l.wpcp).map
      fun (ret, w) =>
        (l.helpers.set wsi { helper with stage := if ret then .idle else .failed }, w)
  | .closed wsi => (l.helper wsi [.idle, .failed]).bind fun (helper, session) =>
    ((sessionDelete app session).returned l.wpcp).map fun (_, w) =>
      (l.helpers.set wsi { helper with stage := .closed }, w)
  | .call call => (call.performLegal.returned l.wpcp).map fun (_, w) => (l.helpers, w)

/-- One step of the server. -/
def step (app : Application) (l : WpcpLws) (act : LwsAct) : Option WpcpLws :=
  (l.rwpcpWpcpCallback app act).map fun (helpers, w) =>
    ⟨w, helpers.map (Helper.hasOutMessageCb l.wpcp w)⟩

end WpcpLws

/-! ### Runs of the server are runs of the library -/

theorem Calls.run_of_returned {α : Type} {m : Calls α} {w w' : World} {a : α}
    (h : m.returned w = some (a, w')) : m.run w = some (.ok a, w') := by
  unfold Calls.returned at h
  split at h
  · obtain ⟨rfl, rfl⟩ := Prod.mk.inj (Option.some.inj h)
    assumption
  · exact absurd h nofun

theorem Calls.after_of_run {α : Type} {m : Calls α} {w w' : World} {a : α}
    (h : m.run w = some (.ok a, w')) : m.after w = some w' := by
  rw [Calls.after, h]

/-- What leaves an assertion alone has left it alone when it has returned. -/
theorem Leaves.of_returned {α : Type} {P : World → Prop} {m : Calls α} (hm : Leaves P m)
    {w w' : World} {a : α} (h : m.returned w = some (a, w')) (hw : P w) : P w' :=
  (hm w hw _ _ (Calls.run_of_returned h)).1 a rfl

/-- A message is taken out by a call that the application may make. -/
theorem run_performLegal_outMessageCreate {w w' : World} {s : ℕ} {σ : Session}
    (hσ : w.sessions.get s = some σ) (hout : σ.out.sessionHasOutMessage = true)
    {message : Option (OutMessage Entry)}
    (hrun : (sessionOutMessageCreate s).run w = some (.ok message, w')) :
    (Call.outMessageCreate s).performLegal.run w = some (.ok (), w') := by
  have hlegal : (Call.outMessageCreate s).Legal w := by
    refine ⟨nofun, ?_⟩
    show (w.sessions.get s).any (·.out.sessionHasOutMessage) = true
    rw [hσ]
    exact hout
  rw [Call.performLegal, Attempt.run_bind_ok (a := w) (t := w) rfl, if_pos hlegal,
    Attempt.run_bind_ok (a := ()) (t := w) rfl]
  exact Attempt.run_bind_ok hrun

namespace WpcpLws

variable {app : Application} {l l' : WpcpLws} {act : LwsAct} {wsi session : ℕ}

theorem helper_eq_some {stages : List Stage} {h : Helper}
    (hh : l.helper wsi stages = some (h, session)) :
    l.helpers[wsi]? = some h ∧ h.stage ∈ stages ∧ h.session = some session := by
  obtain ⟨h', hget, hh⟩ := Option.bind_eq_some_iff.mp hh
  split at hh
  · obtain ⟨s, hs, heq⟩ := Option.map_eq_some_iff.mp hh
    obtain ⟨rfl, rfl⟩ := Prod.mk.inj heq
    exact ⟨hget, ‹_›, hs⟩
  · exact absurd hh nofun

/-- **A callback is a step of the library**, or leaves it alone. -/
theorem wpcp_of_callback {helpers : List Helper} {w : World}
    (h : l.rwpcpWpcpCallback app act = some (helpers, w)) :
    w = l.wpcp ∨ ∃ a, l.wpcp.step app a = some w := by
  cases act with
  | established =>
    obtain ⟨⟨s, w'⟩, hrun, heq⟩ := Option.map_eq_some_iff.mp h
    obtain ⟨rfl, rfl⟩ := Prod.mk.inj heq
    exact Or.inr ⟨.sessionCreate, Calls.after_of_run (Calls.run_of_returned hrun)⟩
  | writeable wsi =>
    obtain ⟨⟨helper, session⟩, -, h⟩ := Option.bind_eq_some_iff.mp h
    obtain ⟨σ, hσ, h⟩ := Option.bind_eq_some_iff.mp h
    split at h
    · obtain ⟨⟨message, w'⟩, hrun, heq⟩ := Option.map_eq_some_iff.mp h
      obtain ⟨rfl, rfl⟩ := Prod.mk.inj heq
      exact Or.inr ⟨.call (.outMessageCreate session), Calls.after_of_run
        (run_performLegal_outMessageCreate hσ ‹_› (Calls.run_of_returned hrun))⟩
    · exact Or.inl (Prod.mk.inj (Option.some.inj h)).2.symm
  | written wsi complete =>
    obtain ⟨⟨helper, session⟩, -, h⟩ := Option.bind_eq_some_iff.mp h
    dsimp only [written] at h
    split at h
    · obtain ⟨σ, hσ, heq⟩ := Option.map_eq_some_iff.mp h
      exact Or.inl (Prod.mk.inj heq).2.symm
    · exact Or.inl (Prod.mk.inj (Option.some.inj h)).2.symm
  | receive wsi mem data size fuel =>
    obtain ⟨⟨helper, session⟩, -, h⟩ := Option.bind_eq_some_iff.mp h
    obtain ⟨⟨ret, w'⟩, hrun, heq⟩ := Option.map_eq_some_iff.mp h
    obtain ⟨rfl, rfl⟩ := Prod.mk.inj heq
    exact Or.inr ⟨.inMessage session mem data size fuel,
      Calls.after_of_run (Calls.run_of_returned hrun)⟩
  | closed wsi =>
    obtain ⟨⟨helper, session⟩, -, h⟩ := Option.bind_eq_some_iff.mp h
    obtain ⟨⟨ret, w'⟩, hrun, heq⟩ := Option.map_eq_some_iff.mp h
    obtain ⟨rfl, rfl⟩ := Prod.mk.inj heq
    exact Or.inr ⟨.sessionDelete session, Calls.after_of_run (Calls.run_of_returned hrun)⟩
  | call call =>
    obtain ⟨⟨ret, w'⟩, hrun, heq⟩ := Option.map_eq_some_iff.mp h
    obtain ⟨rfl, rfl⟩ := Prod.mk.inj heq
    exact Or.inr ⟨.call call, Calls.after_of_run (Calls.run_of_returned hrun)⟩

/-- A run of the server, with any application. -/
abbrev Run (app : Application) (sizeT : SizeT) (callbacks : Callback → Bool) (malloc : ℕ → Bool)
    (acts : List LwsAct) (l : WpcpLws) : Prop :=
  Transition.Run (step app) Transition.anyStep (create sizeT callbacks malloc) acts l

variable {sizeT : SizeT} {callbacks : Callback → Bool} {malloc : ℕ → Bool} {acts : List LwsAct}

/-- **Every run of the server is a run of the library.** -/
theorem exists_run_wpcp (hrun : Run app sizeT callbacks malloc acts l) :
    ∃ as, Transition.Run (World.step app) Transition.anyStep
      (World.create sizeT callbacks malloc) as l.wpcp := by
  refine hrun.invariant (motive := fun _ l => ∃ as, Transition.Run (World.step app)
    Transition.anyStep (World.create sizeT callbacks malloc) as l.wpcp) ⟨[], .nil⟩ ?_
  rintro - l act l' ⟨as, has⟩ - hst
  obtain ⟨⟨helpers, w⟩, hcallback, rfl⟩ := Option.map_eq_some_iff.mp hst
  obtain rfl | ⟨a, ha⟩ := wpcp_of_callback hcallback
  · exact ⟨as, has⟩
  · exact ⟨as ++ [a], .snoc has trivial ha⟩

end WpcpLws

/-! ### No message is stuck -/

/-- A connection that is idle has asked to be called back if its session has something to send
and is not to be killed. -/
def Helper.Served (w : World) (helper : Helper) : Prop :=
  helper.stage = .idle → ∀ session σ, helper.session = some session →
    w.sessions.get session = some σ → σ.out.kill = false →
      σ.out.sessionHasOutMessage = true → helper.callbackOnWritable = true

@[simp] theorem Helper.stage_hasOutMessageCb (w w' : World) (helper : Helper) :
    (helper.hasOutMessageCb w w').stage = helper.stage := by
  unfold hasOutMessageCb
  split <;> rfl

@[simp] theorem Helper.session_hasOutMessageCb (w w' : World) (helper : Helper) :
    (helper.hasOutMessageCb w w').session = helper.session := by
  unfold hasOutMessageCb
  split <;> rfl

/-- What the library does while a connection is served leaves it served. -/
theorem Helper.Served.hasOutMessageCb {w w' : World} {helper : Helper} (h : helper.Served w)
    (hfrom : w.OutputsFrom w') : (helper.hasOutMessageCb w w').Served w' := by
  intro hstage session σ' hsession hσ' hkill hout
  rw [stage_hasOutMessageCb] at hstage
  rw [session_hasOutMessageCb] at hsession
  have htells := (hfrom session σ' hσ').tells
  have hnotified : w'.notified session = σ'.out.notified := by
    rw [World.notified, World.outputOf, hσ']
    rfl
  have hcalled : (helper.session.any fun session => w.notified session < w'.notified session) =
      decide (w.notified session < w'.notified session) := by rw [hsession, Option.any_some]
  unfold Helper.hasOutMessageCb
  rcases Nat.lt_or_ge (w.notified session) (w'.notified session) with hlt | hge
  · rw [if_pos (hcalled.trans (decide_eq_true hlt))]
  · rw [if_neg (by simpa [hcalled] using hge)]
    have hbefore := htells.message (le_antisymm (hnotified ▸ hge) htells.notified) hkill hout
    have hkill₀ := htells.kill hkill
    rcases hσ : w.sessions.get session with _ | σ
    · rw [World.outputOf, hσ] at hbefore
      cases hbefore
    · rw [World.outputOf, hσ] at hbefore hkill₀
      exact h hstage session σ hsession hσ hkill₀ hbefore

namespace WpcpLws

variable {app : Application} {l l' : WpcpLws} {act : LwsAct} {sizeT : SizeT}
  {callbacks : Callback → Bool} {malloc : ℕ → Bool} {acts : List LwsAct}

/-- All connections are served. -/
def Served (l : WpcpLws) : Prop := ∀ helper ∈ l.helpers, helper.Served l.wpcp

theorem served_set {helpers : List Helper} {w : World} (h : ∀ helper ∈ helpers, helper.Served w)
    {helper : Helper} (hhelper : helper.Served w) (wsi : ℕ) :
    ∀ helper' ∈ helpers.set wsi helper, helper'.Served w := by
  intro helper' hmem
  rcases List.mem_or_eq_of_mem_set hmem with hmem | rfl
  · exact h helper' hmem
  · exact hhelper

/-- A session that is created was not there before. -/
theorem get_of_sessionCreate {w w' : World} {session : ℕ}
    (h : sessionCreate.returned w = some (some session, w')) :
    session = w.sessions.next ∧ w'.sessions = w.sessions.alloc .create := by
  have hrun := Calls.run_of_returned h
  have hmalloc : malloc.run w = some (.ok (w.malloc 0), _) := run_malloc w
  rw [sessionCreate, Attempt.run_bind_ok hmalloc] at hrun
  split at hrun
  · obtain ⟨heq, rfl⟩ := Prod.mk.inj (Option.some.inj hrun)
    obtain rfl := Option.some.inj (Except.ok.inj heq)
    refine ⟨rfl, ?_⟩
    show (if _ ≠ [] then _ else _ : World).sessions = _
    split <;> rfl
  · obtain ⟨heq, -⟩ := Prod.mk.inj (Option.some.inj hrun)
    exact absurd (Except.ok.inj heq) nofun

/-- **A callback leaves the connections served**, once what it has been told is taken into
account. -/
theorem Served.callback (h : l.Served) {helpers : List Helper} {w : World}
    (hcallback : l.rwpcpWpcpCallback app act = some (helpers, w)) :
    ∀ helper ∈ helpers, helper.Served l.wpcp := by
  cases act with
  | established =>
    obtain ⟨⟨s, w'⟩, hrun, heq⟩ := Option.map_eq_some_iff.mp hcallback
    obtain ⟨rfl, rfl⟩ := Prod.mk.inj heq
    intro helper hmem
    rcases List.mem_append.mp hmem with hmem | hmem
    · exact h helper hmem
    · obtain rfl := List.mem_singleton.mp hmem
      intro _ session σ hsession hσ
      obtain rfl := (get_of_sessionCreate ((show s = some session from hsession) ▸ hrun)).1
      exact absurd (Heap.lt_next hσ) (Nat.lt_irrefl _)
  | writeable wsi =>
    obtain ⟨⟨helper, session⟩, hhelper, hcallback⟩ := Option.bind_eq_some_iff.mp hcallback
    obtain ⟨σ, hσ, hcallback⟩ := Option.bind_eq_some_iff.mp hcallback
    split at hcallback
    · obtain ⟨⟨message, w'⟩, -, heq⟩ := Option.map_eq_some_iff.mp hcallback
      obtain ⟨rfl, rfl⟩ := Prod.mk.inj heq
      refine served_set h (fun hstage => ?_) wsi
      cases message with
      | none => exact absurd hstage (show ¬Stage.failed = Stage.idle by decide)
      | some message => exact absurd hstage (show ¬Stage.writing = Stage.idle by decide)
    · obtain ⟨rfl, rfl⟩ := Prod.mk.inj (Option.some.inj hcallback)
      refine served_set h (fun _ session' τ hsession' hτ _ hout => ?_) wsi
      obtain rfl := Option.some.inj ((helper_eq_some hhelper).2.2.symm.trans hsession')
      obtain rfl := Option.some.inj (hσ.symm.trans hτ)
      exact absurd hout ‹_›
  | written wsi complete =>
    obtain ⟨⟨helper, session⟩, hhelper, hcallback⟩ := Option.bind_eq_some_iff.mp hcallback
    dsimp only [written] at hcallback
    split at hcallback
    · obtain ⟨σ, hσ, heq⟩ := Option.map_eq_some_iff.mp hcallback
      obtain ⟨rfl, rfl⟩ := Prod.mk.inj heq
      refine served_set h (fun _ session' τ hsession' hτ _ hout => ?_) wsi
      obtain rfl := Option.some.inj ((helper_eq_some hhelper).2.2.symm.trans hsession')
      obtain rfl := Option.some.inj (hσ.symm.trans hτ)
      show (_ || _) = true
      rw [hout, Bool.or_true]
    · obtain ⟨rfl, rfl⟩ := Prod.mk.inj (Option.some.inj hcallback)
      exact served_set h
        (fun hstage => absurd hstage (show ¬Stage.failed = Stage.idle by decide)) wsi
  | receive wsi mem data size fuel =>
    obtain ⟨⟨helper, session⟩, hhelper, hcallback⟩ := Option.bind_eq_some_iff.mp hcallback
    obtain ⟨⟨ret, w'⟩, -, heq⟩ := Option.map_eq_some_iff.mp hcallback
    obtain ⟨rfl, rfl⟩ := Prod.mk.inj heq
    refine served_set h (fun _ => ?_) wsi
    exact h helper (List.mem_of_getElem? (helper_eq_some hhelper).1)
      (by simpa using (helper_eq_some hhelper).2.1)
  | closed wsi =>
    obtain ⟨⟨helper, session⟩, hhelper, hcallback⟩ := Option.bind_eq_some_iff.mp hcallback
    obtain ⟨⟨ret, w'⟩, -, heq⟩ := Option.map_eq_some_iff.mp hcallback
    obtain ⟨rfl, rfl⟩ := Prod.mk.inj heq
    exact served_set h
      (fun hstage => absurd hstage (show ¬Stage.closed = Stage.idle by decide)) wsi
  | call call =>
    obtain ⟨⟨ret, w'⟩, -, heq⟩ := Option.map_eq_some_iff.mp hcallback
    obtain ⟨rfl, rfl⟩ := Prod.mk.inj heq
    exact h

/-- **A step leaves the connections served.** -/
theorem Served.step (h : l.Served) (hinv : l.wpcp.Inv False none none)
    (hst : l.step app act = some l') : l'.Served := by
  obtain ⟨⟨helpers, w⟩, hcallback, rfl⟩ := Option.map_eq_some_iff.mp hst
  have hfrom : l.wpcp.OutputsFrom w := by
    obtain rfl | ⟨a, ha⟩ := wpcp_of_callback hcallback
    · exact .refl _
    · exact World.outputsFrom_of_step hinv ha
  intro helper hmem
  obtain ⟨before, hbefore, rfl⟩ := List.mem_map.mp hmem
  exact (h.callback hcallback before hbefore).hasOutMessageCb hfrom

end WpcpLws

end Wpcp
