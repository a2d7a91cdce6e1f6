import Wpcp.Session.Lifetimes
import Wpcp.Transport.Server

/-!
# Connections and sessions

A connection that is established creates a session, and its `struct helper_t` is all that ever
holds it; the session is deleted when the connection is closed. **At any time each open connection
has a session of its own, unless its session could not be created, and there are no other
sessions** (`Wpcp.WpcpLws.serves_of_run`): the session of a connection that is still to be closed
has not been deleted, so that no callback follows a dangling pointer, and none is left behind by a
connection that is closed. That a session could not be created is not looked at: the connection
then has the null pointer (`Wpcp.WpcpLws.exists_established`).

The sessions of the open connections are a list (`Wpcp.WpcpLws.sessions`). A callback leaves it
alone, or adds the session it has created, or takes out the one it has deleted.
-/

namespace Wpcp

open Cbor (SizeT)

section FilterMap

variable {α β : Type} {f : α → Option β} {l : List α} {i : ℕ} {a b : α}

/-- A member of a list is replaced by one with the same image. -/
theorem filterMap_set_of_eq (h : l[i]? = some a) (hf : f b = f a) :
    (l.set i b).filterMap f = l.filterMap f := by
  induction l generalizing i with
  | nil => rfl
  | cons c l ih =>
    cases i with
    | zero =>
      obtain rfl := Option.some.inj h
      simp only [List.set_cons_zero, List.filterMap_cons, hf]
    | succ i => simp only [List.set_cons_succ, List.filterMap_cons, ih h]

/-- A member of a list is replaced by one without an image. -/
theorem perm_filterMap_set {s : β} (h : l[i]? = some a) (ha : f a = some s) (hb : f b = none) :
    (l.filterMap f).Perm (s :: (l.set i b).filterMap f) := by
  induction l generalizing i with
  | nil => exact absurd h nofun
  | cons c l ih =>
    cases i with
    | zero =>
      obtain rfl := Option.some.inj h
      simp only [List.set_cons_zero, List.filterMap_cons, ha, hb]
      exact .refl _
    | succ i =>
      simp only [List.set_cons_succ, List.filterMap_cons]
      rcases hc : f c with _ | t
      · exact ih h
      · exact ((ih h).cons t).trans (.swap s t _)

/-- Where no image comes twice, a member is known by its image. -/
theorem eq_of_nodup_filterMap {j : ℕ} {s : β} (hnodup : (l.filterMap f).Nodup) (hi : l[i]? = some a)
    (hj : l[j]? = some b) (ha : f a = some s) (hb : f b = some s) : i = j := by
  induction l generalizing i j with
  | nil => exact absurd hi nofun
  | cons c l ih =>
    have hrest : (l.filterMap f).Nodup := by
      rw [List.filterMap_cons] at hnodup
      split at hnodup
      · exact hnodup
      · exact (List.nodup_cons.mp hnodup).2
    have hfirst : ∀ {k : ℕ} {a : α}, f c = some s → l[k]? = some a → f a ≠ some s := by
      intro k a hc hk ha
      rw [List.filterMap_cons_some hc] at hnodup
      exact (List.nodup_cons.mp hnodup).1
        (List.mem_filterMap.mpr ⟨a, List.mem_of_getElem? hk, ha⟩)
    cases i with
    | zero =>
      obtain rfl := Option.some.inj hi
      cases j with
      | zero => rfl
      | succ j => exact absurd hb (hfirst ha hj)
    | succ i =>
      cases j with
      | zero =>
        obtain rfl := Option.some.inj hj
        exact absurd ha (hfirst hb hi)
      | succ j => exact congrArg (· + 1) (ih hrest hi hj)

end FilterMap

/-- The session that a connection holds. -/
def Helper.owned (helper : Helper) : Option ℕ :=
  if helper.stage = .closed then none else helper.session

theorem Helper.owned_of_ne {helper : Helper} (h : helper.stage ≠ .closed) :
    helper.owned = helper.session := if_neg h

@[simp] theorem Helper.owned_hasOutMessageCb (w w' : World) (helper : Helper) :
    (helper.hasOutMessageCb w w').owned = helper.owned := by
  rw [owned, stage_hasOutMessageCb, session_hasOutMessageCb]
  rfl

namespace WpcpLws

variable {app : Application} {l l' : WpcpLws} {act : LwsAct} {sizeT : SizeT}
  {callbacks : Callback → Bool} {malloc : ℕ → Bool} {acts : List LwsAct}

/-- The sessions of the open connections. -/
def sessions (l : WpcpLws) : List ℕ := l.helpers.filterMap Helper.owned

/-- The sessions of the open connections are the sessions there are, and all connections are
served. -/
structure Matches (l : WpcpLws) : Prop where
  nodup : l.sessions.Nodup
  mem : ∀ s, s ∈ l.sessions ↔ (l.wpcp.sessions.get s).isSome = true
  served : l.Served

/-- The connection with a number is open. -/
def IsOpen (l : WpcpLws) (wsi : ℕ) (helper : Helper) : Prop :=
  l.helpers[wsi]? = some helper ∧ helper.stage ≠ .closed

/-- **What the server is to keep**: each open connection has a session that is there, which no
other open connection has, or the null pointer; every session is that of an open connection; and
all connections are served. -/
structure Serves (l : WpcpLws) : Prop where
  own : ∀ wsi helper, l.IsOpen wsi helper → helper.session = none ∨
    ∃ s, helper.session = some s ∧ (l.wpcp.sessions.get s).isSome = true ∧
      ∀ wsi' helper', l.IsOpen wsi' helper' → helper'.session = some s → wsi' = wsi
  owner : ∀ s, (l.wpcp.sessions.get s).isSome = true →
    ∃ wsi helper, l.IsOpen wsi helper ∧ helper.session = some s
  served : l.Served

/-- Connections and sessions that match are what is to be kept. -/
theorem Matches.serves (h : l.Matches) : l.Serves := by
  have howned : ∀ {wsi helper s}, l.IsOpen wsi helper → helper.session = some s →
      helper.owned = some s := fun hopen hsession => (Helper.owned_of_ne hopen.2).trans hsession
  refine ⟨fun wsi helper hopen => ?_, fun s hs => ?_, h.served⟩
  · rcases hsession : helper.session with _ | s
    · exact Or.inl rfl
    · refine Or.inr ⟨s, rfl, (h.mem s).mp ?_, fun wsi' helper' hopen' hsession' => ?_⟩
      · exact List.mem_filterMap.mpr ⟨helper, List.mem_of_getElem? hopen.1, howned hopen hsession⟩
      · exact eq_of_nodup_filterMap h.nodup hopen'.1 hopen.1 (howned hopen' hsession')
          (howned hopen hsession)
  · obtain ⟨helper, hmem, hs⟩ := List.mem_filterMap.mp ((h.mem s).mpr hs)
    obtain ⟨wsi, hget⟩ := List.mem_iff_getElem?.mp hmem
    have hstage : helper.stage ≠ .closed := by
      intro hclosed
      rw [Helper.owned, if_pos hclosed] at hs
      cases hs
    exact ⟨wsi, helper, ⟨hget, hstage⟩, (Helper.owned_of_ne hstage).symm.trans hs⟩

/-- What a callback does to the connections and the sessions there are. -/
inductive Owns (l : WpcpLws) (helpers : List Helper) (w : World) : Prop
  /-- All have what they had. -/
  | same : helpers.filterMap Helper.owned = l.sessions → l.wpcp.SameSessions w → Owns l helpers w
  /-- One more connection has a session that was not there. -/
  | established (session : ℕ) : helpers.filterMap Helper.owned = l.sessions ++ [session] →
      l.wpcp.sessions.get session = none →
      (∀ s, (w.sessions.get s).isSome = (decide (s = session) ||
        (l.wpcp.sessions.get s).isSome)) → Owns l helpers w
  /-- A connection had a session that is there no longer. -/
  | closed (session : ℕ) : l.sessions.Perm (session :: helpers.filterMap Helper.owned) →
      (∀ s, (w.sessions.get s).isSome = ((l.wpcp.sessions.free session).get s).isSome) →
      Owns l helpers w

/-- A session that could not be created is not there. -/
theorem sessions_of_sessionCreate_none {w w' : World}
    (h : sessionCreate.returned w = some (none, w')) : w'.sessions = w.sessions := by
  have hrun := Calls.run_of_returned h
  have hmalloc : malloc.run w = some (.ok (w.malloc 0), _) := run_malloc w
  rw [sessionCreate, Attempt.run_bind_ok hmalloc] at hrun
  split at hrun
  · obtain ⟨heq, -⟩ := Prod.mk.inj (Option.some.inj hrun)
    exact absurd (Except.ok.inj heq) (by simp)
  · obtain ⟨-, rfl⟩ := Prod.mk.inj (Option.some.inj hrun)
    rfl

theorem sameSessions_refl (w : World) : w.SameSessions w := fun _ => rfl

/-- A connection that holds its session goes on to hold it. -/
theorem filterMap_set_stage {wsi session : ℕ} {stages : List Stage} {helper helper' : Helper}
    (h : l.helper wsi stages = some (helper, session)) (hopen : Stage.closed ∉ stages)
    (hsession : helper'.session = helper.session) (hstage : helper'.stage ≠ .closed) :
    (l.helpers.set wsi helper').filterMap Helper.owned = l.sessions := by
  obtain ⟨hget, hmem, -⟩ := helper_eq_some h
  refine filterMap_set_of_eq hget ?_
  rw [Helper.owned_of_ne hstage, Helper.owned_of_ne fun heq => hopen (heq ▸ hmem), hsession]

/-- **What a callback does to the connections and the sessions there are.** -/
theorem owns_of_callback (hinv : l.wpcp.Inv False none none) {helpers : List Helper} {w : World}
    (h : l.rwpcpWpcpCallback app act = some (helpers, w)) : l.Owns helpers w := by
  have hfollows := l.wpcp.followsOutputs_sameSessions
  have hbefore : l.wpcp.Inv False none none ∧ l.wpcp.SameSessions l.wpcp :=
    ⟨hinv, sameSessions_refl _⟩
  cases act with
  | established =>
    obtain ⟨⟨session, w'⟩, hrun, heq⟩ := Option.map_eq_some_iff.mp h
    obtain ⟨rfl, rfl⟩ := Prod.mk.inj heq
    cases session with
    | none =>
      refine .same (by simp [sessions, Helper.owned]) fun s => ?_
      rw [sessions_of_sessionCreate_none hrun]
    | some session =>
      obtain ⟨rfl, hsessions⟩ := get_of_sessionCreate hrun
      refine .established _ (by simp [sessions, Helper.owned]) (l.wpcp.sessions.fresh _ le_rfl)
        fun s => ?_
      rw [hsessions, Heap.get_alloc]
      split <;> simp [*]
  | writeable wsi =>
    obtain ⟨⟨helper, session⟩, hhelper, h⟩ := Option.bind_eq_some_iff.mp h
    obtain ⟨σ, hσ, h⟩ := Option.bind_eq_some_iff.mp h
    have hidle : helper.stage ≠ .closed := by
      have := (helper_eq_some hhelper).2.1
      simp_all
    split at h
    · obtain ⟨⟨message, w'⟩, hrun, heq⟩ := Option.map_eq_some_iff.mp h
      obtain ⟨rfl, rfl⟩ := Prod.mk.inj heq
      refine .same (filterMap_set_stage hhelper (by decide) rfl ?_) ?_
      · cases message <;> exact nofun
      · exact ((hfollows.leaves_performLegal
          (.outMessageCreate session)) _ hbefore _ _ (run_performLegal_outMessageCreate hσ ‹_›
            (Calls.run_of_returned hrun))).1 () rfl |>.2
    · obtain ⟨rfl, rfl⟩ := Prod.mk.inj (Option.some.inj h)
      exact .same (filterMap_set_stage hhelper (by decide) rfl hidle) (sameSessions_refl _)
  | written wsi complete =>
    obtain ⟨⟨helper, session⟩, hhelper, h⟩ := Option.bind_eq_some_iff.mp h
    dsimp only [written] at h
    split at h
    · obtain ⟨σ, -, heq⟩ := Option.map_eq_some_iff.mp h
      obtain ⟨rfl, rfl⟩ := Prod.mk.inj heq
      exact .same (filterMap_set_stage hhelper (by decide) rfl nofun) (sameSessions_refl _)
    · obtain ⟨rfl, rfl⟩ := Prod.mk.inj (Option.some.inj h)
      exact .same (filterMap_set_stage hhelper (by decide) rfl nofun) (sameSessions_refl _)
  | receive wsi mem data size fuel =>
    obtain ⟨⟨helper, session⟩, hhelper, h⟩ := Option.bind_eq_some_iff.mp h
    obtain ⟨⟨ret, w'⟩, hrun, heq⟩ := Option.map_eq_some_iff.mp h
    obtain ⟨rfl, rfl⟩ := Prod.mk.inj heq
    refine .same (filterMap_set_stage hhelper (by decide) rfl ?_) ?_
    · cases ret <;> exact nofun
    · exact (Leaves.of_returned (hfollows.leaves_sessionHandleInMessage _ _ _ _ _ _) hrun
        hbefore).2
  | closed wsi =>
    obtain ⟨⟨helper, session⟩, hhelper, h⟩ := Option.bind_eq_some_iff.mp h
    obtain ⟨⟨ret, w'⟩, hrun, heq⟩ := Option.map_eq_some_iff.mp h
    obtain ⟨rfl, rfl⟩ := Prod.mk.inj heq
    obtain ⟨hget, hmem, hsession⟩ := helper_eq_some hhelper
    refine .closed session (perm_filterMap_set hget ?_ (if_pos rfl)) ?_
    · rw [Helper.owned_of_ne fun heq => absurd (heq ▸ hmem) (by decide), hsession]
    · exact (ensures_sessionDelete_sessions app l.wpcp session _ ⟨hinv, rfl⟩ _ _
        (Calls.run_of_returned hrun)).1 _ rfl
  | call call =>
    obtain ⟨⟨ret, w'⟩, hrun, heq⟩ := Option.map_eq_some_iff.mp h
    obtain ⟨rfl, rfl⟩ := Prod.mk.inj heq
    exact .same rfl (Leaves.of_returned (hfollows.leaves_performLegal call) hrun hbefore).2

/-- **A step keeps connections and sessions matched.** -/
theorem Matches.step (h : l.Matches) (hinv : l.wpcp.Inv False none none)
    (hst : l.step app act = some l') : l'.Matches := by
  have hserved := h.served.step hinv hst
  obtain ⟨⟨helpers, w⟩, hcallback, rfl⟩ := Option.map_eq_some_iff.mp hst
  have hsessions : (⟨w, helpers.map (Helper.hasOutMessageCb l.wpcp w)⟩ : WpcpLws).sessions =
      helpers.filterMap Helper.owned := by
    rw [sessions, List.filterMap_map]
    exact List.filterMap_congr fun helper _ => helper.owned_hasOutMessageCb _ _
  refine ⟨?_, fun s => ?_, hserved⟩
  · rw [hsessions]
    rcases owns_of_callback hinv hcallback with ⟨heq, -⟩ | ⟨session, heq, hnone, -⟩ |
      ⟨session, hperm, -⟩
    · exact heq ▸ h.nodup
    · rw [heq]
      refine List.nodup_append.mpr ⟨h.nodup, List.nodup_singleton _, ?_⟩
      rintro s hs _ hs' rfl
      obtain rfl := List.mem_singleton.mp hs'
      have hsome := (h.mem _).mp hs
      rw [hnone] at hsome
      exact absurd hsome nofun
    · exact (List.nodup_cons.mp (hperm.nodup_iff.mp h.nodup)).2
  · rw [hsessions]
    show _ ↔ (w.sessions.get s).isSome = true
    rcases owns_of_callback hinv hcallback with ⟨heq, hsame⟩ | ⟨session, heq, -, hget⟩ |
      ⟨session, hperm, hget⟩
    · rw [heq, hsame s]
      exact h.mem s
    · rw [heq, hget s, List.mem_append, List.mem_singleton, Bool.or_eq_true, decide_eq_true_iff,
        h.mem s]
      exact or_comm
    · obtain ⟨hnot, -⟩ := List.nodup_cons.mp (hperm.nodup_iff.mp h.nodup)
      have hmem := (hperm.mem_iff (a := s)).symm.trans (h.mem s)
      rw [hget s, Heap.get_free, List.mem_cons] at *
      by_cases heq : s = session
      · subst heq
        simp [hnot]
      · simpa [heq] using hmem

/-! ### Where a session could not be created -/

/-- A step leaves the connections their sessions, or adds the connection that is established, whose
session is the null pointer exactly where its allocation fails. -/
theorem session_of_step (hst : l.step app act = some l') :
    l'.helpers.map Helper.session = l.helpers.map Helper.session ∨
      act = .established ∧ ∃ session,
        l'.helpers.map Helper.session = l.helpers.map Helper.session ++ [session] ∧
        (session = none ↔ l.wpcp.malloc 0 = false) := by
  obtain ⟨⟨helpers, w⟩, hcallback, rfl⟩ := Option.map_eq_some_iff.mp hst
  have hsame : (helpers.map (Helper.hasOutMessageCb l.wpcp w)).map Helper.session =
      helpers.map Helper.session := by
    rw [List.map_map]
    exact List.map_congr_left fun helper _ => helper.session_hasOutMessageCb _ _
  rw [hsame]
  have hset : ∀ {wsi stages session} {helper helper' : Helper},
      l.helper wsi stages = some (helper, session) → helper'.session = helper.session →
      (l.helpers.set wsi helper').map Helper.session = l.helpers.map Helper.session := by
    intro wsi stages session helper helper' hhelper hsession
    obtain ⟨hget, -, -⟩ := helper_eq_some hhelper
    obtain ⟨hlt, rfl⟩ := List.getElem?_eq_some_iff.mp hget
    have hlt : wsi < (l.helpers.map Helper.session).length := by rwa [List.length_map]
    have hself : (l.helpers.map Helper.session)[wsi] = helper'.session := by
      rw [List.getElem_map, hsession]
    rw [List.map_set, ← hself]
    exact List.set_getElem_self _
  cases act with
  | established =>
    obtain ⟨⟨session, w'⟩, hrun, heq⟩ := Option.map_eq_some_iff.mp hcallback
    obtain ⟨rfl, rfl⟩ := Prod.mk.inj heq
    refine Or.inr ⟨rfl, session, List.map_append, ?_⟩
    have hrun := Calls.run_of_returned hrun
    rw [sessionCreate, Attempt.run_bind_ok (run_malloc l.wpcp)] at hrun
    by_cases hmalloc : l.wpcp.malloc 0 = true
    · rw [if_pos hmalloc] at hrun
      obtain ⟨heq, -⟩ := Prod.mk.inj (Option.some.inj hrun)
      obtain rfl := Except.ok.inj heq
      exact iff_of_false (Option.some_ne_none _) (by simp [hmalloc])
    · rw [if_neg hmalloc] at hrun
      obtain ⟨heq, -⟩ := Prod.mk.inj (Option.some.inj hrun)
      obtain rfl := Except.ok.inj heq
      exact iff_of_true rfl (Bool.not_eq_true _ ▸ hmalloc)
  | writeable wsi =>
    obtain ⟨⟨helper, session⟩, hhelper, h⟩ := Option.bind_eq_some_iff.mp hcallback
    obtain ⟨σ, hσ, h⟩ := Option.bind_eq_some_iff.mp h
    split at h
    · obtain ⟨⟨message, w'⟩, -, heq⟩ := Option.map_eq_some_iff.mp h
      obtain ⟨rfl, rfl⟩ := Prod.mk.inj heq
      exact Or.inl (hset hhelper rfl)
    · obtain ⟨rfl, rfl⟩ := Prod.mk.inj (Option.some.inj h)
      exact Or.inl (hset hhelper rfl)
  | written wsi complete =>
    obtain ⟨⟨helper, session⟩, hhelper, h⟩ := Option.bind_eq_some_iff.mp hcallback
    dsimp only [written] at h
    split at h
    · obtain ⟨σ, -, heq⟩ := Option.map_eq_some_iff.mp h
      obtain ⟨rfl, rfl⟩ := Prod.mk.inj heq
      exact Or.inl (hset hhelper rfl)
    · obtain ⟨rfl, rfl⟩ := Prod.mk.inj (Option.some.inj h)
      exact Or.inl (hset hhelper rfl)
  | receive wsi mem data size fuel =>
    obtain ⟨⟨helper, session⟩, hhelper, h⟩ := Option.bind_eq_some_iff.mp hcallback
    obtain ⟨⟨ret, w'⟩, -, heq⟩ := Option.map_eq_some_iff.mp h
    obtain ⟨rfl, rfl⟩ := Prod.mk.inj heq
    exact Or.inl (hset hhelper rfl)
  | closed wsi =>
    obtain ⟨⟨helper, session⟩, hhelper, h⟩ := Option.bind_eq_some_iff.mp hcallback
    obtain ⟨⟨ret, w'⟩, -, heq⟩ := Option.map_eq_some_iff.mp h
    obtain ⟨rfl, rfl⟩ := Prod.mk.inj heq
    exact Or.inl (hset hhelper rfl)
  | call call =>
    obtain ⟨⟨ret, w'⟩, -, heq⟩ := Option.map_eq_some_iff.mp hcallback
    obtain ⟨rfl, rfl⟩ := Prod.mk.inj heq
    exact Or.inl rfl

/-- **A connection has the null pointer exactly where its session could not be created** when it
was established. -/
theorem exists_established (hrun : Run app sizeT callbacks malloc acts l) {wsi : ℕ}
    {session : Option ℕ} (hget : (l.helpers.map Helper.session)[wsi]? = some session) :
    ∃ before l₀ after, acts = before ++ .established :: after ∧
      Run app sizeT callbacks malloc before l₀ ∧ l₀.helpers.length = wsi ∧
      (session = none ↔ l₀.wpcp.malloc 0 = false) := by
  induction hrun with
  | nil => exact absurd hget nofun
  | @snoc l₀ l as act hrun _ hst ih =>
    have hkept : (l₀.helpers.map Helper.session)[wsi]? = some session → ∃ before l₁ after,
        as ++ [act] = before ++ .established :: after ∧ Run app sizeT callbacks malloc before l₁ ∧
        l₁.helpers.length = wsi ∧ (session = none ↔ l₁.wpcp.malloc 0 = false) := by
      intro hget
      obtain ⟨before, l₁, after, rfl, hbefore⟩ := ih hget
      exact ⟨before, l₁, after ++ [act], by simp, hbefore⟩
    obtain hsame | ⟨rfl, session', hnext, hiff⟩ := session_of_step hst
    · exact hkept (hsame ▸ hget)
    · rw [hnext, List.getElem?_append] at hget
      split at hget
      · exact hkept hget
      · -- this is the connection that has just been established
        rename_i hge
        have hzero : wsi - (l₀.helpers.map Helper.session).length = 0 := by
          by_contra hne
          rw [List.getElem?_eq_none (by simp only [List.length_singleton]; omega)] at hget
          cases hget
        rw [hzero] at hget
        obtain rfl := Option.some.inj hget
        rw [List.length_map] at hge hzero
        exact ⟨as, l₀, [], rfl, hrun, by omega, hiff⟩

/-- **In every run of the server, each open connection has a session of its own, unless its
session could not be created when the connection was established, there are no other sessions, and
no message is stuck**; and what the library has done is a run of its own. -/
theorem serves_of_run (hrun : Run app sizeT callbacks malloc acts l) :
    l.Serves ∧
      (∀ wsi helper, l.IsOpen wsi helper → ∃ before l₀ after,
        acts = before ++ .established :: after ∧ Run app sizeT callbacks malloc before l₀ ∧
        l₀.helpers.length = wsi ∧ (helper.session = none ↔ l₀.wpcp.malloc 0 = false)) ∧
      ∃ as, Transition.Run (World.step app) Transition.anyStep
        (World.create sizeT callbacks malloc) as l.wpcp := by
  have hmatches : l.wpcp.Inv False none none ∧ l.Matches := by
    refine hrun.invariant (motive := fun _ l => l.wpcp.Inv False none none ∧ l.Matches)
      ⟨inv_create sizeT callbacks False.elim, List.nodup_nil, fun s => ⟨nofun, nofun⟩, nofun⟩ ?_
    rintro - l act l' ⟨hinv, h⟩ - hst
    refine ⟨?_, h.step hinv hst⟩
    obtain ⟨⟨helpers, w⟩, hcallback, rfl⟩ := Option.map_eq_some_iff.mp hst
    obtain rfl | ⟨a, ha⟩ := wpcp_of_callback hcallback
    · exact hinv
    · exact inv_step hinv ha
  refine ⟨hmatches.2.serves, fun wsi helper hopen => ?_, exists_run_wpcp hrun⟩
  refine exists_established hrun ?_
  rw [List.getElem?_map, hopen.1]
  rfl

/-- `Wpcp.hello`, received on a connection. -/
def receiveHello (wsi : ℕ) : LwsAct :=
  .receive wsi (fun a => [0x83, 0x01, 0x00, 0xa0].getD (a - 1000) 0) 1000 4 9

/-- Three clients connect, and the session of the second cannot be created. The others say hello;
one is answered, and the other one goes away. -/
theorem serves_three : ∃ l, Run silent .bits64 subscriptionCallbacks (fun n => n ≠ 1)
    [.established, .established, .established, receiveHello 2, receiveHello 0, .writeable 2,
      .written 2 true, .closed 0] l ∧
    l.helpers.map (fun helper => (helper.session, helper.stage)) =
      [(some 0, .closed), (none, .idle), (some 1, .idle)] ∧ l.Serves := by
  have hcheck : (Transition.execute (step silent) Transition.anyStep
      (create .bits64 subscriptionCallbacks fun n => n ≠ 1)
      [.established, .established, .established, receiveHello 2, receiveHello 0, .writeable 2,
        .written 2 true, .closed 0]).any (fun l =>
          l.helpers.map (fun helper => (helper.session, helper.stage)) =
            [(some 0, .closed), (none, .idle), (some 1, .idle)]) = true := by
    decide +kernel
  obtain ⟨l, hl, hhelpers⟩ := (Option.any_eq_true _ _).mp hcheck
  have hrun := Transition.run_of_execute hl
  exact ⟨l, hrun, of_decide_eq_true hhelpers, (serves_of_run hrun).1⟩

end WpcpLws

end Wpcp
