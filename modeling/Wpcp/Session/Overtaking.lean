import Wpcp.Session.Ahead
import Wpcp.Session.Reachable

/-!
# No entry overtakes the RESULT that announces it

An entry waits with the result that has accepted its item, and is put into the publish
queue right after that result's RESULT message, or later. Being put into the queue after
it is not yet being sent after it: the RESULT may be linked behind the marker, where it
waits for the PUBLISH message that the entry goes into, or an append may have dropped it
from the list. **In the runs that put no entry into the publish queue in such a state
(`Wpcp.OutSystem.AnnouncedAhead`), every entry is handed out after the RESULT that
announces it** (`Wpcp.notOvertaken_of_run`).
-/

namespace Wpcp

open Cbor (SizeT)

/-- A RESULT announces an entry: it grants its id to the item it was published to. -/
def QueuedOutMessage.Announces (message : QueuedOutMessage) (e : Entry) : Prop :=
  ∃ g ∈ message.granted, g.subscriptionid = e.subscriptionid ∧ g.item = e.item

instance (message : QueuedOutMessage) (e : Entry) : Decidable (message.Announces e) :=
  inferInstanceAs (Decidable (∃ g ∈ message.granted, _))

namespace OutSystem

variable {S : OutSystem QueuedOutMessage Entry} {ops : List (OutOp QueuedOutMessage Entry)}

/-- One of the messages handed out before announces the entry. -/
def AnnouncedIn (sent : List QueuedOutMessage) (e : Entry) : Prop := ∃ c ∈ sent, c.Announces e

/-- **The condition**: when an entry is put into the publish queue, the RESULT that
announces it has been handed out or is linked ahead of the marker. -/
def AnnouncedAhead (S : OutSystem QueuedOutMessage Entry) : OutOp QueuedOutMessage Entry → Prop
  | .publish first rest => ∀ e ∈ first :: rest, ∀ m < S.session.messages.length,
      ∀ c ∈ S.session.messages[m]?, c.Announces e →
        m ∈ S.handedOutMessages ∨ m ∈ S.session.ahead
  | _ => True

instance (S : OutSystem QueuedOutMessage Entry) :
    (op : OutOp QueuedOutMessage Entry) → Decidable (S.AnnouncedAhead op)
  | .publish first rest => inferInstanceAs (Decidable (∀ e ∈ first :: rest, _))
  | .append _ => inferInstanceAs (Decidable True)
  | .create => inferInstanceAs (Decidable True)

/-- A message that is handed out or ahead counts among the contents. -/
theorem mem_sentOrAhead {m : ℕ} {c : QueuedOutMessage} (hc : S.session.messages[m]? = some c)
    (hm : m ∈ S.handedOutMessages ∨ m ∈ S.session.ahead) : c ∈ S.sentOrAhead := by
  refine List.mem_append.mpr (hm.imp (fun hm => ?_) fun hm => ?_)
  · exact List.mem_filterMap.mpr ⟨.queued m, mem_handedOutMessages.mp hm, hc⟩
  · exact List.mem_filterMap.mpr ⟨m, hm, hc⟩

/-- **The queue does not let an entry overtake its RESULT**, if it is only published when
that is handed out or ahead. -/
theorem announcedIn_of_run (htrace : TraceOk ops)
    (hrun : Transition.Run step AnnouncedAhead create ops S) : S.HandedOutAfter AnnouncedIn := by
  suffices h : S.LinksForward ∧ S.session.messages = appended ops ∧ S.Ready AnnouncedIn ∧
      S.HandedOutAfter AnnouncedIn from h.2.2.2
  revert htrace
  refine hrun.invariant (motive := fun ops S => TraceOk ops → S.LinksForward ∧
    S.session.messages = appended ops ∧ S.Ready AnnouncedIn ∧ S.HandedOutAfter AnnouncedIn) ?_ ?_
  · exact fun _ => ⟨linksForward_create, rfl, nofun, fun before entries after heq => by
      simp [create] at heq⟩
  intro ops S op T ih hok hst htrace
  obtain ⟨hbefore, hpublish⟩ := htrace.of_snoc
  obtain ⟨hlinks, hmessages, hready, hafter⟩ := ih hbefore
  refine ⟨hlinks.step hst, messages_step hlinks.kill hmessages hst,
    ready_step hlinks hready ?_ hst, handedOutAfter_step hlinks hready hafter hst⟩
  cases op with
  | append content =>
    rintro - e - ⟨c, hc, hann⟩
    exact ⟨c, List.mem_append_left _ hc, hann⟩
  | publish first rest =>
    intro e he
    -- a RESULT that announces the entry has been appended
    obtain ⟨⟨g, hg, hid, hitem⟩, -⟩ := hpublish first rest rfl e he
    obtain ⟨c, hc, hgc⟩ := List.mem_flatMap.mp hg
    rw [← hmessages] at hc
    obtain ⟨m, hm⟩ := List.getElem?_of_mem hc
    have hlt := (List.getElem?_eq_some_iff.mp hm).1
    have hann : c.Announces e := ⟨g, hgc, hid, hitem⟩
    exact ⟨c, mem_sentOrAhead hm (hok e he m hlt c hm hann), hann⟩
  | create => trivial

end OutSystem

/-- Every entry handed out by a session was announced by a RESULT handed out before. -/
def Session.NotOvertaken (σ : Session) : Prop :=
  OutSystem.HandedOutAfter OutSystem.AnnouncedIn ⟨σ.out, σ.handedOut⟩

/-- **A publish does not overtake the answer that announces its id**, in the runs that put
no entry into the publish queue while its RESULT is behind the marker or lost. -/
theorem notOvertaken_of_run {app : Application} {sizeT : SizeT} {callbacks : Callback → Bool}
    {acts : List Act} {w : World} {s : ℕ} {σ : Session}
    (hrun : Transition.Run (World.step app) Transition.anyStep
      (World.create sizeT callbacks fun _ => true) acts w)
    (hσ : w.sessions.get s = some σ)
    (hahead : Transition.Run OutSystem.step OutSystem.AnnouncedAhead OutSystem.create σ.ops
      ⟨σ.out, σ.handedOut⟩) : σ.NotOvertaken := by
  have hinv : w.Inv True none none := inv_of_run (fun _ _ => rfl) hrun
  exact OutSystem.announcedIn_of_run (hinv.output trivial s σ hσ).trace hahead

/-! ### Two runs -/

/-- Two subscriptions are accepted and both published, before anything is taken out: the
RESULTs are ahead of the marker, and the PUBLISH message follows them. -/
theorem notOvertaken_ahead : ∃ w σ,
    Transition.Run (World.step acceptAll) Transition.anyStep
      (World.create .bits64 (fun c => c = .items .subscribeData) fun _ => true)
      [.sessionCreate, hello, subscribe 3 1, publish 0, subscribe 3 2, publish 1,
        takeOut, takeOut, takeOut, takeOut] w ∧
    w.sessions.get 0 = some σ ∧ σ.handedOut =
      [.queued 0, .queued 1, .queued 2, .publish [⟨1, 0, 0⟩, ⟨2, 1, 1⟩]] ∧ σ.NotOvertaken := by
  let acts := [.sessionCreate, hello, subscribe 3 1, publish 0, subscribe 3 2, publish 1,
    takeOut, takeOut, takeOut, takeOut]
  have hrun : (sessionAfter (fun c => c = .items .subscribeData) acts).any (fun (_, σ) =>
      decide (σ.handedOut = [.queued 0, .queued 1, .queued 2, .publish [⟨1, 0, 0⟩, ⟨2, 1, 1⟩]]) &&
      (Transition.execute OutSystem.step OutSystem.AnnouncedAhead OutSystem.create
        σ.ops).isSome && decide (σ.slotsAdded = 0)) = true := by decide +kernel
  cases hafter : sessionAfter (fun c => c = .items .subscribeData) acts with
  | none => simp [hafter] at hrun
  | some p =>
    obtain ⟨w, σ⟩ := p
    rw [hafter, Option.any_some, Bool.and_eq_true, Bool.and_eq_true, decide_eq_true_eq,
      decide_eq_true_eq] at hrun
    obtain ⟨⟨hout, hsome⟩, hslots⟩ := hrun
    obtain ⟨hw, hσ⟩ := run_of_sessionAfter hafter
    have hinv : w.Inv True none none := inv_of_run (fun _ _ => rfl) hw
    exact ⟨w, σ, hw, hσ, hout,
      notOvertaken_of_run hw hσ (((hinv.output trivial 0 σ hσ).tracked hslots).admitted hsome)⟩

/-- **A publish overtakes the answer.** A PUBLISH is pending when the second subscription
is accepted, so that its RESULT is queued behind the marker; what is published to it joins
the pending PUBLISH. -/
theorem overtakes : ∃ w σ,
    Transition.Run (World.step acceptAll) Transition.anyStep
      (World.create .bits64 (fun c => c = .items .subscribeData) fun _ => true)
      [.sessionCreate, hello, takeOut, subscribe 3 1, takeOut, publish 0, subscribe 3 2,
        publish 1, takeOut] w ∧
    w.sessions.get 0 = some σ ∧ ¬σ.NotOvertaken := by
  let acts := [.sessionCreate, hello, takeOut, subscribe 3 1, takeOut, publish 0,
    subscribe 3 2, publish 1, takeOut]
  have hrun : (sessionAfter (fun c => c = .items .subscribeData) acts).any (fun (_, σ) =>
      decide (σ.handedOut = [.queued 0, .queued 1, .publish [⟨1, 0, 0⟩, ⟨2, 1, 1⟩]]) &&
      decide (∀ c ∈ OutSystem.contents (ε := Entry) σ.out.messages [.queued 0, .queued 1],
        ¬c.Announces ⟨2, 1, 1⟩)) = true := by decide +kernel
  cases hafter : sessionAfter (fun c => c = .items .subscribeData) acts with
  | none => simp [hafter] at hrun
  | some p =>
    obtain ⟨w, σ⟩ := p
    rw [hafter, Option.any_some, Bool.and_eq_true, decide_eq_true_eq, decide_eq_true_eq] at hrun
    obtain ⟨hout, hnone⟩ := hrun
    obtain ⟨hw, hσ⟩ := run_of_sessionAfter hafter
    refine ⟨w, σ, hw, hσ, fun hnot => ?_⟩
    obtain ⟨c, hc, hann⟩ := hnot [.queued 0, .queued 1] [⟨1, 0, 0⟩, ⟨2, 1, 1⟩] [] hout ⟨2, 1, 1⟩
      (by simp)
    exact hnone c hc hann

end Wpcp
