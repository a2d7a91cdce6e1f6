import Wpcp.Session.ItemTables

/-!
# What the counters of a result count

A result waits for one answer to each item of its request, and `remaining` counts the answers
that are still to come. An item of a browse or history request is answered in two steps: a
number of sub-items is announced, which `remaining_subresults` counts, and the last of them
counts as the answer. There is one such counter for all items of a request. **As long as the
sub-items of one item are delivered before those of another are announced, the two counters
say how many answers and how many sub-items the application owes**
(`Wpcp.counted_of_run`).
-/

namespace Wpcp

variable {S : Prop} {w : World} {hand tokens : Multiset Token}

theorem count_answer_cons_subanswer (r k : ℕ) (tokens : Multiset Token) :
    (Token.subanswer k ::ₘ tokens).count (.answer r) = tokens.count (.answer r) :=
  Multiset.count_cons_of_ne (by simp) tokens

theorem count_subanswer_cons_answer (r k : ℕ) (tokens : Multiset Token) :
    (Token.answer k ::ₘ tokens).count (.subanswer r) = tokens.count (.subanswer r) :=
  Multiset.count_cons_of_ne (by simp) tokens

/-! ### The counters -/

/-- The counters of a result that waits for some answers and some sub-items. -/
structure Result.Counts (ret : Result) (answers subanswers : ℕ) : Prop where
  pos : 0 < ret.remaining
  fits : ret.remaining < 2 ^ 32
  remaining : ret.remaining = answers + if subanswers = 0 then 0 else 1
  fitsSubresults : ret.remainingSubresults < 2 ^ 32
  subresults : ret.remainingSubresults = subanswers

/-- **Each result waits for as many answers as there are tokens for it**, but for one result. -/
structure World.CountedBut (exempt : Option ℕ) (tokens : Multiset Token) (w : World) : Prop where
  result : ∀ r ret, w.results.get r = some ret → exempt ≠ some r → ret.overlapped = false →
    ret.Counts (tokens.count (.answer r)) (tokens.count (.subanswer r))
  fresh : ∀ r, w.results.next ≤ r →
    tokens.count (.answer r) = 0 ∧ tokens.count (.subanswer r) = 0

/-- Each result waits for the answers in the hand and those that the application owes. -/
def counted (hand : Multiset Token) (w : World) : Prop :=
  w.CountedBut none (hand + owedTokens w.owed)

theorem Result.Counts.of_sameCounters {ret ret' : Result} {answers subanswers : ℕ}
    (h : ret.Counts answers subanswers) (hsame : ret.SameCounters ret') :
    ret'.Counts answers subanswers := by
  obtain ⟨-, hremaining, hsub, -⟩ := hsame
  obtain ⟨hpos, hfits, heq, hsubfits, hsubeq⟩ := h
  rw [← hremaining] at hpos hfits heq
  rw [← hsub] at hsubfits hsubeq
  exact ⟨hpos, hfits, heq, hsubfits, hsubeq⟩

namespace World.CountedBut

variable {exempt : Option ℕ}

/-- Only results and tokens for answers matter. -/
theorem congr {w' : World} {tokens' : Multiset Token} (h : w.CountedBut exempt tokens)
    (hresults : w'.results = w.results)
    (hanswers : ∀ r, tokens'.count (.answer r) = tokens.count (.answer r))
    (hsubanswers : ∀ r, tokens'.count (.subanswer r) = tokens.count (.subanswer r)) :
    w'.CountedBut exempt tokens' where
  result r ret hr hexempt hoverlapped := by
    rw [hresults] at hr
    rw [hanswers, hsubanswers]
    exact h.result r ret hr hexempt hoverlapped
  fresh r hr := by
    rw [hresults] at hr
    rw [hanswers, hsubanswers]
    exact h.fresh r hr

/-- A result is written to. -/
theorem setResult (h : w.CountedBut exempt tokens) {r : ℕ} {ret ret' : Result}
    (hr : w.results.get r = some ret)
    (hcounts : exempt ≠ some r → ret'.overlapped = false →
      ret'.Counts (tokens.count (.answer r)) (tokens.count (.subanswer r))) :
    World.CountedBut exempt tokens { w with results := w.results.set r ret' } where
  result k q hq hexempt hoverlapped := by
    have hq : (w.results.set r ret').get k = some q := hq
    rw [Heap.get_set hr] at hq
    split at hq
    · rename_i heq
      obtain rfl := Option.some.inj hq
      rw [heq] at hexempt ⊢
      exact hcounts hexempt hoverlapped
    · exact h.result k q hq hexempt hoverlapped
  fresh := h.fresh

theorem ignoresWrites : IgnoresWrites (World.CountedBut exempt tokens) where
  malloc _ _ h := h.congr rfl (fun _ => rfl) fun _ => rfl
  setResult _ r ret _ hr hsame _ h := h.setResult hr fun hexempt hoverlapped =>
    (h.result r ret hr hexempt (hsame.2.2.2.1 ▸ hoverlapped)).of_sameCounters hsame
  publishData _ _ h := h.congr rfl (fun _ => rfl) fun _ => rfl
  events _ _ _ h := h.congr rfl (fun _ => rfl) fun _ => rfl
  sessions _ _ _ _ _ _ _ h := h.congr rfl (fun _ => rfl) fun _ => rfl

theorem ignoresTable : IgnoresTable (World.CountedBut exempt tokens) where
  malloc _ _ h := h.congr rfl (fun _ => rfl) fun _ => rfl
  subscriptionTable _ _ h := h.congr rfl (fun _ => rfl) fun _ => rfl
  subscriptions _ _ h := h.congr rfl (fun _ => rfl) fun _ => rfl
  referencesPeak _ _ h := h.congr rfl (fun _ => rfl) fun _ => rfl
  itemLinks _ _ h := h.congr rfl (fun _ => rfl) fun _ => rfl
  freeItem _ _ h := h.congr rfl (fun _ => rfl) fun _ => rfl
  events _ _ _ h := h.congr rfl (fun _ => rfl) fun _ => rfl
  sessions _ _ _ _ _ _ h := h.congr rfl (fun _ => rfl) fun _ => rfl
  newItem _ _ h := h.congr rfl (fun _ => rfl) fun _ => rfl
  results _ r ret ret' hr hsame h := h.setResult hr fun hexempt hoverlapped => by
    obtain ⟨-, blocked, granted, rfl⟩ := hsame
    obtain ⟨hpos, hfits, heq, hsubfits, hsubeq⟩ := h.result r ret hr hexempt hoverlapped
    exact ⟨hpos, hfits, heq, hsubfits, hsubeq⟩

/-- The result that is exempt is freed. -/
theorem freeResult {r : ℕ} (h : w.CountedBut (some r) tokens) :
    World.CountedBut none tokens { w with results := w.results.free r } where
  result k q hq _ hoverlapped := by
    obtain ⟨hne, hq⟩ := Heap.get_of_get_free hq
    exact h.result k q hq (fun heq => hne (Option.some.inj heq).symm) hoverlapped
  fresh := h.fresh

/-- A result that is not exempt any more. -/
theorem of_exempt {r : ℕ} (h : w.CountedBut (some r) tokens)
    (hr : ∀ ret, w.results.get r = some ret → ret.overlapped = false →
      ret.Counts (tokens.count (.answer r)) (tokens.count (.subanswer r))) :
    w.CountedBut none tokens where
  result k q hq _ hoverlapped := by
    by_cases heq : k = r
    · subst heq
      exact hr q hq hoverlapped
    · exact h.result k q hq (fun hsome => heq (Option.some.inj hsome).symm) hoverlapped
  fresh := h.fresh

end World.CountedBut

/-! ### The hand -/

theorem ignoresWrites_counted (hand : Multiset Token) : IgnoresWrites (counted hand) where
  malloc w malloc h := World.CountedBut.ignoresWrites.malloc w malloc h
  setResult w r ret ret' hr hsame hrequest h :=
    World.CountedBut.ignoresWrites.setResult w r ret ret' hr hsame hrequest h
  publishData w heap h := World.CountedBut.ignoresWrites.publishData w heap h
  events w event hevent h := World.CountedBut.ignoresWrites.events w event hevent h
  sessions w s σ σ' hσ hsame hmore h :=
    World.CountedBut.ignoresWrites.sessions w s σ σ' hσ hsame hmore h

theorem ignoresTable_counted (hand : Multiset Token) : IgnoresTable (counted hand) where
  malloc w malloc h := World.CountedBut.ignoresTable.malloc w malloc h
  subscriptionTable w table h := World.CountedBut.ignoresTable.subscriptionTable w table h
  subscriptions w heap h := World.CountedBut.ignoresTable.subscriptions w heap h
  referencesPeak w peak h := World.CountedBut.ignoresTable.referencesPeak w peak h
  itemLinks w links h := World.CountedBut.ignoresTable.itemLinks w links h
  freeItem w it h := World.CountedBut.ignoresTable.freeItem w it h
  events w event hevent h := World.CountedBut.ignoresTable.events w event hevent h
  sessions w s σ σ' hσ hsame h := World.CountedBut.ignoresTable.sessions w s σ σ' hσ hsame h
  newItem w i h := World.CountedBut.ignoresTable.newItem w i h
  results w r ret ret' hr hsame h :=
    World.CountedBut.ignoresTable.results w r ret ret' hr hsame h

theorem counted.congr {hand' : Multiset Token} (h : counted hand w)
    (hanswers : ∀ r, hand'.count (.answer r) = hand.count (.answer r))
    (hsubanswers : ∀ r, hand'.count (.subanswer r) = hand.count (.subanswer r)) :
    counted hand' w :=
  World.CountedBut.congr h rfl (fun r => by rw [Multiset.count_add, Multiset.count_add, hanswers])
    fun r => by rw [Multiset.count_add, Multiset.count_add, hsubanswers]

/-- Only results and what is owed matter. -/
theorem counted.of_eq {w' : World} (h : counted hand w) (hresults : w'.results = w.results)
    (howed : w'.owed = w.owed) : counted hand w' :=
  World.CountedBut.congr h hresults (fun r => by rw [howed]) fun r => by rw [howed]

/-- The counters of a result that is there, with one answer in the hand. -/
theorem counted.counts {r : ℕ} {ret : Result} (h : counted (.answer r ::ₘ hand) w)
    (hr : w.results.get r = some ret) (hoverlapped : ret.overlapped = false) :
    ret.Counts ((hand + owedTokens w.owed).count (.answer r) + 1)
      ((hand + owedTokens w.owed).count (.subanswer r)) := by
  have hcounts := h.result r ret hr nofun hoverlapped
  rwa [Multiset.cons_add, Multiset.count_cons_self, count_subanswer_cons_answer] at hcounts

/-- The answer in the hand is the one that is counted by a write to its result. -/
theorem counted.exempt {t : Token} {r : ℕ} (h : counted (t ::ₘ hand) w)
    (ht : t = .answer r ∨ t = .subanswer r) :
    w.CountedBut (some r) (hand + owedTokens w.owed) where
  result k ret hk hexempt hoverlapped := by
    have hne : k ≠ r := fun heq => hexempt (congrArg some heq.symm)
    have hcounts := h.result k ret hk nofun hoverlapped
    rcases ht with rfl | rfl
    · rwa [Multiset.cons_add, Multiset.count_cons_of_ne (by simpa using hne),
        count_subanswer_cons_answer] at hcounts
    · rwa [Multiset.cons_add, count_answer_cons_subanswer,
        Multiset.count_cons_of_ne (by simpa using hne)] at hcounts
  fresh k hk := by
    obtain ⟨hanswers, hsubanswers⟩ := h.fresh k hk
    rw [Multiset.cons_add] at hanswers hsubanswers
    exact ⟨Nat.eq_zero_of_le_zero ((Multiset.count_le_count_cons _ _ _).trans hanswers.le),
      Nat.eq_zero_of_le_zero ((Multiset.count_le_count_cons _ _ _).trans hsubanswers.le)⟩

/-! ### Counting answers -/

/-- The result that is exempt, in the hand. -/
def countedBut (r : ℕ) (hand : Multiset Token) (w : World) : Prop :=
  w.CountedBut (some r) (hand + owedTokens w.owed)

theorem ignoresWrites_countedBut (r : ℕ) (hand : Multiset Token) :
    IgnoresWrites (countedBut r hand) where
  malloc w malloc h := World.CountedBut.ignoresWrites.malloc w malloc h
  setResult w k ret ret' hr hsame hrequest h :=
    World.CountedBut.ignoresWrites.setResult w k ret ret' hr hsame hrequest h
  publishData w heap h := World.CountedBut.ignoresWrites.publishData w heap h
  events w event hevent h := World.CountedBut.ignoresWrites.events w event hevent h
  sessions w s σ σ' hσ hsame hmore h :=
    World.CountedBut.ignoresWrites.sessions w s σ σ' hσ hsame hmore h

/-- One less of what fits 32 bits. -/
theorem decrement_eq {n : ℕ} (hpos : 0 < n) (hfits : n < 2 ^ 32) :
    (n + (2 ^ 32 - 1)) % 2 ^ 32 = n - 1 := by
  omega

/-- **An answer is counted**: either it was not the last, or only the result is left to be
freed. -/
theorem counted.count {r : ℕ} {ret : Result} (h : counted (.answer r ::ₘ hand) w)
    (hr : w.results.get r = some ret) :
    let w' := { w with results := w.results.set r { ret with
      remaining := (ret.remaining + (2 ^ 32 - 1)) % 2 ^ 32 } }
    countedBut r hand w' ∧
      ((ret.remaining + (2 ^ 32 - 1)) % 2 ^ 32 ≠ 0 → counted hand w') := by
  have hbut : countedBut r hand w := h.exempt (Or.inl rfl)
  have hset : countedBut r hand { w with results := w.results.set r { ret with
      remaining := (ret.remaining + (2 ^ 32 - 1)) % 2 ^ 32 } } :=
    World.CountedBut.setResult hbut hr fun hne => absurd rfl hne
  refine ⟨hset, fun hne => World.CountedBut.of_exempt hset fun ret' hr' hoverlapped => ?_⟩
  have hr' : (w.results.set r _).get r = some ret' := hr'
  rw [Heap.get_set hr, if_pos rfl] at hr'
  obtain rfl := Option.some.inj hr'
  obtain ⟨hpos, hfits, heq, hsubfits, hsubeq⟩ := h.counts hr hoverlapped
  rw [decrement_eq hpos hfits] at hne
  refine ⟨?_, ?_, ?_, hsubfits, hsubeq⟩
  · exact (decrement_eq hpos hfits).symm ▸ Nat.pos_of_ne_zero hne
  · exact Nat.mod_lt _ (by norm_num)
  · show (ret.remaining + (2 ^ 32 - 1)) % 2 ^ 32 =
      (hand + owedTokens w.owed).count (.answer r) +
        if (hand + owedTokens w.owed).count (.subanswer r) = 0 then 0 else 1
    rw [decrement_eq hpos hfits, heq]
    omega

theorem ensures_releaseResult_counted (r : ℕ) :
    Attempt.Ensures (counted (.answer r ::ₘ hand)) (releaseResult r) (fun _ => counted hand)
      Stop.Any := by
  refine .bind (Place.ensures_read trivial) fun ret => ?_
  dsimp only
  generalize hremaining : (ret.remaining + (2 ^ 32 - 1)) % 2 ^ 32 = remaining
  refine .bind (Q := fun _ w => countedBut r hand w ∧ (remaining ≠ 0 → counted hand w))
    (Place.ensures_write trivial ?_) fun _ => .ite (fun hne => .pure fun _ h => h.2 hne) fun _ =>
    .bind (((ignoresWrites_countedBut r hand).sendResult r ret).imp (fun _ h => h.1)
      (fun _ _ h => h) fun _ h => h) fun _ => Place.ensures_free trivial fun w _ h _ =>
      World.CountedBut.freeResult h
  rintro w - ⟨hr, h⟩ -
  have hcount := h.count hr
  rw [hremaining] at hcount
  exact hcount

theorem ensures_releaseDummyUnsubscribeResult_counted (r : ℕ) :
    Attempt.Ensures (counted (.answer r ::ₘ hand)) (releaseDummyUnsubscribeResult r)
      (fun _ => counted hand) Stop.Any := by
  refine .bind (Place.ensures_read trivial) fun ret => .bind ensures_assert_any fun _ => ?_
  dsimp only
  generalize hremaining : (ret.remaining + (2 ^ 32 - 1)) % 2 ^ 32 = remaining
  refine .bind (Q := fun _ w => countedBut r hand w ∧ (remaining ≠ 0 → counted hand w))
    (Place.ensures_write trivial ?_) fun _ => .ite (fun hne => .pure fun _ h => h.2 hne) fun _ =>
    Place.ensures_free trivial fun w _ h _ => World.CountedBut.freeResult h.1
  rintro w - ⟨-, hr, h⟩ -
  have hcount := h.count hr
  rw [hremaining] at hcount
  exact hcount

/-! ### Counting sub-items -/

/-- A result that counts one answer more than there is in the hand. -/
theorem countedBut.answer {r : ℕ} (h : countedBut r hand w) (hlt : r < w.results.next)
    (hr : ∀ ret, w.results.get r = some ret → ret.overlapped = false →
      ret.Counts ((hand + owedTokens w.owed).count (.answer r) + 1)
        ((hand + owedTokens w.owed).count (.subanswer r))) :
    counted (.answer r ::ₘ hand) w where
  result k ret hk _ hoverlapped := by
    rw [Multiset.cons_add, count_subanswer_cons_answer]
    by_cases heq : k = r
    · subst heq
      rw [Multiset.count_cons_self]
      exact hr ret hk hoverlapped
    · rw [Multiset.count_cons_of_ne (by simpa using heq)]
      exact h.result k ret hk (fun hsome => heq (Option.some.inj hsome).symm) hoverlapped
  fresh k hk := by
    rw [Multiset.cons_add, count_subanswer_cons_answer,
      Multiset.count_cons_of_ne (by simpa using (hlt.trans_le hk).ne')]
    exact h.fresh k hk

/-- A token in the hand is for a result that has been allocated. -/
theorem counted.lt_next {t : Token} {r : ℕ} (h : counted (t ::ₘ hand) w)
    (ht : t = .answer r ∨ t = .subanswer r) : r < w.results.next := by
  by_contra hge
  obtain ⟨hanswers, hsubanswers⟩ := h.fresh r (Nat.le_of_not_lt hge)
  rcases ht with rfl | rfl
  · rw [Multiset.cons_add, Multiset.count_cons_self] at hanswers
    omega
  · rw [Multiset.cons_add, Multiset.count_cons_self] at hsubanswers
    omega

theorem ensures_releaseSubresult_counted (r : ℕ) :
    Attempt.Ensures (counted (.subanswer r ::ₘ hand)) (releaseSubresult r)
      (fun _ => counted hand) Stop.Any := by
  refine .bind (Place.ensures_read trivial) fun ret => ?_
  dsimp only
  generalize hremaining : (ret.remainingSubresults + (2 ^ 32 - 1)) % 2 ^ 32 = remaining
  refine .bind (Q := fun _ w => (remaining ≠ 0 → counted hand w) ∧
    (remaining = 0 → counted (.answer r ::ₘ hand) w)) (Place.ensures_write trivial ?_) fun _ =>
    .ite (fun hne => .pure fun _ h => h.1 hne) fun heq =>
      (ensures_releaseResult_counted r).imp (fun _ h => h.2 (not_not.mp heq)) (fun _ _ h => h)
        fun _ h => h
  rintro w - ⟨hr, h⟩ -
  have hbut : countedBut r hand w := h.exempt (Or.inr rfl)
  have hset : countedBut r hand { w with results := w.results.set r { ret with
      remainingSubresults := remaining } } :=
    World.CountedBut.setResult hbut hr fun hne => absurd rfl hne
  -- the counters before and after this sub-item
  have hcounts : ret.overlapped = false → ret.remaining < 2 ^ 32 ∧
      ret.remaining = (hand + owedTokens w.owed).count (.answer r) + 1 ∧ remaining < 2 ^ 32 ∧
      remaining = (hand + owedTokens w.owed).count (.subanswer r) := by
    intro hoverlapped
    have hbefore := h.result r ret hr nofun hoverlapped
    rw [Multiset.cons_add, count_answer_cons_subanswer, Multiset.count_cons_self] at hbefore
    obtain ⟨hpos, hfits, heq, hsubfits, hsubeq⟩ := hbefore
    rw [if_neg (Nat.succ_ne_zero _)] at heq
    rw [← hremaining, decrement_eq (by omega) hsubfits]
    omega
  have hget : ∀ ret', (w.results.set r { ret with remainingSubresults := remaining }).get r =
      some ret' → ret' = { ret with remainingSubresults := remaining } := by
    intro ret' hr'
    rw [Heap.get_set hr, if_pos rfl] at hr'
    exact (Option.some.inj hr').symm
  constructor
  · refine fun hne => World.CountedBut.of_exempt hset fun ret' hr' hoverlapped => ?_
    obtain rfl := hget ret' hr'
    obtain ⟨hfits, heq, hsubfits, hsubeq⟩ := hcounts hoverlapped
    refine ⟨heq ▸ Nat.succ_pos _, hfits, ?_, hsubfits, hsubeq⟩
    rw [if_neg (hsubeq ▸ hne)]
    exact heq
  · have hlt : r < w.results.next := Heap.lt_next hr
    refine fun hzero => countedBut.answer hset hlt fun ret' hr' hoverlapped => ?_
    obtain rfl := hget ret' hr'
    obtain ⟨hfits, heq, hsubfits, hsubeq⟩ := hcounts hoverlapped
    refine ⟨heq ▸ Nat.succ_pos _, hfits, ?_, hsubfits, hsubeq⟩
    rw [if_pos (hsubeq ▸ hzero)]
    exact heq

/-- Sub-items are owed that the result does not count yet. -/
def Announcing (r count : ℕ) (hand : Multiset Token) (w : World) : Prop :=
  countedBut r hand w ∧ r < w.results.next ∧ ∀ ret, w.results.get r = some ret →
    ret.overlapped = false → ∃ subanswers,
      (hand + owedTokens w.owed).count (.subanswer r) = subanswers + count ∧
        ret.Counts ((hand + owedTokens w.owed).count (.answer r) + 1) subanswers

/-- **The application is given sub-items to deliver.** -/
theorem counted.announce {r : ℕ} (h : counted (.answer r ::ₘ hand) w) (count : ℕ) :
    Announcing r count hand { w with owed := w.owed ++ List.replicate count (.subitem r) } := by
  have htokens : owedTokens (w.owed ++ List.replicate count (.subitem r)) =
      owedTokens w.owed + Multiset.replicate count (.subanswer r) := by
    rw [owedTokens_append, owedTokens_replicate_subitem]
  have hanswers : ∀ k, (hand + owedTokens (w.owed ++ List.replicate count (.subitem r))).count
      (.answer k) = (hand + owedTokens w.owed).count (.answer k) := by
    intro k
    rw [htokens, ← add_assoc, Multiset.count_add, Multiset.count_replicate, if_neg nofun,
      add_zero]
  have hsubanswers : ∀ k, (hand + owedTokens (w.owed ++ List.replicate count (.subitem r))).count
      (.subanswer k) = (hand + owedTokens w.owed).count (.subanswer k) +
        if k = r then count else 0 := by
    intro k
    rw [htokens, ← add_assoc, Multiset.count_add, Multiset.count_replicate]
    simp [eq_comm]
  have hlt := h.lt_next (Or.inl rfl)
  have hbut : countedBut r hand w := h.exempt (Or.inl rfl)
  refine ⟨⟨fun k ret hk hexempt hoverlapped => ?_, fun k hk => ?_⟩, hlt,
    fun ret hr hoverlapped => ⟨(hand + owedTokens w.owed).count (.subanswer r), ?_, ?_⟩⟩
  · have hne : k ≠ r := fun heq => hexempt (congrArg some heq.symm)
    rw [hanswers, hsubanswers, if_neg hne]
    exact hbut.result k ret hk hexempt hoverlapped
  · rw [hanswers, hsubanswers, if_neg (hlt.trans_le hk).ne']
    exact hbut.fresh k hk
  · rw [hsubanswers, if_pos rfl]
  · rw [hanswers]
    exact h.counts hr hoverlapped

theorem leaves_writeResult_announcing (r count : ℕ)
    (f : Cbor.WriteBuffer → Option Cbor.WriteBuffer) :
    Leaves (Announcing r count hand) (writeResult r f) := by
  refine .read_bind fun ret => ?_
  split
  · refine Place.ensures_write trivial ?_
    rintro w - ⟨hr, hbut, hlt, hret⟩ -
    refine ⟨World.CountedBut.setResult hbut hr fun hne => absurd rfl hne, hlt,
      fun ret' hr' hoverlapped => ?_⟩
    have hr' : (w.results.set r _).get r = some ret' := hr'
    rw [Heap.get_set hr, if_pos rfl] at hr'
    obtain rfl := Option.some.inj hr'
    obtain ⟨subanswers, hsub, hpos, hfits, heq, hsubfits, hsubeq⟩ := hret ret hr hoverlapped
    exact ⟨subanswers, hsub, hpos, hfits, heq, hsubfits, hsubeq⟩
  · exact .fail trivial

/-- **The counter of a result counts the sub-items**, unless others are still to come. -/
theorem ensures_requestSubresult_counted (r : ℕ) {count : ℕ} (hcount : count < 2 ^ 32) :
    Attempt.Ensures (Announcing r count hand) (requestSubresult r count)
      (fun _ => counted hand) Stop.Any := by
  refine .bind (leaves_writeResult_announcing r count _) fun _ => .ite (fun hne => ?_) fun heq => ?_
  · refine .bind (Place.ensures_read trivial) fun ret => Place.ensures_write trivial ?_
    rintro w - ⟨hr, hbut, -, hret⟩ -
    refine World.CountedBut.of_exempt (World.CountedBut.setResult hbut hr
      fun hne => absurd rfl hne) fun ret' hr' hoverlapped => ?_
    have hr' : (w.results.set r _).get r = some ret' := hr'
    rw [Heap.get_set hr, if_pos rfl] at hr'
    obtain rfl := Option.some.inj hr'
    obtain ⟨hoverlapped, hzero⟩ := Bool.or_eq_false_iff.mp hoverlapped
    have hzero : ret.remainingSubresults = 0 := by simpa using hzero
    obtain ⟨subanswers, hsub, hpos, hfits, heq, -, hsubeq⟩ := hret ret hr hoverlapped
    have hsub : (hand + owedTokens w.owed).count (.subanswer r) = count := by omega
    refine ⟨hpos, hfits, ?_, hcount, hsub.symm⟩
    show ret.remaining = (hand + owedTokens w.owed).count (.answer r) +
      if (hand + owedTokens w.owed).count (.subanswer r) = 0 then 0 else 1
    rw [hsub, if_neg hne, heq, if_pos (hsubeq.symm.trans hzero)]
  · refine (ensures_releaseResult_counted r).imp ?_ (fun _ _ h => h) fun _ h => h
    rintro w ⟨hbut, hlt, hret⟩
    refine countedBut.answer hbut hlt fun ret hr hoverlapped => ?_
    obtain ⟨subanswers, hsub, hcounts⟩ := hret ret hr hoverlapped
    rw [not_not.mp heq, add_zero] at hsub
    rwa [hsub]

/-! ### New results -/

/-- **A new result waits for all answers** to its items. -/
theorem counted.newResult (h : counted hand w) {ret : Result} {count : ℕ}
    (hremaining : ret.remaining = count) (hsub : ret.remainingSubresults = 0) (hne : count ≠ 0)
    (hlt : count < 2 ^ 32) :
    counted (Multiset.replicate count (.answer w.results.next) + hand)
      { w with results := w.results.alloc ret } := by
  have hsubanswers : ∀ r, (Multiset.replicate count (Token.answer w.results.next) + hand +
      owedTokens w.owed).count (.subanswer r) = (hand + owedTokens w.owed).count
        (.subanswer r) := by
    intro r
    rw [add_assoc, Multiset.count_add, Multiset.count_replicate, if_neg nofun, zero_add]
  have hanswers : ∀ r, (Multiset.replicate count (Token.answer w.results.next) + hand +
      owedTokens w.owed).count (.answer r) = (if r = w.results.next then count else 0) +
        (hand + owedTokens w.owed).count (.answer r) := by
    intro r
    rw [add_assoc, Multiset.count_add, Multiset.count_replicate]
    simp [eq_comm]
  refine ⟨fun r q hq _ hoverlapped => ?_, fun r hr => ?_⟩
  · have hq : (w.results.alloc ret).get r = some q := hq
    rw [hanswers, hsubanswers]
    rw [Heap.get_alloc] at hq
    split at hq
    · rename_i heq
      obtain rfl := Option.some.inj hq
      obtain ⟨hfresh, hfreshsub⟩ := h.fresh r heq.ge
      rw [if_pos heq, hfresh, hfreshsub, add_zero]
      refine ⟨by omega, by omega, ?_, by omega, hsub⟩
      rw [if_pos rfl]
      exact hremaining
    · rename_i heq
      rw [if_neg heq, zero_add]
      exact h.result r q hq nofun hoverlapped
  · have hr : w.results.next + 1 ≤ r := hr
    obtain ⟨hfresh, hfreshsub⟩ := h.fresh r (Nat.le_of_succ_le hr)
    rw [hanswers, hsubanswers, if_neg (by omega), zero_add]
    exact ⟨hfresh, hfreshsub⟩

theorem ensures_requestResult_counted {s requestId count : ℕ} (hne : count ≠ 0)
    (hlt : count < 2 ^ 32) :
    Attempt.Ensures (counted hand) (requestResult s requestId count)
      (fun r => counted (r.elim hand fun r => Multiset.replicate count (.answer r) + hand))
      Stop.Any := by
  have hwrites := ignoresWrites_counted hand
  refine .bind (Leaves.malloc hwrites.malloc) fun ok => .bind (Leaves.assert _) fun _ => .ite
    (fun _ => ?_) fun _ => .pure fun _ h => h
  refine .bind (Leaves.writeBufferInit hwrites.malloc) fun buffer => .bind
    (Q := fun r => counted (Multiset.replicate count (.answer r) + hand))
    (Place.ensures_new fun w h => h.newResult rfl rfl hne hlt) fun r => ?_
  exact .bind (Place.ensures_read trivial) fun σ => .bind
    ((ignoresWrites_counted _).write_sessions s ⟨rfl, rfl⟩ (.of_eq rfl rfl)) fun _ =>
    .pure fun _ h => h

/-! ### The length of a table -/

/-- The length of the table of a session fits 32 bits. -/
def World.TablesFit (w : World) : Prop :=
  ∀ s σ, w.sessions.get s = some σ → σ.publishItems.length < 2 ^ 32

theorem World.TablesFit.setSession (h : w.TablesFit) {s : ℕ} {σ σ' : Session}
    (hσ : w.sessions.get s = some σ)
    (hlength : σ'.publishItems.length = σ.publishItems.length ∨
      σ'.publishItems.length < 2 ^ 32) :
    World.TablesFit { w with sessions := w.sessions.set s σ' } := by
  intro t τ hτ
  have hτ : (w.sessions.set s σ').get t = some τ := hτ
  rw [Heap.get_set hσ] at hτ
  split at hτ
  · obtain rfl := Option.some.inj hτ
    rcases hlength with heq | hlt
    · exact heq ▸ h s σ hσ
    · exact hlt
  · exact h t τ hτ

theorem World.TablesFit.ignoresOutput : IgnoresOutput World.TablesFit where
  malloc _ _ h := h
  results _ _ h := h
  publishData _ _ h := h
  republishHandles _ _ h := h
  events _ _ _ h := h
  sessions _ _ _ _ hσ hsame _ h := h.setSession hσ (Or.inl (congrArg List.length hsame.1))

theorem World.TablesFit.ignoresReleases : IgnoresReleases World.TablesFit where
  malloc _ _ h := h
  subscriptionTable _ _ h := h
  subscriptions _ _ h := h
  referencesPeak _ _ h := h
  itemLinks _ _ h := h
  freeItem _ _ h := h
  events _ _ _ h := h

theorem leaves_acceptSubscription_tablesFit (r s k : ℕ) :
    Leaves World.TablesFit (acceptSubscription r s k) := by
  have hnext : Leaves World.TablesFit (sessionGetNextFreePublishId s) := by
    refine .read_bind fun σ => .ite (fun _ => .pure fun _ h => h.2) fun _ => .bind
      (Leaves.malloc (P := fun w => w.sessions.get s = some σ ∧ w.TablesFit) fun _ _ h => h)
      fun _ => .ite (fun _ => .ite (fun hlt => ?_) fun _ => .fail trivial) fun _ =>
      .pure fun _ h => h.2
    refine .bind (Q := fun _ => World.TablesFit) (Place.ensures_write trivial ?_) fun _ =>
      .pure fun _ h => h
    rintro w - ⟨hσ, h⟩ -
    refine h.setSession hσ (Or.inr ?_)
    rwa [List.length_append, List.length_replicate]
  have hrequest : ∀ id, Leaves World.TablesFit (sessionRequestPublishItem s k id) := by
    refine fun id => .bind (.malloc fun _ _ h => h) fun _ => .ite (.bind (.new (fun _ _ h => h) _)
      fun it => .bind (.read _ _) fun _ => .bind (.write (fun _ _ h => h) _ _) fun _ =>
      .bind (.modifyWorld fun _ h => h) fun _ => .read_bind fun σ => .bind
        (Q := fun _ => World.TablesFit) (Place.ensures_write trivial
        fun w _ h _ => h.2.setSession h.1 (Or.inl List.length_set)) fun _ => .pure fun _ h => h)
      (.bind (World.TablesFit.ignoresReleases.releaseSubscription k) fun _ => .pure _)
  refine .bind hnext fun id => .bind (.ite (.pure _) (.bind
    (World.TablesFit.ignoresOutput.resultGetBlockedPublishItemTarget r) ?_)) fun _ => .pure _
  rintro (_ | target)
  · exact .pure _
  refine .bind (hrequest id) ?_
  rintro (_ | it)
  · exact .pure _
  · exact .bind (World.TablesFit.ignoresOutput.setBlockedPublishItem r id it) fun _ => .pure _

theorem leaves_unsubscribeItem_tablesFit (s id : ℕ) :
    Leaves World.TablesFit (unsubscribeItem s id) := by
  refine .bind (.read _ s) fun σ => ?_
  split
  · refine .bind (.read _ _) fun i => .bind (.assert _) fun _ =>
      .bind (World.TablesFit.ignoresReleases.retainSubscription _) fun _ =>
      .bind (.read_bind fun σ => .bind (Q := fun _ w => w.sessions.get s = some σ ∧ w.TablesFit)
        ((Leaves.read _ _).imp (fun _ h => h) (fun _ _ h => h) fun _ h => h) fun i =>
        .bind (Q := fun _ => World.TablesFit) (Place.ensures_write trivial fun w _ h _ =>
          h.2.setSession h.1 (Or.inl List.length_set)) fun _ =>
        World.TablesFit.ignoresReleases.publishItemRelease _) fun _ => .pure _
  · exact .pure _

/-- **The tables of sessions fit in every run**: what would make one longer checks it. -/
theorem conservesItems_tablesFit {I : Multiset Token → World → Prop} :
    ConservesItems S I fun _ => World.TablesFit where
  answers _ := World.TablesFit.ignoresOutput.toIgnoresAnswers
  owed _ _ _ _ _ h := h
  retain _ k := (World.TablesFit.ignoresReleases.retainSubscription k).moves fun _ _ h => h
  release _ k := (World.TablesFit.ignoresReleases.releaseSubscription k).moves fun _ _ h => h
  request _ type key := (World.TablesFit.ignoresReleases.requestSubscription type key).moves
    fun _ _ h => h
  accept _ r s k := (leaves_acceptSubscription_tablesFit r s k).moves fun _ _ h => h
  newRepublish _ it :=
    (Leaves.new World.TablesFit.ignoresOutput.republishHandles it).moves fun _ _ h => h
  freeRepublish _ handle :=
    (Leaves.free World.TablesFit.ignoresOutput.republishHandles handle).moves fun _ _ h => h
  unsubscribe _ s id := (leaves_unsubscribeItem_tablesFit s id).moves fun _ _ h => h
  create _ := by
    refine Leaves.moves (Leaves.bind (.malloc fun _ _ h => h) fun _ => .ite (.bind
      (Place.ensures_new fun w h t τ hτ => ?_) fun _ => .bind (.modifyWorld fun w h => ?_)
      fun _ => .pure _) (.pure _)) fun _ _ h => h
    · have hτ : (w.sessions.alloc .create).get t = some τ := hτ
      rw [Heap.get_alloc] at hτ
      split at hτ
      · obtain rfl := Option.some.inj hτ
        exact Nat.two_pow_pos 32
      · exact h t τ hτ
    · split
      · exact h
      · exact h
  close _ s σ := (World.TablesFit.ignoresOutput.closeSession (fun _ h t τ hτ =>
    h t τ (Heap.get_of_get_free hτ).2) σ).moves fun _ _ h => h
  deleteItem _ it := (World.TablesFit.ignoresReleases.deletePublishItem it).moves fun _ _ h => h

/-! ### In every run -/

theorem Session.length_items_le (σ : Session) : σ.items.length ≤ σ.publishItems.length := by
  rw [Session.items]
  exact (List.length_filterMap_le _ _).trans (List.length_drop ▸ Nat.sub_le _ _)

/-- **When a session ends**, the stand-in for it waits for an answer for each of its items. -/
theorem ensures_closeSession_counted (s : ℕ) (σ : Session) :
    Attempt.Ensures (fun w => w.TablesFit ∧ counted hand w ∧ w.sessions.get s = some σ)
      (closeSession s σ) (fun r => counted (r.elim hand fun r =>
        Multiset.replicate σ.items.length (.answer r) + (orphans σ.items + hand))) Stop.Any := by
  have hwrites := ignoresWrites_counted hand
  have horphans : ∀ l, Leaves (counted hand) (orphanResults l) := fun l =>
    Leaves.orphanResults fun w r _ ret hr h => h.setResult hr fun hexempt hoverlapped =>
      (h.result r ret hr hexempt hoverlapped).of_sameCounters
        ⟨.of_eq (Or.inr rfl) rfl, rfl, rfl, rfl, rfl⟩
  have hfree : Leaves (counted hand) (sessions.free s) :=
    .free (fun _ _ h => h.of_eq rfl rfl) s
  refine .assume (p := σ.items.length < 2 ^ 32)
    (fun w h => (Session.length_items_le σ).trans_lt (h.1 s σ h.2.2)) fun hlt =>
    .bind ((Leaves.releaseQueuedOutMessages σ).imp (fun _ h => h.2.1) (fun _ _ h => h)
      fun _ h => h) fun _ =>
    .bind (Leaves.publishQueueItemsDeref hwrites.publishData _) fun _ => .bind (horphans _)
    fun _ => .ite (fun hne => ?_) fun _ => .bind hfree fun _ => .pure fun _ h => h
  refine .bind (Q := fun r => counted (Multiset.replicate σ.items.length (.answer r) + hand))
    (.bind hfree fun _ => .bind (Leaves.assert _) fun _ => Place.ensures_new fun w h =>
      h.newResult rfl rfl hne hlt) fun r => .pure fun w h => ?_
  -- the items that are left alone are no answers
  have hcount : ∀ t : Token, t.isAnswer = true → (orphans σ.items).count t = 0 := by
    intro t ht
    refine Multiset.count_eq_zero.mpr fun hmem => ?_
    obtain ⟨it, -, rfl⟩ := List.mem_map.mp hmem
    exact absurd ht nofun
  refine h.congr (fun k => ?_) fun k => ?_
  · rw [Option.elim_some, Multiset.count_add, Multiset.count_add, Multiset.count_add,
      hcount _ rfl, zero_add]
  · rw [Option.elim_some, Multiset.count_add, Multiset.count_add, Multiset.count_add,
      hcount _ rfl, zero_add]

/-- An operation on subscriptions and publish items, with another hand. -/
theorem moves_counted {α : Type} {m : Calls α} {I : Multiset Token → World → Prop}
    {Q : World → Prop} {hand' : α → Multiset Token} (h : Leaves (counted hand) m)
    (hanswers : ∀ a r, (hand' a).count (.answer r) = hand.count (.answer r))
    (hsubanswers : ∀ a r, (hand' a).count (.subanswer r) = hand.count (.subanswer r)) :
    Moves S I counted Q hand m hand' :=
  h.moves fun a _ hw => hw.congr (hanswers a) (hsubanswers a)

theorem count_reference_of_isAnswer {t : Token} (ht : t.isAnswer = true) (k : Option ℕ) :
    (reference k).count t = 0 := by
  cases k with
  | none => rfl
  | some k =>
    refine Multiset.count_eq_zero.mpr fun hmem => ?_
    obtain rfl := Multiset.mem_singleton.mp hmem
    exact absurd ht nofun

/-- The tokens that are moved between the hand and what is owed are the same. -/
theorem counted.owed {hand' : Multiset Token} {owed : List Owed} (h : counted hand w)
    (heq : hand' + owedTokens owed = hand + owedTokens w.owed) :
    counted hand' { w with owed := owed } := by
  refine World.CountedBut.congr h rfl (fun r => ?_) fun r => ?_
  · exact congrArg (Multiset.count _) heq
  · exact congrArg (Multiset.count _) heq

/-- **The counters count in every run.** -/
theorem conserves_counted : Conserves S (fun _ => World.TablesFit) counted where
  malloc hand w malloc h _ := (ignoresWrites_counted hand).malloc w malloc h
  retain hand k := moves_counted ((ignoresTable_counted hand).retainSubscription k)
    (fun _ _ => Multiset.count_cons_of_ne (by simp) _)
    fun _ _ => Multiset.count_cons_of_ne (by simp) _
  release hand k := moves_counted ((ignoresTable_counted _).releaseSubscription k)
    (fun _ _ => (Multiset.count_cons_of_ne (by simp) _).symm)
    fun _ _ => (Multiset.count_cons_of_ne (by simp) _).symm
  accept hand r s k := moves_counted ((ignoresTable_counted _).acceptSubscription r s k)
    (fun _ _ => (Multiset.count_cons_of_ne (by simp) _).symm)
    fun _ _ => (Multiset.count_cons_of_ne (by simp) _).symm
  write hand r f _ := moves_counted ((ignoresWrites_counted hand).writeResult r f) (fun _ _ => rfl)
    fun _ _ => rfl
  answer _ r := (ensures_releaseResult_counted r).imp (fun _ h => h.2.2.1) (fun _ _ h => h)
    fun _ h => h
  announce hand r count hcount := .bind (Q := fun _ => Announcing r count hand)
    (ensures_modifyWorld fun w h => h.2.2.1.announce count) fun _ =>
    ensures_requestSubresult_counted r hcount
  subanswer _ r := (ensures_releaseSubresult_counted r).imp (fun _ h => h.2.2.1) (fun _ _ h => h)
    fun _ h => h
  dummy _ r := (ensures_releaseDummyUnsubscribeResult_counted r).imp (fun _ h => h.2.2.1)
    (fun _ _ h => h) fun _ h => h
  owe hand event owed _ := ensures_modifyWorld fun w h => by
    have howed : counted hand { w with owed := w.owed ++ owed } := h.2.2.1.owed (by
      rw [owedTokens_append]
      abel)
    exact howed.of_eq rfl rfl
  redeem hand o := ensures_modifyWorld fun w h => h.2.2.1.owed (by
    rw [← owedTokens_erase h.2.2.2, ← add_assoc, add_comm hand])
  oweAlias hand k := ensures_modifyWorld fun w h => h.2.2.1.owed (by
    rw [owedTokens_cons, Owed.tokens, Multiset.singleton_add, Multiset.add_cons,
      Multiset.cons_add])
  newRepublish hand it := moves_counted (.new (fun _ _ h => h.of_eq rfl rfl) it)
    (fun _ _ => rfl) fun _ _ => rfl
  freeRepublish hand handle := moves_counted (.free (fun _ _ h => h.of_eq rfl rfl) handle)
    (fun _ _ => rfl)
    fun _ _ => rfl
  publish hand handle item := moves_counted ((ignoresWrites_counted hand).publish handle item)
    (fun _ _ => rfl) fun _ _ => rfl
  take hand s := moves_counted ((ignoresWrites_counted hand).sessionOutMessageCreate s)
    (fun _ _ => rfl) fun _ _ => rfl
  slots hand s count _ := moves_counted
    ((ignoresWrites_counted hand).sessionAddFreePublishSlots s count) (fun _ _ => rfl)
    fun _ _ => rfl
  request hand type key := moves_counted ((ignoresTable_counted hand).requestSubscription type key)
    (fun k _ => by rw [Multiset.count_add, count_reference_of_isAnswer rfl, zero_add])
    fun k _ => by rw [Multiset.count_add, count_reference_of_isAnswer rfl, zero_add]
  append hand s messageId requestId payloadCount buffer _ := moves_counted
    ((ignoresWrites_counted hand).sessionAppendOutMessage s messageId requestId payloadCount buffer
      []) (fun _ _ => rfl) fun _ _ => rfl
  requestResult hand s requestId count hne hlt := (ensures_requestResult_counted hne hlt).imp
    (fun _ h => h.2.2.1) (fun _ _ h => h) fun _ h => h
  unsubscribe hand s id := moves_counted ((ignoresTable_counted hand).unsubscribeItem s id)
    (fun k _ => by rw [Multiset.count_add, count_reference_of_isAnswer rfl, zero_add])
    fun k _ => by rw [Multiset.count_add, count_reference_of_isAnswer rfl, zero_add]
  create hand := moves_counted (.bind (.malloc (ignoresWrites_counted hand).malloc) fun _ => .ite
    (.bind (.new (fun _ _ h => h.of_eq rfl rfl) _) fun _ => .bind (.modifyWorld fun w h => by
      split
      · exact h
      · exact h.of_eq rfl rfl) fun _ => .pure _) (.pure _)) (fun _ _ => rfl) fun _ _ => rfl
  hello hand s σ := ((ignoresWrites_counted hand).write_sessions s
    (show σ.SameTable { σ with helloFinished := true } from ⟨rfl, rfl⟩) (.of_eq rfl rfl)).imp
    (fun _ h => ⟨h.2.2.2, h.2.2.1⟩) (fun _ _ h => h) fun _ h => h
  close hand s σ := (ensures_closeSession_counted s σ).imp (fun _ h => ⟨h.2.1, h.2.2.1, h.2.2.2⟩)
    (fun _ _ h => h) fun _ h => h
  deleteItem hand it := moves_counted ((ignoresTable_counted _).deletePublishItem it)
    (fun _ _ => by
      rw [Multiset.count_cons_of_ne (by simp), Multiset.count_cons_of_ne (by simp)])
    fun _ _ => by
      rw [Multiset.count_cons_of_ne (by simp), Multiset.count_cons_of_ne (by simp)]

/-- **The counters say what the application owes** at the end of a run: as long as no sub-items
were announced while others were to be delivered. -/
theorem counted_of_run {app : Application} {sizeT : Cbor.SizeT} {callbacks : Callback → Bool}
    {malloc : ℕ → Bool} {acts : List Act}
    (hrun : Transition.Run (World.step app) Transition.anyStep
      (World.create sizeT callbacks malloc) acts w) : counted 0 w := by
  have hcreate : (World.create sizeT callbacks malloc).TablesFit ∧
      counted 0 (World.create sizeT callbacks malloc) :=
    ⟨nofun, nofun, fun r _ => ⟨rfl, rfl⟩⟩
  obtain ⟨-, -, h⟩ := ((conservesItems_tablesFit (I := anyWorld)).conserves.and
    (conserves_counted (S := False))).of_run False.elim hcreate hrun
  exact h

end Wpcp
