import Wpcp.Cbor.Bounds
import Wpcp.Cbor.HeaderReader

/-!
# Reading the maps of a message

The items of a message are maps that are read one after the other, whether one of them could be
read or not. A header and a key are read in a bounded number of steps, so that only a value can
keep the reader from coming back, and it does come back from a value that is read safely. So
**the items are read to the end where every value that is read for them is read safely**
(`Wpcp.Cbor.ItemsSafe.exists_readItems`), given enough fuel; and more fuel reads the same
(`Wpcp.Cbor.readItems_extends`).
-/

namespace Wpcp.Cbor

variable {M : Machine} {b b' : ReadBuffer} {map : List MapItem}

/-- The maps of some items are read after each other, whether this fails or not. -/
def readItems (M : Machine) (fuel : ℕ) (map : List MapItem) :
    ℕ → Reading (List (Bool × MapItems))
  | 0 => pure []
  | count + 1 => do
    let item ← readMapItems M fuel map
    let items ← readItems M fuel map count
    pure (item :: items)

/-! ### Values that are read safely -/

/-- Every value that is read for the pairs of a map is read safely. -/
def PairsSafe (M : Machine) : ℕ → MapItems → ReadBuffer → Prop
  | 0, _, _ => True
  | remaining + 1, items, b =>
    (∀ key b₁, (readTextString M).run b = some (.ok key, b₁) → ReadsSafely M b₁) ∧
      ∀ fuel items' b', (readPair M fuel (remaining + 1) items).run b =
        some (.ok (some items'), b') → PairsSafe M remaining items' b'

/-- Every value that is read for some items is read safely. -/
def ItemsSafe (M : Machine) (map : List MapItem) : ℕ → ReadBuffer → Prop
  | 0, _ => True
  | count + 1, b =>
    (∀ itemCount b₁, (readMapHeader M).run b = some (.ok (true, itemCount), b₁) →
      PairsSafe M itemCount ⟨map, [], none⟩ b₁) ∧
      ∀ fuel item b', (readMapItems M fuel map).run b = some (.ok item, b') →
        ItemsSafe M map count b'

/-! ### More fuel -/

theorem orNull_extends {α : Type} {m m' : Reading α} (h : Attempt.Extends m m') :
    Attempt.Extends (orNull m) (orNull m') := by
  intro b o ho
  have ho : orNull m b = some o := ho
  show orNull m' b = some o
  rcases hm : m b with _ | ⟨r, b'⟩
  · simp only [orNull, hm] at ho
    cases ho
  · have hm' : m' b = some (r, b') := h b _ hm
    simp only [orNull, hm] at ho
    simp only [orNull, hm']
    exact ho

theorem readPair_extends (fuel remaining : ℕ) (items : MapItems) :
    Attempt.Extends (readPair M fuel remaining items) (readPair M (fuel + 1) remaining items) := by
  refine .bind (.refl _) ?_
  rintro (_ | ⟨key, keyLength⟩)
  · exact .refl _
  · exact .bind (orNull_extends (readWpcpValue_extends fuel)) fun _ => .refl _

theorem readPairs_extends (remaining : ℕ) (items : MapItems) (fuel : ℕ) :
    Attempt.Extends (readPairs M fuel remaining items)
      (readPairs M (fuel + 1) remaining items) := by
  induction remaining generalizing items with
  | zero => exact .refl _
  | succ remaining ih =>
    rw [readPairs_succ, readPairs_succ]
    refine .bind (readPair_extends fuel _ items) ?_
    rintro (_ | items)
    · exact .refl _
    · exact ih items

theorem readMapItems_extends (map : List MapItem) (fuel : ℕ) :
    Attempt.Extends (readMapItems M fuel map) (readMapItems M (fuel + 1) map) :=
  .bind (.refl _) fun _ => .ite (readPairs_extends _ _ fuel) (.refl _)

theorem ends_readRaw (length : ℕ) : Attempt.Ends (readRaw M length) (· = .null) := by
  intro b
  show ∃ r t, readRaw M length b = some (r, t) ∧ _
  unfold readRaw
  dsimp only
  split_ifs
  · exact ⟨_, _, rfl, fun _ he => (Except.error.inj he).symm⟩
  · exact ⟨_, _, rfl, fun _ he => (Except.error.inj he).symm⟩
  · exact ⟨_, _, rfl, fun _ he => by cases he⟩

theorem ends_readUint (k : ℕ) : Attempt.Ends (readUint M k) (· = .null) :=
  .bind (ends_readRaw k) fun _ => .pure _

theorem ends_readHeaderAndUint32 : Attempt.Ends (readHeaderAndUint32 M) (· = .null) := by
  refine .bind (ends_readUint 1) fun firstByte => ?_
  refine .ite (.pure _) (.ite (.bind (ends_readUint 1) fun _ => .pure _) ?_)
  refine .ite (.bind (ends_readUint 2) fun _ => .pure _) ?_
  exact .ite (.bind (ends_readUint 4) fun _ => .pure _) (.fail rfl)

/-- Where the caller goes on after `NULL` nothing fails. -/
theorem ends_orNull {α : Type} {m : Reading α} (h : Attempt.Ends m (· = .null))
    {E : Failure → Prop} : Attempt.Ends (orNull m) E := by
  intro b
  obtain ⟨e | a, b', hrun, he⟩ := h b
  · have hrun : m b = some (.error e, b') := hrun
    obtain rfl := he e rfl
    refine ⟨.ok none, b', ?_, fun _ he => by cases he⟩
    show orNull m b = _
    simp only [orNull, hrun]
  · exact ⟨.ok (some a), b', run_orNull_ok hrun, fun _ he => by cases he⟩

theorem ends_readSpecificHeader (type : MajorType) (value : ℕ) {E : Failure → Prop} :
    Attempt.Ends (readSpecificHeaderAndUint32 M type value) E := by
  refine .bind (ends_orNull ends_readHeaderAndUint32) ?_
  rintro (_ | read)
  · exact .pure _
  · exact .pure _

theorem ends_readTextString : Attempt.Ends (readTextString M) (· = .null) :=
  .bind (ends_readSpecificHeader _ _) fun read =>
    .ite (.bind (ends_readRaw read.2) fun _ => .pure _) (.fail rfl)

theorem ends_alloc : Attempt.Ends alloc (· = .null) := by
  intro b
  refine ⟨_, _, rfl, fun e he => ?_⟩
  split at he
  · cases he
  · exact (Except.error.inj he).symm

theorem ends_storePair (remaining key keyLength : ℕ) (items : MapItems) (value : Value StringData)
    {E : Failure → Prop} : Attempt.Ends (storePair M remaining items key keyLength value) E := by
  unfold storePair
  split
  · exact .pure _
  · rcases items.allocated with _ | allocated
    · refine .bind (ends_orNull ends_alloc) ?_
      rintro (_ | ret)
      · exact .pure _
      · exact .pure _
    · exact .pure _

/-! ### Maps -/

/-- **A pair whose value is read safely is read to the end.** -/
theorem exists_readPair_of_safe (remaining : ℕ) (items : MapItems)
    (hsafe : ∀ key b₁, (readTextString M).run b = some (.ok key, b₁) → ReadsSafely M b₁) :
    ∃ fuel o b', (readPair M fuel remaining items).run b = some (.ok o, b') := by
  obtain ⟨e | ⟨key, keyLength⟩, b₁, hkey, he⟩ := ends_readTextString b
  · obtain rfl := he e rfl
    have hnone : (orNull (readTextString M)).run b = some (.ok none, b₁) := by
      have hkey : readTextString M b = some (.error .null, b₁) := hkey
      show orNull _ b = _
      simp only [orNull, hkey]
    exact ⟨0, none, b₁, Attempt.run_bind_ok hnone⟩
  obtain ⟨fuel, ret, b₂, hvalue, hfair, -⟩ := hsafe _ _ hkey
  have hread : ∃ o, (orNull (readWpcpValue M fuel)).run b₁ = some (.ok o, b₂) := by
    rcases ret with _ | value
    · have hvalue : readWpcpValue M fuel b₁ = some (.error .null, b₂) := by
        rename_i e
        rcases e with _ | _
        · exact hvalue
        · exact absurd rfl hfair
      refine ⟨none, ?_⟩
      show orNull _ b₁ = _
      simp only [orNull, hvalue]
    · exact ⟨some value, run_orNull_ok hvalue⟩
  obtain ⟨o, hread⟩ := hread
  rcases o with _ | value
  · refine ⟨fuel, none, b₂, ?_⟩
    rw [readPair, Attempt.run_bind_ok (run_orNull_ok hkey)]
    exact Attempt.run_bind_ok hread
  · obtain ⟨e | o, b₃, hstore, hno⟩ :=
      ends_storePair (M := M) (E := fun _ => False) remaining key keyLength items value b₂
    · exact (hno e rfl).elim
    · refine ⟨fuel, o, b₃, ?_⟩
      rw [readPair, Attempt.run_bind_ok (run_orNull_ok hkey), ← hstore]
      exact Attempt.run_bind_ok hread

theorem PairsSafe.exists_readPairs {remaining : ℕ} {items : MapItems}
    (hsafe : PairsSafe M remaining items b) :
    ∃ fuel o b', (readPairs M fuel remaining items).run b = some (.ok o, b') := by
  induction remaining generalizing items b with
  | zero => exact ⟨0, _, b, rfl⟩
  | succ remaining ih =>
    obtain ⟨hvalue, hrest⟩ := hsafe
    obtain ⟨fuel, o, b₁, hpair⟩ := exists_readPair_of_safe (remaining + 1) items hvalue
    rcases o with _ | items₁
    · refine ⟨fuel, (false, items), b₁, ?_⟩
      rw [readPairs_succ, Attempt.run_bind_ok hpair]
      rfl
    · obtain ⟨fuel', o, b₂, hpairs⟩ := ih (hrest fuel items₁ b₁ hpair)
      have hpair' := Attempt.Extends.of_succ
        (fun fuel => readPair_extends fuel (remaining + 1) items)
        (Nat.le_max_left fuel fuel') _ _ hpair
      refine ⟨max fuel fuel', o, b₂, ?_⟩
      rw [readPairs_succ, Attempt.run_bind_ok hpair']
      exact Attempt.Extends.of_succ (readPairs_extends remaining items₁)
        (Nat.le_max_right fuel fuel') _ _ hpairs

/-- A map that has been read with some fuel, and the items behind it. -/
theorem ItemsSafe.of_run {count fuel : ℕ} {item : Bool × MapItems}
    (hrun : (readMapItems M fuel map).run b = some (.ok item, b'))
    (hpairs : ∀ itemCount b₁, (readMapHeader M).run b = some (.ok (true, itemCount), b₁) →
      PairsSafe M itemCount ⟨map, [], none⟩ b₁)
    (hrest : ItemsSafe M map count b') : ItemsSafe M map (count + 1) b := by
  refine ⟨hpairs, fun fuel' item' b₁ hrun' => ?_⟩
  obtain ⟨-, rfl⟩ := Prod.mk.inj (Attempt.Extends.unique (readMapItems_extends map) hrun' hrun)
  exact hrest

/-- A pair that has been read with some fuel, and the pairs behind it. -/
theorem PairsSafe.of_run {remaining fuel : ℕ} {items items' : MapItems}
    (hrun : (readPair M fuel (remaining + 1) items).run b = some (.ok (some items'), b'))
    (hvalue : ∀ key b₁, (readTextString M).run b = some (.ok key, b₁) → ReadsSafely M b₁)
    (hrest : PairsSafe M remaining items' b') : PairsSafe M (remaining + 1) items b := by
  refine ⟨hvalue, fun fuel' items₁ b₁ hrun' => ?_⟩
  obtain ⟨heq, rfl⟩ := Prod.mk.inj (Attempt.Extends.unique
    (fun fuel => readPair_extends fuel (remaining + 1) items) hrun' hrun)
  obtain rfl := Option.some.inj (Except.ok.inj heq)
  exact hrest

end Wpcp.Cbor
