import Wpcp.Cbor.Wire

/-!
# Scanning is correct for the grammar

`Wpcp.Cbor.scanItem` takes exactly the items of the grammar of `Wpcp.Cbor.Wire`: an item
it finds is an accepted one that was there (`Wpcp.Cbor.scanItem_sound`), and an accepted
item is found whatever follows it (`Wpcp.Cbor.scanItem_complete`). Since an item has at
least one byte, a scan ends with one unit of fuel more than there are bytes
(`Wpcp.Cbor.run_scanItem`), so that `Wpcp.Cbor.scan` is what every scan with enough fuel
gives.
-/

namespace Wpcp.Cbor

variable {sizeT : SizeT} {bs rest : List UInt8} {fuel : ℕ}

/-! ### Bytes and heads -/

theorem run_scanBytes_of_le {k : ℕ} (h : k ≤ bs.length) :
    (scanBytes k).run bs = some (.ok (bs.take k), bs.drop k) := by
  show scanBytes k bs = _
  rw [scanBytes, if_pos h]

theorem run_scanBytes_of_lt {k : ℕ} (h : bs.length < k) :
    (scanBytes k).run bs = some (.error (.short (k - bs.length)), []) := by
  show scanBytes k bs = _
  rw [scanBytes, if_neg (by omega)]

theorem run_scanBytes_append {k : ℕ} {content : List UInt8} (h : content.length = k) :
    (scanBytes k).run (content ++ rest) = some (.ok content, rest) := by
  subst h
  rw [run_scanBytes_of_le (by simp)]
  simp

/-- What is taken is where it was, and is as long as asked for. -/
theorem scanBytes_sound {k : ℕ} {content : List UInt8}
    (h : (scanBytes k).run bs = some (.ok content, rest)) :
    bs = content ++ rest ∧ content.length = k := by
  rcases Nat.lt_or_ge bs.length k with hlt | hle
  · rw [run_scanBytes_of_lt hlt] at h
    simp at h
  · rw [run_scanBytes_of_le hle] at h
    simp only [Option.some.injEq, Prod.mk.injEq, Except.ok.injEq] at h
    obtain ⟨rfl, rfl⟩ := h
    exact ⟨(List.take_append_drop k bs).symm, by simpa using hle⟩

theorem scanBytes_ends (k : ℕ) : (scanBytes k).run bs ≠ none := by
  rcases Nat.lt_or_ge bs.length k with hlt | hle
  · simp [run_scanBytes_of_lt hlt]
  · simp [run_scanBytes_of_le hle]

/-- The number of low bits that take no further byte is the argument itself. -/
theorem argumentBytes_of_lt {firstByte : ℕ} (h : firstByte < additonalBytes1) :
    argumentBytes firstByte = some 0 := by
  rw [argumentBytes, if_pos h]

theorem lt_of_argumentBytes {firstByte k : ℕ} (h : argumentBytes firstByte = some k) :
    firstByte < 32 ∧ k ≤ 8 := by
  obtain ⟨h₁, h₂, h₄, h₈, h₃₁⟩ := additonalBytes_eq
  simp only [argumentBytes] at h
  split_ifs at h <;> simp only [Option.some.injEq] at h <;> omega

theorem Head.Valid.firstByte_lt {head : Head} (h : head.Valid sizeT) : head.firstByte < 32 := by
  obtain ⟨⟨k, hk, -⟩, -⟩ := h
  exact (lt_of_argumentBytes hk).1

@[simp] theorem value_singleton (b : UInt8) : BigEndian.value [b] = b.toNat := by
  simp [BigEndian.value]

/-- The bytes of the head that bytes spell are these bytes. -/
theorem Head.bytes_ofBytes {b : UInt8} {k : ℕ} {argument : List UInt8}
    (hk : argumentBytes (headerInfo b.toNat) = some k) (hlength : argument.length = k) :
    (Head.ofBytes b.toNat argument).bytes = b :: argument := by
  have hargument : BigEndian.bytes k (Head.ofBytes b.toNat argument).value = argument := by
    simp only [Head.ofBytes]
    split_ifs with hlt
    · rw [argumentBytes_of_lt hlt] at hk
      obtain rfl := Option.some.inj hk
      exact (List.length_eq_zero_iff.mp hlength).symm
    · rw [← hlength, BigEndian.bytes_value]
  have hfirst : constructHeader (Head.ofBytes b.toNat argument).type
      (Head.ofBytes b.toNat argument).firstByte = b := constructHeader_header b
  have hbytes : argumentBytes (Head.ofBytes b.toNat argument).firstByte = some k := hk
  rw [Head.bytes, hfirst, hbytes, Option.getD_some, hargument]

/-- The head that bytes spell is spelt. -/
theorem Head.spelt_ofBytes {first k : ℕ} {argument : List UInt8}
    (hk : argumentBytes (headerInfo first) = some k) (hlength : argument.length = k) :
    (Head.ofBytes first argument).Spelt k := by
  refine ⟨hk, ?_⟩
  show if headerInfo first < additonalBytes1 then _ else _
  split_ifs with hlt
  · simp [Head.ofBytes, hlt]
  · simpa [Head.ofBytes, hlt, hlength] using BigEndian.value_lt argument

/-- A head that is spelt is the one its bytes spell. -/
theorem Head.ofBytes_bytes {head : Head} {k : ℕ} (h : head.Spelt k) :
    Head.ofBytes (constructHeader head.type head.firstByte).toNat
      (BigEndian.bytes k head.value) = head := by
  have hlt := (lt_of_argumentBytes h.1).1
  obtain ⟨-, hvalue⟩ := h
  obtain ⟨type, firstByte, value⟩ := head
  simp only [Head.ofBytes, headerInfo_constructHeader hlt, headerType_constructHeader hlt,
    Head.mk.injEq, true_and]
  split_ifs at hvalue ⊢ with hsmall
  · exact hvalue.symm
  · exact BigEndian.value_bytes hvalue

/-- **A head that is found is an accepted one that was there.** -/
theorem scanHead_sound {head : Head}
    (hrun : (scanHead sizeT).run bs = some (.ok head, rest)) :
    bs = head.bytes ++ rest ∧ head.Valid sizeT := by
  obtain ⟨e, t, -, ho⟩ | ⟨first, bs₁, hfirst, h⟩ := Attempt.run_bind_eq_some.mp hrun
  · simp at ho
  obtain ⟨rfl, hlen⟩ := scanBytes_sound hfirst
  obtain ⟨b, rfl⟩ := List.length_eq_one_iff.mp hlen
  rw [value_singleton] at h
  split at h
  · simp at h
  rename_i k hk
  obtain ⟨e, t, -, ho⟩ | ⟨argument, bs₂, hargument, haccept⟩ := Attempt.run_bind_eq_some.mp h
  · simp at ho
  obtain ⟨rfl, hlength⟩ := scanBytes_sound hargument
  unfold accept at haccept
  split at haccept
  · rename_i haccepted
    simp only [Attempt.run_pure, Option.some.injEq, Prod.mk.injEq, Except.ok.injEq] at haccept
    obtain ⟨rfl, rfl⟩ := haccept
    refine ⟨?_, ⟨k, Head.spelt_ofBytes hk hlength⟩, haccepted⟩
    rw [Head.bytes_ofBytes hk hlength]
    rfl
  · simp at haccept

/-- **An accepted head is found**, whatever follows it. -/
theorem scanHead_complete {head : Head} (h : head.Valid sizeT) :
    (scanHead sizeT).run (head.bytes ++ rest) = some (.ok head, rest) := by
  have hlt := h.firstByte_lt
  obtain ⟨⟨k, hspelt⟩, haccepted⟩ := h
  have hbytes : head.bytes ++ rest =
      [constructHeader head.type head.firstByte] ++ (BigEndian.bytes k head.value ++ rest) := by
    simp [Head.bytes, hspelt.1]
  rw [hbytes, scanHead, Attempt.run_bind_ok (run_scanBytes_append (k := 1) rfl)]
  simp only [value_singleton, headerInfo_constructHeader hlt, hspelt.1]
  rw [Attempt.run_bind_ok (run_scanBytes_append (BigEndian.length_bytes k head.value)),
    Head.ofBytes_bytes hspelt, accept, if_pos haccepted]
  rfl

theorem scanHead_ends : (scanHead sizeT).run bs ≠ none := by
  intro hnone
  obtain hnone | ⟨first, bs₁, -, hnone⟩ := Attempt.run_bind_eq_none.mp hnone
  · exact scanBytes_ends 1 hnone
  split at hnone
  · simp at hnone
  obtain hnone | ⟨argument, bs₂, -, hnone⟩ := Attempt.run_bind_eq_none.mp hnone
  · exact scanBytes_ends _ hnone
  rw [accept] at hnone
  split at hnone <;> simp at hnone

theorem Head.length_bytes_pos (head : Head) : 0 < head.bytes.length := by
  simp [Head.bytes]

namespace Wire

theorem length_bytes_pos (w : Wire) : 0 < w.bytes.length := by
  have hhead := w.head.length_bytes_pos
  cases w <;> simp only [head, bytes, List.length_append] at hhead ⊢ <;> omega

/-- An accepted item does not start with the stop code. -/
theorem Valid.bytes_ne_stop {w : Wire} (h : w.Valid sizeT) :
    ∃ b tail, w.bytes = b :: tail ∧ b ≠ stopCode := by
  have hlt := h.head_valid.firstByte_lt
  have hne : constructHeader w.head.type w.head.firstByte ≠ stopCode := by
    intro hstop
    have htype := @headerType_constructHeader w.head.type _ hlt
    have hinfo := @headerInfo_constructHeader w.head.type _ hlt
    rw [hstop] at htype hinfo
    have hlength := h.head_valid.2.1 hinfo.symm
    rw [← htype] at hlength
    exact absurd hlength (by decide)
  cases w with
  | leaf head => exact ⟨_, _, rfl, hne⟩
  | string head content => exact ⟨_, _, rfl, hne⟩
  | nested head items => exact ⟨_, _, rfl, hne⟩

end Wire

/-! ### The items inside an item -/

section Items

variable {item : Scan Wire} {head : Head}

/-- Where an item starts, or the bytes end, there is no stop. -/
theorem run_scanStop_of_item {items : List Wire} (hcount : head.isIndefinite = false →
    items.length ≠ head.count) (hbs : ∀ tail, bs ≠ stopCode :: tail) :
    (scanStop head items).run bs = some (.ok false, bs) := by
  show scanStop head items bs = _
  unfold scanStop
  split
  · split
    · rename_i b tail
      rw [if_neg (fun hb => hbs tail (by rw [hb]))]
    · rfl
  · rename_i hdefinite
    simp [hcount (by simpa using hdefinite)]

/-- Behind the last item there is the stop, in the bytes or in the count. -/
theorem run_scanStop_of_end {items : List Wire}
    (hcount : head.isIndefinite = false → items.length = head.count) :
    (scanStop head items).run (head.stop ++ rest) = some (.ok true, rest) := by
  show scanStop head items (head.stop ++ rest) = _
  cases hindefinite : head.isIndefinite with
  | true => simp [scanStop, Head.stop, hindefinite]
  | false => simp [scanStop, Head.stop, hindefinite, hcount hindefinite]

/-- What a stop is taken for is one. -/
theorem scanStop_sound {items : List Wire} {stop : Bool}
    (h : (scanStop head items).run bs = some (.ok stop, rest)) :
    (stop = true ∧ bs = head.stop ++ rest ∧
        (head.isIndefinite = false → items.length = head.count)) ∨
      (stop = false ∧ bs = rest) := by
  have h : scanStop head items bs = some (.ok stop, rest) := h
  unfold scanStop at h
  cases hindefinite : head.isIndefinite with
  | true =>
    rw [hindefinite, if_pos rfl] at h
    cases bs with
    | nil =>
      obtain ⟨rfl, rfl⟩ : false = stop ∧ [] = rest := by simpa using h
      exact Or.inr ⟨rfl, rfl⟩
    | cons b tail =>
      by_cases hb : b = stopCode
      · obtain ⟨rfl, rfl⟩ : true = stop ∧ tail = rest := by simpa [hb] using h
        exact Or.inl ⟨rfl, by simp [Head.stop, hindefinite, hb], by simp⟩
      · obtain ⟨rfl, rfl⟩ : false = stop ∧ b :: tail = rest := by simpa [hb] using h
        exact Or.inr ⟨rfl, rfl⟩
  | false =>
    rw [hindefinite, if_neg (by simp)] at h
    obtain ⟨rfl, rfl⟩ : decide (items.length = head.count) = stop ∧ bs = rest := by
      simpa using h
    by_cases hcount : items.length = head.count
    · exact Or.inl ⟨by simp [hcount], by simp [Head.stop, hindefinite], fun _ => hcount⟩
    · exact Or.inr ⟨by simp [hcount], rfl⟩

theorem scanStop_ends {items : List Wire} : (scanStop head items).run bs ≠ none := by
  show scanStop head items bs ≠ none
  unfold scanStop
  split_ifs
  · cases bs with
    | nil => simp
    | cons b tail => by_cases hb : b = stopCode <;> simp [hb]
  · simp

/-- **What one round takes**: the stop, or one more item of the right type. -/
theorem scanNext_sound {items : List Wire} {next : List Wire ⊕ List Wire}
    (h : (scanNext item head items).run bs = some (.ok next, rest)) :
    (next = .inr items ∧ bs = head.stop ++ rest ∧
        (head.isIndefinite = false → items.length = head.count)) ∨
      ∃ w, next = .inl (items ++ [w]) ∧ item.run bs = some (.ok w, rest) ∧
        (head.isString → w.head.type = head.type) := by
  obtain ⟨e, t, -, ho⟩ | ⟨stop, bs₁, hstop, h⟩ := Attempt.run_bind_eq_some.mp h
  · simp at ho
  obtain ⟨rfl, hbs, hcount⟩ | ⟨rfl, rfl⟩ := scanStop_sound hstop
  · simp only [if_true, Attempt.run_pure, Option.some.injEq, Prod.mk.injEq,
      Except.ok.injEq] at h
    obtain ⟨rfl, rfl⟩ := h
    exact Or.inl ⟨rfl, hbs, hcount⟩
  · rw [if_neg (by simp)] at h
    obtain ⟨e, t, -, ho⟩ | ⟨w, bs₂, hw, h⟩ := Attempt.run_bind_eq_some.mp h
    · simp at ho
    split at h
    · simp at h
    rename_i htype
    simp only [Attempt.run_pure, Option.some.injEq, Prod.mk.injEq, Except.ok.injEq] at h
    obtain ⟨rfl, rfl⟩ := h
    refine Or.inr ⟨w, rfl, hw, fun hstring => ?_⟩
    by_contra hne
    exact htype ⟨hstring, hne⟩

/-- The rounds together take the items and the stop. -/
theorem scanItems_sound
    (hitem : ∀ bs w rest, item.run bs = some (.ok w, rest) →
      bs = w.bytes ++ rest ∧ w.Valid sizeT) {before items : List Wire}
    (hrun : (Attempt.loop (scanNext item head) fuel before).run bs = some (.ok items, rest)) :
    ∃ ws, items = before ++ ws ∧ bs = Wire.bytesList ws ++ (head.stop ++ rest) ∧
      (∀ w ∈ ws, w.Valid sizeT ∧ (head.isString → w.head.type = head.type)) ∧
      (head.isIndefinite = false → items.length = head.count) := by
  induction fuel generalizing before bs with
  | zero => simp [Attempt.loop] at hrun
  | succ fuel ih =>
    rw [Attempt.loop_succ] at hrun
    obtain ⟨e, t, -, ho⟩ | ⟨next, bs₁, hnext, h⟩ := Attempt.run_bind_eq_some.mp hrun
    · simp at ho
    obtain ⟨rfl, rfl, hcount⟩ | ⟨w, rfl, hw, htype⟩ := scanNext_sound hnext
    · simp only [Attempt.run_pure, Option.some.injEq, Prod.mk.injEq, Except.ok.injEq] at h
      obtain ⟨rfl, rfl⟩ := h
      exact ⟨[], by simp, by simp [Wire.bytesList], by simp, hcount⟩
    · obtain ⟨ws, rfl, rfl, hws, hcount⟩ := ih h
      obtain ⟨rfl, hvalid⟩ := hitem _ _ _ hw
      refine ⟨w :: ws, by simp, by simp [Wire.bytesList], ?_, hcount⟩
      intro v hv
      obtain rfl | hv := List.mem_cons.mp hv
      · exact ⟨hvalid, htype⟩
      · exact hws v hv

/-- **Items that are there are taken**, and the loop goes on behind them. -/
theorem scanItems_lead {n : ℕ} {ws before : List Wire} {tail : List UInt8}
    {o : Except Fault (List Wire) × List UInt8}
    (hitem : ∀ w ∈ ws, ∀ rest, item.run (w.bytes ++ rest) = some (.ok w, rest))
    (hvalid : ∀ w ∈ ws, w.Valid sizeT)
    (htype : head.isString → ∀ w ∈ ws, w.head.type = head.type)
    (hcount : head.isIndefinite = false → before.length + ws.length ≤ head.count)
    (htail : (Attempt.loop (scanNext item head) n (before ++ ws)).run tail = some o) :
    (Attempt.loop (scanNext item head) (ws.length + n) before).run (Wire.bytesList ws ++ tail) =
      some o := by
  induction ws generalizing before with
  | nil => simpa [Wire.bytesList] using htail
  | cons w ws ih =>
    obtain ⟨b, tail', hb, hne⟩ := (hvalid w (by simp)).bytes_ne_stop
    rw [List.length_cons] at hcount
    have hstop : (scanStop head before).run (w.bytes ++ (Wire.bytesList ws ++ tail)) =
        some (.ok false, w.bytes ++ (Wire.bytesList ws ++ tail)) := by
      refine run_scanStop_of_item (fun hdefinite => ?_) (fun t ht => ?_)
      · have := hcount hdefinite
        omega
      · rw [hb, List.cons_append, List.cons.injEq] at ht
        exact hne ht.1
    have hnext : (scanNext item head before).run (w.bytes ++ (Wire.bytesList ws ++ tail)) =
        some (.ok (.inl (before ++ [w])), Wire.bytesList ws ++ tail) := by
      have htype' : ¬(head.isString = true ∧ w.head.type ≠ head.type) := fun h =>
        h.2 (htype h.1 w (by simp))
      rw [scanNext, Attempt.run_bind_ok hstop, if_neg (by simp),
        Attempt.run_bind_ok (hitem w (by simp) _), if_neg htype']
      rfl
    rw [Wire.bytesList, List.append_assoc, List.length_cons,
      show ws.length + 1 + n = (ws.length + n) + 1 by omega, Attempt.run_loop_inl hnext]
    refine ih (fun v hv => hitem v (by simp [hv])) (fun v hv => hvalid v (by simp [hv]))
      (fun hs v hv => htype hs v (by simp [hv])) (fun hd => ?_) (by simpa using htail)
    have := hcount hd
    rw [List.length_append, List.length_singleton]
    omega

/-- Items that are there are all taken. -/
theorem scanItems_complete {ws before : List Wire}
    (hitem : ∀ w ∈ ws, ∀ rest, item.run (w.bytes ++ rest) = some (.ok w, rest))
    (hvalid : ∀ w ∈ ws, w.Valid sizeT)
    (htype : head.isString → ∀ w ∈ ws, w.head.type = head.type)
    (hcount : head.isIndefinite = false → before.length + ws.length = head.count)
    (hfuel : ws.length < fuel) :
    (Attempt.loop (scanNext item head) fuel before).run
        (Wire.bytesList ws ++ (head.stop ++ rest)) = some (.ok (before ++ ws), rest) := by
  obtain ⟨n, rfl⟩ := Nat.exists_eq_add_of_lt hfuel
  refine scanItems_lead hitem hvalid htype (fun hd => (hcount hd).le) (n := n + 1)
    (Attempt.run_loop_inr ?_)
  rw [scanNext, Attempt.run_bind_ok (run_scanStop_of_end (by simpa using hcount))]
  rfl

/-- A round takes at least one byte unless it is the last. -/
theorem scanNext_shortens
    (hitem : ∀ bs w rest, item.run bs = some (.ok w, rest) →
      bs = w.bytes ++ rest ∧ w.Valid sizeT) {items items' : List Wire}
    (h : (scanNext item head items).run bs = some (.ok (.inl items'), rest)) :
    rest.length < bs.length := by
  obtain ⟨heq, -⟩ | ⟨w, -, hw, -⟩ := scanNext_sound h
  · simp at heq
  · obtain ⟨rfl, -⟩ := hitem _ _ _ hw
    have := w.length_bytes_pos
    simp only [List.length_append]
    omega

/-- The rounds end. -/
theorem scanItems_ends
    (hsound : ∀ bs w rest, item.run bs = some (.ok w, rest) →
      bs = w.bytes ++ rest ∧ w.Valid sizeT)
    (hends : ∀ bs, bs.length < fuel → item.run bs ≠ none) (hfuel : bs.length < fuel) :
    (scanItems item fuel head).run bs ≠ none := by
  refine Attempt.loop_ends List.length ?_ ?_ hfuel hfuel
  · intro items bs hbs hnone
    obtain hnone | ⟨stop, bs₁, hstop, hnone⟩ := Attempt.run_bind_eq_none.mp hnone
    · exact scanStop_ends hnone
    obtain ⟨rfl, -⟩ | ⟨rfl, rfl⟩ := scanStop_sound hstop
    · simp at hnone
    rw [if_neg (by simp)] at hnone
    obtain hnone | ⟨w, bs₂, -, hnone⟩ := Attempt.run_bind_eq_none.mp hnone
    · exact hends _ hbs hnone
    · split at hnone <;> simp at hnone
  · intro items bs items' rest h
    exact scanNext_shortens hsound h

theorem scanItems_extends {item' : Scan Wire} (hitem : Attempt.Extends item item')
    {fuel' : ℕ} (hle : fuel ≤ fuel') :
    Attempt.Extends (scanItems item fuel head) (scanItems item' fuel' head) := by
  refine Attempt.Extends.loop (fun items => ?_) hle []
  refine .bind (.refl _) fun stop => .ite (.refl _) (.bind hitem fun w => .refl _)

end Items

/-! ### Items -/

/-- More fuel does not change a scan. -/
theorem scanItem_extends (fuel : ℕ) :
    Attempt.Extends (scanItem sizeT fuel) (scanItem sizeT (fuel + 1)) := by
  induction fuel with
  | zero => exact .outOfFuel _
  | succ fuel ih =>
    unfold scanItem
    refine .bind (.refl _) fun head => ?_
    have hitems : Attempt.Extends (scanItems (scanItem sizeT fuel) fuel head)
        (scanItems (scanItem sizeT (fuel + 1)) (fuel + 1) head) :=
      scanItems_extends ih (Nat.le_succ fuel)
    split
    · exact .ite (.bind hitems fun _ => .refl _) (.refl _)
    · exact .ite (.bind hitems fun _ => .refl _) (.refl _)
    · exact .bind hitems fun _ => .refl _
    · exact .bind hitems fun _ => .refl _
    · exact .bind ih fun _ => .refl _
    · exact .refl _

/-- The items the rounds take fit into the head. -/
theorem Wire.valid_nested {head : Head} {items : List Wire} (hhead : head.Valid sizeT)
    (hitems : ∀ w ∈ items, w.Valid sizeT) (hfits : Wire.Fits head items) :
    (Wire.nested head items).Valid sizeT :=
  ⟨hhead, hfits, Wire.validList_iff.mpr hitems⟩

/-- **An item that is found is an accepted one that was there.** -/
theorem scanItem_sound {w : Wire} (hrun : (scanItem sizeT fuel).run bs = some (.ok w, rest)) :
    bs = w.bytes ++ rest ∧ w.Valid sizeT := by
  induction fuel generalizing bs w rest with
  | zero => simp [scanItem] at hrun
  | succ fuel ih =>
    rw [scanItem] at hrun
    obtain ⟨e, t, -, ho⟩ | ⟨head, bs₁, hhead, h⟩ := Attempt.run_bind_eq_some.mp hrun
    · simp at ho
    obtain ⟨rfl, hvalid⟩ := scanHead_sound hhead
    -- what the rounds take, for the four types that have items
    have hitems : ∀ {items rest}, (scanItems (scanItem sizeT fuel) fuel head).run bs₁ =
        some (.ok items, rest) → bs₁ = Wire.bytesList items ++ (head.stop ++ rest) ∧
          (∀ w ∈ items, w.Valid sizeT) ∧ (head.isString → ∀ w ∈ items, w.head.type = head.type) ∧
          (head.isIndefinite = false → items.length = head.count) := by
      intro items rest h
      obtain ⟨ws, rfl, hbs, hws, hcount⟩ := scanItems_sound (fun _ _ _ => ih) h
      exact ⟨hbs, fun w hw => (hws w hw).1, fun hs w hw => (hws w hw).2 hs, hcount⟩
    split at h
    case h_1 htype | h_2 htype =>
      split at h
      · rename_i hindefinite
        obtain ⟨e, t, -, ho⟩ | ⟨items, bs₂, hrounds, h⟩ := Attempt.run_bind_eq_some.mp h
        · simp at ho
        obtain ⟨rfl, rfl⟩ : Wire.nested head items = w ∧ bs₂ = rest := by simpa using h
        obtain ⟨rfl, hws, htypes, -⟩ := hitems hrounds
        refine ⟨by simp [Wire.bytes], Wire.valid_nested hvalid hws ?_⟩
        have hstring : head.isString := by simp [Head.isString, htype]
        simpa [Wire.Fits, htype, hindefinite] using htypes hstring
      · rename_i hdefinite
        obtain ⟨e, t, -, ho⟩ | ⟨content, bs₂, hcontent, h⟩ := Attempt.run_bind_eq_some.mp h
        · simp at ho
        obtain ⟨rfl, rfl⟩ : Wire.string head content = w ∧ bs₂ = rest := by simpa using h
        obtain ⟨rfl, hlength⟩ := scanBytes_sound hcontent
        exact ⟨by simp [Wire.bytes], hvalid, by simp [Head.isString, htype], hdefinite, hlength⟩
    case h_3 htype =>
      obtain ⟨e, t, -, ho⟩ | ⟨items, bs₂, hrounds, h⟩ := Attempt.run_bind_eq_some.mp h
      · simp at ho
      obtain ⟨rfl, rfl⟩ : Wire.nested head items = w ∧ bs₂ = rest := by simpa using h
      obtain ⟨rfl, hws, -, hcount⟩ := hitems hrounds
      refine ⟨by simp [Wire.bytes], Wire.valid_nested hvalid hws ?_⟩
      cases hindefinite : head.isIndefinite with
      | true => simp [Wire.Fits, htype, hindefinite]
      | false => simp [Wire.Fits, htype, hcount hindefinite]
    case h_4 htype =>
      obtain ⟨e, t, -, ho⟩ | ⟨items, bs₂, hrounds, h⟩ := Attempt.run_bind_eq_some.mp h
      · simp at ho
      split at h
      · simp at h
      rename_i heven
      obtain ⟨rfl, rfl⟩ : Wire.nested head items = w ∧ bs₂ = rest := by simpa using h
      obtain ⟨rfl, hws, -, hcount⟩ := hitems hrounds
      refine ⟨by simp [Wire.bytes], Wire.valid_nested hvalid hws ?_⟩
      have heven : items.length % 2 = 0 := by omega
      cases hindefinite : head.isIndefinite with
      | true => simp [Wire.Fits, htype, hindefinite, heven]
      | false => simpa [Wire.Fits, htype, hcount hindefinite] using heven
    case h_5 htype =>
      obtain ⟨e, t, -, ho⟩ | ⟨item, bs₂, hitem, h⟩ := Attempt.run_bind_eq_some.mp h
      · simp at ho
      obtain ⟨rfl, rfl⟩ : Wire.nested head [item] = w ∧ bs₂ = rest := by simpa using h
      obtain ⟨rfl, hitemValid⟩ := ih hitem
      have hstop : head.stop = [] := by
        have := hvalid.2.1
        simp only [htype, MajorType.hasLength] at this
        simpa [Head.stop, Head.isIndefinite] using this
      refine ⟨by simp [Wire.bytes, Wire.bytesList, hstop], Wire.valid_nested hvalid ?_ ?_⟩
      · simpa using hitemValid
      · simp [Wire.Fits, htype, Head.count]
    case h_6 hbyte htext harray hmap htag =>
      obtain ⟨rfl, rfl⟩ : Wire.leaf head = w ∧ bs₁ = rest := by simpa using h
      refine ⟨rfl, hvalid, ?_, htag⟩
      cases htype : head.type <;> simp_all [MajorType.hasLength]

/-- An item is found with some fuel, whatever follows it. -/
def Wire.Found (sizeT : SizeT) (fuel : ℕ) (w : Wire) : Prop :=
  ∀ rest, (scanItem sizeT fuel).run (w.bytes ++ rest) = some (.ok w, rest)

theorem Wire.Found.mono {w : Wire} {fuel' : ℕ} (h : w.Found sizeT fuel) (hle : fuel ≤ fuel') :
    w.Found sizeT fuel' :=
  fun rest => Attempt.Extends.of_succ scanItem_extends hle _ _ (h rest)

/-- Items that are each found with some fuel are all found with the same. -/
theorem Wire.exists_found {ws : List Wire} (h : ∀ w ∈ ws, ∃ fuel, w.Found sizeT fuel) :
    ∃ fuel, ws.length < fuel ∧ ∀ w ∈ ws, w.Found sizeT fuel := by
  induction ws with
  | nil => exact ⟨1, by simp, by simp⟩
  | cons w ws ih =>
    obtain ⟨fuel, hw⟩ := h w (by simp)
    obtain ⟨fuel', hlt, hws⟩ := ih fun v hv => h v (by simp [hv])
    refine ⟨fuel + fuel' + 1, by simp only [List.length_cons]; omega, fun v hv => ?_⟩
    obtain rfl | hv := List.mem_cons.mp hv
    · exact hw.mono (by omega)
    · exact (hws v hv).mono (by omega)

/-- **An accepted item is found**, whatever follows it. -/
theorem scanItem_complete {w : Wire} (h : w.Valid sizeT) : ∃ fuel, w.Found sizeT fuel := by
  induction w using Wire.induction with
  | leaf head =>
    obtain ⟨hvalid, hlength, htag⟩ := h
    refine ⟨1, fun rest => ?_⟩
    rw [Wire.bytes, scanItem, Attempt.run_bind_ok (scanHead_complete hvalid)]
    cases htype : head.type <;> simp_all [MajorType.hasLength]
  | string head content =>
    obtain ⟨hvalid, hstring, hdefinite, hcontent⟩ := h
    refine ⟨1, fun rest => ?_⟩
    rw [Wire.bytes, List.append_assoc, scanItem,
      Attempt.run_bind_ok (scanHead_complete hvalid)]
    have htypes : head.type = .byteString ∨ head.type = .textString := by
      simpa [Head.isString] using hstring
    obtain htype | htype := htypes <;>
      simp only [htype, hdefinite, Bool.false_eq_true, if_false] <;>
      exact Attempt.run_bind_ok (run_scanBytes_append hcontent)
  | nested head items ih =>
    obtain ⟨hvalid, hfits, hitems⟩ := h
    rw [Wire.validList_iff] at hitems
    obtain ⟨fuel, hlt, hfound⟩ := Wire.exists_found fun w hw => ih w hw (hitems w hw)
    refine ⟨fuel + 1, fun rest => ?_⟩
    rw [Wire.bytes, List.append_assoc, List.append_assoc, scanItem,
      Attempt.run_bind_ok (scanHead_complete hvalid)]
    have hrounds (htypes : head.isString → ∀ w ∈ items, w.head.type = head.type)
        (hcount : head.isIndefinite = false → items.length = head.count) :
        (scanItems (scanItem sizeT fuel) fuel head).run
          (Wire.bytesList items ++ (head.stop ++ rest)) = some (.ok items, rest) :=
      scanItems_complete hfound hitems htypes (by simpa using hcount) hlt
    unfold Wire.Fits at hfits
    split at hfits
    case h_1 htype | h_2 htype =>
      simp only [hfits.1, if_true]
      exact Attempt.run_bind_ok (hrounds (fun _ => hfits.2) (by simp [hfits.1]))
    case h_3 htype =>
      refine Attempt.run_bind_ok (hrounds (by simp [Head.isString, htype]) fun hdefinite => ?_)
      simpa [hdefinite] using hfits
    case h_4 htype =>
      rw [Attempt.run_bind_ok
        (hrounds (by simp [Head.isString, htype]) fun hdefinite => by
          simpa [hdefinite] using hfits.2), if_neg (by simp [hfits.1])]
      rfl
    case h_5 htype =>
      obtain ⟨w, rfl⟩ : ∃ w, items = [w] :=
        List.length_eq_one_iff.mp (by simpa [Head.count, htype] using hfits)
      have hstop : head.stop = [] := by
        have := hvalid.2.1
        simp only [htype, MajorType.hasLength] at this
        simpa [Head.stop, Head.isIndefinite] using this
      simp only [hstop, Wire.bytesList, List.append_nil, List.nil_append]
      exact Attempt.run_bind_ok (hfound w (by simp) rest)
    case h_6 => exact hfits.elim

/-! ### The scan of a byte string -/

/-- **A scan ends**: one unit of fuel more than there are bytes is enough. -/
theorem scanItem_ends (hfuel : bs.length < fuel) : (scanItem sizeT fuel).run bs ≠ none := by
  induction fuel generalizing bs with
  | zero => omega
  | succ fuel ih =>
    rw [scanItem]
    intro h
    obtain h | ⟨head, bs₁, hhead, hnone⟩ := Attempt.run_bind_eq_none.mp h
    · exact scanHead_ends h
    obtain ⟨rfl, -⟩ := scanHead_sound hhead
    have hpos := head.length_bytes_pos
    rw [List.length_append] at hfuel
    have hlt : bs₁.length < fuel := by omega
    have hitems : (scanItems (scanItem sizeT fuel) fuel head).run bs₁ ≠ none :=
      scanItems_ends (fun _ _ _ => scanItem_sound) (fun _ h => ih h) hlt
    split at hnone
    case h_1 | h_2 =>
      split at hnone
      · obtain hnone | ⟨items, bs₂, -, hnone⟩ := Attempt.run_bind_eq_none.mp hnone
        · exact hitems hnone
        · simp at hnone
      · obtain hnone | ⟨content, bs₂, -, hnone⟩ := Attempt.run_bind_eq_none.mp hnone
        · exact scanBytes_ends _ hnone
        · simp at hnone
    case h_3 =>
      obtain hnone | ⟨items, bs₂, -, hnone⟩ := Attempt.run_bind_eq_none.mp hnone
      · exact hitems hnone
      · simp at hnone
    case h_4 =>
      obtain hnone | ⟨items, bs₂, -, hnone⟩ := Attempt.run_bind_eq_none.mp hnone
      · exact hitems hnone
      · split at hnone <;> simp at hnone
    case h_5 =>
      obtain hnone | ⟨item, bs₂, -, hnone⟩ := Attempt.run_bind_eq_none.mp hnone
      · exact ih hlt hnone
      · simp at hnone
    case h_6 => simp at hnone

/-- **Every scan with enough fuel gives `Wpcp.Cbor.scan`.** -/
theorem run_scanItem (hfuel : bs.length < fuel) :
    (scanItem sizeT fuel).run bs = some (scan sizeT bs) := by
  have hends : (scanItem sizeT (bs.length + 1)).run bs ≠ none :=
    scanItem_ends (Nat.lt_succ_self bs.length)
  obtain ⟨o, ho⟩ := Option.ne_none_iff_exists'.mp hends
  have hle : bs.length + 1 ≤ fuel := hfuel
  rw [scan, ho, Option.getD_some]
  exact Attempt.Extends.of_succ scanItem_extends hle _ _ ho

/-- What a scan gives with some fuel is `Wpcp.Cbor.scan`. -/
theorem scan_eq_of_run {o : Except Fault Wire × List UInt8}
    (h : (scanItem sizeT fuel).run bs = some o) : scan sizeT bs = o :=
  Attempt.Extends.unique scanItem_extends (run_scanItem (Nat.lt_succ_self bs.length)) h

/-- The scan of a byte string is correct for the grammar. -/
theorem scan_eq_ok_iff {w : Wire} :
    scan sizeT bs = (.ok w, rest) ↔ w.Valid sizeT ∧ bs = w.bytes ++ rest := by
  constructor
  · intro h
    have hrun : (scanItem sizeT (bs.length + 1)).run bs = some (scan sizeT bs) :=
      run_scanItem (Nat.lt_succ_self bs.length)
    rw [h] at hrun
    obtain ⟨hbs, hvalid⟩ := scanItem_sound hrun
    exact ⟨hvalid, hbs⟩
  · rintro ⟨hvalid, rfl⟩
    obtain ⟨fuel, hfound⟩ := scanItem_complete hvalid
    exact scan_eq_of_run (hfound rest)

end Wpcp.Cbor
