import Wpcp.Cbor.Simulation

/-!
# Each reading function follows its part of the scan

One lemma for each function of the decoder, up to `Wpcp.Cbor.readWpcpValue_follows`: on a
buffer that holds a byte string, reading a value follows the scan of the byte string,
and a value that is read has the strings of the item, each of them in the message
(`Wpcp.Cbor.Reads`). The length of a string is the only number that can carry the cursor
beyond the top: `Wpcp.Cbor.readRaw_follows` is where this happens, and the lemmas after it
only pass it on.

Before that, three facts that hold of every call: more fuel does not change it
(`Wpcp.Cbor.readWpcpValue_extends`), a cursor that was lowered stays recorded
(`Wpcp.Cbor.keeps_readWpcpValue`), and a value that is read is also read where no allocation
fails (`Wpcp.Cbor.transfers_readWpcpValue`).
-/

namespace Wpcp.Cbor

variable {M : Machine} {b b' : ReadBuffer} {bs rest : List UInt8} {fuel : ℕ}

/-! ### What holds of every call -/

/-- The same buffer where no allocation fails. -/
def ReadBuffer.unlimited (b : ReadBuffer) : ReadBuffer := { b with malloc := fun _ => true }

/-- The second buffer is the first one where no allocation fails. -/
def Affords (b b' : ReadBuffer) : Prop := b' = b.unlimited

section Calls

variable {readValue readValue' : Reading (Value StringData)}

theorem keeps_readRaw (length : ℕ) : Attempt.Keeps ReadBuffer.Lowered (readRaw M length) := by
  intro b o hb h
  have hadvance : (b.advance M length).Lowered := by
    have hb : b.lowered = true := hb
    simp [ReadBuffer.Lowered, ReadBuffer.advance, hb]
  have h : readRaw M length b = some o := h
  simp only [readRaw] at h
  split_ifs at h <;> obtain rfl := Option.some.inj h <;> exact hadvance

theorem keeps_readBreak : Attempt.Keeps ReadBuffer.Lowered (readBreak M) := by
  intro b o hb h
  have hb' : b.lowered = true := hb
  have h : readBreak M b = some o := h
  simp only [readBreak] at h
  split_ifs at h
  · obtain rfl := Option.some.inj h
    exact hb
  · obtain rfl := Option.some.inj h
    simp [ReadBuffer.Lowered, ReadBuffer.advance, hb']

theorem keeps_alloc : Attempt.Keeps ReadBuffer.Lowered alloc := by
  intro b o hb h
  obtain rfl := Option.some.inj h
  exact hb

theorem keeps_assert (c : Prop) [Decidable c] :
    Attempt.Keeps ReadBuffer.Lowered (assert c) := .ite (.pure _) (.fail _)

theorem keeps_readUint (k : ℕ) : Attempt.Keeps ReadBuffer.Lowered (readUint M k) :=
  .bind (keeps_readRaw k) fun _ => .pure _

theorem keeps_readArgument (type : MajorType) (firstByte : ℕ) :
    Attempt.Keeps ReadBuffer.Lowered (readArgument M type firstByte) := by
  refine .ite (.pure _) (.ite (.bind (keeps_readUint 1) fun _ => .pure _) ?_)
  refine .ite (.bind (keeps_readUint 2) fun _ => .pure _) ?_
  refine .ite (.bind (keeps_readUint 4) fun _ => .pure _) ?_
  refine .ite (.bind (keeps_readUint 8) fun _ => .ite (.fail _) (.pure _)) ?_
  exact .ite (.ite (.fail _) (.pure _)) (.fail _)

theorem keeps_readHead : Attempt.Keeps ReadBuffer.Lowered (readHead M) :=
  .bind (keeps_readUint 1) fun _ => keeps_readArgument _ _

theorem keeps_copyChunks (ret : StringType) (chunks : List (Value StringData)) :
    Attempt.Keeps ReadBuffer.Lowered (copyChunks M ret chunks) := by
  induction chunks with
  | nil => exact .pure _
  | cons first next ih => exact .bind (keeps_assert _) fun _ => .bind ih fun _ => .pure _

theorem keeps_readChunk (h : Attempt.Keeps ReadBuffer.Lowered readValue) (ret : StringType)
    (chunks : List (Value StringData) × ℕ) :
    Attempt.Keeps ReadBuffer.Lowered (readChunk M readValue ret chunks) :=
  .bind keeps_readBreak fun _ => .ite (.pure _) (.bind h fun _ => .ite (.fail _) (.pure _))

theorem keeps_readString (h : Attempt.Keeps ReadBuffer.Lowered readValue) (fuel : ℕ)
    (ret : StringType) (firstByte length : ℕ) :
    Attempt.Keeps ReadBuffer.Lowered (readString M readValue fuel ret firstByte length) := by
  refine .ite (.bind (.loop (keeps_readChunk h ret) fuel _) fun chunks => ?_) ?_
  · refine .bind keeps_alloc fun _ => .bind (keeps_assert _) fun _ => ?_
    exact .bind (keeps_copyChunks ret _) fun _ => .pure _
  · exact .bind (keeps_assert _) fun _ => .bind (keeps_readRaw length) fun _ => .pure _

theorem keeps_readChild (h : Attempt.Keeps ReadBuffer.Lowered readValue)
    (firstByte length : ℕ) (ret : List (Value StringData) × ℕ) :
    Attempt.Keeps ReadBuffer.Lowered (readChild M readValue firstByte length ret) :=
  .bind (.ite keeps_readBreak (.pure _)) fun _ => .ite (.pure _) (.bind h fun _ => .pure _)

theorem keeps_readWpcpValues (h : Attempt.Keeps ReadBuffer.Lowered readValue) (fuel : ℕ)
    (ret : NestedType) (firstByte length : ℕ) :
    Attempt.Keeps ReadBuffer.Lowered (readWpcpValues M readValue fuel ret firstByte length) := by
  refine .bind (.loop (keeps_readChild h firstByte length) fuel _) fun children => ?_
  cases ret with
  | array => exact .pure _
  | map => exact .ite (.fail _) (.pure _)

/-- **A cursor that was lowered stays recorded.** -/
theorem keeps_readWpcpValue (fuel : ℕ) :
    Attempt.Keeps ReadBuffer.Lowered (readWpcpValue M fuel) := by
  induction fuel with
  | zero => exact .outOfFuel
  | succ fuel ih =>
    refine .bind keeps_readHead fun head => .bind keeps_alloc fun _ => ?_
    cases head.type with
    | unsignedInteger => exact .pure _
    | negativeInteger => exact .pure _
    | byteString => exact keeps_readString ih fuel _ _ _
    | textString => exact keeps_readString ih fuel _ _ _
    | array => exact keeps_readWpcpValues ih fuel _ _ _
    | map => exact keeps_readWpcpValues ih fuel _ _ _
    | tag => exact .bind ih fun _ => .pure _
    | floatingPointAndSimpleTypes => exact .pure _

/-! A value that is read does not depend on the allocations that succeed. -/

theorem transfers_readRaw (length : ℕ) : Attempt.Transfers Affords (readRaw M length) := by
  rintro b _ address t rfl h
  have h : readRaw M length b = some (.ok address, t) := h
  have hadvance : b.unlimited.advance M length = (b.advance M length).unlimited := rfl
  refine ⟨t.unlimited, ?_, rfl⟩
  show readRaw M length b.unlimited = _
  simp only [readRaw] at h ⊢
  rw [hadvance]
  split_ifs at h with hend hnull
  · cases h
  · cases h
  · obtain ⟨haddress, rfl⟩ := Prod.mk.inj (Option.some.inj h)
    rw [← haddress]
    exact (if_neg hend).trans (if_neg hnull)

theorem transfers_readBreak : Attempt.Transfers Affords (readBreak M) := by
  rintro b _ stop t rfl h
  have h : readBreak M b = some (.ok stop, t) := h
  refine ⟨t.unlimited, ?_, rfl⟩
  show readBreak M b.unlimited = _
  simp only [readBreak] at h ⊢
  split_ifs at h with hstop
  · obtain ⟨hfalse, rfl⟩ := Prod.mk.inj (Option.some.inj h)
    exact (if_pos hstop).trans (by rw [← hfalse])
  · obtain ⟨htrue, rfl⟩ := Prod.mk.inj (Option.some.inj h)
    exact (if_neg hstop).trans (by rw [← htrue]; rfl)

theorem transfers_alloc : Attempt.Transfers Affords alloc := by
  rintro b _ ⟨⟩ t rfl h
  have h : some (if b.malloc 0 then Except.ok () else Except.error Failure.null,
      { b with malloc := fun n => b.malloc (n + 1) }) = some (.ok (), t) := h
  obtain ⟨-, rfl⟩ := Prod.mk.inj (Option.some.inj h)
  exact ⟨b.unlimited, rfl, rfl⟩

theorem transfers_assert (c : Prop) [Decidable c] : Attempt.Transfers Affords (assert c) :=
  .ite (.pure _) (.fail _)

theorem transfers_readUint (k : ℕ) : Attempt.Transfers Affords (readUint M k) :=
  .bind (transfers_readRaw k) fun _ => .pure _

theorem transfers_readHead : Attempt.Transfers Affords (readHead M) := by
  refine .bind (transfers_readUint 1) fun firstByte => ?_
  refine .ite (.pure _) (.ite (.bind (transfers_readUint 1) fun _ => .pure _) ?_)
  refine .ite (.bind (transfers_readUint 2) fun _ => .pure _) ?_
  refine .ite (.bind (transfers_readUint 4) fun _ => .pure _) ?_
  refine .ite (.bind (transfers_readUint 8) fun _ => .ite (.fail _) (.pure _)) ?_
  exact .ite (.ite (.fail _) (.pure _)) (.fail _)

theorem transfers_copyChunks (ret : StringType) (chunks : List (Value StringData)) :
    Attempt.Transfers Affords (copyChunks M ret chunks) := by
  induction chunks with
  | nil => exact .pure _
  | cons first next ih => exact .bind (transfers_assert _) fun _ => .bind ih fun _ => .pure _

theorem transfers_readString (h : Attempt.Transfers Affords readValue) (fuel : ℕ)
    (ret : StringType) (firstByte length : ℕ) :
    Attempt.Transfers Affords (readString M readValue fuel ret firstByte length) := by
  refine .ite (.bind (.loop (fun chunks => ?_) fuel _) fun chunks => ?_) ?_
  · exact .bind transfers_readBreak fun _ => .ite (.pure _)
      (.bind h fun _ => .ite (.fail _) (.pure _))
  · refine .bind transfers_alloc fun _ => .bind (transfers_assert _) fun _ => ?_
    exact .bind (transfers_copyChunks ret _) fun _ => .pure _
  · exact .bind (transfers_assert _) fun _ => .bind (transfers_readRaw length) fun _ => .pure _

theorem transfers_readWpcpValues (h : Attempt.Transfers Affords readValue) (fuel : ℕ)
    (ret : NestedType) (firstByte length : ℕ) :
    Attempt.Transfers Affords (readWpcpValues M readValue fuel ret firstByte length) := by
  refine .bind (.loop (fun children => ?_) fuel _) fun children => ?_
  · exact .bind (.ite transfers_readBreak (.pure _)) fun _ => .ite (.pure _)
      (.bind h fun _ => .pure _)
  · cases ret with
    | array => exact .pure _
    | map => exact .ite (.fail _) (.pure _)

/-- **A value that is read is also read where no allocation fails.** -/
theorem transfers_readWpcpValue (fuel : ℕ) :
    Attempt.Transfers Affords (readWpcpValue M fuel) := by
  induction fuel with
  | zero => exact .outOfFuel
  | succ fuel ih =>
    refine .bind transfers_readHead fun head => .bind transfers_alloc fun _ => ?_
    cases head.type with
    | unsignedInteger => exact .pure _
    | negativeInteger => exact .pure _
    | byteString => exact transfers_readString ih fuel _ _ _
    | textString => exact transfers_readString ih fuel _ _ _
    | array => exact transfers_readWpcpValues ih fuel _ _ _
    | map => exact transfers_readWpcpValues ih fuel _ _ _
    | tag => exact .bind ih fun _ => .pure _
    | floatingPointAndSimpleTypes => exact .pure _

theorem readString_extends (h : Attempt.Extends readValue readValue') {fuel' : ℕ}
    (hle : fuel ≤ fuel') (ret : StringType) (firstByte length : ℕ) :
    Attempt.Extends (readString M readValue fuel ret firstByte length)
      (readString M readValue' fuel' ret firstByte length) := by
  refine .ite (.bind (.loop (fun chunks => ?_) hle _) fun _ => .refl _) (.refl _)
  exact .bind (.refl _) fun _ => .ite (.refl _) (.bind h fun _ => .refl _)

theorem readWpcpValues_extends (h : Attempt.Extends readValue readValue') {fuel' : ℕ}
    (hle : fuel ≤ fuel') (ret : NestedType) (firstByte length : ℕ) :
    Attempt.Extends (readWpcpValues M readValue fuel ret firstByte length)
      (readWpcpValues M readValue' fuel' ret firstByte length) := by
  refine .bind (.loop (fun children => ?_) hle _) fun _ => .refl _
  exact .bind (.refl _) fun _ => .ite (.refl _) (.bind h fun _ => .refl _)

/-- **More fuel does not change a call.** -/
theorem readWpcpValue_extends (fuel : ℕ) :
    Attempt.Extends (readWpcpValue M fuel) (readWpcpValue M (fuel + 1)) := by
  induction fuel with
  | zero => exact .outOfFuel _
  | succ fuel ih =>
    unfold readWpcpValue
    refine .bind (.refl _) fun head => .bind (.refl _) fun _ => ?_
    cases head.type with
    | unsignedInteger => exact .refl _
    | negativeInteger => exact .refl _
    | byteString => exact readString_extends ih (Nat.le_succ fuel) _ _ _
    | textString => exact readString_extends ih (Nat.le_succ fuel) _ _ _
    | array => exact readWpcpValues_extends ih (Nat.le_succ fuel) _ _ _
    | map => exact readWpcpValues_extends ih (Nat.le_succ fuel) _ _ _
    | tag => exact .bind ih fun _ => .refl _
    | floatingPointAndSimpleTypes => exact .refl _

end Calls

/-! ### Raw reads and heads -/

/-- **Where a length can carry the cursor beyond the top.** A raw read gives the address
of the bytes that are taken. -/
theorem readRaw_follows {k : ℕ} (hk : k < M.sizeT.count) (hholds : Holds M b bs)
    {s : Except Fault (List UInt8) × List UInt8} (hs : (scanBytes k).run bs = some s) :
    Follows M b (fun content address b' => content.length = k ∧ address = b.beginPtr ∧
      M.slice address k = content ∧ b'.beginPtr = b.beginPtr + k) s ((readRaw M k).run b) := by
  have hend := hholds.end_eq
  have hlt := hholds.end_lt
  have hpos := hholds.begin_pos
  have hrun : (readRaw M k).run b = some
      (if b.endPtr < (b.beginPtr + k) % M.sizeT.count then .error .null
        else if b.beginPtr = 0 then .error .null else .ok b.beginPtr, b.advance M k) := by
    by_cases hover : b.endPtr < (b.beginPtr + k) % M.sizeT.count
    · rw [if_pos hover]
      exact if_pos hover
    · have hzero : b.beginPtr ≠ 0 := Nat.ne_of_gt hpos
      rw [if_neg hover, if_neg hzero]
      exact (if_neg hover).trans (if_neg hzero)
  rcases Nat.lt_or_ge bs.length k with hshort | hlong
  · -- bytes are missing: beyond the end, or beyond the top
    rw [run_scanBytes_of_lt hshort] at hs
    obtain rfl := Option.some.inj hs
    rcases Nat.lt_or_ge (b.beginPtr + k) M.sizeT.count with htop | htop
    · have hmod : (b.beginPtr + k) % M.sizeT.count = b.beginPtr + k := Nat.mod_eq_of_lt htop
      rw [hrun, hmod, if_pos (by omega)]
      refine .short (by omega) (by omega) ?_ rfl ?_ id
      · show (b.beginPtr + k) % M.sizeT.count = _
        omega
      · show (b.lowered || decide ((b.beginPtr + k) % M.sizeT.count < b.beginPtr)) = b.lowered
        rw [hmod]
        simp
    · have hmod : (b.beginPtr + k) % M.sizeT.count = b.beginPtr + k - M.sizeT.count := by
        rw [Nat.mod_eq_sub_mod htop, Nat.mod_eq_of_lt (by omega)]
      refine .wrapped (by omega) fun o ho => ?_
      rw [hrun] at ho
      obtain rfl := Option.some.inj ho
      show (b.lowered || decide ((b.beginPtr + k) % M.sizeT.count < b.beginPtr)) = true
      rw [hmod]
      simp only [Bool.or_eq_true, decide_eq_true_eq]
      omega
  · have hmod : (b.beginPtr + k) % M.sizeT.count = b.beginPtr + k :=
      Nat.mod_eq_of_lt (by omega)
    rw [run_scanBytes_of_le hlong] at hs
    obtain rfl := Option.some.inj hs
    rw [hrun, hmod, if_neg (by omega), if_neg (by omega)]
    have hlength : (bs.take k).length = k := by simpa using hlong
    have hbegin : (b.advance M k).beginPtr = b.beginPtr + (bs.take k).length := by
      rw [hlength]
      exact hmod
    rw [← List.take_append_drop k bs] at hholds
    obtain ⟨hcontent, hholds'⟩ := hholds.append hbegin rfl
    rw [hlength] at hcontent hbegin
    refine .ok ⟨hlength, rfl, hcontent, hbegin⟩ ⟨rfl, ?_, ?_, ?_, id⟩ hholds'
    · omega
    · omega
    · show (b.lowered || decide ((b.beginPtr + k) % M.sizeT.count < b.beginPtr)) = b.lowered
      rw [hmod]
      simp

theorem readUint_follows {k : ℕ} (hk : k ≤ 8) (hholds : Holds M b bs)
    {s : Except Fault (List UInt8) × List UInt8} (hs : (scanBytes k).run bs = some s) :
    Follows M b (fun content n _ => content.length = k ∧ n = BigEndian.value content) s
      ((readUint M k).run b) := by
  have hcount := M.sizeT.le_count
  have hbind : (scanBytes k >>= pure).run bs = some s := by
    obtain ⟨e | content, rest⟩ := s
    · exact Attempt.run_bind_error hs
    · exact Attempt.run_bind_ok hs
  refine Follows.bind (fun s hs => readRaw_follows (by omega) hholds hs) ?_
    (fun _ => .pure _) hbind
  rintro content address b' rest s - ⟨hlength, -, hslice, -⟩ hadv hholds' hs
  obtain rfl := Option.some.inj hs
  exact .ok ⟨hlength, by rw [hslice]⟩ (.refl hholds') hholds'

/-- The argument of a head: a number of `k` bytes is read, and what is done with it is
to accept the head or not. -/
theorem readUintArgument_follows {first k : ℕ} {g : ℕ → Reading Head}
    (hk : argumentBytes (headerInfo first) = some k)
    (hvalue : additonalBytes1 ≤ headerInfo first)
    (hg : ∀ n < 256 ^ k, g n =
      if Head.Accepted M.sizeT ⟨headerType first, headerInfo first, n⟩ then
        pure ⟨headerType first, headerInfo first, n⟩
      else Attempt.fail .null)
    (hkeep : ∀ n, Attempt.Keeps ReadBuffer.Lowered (g n)) (hholds : Holds M b bs)
    {s : Except Fault Head × List UInt8}
    (hs : (scanBytes k >>= fun argument => accept M.sizeT (Head.ofBytes first argument)).run bs =
      some s) :
    Follows M b (fun h head _ => head = h) s ((readUint M k >>= g).run b) := by
  refine Follows.bind (fun s hs => readUint_follows (lt_of_argumentBytes hk).2 hholds hs) ?_
    hkeep hs
  rintro argument n b' rest s - ⟨hlength, rfl⟩ hadv hholds' hs
  have hhead : Head.ofBytes first argument =
      ⟨headerType first, headerInfo first, BigEndian.value argument⟩ := by
    rw [Head.ofBytes, if_neg (by omega)]
  rw [hg _ (by rw [← hlength]; exact BigEndian.value_lt argument)]
  rw [hhead] at hs
  unfold accept at hs
  split_ifs at hs ⊢
  · obtain rfl := Option.some.inj hs
    exact .ok rfl (.refl hholds') hholds'
  · obtain rfl := Option.some.inj hs
    exact .malformed (.refl hholds') hholds'

/-- A head whose low bits are the argument, or the mark of an indefinite length. -/
theorem accept_follows {first n : ℕ}
    (hn : n = if headerInfo first < additonalBytes1 then headerInfo first else 0)
    (hholds : Holds M b bs) {s : Except Fault Head × List UInt8}
    (hs : (scanBytes 0 >>= fun argument => accept M.sizeT (Head.ofBytes first argument)).run bs =
      some s) :
    Follows M b (fun h head _ => head = h) s
      ((if Head.Accepted M.sizeT ⟨headerType first, headerInfo first, n⟩ then
        (pure ⟨headerType first, headerInfo first, n⟩ : Reading Head)
      else Attempt.fail .null).run b) := by
  rw [Attempt.run_bind_ok (run_scanBytes_of_le (Nat.zero_le _)), List.take_zero,
    List.drop_zero] at hs
  have hhead : Head.ofBytes first [] = ⟨headerType first, headerInfo first, n⟩ := by
    rw [hn, Head.ofBytes, BigEndian.value_nil]
  rw [hhead] at hs
  unfold accept at hs
  split_ifs at hs ⊢
  · obtain rfl := Option.some.inj hs
    exact .ok rfl (.refl hholds) hholds
  · obtain rfl := Option.some.inj hs
    exact .malformed (.refl hholds) hholds

/-- A head with a definite length that is a `size_t` is accepted. -/
theorem Head.accepted_of_lt {sizeT : SizeT} {head : Head} (hne : head.firstByte ≠ indefiniteLength)
    (hlt : head.value < sizeT.count) : head.Accepted sizeT :=
  ⟨fun h => absurd h hne, fun _ => hlt⟩

/-- The rest of a head follows the scan, in each of the seven cases of the low bits. -/
theorem readArgument_follows {first : ℕ} (hholds : Holds M b bs)
    {s : Except Fault Head × List UInt8}
    (hs : (match argumentBytes (headerInfo first) with
      | none => Attempt.fail Fault.malformed
      | some k => scanBytes k >>= fun argument =>
          accept M.sizeT (Head.ofBytes first argument)).run bs = some s) :
    Follows M b (fun h head _ => head = h) s
      ((readArgument M (headerType first) (headerInfo first)).run b) := by
  have hcount := M.sizeT.le_count
  obtain ⟨hv₁, hv₂, hv₄, hv₈, hv₃₁⟩ := additonalBytes_eq
  have hkeep : ∀ n, Attempt.Keeps ReadBuffer.Lowered
      (pure ⟨headerType first, headerInfo first, n⟩ : Reading Head) := fun _ => .pure _
  have haccepted : ∀ n < M.sizeT.count, headerInfo first ≠ indefiniteLength →
      Head.Accepted M.sizeT ⟨headerType first, headerInfo first, n⟩ :=
    fun n hn hne => Head.accepted_of_lt hne hn
  unfold readArgument
  split_ifs with h₀ h₁ h₂ h₄ h₈ h₃₁ hlength
  · have hk : argumentBytes (headerInfo first) = some 0 := argumentBytes_of_lt h₀
    simp only [hk] at hs
    have h := accept_follows rfl hholds hs
    rwa [if_pos h₀, if_pos (haccepted _ (by omega) (by omega))] at h
  · have hk : argumentBytes (headerInfo first) = some 1 := by rw [h₁]; rfl
    simp only [hk] at hs
    refine readUintArgument_follows hk (by omega) (fun n hn => ?_) hkeep hholds hs
    rw [if_pos (haccepted _ (by omega) (by omega))]
  · have hk : argumentBytes (headerInfo first) = some 2 := by rw [h₂]; rfl
    simp only [hk] at hs
    refine readUintArgument_follows hk (by omega) (fun n hn => ?_) hkeep hholds hs
    rw [if_pos (haccepted _ (by omega) (by omega))]
  · have hk : argumentBytes (headerInfo first) = some 4 := by rw [h₄]; rfl
    simp only [hk] at hs
    refine readUintArgument_follows hk (by omega) (fun n hn => ?_) hkeep hholds hs
    rw [if_pos (haccepted _ (by omega) (by omega))]
  · have hk : argumentBytes (headerInfo first) = some 8 := by rw [h₈]; rfl
    simp only [hk] at hs
    refine readUintArgument_follows hk (by omega) (fun n hn => ?_)
      (fun n => .ite (.fail _) (.pure _)) hholds hs
    by_cases hover : (headerType first).hasLength = true ∧ M.sizeT.count ≤ n
    · rw [if_pos hover, if_neg fun h => absurd (h.2 hover.1) (Nat.not_lt.mpr hover.2)]
    · have hvalue : (headerType first).hasLength = true → n < M.sizeT.count := fun h =>
        Nat.lt_of_not_le fun hle => hover ⟨h, hle⟩
      rw [if_neg hover, if_pos ⟨fun h => absurd h (by simp only; omega), hvalue⟩]
  · have hk : argumentBytes (headerInfo first) = some 0 := by rw [h₃₁]; rfl
    simp only [hk] at hs
    have h := accept_follows rfl hholds hs
    rwa [if_neg h₀, if_pos ⟨fun _ => hlength, fun _ => Machine.count_pos⟩] at h
  · have hk : argumentBytes (headerInfo first) = some 0 := by rw [h₃₁]; rfl
    simp only [hk] at hs
    have h := accept_follows rfl hholds hs
    rwa [if_neg h₀, if_neg fun h => hlength (h.1 h₃₁)] at h
  · have hk : argumentBytes (headerInfo first) = none := by
      simp [argumentBytes, h₀, h₁, h₂, h₄, h₈, h₃₁]
    simp only [hk] at hs
    obtain rfl := Option.some.inj hs
    exact .malformed (.refl hholds) hholds

/-- **Reading a head follows the scan.** -/
theorem readHead_follows (hholds : Holds M b bs) {s : Except Fault Head × List UInt8}
    (hs : (scanHead M.sizeT).run bs = some s) :
    Follows M b (fun h head _ => head = h) s ((readHead M).run b) := by
  refine Follows.bind (fun s hs => readUint_follows (by omega) hholds hs) ?_
    (fun _ => keeps_readArgument _ _) hs
  rintro content first b' rest s - ⟨-, rfl⟩ hadv hholds' hs
  exact readArgument_follows hholds' hs

/-! ### Ends of loops -/

/-- Where the next read is after an item, in a buffer that holds what follows the
item. -/
theorem Holds.beginPtr_eq {content : List UInt8} (h : Holds M b (content ++ rest))
    (h' : Holds M b' rest) (hend : b'.endPtr = b.endPtr) :
    b'.beginPtr = b.beginPtr + content.length := by
  have heq := h.end_eq
  have heq' := h'.end_eq
  rw [List.length_append] at heq
  omega

/-- **Looking for a stop code follows the scan.** -/
theorem readBreak_follows {head : Head} {items : List Wire} (hhead : head.isIndefinite = true)
    (hholds : Holds M b bs) {s : Except Fault Bool × List UInt8}
    (hs : (scanStop head items).run bs = some s) :
    Follows M b (fun stop stop' _ => stop' = stop) s ((readBreak M).run b) := by
  have hs : scanStop head items bs = some s := hs
  unfold scanStop at hs
  rw [if_pos hhead] at hs
  show Follows M b _ s (readBreak M b)
  cases bs with
  | nil =>
    obtain rfl := Option.some.inj hs
    have hend : b.beginPtr = b.endPtr := by simpa using hholds.end_eq.symm
    rw [readBreak, if_pos (Or.inl hend)]
    exact .ok rfl (.refl hholds) hholds
  | cons byte tail =>
    have hs : (if byte = stopCode then some (.ok true, tail) else some (.ok false, byte :: tail)) =
        some s := hs
    have hend := hholds.end_eq
    have hlt := hholds.end_lt
    rw [List.length_cons] at hend
    have hne : b.beginPtr ≠ b.endPtr := by omega
    have hmod : (b.beginPtr + 1) % M.sizeT.count = b.beginPtr + 1 := Nat.mod_eq_of_lt (by omega)
    have hadvance : (b.advance M 1).beginPtr = b.beginPtr + 1 := hmod
    have hholds' : Holds M b ([byte] ++ tail) := hholds
    obtain ⟨hslice, htail⟩ := hholds'.append hadvance rfl
    have hbyte : M.mem b.beginPtr = byte := by
      have hmodb : b.beginPtr % M.sizeT.count = b.beginPtr := Nat.mod_eq_of_lt (by omega)
      simpa [Machine.slice, hmodb] using hslice
    by_cases hstop : byte = stopCode
    · rw [if_pos hstop] at hs
      obtain rfl := Option.some.inj hs
      have hread : readBreak M b = some (.ok true, b.advance M 1) :=
        if_neg fun h => h.elim hne fun h => h (hbyte.trans hstop)
      rw [hread]
      refine .ok rfl ⟨rfl, ?_, ?_, ?_, id⟩ htail
      · show b.beginPtr ≤ (b.beginPtr + 1) % M.sizeT.count
        omega
      · show (b.beginPtr + 1) % M.sizeT.count ≤ b.endPtr
        omega
      · show (b.lowered || decide ((b.beginPtr + 1) % M.sizeT.count < b.beginPtr)) = b.lowered
        rw [hmod]
        simp
    · rw [if_neg hstop] at hs
      obtain rfl := Option.some.inj hs
      have hread : readBreak M b = some (.ok false, b) :=
        if_pos (Or.inr fun h => hstop (hbyte.symm.trans h))
      rw [hread]
      exact .ok rfl (.refl hholds) hholds

/-- What ends the children of a node follows the scan. -/
theorem readEnd_follows {head : Head} {items : List Wire} {length count : ℕ}
    (hlength : head.isIndefinite = false → (count = length ↔ items.length = head.count))
    (hholds : Holds M b bs) {s : Except Fault Bool × List UInt8}
    (hs : (scanStop head items).run bs = some s) :
    Follows M b (fun stop stop' _ => stop' = stop) s
      ((readEnd M head.firstByte length count).run b) := by
  unfold readEnd
  cases hhead : head.isIndefinite with
  | true =>
    rw [if_pos (of_decide_eq_true hhead)]
    exact readBreak_follows hhead hholds hs
  | false =>
    have hs : scanStop head items bs = some s := hs
    unfold scanStop at hs
    rw [if_neg (by simp [hhead])] at hs
    obtain rfl := Option.some.inj hs
    rw [if_neg (of_decide_eq_false hhead)]
    exact .ok (decide_eq_decide.mpr (hlength hhead)) (.refl hholds) hholds

/-! ### Strings -/

/-- The strings of a tree that point into the message lie in a part of it. -/
def Value.Within (lo hi : ℕ) (v : Value StringData) : Prop :=
  ∀ length address, (length, StringData.message address) ∈ v.strings →
    lo ≤ address ∧ address + length ≤ hi

theorem Value.Within.mono {lo lo' hi hi' : ℕ} {v : Value StringData} (h : v.Within lo hi)
    (hlo : lo' ≤ lo) (hhi : hi ≤ hi') : v.Within lo' hi' := by
  intro length address hmem
  obtain ⟨h₁, h₂⟩ := h length address hmem
  omega

/-- What a read gives for an item: a tree with the value of the item, whose strings lie
between where the read started and where it stopped. -/
structure Reads (M : Machine) (lo : ℕ) (w : Wire) (v : Value StringData) (b : ReadBuffer) :
    Prop where
  deref : v.deref (StringData.bytes M) = w.value
  within : v.Within lo b.beginPtr

/-- A reading function that follows the scan of an item wherever it starts. -/
def FollowsItem (M : Machine) (item : Scan Wire) (readValue : Reading (Value StringData)) :
    Prop :=
  (∀ bs w rest, item.run bs = some (.ok w, rest) → bs = w.bytes ++ rest ∧ w.Valid M.sizeT) ∧
    Attempt.Keeps ReadBuffer.Lowered readValue ∧
    ∀ b bs s, Holds M b bs → item.run bs = some s →
      Follows M b (Reads M b.beginPtr) s (readValue.run b)

/-- The major type of a string node. -/
def StringType.majorType : StringType → MajorType
  | .byteString => .byteString
  | .textString => .textString

theorem Wire.Valid.type_eq_stringType {sizeT : SizeT} {w : Wire} (h : w.Valid sizeT)
    (ret : StringType) : w.value.type = ret.type ↔ w.head.type = ret.majorType := by
  cases ret with
  | byteString => exact h.type_eq_iff.1
  | textString => exact h.type_eq_iff.2

/-- The length of a string node is that of its string. -/
theorem Wire.length_value {w : Wire} {ret : StringType} (h : w.value.type = ret.type) :
    w.value.length = (w.value.stringBytes fun _ data => data).length := by
  obtain ⟨data, hdata⟩ | ⟨data, hdata⟩ | ⟨hbyte, htext⟩ := w.value_string
  · rw [hdata]
    rfl
  · rw [hdata]
    rfl
  · cases ret with
    | byteString => exact absurd h hbyte
    | textString => exact absurd h htext

/-- What is carried along the chunks of a string: they have the values of the items
scanned, and the sum of their lengths is that of the string. -/
structure Chunks (M : Machine) (ret : StringType) (lo : ℕ) (items : List Wire)
    (chunks : List (Value StringData) × ℕ) (b : ReadBuffer) : Prop where
  deref : chunks.1.map (Value.deref (StringData.bytes M)) = items.map Wire.value
  type : ∀ v ∈ chunks.1, v.type = ret.type
  length : chunks.2 = (Wire.chunkBytes items).length
  bound : lo + (Wire.chunkBytes items).length ≤ b.beginPtr

/-- **One more chunk follows one more item.** -/
theorem readChunk_follows {item : Scan Wire} {readValue : Reading (Value StringData)}
    (hvalue : FollowsItem M item readValue) {ret : StringType} {head : Head} {lo : ℕ}
    (htype : head.type = ret.majorType) (hhead : head.isIndefinite = true) {items : List Wire}
    {chunks : List (Value StringData) × ℕ} (hchunks : Chunks M ret lo items chunks b)
    (hholds : Holds M b bs) {s : Except Fault (List Wire ⊕ List Wire) × List UInt8}
    (hs : (scanNext item head items).run bs = some s) :
    Follows M b (fun r r' b' =>
      (∃ items' chunks', r = .inl items' ∧ r' = .inl chunks' ∧ Chunks M ret lo items' chunks' b') ∨
        ∃ items' chunks', r = .inr items' ∧ r' = .inr chunks' ∧ Chunks M ret lo items' chunks' b') s
      ((readChunk M readValue ret chunks).run b) := by
  obtain ⟨hsound, hkeep, hfollows⟩ := hvalue
  refine Follows.bind (fun s hs => readBreak_follows hhead hholds hs) ?_
    (fun _ => .ite (.pure _) (.bind hkeep fun _ => .ite (.fail _) (.pure _))) hs
  rintro stop stop' b₁ rest s - rfl hadv hholds₁ hs
  have hchunks₁ : Chunks M ret lo items chunks b₁ :=
    { hchunks with bound := Nat.le_trans hchunks.bound hadv.begin_le }
  cases stop' with
  | true =>
    obtain rfl := Option.some.inj hs
    exact .ok (Or.inr ⟨items, chunks, rfl, rfl, hchunks₁⟩) (.refl hholds₁) hholds₁
  | false =>
    rw [if_neg (by simp)] at hs ⊢
    refine Follows.bind (fun s hs => hfollows _ _ _ hholds₁ hs) ?_
      (fun _ => .ite (.fail _) (.pure _)) hs
    rintro w v b₂ rest₂ s hw hreads hadv₂ hholds₂ hnext
    obtain ⟨rfl, hvalid⟩ := hsound _ _ _ hw
    have hstring : head.isString = true := by
      cases ret <;> simp [Head.isString, htype, StringType.majorType]
    have hvtype : v.type = ret.type ↔ w.head.type = head.type := by
      rw [htype, ← hvalid.type_eq_stringType ret, ← hreads.deref, Value.type_deref]
    by_cases hmatch : w.head.type = head.type
    · rw [if_neg fun h => h.2 hmatch] at hnext
      obtain rfl := Option.some.inj hnext
      rw [if_neg fun h => h (hvtype.mpr hmatch)]
      refine .ok (Or.inl ⟨items ++ [w], _, rfl, rfl, ?_⟩) (.refl hholds₂) hholds₂
      have hwtype : w.value.type = ret.type := by
        rw [hvalid.type_eq_stringType ret, hmatch, htype]
      have hvlength : v.length = (Wire.chunkBytes [w]).length := by
        have hlength := Wire.length_value hwtype
        rw [← hreads.deref, Value.length_deref] at hlength
        rw [hlength]
        simp [Wire.chunkBytes, hreads.deref]
      have hbegin := hholds₁.beginPtr_eq hholds₂ hadv₂.endPtr
      have hle := w.length_stringBytes_le
      have hbound := hchunks₁.bound
      have hchunk : (Wire.chunkBytes [w]).length ≤ w.bytes.length := by
        simpa [Wire.chunkBytes] using hle
      have hend := hholds₂.end_eq
      have hlt := hholds₂.end_lt
      have hcount := M.sizeT.count_le
      refine ⟨?_, ?_, ?_, ?_⟩
      · simp [hchunks.deref, hreads.deref]
      · intro u hu
        obtain hu | hu := List.mem_append.mp hu
        · exact hchunks.type u hu
        · obtain rfl := List.mem_singleton.mp hu
          exact hvtype.mpr hmatch
      · simp only [Wire.chunkBytes_append, List.length_append, hvlength, hchunks.length]
        exact Nat.mod_eq_of_lt (by omega)
      · simp only [Wire.chunkBytes_append, List.length_append]
        omega
    · rw [if_pos ⟨hstring, hmatch⟩] at hnext
      obtain rfl := Option.some.inj hnext
      rw [if_pos fun h => hmatch (hvtype.mp h)]
      exact .malformed (.refl hholds₂) hholds₂

/-- The chunks of a string are copied after each other. -/
theorem run_copyChunks {ret : StringType} {chunks : List (Value StringData)}
    (h : ∀ v ∈ chunks, v.type = ret.type) :
    (copyChunks M ret chunks).run b =
      some (.ok (chunks.flatMap (Value.stringBytes (StringData.bytes M))), b) := by
  induction chunks with
  | nil => rfl
  | cons v vs ih =>
    have hassert : (assert (v.type = ret.type)).run b = some (.ok (), b) := by
      rw [assert, if_pos (h v (by simp))]
      rfl
    rw [copyChunks, Attempt.run_bind_ok hassert,
      Attempt.run_bind_ok (ih fun u hu => h u (by simp [hu]))]
    rfl

/-- An assertion that holds changes nothing. -/
theorem run_assert_bind {α : Type} {c : Prop} [Decidable c] {m : Unit → Reading α} (h : c) :
    ((assert c >>= m).run b) = (m ()).run b := by
  rw [assert, if_pos h]
  rfl

/-- **Reading a string follows the scan**, in chunks or at once. -/
theorem readString_follows {item : Scan Wire} {readValue : Reading (Value StringData)}
    (hvalue : FollowsItem M item readValue) {ret : StringType} {head : Head}
    (htype : head.type = ret.majorType) (hvalid : head.Valid M.sizeT) {lo : ℕ}
    (hlo : lo ≤ b.beginPtr) (hholds : Holds M b bs) {s : Except Fault Wire × List UInt8}
    (hs : (if head.isIndefinite then do
        let items ← scanItems item fuel head
        pure (.nested head items)
      else do
        let content ← scanBytes head.value
        pure (.string head content) : Scan Wire).run bs = some s) :
    Follows M b (Reads M lo) s
      ((readString M readValue fuel ret head.firstByte head.value).run b) := by
  obtain ⟨hsound, hkeep, hfollows⟩ := hvalue
  have hlength : head.type.hasLength = true := by
    cases ret <;> simp [htype, StringType.majorType, MajorType.hasLength]
  have hsize : head.value < M.sizeT.count := hvalid.2.2 hlength
  unfold readString
  cases hhead : head.isIndefinite with
  | true =>
    have hfirst : head.firstByte = indefiniteLength := of_decide_eq_true hhead
    have hzero : head.value = 0 := by
      obtain ⟨⟨k, hspelt, hk⟩, -⟩ := hvalid
      rw [hfirst] at hspelt hk
      obtain rfl := Option.some.inj hspelt
      have hk : head.value < 256 ^ 0 := hk
      omega
    rw [if_pos hhead] at hs
    rw [if_pos hfirst]
    have hinit : Chunks M ret b.beginPtr [] ([], head.value) b :=
      ⟨rfl, by simp, by simpa [Wire.chunkBytes] using hzero, by simp [Wire.chunkBytes]⟩
    refine Follows.bind (fun s hs => follows_loop (fun x y b' bs' s hI hholds' hs =>
      readChunk_follows ⟨hsound, hkeep, hfollows⟩ htype hhead hI hholds' hs)
      (fun y => keeps_readChunk hkeep ret y) hinit hholds hs) ?_ ?_ hs
    · rintro items ⟨chunks, length⟩ b₁ rest s - hchunks hadv hholds₁ hs
      obtain rfl := Option.some.inj hs
      refine Follows.alloc hholds₁ fun b₂ hadv₂ hholds₂ hbegin => ?_
      have hbound := hchunks.bound
      have hlengths : length = (Wire.chunkBytes items).length := hchunks.length
      have hend := hholds₁.end_eq
      have hlt := hholds₁.end_lt
      have hbytes : chunks.flatMap (Value.stringBytes (StringData.bytes M)) =
          Wire.chunkBytes items := by
        rw [Wire.chunkBytes_eq_flatMap, ← hchunks.deref, List.flatMap_map]
        simp only [Value.stringBytes_deref]
      rw [run_assert_bind (by omega), Attempt.run_bind_ok (run_copyChunks hchunks.type), hbytes,
        hlengths]
      refine .ok ⟨?_, ?_⟩ (.refl hholds₂) hholds₂
      · cases ret <;>
          simp [StringType.value, Value.deref, StringData.bytes, Wire.value, htype,
            StringType.majorType]
      · intro n address hmem
        cases ret <;> simp [StringType.value, Value.strings] at hmem
    · rintro ⟨chunks, length⟩
      refine .bind keeps_alloc fun _ => .bind (keeps_assert _) fun _ => ?_
      exact .bind (keeps_copyChunks ret _) fun _ => .pure _
  | false =>
    have hfirst : head.firstByte ≠ indefiniteLength := of_decide_eq_false hhead
    rw [if_neg (by simp [hhead])] at hs
    rw [if_neg hfirst, run_assert_bind hsize]
    refine Follows.bind (fun s hs => readRaw_follows hsize hholds hs) ?_ (fun _ => .pure _) hs
    rintro content address b₁ rest s - ⟨hcontent, rfl, hslice, hbegin⟩ hadv hholds₁ hs
    obtain rfl := Option.some.inj hs
    refine .ok ⟨?_, ?_⟩ (.refl hholds₁) hholds₁
    · cases ret <;>
        simp [StringType.value, Value.deref, StringData.bytes, Wire.value, htype,
          StringType.majorType, hslice, hcontent]
    · intro n address hmem
      have heq : n = head.value ∧ address = b.beginPtr := by
        cases ret <;> simpa [StringType.value, Value.strings] using hmem
      omega

/-! ### Arrays, maps and values -/

/-- What is carried along the children of a node. -/
structure Children (M : Machine) (lo : ℕ) (items : List Wire)
    (ret : List (Value StringData) × ℕ) (b : ReadBuffer) : Prop where
  deref : ret.1.map (Value.deref (StringData.bytes M)) = items.map Wire.value
  within : ∀ v ∈ ret.1, v.Within lo b.beginPtr
  count : ret.2 = items.length
  bound : lo + items.length ≤ b.beginPtr

theorem Children.advances {lo : ℕ} {items : List Wire} {ret : List (Value StringData) × ℕ}
    (h : Children M lo items ret b) (hadv : Advances b b') : Children M lo items ret b' where
  deref := h.deref
  within := fun v hv => (h.within v hv).mono (Nat.le_refl lo) hadv.begin_le
  count := h.count
  bound := Nat.le_trans h.bound hadv.begin_le

/-- **One more child follows one more item.** -/
theorem readChild_follows {item : Scan Wire} {readValue : Reading (Value StringData)}
    (hvalue : FollowsItem M item readValue) {head : Head} {lo length : ℕ}
    (hstring : head.isString = false) (hlength : head.isIndefinite = false → length = head.count)
    {items : List Wire} {ret : List (Value StringData) × ℕ} (hret : Children M lo items ret b)
    (hholds : Holds M b bs) {s : Except Fault (List Wire ⊕ List Wire) × List UInt8}
    (hs : (scanNext item head items).run bs = some s) :
    Follows M b (fun r r' b' =>
      (∃ items' ret', r = .inl items' ∧ r' = .inl ret' ∧ Children M lo items' ret' b') ∨
        ∃ items' ret', r = .inr items' ∧ r' = .inr ret' ∧ Children M lo items' ret' b') s
      ((readChild M readValue head.firstByte length ret).run b) := by
  obtain ⟨hsound, hkeep, hfollows⟩ := hvalue
  refine Follows.bind (fun s hs => readEnd_follows (fun hdefinite => ?_) hholds hs) ?_
    (fun _ => .ite (.pure _) (.bind hkeep fun _ => .pure _)) hs
  · rw [hret.count, hlength hdefinite]
  rintro stop stop' b₁ rest s - rfl hadv hholds₁ hs
  have hret₁ := hret.advances hadv
  cases stop' with
  | true =>
    obtain rfl := Option.some.inj hs
    exact .ok (Or.inr ⟨items, ret, rfl, rfl, hret₁⟩) (.refl hholds₁) hholds₁
  | false =>
    rw [if_neg (by simp)] at hs ⊢
    refine Follows.bind (fun s hs => hfollows _ _ _ hholds₁ hs) ?_ (fun _ => .pure _) hs
    rintro w v b₂ rest₂ s hw hreads hadv₂ hholds₂ hnext
    obtain ⟨rfl, -⟩ := hsound _ _ _ hw
    rw [if_neg (by simp [hstring])] at hnext
    obtain rfl := Option.some.inj hnext
    refine .ok (Or.inl ⟨items ++ [w], _, rfl, rfl, ?_⟩) (.refl hholds₂) hholds₂
    have hbegin := hholds₁.beginPtr_eq hholds₂ hadv₂.endPtr
    have hpos := w.length_bytes_pos
    have hbound := hret₁.bound
    have hend := hholds₂.end_eq
    have hlt := hholds₂.end_lt
    have hret₂ := hret₁.advances hadv₂
    refine ⟨?_, ?_, ?_, ?_⟩
    · simp [hret.deref, hreads.deref]
    · intro u hu
      obtain hu | hu := List.mem_append.mp hu
      · exact hret₂.within u hu
      · obtain rfl := List.mem_singleton.mp hu
        exact hreads.within.mono (by omega) (Nat.le_refl _)
    · simp only [List.length_append, List.length_singleton, hret.count]
      exact Nat.mod_eq_of_lt (by omega)
    · simp only [List.length_append, List.length_singleton]
      omega

/-- The major type of a node with children. -/
def NestedType.majorType : NestedType → MajorType
  | .array => .array
  | .map => .map

/-- **Reading the children of a node follows the scan.** -/
theorem readWpcpValues_follows {item : Scan Wire} {readValue : Reading (Value StringData)}
    (hvalue : FollowsItem M item readValue) {ret : NestedType} {head : Head} {lo length : ℕ}
    (htype : head.type = ret.majorType)
    (hlength : head.isIndefinite = false → length = head.count) (hlo : lo ≤ b.beginPtr)
    (hholds : Holds M b bs) {s : Except Fault Wire × List UInt8}
    (hs : (scanItems item fuel head >>= fun items =>
      if ret = .map ∧ items.length % 2 ≠ 0 then Attempt.fail .malformed
      else pure (.nested head items)).run bs = some s) :
    Follows M b (Reads M lo) s
      ((readWpcpValues M readValue fuel ret head.firstByte length).run b) := by
  obtain ⟨hsound, hkeep, hfollows⟩ := hvalue
  have hstring : head.isString = false := by
    cases ret <;> simp [Head.isString, htype, NestedType.majorType]
  have hinit : Children M b.beginPtr [] ([], 0) b :=
    ⟨rfl, by simp, rfl, by simp⟩
  refine Follows.bind (fun s hs => follows_loop (fun x y b' bs' s hI hholds' hs =>
    readChild_follows ⟨hsound, hkeep, hfollows⟩ hstring hlength hI hholds' hs)
    (fun y => keeps_readChild hkeep head.firstByte length y) hinit hholds hs) ?_ ?_ hs
  · rintro items ⟨children, count⟩ b₁ rest s - hchildren hadv hholds₁ hs
    have hcount : count = items.length := hchildren.count
    have hderef : children.map (Value.deref (StringData.bytes M)) = items.map Wire.value :=
      hchildren.deref
    have hwithin : ∀ n address, (n, StringData.message address) ∈ Value.stringsList children →
        lo ≤ address ∧ address + n ≤ b₁.beginPtr := by
      intro n address hmem
      obtain ⟨v, hv, hmem⟩ := Value.mem_stringsList.mp hmem
      exact ((hchildren.within v hv).mono hlo (Nat.le_refl _)) n address hmem
    cases ret with
    | array =>
      rw [if_neg (by simp)] at hs
      obtain rfl := Option.some.inj hs
      refine .ok ⟨?_, hwithin⟩ (.refl hholds₁) hholds₁
      simp [Value.deref, Wire.value, htype, NestedType.majorType, hderef, hcount]
    | map =>
      show Follows M b₁ (Reads M lo) s ((if count % 2 ≠ 0 then Attempt.fail .null
        else pure (.map (count / 2) children) : Reading (Value StringData)).run b₁)
      by_cases hodd : items.length % 2 ≠ 0
      · rw [if_pos ⟨rfl, hodd⟩] at hs
        obtain rfl := Option.some.inj hs
        rw [hcount, if_pos hodd]
        exact .malformed (.refl hholds₁) hholds₁
      · rw [if_neg fun h => hodd h.2] at hs
        obtain rfl := Option.some.inj hs
        rw [hcount, if_neg hodd]
        refine .ok ⟨?_, hwithin⟩ (.refl hholds₁) hholds₁
        simp [Value.deref, Wire.value, htype, NestedType.majorType, hderef]
  · rintro ⟨children, count⟩
    cases ret with
    | array => exact .pure _
    | map => exact .ite (.fail _) (.pure _)

/-- **Reading a value follows the scan of the message.** -/
theorem readWpcpValue_follows (fuel : ℕ) (hholds : Holds M b bs)
    {s : Except Fault Wire × List UInt8} (hs : (scanItem M.sizeT fuel).run bs = some s) :
    Follows M b (Reads M b.beginPtr) s ((readWpcpValue M fuel).run b) := by
  induction fuel generalizing b bs s with
  | zero => simp [scanItem] at hs
  | succ fuel ih =>
    have hvalue : FollowsItem M (scanItem M.sizeT fuel) (readWpcpValue M fuel) :=
      ⟨fun _ _ _ => scanItem_sound, keeps_readWpcpValue fuel, fun _ _ _ hholds hs => ih hholds hs⟩
    unfold scanItem at hs
    unfold readWpcpValue
    refine Follows.bind (fun s hs => readHead_follows hholds hs) ?_ ?_ hs
    · rintro head head' b₁ rest s hhead rfl hadv hholds₁ hs
      obtain ⟨-, hvalid⟩ := scanHead_sound hhead
      refine Follows.alloc hholds₁ fun b₂ hadv₂ hholds₂ hbegin => ?_
      have hlo : b.beginPtr ≤ b₂.beginPtr := Nat.le_trans hadv.begin_le (Nat.le_of_eq hbegin.symm)
      -- a value without parts
      have hleaf : ∀ {v : Value StringData}, v.strings = [] →
          v.deref (StringData.bytes M) = (Wire.leaf head').value →
          Follows M b₂ (Reads M b.beginPtr) (.ok (.leaf head'), rest) (some (.ok v, b₂)) := by
        intro v hstrings hderef
        refine .ok ⟨hderef, ?_⟩ (.refl hholds₂) hholds₂
        intro n address hmem
        simp [hstrings] at hmem
      cases htype : head'.type with
      | unsignedInteger =>
        simp only [htype] at hs ⊢
        obtain rfl := Option.some.inj hs
        exact hleaf rfl (by simp [Value.deref, Wire.value, htype])
      | negativeInteger =>
        simp only [htype] at hs ⊢
        obtain rfl := Option.some.inj hs
        exact hleaf rfl (by simp [Value.deref, Wire.value, htype])
      | byteString =>
        simp only [htype] at hs ⊢
        exact readString_follows hvalue htype hvalid hlo hholds₂ hs
      | textString =>
        simp only [htype] at hs ⊢
        exact readString_follows hvalue htype hvalid hlo hholds₂ hs
      | array =>
        simp only [htype] at hs ⊢
        refine readWpcpValues_follows hvalue htype (fun _ => ?_) hlo hholds₂ ?_
        · simp [Head.count, htype]
        · simpa using hs
      | map =>
        simp only [htype] at hs ⊢
        refine readWpcpValues_follows hvalue htype (fun _ => ?_) hlo hholds₂ ?_
        · simp [Head.count, htype]
        · simpa using hs
      | tag =>
        simp only [htype] at hs ⊢
        refine Follows.bind (fun s hs => ih hholds₂ hs) ?_ (fun _ => .pure _) hs
        rintro w v b₃ rest₃ s - hreads hadv₃ hholds₃ hs
        obtain rfl := Option.some.inj hs
        refine .ok ⟨?_, ?_⟩ (.refl hholds₃) hholds₃
        · simp [Value.deref, Wire.value, htype, hreads.deref]
        · intro n address hmem
          have hmem : (n, StringData.message address) ∈ v.strings := by
            simpa [Value.strings, Value.stringsList] using hmem
          exact (hreads.within.mono hlo (Nat.le_refl _)) n address hmem
      | floatingPointAndSimpleTypes =>
        simp only [htype] at hs ⊢
        obtain rfl := Option.some.inj hs
        exact hleaf (strings_simpleTypeValue _) (by simp [Wire.value, htype])
    · intro head
      refine .bind keeps_alloc fun _ => ?_
      cases head.type with
      | unsignedInteger => exact .pure _
      | negativeInteger => exact .pure _
      | byteString => exact keeps_readString hvalue.2.1 fuel _ _ _
      | textString => exact keeps_readString hvalue.2.1 fuel _ _ _
      | array => exact keeps_readWpcpValues hvalue.2.1 fuel _ _ _
      | map => exact keeps_readWpcpValues hvalue.2.1 fuel _ _ _
      | tag => exact .bind hvalue.2.1 fun _ => .pure _
      | floatingPointAndSimpleTypes => exact .pure _

end Wpcp.Cbor
