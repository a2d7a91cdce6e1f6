import Wpcp.Cbor.Bounds

/-!
# The calls behind a value

`wpcp_cbor_read_buffer_read_wpcp_value` calls itself for the items inside an item. Here a
call that has returned a value is a `Wpcp.Cbor.Call`: the buffer before it, the value, and
the buffer after it. What such a call has done is said once
(`Wpcp.Cbor.Call.Returned.exists_body`): it has read a head, and where the value has
children, they are the values of calls that returned **one after another**
(`Wpcp.Cbor.Call.Chain`).

The calls inside a call, at any depth, are `Wpcp.Cbor.Call.Inside`; every node of a value is
the value of one of them (`Wpcp.Cbor.Call.Returned.all_inside`). A statement about every node
and what it was read from is therefore one about the calls inside a call, and none of it
needs to know where in memory the message lies. Where no announced length carries the cursor
over the top of the address space, each of the calls has read one accepted item of the
message (`Wpcp.Cbor.Call.Inside.complete`).
-/

namespace Wpcp.Cbor

variable {M : Machine} {b b' : ReadBuffer}

/-- A call of `wpcp_cbor_read_buffer_read_wpcp_value`: the buffer before it, the value it
returned, and the buffer after it. -/
structure Call where
  before : ReadBuffer
  value : Value StringData
  after : ReadBuffer

namespace NestedType

/-- How many items are read for an announced number: a map is passed on with twice the
number. -/
def items : NestedType → ℕ → ℕ
  | .array, value => value
  | .map, value => value * 2 % 2 ^ 64

/-- The node of so many items. -/
def node : NestedType → ℕ → List (Value StringData) → Value StringData
  | .array, count, children => .array count children
  | .map, count, children => .map (count / 2) children

end NestedType

namespace Call

/-- The call has returned its value. -/
def Returned (M : Machine) (c : Call) : Prop :=
  ∃ fuel, (readWpcpValue M fuel).run c.before = some (.ok c.value, c.after)

/-- Calls that have returned one after another, from a buffer to a buffer. -/
inductive Chain (M : Machine) : ReadBuffer → List Call → ReadBuffer → Prop
  | nil (b : ReadBuffer) : Chain M b [] b
  | cons {c : Call} {calls : List Call} {b : ReadBuffer} :
      c.Returned M → Chain M c.after calls b → Chain M c.before (c :: calls) b

/-- The call has read a head and allocated its node, which leaves a buffer. -/
def Starts (M : Machine) (c : Call) (head : Head) (b : ReadBuffer) : Prop :=
  (readHead M >>= fun head => alloc >>= fun _ => pure head).run c.before = some (.ok head, b)

/-- Behind the last item a call ends, or it takes the stop code. -/
def Ends (M : Machine) (b b' : ReadBuffer) : Prop :=
  b = b' ∨ (readBreak M).run b = some (.ok true, b')

/-- **What a call does** once it has read the head. -/
inductive Body (M : Machine) (head : Head) (b : ReadBuffer) (c : Call) : Prop
  | unsignedInteger (htype : head.type = .unsignedInteger)
      (hvalue : c.value = .uint64 (UInt64.ofNat head.value))
  | negativeInteger (htype : head.type = .negativeInteger)
      (hvalue : c.value = .int64 (~~~UInt64.ofNat head.value).toInt64)
  | string (ret : StringType) (htype : head.type = ret.majorType) (length : ℕ)
      (data : StringData) (hvalue : c.value = ret.value length data)
  | values (ret : NestedType) (htype : head.type = ret.majorType) (calls : List Call)
      (bEnd : ReadBuffer) (hchain : Chain M b calls bEnd) (hend : Ends M bEnd c.after)
      (hvalue : c.value = ret.node (calls.length % M.sizeT.count) (calls.map Call.value))
      (hcount : head.isIndefinite = false → bEnd = c.after ∧ calls.length = ret.items head.value ∧
        calls.length < M.sizeT.count)
  | tag (htype : head.type = .tag) (call : Call) (hchain : Chain M b [call] c.after)
      (hvalue : c.value = .tag (UInt64.ofNat head.value) [call.value])
  | simple (htype : head.type = .floatingPointAndSimpleTypes)
      (hvalue : c.value = simpleTypeValue head)

end Call

/-! ### What a call has done -/

theorem readBreak_false (h : (readBreak M).run b = some (.ok false, b')) : b' = b := by
  have h : readBreak M b = some (.ok false, b') := h
  unfold readBreak at h
  split_ifs at h
  · simpa using h.symm
  · simp at h

/-- The loop over the children has read them one after another, as many as it counted. -/
theorem chain_of_loop {fuel fuel' firstByte length : ℕ}
    {start ret : List (Value StringData) × ℕ}
    (h : (Attempt.loop (readChild M (readWpcpValue M fuel) firstByte length) fuel' start).run b =
      some (.ok ret, b')) (hstart : start.2 < M.sizeT.count) :
    ∃ calls bEnd, Call.Chain M b calls bEnd ∧ Call.Ends M bEnd b' ∧
      ret.1 = start.1 ++ calls.map Call.value ∧
      ret.2 = (start.2 + calls.length) % M.sizeT.count ∧
      (firstByte ≠ indefiniteLength → bEnd = b' ∧
        (start.2 ≤ length → start.2 + calls.length = length ∧ length < M.sizeT.count)) := by
  induction fuel' generalizing start b with
  | zero => simp [Attempt.loop] at h
  | succ fuel' ih =>
    rw [Attempt.loop_succ] at h
    obtain ⟨e, t, -, ho⟩ | ⟨next, b₁, hnext, hloop⟩ := Attempt.run_bind_eq_some.mp h
    · simp at ho
    obtain ⟨e, t, -, ho⟩ | ⟨stop, b₂, hstop, hnext⟩ := Attempt.run_bind_eq_some.mp hnext
    · simp at ho
    cases stop with
    | true =>
      simp only [if_true, Attempt.run_pure, Option.some.injEq, Prod.mk.injEq,
        Except.ok.injEq] at hnext
      obtain ⟨rfl, rfl⟩ := hnext
      obtain ⟨rfl, rfl⟩ : start = ret ∧ b₂ = b' := by simpa using hloop
      obtain ⟨hend, hdefinite⟩ : Call.Ends M b b₂ ∧
          (firstByte ≠ indefiniteLength → b = b₂ ∧ start.2 = length) := by
        unfold readEnd at hstop
        split_ifs at hstop with hfirst
        · exact ⟨Or.inr hstop, fun hne => absurd hfirst hne⟩
        · obtain ⟨hcount, rfl⟩ : start.2 = length ∧ b = b₂ := by simpa using hstop
          exact ⟨Or.inl rfl, fun _ => ⟨rfl, hcount⟩⟩
      refine ⟨[], b, .nil b, hend, by simp, by simp [Nat.mod_eq_of_lt hstart], fun hfirst => ?_⟩
      obtain ⟨hb, hcount⟩ := hdefinite hfirst
      exact ⟨hb, fun _ => ⟨by simpa using hcount, by omega⟩⟩
    | false =>
      obtain ⟨e, t, -, ho⟩ | ⟨v, b₃, hv, hnext⟩ := Attempt.run_bind_eq_some.mp hnext
      · simp at ho
      simp only [Attempt.run_pure, Option.some.injEq, Prod.mk.injEq, Except.ok.injEq] at hnext
      obtain ⟨rfl, rfl⟩ := hnext
      -- no stop leaves the buffer as it is, and a definite count is not reached
      obtain ⟨rfl, hne⟩ : b₂ = b ∧ (firstByte ≠ indefiniteLength → start.2 ≠ length) := by
        unfold readEnd at hstop
        split_ifs at hstop with hfirst
        · exact ⟨readBreak_false hstop, fun hne => absurd hfirst hne⟩
        · obtain ⟨hcount, rfl⟩ : start.2 ≠ length ∧ b = b₂ := by simpa using hstop
          exact ⟨rfl, fun _ => hcount⟩
      obtain ⟨calls, bEnd, hchain, hend, hret, hcount, hdefinite⟩ :=
        ih hloop (Nat.mod_lt _ Machine.count_pos)
      have hcall : (Call.mk b₂ v b₃).Returned M := ⟨fuel, hv⟩
      refine ⟨⟨b₂, v, b₃⟩ :: calls, bEnd, .cons (c := ⟨b₂, v, b₃⟩) hcall hchain, hend,
        by simp [hret], ?_, fun hfirst => ⟨(hdefinite hfirst).1, fun hle => ?_⟩⟩
      · rw [hcount, List.length_cons, Nat.mod_add_mod]
        congr 1
        omega
      · have hne := hne hfirst
        obtain ⟨-, hlength⟩ := hdefinite hfirst
        rw [List.length_cons]
        rcases Nat.lt_or_ge (start.2 + 1) M.sizeT.count with hlt | hge
        · rw [Nat.mod_eq_of_lt hlt] at hlength
          obtain ⟨hsum, hbound⟩ := hlength (by omega)
          exact ⟨by omega, hbound⟩
        · -- the count goes round without ever having met the length
          rw [show start.2 + 1 = M.sizeT.count by omega, Nat.mod_self] at hlength
          obtain ⟨-, hbound⟩ := hlength (Nat.zero_le _)
          omega

theorem exists_of_readString {fuel : ℕ} {ret : StringType} {firstByte length : ℕ}
    {readValue : Reading (Value StringData)} {v : Value StringData}
    (h : (readString M readValue fuel ret firstByte length).run b = some (.ok v, b')) :
    ∃ length data, v = ret.value length data := by
  unfold readString at h
  split at h
  · obtain ⟨e, t, -, ho⟩ | ⟨⟨first, sum⟩, b₁, -, h⟩ := Attempt.run_bind_eq_some.mp h
    · simp at ho
    obtain ⟨e, t, -, ho⟩ | ⟨-, b₂, -, h⟩ := Attempt.run_bind_eq_some.mp h
    · simp at ho
    obtain ⟨e, t, -, ho⟩ | ⟨-, b₃, -, h⟩ := Attempt.run_bind_eq_some.mp h
    · simp at ho
    obtain ⟨e, t, -, ho⟩ | ⟨bytes, b₄, -, h⟩ := Attempt.run_bind_eq_some.mp h
    · simp at ho
    exact ⟨sum, .owned bytes, by simpa [eq_comm] using (Prod.mk.inj (Option.some.inj h)).1⟩
  · obtain ⟨e, t, -, ho⟩ | ⟨-, b₁, -, h⟩ := Attempt.run_bind_eq_some.mp h
    · simp at ho
    obtain ⟨e, t, -, ho⟩ | ⟨address, b₂, -, h⟩ := Attempt.run_bind_eq_some.mp h
    · simp at ho
    exact ⟨length, .message address, by
      simpa [eq_comm] using (Prod.mk.inj (Option.some.inj h)).1⟩

theorem exists_chain_of_values {fuel : ℕ} {ret : NestedType} {firstByte length : ℕ}
    {v : Value StringData}
    (h : (readWpcpValues M (readWpcpValue M fuel) fuel ret firstByte length).run b =
      some (.ok v, b')) :
    ∃ calls bEnd, Call.Chain M b calls bEnd ∧ Call.Ends M bEnd b' ∧
      v = ret.node (calls.length % M.sizeT.count) (calls.map Call.value) ∧
      (firstByte ≠ indefiniteLength → bEnd = b' ∧ calls.length = length ∧
        calls.length < M.sizeT.count) := by
  obtain ⟨e, t, -, ho⟩ | ⟨⟨children, count⟩, b₁, hloop, hret⟩ := Attempt.run_bind_eq_some.mp h
  · simp at ho
  obtain ⟨calls, bEnd, hchain, hend, hchildren, hcount, hdefinite⟩ :=
    chain_of_loop hloop Machine.count_pos
  simp only [List.nil_append, Nat.zero_add] at hchildren hcount hdefinite
  obtain ⟨rfl, rfl⟩ := And.intro hchildren hcount
  obtain ⟨hv, rfl⟩ : v = ret.node (calls.length % M.sizeT.count) (calls.map Call.value) ∧
      b₁ = b' := by
    cases ret with
    | array => simpa [NestedType.node, eq_comm] using hret
    | map =>
      dsimp only at hret
      split_ifs at hret
      · simp at hret
      · simpa [NestedType.node, eq_comm] using hret
  refine ⟨calls, bEnd, hchain, hend, hv, fun hfirst => ?_⟩
  obtain ⟨hbEnd, hlength⟩ := hdefinite hfirst
  obtain ⟨hsum, hlt⟩ := hlength (Nat.zero_le _)
  exact ⟨hbEnd, hsum, by omega⟩

/-- **What a call that has returned a value has done.** -/
theorem Call.Returned.exists_body {c : Call} (h : c.Returned M) :
    ∃ head b, c.Starts M head b ∧ Call.Body M head b c := by
  obtain ⟨fuel, hrun⟩ := h
  cases fuel with
  | zero => simp [readWpcpValue] at hrun
  | succ fuel =>
    rw [readWpcpValue] at hrun
    obtain ⟨e, t, -, ho⟩ | ⟨head, b₁, hhead, hrun⟩ := Attempt.run_bind_eq_some.mp hrun
    · simp at ho
    obtain ⟨e, t, -, ho⟩ | ⟨⟨⟩, b₂, halloc, hrun⟩ := Attempt.run_bind_eq_some.mp hrun
    · simp at ho
    have hstarts : c.Starts M head b₂ := by
      rw [Call.Starts, Attempt.run_bind_ok hhead, Attempt.run_bind_ok halloc]
      rfl
    refine ⟨head, b₂, hstarts, ?_⟩
    have hdefinite (h : head.isIndefinite = false) : head.firstByte ≠ indefiniteLength := by
      simpa [Head.isIndefinite] using h
    split at hrun
    · rename_i htype
      exact .unsignedInteger htype (by simpa [eq_comm] using (Prod.mk.inj (Option.some.inj hrun)).1)
    · rename_i htype
      exact .negativeInteger htype (by simpa [eq_comm] using (Prod.mk.inj (Option.some.inj hrun)).1)
    · rename_i htype
      obtain ⟨length, data, hvalue⟩ := exists_of_readString hrun
      exact .string .byteString htype length data hvalue
    · rename_i htype
      obtain ⟨length, data, hvalue⟩ := exists_of_readString hrun
      exact .string .textString htype length data hvalue
    · rename_i htype
      obtain ⟨calls, bEnd, hchain, hend, hvalue, hcount⟩ := exists_chain_of_values hrun
      exact .values .array htype calls bEnd hchain hend hvalue fun hhead =>
        hcount (hdefinite hhead)
    · rename_i htype
      obtain ⟨calls, bEnd, hchain, hend, hvalue, hcount⟩ := exists_chain_of_values hrun
      exact .values .map htype calls bEnd hchain hend hvalue fun hhead =>
        hcount (hdefinite hhead)
    · rename_i htype
      obtain ⟨e, t, -, ho⟩ | ⟨child, b₃, hchild, hrun⟩ := Attempt.run_bind_eq_some.mp hrun
      · simp at ho
      obtain ⟨hvalue, hafter⟩ : .tag (UInt64.ofNat head.value) [child] = c.value ∧
          b₃ = c.after := by simpa using hrun
      have hcall : (Call.mk b₂ child b₃).Returned M := ⟨fuel, hchild⟩
      refine .tag htype ⟨b₂, child, b₃⟩ (.cons (c := ⟨b₂, child, b₃⟩) hcall ?_) hvalue.symm
      rw [← hafter]
      exact .nil b₃
    · rename_i htype
      exact .simple htype (by simpa [eq_comm] using (Prod.mk.inj (Option.some.inj hrun)).1)

/-! ### The calls inside a call -/

namespace Call

/-- A call inside another one, at any depth: the call itself, or one inside a call for one of
the children. -/
inductive Inside (M : Machine) : Call → Call → Prop
  | self (c : Call) : Inside M c c
  | child {c d e : Call} {head : Head} {b bEnd : ReadBuffer} {calls : List Call} :
      c.Starts M head b → Chain M b calls bEnd → Ends M bEnd c.after →
      c.value.children = calls.map Call.value → d ∈ calls → Inside M e d → Inside M e c

theorem Chain.returned {calls : List Call} (h : Chain M b calls b') :
    ∀ c ∈ calls, c.Returned M := by
  induction h with
  | nil => simp
  | cons hc _ ih => exact List.forall_mem_cons.mpr ⟨hc, ih⟩

theorem Inside.returned {c d : Call} (h : d.Inside M c) (hc : c.Returned M) :
    d.Returned M := by
  induction h with
  | self => exact hc
  | child _ hchain _ _ hd _ ih => exact ih (hchain.returned _ hd)

/-- The children of a value have been read by calls inside of the call. -/
theorem Returned.exists_chain {c : Call} (h : c.Returned M) (hchildren : c.value.children ≠ []) :
    ∃ head b calls bEnd, c.Starts M head b ∧ Chain M b calls bEnd ∧ Ends M bEnd c.after ∧
      c.value.children = calls.map Call.value := by
  obtain ⟨head, b, hstarts, hbody⟩ := h.exists_body
  cases hbody with
  | unsignedInteger htype hvalue => exact absurd (by rw [hvalue]; rfl) hchildren
  | negativeInteger htype hvalue => exact absurd (by rw [hvalue]; rfl) hchildren
  | string ret htype length data hvalue =>
    refine absurd ?_ hchildren
    rw [hvalue]
    cases ret <;> rfl
  | values ret htype calls bEnd hchain hend hvalue hcount =>
    refine ⟨head, b, calls, bEnd, hstarts, hchain, hend, ?_⟩
    rw [hvalue]
    cases ret <;> rfl
  | tag htype call hchain hvalue =>
    exact ⟨head, b, [call], c.after, hstarts, hchain, Or.inl rfl, by rw [hvalue]; rfl⟩
  | simple htype hvalue =>
    exact absurd (by rw [hvalue, children_simpleTypeValue]) hchildren

/-- **Every node of a value is the value of a call inside.** -/
theorem Returned.all_inside {c : Call} (h : c.Returned M) :
    c.value.All fun v => ∃ d : Call, d.Inside M c ∧ d.value = v := by
  induction hv : c.value using Value.induction generalizing c with
  | node v ih =>
    refine Value.all_iff.mpr ⟨⟨c, .self c, hv⟩, fun v hmem => ?_⟩
    have hne : c.value.children ≠ [] := by
      rw [hv]
      exact List.ne_nil_of_mem hmem
    obtain ⟨head, b, calls, bEnd, hstarts, hchain, hend, hchildren⟩ := h.exists_chain hne
    have hmem' := hmem
    rw [← hv, hchildren] at hmem'
    obtain ⟨d, hd, rfl⟩ := List.mem_map.mp hmem'
    refine (ih d.value hmem (hchain.returned d hd) rfl).imp ?_
    rintro v ⟨e, he, hev⟩
    exact ⟨e, .child hstarts hchain hend hchildren hd he, hev⟩

end Call

/-- The cursor lies in the message, which lies in memory, not at address 0 and not up to the top. -/
def ReadBuffer.InMessage (M : Machine) (b : ReadBuffer) : Prop :=
  0 < b.beginPtr ∧ b.beginPtr ≤ b.endPtr ∧ b.endPtr < M.sizeT.count

theorem ReadBuffer.InMessage.holds (h : b.InMessage M) :
    Holds M b (M.slice b.beginPtr (b.endPtr - b.beginPtr)) :=
  holds_slice h.1 h.2.1 h.2.2

theorem Holds.inMessage {bs : List UInt8} (h : Holds M b bs) : b.InMessage M :=
  ⟨h.begin_pos, by rw [h.end_eq]; exact Nat.le_add_right _ _, h.end_lt⟩

/-! ### Calls that read accepted items -/

namespace Call

/-- The call has read one accepted item of the message. -/
def Complete (M : Machine) (c : Call) : Prop :=
  ∃ w : Wire, w.Valid M.sizeT ∧ M.slice c.before.beginPtr w.bytes.length = w.bytes ∧
    c.value.deref (StringData.bytes M) = w.value ∧
    c.after.beginPtr = c.before.beginPtr + w.bytes.length ∧
    c.after.beginPtr ≤ c.before.endPtr

/-- A cursor that is lowered stays so. -/
theorem Returned.lowered {c : Call} (h : c.Returned M) (hafter : c.after.lowered = false) :
    c.before.lowered = false := by
  obtain ⟨fuel, hrun⟩ := h
  by_contra hbefore
  have hkeeps : c.after.lowered = true :=
    keeps_readWpcpValue fuel c.before _ (by simpa [ReadBuffer.Lowered] using hbefore) hrun
  rw [hafter] at hkeeps
  exact Bool.false_ne_true hkeeps

/-- A call that has not lowered the cursor has read an accepted item, and has left the cursor in the
message. -/
theorem Returned.complete {c : Call} (h : c.Returned M) (hbefore : c.before.InMessage M)
    (hafter : c.after.lowered = false) : c.Complete M ∧ c.after.InMessage M ∧
      c.after.endPtr = c.before.endPtr := by
  obtain ⟨fuel, hrun⟩ := h
  have hholds := hbefore.holds
  generalize M.slice c.before.beginPtr (c.before.endPtr - c.before.beginPtr) = bs at hholds
  have hrun' := Attempt.Extends.of_succ readWpcpValue_extends
    (Nat.le_max_left fuel (bs.length + 1)) _ _ hrun
  have hfollows := readWpcpValue_follows_scan hholds
    (show bs.length < max fuel (bs.length + 1) by omega)
  rw [hrun'] at hfollows
  rcases hscan : scan M.sizeT bs with ⟨ret, rest⟩
  rw [hscan] at hfollows
  cases hfollows with
  | @ok w v _ b' hreads hadv hholds' =>
    obtain ⟨hvalid, rfl⟩ := scan_eq_ok_iff.mp hscan
    have hbegin := hholds.beginPtr_eq hholds' hadv.endPtr
    exact ⟨⟨w, hvalid, (hholds.append hbegin hadv.endPtr).1, hreads.deref, hbegin, hadv.le_end⟩,
      hholds'.inMessage, hadv.endPtr⟩
  | wrapped _ hlowered =>
    have hlowered : c.after.lowered = true := hlowered _ rfl
    rw [hafter] at hlowered
    exact absurd hlowered Bool.false_ne_true

/-- A call lowers the cursor only where an announced length carries it over the top. -/
theorem Returned.not_lowered {c : Call} {bs : List UInt8} (h : c.Returned M)
    (hholds : Holds M c.before bs) (hbefore : c.before.lowered = false)
    (htop : c.before.endPtr + overshoot M.sizeT bs < M.sizeT.count) : c.after.lowered = false := by
  obtain ⟨fuel, hrun⟩ := h
  have hrun' := Attempt.Extends.of_succ readWpcpValue_extends
    (Nat.le_max_left fuel (bs.length + 1)) _ _ hrun
  have hfollows := readWpcpValue_follows_scan hholds
    (show bs.length < max fuel (bs.length + 1) by omega)
  rw [hrun'] at hfollows
  rcases hscan : scan M.sizeT bs with ⟨ret, rest⟩
  rw [hscan] at hfollows
  cases hfollows with
  | ok _ hadv _ => exact hadv.lowered.trans hbefore
  | wrapped hle _ =>
    rw [overshoot_eq hscan] at htop
    omega

theorem Chain.lowered {calls : List Call} (h : Chain M b calls b') (hafter : b'.lowered = false) :
    b.lowered = false := by
  induction h with
  | nil => exact hafter
  | cons hc _ ih => exact hc.lowered (ih hafter)

/-- The calls of a chain that has not lowered the cursor start in the message. -/
theorem Chain.inMessage {calls : List Call} (h : Chain M b calls b') (hb : b.InMessage M)
    (hafter : b'.lowered = false) :
    ∀ c ∈ calls, c.before.InMessage M ∧ c.after.lowered = false := by
  induction h with
  | nil => simp
  | cons hc hchain ih =>
    have hlowered := hchain.lowered hafter
    have hnext := (hc.complete hb hlowered).2.1
    exact List.forall_mem_cons.mpr ⟨⟨hb, hlowered⟩, ih hnext hafter⟩

/-- The head leaves the cursor in the message. -/
theorem Starts.inMessage {c : Call} {head : Head} (h : c.Starts M head b)
    (hbefore : c.before.InMessage M) (hafter : b.lowered = false) : b.InMessage M := by
  have hholds := hbefore.holds
  generalize M.slice c.before.beginPtr (c.before.endPtr - c.before.beginPtr) = bs at hholds
  obtain ⟨e, t, -, ho⟩ | ⟨head', b₁, hhead, h⟩ := Attempt.run_bind_eq_some.mp h
  · simp at ho
  obtain ⟨e, t, -, ho⟩ | ⟨⟨⟩, b₂, halloc, h⟩ := Attempt.run_bind_eq_some.mp h
  · simp at ho
  obtain ⟨-, rfl⟩ : head' = head ∧ b₂ = b := by simpa using h
  -- the allocation leaves the cursor where it is
  obtain ⟨-, hb₂⟩ := Prod.mk.inj (Option.some.inj halloc)
  obtain ⟨o, ho⟩ := Option.ne_none_iff_exists'.mp
    (show (scanHead M.sizeT).run bs ≠ none from scanHead_ends)
  have hfollows := readHead_follows hholds ho
  rw [hhead] at hfollows
  have hlowered : b₁.lowered = false := by rw [← hafter, ← hb₂]
  cases hfollows with
  | ok _ hadv hholds' =>
    rw [← hb₂]
    exact hholds'.inMessage
  | wrapped _ hgone =>
    have hgone : b₁.lowered = true := hgone _ rfl
    rw [hlowered] at hgone
    exact absurd hgone Bool.false_ne_true

theorem Ends.lowered (h : Ends M b b') (hafter : b'.lowered = false) : b.lowered = false := by
  obtain rfl | h := h
  · exact hafter
  · by_contra hb
    have hkeeps : b'.lowered = true :=
      keeps_readBreak b _ (by simpa [ReadBuffer.Lowered] using hb) h
    rw [hafter] at hkeeps
    exact Bool.false_ne_true hkeeps

/-- **Where the cursor is not lowered, every call inside has read an accepted item of the
message.** -/
theorem Inside.complete {c d : Call} (h : d.Inside M c) (hc : c.Returned M)
    (hbefore : c.before.InMessage M) (hafter : c.after.lowered = false) : d.Complete M := by
  induction h with
  | self c => exact (hc.complete hbefore hafter).1
  | child hstarts hchain hend hchildren hd _ ih =>
    have hlowered := hend.lowered hafter
    have hb := hstarts.inMessage hbefore (hchain.lowered hlowered)
    obtain ⟨hd', hafter'⟩ := hchain.inMessage hb hlowered _ hd
    exact ih (hchain.returned _ hd) hd' hafter'

end Call

end Wpcp.Cbor
