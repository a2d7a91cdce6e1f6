import Wpcp.Cbor.Calls

/-!
# Announced counts

An array or a map of definite length says how many items it has. The number is kept while
the items are read: for an array it is compared with a running count, for a map it is
doubled before the loop and the count is halved behind it. The doubling is done on 64 bits,
so that a map which announces `2 ^ 63` items or more is read as one of `2 ^ 63` fewer
(`Wpcp.Cbor.not_honoursCount`). This is the only way in which a count is not honoured
(`Wpcp.Cbor.countsHonoured_iff`), and it does not depend on where the message lies.
-/

namespace Wpcp.Cbor

variable {M : Machine}

namespace Call

/-- The node made for a definite head has the length the head announces, and so many items
(for a map twice as many) have been read for it, one after another and nothing behind them.
In particular no node is made where there are fewer. -/
def HonoursCount (M : Machine) (c : Call) : Prop :=
  ∀ head b, c.Starts M head b → head.isIndefinite = false →
    (head.type = .array → ∃ calls, Chain M b calls c.after ∧ calls.length = head.value ∧
      c.value = .array head.value (calls.map Call.value)) ∧
    (head.type = .map → ∃ calls, Chain M b calls c.after ∧ calls.length = 2 * head.value ∧
      c.value = .map head.value (calls.map Call.value))

/-- The call has read the head of a map that announces `2 ^ 63` items or more. -/
def LargeMap (M : Machine) (c : Call) : Prop :=
  ∃ head b, c.Starts M head b ∧ head.isIndefinite = false ∧ head.type = .map ∧
    2 ^ 63 ≤ head.value

theorem Starts.unique {c : Call} {head head' : Head} {b b' : ReadBuffer}
    (h : c.Starts M head b) (h' : c.Starts M head' b') : head = head' ∧ b = b' := by
  rw [Starts, h', Option.some.injEq, Prod.mk.injEq, Except.ok.injEq] at h
  exact ⟨h.1.symm, h.2.symm⟩

/-- **One call**: the count is honoured unless the head is that of a large map. -/
theorem Returned.honoursCount_iff {c : Call} (h : c.Returned M) :
    c.HonoursCount M ↔ ¬c.LargeMap M := by
  obtain ⟨head, b, hstarts, hbody⟩ := h.exists_body
  constructor
  · rintro hhonours ⟨head', b', hstarts', hdefinite, hmap, hlarge⟩
    obtain ⟨rfl, rfl⟩ := hstarts.unique hstarts'
    obtain ⟨calls, -, hlength, hvalue⟩ := (hhonours head b hstarts hdefinite).2 hmap
    cases hbody with
    | values ret htype calls' bEnd hchain hend hvalue' hcount =>
      cases ret with
      | array => simp [hmap, NestedType.majorType] at htype
      | map =>
        -- the length is half of a number of 64 bits
        obtain ⟨-, hitems, hlt⟩ := hcount hdefinite
        rw [hvalue', Nat.mod_eq_of_lt hlt, hitems, NestedType.node, Value.map.injEq] at hvalue
        have := hvalue.1
        simp only [NestedType.items] at this
        omega
    | string ret htype => cases ret <;> simp [hmap, StringType.majorType] at htype
    | _ htype => simp [hmap] at htype
  · rintro hsmall head' b' hstarts' hdefinite
    obtain ⟨rfl, rfl⟩ := hstarts.unique hstarts'
    constructor
    · intro harray
      cases hbody with
      | values ret htype calls bEnd hchain hend hvalue hcount =>
        cases ret with
        | map => simp [harray, NestedType.majorType] at htype
        | array =>
          obtain ⟨rfl, hitems, hlt⟩ := hcount hdefinite
          have hitems : calls.length = head.value := hitems
          refine ⟨calls, hchain, hitems, ?_⟩
          rw [hvalue, Nat.mod_eq_of_lt hlt, hitems]
          rfl
      | string ret htype => cases ret <;> simp [harray, StringType.majorType] at htype
      | _ htype => simp [harray] at htype
    · intro hmap
      have hvalue_lt : head.value < 2 ^ 63 := by
        by_contra hlarge
        exact hsmall ⟨head, b, hstarts, hdefinite, hmap, Nat.le_of_not_lt hlarge⟩
      cases hbody with
      | values ret htype calls bEnd hchain hend hvalue hcount =>
        cases ret with
        | array => simp [hmap, NestedType.majorType] at htype
        | map =>
          obtain ⟨rfl, hitems, hlt⟩ := hcount hdefinite
          have hitems : calls.length = 2 * head.value := by
            rw [hitems, NestedType.items]
            omega
          refine ⟨calls, hchain, hitems, ?_⟩
          rw [hvalue, Nat.mod_eq_of_lt hlt, hitems, NestedType.node]
          congr 1
          omega
      | string ret htype => cases ret <;> simp [hmap, StringType.majorType] at htype
      | _ htype => simp [hmap] at htype

end Call

/-! ### Fewer items than announced -/

/-- Behind a definite head of an array or a map there are fewer accepted items than it
announces. -/
structure Fewer (sizeT : SizeT) (head : Head) (items : List Wire) (rest : List UInt8) : Prop where
  valid : head.Valid sizeT
  definite : head.isIndefinite = false
  lt : (head.type = .array ∧ items.length < head.value) ∨
    (head.type = .map ∧ items.length < 2 * head.value)
  items : ∀ w ∈ items, w.Valid sizeT
  none : ∀ w rest', scan sizeT rest ≠ (.ok w, rest')

namespace Wire

variable {sizeT : SizeT} {items items' : List Wire} {rest rest' : List UInt8}

/-- An item starts with its head. -/
theorem exists_bytes_eq (w : Wire) : ∃ tail, w.bytes = w.head.bytes ++ tail := by
  cases w with
  | leaf head => exact ⟨[], by simp [bytes, Wire.head]⟩
  | string head content => exact ⟨content, rfl⟩
  | nested head items => exact ⟨bytesList items ++ head.stop, rfl⟩

/-- The head an accepted item starts with is the accepted one that is there. -/
theorem Valid.head_eq {w : Wire} {head : Head} (h : w.Valid sizeT) (hhead : head.Valid sizeT)
    (hbytes : head.bytes ++ rest = w.bytes ++ rest') : w.head = head := by
  have hfound : (scanHead sizeT).run (head.bytes ++ rest) = some (.ok head, rest) :=
    scanHead_complete hhead
  obtain ⟨tail, htail⟩ := w.exists_bytes_eq
  rw [hbytes, htail, List.append_assoc, scanHead_complete h.head_valid] at hfound
  simpa using (Prod.mk.inj (Option.some.inj hfound)).1

/-- Accepted items are followed by more of them where there are more. -/
theorem exists_item_of_lt (hitems : ∀ w ∈ items, w.Valid sizeT)
    (hitems' : ∀ w ∈ items', w.Valid sizeT)
    (h : bytesList items ++ rest = bytesList items' ++ rest') (hlt : items.length < items'.length) :
    ∃ w rest'', scan sizeT rest = (.ok w, rest'') := by
  induction items generalizing items' with
  | nil =>
    obtain ⟨w, ws, rfl⟩ := List.exists_cons_of_length_pos hlt
    simp only [bytesList, List.nil_append, List.append_assoc] at h
    exact ⟨w, _, scan_eq_ok_iff.mpr ⟨hitems' w (by simp), h⟩⟩
  | cons v vs ih =>
    obtain ⟨w, ws, rfl⟩ := List.exists_cons_of_length_pos (Nat.zero_lt_of_lt hlt)
    simp only [bytesList, List.append_assoc] at h
    have hv : scan sizeT (v.bytes ++ (bytesList vs ++ rest)) = (.ok v, bytesList vs ++ rest) :=
      scan_eq_ok_iff.mpr ⟨hitems v (by simp), rfl⟩
    rw [h, scan_eq_ok_iff.mpr ⟨hitems' w (by simp), rfl⟩, Prod.mk.injEq] at hv
    exact ih (fun u hu => hitems u (by simp [hu])) (fun u hu => hitems' u (by simp [hu]))
      hv.2.symm (by simpa using hlt)

end Wire

/-- Where there are fewer items than announced there is no accepted item, unless the count
goes round. -/
theorem Fewer.scan_ne_ok {sizeT : SizeT} {head : Head} {items : List Wire} {rest : List UInt8}
    (h : Fewer sizeT head items rest) (hsmall : head.type = .map → head.value < 2 ^ 63)
    (w : Wire) (rest' : List UInt8) :
    scan sizeT (head.bytes ++ (Wire.bytesList items ++ rest)) ≠ (.ok w, rest') := by
  intro hscan
  obtain ⟨hvalid, hbytes⟩ := scan_eq_ok_iff.mp hscan
  have hlength : head.type.hasLength = true ∧ head.isString = false := by
    obtain ⟨htype, -⟩ | ⟨htype, -⟩ := h.lt <;> simp [htype, MajorType.hasLength, Head.isString]
  have hhead := hvalid.head_eq h.valid hbytes
  cases w with
  | leaf head' =>
    obtain rfl : head' = head := hhead
    obtain ⟨-, hleaf, -⟩ := hvalid
    rw [hlength.1] at hleaf
    exact Bool.noConfusion hleaf
  | string head' content =>
    obtain rfl : head' = head := hhead
    obtain ⟨-, hstring, -⟩ := hvalid
    rw [hlength.2] at hstring
    exact Bool.noConfusion hstring
  | nested head' items' =>
    obtain rfl : head' = head := hhead
    obtain ⟨-, hfits, hitems'⟩ := hvalid
    rw [Wire.validList_iff] at hitems'
    have hlt : items.length < items'.length := by
      obtain ⟨htype, hlt⟩ | ⟨htype, hlt⟩ := h.lt
      · have hcount : items'.length = head'.value := by
          simpa [Wire.Fits, Head.count, htype, h.definite] using hfits
        omega
      · simp only [Wire.Fits, htype, h.definite, Head.count, Bool.false_eq_true, false_or] at hfits
        have := hsmall htype
        omega
    simp only [Wire.bytes, List.append_assoc, List.append_cancel_left_eq] at hbytes
    obtain ⟨v, rest'', hv⟩ := Wire.exists_item_of_lt h.items hitems' hbytes hlt
    exact h.none v rest'' hv

/-- Where no accepted item starts and no length reaches the top, the call returns `NULL`. -/
theorem exists_null {b : ReadBuffer} {bs : List UInt8} (hholds : Holds M b bs)
    (htop : b.endPtr + overshoot M.sizeT bs < M.sizeT.count)
    (hscan : ∀ w rest, scan M.sizeT bs ≠ (.ok w, rest)) :
    ∃ fuel b', (readWpcpValue M fuel).run b = some (.error .null, b') := by
  have hfollows := readWpcpValue_follows_scan hholds (Nat.lt_succ_self bs.length)
  generalize ho : (readWpcpValue M (bs.length + 1)).run b = o at hfollows
  rcases hret : scan M.sizeT bs with ⟨ret, rest⟩
  rw [hret] at hfollows
  cases hfollows with
  | ok => exact absurd hret (hscan _ _)
  | malformed => exact ⟨_, _, ho⟩
  | short => exact ⟨_, _, ho⟩
  | wrapped hle _ =>
    rw [overshoot_eq hret] at htop
    omega
  | failed => exact ⟨_, _, ho⟩

/-- **Exactly when announced counts are honoured**, on every machine and for every message:
in a call that returns a value the count of every array and map, at any depth, is honoured
unless a definite map announces `2 ^ 63` items or more. Where no announced string length
reaches the top of the address space, each of the items read is an accepted one of the
message, and a message with fewer items is rejected. -/
theorem countsHonoured_iff {b : ReadBuffer} {bs : List UInt8} (hholds : Holds M b bs)
    (hlowered : b.lowered = false) :
    (∀ v b', (Call.mk b v b').Returned M →
      ((∀ d : Call, d.Inside M ⟨b, v, b'⟩ → d.HonoursCount M) ↔
        ∀ d : Call, d.Inside M ⟨b, v, b'⟩ → ¬d.LargeMap M)) ∧
    (b.endPtr + overshoot M.sizeT bs < M.sizeT.count →
      (∀ v b', (Call.mk b v b').Returned M →
        ∀ d : Call, d.Inside M ⟨b, v, b'⟩ → d.Complete M) ∧
      ∀ head items rest, bs = head.bytes ++ (Wire.bytesList items ++ rest) →
        Fewer M.sizeT head items rest → (head.type = .map → head.value < 2 ^ 63) →
          ∃ fuel b', (readWpcpValue M fuel).run b = some (.error .null, b')) := by
  refine ⟨fun v b' hreturned => ?_, fun htop => ⟨fun v b' hreturned d hd => ?_, ?_⟩⟩
  · exact forall₂_congr fun d hd => (hd.returned hreturned).honoursCount_iff
  · exact hd.complete hreturned hholds.inMessage (hreturned.not_lowered hholds hlowered htop)
  · rintro head items rest rfl hfewer hsmall
    exact exists_null hholds htop (hfewer.scan_ne_ok hsmall)

/-- The array `[{1: 2}]` at address 1000. -/
def countedMachine : Machine :=
  .withMessage .bits64 1000 [0x81, 0xa1, 0x01, 0x02]

/-- The array is returned, and the counts of both nodes are honoured. -/
theorem countsHonoured_counted : ∃ v b',
    (Call.mk ⟨1000, 1004, fun _ => true, false⟩ v b').Returned countedMachine ∧
      ((∀ d : Call, d.Inside countedMachine ⟨⟨1000, 1004, fun _ => true, false⟩, v, b'⟩ →
          d.HonoursCount countedMachine) ↔
        ∀ d : Call, d.Inside countedMachine ⟨⟨1000, 1004, fun _ => true, false⟩, v, b'⟩ →
          ¬d.LargeMap countedMachine) ∧
      ∀ d : Call, d.Inside countedMachine ⟨⟨1000, 1004, fun _ => true, false⟩, v, b'⟩ →
        d.Complete countedMachine := by
  have hholds : Holds countedMachine ⟨1000, 1004, fun _ => true, false⟩ [0x81, 0xa1, 0x01, 0x02] :=
    holds_withMessage (by decide) rfl (by decide)
  obtain ⟨hcounts, hcomplete⟩ := countsHonoured_iff hholds rfl
  have hreturned : (Call.mk ⟨1000, 1004, fun _ => true, false⟩
      (.array 1 [.map 1 [.uint64 1, .uint64 2]]) ⟨1004, 1004, fun _ => true, false⟩).Returned
        countedMachine := ⟨5, rfl⟩
  exact ⟨_, _, hreturned, hcounts _ _ hreturned, (hcomplete (by decide)).1 _ _ hreturned⟩

/-- The head of a map that announces `2 ^ 63` items, at address 1000. -/
def doublingMachine : Machine :=
  .withMessage .bits64 1000 [0xbb, 0x80, 0x00, 0x00, 0x00, 0x00, 0x00, 0x00, 0x00]

/-- **A count that goes round**: a map that announces `2 ^ 63` items, with nothing behind it,
is read as a map of length 0. -/
theorem not_honoursCount :
    (Call.mk ⟨1000, 1009, fun _ => true, false⟩ (.map 0 [])
        ⟨1009, 1009, fun _ => true, false⟩).Returned doublingMachine ∧
      (Call.mk ⟨1000, 1009, fun _ => true, false⟩ (.map 0 [])
        ⟨1009, 1009, fun _ => true, false⟩).Starts doublingMachine ⟨.map, 27, 2 ^ 63⟩
          ⟨1009, 1009, fun _ => true, false⟩ ∧
      ¬(Call.mk ⟨1000, 1009, fun _ => true, false⟩ (.map 0 [])
        ⟨1009, 1009, fun _ => true, false⟩).HonoursCount doublingMachine := by
  have hhead : (readHead doublingMachine).run ⟨1000, 1009, fun _ => true, false⟩ =
      some (.ok ⟨.map, 27, 2 ^ 63⟩, ⟨1009, 1009, fun _ => true, false⟩) := rfl
  have hstarts : (Call.mk ⟨1000, 1009, fun _ => true, false⟩ (.map 0 [])
      ⟨1009, 1009, fun _ => true, false⟩).Starts doublingMachine ⟨.map, 27, 2 ^ 63⟩
        ⟨1009, 1009, fun _ => true, false⟩ := by
    rw [Call.Starts, Attempt.run_bind_ok hhead]
    rfl
  refine ⟨⟨2, ?_⟩, hstarts, fun hhonours => ?_⟩
  · rw [readWpcpValue, Attempt.run_bind_ok hhead]
    rfl
  · obtain ⟨calls, -, -, hvalue⟩ := (hhonours _ _ hstarts rfl).2 rfl
    injection hvalue with hlength
    exact absurd hlength (by decide)

end Wpcp.Cbor
