import Wpcp.Cbor.ReaderScan

/-!
# When reading a value stays inside the message

A call that reads a value is safe (`Wpcp.Cbor.ReadsSafely`) when it returns, the cursor
never goes down during it, and a value it returns has moved the cursor forward, not
beyond the end, with every string of the value inside of the message.

This is not so for every message: the length of a string is added to the cursor before
the bounds are looked at, so that a length near the top of the address space brings the
cursor back to where it was (`Wpcp.Cbor.readsSafely_wrapped`). It is so exactly when the
bytes missing at the first cut do not reach the top (`Wpcp.Cbor.readsSafely_iff`).
-/

namespace Wpcp.Cbor

variable {M : Machine} {b : ReadBuffer} {bs : List UInt8}

/-- The call on a buffer returns; `begin` is never lowered during it; and a returned
value has taken at least one byte, none behind the end, and has its strings in the
message. -/
def ReadsSafely (M : Machine) (b : ReadBuffer) : Prop :=
  ∃ fuel ret b', (readWpcpValue M fuel).run b = some (ret, b') ∧ ret ≠ .error .aborted ∧
    b'.lowered = false ∧ ∀ v, ret = .ok v →
      b.beginPtr < b'.beginPtr ∧ b'.beginPtr ≤ b.endPtr ∧ v.Within b.beginPtr b.endPtr

/-- A buffer that lies in memory below the top holds what is there. -/
theorem holds_slice {beginPtr endPtr : ℕ} {malloc : ℕ → Bool} {lowered : Bool}
    (hpos : 0 < beginPtr) (hle : beginPtr ≤ endPtr) (hlt : endPtr < M.sizeT.count) :
    Holds M ⟨beginPtr, endPtr, malloc, lowered⟩ (M.slice beginPtr (endPtr - beginPtr)) where
  begin_pos := hpos
  end_eq := by
    rw [Machine.length_slice]
    show endPtr = beginPtr + (endPtr - beginPtr)
    omega
  end_lt := hlt
  slice_eq := by rw [Machine.length_slice]

/-- The call follows the scan of the bytes, given fuel for them. -/
theorem readWpcpValue_follows_scan {fuel : ℕ} (hholds : Holds M b bs)
    (hfuel : bs.length < fuel) :
    Follows M b (Reads M b.beginPtr) (scan M.sizeT bs) ((readWpcpValue M fuel).run b) :=
  readWpcpValue_follows fuel hholds (run_scanItem hfuel)

/-- A scan that ends in a cut overshoots by the bytes missing. -/
theorem overshoot_eq {sizeT : SizeT} {missing : ℕ} {rest : List UInt8}
    (h : scan sizeT bs = (.error (.short missing), rest)) : overshoot sizeT bs = missing := by
  rw [overshoot, h]

/-- A scan that overshoots ends in a cut. -/
theorem exists_short_of_overshoot {sizeT : SizeT} (h : 0 < overshoot sizeT bs) :
    ∃ rest, scan sizeT bs = (.error (.short (overshoot sizeT bs)), rest) := by
  unfold overshoot at h ⊢
  split at h
  · rename_i missing rest hscan
    exact ⟨rest, by simp [hscan]⟩
  · omega

/-- **A call is safe when no part of the item reaches the top.** -/
theorem readsSafely_of_overshoot (hholds : Holds M b bs) (hlowered : b.lowered = false)
    (h : b.endPtr + overshoot M.sizeT bs < M.sizeT.count) : ReadsSafely M b := by
  have hfollows := readWpcpValue_follows_scan hholds (Nat.lt_succ_self bs.length)
  generalize ho : (readWpcpValue M (bs.length + 1)).run b = o at hfollows
  rcases hscan : scan M.sizeT bs with ⟨ret, rest⟩
  rw [hscan] at hfollows
  cases hfollows with
  | @ok w v _ b' hreads hadv hholds' =>
    refine ⟨_, _, _, ho, by simp, hadv.lowered.trans hlowered, ?_⟩
    rintro v' heq
    obtain rfl := Except.ok.inj heq
    obtain ⟨-, rfl⟩ := scan_eq_ok_iff.mp hscan
    have hbegin := hholds.beginPtr_eq hholds' hadv.endPtr
    have hpos := w.length_bytes_pos
    exact ⟨by omega, hadv.le_end, hreads.within.mono (Nat.le_refl _) hadv.le_end⟩
  | malformed hadv _ =>
    exact ⟨_, _, _, ho, by simp, hadv.lowered.trans hlowered, by simp⟩
  | short _ _ _ _ hsame _ => exact ⟨_, _, _, ho, by simp, hsame.trans hlowered, by simp⟩
  | wrapped hle _ =>
    rw [overshoot_eq hscan] at h
    omega
  | failed _ hadv => exact ⟨_, _, _, ho, by simp, hadv.lowered.trans hlowered, by simp⟩

/-- **A call whose allocations succeed is not safe where a part reaches the top**: if it
returns, the cursor has been lowered. -/
theorem not_readsSafely_of_overshoot (hholds : Holds M b bs) (hmalloc : ¬b.MallocFails)
    (h : M.sizeT.count ≤ b.endPtr + overshoot M.sizeT bs) : ¬ReadsSafely M b := by
  rintro ⟨fuel, ret, b', hrun, -, hlowered, -⟩
  have hpos : 0 < overshoot M.sizeT bs := by
    have := hholds.end_lt
    omega
  obtain ⟨rest, hscan⟩ := exists_short_of_overshoot hpos
  have hrun' := Attempt.Extends.of_succ readWpcpValue_extends
    (Nat.le_max_left fuel (bs.length + 1)) _ _ hrun
  have hfollows := readWpcpValue_follows_scan hholds
    (show bs.length < max fuel (bs.length + 1) by omega)
  rw [hrun', hscan] at hfollows
  cases hfollows with
  | short _ hlt _ _ _ _ => omega
  | wrapped _ hgone =>
    have hgone : b'.lowered = true := hgone _ rfl
    rw [hlowered] at hgone
    exact Bool.false_ne_true hgone
  | failed hfails _ => exact hmalloc hfails

/-- **Exactly when reading is safe on every machine**: where the item is cut, the end and
the bytes missing together do not reach the top of the address space. Whether
allocations succeed does not matter. -/
theorem readsSafely_iff (M : Machine) (beginPtr endPtr : ℕ) (hpos : 0 < beginPtr)
    (hle : beginPtr ≤ endPtr) (htop : endPtr + 16 ≤ M.sizeT.count) :
    (∀ malloc, ReadsSafely M ⟨beginPtr, endPtr, malloc, false⟩) ↔
      endPtr + overshoot M.sizeT (M.slice beginPtr (endPtr - beginPtr)) < M.sizeT.count := by
  constructor
  · intro hsafe
    by_contra hreaches
    have hholds : Holds M ⟨beginPtr, endPtr, fun _ => true, false⟩ _ :=
      holds_slice hpos hle (by omega)
    have hmalloc : ¬ReadBuffer.MallocFails ⟨beginPtr, endPtr, fun _ => true, false⟩ := by
      rintro ⟨n, hn⟩
      simp at hn
    exact not_readsSafely_of_overshoot hholds hmalloc (Nat.le_of_not_lt hreaches)
      (hsafe fun _ => true)
  · intro h malloc
    exact readsSafely_of_overshoot (holds_slice hpos hle (by omega)) rfl h

/-- A machine with a message at an address. -/
def Machine.withMessage (sizeT : SizeT) (address : ℕ) (message : List UInt8) : Machine where
  sizeT := sizeT
  mem := fun a => message.getD (a - address) 0

/-- A machine that holds a message at an address holds it there. -/
theorem holds_withMessage {sizeT : SizeT} {address endPtr : ℕ} {message : List UInt8}
    {malloc : ℕ → Bool} {lowered : Bool} (hpos : 0 < address)
    (hend : endPtr = address + message.length) (hlt : endPtr < sizeT.count) :
    Holds (.withMessage sizeT address message) ⟨address, endPtr, malloc, lowered⟩ message where
  begin_pos := hpos
  end_eq := hend
  end_lt := hlt
  slice_eq := by
    refine List.ext_getElem (by simp) fun n h₁ h₂ => ?_
    have haddress : (address + n) % sizeT.count = address + n := Nat.mod_eq_of_lt (by omega)
    simp [Machine.slice, Machine.withMessage, List.getD_eq_getElem?_getD, haddress, h₂]

/-- The array `[1, "ab"]` in indefinite form, cut before its last byte and the stop code, is
read safely. -/
theorem readsSafely_cut : overshoot .bits32 [0x9f, 0x01, 0x62, 0x61] = 1 ∧
    ∀ malloc, ReadsSafely (.withMessage .bits32 1000 [0x9f, 0x01, 0x62, 0x61])
      ⟨1000, 1004, malloc, false⟩ :=
  ⟨by decide, (readsSafely_iff (.withMessage .bits32 1000 [0x9f, 0x01, 0x62, 0x61]) 1000 1004
    (by decide) (by decide) (by decide)).mpr (by decide)⟩

/-- A byte string of `2 ^ 64 - 9` bytes, announced by nine bytes at address 1. -/
def wrappingMachine : Machine :=
  .withMessage .bits64 1 [0x5b, 0xff, 0xff, 0xff, 0xff, 0xff, 0xff, 0xff, 0xf7]

/-- **A length that goes round**: the cursor comes back to where it was, and the value is
returned. -/
theorem readsSafely_wrapped :
    10 + 16 ≤ wrappingMachine.sizeT.count ∧
      (readWpcpValue wrappingMachine 1).run ⟨1, 10, fun _ => true, false⟩ =
        some (.ok (.byteString (2 ^ 64 - 9) (.message 10)), ⟨1, 10, fun _ => true, true⟩) ∧
      ¬ReadsSafely wrappingMachine ⟨1, 10, fun _ => true, false⟩ := by
  have hhead : (readHead wrappingMachine).run ⟨1, 10, fun _ => true, false⟩ =
      some (.ok ⟨.byteString, 27, 2 ^ 64 - 9⟩, ⟨10, 10, fun _ => true, false⟩) := rfl
  refine ⟨by decide, ?_, ?_⟩
  · rw [readWpcpValue, Attempt.run_bind_ok hhead]
    rfl
  · have hholds : Holds wrappingMachine ⟨1, 10, fun _ => true, false⟩
        (wrappingMachine.slice 1 9) := holds_slice (by decide) (by decide) (by decide)
    refine not_readsSafely_of_overshoot hholds ?_ (by decide)
    rintro ⟨n, hn⟩
    simp at hn

end Wpcp.Cbor
