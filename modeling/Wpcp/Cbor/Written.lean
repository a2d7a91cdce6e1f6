import Wpcp.Cbor.Chunks
import Wpcp.Cbor.Writes

/-!
# Buffers that have been written

An output buffer either contains what has been written to it, or it has failed to grow and is
broken. **Every encoder keeps this** (`Wpcp.Cbor.WriteBuffer.Written.writes`), so that the size a
buffer says it has is the number of its bytes, and is not 0 where it is broken.
-/

namespace Wpcp.Cbor.WriteBuffer

/-- **A buffer contains what has been written to it, or it is broken**, and then something has
been. -/
inductive Written (buffer : WriteBuffer) : Prop
  | whole (bytes : List UInt8) : buffer.Contains bytes → buffer.Written
  | broken : buffer.writeWriteBuffer = none → 0 < buffer.usedSize → buffer.Written

theorem writeWriteBuffer_eq_none {buffer : WriteBuffer} :
    buffer.writeWriteBuffer = none ↔ buffer.lastItem = none := by
  unfold writeWriteBuffer
  cases buffer.lastItem with
  | none => exact iff_of_true rfl rfl
  | some item => exact iff_of_false nofun nofun

theorem Written.write {buffer : WriteBuffer} (h : buffer.Written) (data : List UInt8) :
    (buffer.write data).Written := by
  cases h with
  | broken hnone hpos =>
    have hsame : buffer.write data = buffer := by
      rw [WriteBuffer.write, writeWriteBuffer_eq_none.mp hnone]
    rw [hsame]
    exact .broken hnone hpos
  | whole bytes hcontains =>
    rcases hcontains.write data with hwhole | hbroken
    · exact .whole _ hwhole
    · refine .broken (writeWriteBuffer_eq_none.mpr hbroken) ?_
      -- what does not fit is not empty
      obtain ⟨item, hlast⟩ := Option.ne_none_iff_exists'.mp hcontains.not_broken
      simp only [WriteBuffer.write, hlast] at hbroken ⊢
      split at hbroken
      · rename_i hlarge
        rw [if_pos hlarge]
        show 0 < buffer.usedSize + data.length
        omega
      · cases hbroken

theorem Written.length {buffer : WriteBuffer} (h : buffer.Written) {bytes : List UInt8}
    (hbytes : buffer.writeWriteBuffer = some bytes) : buffer.usedSize = bytes.length := by
  cases h with
  | whole bytes' hcontains =>
    obtain rfl := Option.some.inj (hbytes.symm.trans hcontains.bytes)
    exact hcontains.usedSize
  | broken hnone _ => exact absurd (hbytes.symm.trans hnone) nofun

theorem Written.pos {buffer : WriteBuffer} (h : buffer.Written)
    (hnone : buffer.writeWriteBuffer = none) : 0 < buffer.usedSize := by
  cases h with
  | whole bytes hcontains => exact absurd (hnone.symm.trans hcontains.bytes) nofun
  | broken _ hpos => exact hpos

end Wpcp.Cbor.WriteBuffer
