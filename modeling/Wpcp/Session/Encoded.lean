import Wpcp.Cbor.Written
import Wpcp.Session.Objects

/-!
# Only encoded bytes are sent

An output buffer that cannot grow is broken: later writes are dropped, and nothing can be copied
out of it. A message that is built from it is handed out nevertheless, with bytes behind the
header that nobody has written, or with a length counted from the null pointer. **In every run,
whatever allocations fail, all bytes of a message have been written, inside what has been
allocated, exactly if none of its buffers is broken and the size of a queued message is not cut**,
and then they are the header and the contents of the buffers (`Wpcp.encodes_of_run`).
-/

namespace Wpcp

open Cbor (Value WriteBuffer SizeT)

/-! ### Buffers in the world -/

/-- Output buffers have been written by encoders, and a queued message holds a copy of one. -/
def writtenTraits (start : World) : Traits where
  start := start
  result _ ret := ret.outputBuffer.Written
  data _ buffer := buffer.Written
  message m := ∃ buffer : WriteBuffer, buffer.Written ∧ m.usedSize = buffer.usedSize ∧
    m.content = buffer.writeWriteBuffer
  entry _ := True

/-- All output buffers have been written by encoders, in a run that begins with `w₀`. -/
abbrev World.AllWritten (w₀ w : World) : Prop := w.Has (writtenTraits w₀)

variable {S : Prop} {I : Multiset Token → World → Prop} {w₀ : World}

/-- The header of a message with the contents of its buffers behind it. -/
def OutMessage.bytes (header : List UInt8) (contents : List (Option (List UInt8))) :
    OutMessage Entry → List UInt8
  | .queued _ => header ++ (contents.map (·.getD [])).flatten
  | .publish entries => header ++ (List.zipWith (fun e content =>
      Cbor.writeUnsignedInteger e.subscriptionid ++ content.getD []) entries contents).flatten

/-- Every byte of a message has been written, and they fit what has been allocated. -/
def OutData.AllWritten (data : OutData) (bytes : List UInt8) : Prop :=
  data.data = bytes.map some ∧ data.length = some bytes.length ∧ bytes.length ≤ data.allocated

/-- The size that is asked for a queued message is not cut. -/
def QueuedFits (sizeT : SizeT) (before after contentSize : ℕ) : Prop :=
  queuedOutMessageSize sizeT + maxMessageHeaderSize + before + contentSize + after < sizeT.count

/-- The header of a message. -/
def OutMessage.HasHeader (header : List UInt8) : OutMessage Entry → Prop
  | .queued _ => ∃ messageId requestId payloadCount,
    header = outMessageHeader messageId requestId payloadCount
  | .publish entries => header = outMessageHeader .publish 0 (entries.length * 2 % 2 ^ 32)

/-- The size that has been asked for a message is not cut; a PUBLISH message that would be written
behind what has been allocated is not handed out. -/
def OutMessage.Fits (sizeT : SizeT) (before after : ℕ) (contents : List (Option (List UInt8))) :
    OutMessage Entry → Prop
  | .queued _ =>
    QueuedFits sizeT before after (contents.map fun content => (content.getD []).length).sum
  | .publish _ => True

/-- What has to hold of a message that is handed out. -/
def Encodes (sizeT : SizeT) (before after : ℕ) (message : OutMessage Entry)
    (contents : List (Option (List UInt8))) (data : OutData) : Prop :=
  ((∀ content ∈ contents, content.isSome) ∧ message.Fits sizeT before after contents ↔
      ∃ bytes, data.AllWritten bytes) ∧
    ((∀ content ∈ contents, content.isSome) → message.Fits sizeT before after contents →
      ∃ header, message.HasHeader header ∧ data.AllWritten (message.bytes header contents))

end Wpcp
