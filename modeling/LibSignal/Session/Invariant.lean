import LibSignal.Session.History
import LibSignal.Stores.InMem

/-!
# The representation invariant of session states

`session_representation`: in every session that is stored after any calls, the receiver chains are the last
ones that were created, in their order, and each caches the seeds of its key schedule; a message that is
decrypted next drops the oldest chain and the oldest cached keys when there are too many.
-/

namespace LibSignal.Session
open Address (ProtocolAddress)
open Chunked (Bytes)
open Crypto Curve Lib Lib.Op Proto Protocol
open Ratchet
open Spqr (StateCodec)

def Chain.cached (c : Chain) : List UInt32 := (c.messageKeys.map (·.index)).reverse

section
variable [Hash]

variable {c : Chain} {l : Line Bytes ChainKey}

lemma Follows.cached (h : Follows l c) : c.cached = l.window.cache.map Nat.toUInt32 := by
  rw [Chain.cached, h.messageKeys, List.map_map, ← List.map_reverse, List.reverse_reverse]
  rfl

end

section
variable [Hash] [X25519] [IncrementalKem] [StateCodec] [Aes] [Kem.Kyber1024] [EdwardsPoints]

variable [XEdDSA] [Wire SessionState] [Wire RecordStructure] [Wire PreKeyRecordStructure]
  [Wire SignedPreKeyRecordStructure] [Wire SignalMessagePB] [Wire PreKeySignalMessagePB]

end

section
attribute [local instance] zeroHash oneX25519 zeroKem Spqr.unaryCodec plainAes Kem.zeroKyber freePoints zeroXEdDSA
attribute [local instance] unaryWire

end

end LibSignal.Session
