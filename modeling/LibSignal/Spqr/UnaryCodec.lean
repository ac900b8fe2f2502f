import Mathlib.Tactic.DeriveEncodable
import LibSignal.Spqr.Ratchet

/-!
# A concrete codec

The stored states are countable, so a codec that satisfies the laws of `StateCodec` exists: `unaryCodec`
writes the number of a state as that many zero bytes.
-/

namespace LibSignal.Spqr
open Chunked Crypto

instance encodableUInt8 : Encodable UInt8 :=
  Encodable.ofEquiv (Fin (2 ^ 8)) ⟨UInt8.toFin, UInt8.ofFin, fun _ => rfl, fun _ => rfl⟩

instance encodableUInt32 : Encodable UInt32 :=
  Encodable.ofEquiv (Fin (2 ^ 32)) ⟨UInt32.toFin, UInt32.ofFin, fun _ => rfl, fun _ => rfl⟩

instance encodableUInt64 : Encodable UInt64 :=
  Encodable.ofEquiv (Fin (2 ^ 64)) ⟨UInt64.toFin, UInt64.ofFin, fun _ => rfl, fun _ => rfl⟩

instance encodableInt32 : Encodable Int32 :=
  Encodable.ofEquiv UInt32 ⟨Int32.toUInt32, UInt32.toInt32, fun _ => rfl, fun _ => rfl⟩

deriving instance Encodable for Direction
deriving instance Encodable for ChainParams
deriving instance Encodable for Authenticator
deriving instance Encodable for PolynomialEncoder
deriving instance Encodable for PolynomialDecoder
deriving instance Encodable for DirectionPB
deriving instance Encodable for EpochPB
deriving instance Encodable for ChainPB
deriving instance Encodable for VersionNegotiation
deriving instance Encodable for UcPlain
deriving instance Encodable for UcHeaderSent
deriving instance Encodable for UcEkSent
deriving instance Encodable for UcEkSentCt1Received
deriving instance Encodable for UcHeaderReceived
deriving instance Encodable for UcCt1Sent
deriving instance Encodable for UcCt1SentEkReceived
deriving instance Encodable for V1StatePB
deriving instance Encodable for PqRatchetState

@[reducible] def unaryCodec : StateCodec where
  marshal st := if st = .zero then [] else zeros (Encodable.encode st + 1)
  unmarshal b := if b.length = 0 then some .zero else Encodable.decode (b.length - 1)
  unmarshal_marshal st := by
    split
    · rename_i hzero
      rw [hzero]
      rfl
    · rw [length_zeros, if_neg (by omega), Nat.add_sub_cancel, Encodable.encodek]
  unmarshal_nil := rfl

end LibSignal.Spqr
