import LibSignal.Crypto.Primitives

/-!
# Errors, enumerations and the authenticator

The error values of the `spqr` package with the data their messages carry, the enumerations of its
protobuf schema, and the symmetric MAC chain of `spqr/authenticator.go` that binds every transported
header and ciphertext to its epoch.
-/

namespace LibSignal.Spqr
open Chunked Crypto

/-- The errors of the `spqr` package. `indexPanic` is the Go runtime's out-of-range panic; it is not an
error value, but a call that ends in it does not return a result either. -/
inductive Err where
  | msgDecode
  | invalidState
  | v1StateDecode (reason : Option ChunkErr)
  | chainDecode (addEpoch : Option (UInt64 × UInt64))
  | keyJump (ctr idx : UInt32)
  | keyTrimmed (index : UInt32)
  | keyAlreadyRequested (index : UInt32)
  | epochOutOfRange (epoch : UInt64)
  | sendKeyEpochDecreased (send asked : UInt64)
  | epochOutOfRangeV1 (epoch : UInt64)
  | erroneousData (cause : KemErr)
  | invalidCtMac
  | invalidHdrMac
  | versionMismatch
  | minimumVersion
  | chainNotAvailable
  | randomSource
  | kem (cause : KemErr)
  | chunk (cause : ChunkErr)
  | indexPanic
deriving DecidableEq, Repr

inductive Direction where
  | a2b
  | b2a
deriving DecidableEq, Repr

def switchDirection : Direction → Direction
  | .a2b => .b2a
  | .b2a => .a2b

abbrev Version := Int32

def v0 : Version := 0

def v1 : Version := 1

structure ChainParams where
  maxJump : UInt32
  maxOooKeys : UInt32
deriving DecidableEq, Repr

def defaultMaxJump : UInt32 := 25000

def defaultMaxOOOKeys : UInt32 := 2000

def resolveMaxJump (p : Option ChainParams) : UInt32 :=
  match p with
  | none => defaultMaxJump
  | some p => if p.maxJump = 0 then defaultMaxJump else p.maxJump

def resolveMaxOOO (p : Option ChainParams) : UInt32 :=
  match p with
  | none => defaultMaxOOOKeys
  | some p => if p.maxOooKeys = 0 then defaultMaxOOOKeys else p.maxOooKeys

def be32 (v : UInt32) : Bytes :=
  [(v >>> 24).toUInt8, (v >>> 16).toUInt8, (v >>> 8).toUInt8, v.toUInt8]

def be64 (v : UInt64) : Bytes :=
  [(v >>> 56).toUInt8, (v >>> 48).toUInt8, (v >>> 40).toUInt8, (v >>> 32).toUInt8,
   (v >>> 24).toUInt8, (v >>> 16).toUInt8, (v >>> 8).toUInt8, v.toUInt8]

variable {v w : UInt32}

lemma be32_injective (h : be32 v = be32 w) : v = w := by
  have hv := v.toNat_lt
  have hw := w.toNat_lt
  simp only [be32, List.cons.injEq, and_true, ← UInt8.toNat_inj, UInt32.toNat_toUInt8,
    UInt32.toNat_shiftRight, Nat.shiftRight_eq_div_pow] at h
  simp at h
  apply UInt32.toNat_inj.mp
  omega

lemma be32_lt (h : be32 v < be32 w) : v.toNat < w.toNat := by
  have hv := v.toNat_lt
  have hw := w.toNat_lt
  simp only [be32, List.cons_lt_cons_iff, List.not_lt_nil, and_false, or_false, UInt8.lt_iff_toNat_lt,
    ← UInt8.toNat_inj, UInt32.toNat_toUInt8, UInt32.toNat_shiftRight, Nat.shiftRight_eq_div_pow] at h
  simp at h
  omega

lemma be32_lt_iff : be32 v < be32 w ↔ v.toNat < w.toNat := by
  refine ⟨be32_lt, fun h => ?_⟩
  by_contra hno
  have hnot : ¬ be32 w < be32 v := fun hgt => absurd (be32_lt hgt) (Nat.not_lt.mpr h.le)
  have heq := List.le_antisymm (List.not_lt.mp hnot) (List.not_lt.mp hno)
  rw [be32_injective heq] at h
  exact absurd h (lt_irrefl _)

def zeroSalt32 : Bytes := zeros 32

def chainHKDF [Hash] (salt ikm info : Bytes) (outLen : Nat) : Bytes :=
  hkdfSHA256 ikm salt info outLen

lemma length_chainHKDF [Hash] (salt ikm info : Bytes) (n : Nat) (h : n ≤ 8160) :
    (chainHKDF salt ikm info n).length = n :=
  hkdfSHA256_length ikm salt info n h

def authMACSize : Nat := 32

def authUpdateInfo : Bytes := ascii "Signal_PQCKA_V1_MLKEM768:Authenticator Update"

def authCtDomain : Bytes := ascii "Signal_PQCKA_V1_MLKEM768:ciphertext"

def authHdrDomain : Bytes := ascii "Signal_PQCKA_V1_MLKEM768:ekheader"

structure Authenticator where
  rootKey : Bytes
  macKey : Bytes
deriving DecidableEq, Repr

namespace Authenticator
variable [Hash]

def update (a : Authenticator) (ep : UInt64) (k : Bytes) : Authenticator :=
  let out := chainHKDF zeroSalt32 (a.rootKey ++ k) (authUpdateInfo ++ be64 ep) 64
  { rootKey := out.take 32, macKey := (out.drop 32).take 32 }

def new (rootKey : Bytes) (ep : UInt64) : Authenticator :=
  update { rootKey := zeros 32, macKey := zeros 32 } ep rootKey

def macCt (a : Authenticator) (ep : UInt64) (ct : Bytes) : Bytes :=
  hmacSHA256 a.macKey (authCtDomain ++ be64 ep ++ ct)

def macHdr (a : Authenticator) (ep : UInt64) (hdr : Bytes) : Bytes :=
  hmacSHA256 a.macKey (authHdrDomain ++ be64 ep ++ hdr)

def verifyCt (a : Authenticator) (ep : UInt64) (ct expected : Bytes) : Except Err Unit :=
  if expected = a.macCt ep ct then .ok () else .error .invalidCtMac

def verifyHdr (a : Authenticator) (ep : UInt64) (hdr expected : Bytes) : Except Err Unit :=
  if expected = a.macHdr ep hdr then .ok () else .error .invalidHdrMac

@[simp] lemma length_macHdr (a : Authenticator) (ep : UInt64) (hdr : Bytes) :
    (a.macHdr ep hdr).length = 32 := hmacSHA256_length _ _

@[simp] lemma length_macCt (a : Authenticator) (ep : UInt64) (ct : Bytes) :
    (a.macCt ep ct).length = 32 := hmacSHA256_length _ _

@[simp] lemma verifyHdr_macHdr (a : Authenticator) (ep : UInt64) (hdr : Bytes) :
    a.verifyHdr ep hdr (a.macHdr ep hdr) = .ok () := if_pos rfl

@[simp] lemma verifyCt_macCt (a : Authenticator) (ep : UInt64) (ct : Bytes) :
    a.verifyCt ep ct (a.macCt ep ct) = .ok () := if_pos rfl

end Authenticator

end LibSignal.Spqr
