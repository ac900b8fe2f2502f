import LibSignal.Curve.Keys
import LibSignal.Lib.ByteOrder
import LibSignal.Lib.Decimal
import LibSignal.Lib.ProtoMessage

/-!
# Safety numbers

Model of `fingerprint/fingerprint.go`.
-/

namespace LibSignal.SafetyNumber
open Chunked (Bytes)
open Crypto Curve Lib Lib.ProtoWire

inductive ParseFailure where
  | shortEncoding (length : Nat)
  | theirProtobuf
  | theirLocal
  | theirRemote
deriving DecidableEq, Repr

inductive FingerprintErr where
  | versionMismatch (theirs ours : UInt32)
  | parsing (what : ParseFailure)
  | invalidIterationCount (iterations : UInt32)
deriving DecidableEq, Repr

def displayChunkBytes : Nat := 5
def displayChunks : Nat := 6
def displayMinLen : Nat := displayChunkBytes * displayChunks
def scannableContentLen : Nat := 32
def minIterations : UInt32 := 1
def maxIterations : UInt32 := 1000000

structure DisplayableFingerprint where
  localHalf : Bytes
  remoteHalf : Bytes
deriving DecidableEq

def DisplayableFingerprint.string (d : DisplayableFingerprint) : Bytes :=
  if compareBytes d.localHalf d.remoteHalf < 0 then d.localHalf ++ d.remoteHalf else d.remoteHalf ++ d.localHalf

def chunkValue (chunk : Bytes) : UInt64 := chunk.foldl (fun x b => (x <<< 8) ||| b.toUInt64) 0

def encodeChunks (fprint : Bytes) : Nat → Nat → Bytes
  | 0, _ => []
  | n + 1, i =>
    let chunk := (fprint.drop (i * displayChunkBytes)).take displayChunkBytes
    decimalPadded 5 (chunkValue chunk % 100000).toNat ++ encodeChunks fprint n (i + 1)

def getEncodedString (fprint : Bytes) : Except FingerprintErr Bytes :=
  if fprint.length < displayMinLen then .error (.parsing (.shortEncoding fprint.length))
  else .ok (encodeChunks fprint displayChunks 0)

def newDisplayableFingerprint (localFprint remoteFprint : Bytes) : Except FingerprintErr DisplayableFingerprint := do
  let l ← getEncodedString localFprint
  let r ← getEncodedString remoteFprint
  return ⟨l, r⟩

/-! ## The scanned message -/

structure LogicalFingerprint where
  content : Option Bytes
deriving DecidableEq

structure CombinedFingerprints where
  version : Option UInt32
  localFingerprint : Option LogicalFingerprint
  remoteFingerprint : Option LogicalFingerprint
deriving DecidableEq

def LogicalFingerprint.marshal (l : LogicalFingerprint) : Bytes :=
  match l.content with
  | none => []
  | some content => encodeBytesField 1 content

def marshalNested (num : Nat) : Option LogicalFingerprint → Bytes
  | none => []
  | some l => encodeBytesField num l.marshal

def CombinedFingerprints.marshal (c : CombinedFingerprints) : Bytes :=
  (match c.version with
    | none => []
    | some version => encodeVarintField 1 version.toNat) ++
    marshalNested 2 c.localFingerprint ++ marshalNested 3 c.remoteFingerprint

def logicalField (num : Nat) (typ : WireType) (b : Bytes) (_ : LogicalFingerprint) : FieldRead LogicalFingerprint :=
  match num with
  | 1 => readBytes typ b fun v => some ⟨some v⟩
  | _ => .unknown

def unmarshalNested (v : Bytes) (l : Option LogicalFingerprint) : Option LogicalFingerprint :=
  unmarshalInto logicalField v (l.getD ⟨none⟩)

def combinedField (num : Nat) (typ : WireType) (b : Bytes) (c : CombinedFingerprints) :
    FieldRead CombinedFingerprints :=
  match num with
  | 1 => readVarint typ b fun v => { c with version := some v.toUInt32 }
  | 2 => readBytes typ b fun v =>
    (unmarshalNested v c.localFingerprint).map fun l => { c with localFingerprint := some l }
  | 3 => readBytes typ b fun v =>
    (unmarshalNested v c.remoteFingerprint).map fun l => { c with remoteFingerprint := some l }
  | _ => .unknown

def unmarshal (b : Bytes) : Option CombinedFingerprints := unmarshalInto combinedField b ⟨none, none, none⟩

def getContent (l : Option LogicalFingerprint) : Option Bytes := l.bind LogicalFingerprint.content

structure ScannableFingerprint where
  version : UInt32
  localFingerprint : Bytes
  remoteFprint : Bytes
  length_local : localFingerprint.length < 2 ^ 63
  length_remote : remoteFprint.length < 2 ^ 63
deriving DecidableEq

def newScannableFingerprint (version : UInt32) (localFprint remoteFprint : Bytes) : ScannableFingerprint where
  version := version
  localFingerprint := localFprint.take scannableContentLen
  remoteFprint := remoteFprint.take scannableContentLen
  length_local := (List.length_take_le _ _).trans_lt (by decide)
  length_remote := (List.length_take_le _ _).trans_lt (by decide)

/-- The copy of a slice (`append([]byte(nil), b...)`); it is `nil` for an empty slice. -/
def sliceCopy (b : Bytes) : Option Bytes := if b.length = 0 then none else some b

def ScannableFingerprint.serialize (s : ScannableFingerprint) : Bytes :=
  (CombinedFingerprints.mk (some s.version) (some ⟨sliceCopy s.localFingerprint⟩)
    (some ⟨sliceCopy s.remoteFprint⟩)).marshal

def ScannableFingerprint.compare (s : ScannableFingerprint) (combined : Bytes) : Except FingerprintErr Bool :=
  match unmarshal combined with
  | none => .error (.parsing .theirProtobuf)
  | some theirs =>
    if theirs.version.getD 0 ≠ s.version then .error (.versionMismatch (theirs.version.getD 0) s.version)
    else
      match getContent theirs.localFingerprint with
      | none => .error (.parsing .theirLocal)
      | some theirLocal =>
        match getContent theirs.remoteFingerprint with
        | none => .error (.parsing .theirRemote)
        | some theirRemote => .ok (theirLocal == s.remoteFprint && theirRemote == s.localFingerprint)

structure Fingerprint where
  display : DisplayableFingerprint
  scannable : ScannableFingerprint
deriving DecidableEq

/-- A string of `n` decimal digits. -/
def IsDigits (n : Nat) (b : Bytes) : Prop := b.length = n ∧ ∀ c ∈ b, 0x30 ≤ c.toNat ∧ c.toNat ≤ 0x39

lemma IsDigits.append {m n : Nat} {a b : Bytes} (ha : IsDigits m a) (hb : IsDigits n b) :
    IsDigits (m + n) (a ++ b) := by
  refine ⟨by rw [List.length_append, ha.1, hb.1], fun c hc => ?_⟩
  rcases List.mem_append.mp hc with hc | hc
  · exact ha.2 c hc
  · exact hb.2 c hc

section
variable {c : CombinedFingerprints} {rest : Bytes} {fuel : Nat}

end

section
variable [Sha512]

def hashChain (keyBytes : Bytes) : Nat → Bytes → Bytes
  | 0, buf => buf
  | n + 1, buf => hashChain keyBytes n (sha512 (buf ++ keyBytes))

def getFingerprint (iterations : UInt32) (localID : Bytes) (key : PublicKey) : Except FingerprintErr Bytes :=
  if iterations ≤ minIterations ∨ iterations > maxIterations then .error (.invalidIterationCount iterations)
  else
    let keyBytes := key.serialize
    let buf := sha512 ([0x00, 0x00] ++ keyBytes ++ localID ++ keyBytes)
    .ok (hashChain keyBytes (iterations.toNat - 1) buf)

def new (version iterations : UInt32) (localID : Bytes) (localKey : PublicKey) (remoteID : Bytes)
    (remoteKey : PublicKey) : Except FingerprintErr Fingerprint := do
  let localFprint ← getFingerprint iterations localID localKey
  let remoteFprint ← getFingerprint iterations remoteID remoteKey
  let display ← newDisplayableFingerprint localFprint remoteFprint
  return ⟨display, newScannableFingerprint version localFprint remoteFprint⟩

end

end LibSignal.SafetyNumber
