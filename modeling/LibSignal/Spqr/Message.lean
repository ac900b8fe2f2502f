import LibSignal.Chunked.Stream

/-!
# The v1 message codec

Model of `spqr/message.go`: version byte, varint epoch, varint key index, type byte and, for the
chunk-carrying kinds, a varint chunk index with 32 bytes of data.
-/

namespace LibSignal.Spqr
open Chunked

inductive Payload where
  | none
  | hdr (chunk : Chunk)
  | ek (chunk : Chunk)
  | ekCt1Ack (chunk : Chunk)
  | ct1Ack (ack : Bool)
  | ct1 (chunk : Chunk)
  | ct2 (chunk : Chunk)
deriving DecidableEq, Repr

structure V1Message where
  epoch : UInt64
  payload : Payload
deriving DecidableEq, Repr

def versionByteV1 : UInt8 := 1

def msgTypeFor : Payload → UInt8
  | .none => 0
  | .hdr _ => 1
  | .ek _ => 2
  | .ekCt1Ack _ => 3
  | .ct1Ack _ => 4
  | .ct1 _ => 5
  | .ct2 _ => 6

def Payload.chunk? : Payload → Option Chunk
  | .hdr c | .ek c | .ekCt1Ack c | .ct1 c | .ct2 c => some c
  | _ => .none

def varintLoop : Nat → UInt64 → Bytes
  | 0, _ => []
  | fuel + 1, v =>
    if v < 0x80 then [v.toUInt8]
    else ((v &&& 0x7F).toUInt8 ||| 0x80) :: varintLoop fuel (v >>> 7)

def appendVarint (b : Bytes) (v : UInt64) : Bytes := b ++ varintLoop 10 v

def readVarint : Nat → Nat → UInt64 → Bytes → Option (UInt64 × Nat)
  | 0, _, _, _ => none
  | _, _, _, [] => none
  | limit + 1, i, val, c :: rest =>
    let val' := val ||| ((c.toUInt64 &&& 0x7F) <<< (7 * i).toUInt64)
    if c &&& 0x80 = 0 then some (val', i + 1) else readVarint limit (i + 1) val' rest

def decodeVarint (b : Bytes) (at_ : Nat) : Option (UInt64 × Nat) :=
  (readVarint 10 0 0 (b.drop at_)).map fun vn => (vn.1, at_ + vn.2)

def serializeMessage (m : V1Message) (index : UInt32) : Bytes :=
  let out := appendVarint (appendVarint [versionByteV1] m.epoch) index.toUInt64
    ++ [msgTypeFor m.payload]
  match m.payload.chunk? with
  | some c => appendVarint out c.index.toUInt64 ++ c.data.toList
  | none => out

structure MessagePreamble where
  version : UInt8
  epoch : UInt64
  index : UInt32
  at_ : Nat
deriving DecidableEq, Repr

def deserializePreamble (b : Bytes) : Option MessagePreamble :=
  match b with
  | [] => some ⟨0, 0, 0, 0⟩
  | version :: _ => do
    let (epoch, at1) ← decodeVarint b 1
    if epoch = 0 then none
    else do
      let (index, at2) ← decodeVarint b at1
      if index > 0xFFFFFFFF then none
      else some ⟨version, epoch, index.toUInt32, at2⟩

def decodeChunk (b : Bytes) (at_ : Nat) : Option (Chunk × Nat) := do
  let (idx64, start) ← decodeVarint b at_
  if idx64 > 0xFFFF then none
  else
    let stop := start + chunkSize
    if stop > b.length then none
    else some (⟨idx64.toUInt16, Vector.ofFn fun k => b.getD (start + k) 0⟩, stop)

def decodePayload (b : Bytes) (mt : UInt8) (at_ : Nat) : Option (Payload × Nat) :=
  if mt = 0 then some (.none, at_)
  else if mt = 4 then some (.ct1Ack true, at_)
  else if mt = 1 then (decodeChunk b at_).map fun cn => (.hdr cn.1, cn.2)
  else if mt = 2 then (decodeChunk b at_).map fun cn => (.ek cn.1, cn.2)
  else if mt = 3 then (decodeChunk b at_).map fun cn => (.ekCt1Ack cn.1, cn.2)
  else if mt = 5 then (decodeChunk b at_).map fun cn => (.ct1 cn.1, cn.2)
  else if mt = 6 then (decodeChunk b at_).map fun cn => (.ct2 cn.1, cn.2)
  else none

def deserializeMessage (b : Bytes) : Option (V1Message × UInt32 × Nat) :=
  if b.length = 0 ∨ b.head? ≠ some versionByteV1 then none
  else do
    let preamble ← deserializePreamble b
    match b[preamble.at_]? with
    | none => none
    | some mt => do
      let (payload, at_) ← decodePayload b mt (preamble.at_ + 1)
      some (⟨preamble.epoch, payload⟩, preamble.index, at_)

/-! ## Varint round trip -/

lemma continued_byte (v : UInt64) : ((v &&& 0x7F).toUInt8 ||| 0x80).toNat = v.toNat % 128 + 128 := by
  have hmask : v.toNat % 256 &&& 127 = v.toNat % 128 :=
    (Nat.and_two_pow_sub_one_eq_mod (v.toNat % 256) 7).trans (Nat.mod_mod_of_dvd _ (by norm_num))
  have hlt : v.toNat % 128 < 2 ^ 7 := Nat.mod_lt _ (by norm_num)
  have hor : v.toNat % 128 ||| 128 = v.toNat % 128 + 128 := by
    have h := Nat.shiftLeft_add_eq_or_of_lt hlt 1
    rw [Nat.or_comm]
    simpa [Nat.shiftLeft_eq, add_comm] using h.symm
  simp
  rw [hmask, hor]

lemma fold_bits {val : UInt64} {c : UInt8} {i : Nat} (hval : val.toNat < 2 ^ (7 * i))
    (hfit : val.toNat + c.toNat % 128 * 2 ^ (7 * i) < 2 ^ 64) (hi : 7 * i < 64) :
    (val ||| ((c.toUInt64 &&& 0x7F) <<< (7 * i).toUInt64)).toNat = val.toNat + c.toNat % 128 * 2 ^ (7 * i) := by
  have hmask : c.toNat &&& 127 = c.toNat % 128 := Nat.and_two_pow_sub_one_eq_mod c.toNat 7
  have hi' : 7 * i % 18446744073709551616 % 64 = 7 * i := by
    rw [Nat.mod_eq_of_lt (show 7 * i < 18446744073709551616 by omega), Nat.mod_eq_of_lt hi]
  have hsh : ((c.toUInt64 &&& 0x7F) <<< (7 * i).toUInt64).toNat = (c.toNat % 128) <<< (7 * i) := by
    have hlt : c.toNat % 128 * 2 ^ (7 * i) < 2 ^ 64 := by omega
    simp only [UInt64.toNat_shiftLeft, UInt64.toNat_and, UInt8.toNat_toUInt64, Nat.toUInt64,
      UInt64.toNat_ofNat']
    simp only [Nat.reducePow, hi']
    change (c.toNat &&& 127) <<< (7 * i) % 2 ^ 64 = _
    rw [hmask, Nat.shiftLeft_eq, Nat.mod_eq_of_lt hlt]
  rw [UInt64.toNat_or, hsh, Nat.or_comm, ← Nat.shiftLeft_add_eq_or_of_lt hval, Nat.shiftLeft_eq]
  omega

lemma readVarint_varintLoop (fuel i : Nat) (val v : UInt64) (t : Bytes)
    (hval : val.toNat < 2 ^ (7 * i)) (hfit : val.toNat + v.toNat * 2 ^ (7 * i) < 2 ^ 64)
    (hfuel : v.toNat < 2 ^ (7 * fuel)) (hi : i + fuel ≤ 10) (hpos : 0 < fuel) :
    ∃ w, readVarint fuel i val (varintLoop fuel v ++ t) = some (w, i + (varintLoop fuel v).length) ∧
      w.toNat = val.toNat + v.toNat * 2 ^ (7 * i) := by
  induction fuel generalizing i val v with
  | zero => omega
  | succ fuel ih =>
    by_cases hsmall : v < 0x80
    · -- last byte: no continuation bit
      have hv : v.toNat < 128 := by simpa [UInt64.lt_iff_toNat_lt] using hsmall
      have hc : v.toUInt8.toNat = v.toNat := by simp; omega
      have hzero : v.toUInt8 &&& 0x80 = 0 := by
        apply UInt8.toNat_inj.mp
        have h128 : v.toNat &&& 128 = 0 := by
          have := Nat.and_two_pow v.toNat 7
          rw [Nat.testBit_lt_two_pow hv] at this
          simpa using this
        rw [UInt8.toNat_and, hc]
        exact h128
      have hmod : v.toUInt8.toNat % 128 = v.toNat := by rw [hc]; omega
      have hbits := fold_bits (c := v.toUInt8) hval (by rw [hmod]; exact hfit) (by omega)
      refine ⟨_, ?_, hbits.trans (by rw [hmod])⟩
      simp [varintLoop, readVarint, hsmall, hzero]
    · -- continued byte: seven bits now, the rest by the induction hypothesis
      have hv : 128 ≤ v.toNat := by simpa [UInt64.lt_iff_toNat_lt] using hsmall
      have hcn := continued_byte v
      have hmod : ((v &&& 0x7F).toUInt8 ||| 0x80).toNat % 128 = v.toNat % 128 := by
        rw [hcn]; omega
      have hne : ¬ ((v &&& 0x7F).toUInt8 ||| 0x80) &&& 0x80 = 0 := by
        intro h
        have hnat := congrArg UInt8.toNat h
        have hbit : (v.toNat % 128 + 128).testBit 7 = true := by
          have hlt : v.toNat % 128 < 2 ^ 7 := Nat.mod_lt _ (by norm_num)
          have h := Nat.testBit_two_pow_add_eq (v.toNat % 128) 7
          rw [Nat.testBit_lt_two_pow hlt] at h
          rw [Nat.add_comm]
          exact h
        rw [UInt8.toNat_and, hcn] at hnat
        have hand := Nat.and_two_pow (v.toNat % 128 + 128) 7
        rw [hbit] at hand
        simp only [Bool.toNat_true] at hand
        change (v.toNat % 128 + 128) &&& 2 ^ 7 = 0 at hnat
        omega
      have hpow : 2 ^ (7 * (i + 1)) = 2 ^ (7 * i) * 128 := by
        rw [show 7 * (i + 1) = 7 * i + 7 by ring, pow_add]
        norm_num
      have hfuel' : 2 ^ (7 * (fuel + 1)) = 2 ^ (7 * fuel) * 128 := by
        rw [show 7 * (fuel + 1) = 7 * fuel + 7 by ring, pow_add]
        norm_num
      have hsplit : v.toNat = v.toNat % 128 + 128 * (v.toNat / 128) := (Nat.mod_add_div _ _).symm
      have hshift : (v >>> 7).toNat = v.toNat / 128 := by
        simp [UInt64.toNat_shiftRight, Nat.shiftRight_eq_div_pow]
      have htotal : val.toNat + v.toNat % 128 * 2 ^ (7 * i)
          + v.toNat / 128 * 2 ^ (7 * (i + 1)) = val.toNat + v.toNat * 2 ^ (7 * i) := by
        conv_rhs => rw [hsplit]
        rw [hpow]
        ring
      have hbits := fold_bits (c := (v &&& 0x7F).toUInt8 ||| 0x80) hval
        (by rw [hmod]; omega) (by omega)
      rw [hmod] at hbits
      have hfpos : 0 < fuel := by
        by_contra h0
        have : fuel = 0 := by omega
        subst this
        simp at hfuel
        omega
      have hval' : val.toNat + v.toNat % 128 * 2 ^ (7 * i) < 2 ^ (7 * (i + 1)) := by
        have hm : v.toNat % 128 ≤ 127 := by omega
        have := Nat.mul_le_mul_right (2 ^ (7 * i)) hm
        rw [hpow]
        omega
      obtain ⟨w, hw, hwn⟩ := ih (i + 1) _ (v >>> 7) (by rw [hbits]; exact hval')
        (by rw [hbits, hshift, htotal]; exact hfit)
        (by rw [hshift]; rw [hfuel'] at hfuel; omega) (by omega) hfpos
      refine ⟨w, ?_, ?_⟩
      · simp only [varintLoop, if_neg hsmall, List.cons_append, readVarint, if_neg hne, hw, List.length_cons]
        congr 2
        omega
      · rw [hwn, hbits, hshift, htotal]

lemma decodeVarint_append (b : Bytes) (v : UInt64) (t : Bytes) :
    decodeVarint (appendVarint b v ++ t) b.length = some (v, (appendVarint b v).length) := by
  obtain ⟨w, hw, hwn⟩ := readVarint_varintLoop 10 0 0 v t (by simp) (by simpa using v.toNat_lt)
    (lt_of_lt_of_le v.toNat_lt (by norm_num)) (by omega) (by omega)
  have hwv : w = v := UInt64.toNat_inj.mp (by simpa using hwn)
  rw [decodeVarint, appendVarint, List.append_assoc, List.drop_left, hw, hwv]
  simp

/-! ## Message round trip -/

lemma decodeChunk_append (b : Bytes) (c : Chunk) (t : Bytes) :
    decodeChunk (appendVarint b c.index.toUInt64 ++ c.data.toList ++ t) b.length
      = some (c, (appendVarint b c.index.toUInt64 ++ c.data.toList).length) := by
  have hv := decodeVarint_append b c.index.toUInt64 (c.data.toList ++ t)
  have hidx : ¬ c.index.toUInt64 > 0xFFFF := by
    have := c.index.toNat_lt
    simp [UInt64.lt_iff_toNat_lt]
    omega
  have hlen : ¬ (appendVarint b c.index.toUInt64).length + chunkSize
      > (appendVarint b c.index.toUInt64 ++ (c.data.toList ++ t)).length := by
    simp [chunkSize]
  have hdata : (Vector.ofFn fun k : Fin 32 => (appendVarint b c.index.toUInt64
      ++ (c.data.toList ++ t)).getD ((appendVarint b c.index.toUInt64).length + k) 0) = c.data := by
    ext k hk
    rw [Vector.getElem_ofFn, List.getD_eq_getElem?_getD,
      List.getElem?_append_right (Nat.le_add_right _ _), Nat.add_sub_cancel_left,
      List.getElem?_append_left (by simpa using hk)]
    simp [hk]
  rw [List.append_assoc, decodeChunk, hv]
  simp only [Option.bind_eq_bind, Option.bind_some, if_neg hidx, if_neg hlen, hdata]
  simp [chunkSize]

def payloadBytes (p : Payload) : Bytes :=
  match p.chunk? with
  | some c => varintLoop 10 c.index.toUInt64 ++ c.data.toList
  | none => []

def headBytes (epoch : UInt64) (index : UInt32) : Bytes :=
  appendVarint (appendVarint [versionByteV1] epoch) index.toUInt64

lemma serializeMessage_eq (m : V1Message) (index : UInt32) : serializeMessage m index
      = headBytes m.epoch index ++ [msgTypeFor m.payload] ++ payloadBytes m.payload := by
  unfold serializeMessage payloadBytes headBytes
  cases m.payload.chunk? <;> simp [appendVarint]

lemma deserializePreamble_head {epoch : UInt64} (he : epoch ≠ 0) (index : UInt32) (t : Bytes) :
    deserializePreamble (headBytes epoch index ++ t)
      = some ⟨versionByteV1, epoch, index, (headBytes epoch index).length⟩ := by
  have h1 := decodeVarint_append [versionByteV1] epoch (varintLoop 10 index.toUInt64 ++ t)
  have h2 := decodeVarint_append (appendVarint [versionByteV1] epoch) index.toUInt64 t
  have hidx : ¬ index.toUInt64 > 0xFFFFFFFF := by
    have := index.toNat_lt
    simp [UInt64.lt_iff_toNat_lt]
    omega
  have hb : headBytes epoch index ++ t
      = versionByteV1 :: (varintLoop 10 epoch ++ (varintLoop 10 index.toUInt64 ++ t)) := by
    simp [headBytes, appendVarint]
  have hb' : appendVarint [versionByteV1] epoch ++ (varintLoop 10 index.toUInt64 ++ t)
      = versionByteV1 :: (varintLoop 10 epoch ++ (varintLoop 10 index.toUInt64 ++ t)) := by
    simp [appendVarint]
  rw [hb'] at h1
  change decodeVarint (headBytes epoch index ++ t) _ = _ at h2
  rw [hb] at h2
  rw [hb, deserializePreamble]
  simp only [List.length_singleton] at h1
  simp only [h1, Option.bind_eq_bind, Option.bind_some, if_neg he, h2, if_neg hidx]
  simp [headBytes]

lemma decodePayload_append (b : Bytes) (p : Payload) (t : Bytes) (hack : p ≠ .ct1Ack false) :
    decodePayload (b ++ payloadBytes p ++ t) (msgTypeFor p) b.length
      = some (p, (b ++ payloadBytes p).length) := by
  have hchunk := fun c => decodeChunk_append b c t
  simp only [appendVarint, List.append_assoc] at hchunk
  cases p with
  | none => simp [decodePayload, msgTypeFor, payloadBytes, Payload.chunk?]
  | ct1Ack ack =>
    cases ack with
    | true => simp [decodePayload, msgTypeFor, payloadBytes, Payload.chunk?]
    | false => exact absurd rfl hack
  | hdr c | ek c | ekCt1Ack c | ct1 c | ct2 c =>
    simp [decodePayload, msgTypeFor, payloadBytes, Payload.chunk?, hchunk]

variable {m : V1Message}

lemma deserializeMessage_serialize {m : V1Message} (he : m.epoch ≠ 0)
    (hack : m.payload ≠ .ct1Ack false) (index : UInt32) (t : Bytes) :
    deserializeMessage (serializeMessage m index ++ t)
      = some (m, index, (serializeMessage m index).length) := by
  have hpre := deserializePreamble_head he index
    ([msgTypeFor m.payload] ++ payloadBytes m.payload ++ t)
  have hpay := decodePayload_append (headBytes m.epoch index ++ [msgTypeFor m.payload]) m.payload t hack
  have hbytes : serializeMessage m index ++ t
      = headBytes m.epoch index ++ ([msgTypeFor m.payload] ++ payloadBytes m.payload ++ t) := by
    rw [serializeMessage_eq]
    simp
  have hhead : (headBytes m.epoch index).head? = some versionByteV1 := by
    simp [headBytes, appendVarint]
  have hfirst : (headBytes m.epoch index ++ ([msgTypeFor m.payload] ++ payloadBytes m.payload
      ++ t)).head? = some versionByteV1 := by
    rw [List.head?_append, hhead]
    rfl
  have hguard : ¬ ((headBytes m.epoch index ++ ([msgTypeFor m.payload] ++ payloadBytes m.payload
      ++ t)).length = 0 ∨ (headBytes m.epoch index ++ ([msgTypeFor m.payload]
      ++ payloadBytes m.payload ++ t)).head? ≠ some versionByteV1) := by
    rintro (h0 | h1)
    · rw [List.length_eq_zero_iff.mp h0] at hfirst
      cases hfirst
    · exact h1 hfirst
  have hmt : (headBytes m.epoch index ++ ([msgTypeFor m.payload] ++ payloadBytes m.payload
      ++ t))[(headBytes m.epoch index).length]? = some (msgTypeFor m.payload) := by
    simp
  simp only [List.length_append, List.length_singleton, List.append_assoc] at hpay
  simp only [List.append_assoc] at hmt hpre hguard hbytes
  rw [hbytes, deserializeMessage, if_neg hguard, hpre]
  simp only [Option.bind_eq_bind, Option.bind_some, hmt, hpay]
  simp [serializeMessage_eq]
  omega

lemma deserializePreamble_serialize (he : m.epoch ≠ 0) (index : UInt32) :
    ∃ n, deserializePreamble (serializeMessage m index) = some ⟨versionByteV1, m.epoch, index, n⟩ := by
  rw [serializeMessage_eq, List.append_assoc]
  exact ⟨_, deserializePreamble_head he index _⟩

lemma deserializePreamble_cons {v : UInt8} {rest : Bytes} {pre : MessagePreamble}
    (h : deserializePreamble (v :: rest) = some pre) : pre.version = v ∧ pre.epoch ≠ 0 := by
  rw [deserializePreamble] at h
  obtain ⟨⟨epoch, at1⟩, _, h⟩ := Option.bind_eq_some_iff.mp h
  dsimp only at h
  split at h
  · cases h
  · rename_i he
    obtain ⟨⟨index, at2⟩, _, h⟩ := Option.bind_eq_some_iff.mp h
    dsimp only at h
    split at h
    · cases h
    · cases h
      exact ⟨rfl, he⟩

lemma deserializeMessage_preamble {b : Bytes} {index : UInt32} {n : Nat}
    (h : deserializeMessage b = some (m, index, n)) :
    ∃ pre, deserializePreamble b = some pre ∧ pre.version = versionByteV1 ∧ pre.epoch = m.epoch ∧
      pre.index = index := by
  rw [deserializeMessage] at h
  split at h
  · cases h
  · rename_i hguard
    obtain ⟨pre, hpre, h⟩ := Option.bind_eq_some_iff.mp h
    split at h
    · cases h
    · obtain ⟨pn, hpay, h⟩ := Option.bind_eq_some_iff.mp h
      cases h
      refine ⟨pre, hpre, ?_, rfl, rfl⟩
      cases b with
      | nil => simp at hguard
      | cons v rest =>
        have hv : v = versionByteV1 := by simpa using hguard
        exact (deserializePreamble_cons hpre).1.trans hv

end LibSignal.Spqr
