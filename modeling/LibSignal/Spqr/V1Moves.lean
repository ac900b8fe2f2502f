import LibSignal.Lib.ExceptBind
import LibSignal.Spqr.V1Codec

/-!
# Moves of the v1 machine

What a step of the machine can do, for arbitrary inbound messages.
-/

namespace LibSignal.Spqr
open Chunked Crypto Lib

/-- The moves of the machine on an inbound message of its own epoch that stay in the epoch. -/
inductive RecvTag : Tag → Tag → Prop
  | stay (t : Tag) : RecvTag t t
  | firstCt1 : RecvTag .keysSampled .headerSent
  | lastCt1 : RecvTag .headerSent .ct1Received
  | firstCt2 : RecvTag .ct1Received .ekSentCt1Received
  | lastHdr : RecvTag .noHeaderReceived .headerReceived
  | acked : RecvTag .ct1Sampled .ct1Acknowledged
  | lastEk : RecvTag .ct1Sampled .ekReceivedCt1Sampled
  | ackedLastEk : RecvTag .ct1Sampled .ct2Sampled
  | ekThenAck : RecvTag .ekReceivedCt1Sampled .ct2Sampled
  | ackThenEk : RecvTag .ct1Acknowledged .ct2Sampled

def Tag.consumes : Tag → Payload → Bool
  | .keysSampled, .ct1 _ | .headerSent, .ct1 _ => true
  | .ct1Received, .ct2 _ | .ekSentCt1Received, .ct2 _ => true
  | .noHeaderReceived, .hdr _ => true
  | .ct1Sampled, .ek _ | .ct1Sampled, .ekCt1Ack _ => true
  | .ekReceivedCt1Sampled, .ct1Ack ack => ack
  | .ekReceivedCt1Sampled, .ekCt1Ack _ => true
  | .ct1Acknowledged, .ek _ | .ct1Acknowledged, .ekCt1Ack _ => true
  | _, _ => false

lemma toNat_epoch_succ {e : UInt64} (h : e.toNat + 1 < 2 ^ 64) : (e + 1).toNat = e.toNat + 1 := by
  rw [UInt64.toNat_add]
  exact Nat.mod_eq_of_lt h

section Moves
variable [Hash] [IncrementalKem]

namespace V1State

inductive SendMove (s s' : V1State) : Option EpochSecret → Prop
  | again (htag : s'.tag = s.tag) (hku : s.tag ≠ .keysUnsampled) (hhr : s.tag ≠ .headerReceived) :
      SendMove s s' none
  | sampleKeys (htag : s.tag = .keysUnsampled) (htag' : s'.tag = .keysSampled) : SendMove s s' none
  | sampleCt1 (htag : s.tag = .headerReceived) (htag' : s'.tag = .ct1Sampled) (secret : Bytes) :
      SendMove s s' (some ⟨s.epoch, secret⟩)

inductive RecvMove (s s' : V1State) (e : UInt64) : Option EpochSecret → Prop
  | inEpoch (htag : RecvTag s.tag s'.tag) (hepoch : s'.epoch = s.epoch) (hle : e ≤ s.epoch) :
      RecvMove s s' e none
  | nextEpoch (htag : s.tag = .ct2Sampled) (htag' : s'.tag = .keysUnsampled)
      (hmsg : e = s.epoch + 1) (hgt : s.epoch < e) (hepoch : s'.epoch = e) : RecvMove s s' e none
  | finish (htag : s.tag = .ekSentCt1Received) (htag' : s'.tag = .noHeaderReceived)
      (hmsg : e = s.epoch) (hepoch : s'.epoch = s.epoch + 1) (secret : Bytes) :
      RecvMove s s' e (some ⟨s.epoch, secret⟩)

omit [Hash] [IncrementalKem] in
lemma SendMove.tag_of_secret {s s' : V1State} {es : Option EpochSecret} (h : SendMove s s' es)
    (hes : es.isSome) : s.tag = .headerReceived := by
  cases h with
  | again => cases hes
  | sampleKeys => cases hes
  | sampleCt1 htag => exact htag

omit [Hash] [IncrementalKem] in
lemma RecvMove.tag_of_secret {s s' : V1State} {e : UInt64} {es : Option EpochSecret}
    (h : RecvMove s s' e es) (hes : es.isSome) : s.tag = .ekSentCt1Received := by
  cases h with
  | inEpoch => cases hes
  | nextEpoch => cases hes
  | finish htag => exact htag

omit [Hash] [IncrementalKem] in
lemma RecvMove.epoch_cases {s s' : V1State} {e : UInt64} {es : Option EpochSecret}
    (h : RecvMove s s' e es) : s'.epoch = s.epoch ∨ s'.epoch = s.epoch + 1 := by
  cases h with
  | inEpoch _ hepoch => exact .inl hepoch
  | nextEpoch _ _ hmsg _ hepoch => exact .inr (hepoch.trans hmsg)
  | finish _ _ _ hepoch => exact .inr hepoch

lemma sendHdrChunk_inv {epoch : UInt64} {auth : Authenticator} {rng : Reader} {r : SendStep}
    (h : sendHdrChunk epoch auth rng = .ok r) :
    ∃ seed keys enc, rng.read seedSize = some seed ∧ generateIncrementalKey seed = .ok keys ∧
      newEncoder (keys.pk1 ++ auth.macHdr epoch keys.pk1) = .ok enc ∧
      r = (.keysSampled epoch auth keys.pk2 keys.dk enc.nextChunk.2, .hdr enc.nextChunk.1, none) := by
  obtain ⟨seed, hseed, h⟩ := bind_eq_ok h
  obtain ⟨keys, hkeys, h⟩ := bind_eq_ok h
  obtain ⟨enc, henc, h⟩ := bind_eq_ok h
  refine ⟨seed, keys, enc, ?_, mapError_eq_ok hkeys, mapError_eq_ok henc, ?_⟩
  · rw [readFull] at hseed
    split at hseed <;> cases hseed
    assumption
  · cases h
    rfl

lemma sendCt1_inv {epoch : UInt64} {auth : Authenticator} {hdr : Bytes} {dec : Decoder} {rng : Reader}
    {r : SendStep} (h : sendCt1 epoch auth hdr dec rng = .ok r) :
    ∃ m res enc, rng.read 32 = some m ∧ encapsulate1Internal hdr m = .ok res ∧
      newEncoder res.ciphertext1 = .ok enc ∧
      r = (.ct1Sampled epoch (auth.update epoch (sckaKey res.sharedSecret epoch)) hdr res.encapsState
            res.ciphertext1 enc.nextChunk.2 dec, .ct1 enc.nextChunk.1,
          some ⟨epoch, sckaKey res.sharedSecret epoch⟩) := by
  obtain ⟨m, hm, h⟩ := bind_eq_ok h
  obtain ⟨res, hres, h⟩ := bind_eq_ok h
  obtain ⟨enc, henc, h⟩ := bind_eq_ok h
  refine ⟨m, res, enc, ?_, mapError_eq_ok hres, mapError_eq_ok henc, ?_⟩
  · rw [readFull] at hm
    split at hm <;> cases hm
    assumption
  · cases h
    rfl

lemma toCt2Sampled_inv {epoch : UInt64} {auth : Authenticator} {es ct1 ek : Bytes} {r : RecvStep}
    (h : toCt2Sampled epoch auth es ct1 ek = .ok r) : ∃ ct2 enc, encapsulate2 es ek = .ok ct2 ∧
      newEncoder (ct2 ++ auth.macCt epoch (ct1 ++ ct2)) = .ok enc ∧ r = (.ct2Sampled epoch auth enc, none) := by
  obtain ⟨ct2, hct2, h⟩ := bind_eq_ok h
  obtain ⟨enc, henc, h⟩ := bind_eq_ok h
  cases h
  exact ⟨ct2, enc, mapError_eq_ok hct2, mapError_eq_ok henc, rfl⟩

lemma finishCt2_inv {epoch : UInt64} {auth : Authenticator} {dk ct1 decoded : Bytes} {r : RecvStep}
    (h : finishCt2 epoch auth dk ct1 decoded = .ok r) :
    ∃ ss, decapsulateCompressedKey dk ct1 (decoded.take ciphertext2Size) = .ok ss ∧
      r = (.noHeaderReceived (epoch + 1) (auth.update epoch (sckaKey ss epoch)) (.empty hdrMsgSize),
          some ⟨epoch, sckaKey ss epoch⟩) := by
  obtain ⟨ss, hss, h⟩ := bind_eq_ok h
  obtain ⟨_, _, h⟩ := bind_eq_ok h
  obtain ⟨dec, hdec, h⟩ := bind_eq_ok h
  cases mapError_eq_ok hdec
  cases h
  exact ⟨ss, mapError_eq_ok hss, rfl⟩

omit [IncrementalKem] in
lemma finishHdr_inv {epoch : UInt64} {auth : Authenticator} {decoded : Bytes} {r : RecvStep}
    (h : finishHdr epoch auth decoded = .ok r) :
    r = (.headerReceived epoch auth (decoded.take publicKey1Size) (.empty publicKey2Size), none) := by
  obtain ⟨_, _, h⟩ := bind_eq_ok h
  obtain ⟨dec, hdec, h⟩ := bind_eq_ok h
  cases mapError_eq_ok hdec
  cases h
  rfl

lemma sendStep_move {s s' : V1State} {rng : Reader} {p : Payload} {key : Option EpochSecret}
    (h : s.sendStep rng = .ok (s', p, key)) : s'.epoch = s.epoch ∧ SendMove s s' key := by
  cases s with
  | keysUnsampled e a =>
    obtain ⟨_, _, _, _, _, _, hr⟩ := sendHdrChunk_inv h
    cases hr
    exact ⟨rfl, .sampleKeys rfl rfl⟩
  | headerReceived e a hdr dec =>
    obtain ⟨_, _, _, _, _, _, hr⟩ := sendCt1_inv h
    cases hr
    exact ⟨rfl, .sampleCt1 rfl rfl _⟩
  | _ =>
    cases h
    exact ⟨rfl, .again rfl (by simp [tag]) (by simp [tag])⟩

/-- The successful inbound steps: the message is ignored, or it moves one of the chunk streams. -/
inductive Recvs : V1State → V1Message → V1State → Option EpochSecret → Prop
  | ignore {s : V1State} {msg : V1Message} (hle : msg.epoch ≤ s.epoch)
      (hidle : msg.epoch = s.epoch → s.tag.consumes msg.payload = false) : Recvs s msg s none
  | firstCt1 {e a ek dk enc c enc'} (henc : newEncoder ek = .ok enc') :
      Recvs (keysSampled e a ek dk enc) ⟨e, .ct1 c⟩
        (headerSent e a ek dk enc' ((Decoder.empty ciphertext1Size).addChunk c)) none
  | moreCt1 {e a ek dk enc dec c} (hdec : (dec.addChunk c).decodedMessage = none) :
      Recvs (headerSent e a ek dk enc dec) ⟨e, .ct1 c⟩ (headerSent e a ek dk enc (dec.addChunk c)) none
  | lastCt1 {e a ek dk enc dec c ct1} (hdec : (dec.addChunk c).decodedMessage = some ct1) :
      Recvs (headerSent e a ek dk enc dec) ⟨e, .ct1 c⟩ (ct1Received e a ek dk ct1 enc) none
  | firstCt2 {e a ek dk ct1 enc c} :
      Recvs (ct1Received e a ek dk ct1 enc) ⟨e, .ct2 c⟩
        (ekSentCt1Received e a dk ct1 ((Decoder.empty ct2MsgSize).addChunk c)) none
  | moreCt2 {e a dk ct1 dec c} (hdec : (dec.addChunk c).decodedMessage = none) :
      Recvs (ekSentCt1Received e a dk ct1 dec) ⟨e, .ct2 c⟩
        (ekSentCt1Received e a dk ct1 (dec.addChunk c)) none
  | lastCt2 {e a dk ct1 dec c decoded ss}
      (hdec : (dec.addChunk c).decodedMessage = some decoded)
      (hss : decapsulateCompressedKey dk ct1 (decoded.take ciphertext2Size) = .ok ss) :
      Recvs (ekSentCt1Received e a dk ct1 dec) ⟨e, .ct2 c⟩
        (noHeaderReceived (e + 1) (a.update e (sckaKey ss e)) (.empty hdrMsgSize))
        (some ⟨e, sckaKey ss e⟩)
  | moreHdr {e a dec c} (hdec : (dec.addChunk c).decodedMessage = none) :
      Recvs (noHeaderReceived e a dec) ⟨e, .hdr c⟩ (noHeaderReceived e a (dec.addChunk c)) none
  | lastHdr {e a dec c decoded} (hdec : (dec.addChunk c).decodedMessage = some decoded) :
      Recvs (noHeaderReceived e a dec) ⟨e, .hdr c⟩
        (headerReceived e a (decoded.take publicKey1Size) (.empty publicKey2Size)) none
  | moreEk {e a hdr es ct1 enc dec c} (hdec : (dec.addChunk c).decodedMessage = none) :
      Recvs (ct1Sampled e a hdr es ct1 enc dec) ⟨e, .ek c⟩
        (ct1Sampled e a hdr es ct1 enc (dec.addChunk c)) none
  | acked {e a hdr es ct1 enc dec c} (hdec : (dec.addChunk c).decodedMessage = none) :
      Recvs (ct1Sampled e a hdr es ct1 enc dec) ⟨e, .ekCt1Ack c⟩
        (ct1Acknowledged e a hdr es ct1 (dec.addChunk c)) none
  | lastEk {e a hdr es ct1 enc dec c ek} (hdec : (dec.addChunk c).decodedMessage = some ek) :
      Recvs (ct1Sampled e a hdr es ct1 enc dec) ⟨e, .ek c⟩
        (ekReceivedCt1Sampled e a es ek ct1 enc) none
  | ackedLastEk {e a hdr es ct1 enc dec c ek ct2 enc'}
      (hdec : (dec.addChunk c).decodedMessage = some ek) (hct2 : encapsulate2 es ek = .ok ct2)
      (henc : newEncoder (ct2 ++ a.macCt e (ct1 ++ ct2)) = .ok enc') :
      Recvs (ct1Sampled e a hdr es ct1 enc dec) ⟨e, .ekCt1Ack c⟩ (ct2Sampled e a enc') none
  | ekThenAck {e a es ek ct1 enc p ct2 enc'} (hp : p = .ct1Ack true ∨ ∃ c, p = .ekCt1Ack c)
      (hct2 : encapsulate2 es ek = .ok ct2)
      (henc : newEncoder (ct2 ++ a.macCt e (ct1 ++ ct2)) = .ok enc') :
      Recvs (ekReceivedCt1Sampled e a es ek ct1 enc) ⟨e, p⟩ (ct2Sampled e a enc') none
  | moreEkAcked {e a hdr es ct1 dec p c} (hp : p = .ek c ∨ p = .ekCt1Ack c)
      (hdec : (dec.addChunk c).decodedMessage = none) :
      Recvs (ct1Acknowledged e a hdr es ct1 dec) ⟨e, p⟩
        (ct1Acknowledged e a hdr es ct1 (dec.addChunk c)) none
  | ackThenEk {e a hdr es ct1 dec p c ek ct2 enc'} (hp : p = .ek c ∨ p = .ekCt1Ack c)
      (hdec : (dec.addChunk c).decodedMessage = some ek) (hct2 : encapsulate2 es ek = .ok ct2)
      (henc : newEncoder (ct2 ++ a.macCt e (ct1 ++ ct2)) = .ok enc') :
      Recvs (ct1Acknowledged e a hdr es ct1 dec) ⟨e, p⟩ (ct2Sampled e a enc') none
  | nextEpoch {e a enc msg} (hgt : e < msg.epoch) (hnext : msg.epoch = e + 1) :
      Recvs (ct2Sampled e a enc) msg (keysUnsampled msg.epoch a) none

lemma Recvs.of_atEpoch {s s' : V1State} {msg : V1Message} {here : Except Err RecvStep}
    {key : Option EpochSecret} (h : s.atEpoch msg here = .ok (s', key))
    (hhere : msg.epoch = s.epoch → here = .ok (s', key) → Recvs s msg s' key) : Recvs s msg s' key := by
  rw [atEpoch] at h
  split at h
  · cases h
  · rename_i hle
    split at h
    · exact hhere (by assumption) h
    · rename_i hne
      cases h
      exact .ignore (UInt64.not_lt.mp hle) fun heq => absurd heq hne

/-- Inversion of the inbound step. -/
lemma recv_inv {s s' : V1State} {msg : V1Message} {key : Option EpochSecret}
    (h : s.recv msg = .ok (s', key)) : Recvs s msg s' key := by
  obtain ⟨me, p⟩ := msg
  have hnoop : ∀ {s : V1State}, me = s.epoch → s.tag.consumes p = false →
      (Except.ok (s, none) : Except Err RecvStep) = .ok (s', key) → Recvs s ⟨me, p⟩ s' key := by
    intro s he hidle hr
    cases hr
    exact .ignore (UInt64.le_of_eq he) fun _ => hidle
  cases s with
  | ct2Sampled e a enc =>
    rw [recv] at h
    split at h
    · rename_i hgt
      split at h
      · rename_i hnext
        cases h
        exact .nextEpoch hgt hnext
      · cases h
    · rename_i hle
      cases h
      exact .ignore (UInt64.not_lt.mp hle) fun _ => rfl
  | keysUnsampled e a | headerReceived e a hdr dec => exact .of_atEpoch h fun he hr => hnoop he rfl hr
  | keysSampled e a ek dk enc =>
    refine .of_atEpoch h fun he hr => ?_
    cases p with
    | ct1 c =>
      obtain ⟨dec, hdec, hr⟩ := bind_eq_ok hr
      obtain ⟨enc', henc, hr⟩ := bind_eq_ok hr
      cases mapError_eq_ok hdec
      cases hr
      cases he
      exact .firstCt1 (mapError_eq_ok henc)
    | _ => exact hnoop he rfl hr
  | headerSent e a ek dk enc dec =>
    refine .of_atEpoch h fun he hr => ?_
    cases p with
    | ct1 c =>
      cases he
      cases hr
      unfold recvCt1ChunkHeaderSent
      dsimp only
      split
      · exact .moreCt1 (by assumption)
      · exact .lastCt1 (by assumption)
    | _ => exact hnoop he rfl hr
  | ct1Received e a ek dk ct1 enc =>
    refine .of_atEpoch h fun he hr => ?_
    cases p with
    | ct2 c =>
      obtain ⟨dec, hdec, hr⟩ := bind_eq_ok hr
      cases mapError_eq_ok hdec
      cases hr
      cases he
      exact .firstCt2
    | _ => exact hnoop he rfl hr
  | ekSentCt1Received e a dk ct1 dec =>
    refine .of_atEpoch h fun he hr => ?_
    cases p with
    | ct2 c =>
      cases he
      change recvCt2ChunkEkSent me a dk ct1 dec c = _ at hr
      unfold recvCt2ChunkEkSent at hr
      dsimp only at hr
      split at hr
      · cases hr
        exact .moreCt2 (by assumption)
      · obtain ⟨ss, hss, hr⟩ := finishCt2_inv hr
        cases hr
        exact .lastCt2 (by assumption) hss
    | _ => exact hnoop he rfl hr
  | noHeaderReceived e a dec =>
    refine .of_atEpoch h fun he hr => ?_
    cases p with
    | hdr c =>
      cases he
      change recvHdrChunk me a dec c = _ at hr
      unfold recvHdrChunk at hr
      dsimp only at hr
      split at hr
      · cases hr
        exact .moreHdr (by assumption)
      · cases finishHdr_inv hr
        exact .lastHdr (by assumption)
    | _ => exact hnoop he rfl hr
  | ct1Sampled e a hdr es ct1 enc dec =>
    refine .of_atEpoch h fun he hr => ?_
    cases p with
    | ek c =>
      cases he
      change recvEkChunkCt1Sampled me a hdr es ct1 enc dec c false = _ at hr
      unfold recvEkChunkCt1Sampled at hr
      cases hdec : (dec.addChunk c).decodedMessage with
      | none =>
        simp only [hdec] at hr
        cases hr
        exact .moreEk hdec
      | some ek =>
        simp only [hdec] at hr
        obtain ⟨_, _, hr⟩ := bind_eq_ok hr
        cases hr
        exact .lastEk hdec
    | ekCt1Ack c =>
      cases he
      change recvEkChunkCt1Sampled me a hdr es ct1 enc dec c true = _ at hr
      unfold recvEkChunkCt1Sampled at hr
      cases hdec : (dec.addChunk c).decodedMessage with
      | none =>
        simp only [hdec] at hr
        cases hr
        exact .acked hdec
      | some ek =>
        simp only [hdec] at hr
        obtain ⟨_, _, hr⟩ := bind_eq_ok hr
        obtain ⟨ct2, enc', hct2, henc, hr⟩ := toCt2Sampled_inv hr
        cases hr
        exact .ackedLastEk hdec hct2 henc
    | _ => exact hnoop he rfl hr
  | ekReceivedCt1Sampled e a es ek ct1 enc =>
    refine .of_atEpoch h fun he hr => ?_
    cases p with
    | ekCt1Ack c =>
      cases he
      obtain ⟨ct2, enc', hct2, henc, hr⟩ := toCt2Sampled_inv hr
      cases hr
      exact .ekThenAck (.inr ⟨c, rfl⟩) hct2 henc
    | ct1Ack ack =>
      cases ack with
      | true =>
        cases he
        obtain ⟨ct2, enc', hct2, henc, hr⟩ := toCt2Sampled_inv hr
        cases hr
        exact .ekThenAck (.inl rfl) hct2 henc
      | false => exact hnoop he rfl hr
    | _ => exact hnoop he rfl hr
  | ct1Acknowledged e a hdr es ct1 dec =>
    refine .of_atEpoch h fun he hr => ?_
    have hcase : ∀ c, (p = .ek c ∨ p = .ekCt1Ack c) →
        recvEkChunkCt1Acknowledged e a hdr es ct1 dec c = .ok (s', key) →
        Recvs (ct1Acknowledged e a hdr es ct1 dec) ⟨me, p⟩ s' key := by
      intro c hp hr
      cases he
      unfold recvEkChunkCt1Acknowledged at hr
      dsimp only at hr
      split at hr
      · cases hr
        exact .moreEkAcked hp (by assumption)
      · obtain ⟨_, _, hr⟩ := bind_eq_ok hr
        obtain ⟨ct2, enc', hct2, henc, hr⟩ := toCt2Sampled_inv hr
        cases hr
        exact .ackThenEk hp (by assumption) hct2 henc
    cases p with
    | ek c => exact hcase c (.inl rfl) hr
    | ekCt1Ack c => exact hcase c (.inr rfl) hr
    | _ => exact hnoop he rfl hr

lemma recv_move {s s' : V1State} {msg : V1Message} {key : Option EpochSecret}
    (h : s.recv msg = .ok (s', key)) : RecvMove s s' msg.epoch key := by
  have hle : ∀ e : UInt64, e ≤ e := UInt64.le_refl
  cases recv_inv h with
  | ignore hle' => exact .inEpoch (.stay _) rfl hle'
  | firstCt1 => exact .inEpoch .firstCt1 rfl (hle _)
  | moreCt1 => exact .inEpoch (.stay .headerSent) rfl (hle _)
  | lastCt1 => exact .inEpoch .lastCt1 rfl (hle _)
  | firstCt2 => exact .inEpoch .firstCt2 rfl (hle _)
  | moreCt2 => exact .inEpoch (.stay .ekSentCt1Received) rfl (hle _)
  | lastCt2 => exact .finish rfl rfl rfl rfl _
  | moreHdr => exact .inEpoch (.stay .noHeaderReceived) rfl (hle _)
  | lastHdr => exact .inEpoch .lastHdr rfl (hle _)
  | moreEk => exact .inEpoch (.stay .ct1Sampled) rfl (hle _)
  | acked => exact .inEpoch .acked rfl (hle _)
  | lastEk => exact .inEpoch .lastEk rfl (hle _)
  | ackedLastEk => exact .inEpoch .ackedLastEk rfl (hle _)
  | ekThenAck => exact .inEpoch .ekThenAck rfl (hle _)
  | moreEkAcked => exact .inEpoch (.stay .ct1Acknowledged) rfl (hle _)
  | ackThenEk => exact .inEpoch .ackThenEk rfl (hle _)
  | nextEpoch hgt hnext => exact .nextEpoch rfl rfl hnext hgt rfl

/-! ## Well-formed states -/

def Serving (enc : Encoder) : Prop := ∃ b, enc.Serves b

/-- The decoder expects a message of `n` bytes. -/
def Expecting (dec : Decoder) (n : Nat) : Prop := dec.pointsNeeded = n / 2

/-- The sizes and streams of a state the machine builds. -/
def Wf : V1State → Prop
  | keysUnsampled _ _ => True
  | keysSampled _ _ ek _ enc => ek.length = publicKey2Size ∧ Serving enc
  | headerSent _ _ _ _ enc dec => Serving enc ∧ Expecting dec ciphertext1Size
  | ct1Received _ _ _ _ _ enc => Serving enc
  | ekSentCt1Received _ _ _ _ dec => Expecting dec ct2MsgSize
  | noHeaderReceived _ _ dec => Expecting dec hdrMsgSize
  | headerReceived _ _ hdr dec => hdr.length = publicKey1Size ∧ Expecting dec publicKey2Size
  | ct1Sampled _ _ _ _ _ enc dec => Serving enc ∧ Expecting dec publicKey2Size
  | ekReceivedCt1Sampled _ _ _ _ _ enc => Serving enc
  | ct1Acknowledged _ _ _ _ _ dec => Expecting dec publicKey2Size
  | ct2Sampled _ _ enc => Serving enc

omit [Hash] [IncrementalKem] in
lemma Serving.next {enc : Encoder} (h : Serving enc) : Serving enc.nextChunk.2 := by
  obtain ⟨b, hb⟩ := h
  obtain ⟨c, e', heq, _, _, he', _⟩ := hb.nextChunk
  rw [heq]
  exact ⟨b, he'⟩

omit [Hash] [IncrementalKem] in
lemma expecting_empty (n : Nat) : Expecting (.empty n) n := rfl

omit [Hash] [IncrementalKem] in
lemma Expecting.add {dec : Decoder} {n : Nat} (h : Expecting dec n) (c : Chunk) :
    Expecting (dec.addChunk c) n := by
  rw [Expecting, Decoder.addChunk_pointsNeeded]
  exact h

omit [Hash] [IncrementalKem] in
lemma Expecting.length {dec : Decoder} {n : Nat} (h : Expecting dec n) (hn : n % 2 = 0) {b : Bytes}
    (hb : dec.decodedMessage = some b) : b.length = n := by
  rw [Decoder.length_decodedMessage hb, h]
  omega

omit [Hash] [IncrementalKem] in
lemma serving_of_newEncoder {b : Bytes} {enc : Encoder} (h : newEncoder b = .ok enc)
    (hb : Transportable b.length) : Serving enc := by
  obtain ⟨e, he, hs, _⟩ := newEncoder_serves hb
  rw [h] at he
  cases he
  exact ⟨b, hs⟩

lemma serving_ct2 {epoch : UInt64} {auth : Authenticator} {es ct1 ek ct2 : Bytes} {enc : Encoder}
    (hct2 : encapsulate2 es ek = .ok ct2)
    (henc : newEncoder (ct2 ++ auth.macCt epoch (ct1 ++ ct2)) = .ok enc) : Serving enc := by
  refine serving_of_newEncoder henc ?_
  rw [List.length_append, encapsulate2_length _ _ _ hct2, Authenticator.length_macCt]
  decide

lemma sendStep_wf {s s' : V1State} {rng : Reader} {p : Payload} {key : Option EpochSecret}
    (hwf : s.Wf) (h : s.sendStep rng = .ok (s', p, key)) : s'.Wf := by
  cases s with
  | keysUnsampled e a =>
    obtain ⟨seed, keys, enc, hseed, hkeys, henc, hr⟩ := sendHdrChunk_inv h
    obtain ⟨k, hk, hpk1, hpk2⟩ := generate_ok seed (rng.read_length _ _ hseed)
    rw [hkeys] at hk
    cases hk
    cases hr
    refine ⟨hpk2, (serving_of_newEncoder henc ?_).next⟩
    rw [List.length_append, hpk1, Authenticator.length_macHdr]
    decide
  | headerReceived e a hdr dec =>
    obtain ⟨m, res, enc, _, hres, henc, hr⟩ := sendCt1_inv h
    obtain ⟨r, hr', hlen⟩ := encapsulate1_ok hdr m hwf.1
    rw [hres] at hr'
    cases hr'
    cases hr
    refine ⟨(serving_of_newEncoder henc ?_).next, hwf.2⟩
    rw [hlen]
    decide
  | keysSampled => cases h; exact ⟨hwf.1, hwf.2.next⟩
  | headerSent => cases h; exact ⟨hwf.1.next, hwf.2⟩
  | ct1Sampled => cases h; exact ⟨hwf.1.next, hwf.2⟩
  | ct1Received => cases h; exact Serving.next hwf
  | ekReceivedCt1Sampled => cases h; exact Serving.next hwf
  | ct2Sampled => cases h; exact Serving.next hwf
  | ekSentCt1Received | noHeaderReceived | ct1Acknowledged => cases h; exact hwf

lemma recv_wf {s s' : V1State} {msg : V1Message} {key : Option EpochSecret} (hwf : s.Wf)
    (h : s.recv msg = .ok (s', key)) : s'.Wf := by
  cases recv_inv h with
  | ignore => exact hwf
  | firstCt1 henc =>
    refine ⟨serving_of_newEncoder henc ?_, (expecting_empty _).add _⟩
    rw [hwf.1]
    decide
  | moreCt1 => exact ⟨hwf.1, hwf.2.add _⟩
  | lastCt1 => exact hwf.1
  | firstCt2 => exact (expecting_empty _).add _
  | moreCt2 => exact Expecting.add hwf _
  | lastCt2 => exact expecting_empty _
  | moreHdr => exact Expecting.add hwf _
  | lastHdr hdec =>
    have hlen := (Expecting.add hwf _).length (by decide) hdec
    refine ⟨?_, expecting_empty _⟩
    rw [List.length_take, hlen]
    decide
  | moreEk => exact ⟨hwf.1, hwf.2.add _⟩
  | acked => exact hwf.2.add _
  | lastEk => exact hwf.1
  | ackedLastEk _ hct2 henc => exact serving_ct2 hct2 henc
  | ekThenAck _ hct2 henc => exact serving_ct2 hct2 henc
  | moreEkAcked => exact Expecting.add hwf _
  | ackThenEk _ _ hct2 henc => exact serving_ct2 hct2 henc
  | nextEpoch => trivial

lemma sendHdrChunk_ok (e : UInt64) (a : Authenticator) {rng : Reader} (hread : (rng.read seedSize).isSome) :
    ∃ r, sendHdrChunk e a rng = .ok r := by
  obtain ⟨seed, hseed⟩ := Option.isSome_iff_exists.mp hread
  obtain ⟨k, hk, hpk1, _⟩ := generate_ok seed (rng.read_length _ _ hseed)
  have ht : Transportable (k.pk1 ++ a.macHdr e k.pk1).length := by
    rw [List.length_append, hpk1, Authenticator.length_macHdr]
    decide
  obtain ⟨enc, henc, _⟩ := newEncoder_serves ht
  refine ⟨(.keysSampled e a k.pk2 k.dk enc.nextChunk.2, .hdr enc.nextChunk.1, none), ?_⟩
  simp only [sendHdrChunk, readFull, hseed, hk, makeEncoder, henc, mapError_ok, ok_bind]
  rfl

lemma sendStep_ok {s : V1State} {rng : Reader} (hwf : s.Wf) (hrng : ∀ n, (rng.read n).isSome) :
    ∃ r, s.sendStep rng = .ok r := by
  cases s with
  | keysUnsampled e a => exact sendHdrChunk_ok e a (hrng seedSize)
  | headerReceived e a hdr dec =>
    obtain ⟨m, hm⟩ := Option.isSome_iff_exists.mp (hrng 32)
    obtain ⟨r, hr, hlen⟩ := encapsulate1_ok hdr m hwf.1
    have ht : Transportable r.ciphertext1.length := by rw [hlen]; decide
    obtain ⟨enc, henc, _⟩ := newEncoder_serves ht
    let secret := sckaKey r.sharedSecret e
    refine ⟨(.ct1Sampled e (a.update e secret) hdr r.encapsState r.ciphertext1 enc.nextChunk.2 dec,
      .ct1 enc.nextChunk.1, some ⟨e, secret⟩), ?_⟩
    simp only [sendStep, sendCt1, readFull, hm, hr, makeEncoder, henc, mapError_ok, ok_bind]
    rfl
  | _ => exact ⟨_, rfl⟩

/-! ## Stored form -/

omit [Hash] [IncrementalKem] in
/-- The encoder serves the same messages from the same index. -/
def EncLike (e e' : Encoder) : Prop := (∀ b, e.Serves b → e'.Serves b) ∧ e'.idx = e.idx

omit [Hash] [IncrementalKem] in
/-- States that differ in the representation of their encoders and in the encapsulation key that
`headerSent` and `ct1Received` keep in memory only. -/
inductive Like : V1State → V1State → Prop
  | keysUnsampled {e a} : Like (keysUnsampled e a) (keysUnsampled e a)
  | keysSampled {e a ek dk enc enc'} (henc : EncLike enc enc') :
      Like (keysSampled e a ek dk enc) (keysSampled e a ek dk enc')
  | headerSent {e a ek ek' dk enc enc' dec} (henc : EncLike enc enc') :
      Like (headerSent e a ek dk enc dec) (headerSent e a ek' dk enc' dec)
  | ct1Received {e a ek ek' dk ct1 enc enc'} (henc : EncLike enc enc') :
      Like (ct1Received e a ek dk ct1 enc) (ct1Received e a ek' dk ct1 enc')
  | ekSentCt1Received {e a dk ct1 dec} :
      Like (ekSentCt1Received e a dk ct1 dec) (ekSentCt1Received e a dk ct1 dec)
  | noHeaderReceived {e a dec} : Like (noHeaderReceived e a dec) (noHeaderReceived e a dec)
  | headerReceived {e a hdr dec} : Like (headerReceived e a hdr dec) (headerReceived e a hdr dec)
  | ct1Sampled {e a hdr es ct1 enc enc' dec} (henc : EncLike enc enc') :
      Like (ct1Sampled e a hdr es ct1 enc dec) (ct1Sampled e a hdr es ct1 enc' dec)
  | ekReceivedCt1Sampled {e a es ek ct1 enc enc'} (henc : EncLike enc enc') :
      Like (ekReceivedCt1Sampled e a es ek ct1 enc) (ekReceivedCt1Sampled e a es ek ct1 enc')
  | ct1Acknowledged {e a hdr es ct1 dec} :
      Like (ct1Acknowledged e a hdr es ct1 dec) (ct1Acknowledged e a hdr es ct1 dec)
  | ct2Sampled {e a enc enc'} (henc : EncLike enc enc') : Like (ct2Sampled e a enc) (ct2Sampled e a enc')

omit [Hash] [IncrementalKem] in
lemma Like.tag {s s' : V1State} (h : Like s s') : s'.tag = s.tag := by
  cases h <;> rfl

omit [Hash] [IncrementalKem] in
lemma Like.epoch {s s' : V1State} (h : Like s s') : s'.epoch = s.epoch := by
  cases h <;> rfl

omit [Hash] [IncrementalKem] in
lemma EncLike.serving {e e' : Encoder} (h : EncLike e e') (hs : Serving e) : Serving e' := by
  obtain ⟨b, hb⟩ := hs
  exact ⟨b, h.1 b hb⟩

omit [Hash] [IncrementalKem] in
lemma Like.wf {s s' : V1State} (h : Like s s') (hwf : s.Wf) : s'.Wf := by
  cases h with
  | keysSampled henc => exact ⟨hwf.1, henc.serving hwf.2⟩
  | headerSent henc => exact ⟨henc.serving hwf.1, hwf.2⟩
  | ct1Sampled henc => exact ⟨henc.serving hwf.1, hwf.2⟩
  | ct1Received henc => exact henc.serving hwf
  | ekReceivedCt1Sampled henc => exact henc.serving hwf
  | ct2Sampled henc => exact henc.serving hwf
  | _ => exact hwf

omit [Hash] [IncrementalKem] in
lemma Serving.reload {e : Encoder} (h : Serving e) :
    ∃ e', decEncoder (some (encoderToProto e)) = .ok e' ∧ EncLike e e' := by
  have hne : e.switched = true → ∀ p, e.polys p ≠ [] := by
    obtain ⟨b, ht, hrep⟩ := h
    intro hs p
    cases hrep with
    | points hs' => rw [hs] at hs'; cases hs'
    | polys _ _ hne => exact hne p (ht.full p)
  have hstored := encoderFromProto_toProto hne
  refine ⟨e.stored, by simp [decEncoder, required, hstored], ?_, rfl⟩
  rintro b hb
  obtain ⟨e', he', hserves, _⟩ := hb.reload
  rw [hstored] at he'
  cases he'
  exact hserves

omit [Hash] [IncrementalKem] in
lemma Expecting.reload {d : Decoder} {n : Nat} (h : Expecting d n) (hn : n < 2 ^ 32) :
    decDecoder (some (decoderToProto d)) = .ok d := by
  have hd : d.pointsNeeded < 2 ^ 32 := by rw [h]; omega
  simp [decDecoder, required, decoderFromProto_toProto hd]

omit [Hash] [IncrementalKem] in
lemma reload {s : V1State} (hwf : s.Wf) : ∃ s', v1StateFromProto (v1StateToProto s) = .ok s' ∧ Like s s' := by
  cases s with
  | keysUnsampled => exact ⟨_, rfl, .keysUnsampled⟩
  | keysSampled e a ek dk enc =>
    obtain ⟨enc', he, hl⟩ := hwf.2.reload
    exact ⟨_, by simp [v1StateToProto, v1StateFromProto, required, he, authFrom], .keysSampled hl⟩
  | headerSent e a ek dk enc dec =>
    obtain ⟨enc', he, hl⟩ := hwf.1.reload
    have hd := hwf.2.reload (by decide)
    exact ⟨headerSent e a [] dk enc' dec,
      by simp [v1StateToProto, v1StateFromProto, required, he, hd, authFrom], .headerSent hl⟩
  | ct1Received e a ek dk ct1 enc =>
    obtain ⟨enc', he, hl⟩ := Serving.reload hwf
    exact ⟨ct1Received e a [] dk ct1 enc',
      by simp [v1StateToProto, v1StateFromProto, required, he, authFrom], .ct1Received hl⟩
  | ekSentCt1Received e a dk ct1 dec =>
    have hd := Expecting.reload hwf (by decide)
    exact ⟨_, by simp [v1StateToProto, v1StateFromProto, required, hd, authFrom], .ekSentCt1Received⟩
  | noHeaderReceived e a dec =>
    have hd := Expecting.reload hwf (by decide)
    exact ⟨_, by simp [v1StateToProto, v1StateFromProto, required, hd, authFrom], .noHeaderReceived⟩
  | headerReceived e a hdr dec =>
    have hd := hwf.2.reload (by decide)
    exact ⟨_, by simp [v1StateToProto, v1StateFromProto, required, hd, authFrom], .headerReceived⟩
  | ct1Sampled e a hdr es ct1 enc dec =>
    obtain ⟨enc', he, hl⟩ := hwf.1.reload
    have hd := hwf.2.reload (by decide)
    exact ⟨_, by simp [v1StateToProto, v1StateFromProto, required, he, hd, authFrom], .ct1Sampled hl⟩
  | ekReceivedCt1Sampled e a es ek ct1 enc =>
    obtain ⟨enc', he, hl⟩ := Serving.reload hwf
    exact ⟨_, by simp [v1StateToProto, v1StateFromProto, required, he, authFrom], .ekReceivedCt1Sampled hl⟩
  | ct1Acknowledged e a hdr es ct1 dec =>
    have hd := Expecting.reload hwf (by decide)
    exact ⟨_, by simp [v1StateToProto, v1StateFromProto, required, hd, authFrom], .ct1Acknowledged⟩
  | ct2Sampled e a enc =>
    obtain ⟨enc', he, hl⟩ := Serving.reload hwf
    exact ⟨_, by simp [v1StateToProto, v1StateFromProto, required, he, authFrom], .ct2Sampled hl⟩

end V1State

end Moves

end LibSignal.Spqr
