import LibSignal.Lib.ExceptRel
import LibSignal.Spqr.V1Moves

/-!
# Machines that cannot be told apart

`Encoder.Twins` relates two encoders of one message at one index, whatever their representation, and
`V1State.Twin` two machine states that differ only in twin encoders and in the encapsulation key which
`headerSent` and `ct1Received` no longer read.
-/

namespace LibSignal.Spqr
open Chunked Crypto Lib

def Twins (e e' : Encoder) : Prop := (∃ b, e.Serves b ∧ e'.Serves b) ∧ e'.idx = e.idx

namespace Twins
variable {e e' e'' : Encoder}

lemma refl (h : V1State.Serving e) : Twins e e := by
  obtain ⟨b, hb⟩ := h
  exact ⟨⟨b, hb, hb⟩, rfl⟩

lemma trans_like (h : Twins e e') (hl : V1State.EncLike e' e'') : Twins e e'' := by
  obtain ⟨⟨b, hb, hb'⟩, hi⟩ := h
  exact ⟨⟨b, hb, hl.1 b hb'⟩, hl.2.trans hi⟩

lemma next (h : Twins e e') : e'.nextChunk.1 = e.nextChunk.1 ∧ Twins e.nextChunk.2 e'.nextChunk.2 := by
  obtain ⟨⟨b, hb, hb'⟩, hi⟩ := h
  obtain ⟨c, f, hc, ⟨_, hchunk⟩, hidx, hf, hfi⟩ := hb.nextChunk
  obtain ⟨c', f', hc', ⟨_, hchunk'⟩, hidx', hf', hfi'⟩ := hb'.nextChunk
  rw [hc, hc']
  refine ⟨?_, ⟨b, hf, hf'⟩, by rw [hfi, hfi', hi]⟩
  -- a chunk is determined by the message and its index
  change c' = c
  rw [hchunk, hchunk', hidx, hidx', hi]

end Twins

namespace V1State

/-- States that differ in twin encoders and in encapsulation keys that are no longer read. -/
inductive Twin : V1State → V1State → Prop
  | keysUnsampled {e a} : Twin (keysUnsampled e a) (keysUnsampled e a)
  | keysSampled {e a ek dk enc enc'} (henc : Twins enc enc') :
      Twin (keysSampled e a ek dk enc) (keysSampled e a ek dk enc')
  | headerSent {e a ek ek' dk enc enc' dec} (henc : Twins enc enc') :
      Twin (headerSent e a ek dk enc dec) (headerSent e a ek' dk enc' dec)
  | ct1Received {e a ek ek' dk ct1 enc enc'} (henc : Twins enc enc') :
      Twin (ct1Received e a ek dk ct1 enc) (ct1Received e a ek' dk ct1 enc')
  | ekSentCt1Received {e a dk ct1 dec} :
      Twin (ekSentCt1Received e a dk ct1 dec) (ekSentCt1Received e a dk ct1 dec)
  | noHeaderReceived {e a dec} : Twin (noHeaderReceived e a dec) (noHeaderReceived e a dec)
  | headerReceived {e a hdr dec} : Twin (headerReceived e a hdr dec) (headerReceived e a hdr dec)
  | ct1Sampled {e a hdr es ct1 enc enc' dec} (henc : Twins enc enc') :
      Twin (ct1Sampled e a hdr es ct1 enc dec) (ct1Sampled e a hdr es ct1 enc' dec)
  | ekReceivedCt1Sampled {e a es ek ct1 enc enc'} (henc : Twins enc enc') :
      Twin (ekReceivedCt1Sampled e a es ek ct1 enc) (ekReceivedCt1Sampled e a es ek ct1 enc')
  | ct1Acknowledged {e a hdr es ct1 dec} :
      Twin (ct1Acknowledged e a hdr es ct1 dec) (ct1Acknowledged e a hdr es ct1 dec)
  | ct2Sampled {e a enc enc'} (henc : Twins enc enc') : Twin (ct2Sampled e a enc) (ct2Sampled e a enc')

namespace Twin
variable {s t u : V1State}

lemma refl (hwf : s.Wf) : Twin s s := by
  cases s with
  | keysUnsampled => exact .keysUnsampled
  | keysSampled => exact .keysSampled (.refl hwf.2)
  | headerSent => exact .headerSent (.refl hwf.1)
  | ct1Received => exact .ct1Received (.refl hwf)
  | ekSentCt1Received => exact .ekSentCt1Received
  | noHeaderReceived => exact .noHeaderReceived
  | headerReceived => exact .headerReceived
  | ct1Sampled => exact .ct1Sampled (.refl hwf.1)
  | ekReceivedCt1Sampled => exact .ekReceivedCt1Sampled (.refl hwf)
  | ct1Acknowledged => exact .ct1Acknowledged
  | ct2Sampled => exact .ct2Sampled (.refl hwf)

lemma epoch (h : Twin s t) : t.epoch = s.epoch := by
  cases h <;> rfl

lemma trans_like (h : Twin s t) (hl : Like t u) : Twin s u := by
  cases h with
  | keysUnsampled => cases hl; exact .keysUnsampled
  | keysSampled h => cases hl with | keysSampled hl => exact .keysSampled (h.trans_like hl)
  | headerSent h => cases hl with | headerSent hl => exact .headerSent (h.trans_like hl)
  | ct1Received h => cases hl with | ct1Received hl => exact .ct1Received (h.trans_like hl)
  | ekSentCt1Received => cases hl; exact .ekSentCt1Received
  | noHeaderReceived => cases hl; exact .noHeaderReceived
  | headerReceived => cases hl; exact .headerReceived
  | ct1Sampled h => cases hl with | ct1Sampled hl => exact .ct1Sampled (h.trans_like hl)
  | ekReceivedCt1Sampled h =>
    cases hl with | ekReceivedCt1Sampled hl => exact .ekReceivedCt1Sampled (h.trans_like hl)
  | ct1Acknowledged => cases hl; exact .ct1Acknowledged
  | ct2Sampled h => cases hl with | ct2Sampled hl => exact .ct2Sampled (h.trans_like hl)

lemma wf (h : Twin s t) (hwf : s.Wf) : t.Wf := by
  have right : ∀ {e e' : Encoder}, Twins e e' → Serving e' := fun ⟨⟨b, _, hb⟩, _⟩ => ⟨b, hb⟩
  cases h with
  | keysSampled henc => exact ⟨hwf.1, right henc⟩
  | headerSent henc => exact ⟨right henc, hwf.2⟩
  | ct1Sampled henc => exact ⟨right henc, hwf.2⟩
  | ct1Received henc => exact right henc
  | ekReceivedCt1Sampled henc => exact right henc
  | ct2Sampled henc => exact right henc
  | _ => exact hwf

lemma reload (h : Twin s t) (hwf : s.Wf) : ∃ t', v1StateFromProto (v1StateToProto t) = .ok t' ∧ Twin s t' := by
  obtain ⟨t', ht', hl⟩ := V1State.reload (h.wf hwf)
  exact ⟨t', ht', h.trans_like hl⟩

section
variable [Hash] [IncrementalKem]

/-- Twin results of an outbound step: the same payload and secret. -/
def SendAlike (r r' : SendStep) : Prop := Twin r.1 r'.1 ∧ r.1.Wf ∧ r'.2 = r.2

/-- Twin results of an inbound step: the same secret. -/
def RecvAlike (r r' : RecvStep) : Prop := Twin r.1 r'.1 ∧ r.1.Wf ∧ r'.2 = r.2

omit [Hash] [IncrementalKem] in
lemma sendAlike_chunk {enc enc' : Encoder} (henc : Twins enc enc') (f g : Encoder → V1State)
    (pay : Chunk → Payload) (hf : ∀ {x y}, Twins x y → Twin (f x) (g y)) (hwf : (f enc.nextChunk.2).Wf) :
    SendAlike (f enc.nextChunk.2, pay enc.nextChunk.1, none)
      (g enc'.nextChunk.2, pay enc'.nextChunk.1, none) := by
  obtain ⟨hchunk, hnext⟩ := henc.next
  exact ⟨hf hnext, hwf, by rw [hchunk]⟩

lemma sendStep (h : Twin s t) (hwf : s.Wf) (rng : Reader) :
    Agree SendAlike (s.sendStep rng) (t.sendStep rng) := by
  -- states without an encoder are equal to their twin
  have hself : Agree SendAlike (s.sendStep rng) (s.sendStep rng) :=
    .self fun _ hr => ⟨.refl (sendStep_wf hwf hr), sendStep_wf hwf hr, rfl⟩
  have hnext : ∀ {s' p es}, s.sendStep rng = .ok (s', p, es) → s'.Wf := sendStep_wf hwf
  cases h with
  | keysSampled henc => exact .ok (sendAlike_chunk henc _ _ _ .keysSampled (hnext rfl))
  | headerSent henc => exact .ok (sendAlike_chunk henc _ _ _ .headerSent (hnext rfl))
  | ct1Received henc => exact .ok (sendAlike_chunk henc _ _ _ .ct1Received (hnext rfl))
  | ct1Sampled henc => exact .ok (sendAlike_chunk henc _ _ _ .ct1Sampled (hnext rfl))
  | ekReceivedCt1Sampled henc =>
    exact .ok (sendAlike_chunk henc _ _ _ .ekReceivedCt1Sampled (hnext rfl))
  | ct2Sampled henc => exact .ok (sendAlike_chunk henc _ _ _ .ct2Sampled (hnext rfl))
  | _ => exact hself

lemma send (h : Twin s t) (hwf : s.Wf) (rng : Reader) :
    Agree (fun r r' => Twin r.1 r'.1 ∧ r.1.Wf ∧ r'.2 = r.2) (s.send rng) (t.send rng) := by
  refine (h.sendStep hwf rng).bind ?_
  rintro ⟨s', p, es⟩ ⟨t', p', es'⟩ _ _ ⟨htw, hwf', heq⟩
  cases heq
  exact .ok ⟨htw, hwf', by rw [h.epoch]⟩

omit [Hash] [IncrementalKem] in
lemma atEpoch (h : Twin s t) (hwf : s.Wf) (msg : V1Message) {x y : Except Err RecvStep}
    (hxy : msg.epoch = s.epoch → Agree RecvAlike x y) :
    Agree RecvAlike (s.atEpoch msg x) (t.atEpoch msg y) := by
  rw [V1State.atEpoch, V1State.atEpoch, h.epoch]
  split
  · exact .error _
  · split
    · exact hxy ‹_›
    · exact .ok ⟨h, hwf, rfl⟩

lemma ekChunk {e : UInt64} {a : Authenticator} {hdr es ct1 : Bytes} {enc enc' : Encoder} {dec : Decoder}
    (henc : Twins enc enc') (hwf : (V1State.ct1Sampled e a hdr es ct1 enc dec).Wf) (chunk : Chunk) :
    Agree RecvAlike (recvEkChunkCt1Sampled e a hdr es ct1 enc dec chunk false)
      (recvEkChunkCt1Sampled e a hdr es ct1 enc' dec chunk false) := by
  unfold recvEkChunkCt1Sampled
  dsimp only
  cases (dec.addChunk chunk).decodedMessage with
  | none => exact .ok ⟨.ct1Sampled henc, ⟨hwf.1, hwf.2.add _⟩, rfl⟩
  | some ek => exact .sameBind fun _ _ => .ok ⟨.ekReceivedCt1Sampled henc, hwf.1, rfl⟩

lemma ekChunk_acked (e : UInt64) (a : Authenticator) (hdr es ct1 : Bytes) (enc enc' : Encoder)
    (dec : Decoder) (chunk : Chunk) : recvEkChunkCt1Sampled e a hdr es ct1 enc' dec chunk true =
      recvEkChunkCt1Sampled e a hdr es ct1 enc dec chunk true := by
  unfold recvEkChunkCt1Sampled
  dsimp only
  cases (dec.addChunk chunk).decodedMessage <;> rfl

lemma recv (h : Twin s t) (hwf : s.Wf) (msg : V1Message) : Agree RecvAlike (s.recv msg) (t.recv msg) := by
  have hself : Agree RecvAlike (s.recv msg) (s.recv msg) :=
    .self fun _ hr => ⟨.refl (recv_wf hwf hr), recv_wf hwf hr, rfl⟩
  have hidle : Agree RecvAlike (.ok (s, none) : Except Err RecvStep) (.ok (t, none)) :=
    .ok ⟨h, hwf, rfl⟩
  have hat := fun x y => h.atEpoch (x := x) (y := y) hwf msg
  obtain ⟨ep, pay⟩ := msg
  cases h with
  | keysSampled henc =>
    refine hat _ _ fun he => ?_
    cases pay with
    | ct1 chunk => simpa [V1State.recv, V1State.atEpoch, show ep = _ from he] using hself
    | _ => exact hidle
  | headerSent henc =>
    refine hat _ _ fun he => ?_
    cases pay with
    | ct1 chunk =>
      refine .ok ?_
      unfold recvCt1ChunkHeaderSent
      simp only
      split
      · exact ⟨.headerSent henc, ⟨hwf.1, hwf.2.add _⟩, rfl⟩
      · exact ⟨.ct1Received henc, hwf.1, rfl⟩
    | _ => exact hidle
  | ct1Received henc =>
    refine hat _ _ fun he => ?_
    cases pay with
    | ct2 chunk => simpa [V1State.recv, V1State.atEpoch, show ep = _ from he] using hself
    | _ => exact hidle
  | @ct1Sampled _ _ _ _ _ enc enc' _ henc =>
    refine hat _ _ fun he => ?_
    cases pay with
    | ek chunk => exact ekChunk henc hwf chunk
    | ekCt1Ack chunk =>
      dsimp only
      rw [ekChunk_acked _ _ _ _ _ enc enc']
      simpa [V1State.recv, V1State.atEpoch, show ep = _ from he] using hself
    | _ => exact hidle
  | ekReceivedCt1Sampled henc =>
    refine hat _ _ fun he => ?_
    cases pay with
    | ekCt1Ack chunk => simpa [V1State.recv, V1State.atEpoch, show ep = _ from he] using hself
    | ct1Ack b =>
      cases b with
      | true => simpa [V1State.recv, V1State.atEpoch, show ep = _ from he] using hself
      | false => exact hidle
    | _ => exact hidle
  | ct2Sampled henc =>
    rw [V1State.recv, V1State.recv]
    split
    · split
      · exact .ok ⟨.keysUnsampled, trivial, rfl⟩
      · exact .error _
    · exact hidle
  | _ => exact hself

end

end Twin

end V1State

end LibSignal.Spqr
