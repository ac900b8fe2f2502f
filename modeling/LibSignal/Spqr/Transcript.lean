import LibSignal.Spqr.V1Moves

/-!
# Transcripts of the key exchanges

A `Transcript` records what the two parties sampled in each epoch: the seed of the key pair and the coin of
the encapsulation.
-/

namespace LibSignal.Spqr
open Chunked Crypto Lib

structure Transcript where
  seed : Nat → Option Bytes
  coin : Nat → Option Bytes
  seed_length : ∀ n b, seed n = some b → b.length = seedSize
  coin_length : ∀ n b, coin n = some b → b.length = 32

namespace Transcript

def nothing : Transcript := ⟨fun _ => none, fun _ => none, by simp, by simp⟩

def withSeed (t : Transcript) (n : Nat) (b : Bytes) (hb : b.length = seedSize) : Transcript where
  seed := Function.update t.seed n (some b)
  coin := t.coin
  seed_length m x h := by
    by_cases hm : m = n
    · subst hm
      rw [Function.update_self] at h
      cases h
      exact hb
    · rw [Function.update_of_ne hm] at h
      exact t.seed_length m x h
  coin_length := t.coin_length

def withCoin (t : Transcript) (n : Nat) (b : Bytes) (hb : b.length = 32) : Transcript where
  seed := t.seed
  coin := Function.update t.coin n (some b)
  seed_length := t.seed_length
  coin_length m x h := by
    by_cases hm : m = n
    · subst hm
      rw [Function.update_self] at h
      cases h
      exact hb
    · rw [Function.update_of_ne hm] at h
      exact t.coin_length m x h

structure Extends (t t' : Transcript) : Prop where
  seed : ∀ n b, t.seed n = some b → t'.seed n = some b
  coin : ∀ n b, t.coin n = some b → t'.coin n = some b

lemma Extends.refl (t : Transcript) : t.Extends t := ⟨fun _ _ h => h, fun _ _ h => h⟩

lemma extends_withSeed {t : Transcript} {n : Nat} {b : Bytes} (hb : b.length = seedSize)
    (hn : t.seed n = none) : t.Extends (t.withSeed n b hb) := by
  refine ⟨fun m x h => ?_, fun _ _ h => h⟩
  have hm : m ≠ n := fun hm => by rw [hm, hn] at h; cases h
  exact (Function.update_of_ne hm _ _).trans h

lemma extends_withCoin {t : Transcript} {n : Nat} {b : Bytes} (hb : b.length = 32)
    (hn : t.coin n = none) : t.Extends (t.withCoin n b hb) := by
  refine ⟨fun _ _ h => h, fun m x h => ?_⟩
  have hm : m ≠ n := fun hm => by rw [hm, hn] at h; cases h
  exact (Function.update_of_ne hm _ _).trans h

section
variable [Hash] [IncrementalKem]

/-! ## What the transcript determines -/

def key (t : Transcript) (n : Nat) : Option IncrementalKey :=
  (t.seed n).bind fun seed => (generateIncrementalKey seed).toOption

def enc (t : Transcript) (n : Nat) : Option EncapsulationResult :=
  (t.key n).bind fun k => (t.coin n).bind fun m => (encapsulate1Internal k.pk1 m).toOption

def secret (t : Transcript) (n : Nat) : Option Bytes :=
  (t.enc n).map fun r => sckaKey r.sharedSecret (.ofNat n)

def auth (authKey : Bytes) (t : Transcript) : Nat → Option Authenticator
  | 0 => none
  | 1 => some (.new authKey 1)
  | n + 2 =>
    (auth authKey t (n + 1)).bind fun a =>
      (t.secret (n + 1)).map fun x => a.update (.ofNat (n + 1)) x

def hdrMsg (a : Authenticator) (e : UInt64) (pk1 : Bytes) : Bytes := pk1 ++ a.macHdr e pk1

def ct2Msg (a : Authenticator) (e : UInt64) (ct1 ct2 : Bytes) : Bytes :=
  ct2 ++ a.macCt e (ct1 ++ ct2)

variable {t t' : Transcript} {n : Nat} {authKey : Bytes}

variable {a : Authenticator} {k : IncrementalKey} {m : V1Message} {r : EncapsulationResult} {s s' : V1State}

omit [Hash] in
lemma Extends.key (h : t.Extends t') (hk : t.key n = some k) : t'.key n = some k := by
  obtain ⟨seed, hs, hk⟩ := Option.bind_eq_some_iff.mp hk
  rw [Transcript.key, h.seed n seed hs]
  exact hk

omit [Hash] in
lemma Extends.enc (h : t.Extends t') (hr : t.enc n = some r) : t'.enc n = some r := by
  obtain ⟨k, hk, hr⟩ := Option.bind_eq_some_iff.mp hr
  obtain ⟨m, hm, hr⟩ := Option.bind_eq_some_iff.mp hr
  rw [Transcript.enc, h.key hk, Option.bind_some, h.coin n m hm]
  exact hr

lemma Extends.secret (h : t.Extends t') {x : Bytes} (hx : t.secret n = some x) : t'.secret n = some x := by
  obtain ⟨r, hr, hx⟩ := Option.map_eq_some_iff.mp hx
  rw [Transcript.secret, h.enc hr, ← hx]
  rfl

lemma Extends.auth (h : t.Extends t') (ha : t.auth authKey n = some a) : t'.auth authKey n = some a := by
  induction n using Transcript.auth.induct generalizing a with
  | case1 => cases ha
  | case2 => exact ha
  | case3 n ih =>
    obtain ⟨a0, ha0, ha⟩ := Option.bind_eq_some_iff.mp ha
    obtain ⟨x, hx, ha⟩ := Option.map_eq_some_iff.mp ha
    rw [Transcript.auth, ih ha0, Option.bind_some, h.secret hx, ← ha]
    rfl

omit [Hash] in
lemma key_spec (hk : t.key n = some k) :
    (∃ seed, generateIncrementalKey seed = .ok k) ∧ k.pk1.length = publicKey1Size ∧
      k.pk2.length = publicKey2Size := by
  obtain ⟨seed, hs, hk⟩ := Option.bind_eq_some_iff.mp hk
  obtain ⟨k', hk', h1, h2⟩ := generate_ok seed (t.seed_length n seed hs)
  rw [hk'] at hk
  cases hk
  exact ⟨⟨seed, hk'⟩, h1, h2⟩

omit [Hash] in
lemma enc_spec (hK : IncrementalKem.Correct) (hr : t.enc n = some r) :
    ∃ k ct2, t.key n = some k ∧ r.ciphertext1.length = ciphertext1Size ∧
      encapsulate2 r.encapsState k.pk2 = .ok ct2 ∧ ct2.length = ciphertext2Size ∧
      decapsulateCompressedKey k.dk r.ciphertext1 ct2 = .ok r.sharedSecret := by
  obtain ⟨k, hk, hr⟩ := Option.bind_eq_some_iff.mp hr
  obtain ⟨m, hm, hr⟩ := Option.bind_eq_some_iff.mp hr
  obtain ⟨⟨seed, hseed⟩, h1, _⟩ := key_spec hk
  obtain ⟨r', hr', hlen⟩ := encapsulate1_ok k.pk1 m h1
  rw [hr'] at hr
  cases hr
  obtain ⟨ct2, hct2, hdec⟩ := hK.exchange seed k m r (t.coin_length n m hm) hseed hr'
  exact ⟨k, ct2, hk, hlen, hct2, encapsulate2_length _ _ _ hct2, hdec⟩

lemma auth_succ (hn : 1 ≤ n) (ha : t.auth authKey n = some a) (hr : t.enc n = some r) :
    t.auth authKey (n + 1) = some (a.update (.ofNat n) (sckaKey r.sharedSecret (.ofNat n))) := by
  obtain ⟨m, rfl⟩ : ∃ m, n = m + 1 := ⟨n - 1, by omega⟩
  rw [auth, ha, Option.bind_some, secret, hr]
  rfl

/-! ## States and messages of the exchange -/

/-- The state holds the data of the transcript. -/
def Follows (authKey : Bytes) (t : Transcript) : V1State → Prop
  | .keysUnsampled e a => t.auth authKey e.toNat = some a
  | .keysSampled e a ek dk snd =>
    t.auth authKey e.toNat = some a ∧ ∃ k, t.key e.toNat = some k ∧ ek = k.pk2 ∧ dk = k.dk ∧
      snd.Serves (hdrMsg a e k.pk1)
  | .headerSent e a _ dk snd rcv =>
    t.auth authKey e.toNat = some a ∧ ∃ k r, t.key e.toNat = some k ∧ t.enc e.toNat = some r ∧
      dk = k.dk ∧ snd.Serves k.pk2 ∧ rcv.Gathers r.ciphertext1
  | .ct1Received e a _ dk ct1 snd =>
    t.auth authKey e.toNat = some a ∧ ∃ k r, t.key e.toNat = some k ∧ t.enc e.toNat = some r ∧
      dk = k.dk ∧ ct1 = r.ciphertext1 ∧ snd.Serves k.pk2
  | .ekSentCt1Received e a dk ct1 rcv =>
    t.auth authKey e.toNat = some a ∧ ∃ k r ct2 a', t.key e.toNat = some k ∧
      t.enc e.toNat = some r ∧ t.auth authKey (e.toNat + 1) = some a' ∧ dk = k.dk ∧
      ct1 = r.ciphertext1 ∧ encapsulate2 r.encapsState k.pk2 = .ok ct2 ∧
      rcv.Gathers (ct2Msg a' e r.ciphertext1 ct2)
  | .noHeaderReceived e a rcv =>
    t.auth authKey e.toNat = some a ∧
      (rcv = .empty hdrMsgSize ∨ ∃ k, t.key e.toNat = some k ∧ rcv.Gathers (hdrMsg a e k.pk1))
  | .headerReceived e a hdr rcv =>
    t.auth authKey e.toNat = some a ∧ ∃ k, t.key e.toNat = some k ∧ hdr = k.pk1 ∧ rcv.Gathers k.pk2
  | .ct1Sampled e a hdr es ct1 snd rcv =>
    t.auth authKey (e.toNat + 1) = some a ∧ ∃ k r, t.key e.toNat = some k ∧ t.enc e.toNat = some r ∧
      hdr = k.pk1 ∧ es = r.encapsState ∧ ct1 = r.ciphertext1 ∧ snd.Serves r.ciphertext1 ∧
      rcv.Gathers k.pk2
  | .ekReceivedCt1Sampled e a es ek ct1 snd =>
    t.auth authKey (e.toNat + 1) = some a ∧ ∃ k r, t.key e.toNat = some k ∧ t.enc e.toNat = some r ∧
      es = r.encapsState ∧ ek = k.pk2 ∧ ct1 = r.ciphertext1 ∧ snd.Serves r.ciphertext1
  | .ct1Acknowledged e a hdr es ct1 rcv =>
    t.auth authKey (e.toNat + 1) = some a ∧ ∃ k r, t.key e.toNat = some k ∧ t.enc e.toNat = some r ∧
      hdr = k.pk1 ∧ es = r.encapsState ∧ ct1 = r.ciphertext1 ∧ rcv.Gathers k.pk2
  | .ct2Sampled e a snd =>
    t.auth authKey (e.toNat + 1) = some a ∧ ∃ k r ct2, t.key e.toNat = some k ∧
      t.enc e.toNat = some r ∧ encapsulate2 r.encapsState k.pk2 = .ok ct2 ∧
      snd.Serves (ct2Msg a e r.ciphertext1 ct2)

/-- The message holds data of the transcript. -/
def Carries (authKey : Bytes) (t : Transcript) (m : V1Message) : Prop :=
  match m.payload with
  | .none => True
  | .ct1Ack b => b = true
  | .hdr c => ∃ a k, t.auth authKey m.epoch.toNat = some a ∧ t.key m.epoch.toNat = some k ∧
      IsChunk (hdrMsg a m.epoch k.pk1) c
  | .ek c | .ekCt1Ack c => ∃ k, t.key m.epoch.toNat = some k ∧ IsChunk k.pk2 c
  | .ct1 c => ∃ r, t.enc m.epoch.toNat = some r ∧ IsChunk r.ciphertext1 c
  | .ct2 c => ∃ a k r ct2, t.auth authKey (m.epoch.toNat + 1) = some a ∧
      t.key m.epoch.toNat = some k ∧ t.enc m.epoch.toNat = some r ∧
      encapsulate2 r.encapsState k.pk2 = .ok ct2 ∧ IsChunk (ct2Msg a m.epoch r.ciphertext1 ct2) c

lemma Follows.mono (hx : t.Extends t') (h : t.Follows authKey s) : t'.Follows authKey s := by
  cases s with
  | keysUnsampled => exact hx.auth h
  | keysSampled =>
    obtain ⟨ha, k, hk, h⟩ := h
    exact ⟨hx.auth ha, k, hx.key hk, h⟩
  | headerSent =>
    obtain ⟨ha, k, r, hk, hr, h⟩ := h
    exact ⟨hx.auth ha, k, r, hx.key hk, hx.enc hr, h⟩
  | ct1Received =>
    obtain ⟨ha, k, r, hk, hr, h⟩ := h
    exact ⟨hx.auth ha, k, r, hx.key hk, hx.enc hr, h⟩
  | ekSentCt1Received =>
    obtain ⟨ha, k, r, ct2, a', hk, hr, ha', h⟩ := h
    exact ⟨hx.auth ha, k, r, ct2, a', hx.key hk, hx.enc hr, hx.auth ha', h⟩
  | noHeaderReceived =>
    obtain ⟨ha, hnew | ⟨k, hk, h⟩⟩ := h
    · exact ⟨hx.auth ha, .inl hnew⟩
    · exact ⟨hx.auth ha, .inr ⟨k, hx.key hk, h⟩⟩
  | headerReceived =>
    obtain ⟨ha, k, hk, h⟩ := h
    exact ⟨hx.auth ha, k, hx.key hk, h⟩
  | ct1Sampled =>
    obtain ⟨ha, k, r, hk, hr, h⟩ := h
    exact ⟨hx.auth ha, k, r, hx.key hk, hx.enc hr, h⟩
  | ekReceivedCt1Sampled =>
    obtain ⟨ha, k, r, hk, hr, h⟩ := h
    exact ⟨hx.auth ha, k, r, hx.key hk, hx.enc hr, h⟩
  | ct1Acknowledged =>
    obtain ⟨ha, k, r, hk, hr, h⟩ := h
    exact ⟨hx.auth ha, k, r, hx.key hk, hx.enc hr, h⟩
  | ct2Sampled =>
    obtain ⟨ha, k, r, ct2, hk, hr, h⟩ := h
    exact ⟨hx.auth ha, k, r, ct2, hx.key hk, hx.enc hr, h⟩

lemma Carries.mono (hx : t.Extends t') (h : t.Carries authKey m) : t'.Carries authKey m := by
  obtain ⟨e, p⟩ := m
  cases p with
  | none => trivial
  | ct1Ack b => exact h
  | hdr c =>
    obtain ⟨a, k, ha, hk, hc⟩ := h
    exact ⟨a, k, hx.auth ha, hx.key hk, hc⟩
  | ek c =>
    obtain ⟨k, hk, hc⟩ := h
    exact ⟨k, hx.key hk, hc⟩
  | ekCt1Ack c =>
    obtain ⟨k, hk, hc⟩ := h
    exact ⟨k, hx.key hk, hc⟩
  | ct1 c =>
    obtain ⟨r, hr, hc⟩ := h
    exact ⟨r, hx.enc hr, hc⟩
  | ct2 c =>
    obtain ⟨a, k, r, ct2, ha, hk, hr, hc⟩ := h
    exact ⟨a, k, r, ct2, hx.auth ha, hx.key hk, hx.enc hr, hc⟩

lemma Follows.of_like (hl : V1State.Like s s') (h : t.Follows authKey s) : t.Follows authKey s' := by
  cases hl with
  | keysSampled he =>
    obtain ⟨ha, k, hk, h1, h2, hs⟩ := h
    exact ⟨ha, k, hk, h1, h2, he.1 _ hs⟩
  | headerSent he =>
    obtain ⟨ha, k, r, hk, hr, h1, hs, hd⟩ := h
    exact ⟨ha, k, r, hk, hr, h1, he.1 _ hs, hd⟩
  | ct1Received he =>
    obtain ⟨ha, k, r, hk, hr, h1, h2, hs⟩ := h
    exact ⟨ha, k, r, hk, hr, h1, h2, he.1 _ hs⟩
  | ct1Sampled he =>
    obtain ⟨ha, k, r, hk, hr, h1, h2, h3, hs, hd⟩ := h
    exact ⟨ha, k, r, hk, hr, h1, h2, h3, he.1 _ hs, hd⟩
  | ekReceivedCt1Sampled he =>
    obtain ⟨ha, k, r, hk, hr, h1, h2, h3, hs⟩ := h
    exact ⟨ha, k, r, hk, hr, h1, h2, h3, he.1 _ hs⟩
  | ct2Sampled he =>
    obtain ⟨ha, k, r, ct2, hk, hr, h1, hs⟩ := h
    exact ⟨ha, k, r, ct2, hk, hr, h1, he.1 _ hs⟩
  | _ => exact h

/-! ## One step of an honest party -/

lemma auth_pos (ha : t.auth authKey n = some a) : 1 ≤ n := by
  cases n with
  | zero => cases ha
  | succ n => omega

omit [Hash] in
lemma key_withSeed {seed : Bytes} (hb : seed.length = seedSize) (hk : generateIncrementalKey seed = .ok k) :
    (t.withSeed n seed hb).key n = some k := by
  have hs : (t.withSeed n seed hb).seed n = some seed := Function.update_self _ _ _
  rw [key, hs, Option.bind_some, hk]
  rfl

omit [Hash] in
lemma enc_withCoin {m : Bytes} (hb : m.length = 32) (hk : t.key n = some k)
    (hr : encapsulate1Internal k.pk1 m = .ok r) : (t.withCoin n m hb).enc n = some r := by
  have hk' : (t.withCoin n m hb).key n = some k := hk
  have hm : (t.withCoin n m hb).coin n = some m := Function.update_self _ _ _
  rw [enc, hk', Option.bind_some, hm, Option.bind_some, hr]
  rfl

/-- What a send may add to the transcript: a seed when the keys are sampled, a coin when the first
ciphertext part is. -/
structure Samples (s : V1State) (t t' : Transcript) : Prop where
  extend : t.Extends t'
  seed : ∀ n, (n = s.epoch.toNat → s.tag ≠ .keysUnsampled) → t'.seed n = t.seed n
  coin : ∀ n, (n = s.epoch.toNat → s.tag ≠ .headerReceived) → t'.coin n = t.coin n

omit [Hash] [IncrementalKem] in
lemma Samples.refl (s : V1State) (t : Transcript) : Samples s t t :=
  ⟨.refl t, fun _ _ => rfl, fun _ _ => rfl⟩

lemma Follows.send {rng : Reader} {p : Payload} {es : Option EpochSecret} (h : t.Follows authKey s)
    (hseed : s.tag = .keysUnsampled → t.seed s.epoch.toNat = none)
    (hcoin : s.tag = .headerReceived → t.coin s.epoch.toNat = none) (hstep : s.sendStep rng = .ok (s', p, es)) :
    ∃ t', Samples s t t' ∧ t'.Follows authKey s' ∧ t'.Carries authKey ⟨s.epoch, p⟩ ∧
      ∀ x, es = some x → t'.secret s.epoch.toNat = some x.secret := by
  cases s with
  | keysUnsampled e a =>
    obtain ⟨seed, k, snd, hread, hk, hsnd, hr⟩ := V1State.sendHdrChunk_inv hstep
    cases hr
    have hlen := rng.read_length _ _ hread
    have hx : t.Extends (t.withSeed e.toNat seed hlen) := extends_withSeed hlen (hseed rfl)
    have hkey : (t.withSeed e.toNat seed hlen).key e.toNat = some k := key_withSeed hlen hk
    have ht : Transportable (hdrMsg a e k.pk1).length := by
      rw [hdrMsg, List.length_append, (key_spec hkey).2.1, Authenticator.length_macHdr]
      decide
    obtain ⟨snd', hsnd', hserves, _⟩ := newEncoder_serves ht
    rw [show newEncoder (hdrMsg a e k.pk1) = .ok snd from hsnd] at hsnd'
    cases hsnd'
    obtain ⟨c, snd', hnext, hc, _, hserves', _⟩ := hserves.nextChunk
    rw [hnext]
    refine ⟨_, ⟨hx, fun m hm => ?_, fun _ _ => rfl⟩,
      ⟨hx.auth h, k, hkey, rfl, rfl, hserves'⟩, ⟨a, k, hx.auth h, hkey, hc⟩, by simp⟩
    exact Function.update_of_ne (fun heq => hm heq rfl) _ _
  | keysSampled e a ek dk snd =>
    obtain ⟨ha, k, hk, h1, h2, hs⟩ := h
    obtain ⟨c, snd', hnext, hc, _, hs', _⟩ := hs.nextChunk
    simp only [V1State.sendStep, hnext] at hstep
    cases hstep
    exact ⟨t, .refl _ t, ⟨ha, k, hk, h1, h2, hs'⟩, ⟨a, k, ha, hk, hc⟩, by simp⟩
  | headerSent e a ek dk snd rcv =>
    obtain ⟨ha, k, r, hk, hr, h1, hs, hd⟩ := h
    obtain ⟨c, snd', hnext, hc, _, hs', _⟩ := hs.nextChunk
    simp only [V1State.sendStep, hnext] at hstep
    cases hstep
    exact ⟨t, .refl _ t, ⟨ha, k, r, hk, hr, h1, hs', hd⟩, ⟨k, hk, hc⟩, by simp⟩
  | ct1Received e a ek dk ct1 snd =>
    obtain ⟨ha, k, r, hk, hr, h1, h2, hs⟩ := h
    obtain ⟨c, snd', hnext, hc, _, hs', _⟩ := hs.nextChunk
    simp only [V1State.sendStep, hnext] at hstep
    cases hstep
    exact ⟨t, .refl _ t, ⟨ha, k, r, hk, hr, h1, h2, hs'⟩, ⟨k, hk, hc⟩, by simp⟩
  | ekSentCt1Received e a dk ct1 rcv =>
    cases hstep
    exact ⟨t, .refl _ t, h, rfl, by simp⟩
  | noHeaderReceived e a rcv =>
    cases hstep
    exact ⟨t, .refl _ t, h, trivial, by simp⟩
  | headerReceived e a hdr rcv =>
    obtain ⟨ha, k, hk, rfl, hd⟩ := h
    obtain ⟨m, r, snd, hread, hr, hsnd, heq⟩ := V1State.sendCt1_inv hstep
    cases heq
    have hlen := rng.read_length _ _ hread
    have hx : t.Extends (t.withCoin e.toNat m hlen) := extends_withCoin hlen (hcoin rfl)
    have henc : (t.withCoin e.toNat m hlen).enc e.toNat = some r := enc_withCoin hlen hk hr
    obtain ⟨r', hr', hct1⟩ := encapsulate1_ok k.pk1 m (key_spec hk).2.1
    rw [hr] at hr'
    cases hr'
    obtain ⟨snd', hsnd', hserves, _⟩ := newEncoder_serves
      (show Transportable r.ciphertext1.length by rw [hct1]; decide)
    rw [hsnd] at hsnd'
    cases hsnd'
    obtain ⟨c, snd', hnext, hc, _, hserves', _⟩ := hserves.nextChunk
    rw [hnext]
    have ha' := auth_succ (auth_pos ha) (hx.auth ha) henc
    simp only [UInt64.ofNat_toNat] at ha'
    refine ⟨t.withCoin e.toNat m hlen, ⟨hx, fun _ _ => rfl, fun m hm => ?_⟩,
      ⟨ha', k, r, hx.key hk, henc, rfl, rfl, rfl, hserves', hd⟩, ⟨r, henc, hc⟩, ?_⟩
    · exact Function.update_of_ne (fun heq => hm heq rfl) _ _
    · intro x hx
      cases hx
      change (t.withCoin e.toNat m hlen).secret e.toNat = _
      rw [secret, henc]
      simp
  | ct1Sampled e a hdr es ct1 snd rcv =>
    obtain ⟨ha, k, r, hk, hr, h1, h2, h3, hs, hd⟩ := h
    obtain ⟨c, snd', hnext, hc, _, hs', _⟩ := hs.nextChunk
    simp only [V1State.sendStep, hnext] at hstep
    cases hstep
    exact ⟨t, .refl _ t, ⟨ha, k, r, hk, hr, h1, h2, h3, hs', hd⟩, ⟨r, hr, hc⟩, by simp⟩
  | ekReceivedCt1Sampled e a es ek ct1 snd =>
    obtain ⟨ha, k, r, hk, hr, h1, h2, h3, hs⟩ := h
    obtain ⟨c, snd', hnext, hc, _, hs', _⟩ := hs.nextChunk
    simp only [V1State.sendStep, hnext] at hstep
    cases hstep
    exact ⟨t, .refl _ t, ⟨ha, k, r, hk, hr, h1, h2, h3, hs'⟩, ⟨r, hr, hc⟩, by simp⟩
  | ct1Acknowledged e a hdr es ct1 rcv =>
    cases hstep
    exact ⟨t, .refl _ t, h, trivial, by simp⟩
  | ct2Sampled e a snd =>
    obtain ⟨ha, k, r, ct2, hk, hr, hct2, hs⟩ := h
    obtain ⟨c, snd', hnext, hc, _, hs', _⟩ := hs.nextChunk
    simp only [V1State.sendStep, hnext] at hstep
    cases hstep
    exact ⟨t, .refl _ t, ⟨ha, k, r, ct2, hk, hr, hct2, hs'⟩, ⟨a, k, r, ct2, ha, hk, hr, hct2, hc⟩,
      by simp⟩

/-! The inbound transitions, one by one. Each lemma says that the transition succeeds, and which of its two
outcomes it has: the chunk stream goes on, or it is complete. -/

section Recv
variable {e : UInt64} {a : Authenticator} {c : Chunk}

variable {ct1 dk ek : Bytes} {k : IncrementalKey} {rcv : Decoder} {snd : Encoder}

lemma recvHdrChunk_follows (h : t.Follows authKey (.noHeaderReceived e a rcv))
    (hm : t.Carries authKey ⟨e, .hdr c⟩) :
    ∃ s', recvHdrChunk e a rcv c = .ok (s', none) ∧ t.Follows authKey s' ∧ s'.epoch = e ∧
      ((s' = .noHeaderReceived e a (rcv.addChunk c) ∧ (rcv.addChunk c).decodedMessage = none) ∨
        s'.tag = .headerReceived) := by
  obtain ⟨ha, hrcv⟩ := h
  obtain ⟨a', k, ha', hk, hc⟩ := hm
  dsimp only at ha' hk hc
  rw [ha] at ha'
  cases ha'
  obtain ⟨_, h1, h2⟩ := key_spec hk
  have hlen : (hdrMsg a e k.pk1).length = hdrMsgSize := by
    rw [hdrMsg, List.length_append, h1, Authenticator.length_macHdr]
    rfl
  have hg : rcv.Gathers (hdrMsg a e k.pk1) := by
    rcases hrcv with rfl | ⟨k', hk', hg⟩
    · rw [← hlen]
      exact Decoder.empty_gathers (by rw [hlen]; decide)
    · rw [hk] at hk'
      cases hk'
      exact hg
  have hg' := hg.addChunk hc
  cases hdec : (rcv.addChunk c).decodedMessage with
  | none =>
    refine ⟨.noHeaderReceived e a (rcv.addChunk c), ?_, ⟨ha, .inr ⟨k, hk, hg'⟩⟩, rfl, .inl ⟨rfl, rfl⟩⟩
    rw [recvHdrChunk, hdec]
  | some b =>
    cases hg'.decoded hdec
    refine ⟨.headerReceived e a k.pk1 (.empty publicKey2Size), ?_, ⟨ha, k, hk, rfl, ?_⟩, rfl, .inr rfl⟩
    · have htake : (hdrMsg a e k.pk1).take publicKey1Size = k.pk1 := List.take_left' h1
      have hdrop : (hdrMsg a e k.pk1).drop publicKey1Size = a.macHdr e k.pk1 := List.drop_left' h1
      simp only [recvHdrChunk, hdec, finishHdr, htake, hdrop, Authenticator.verifyHdr_macHdr, ok_bind]
      rfl
    · rw [← h2]
      exact Decoder.empty_gathers (by rw [h2]; decide)

lemma recvCt1ChunkKeysSampled_follows (h : t.Follows authKey (.keysSampled e a ek dk snd))
    (hK : IncrementalKem.Correct) (hm : t.Carries authKey ⟨e, .ct1 c⟩) :
    ∃ s', recvCt1ChunkKeysSampled e a ek dk c = .ok (s', none) ∧ t.Follows authKey s' ∧
      s'.epoch = e ∧ s'.tag = .headerSent := by
  obtain ⟨ha, k, hk, rfl, rfl, _⟩ := h
  obtain ⟨r, hr, hc⟩ := hm
  dsimp only at hr
  obtain ⟨_, _, _, hct1, _⟩ := enc_spec hK hr
  obtain ⟨_, _, h2⟩ := key_spec hk
  obtain ⟨snd', hsnd, hs, _⟩ := newEncoder_serves (show Transportable k.pk2.length by rw [h2]; decide)
  have hg : (Decoder.empty ciphertext1Size).Gathers r.ciphertext1 := by
    rw [← hct1]
    exact Decoder.empty_gathers (by rw [hct1]; decide)
  refine ⟨.headerSent e a k.pk2 k.dk snd' ((Decoder.empty ciphertext1Size).addChunk c), ?_,
    ⟨ha, k, r, hk, hr, rfl, hs, hg.addChunk hc⟩, rfl, rfl⟩
  rw [recvCt1ChunkKeysSampled, makeEncoder, hsnd]
  rfl

lemma recvCt1ChunkHeaderSent_follows (h : t.Follows authKey (.headerSent e a ek dk snd rcv))
    (hm : t.Carries authKey ⟨e, .ct1 c⟩) :
    ∃ s', recvCt1ChunkHeaderSent e a ek dk snd rcv c = s' ∧ t.Follows authKey s' ∧ s'.epoch = e ∧
      ((s' = .headerSent e a ek dk snd (rcv.addChunk c) ∧ (rcv.addChunk c).decodedMessage = none) ∨
        s'.tag = .ct1Received) := by
  obtain ⟨ha, k, r, hk, hr, rfl, hs, hg⟩ := h
  obtain ⟨r', hr', hc⟩ := hm
  dsimp only at hr' hc
  rw [hr] at hr'
  cases hr'
  have hg' := hg.addChunk hc
  cases hdec : (rcv.addChunk c).decodedMessage with
  | none =>
    refine ⟨.headerSent e a ek k.dk snd (rcv.addChunk c), ?_, ⟨ha, k, r, hk, hr, rfl, hs, hg'⟩, rfl,
      .inl ⟨rfl, rfl⟩⟩
    rw [recvCt1ChunkHeaderSent, hdec]
  | some b =>
    cases hg'.decoded hdec
    refine ⟨.ct1Received e a ek k.dk r.ciphertext1 snd, ?_, ⟨ha, k, r, hk, hr, rfl, rfl, hs⟩, rfl, .inr rfl⟩
    rw [recvCt1ChunkHeaderSent, hdec]

lemma recvCt2ChunkCt1Received_follows (h : t.Follows authKey (.ct1Received e a ek dk ct1 snd))
    (hm : t.Carries authKey ⟨e, .ct2 c⟩) :
    ∃ s', recvCt2ChunkCt1Received e a dk ct1 c = .ok (s', none) ∧ t.Follows authKey s' ∧
      s'.epoch = e ∧ s'.tag = .ekSentCt1Received := by
  obtain ⟨ha, k, r, hk, hr, rfl, rfl, _⟩ := h
  obtain ⟨a', k', r', ct2, ha', hk', hr', hct2, hc⟩ := hm
  dsimp only at ha' hk' hr' hc
  rw [hk] at hk'
  cases hk'
  rw [hr] at hr'
  cases hr'
  have hlen : (ct2Msg a' e r.ciphertext1 ct2).length = ct2MsgSize := by
    rw [ct2Msg, List.length_append, encapsulate2_length _ _ _ hct2, Authenticator.length_macCt]
    rfl
  have hg : (Decoder.empty ct2MsgSize).Gathers (ct2Msg a' e r.ciphertext1 ct2) := by
    rw [← hlen]
    exact Decoder.empty_gathers (by rw [hlen]; decide)
  exact ⟨.ekSentCt1Received e a k.dk r.ciphertext1 ((Decoder.empty ct2MsgSize).addChunk c), rfl,
    ⟨ha, k, r, ct2, a', hk, hr, ha', rfl, rfl, hct2, hg.addChunk hc⟩, rfl, rfl⟩

lemma recvCt2ChunkEkSent_follows (hK : IncrementalKem.Correct) (hsmall : e.toNat + 1 < 2 ^ 64)
    (h : t.Follows authKey (.ekSentCt1Received e a dk ct1 rcv)) (hm : t.Carries authKey ⟨e, .ct2 c⟩) :
    ∃ s' es, recvCt2ChunkEkSent e a dk ct1 rcv c = .ok (s', es) ∧ t.Follows authKey s' ∧
      (∀ x, es = some x → t.secret e.toNat = some x.secret) ∧
      ((s' = .ekSentCt1Received e a dk ct1 (rcv.addChunk c) ∧ (rcv.addChunk c).decodedMessage = none) ∨
        s'.epoch = e + 1) := by
  obtain ⟨ha, k, r, ct2, a', hk, hr, ha', rfl, rfl, hct2, hg⟩ := h
  obtain ⟨a1, k1, r1, ct2', ha1, hk1, hr1, hct2', hc⟩ := hm
  dsimp only at ha1 hk1 hr1 hc
  rw [hk] at hk1
  cases hk1
  rw [hr] at hr1
  cases hr1
  rw [ha'] at ha1
  cases ha1
  rw [hct2] at hct2'
  cases hct2'
  have hg' := hg.addChunk hc
  cases hdec : (rcv.addChunk c).decodedMessage with
  | none =>
    refine ⟨.ekSentCt1Received e a k.dk r.ciphertext1 (rcv.addChunk c), none, ?_,
      ⟨ha, k, r, ct2, a', hk, hr, ha', rfl, rfl, hct2, hg'⟩, by simp, .inl ⟨rfl, rfl⟩⟩
    rw [recvCt2ChunkEkSent, hdec]
  | some b =>
    cases hg'.decoded hdec
    obtain ⟨k', ct2', hk', _, hct2', hlen2, hdecaps⟩ := enc_spec hK hr
    rw [hk] at hk'
    cases hk'
    rw [hct2] at hct2'
    cases hct2'
    have hauth := auth_succ (auth_pos ha) ha hr
    rw [ha', UInt64.ofNat_toNat] at hauth
    cases hauth
    refine ⟨.noHeaderReceived (e + 1) (a.update e (sckaKey r.sharedSecret e)) (.empty hdrMsgSize),
      some ⟨e, sckaKey r.sharedSecret e⟩, ?_, ⟨?_, .inl rfl⟩, ?_, .inr rfl⟩
    · have htake : ∀ mac : Bytes, (ct2 ++ mac).take ciphertext2Size = ct2 :=
        fun _ => List.take_left' hlen2
      have hdrop : ∀ mac : Bytes, (ct2 ++ mac).drop ciphertext2Size = mac :=
        fun _ => List.drop_left' hlen2
      simp only [recvCt2ChunkEkSent, hdec, finishCt2, ct2Msg, htake, hdrop, hdecaps, mapError_ok, ok_bind,
        Authenticator.verifyCt_macCt]
      rfl
    · have hsucc := toNat_epoch_succ hsmall
      rw [hsucc]
      exact ha'
    · intro x hx
      cases hx
      rw [secret, hr]
      simp

lemma toCt2Sampled_follows {r : EncapsulationResult} (hK : IncrementalKem.Correct)
    (ha : t.auth authKey (e.toNat + 1) = some a) (hk : t.key e.toNat = some k) (hr : t.enc e.toNat = some r) :
    ∃ s', toCt2Sampled e a r.encapsState r.ciphertext1 k.pk2 = .ok (s', none) ∧
      t.Follows authKey s' ∧ s'.epoch = e ∧ s'.tag = .ct2Sampled := by
  obtain ⟨k', ct2, hk', _, hct2, hlen2, _⟩ := enc_spec hK hr
  rw [hk] at hk'
  cases hk'
  have ht : Transportable (ct2Msg a e r.ciphertext1 ct2).length := by
    rw [ct2Msg, List.length_append, hlen2, Authenticator.length_macCt]
    decide
  obtain ⟨snd, hsnd, hs, _⟩ := newEncoder_serves ht
  refine ⟨.ct2Sampled e a snd, ?_, ⟨ha, k, r, ct2, hk, hr, hct2, hs⟩, rfl, rfl⟩
  rw [ct2Msg] at hsnd
  simp only [toCt2Sampled, hct2, mapError_ok, ok_bind, makeEncoder, hsnd]
  rfl

lemma recvEkChunkCt1Sampled_follows {hdr es : Bytes} (hK : IncrementalKem.Correct)
    (h : t.Follows authKey (.ct1Sampled e a hdr es ct1 snd rcv)) (hk : t.key e.toNat = some k)
    (hc : IsChunk k.pk2 c) (ack : Bool) :
    ∃ s', recvEkChunkCt1Sampled e a hdr es ct1 snd rcv c ack = .ok (s', none) ∧
      t.Follows authKey s' ∧ s'.epoch = e ∧
      ((ack = false ∧ s' = .ct1Sampled e a hdr es ct1 snd (rcv.addChunk c) ∧
          (rcv.addChunk c).decodedMessage = none) ∨
        (ack = false ∧ s' = .ekReceivedCt1Sampled e a es k.pk2 ct1 snd) ∨
        (ack = true ∧ s' = .ct1Acknowledged e a hdr es ct1 (rcv.addChunk c)) ∨
        (ack = true ∧ s'.tag = .ct2Sampled)) := by
  obtain ⟨ha, k', r, hk', hr, rfl, rfl, rfl, hs, hg⟩ := h
  rw [hk] at hk'
  cases hk'
  have hg' := hg.addChunk hc
  cases hdec : (rcv.addChunk c).decodedMessage with
  | none =>
    cases ack with
    | false =>
      refine ⟨.ct1Sampled e a k.pk1 r.encapsState r.ciphertext1 snd (rcv.addChunk c), ?_,
        ⟨ha, k, r, hk, hr, rfl, rfl, rfl, hs, hg'⟩, rfl, .inl ⟨rfl, rfl, rfl⟩⟩
      simp only [recvEkChunkCt1Sampled, hdec]
    | true =>
      refine ⟨.ct1Acknowledged e a k.pk1 r.encapsState r.ciphertext1 (rcv.addChunk c), ?_,
        ⟨ha, k, r, hk, hr, rfl, rfl, rfl, hg'⟩, rfl, .inr (.inr (.inl ⟨rfl, rfl⟩))⟩
      simp only [recvEkChunkCt1Sampled, hdec]
  | some b =>
    cases hg'.decoded hdec
    obtain ⟨⟨seed, hseed⟩, _⟩ := key_spec hk
    have hval : validateEk k.pk1 k.pk2 = .ok () := by
      rw [validateEk, hK.validate seed k hseed]
      rfl
    cases ack with
    | false =>
      refine ⟨.ekReceivedCt1Sampled e a r.encapsState k.pk2 r.ciphertext1 snd, ?_,
        ⟨ha, k, r, hk, hr, rfl, rfl, rfl, hs⟩, rfl, .inr (.inl ⟨rfl, rfl⟩)⟩
      simp only [recvEkChunkCt1Sampled, hdec, hval, ok_bind]
      rfl
    | true =>
      obtain ⟨s', hs', hf, hep, htag⟩ := toCt2Sampled_follows hK ha hk hr
      refine ⟨s', ?_, hf, hep, .inr (.inr (.inr ⟨rfl, htag⟩))⟩
      simp only [recvEkChunkCt1Sampled, hdec, hval, ok_bind]
      exact hs'

lemma recvEkChunkCt1Acknowledged_follows {hdr es : Bytes} (hK : IncrementalKem.Correct)
    (h : t.Follows authKey (.ct1Acknowledged e a hdr es ct1 rcv)) (hk : t.key e.toNat = some k)
    (hc : IsChunk k.pk2 c) : ∃ s', recvEkChunkCt1Acknowledged e a hdr es ct1 rcv c = .ok (s', none) ∧
      t.Follows authKey s' ∧ s'.epoch = e ∧ ((s' = .ct1Acknowledged e a hdr es ct1 (rcv.addChunk c) ∧
          (rcv.addChunk c).decodedMessage = none) ∨ s'.tag = .ct2Sampled) := by
  obtain ⟨ha, k', r, hk', hr, rfl, rfl, rfl, hg⟩ := h
  rw [hk] at hk'
  cases hk'
  have hg' := hg.addChunk hc
  cases hdec : (rcv.addChunk c).decodedMessage with
  | none =>
    refine ⟨.ct1Acknowledged e a k.pk1 r.encapsState r.ciphertext1 (rcv.addChunk c), ?_,
      ⟨ha, k, r, hk, hr, rfl, rfl, rfl, hg'⟩, rfl, .inl ⟨rfl, rfl⟩⟩
    simp only [recvEkChunkCt1Acknowledged, hdec]
  | some b =>
    cases hg'.decoded hdec
    obtain ⟨⟨seed, hseed⟩, _⟩ := key_spec hk
    obtain ⟨s', hs', hf, hep, htag⟩ := toCt2Sampled_follows hK ha hk hr
    refine ⟨s', ?_, hf, hep, .inr htag⟩
    simp only [recvEkChunkCt1Acknowledged, hdec, validateEk, hK.validate seed k hseed, mapError_ok, ok_bind]
    exact hs'

end Recv

/-- The step succeeds with a state that follows the transcript and the secret of epoch `n`, if any. -/
def Accepts (authKey : Bytes) (t : Transcript) (n : Nat) (step : Except Err RecvStep) : Prop :=
  ∃ s' es, step = .ok (s', es) ∧ t.Follows authKey s' ∧ ∀ x, es = some x → t.secret n = some x.secret

lemma Accepts.quiet {step : Except Err RecvStep} (h : step = .ok (s', none)) (hf : t.Follows authKey s') :
    t.Accepts authKey n step :=
  ⟨s', none, h, hf, by simp⟩

lemma accepts_atEpoch {here : Except Err RecvStep} (h : t.Follows authKey s) (hle : m.epoch ≤ s.epoch)
    (hhere : m.epoch = s.epoch → t.Accepts authKey n here) : t.Accepts authKey n (s.atEpoch m here) := by
  rw [V1State.atEpoch, if_neg (UInt64.not_lt.mpr hle)]
  split
  · rename_i heq
    exact hhere heq
  · exact .quiet rfl h

/-- A message of the exchange that is not from the future is accepted. -/
lemma Follows.recv (hK : IncrementalKem.Correct) (h : t.Follows authKey s) (hm : t.Carries authKey m)
    (hsmall : s.epoch.toNat + 1 < 2 ^ 64)
    (hepoch : m.epoch ≤ s.epoch ∨ (s.tag = .ct2Sampled ∧ m.epoch = s.epoch + 1)) :
    t.Accepts authKey s.epoch.toNat (s.recv m) := by
  by_cases htag : s.tag = .ct2Sampled
  · cases s with
    | ct2Sampled e a snd =>
      rw [V1State.recv]
      by_cases hgt : m.epoch > e
      · have hnext : m.epoch = e + 1 := by
          rcases hepoch with hle | ⟨_, hnext⟩
          · exact absurd hgt (UInt64.not_lt.mpr hle)
          · exact hnext
        rw [if_pos hgt, if_pos hnext]
        refine .quiet rfl ?_
        have hsucc : (e + 1).toNat = e.toNat + 1 := toNat_epoch_succ hsmall
        change t.auth authKey m.epoch.toNat = some a
        rw [hnext, hsucc]
        exact h.1
      · rw [if_neg hgt]
        exact .quiet rfl h
    | _ => cases htag
  have hle : m.epoch ≤ s.epoch := hepoch.resolve_right fun h => htag h.1
  have hsame : t.Accepts authKey s.epoch.toNat (.ok (s, none)) := .quiet rfl h
  obtain ⟨me, p⟩ := m
  dsimp only at hle
  cases s with
  | keysUnsampled => exact accepts_atEpoch h hle fun _ => hsame
  | headerReceived => exact accepts_atEpoch h hle fun _ => hsame
  | keysSampled e a ek dk snd =>
    refine accepts_atEpoch h hle fun heq => ?_
    cases p with
    | ct1 c =>
      obtain rfl : me = e := heq
      obtain ⟨s', hs', hf, _⟩ := recvCt1ChunkKeysSampled_follows h hK hm
      exact .quiet hs' hf
    | _ => exact hsame
  | headerSent e a ek dk snd rcv =>
    refine accepts_atEpoch h hle fun heq => ?_
    cases p with
    | ct1 c =>
      obtain rfl : me = e := heq
      obtain ⟨s', hs', hf, _⟩ := recvCt1ChunkHeaderSent_follows h hm
      exact .quiet (by dsimp only; rw [hs']) hf
    | _ => exact hsame
  | ct1Received e a ek dk ct1 snd =>
    refine accepts_atEpoch h hle fun heq => ?_
    cases p with
    | ct2 c =>
      obtain rfl : me = e := heq
      obtain ⟨s', hs', hf, _⟩ := recvCt2ChunkCt1Received_follows h hm
      exact .quiet hs' hf
    | _ => exact hsame
  | ekSentCt1Received e a dk ct1 rcv =>
    refine accepts_atEpoch h hle fun heq => ?_
    cases p with
    | ct2 c =>
      obtain rfl : me = e := heq
      obtain ⟨s', es, hs', hf, hes, _⟩ := recvCt2ChunkEkSent_follows hK hsmall h hm
      exact ⟨s', es, hs', hf, hes⟩
    | _ => exact hsame
  | noHeaderReceived e a rcv =>
    refine accepts_atEpoch h hle fun heq => ?_
    cases p with
    | hdr c =>
      obtain rfl : me = e := heq
      obtain ⟨s', hs', hf, _⟩ := recvHdrChunk_follows h hm
      exact .quiet hs' hf
    | _ => exact hsame
  | ct1Sampled e a hdr es ct1 snd rcv =>
    refine accepts_atEpoch h hle fun heq => ?_
    cases p with
    | ek c =>
      obtain rfl : me = e := heq
      obtain ⟨k, hk, hc⟩ := hm
      obtain ⟨s', hs', hf, _⟩ := recvEkChunkCt1Sampled_follows hK h hk hc false
      exact .quiet hs' hf
    | ekCt1Ack c =>
      obtain rfl : me = e := heq
      obtain ⟨k, hk, hc⟩ := hm
      obtain ⟨s', hs', hf, _⟩ := recvEkChunkCt1Sampled_follows hK h hk hc true
      exact .quiet hs' hf
    | _ => exact hsame
  | ekReceivedCt1Sampled e a es ek ct1 snd =>
    refine accepts_atEpoch h hle fun heq => ?_
    obtain ⟨ha, k, r, hk, hr, rfl, rfl, rfl, _⟩ := id h
    obtain ⟨s', hs', hf, _⟩ := toCt2Sampled_follows hK ha hk hr
    cases p with
    | ekCt1Ack c => exact .quiet hs' hf
    | ct1Ack b =>
      cases b with
      | true => exact .quiet hs' hf
      | false => exact hsame
    | _ => exact hsame
  | ct1Acknowledged e a hdr es ct1 rcv =>
    refine accepts_atEpoch h hle fun heq => ?_
    cases p with
    | ek c =>
      obtain rfl : me = e := heq
      obtain ⟨k, hk, hc⟩ := hm
      obtain ⟨s', hs', hf, _⟩ := recvEkChunkCt1Acknowledged_follows hK h hk hc
      exact .quiet hs' hf
    | ekCt1Ack c =>
      obtain rfl : me = e := heq
      obtain ⟨k, hk, hc⟩ := hm
      obtain ⟨s', hs', hf, _⟩ := recvEkChunkCt1Acknowledged_follows hK h hk hc
      exact .quiet hs' hf
    | _ => exact hsame
  | ct2Sampled => exact absurd rfl htag

end

end Transcript

end LibSignal.Spqr
