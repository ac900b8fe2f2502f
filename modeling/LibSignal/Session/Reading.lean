import LibSignal.Lib.Triple
import LibSignal.Session.Api

/-!
# What the calls read before they write

`DecryptPreKey` looks the stores up before it writes to them.
-/

namespace LibSignal.Session
open Address (ProtocolAddress)
open Chunked (Bytes)
open Crypto Curve Lib Lib.Op Proto Protocol
open Spqr (StateCodec)

variable {σ : Type} {host : Host σ} {I : σ → Prop}

/-- The reading calls of a host keep something. Nothing is said about the writing calls, or about a record
that is changed in place. -/
structure Host.Reads (host : Host σ) (I : σ → Prop) : Prop where
  loadSession : ∀ a t, I t → I (host.loadSession a t).2
  isTrustedIdentity : ∀ a k d t, I t → I (host.isTrustedIdentity a k d t).2
  getIdentityKeyPair : ∀ t, I t → I (host.getIdentityKeyPair t).2
  getLocalRegistrationID : ∀ t, I t → I (host.getLocalRegistrationID t).2
  getPreKey : ∀ id t, I t → I (host.getPreKey id t).2
  getSignedPreKey : ∀ id t, I t → I (host.getSignedPreKey id t).2
  getKyberPreKey : ∀ id t, I t → I (host.getKyberPreKey id t).2

lemma keeps_call {α : Type} {c : StoreCall} {x : Op σ Unit α} (hx : ∀ t, I t → I (x t).2) :
    Keeps I (storeCall c x) := Triple.mapErr (Keeps.of_run hx)

/-- A state is that of a new session for a pre-key message. -/
def NewSession [Hash] [X25519] [StateCodec] [Kem.Kyber1024] [EdwardsPoints] (m : PreKeySignalMessage)
    (s : SessionState) : Prop :=
  m.messageVersion = signalMessageCurrentVersion ∧
  ∃ identity signedPair oneTime kyberPair s0 registration,
    initializeBobSession (bobParamsOf identity signedPair oneTime kyberPair m) = .ok s0 ∧
    s = { s0 with localRegistrationId := registration, remoteRegistrationId := m.registrationID }

/-- The record and the session that a pre-key message is decrypted with. -/
def Prepared [Hash] [X25519] [StateCodec] [Kem.Kyber1024] [EdwardsPoints] [Wire SessionState]
    (m : PreKeySignalMessage) (stored : SessionRecord) : Bool × SessionRecord × SessionState → Prop
  | (true, working, s) => promoteMatchingPreKeySession stored m = .ok (true, working) ∧
      working.current = some s ∧ deserializePublicKey s.remoteIdentityPublic = .ok m.identityKey
  | (false, working, s) => promoteMatchingPreKeySession stored m = .ok (false, stored) ∧
      working = stored.promoteState s ∧ NewSession m s

section
variable [Wire PreKeyRecordStructure]

lemma oneTimePreKey_reads (hr : host.Reads I) (id : Option UInt32) : Keeps I (oneTimePreKey host id) := by
  cases id with
  | none => exact Keeps.pure _
  | some id =>
    refine Triple.bind (keeps_call (hr.getPreKey id)) fun raw => ?_
    exact Keeps.lift_bind fun pre _ => Keeps.lift_bind fun pair _ => Keeps.pure _

variable [Hash] [X25519] [StateCodec] [Kem.Kyber1024] [EdwardsPoints] [Wire SignedPreKeyRecordStructure]

lemma recipientPreKeyState_reads (hr : host.Reads I) (m : PreKeySignalMessage) :
    Triple I (recipientPreKeyState host m) (fun s t => I t ∧ NewSession m s) fun _ => I := by
  have hfail : ∀ (e : SessionErr) (t : σ), I t → I t := fun _ _ h => h
  rw [recipientPreKeyState]
  split
  · exact triple_fail fun _ h => h
  rename_i hversion
  split
  · exact triple_fail fun _ h => h
  split
  · exact triple_fail fun _ h => h
  refine Triple.bind (keeps_call (hr.getSignedPreKey _)) fun signedRaw => ?_
  refine Triple.lift_bind hfail fun signed _ => Triple.lift_bind hfail fun signedPair _ => ?_
  refine Triple.bind (keeps_call (hr.getKyberPreKey _)) fun kyberRaw => ?_
  refine Triple.lift_bind hfail fun kyber _ => Triple.lift_bind hfail fun kyberPair _ => ?_
  refine Triple.bind (oneTimePreKey_reads hr _) fun oneTime => ?_
  refine Triple.bind (keeps_call hr.getIdentityKeyPair) fun identity => ?_
  refine Triple.bind (keeps_call hr.getLocalRegistrationID) fun registration => ?_
  refine Triple.lift_bind hfail fun s0 hs0 => triple_pure fun t ht => ⟨ht, not_not.mp hversion, ?_⟩
  exact ⟨identity, signedPair, oneTime, kyberPair, s0, registration, hs0, rfl⟩

variable [Wire SessionState]

omit [Hash] [X25519] [StateCodec] [Kem.Kyber1024] [EdwardsPoints] [Wire PreKeyRecordStructure]
  [Wire SignedPreKeyRecordStructure] in
lemma promoteMatching_false {stored working : SessionRecord} {m : PreKeySignalMessage}
    (h : promoteMatchingPreKeySession stored m = .ok (false, working)) : working = stored := by
  rw [promoteMatchingPreKeySession] at h
  split at h
  · cases h
  · obtain ⟨found, _, h⟩ := bind_eq_ok h
    cases found with
    | none => cases h; rfl
    | some i =>
      obtain ⟨_, _, h⟩ := bind_eq_ok h
      cases h

lemma preKeyRecord_reads (hr : host.Reads I) (m : PreKeySignalMessage) (stored : SessionRecord) :
    Triple I (preKeyRecord host m stored) (fun r t => I t ∧ Prepared m stored r) fun _ => I := by
  refine Triple.lift_bind (fun _ _ h => h) fun ⟨matched, working⟩ hprom => ?_
  cases matched with
  | false =>
    obtain rfl := promoteMatching_false hprom
    refine Triple.bind (recipientPreKeyState_reads hr m) fun s => Triple.of_fact fun hs => ?_
    exact triple_pure fun t ht => ⟨ht, hprom, rfl, hs⟩
  | true =>
    cases hcur : working.current with
    | none => simp only [hcur, ↓reduceIte]; exact triple_fail fun _ h => h
    | some s =>
      simp only [hcur, ↓reduceIte]
      split
      · exact triple_fail fun _ h => h
      · rename_i identity hidentity
        split
        · rename_i hequal
          rw [PublicKey.equal_iff.mp hequal] at hidentity
          exact triple_pure fun t ht => ⟨ht, hprom, hcur, hidentity⟩
        · exact triple_fail fun _ h => h

end

end LibSignal.Session
