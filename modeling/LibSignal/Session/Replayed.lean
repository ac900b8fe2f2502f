import LibSignal.Session.Rejected
import LibSignal.Session.Sending

/-!
# Pre-key messages that are rejected by the in-memory stores

Of the writes of `DecryptPreKey` only the one that marks the base key of a message as used can fail, for a
base key that was used before (`decryptPreKey_error`).
-/

namespace LibSignal.Session
open Address (ProtocolAddress)
open Chunked (Bytes)
open Crypto Curve Lib Lib.Op Proto Protocol Stores
open Spqr (StateCodec)

/-- The base key of a message was used with its pre-keys. -/
def Seen (t : InMem) (m : PreKeySignalMessage) : Prop :=
  (t.baseKeysSeen (m.kyberPreKeyID.getD 0, m.signedPreKeyID)).any (·.equal m.baseKey) = true

variable {m : PreKeySignalMessage} {remote : ProtocolAddress} {e : SessionErr} {t t' : InMem}

lemma saveIdentity_run (t : InMem) (remote : ProtocolAddress) (k : PublicKey) :
    ∃ change t1, InMem.saveIdentity remote k t = (.ok change, t1) ∧ t1.baseKeysSeen = t.baseKeysSeen := by
  rw [InMem.saveIdentity]
  split
  · split <;> exact ⟨_, _, rfl, rfl⟩
  · exact ⟨_, _, rfl, rfl⟩

lemma saveIdentity_trusted {d : Direction} {k : PublicKey}
    (h : InMem.isTrustedIdentity remote k d t = (.ok true, t')) : (InMem.saveIdentity remote k t).2 = t ∨
      t.knownKeys remote = none ∧ (InMem.saveIdentity remote k t).2 =
        { t with knownKeys := Function.update t.knownKeys remote (some k) } := by
  rw [InMem.isTrustedIdentity] at h
  rw [InMem.saveIdentity]
  split at h
  · rename_i hnone
    rw [hnone]
    exact .inr ⟨rfl, rfl⟩
  · rename_i existing hsome
    obtain ⟨hequal, _⟩ := Prod.mk.inj h
    rw [hsome]
    dsimp only
    rw [if_pos (Except.ok.inj hequal)]
    exact .inl rfl

lemma saveIdentity_ne {k : PublicKey} (h : t.knownKeys remote = none) : (InMem.saveIdentity remote k t).2 ≠ t := by
  intro hsame
  have hknown := congrArg (InMem.knownKeys · remote) hsame
  rw [InMem.saveIdentity, h] at hknown
  dsimp only at hknown
  rw [Function.update_self] at hknown
  cases hknown

variable [Wire RecordStructure]

lemma commitPreKey_run (m : PreKeySignalMessage) (remote : ProtocolAddress) (matched : Bool) (working : SessionRecord)
    (t : InMem) : (matched = false ∧ Seen t m ∧ commitPreKey InMem.host m remote matched working t =
        (.error (.store .markKyberPreKeyUsed), (InMem.saveIdentity remote m.identityKey t).2)) ∨
      ¬ (matched = false ∧ Seen t m) ∧ ∃ t', commitPreKey InMem.host m remote matched working t = (.ok (), t') := by
  obtain ⟨change, t1, hsave, hseen⟩ := saveIdentity_run t remote m.identityKey
  have hrun : InMem.host.saveIdentity remote m.identityKey t = (.ok change, t1) := hsave
  rw [commitPreKey, bind_run_ok (storeCall_ok hrun), hsave]
  cases matched with
  | true => exact .inr ⟨nofun, _, rfl⟩
  | false =>
    dsimp only
    rw [if_pos rfl]
    by_cases hused : Seen t m
    · have hmark : storeCall .markKyberPreKeyUsed (InMem.host.markKyberPreKeyUsed (m.kyberPreKeyID.getD 0)
          m.signedPreKeyID m.baseKey) t1 = (.error (.store .markKyberPreKeyUsed), t1) := by
        rw [storeCall, mapErr, show InMem.host.markKyberPreKeyUsed _ _ _ t1 = (.error (), t1) from
          if_pos (hseen ▸ hused)]
      exact .inl ⟨rfl, hused, bind_run_error hmark⟩
    · refine .inr ⟨fun h => hused h.2, ?_⟩
      rw [bind_run_ok (storeCall_ok (show InMem.host.markKyberPreKeyUsed _ _ _ t1 = (.ok (), _) from
        if_neg (hseen ▸ hused)))]
      cases m.preKeyID with
      | none => exact ⟨_, rfl⟩
      | some id => exact ⟨_, rfl⟩

variable [Hash] [X25519] [IncrementalKem] [StateCodec] [Aes] [Wire SessionState] [Wire PreKeyRecordStructure]
  [Wire SignedPreKeyRecordStructure] [EdwardsPoints] [Kem.Kyber1024]

variable {rng : Reader} {s s' : SessionState} {ptext : Bytes}

structure Ready (m : PreKeySignalMessage) (remote : ProtocolAddress) (rng : Reader) (t : InMem) (matched : Bool)
    (working : SessionRecord) (s : SessionState) (ptext : Bytes) (s' : SessionState) : Prop where
  trusted : InMem.isTrustedIdentity remote m.identityKey .receiving t = (.ok true, t)
  prepared : ∃ stored, InMem.loadSession remote t = (.ok stored, t) ∧
    preKeyRecord InMem.host m (stored.getD .fresh) t = (.ok (matched, working, s), t)
  decrypted : decryptWithState s m.message rng = .ok (ptext, s')

lemma Ready.run (h : Ready m remote rng t matched working s ptext s') :
    decryptPreKey InMem.host m remote rng t =
      (commitPreKey InMem.host m remote matched { working with current := some s' } >>= fun _ => pure ptext) t := by
  obtain ⟨stored, hload, hprep⟩ := h.prepared
  have htrust : InMem.host.isTrustedIdentity remote m.identityKey .receiving t = (.ok true, t) := h.trusted
  have hload : InMem.host.loadSession remote t = (.ok stored, t) := hload
  rw [decryptPreKey, bind_run_ok (storeCall_ok htrust), if_neg nofun, bind_run_ok (storeCall_ok hload), workingRecord_eq,
    bind_run_ok (lift_run _ _), bind_run_ok hprep]
  dsimp only
  rw [h.decrypted, bind_run_ok (lift_run _ _)]

lemma decryptPreKey_ready (m : PreKeySignalMessage) (remote : ProtocolAddress) (rng : Reader) (t : InMem) :
    (∃ e, decryptPreKey InMem.host m remote rng t = (.error e, t)) ∨
      ∃ matched working s ptext s', Ready m remote rng t matched working s ptext s' := by
  obtain ⟨trusted, htrust⟩ : ∃ b, InMem.isTrustedIdentity remote m.identityKey .receiving t = (.ok b, t) := by
    rw [InMem.isTrustedIdentity]
    split <;> exact ⟨_, rfl⟩
  have htrust' : InMem.host.isTrustedIdentity remote m.identityKey .receiving t = (.ok trusted, t) := htrust
  rw [decryptPreKey, bind_run_ok (storeCall_ok htrust')]
  cases trusted with
  | false => exact .inl ⟨_, rfl⟩
  | true =>
    rw [if_neg (by decide)]
    -- every part before the writes leaves the stores alone, whether it fails or not
    cases hload : InMem.loadSession remote t with
    | mk r t1 =>
      obtain rfl := (InMem.loadSession_run _ _ _ _ hload).1
      have hload' : InMem.host.loadSession remote t1 = (r, t1) := hload
      cases r with
      | error e => exact .inl ⟨_, bind_run_error (by rw [storeCall, mapErr, hload'])⟩
      | ok stored =>
        rw [bind_run_ok (storeCall_ok hload'), workingRecord_eq, bind_run_ok (lift_run _ _)]
        cases hprep : preKeyRecord InMem.host m (stored.getD .fresh) t1 with
        | mk r t2 =>
          have hreads := preKeyRecord_reads (InMem.reads fun s => s = t1) m (stored.getD .fresh) t1 rfl
          cases r with
          | error e =>
            obtain rfl := hreads.2 e t2 hprep
            exact .inl ⟨e, bind_run_error hprep⟩
          | ok prepared =>
            obtain ⟨matched, working, s⟩ := prepared
            obtain rfl := (hreads.1 _ t2 hprep).1
            cases hdec : decryptWithState s m.message rng with
            | error e =>
              refine .inl ⟨e, (bind_run_ok hprep).trans ?_⟩
              dsimp only
              rw [hdec]
              rfl
            | ok out => exact .inr ⟨matched, working, s, out.1, out.2, htrust, ⟨stored, hload, hprep⟩, hdec⟩

lemma decryptPreKey_error (h : decryptPreKey InMem.host m remote rng t = (.error e, t')) :
    t' = t ∨ (e = .store .markKyberPreKeyUsed ∧ Seen t m ∧ t.knownKeys remote = none ∧
      t' = { t with knownKeys := Function.update t.knownKeys remote (some m.identityKey) }) := by
  rcases decryptPreKey_ready m remote rng t with ⟨e', hsame⟩ | ⟨matched, working, s, ptext, s', hready⟩
  · cases h.symm.trans hsame
    exact .inl rfl
  · rw [hready.run] at h
    rcases commitPreKey_run m remote matched { working with current := some s' } t with
      ⟨_, hseen, hrun⟩ | ⟨_, t1, hrun⟩
    · rw [bind_run_error hrun] at h
      cases h
      exact (saveIdentity_trusted hready.trusted).imp_right fun hsave => ⟨rfl, hseen, hsave⟩
    · rw [bind_run_ok hrun] at h
      cases h

end LibSignal.Session
