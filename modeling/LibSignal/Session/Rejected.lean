import LibSignal.Stores.InMem

/-!
# Rejected messages have no effect

`Decrypt` and `DecryptPreKey` read the stores, work on copies, and write at the end.
-/

namespace LibSignal.Session
open Address (ProtocolAddress)
open Chunked (Bytes)
open Crypto Curve Lib Lib.Op Proto Protocol
open Ratchet
open Spqr (StateCodec)

def StoreCall.writes : StoreCall → Bool
  | storeSession | saveIdentity | markKyberPreKeyUsed | removePreKey => true
  | loadSession | trustCheck | identityKeyPair | localRegistrationID | signedPreKey | kyberPreKey
  | oneTimePreKey => false

/-- Whether an error is that of a write. Every other error comes before the first write. -/
def SessionErr.ofWrite : SessionErr → Bool
  | store call => call.writes
  | _ => false

variable {σ : Type} {host : Host σ} {I : σ → Prop}

/-- Something was kept, if the error is not that of a write. -/
def Untouched (I : σ → Prop) (e : SessionErr) (t : σ) : Prop := e.ofWrite = false → I t

lemma untouched_of_reads {α : Type} {x : Op σ SessionErr α} {Q : α → σ → Prop} (h : Triple I x Q fun _ => I) :
    Triple I x Q (Untouched I) :=
  h.imp (fun _ hs => hs) (fun _ _ hs => hs) fun _ _ hs _ => hs

lemma triple_write {α : Type} {c : StoreCall} (x : Op σ Unit α) (hc : c.writes = true) :
    Triple (fun _ => True) (storeCall c x) (fun _ _ => True) (Untouched I) := by
  refine Triple.mapErr fun s _ => ⟨fun _ _ _ => trivial, fun e s' _ => fun hno => ?_⟩
  exact absurd (hc.symm.trans hno) Bool.noConfusion

lemma commitPreKey_untouched (m : PreKeySignalMessage) (remote : ProtocolAddress) (matched : Bool)
    (working : SessionRecord) :
    Triple (fun _ => True) (commitPreKey host m remote matched working) (fun _ _ => True) (Untouched I) := by
  refine Triple.bind (triple_write _ rfl) fun _ => ?_
  have hstore : Triple (fun _ => True) (storeCall .storeSession (host.storeSession remote working))
      (fun _ _ => True) (Untouched I) := triple_write _ rfl
  split
  · refine Triple.bind (triple_write _ rfl) fun _ => ?_
    split
    · exact Triple.bind (triple_write _ rfl) fun _ => hstore
    · exact hstore
  · exact hstore

section
variable [Hash] [X25519] [IncrementalKem] [StateCodec] [Aes]

lemma decrypt_untouched (hr : host.Reads I) (m : SignalMessage) (remote : ProtocolAddress) (rng : Reader) :
    Triple I (decrypt host m remote rng) (fun _ _ => True) (Untouched I) := by
  have hkeep : ∀ (e : SessionErr) (t : σ), I t → Untouched I e t := fun _ _ h _ => h
  refine (untouched_of_reads (keeps_call (hr.loadSession remote))).bind fun rec => ?_
  cases rec with
  | none => exact triple_fail (hkeep _)
  | some record =>
    cases hcur : record.current with
    | none => simp only [hcur]; exact triple_fail (hkeep _)
    | some state =>
      simp only [hcur]
      refine Triple.lift_bind hkeep fun ⟨ptext, working⟩ _ => ?_
      -- the record is changed in place and stored, with nothing in between
      refine Triple.bind (R := fun _ _ => True) (triple_modify fun _ _ => trivial) fun _ => ?_
      exact Triple.bind (triple_write _ rfl) fun _ => triple_pure fun _ _ => trivial

variable [Wire SessionState] [Wire PreKeyRecordStructure] [Wire SignedPreKeyRecordStructure] [EdwardsPoints]
  [Kem.Kyber1024] [Wire RecordStructure]

lemma decryptPreKey_untouched (hr : host.Reads I) (m : PreKeySignalMessage) (remote : ProtocolAddress)
    (rng : Reader) : Triple I (decryptPreKey host m remote rng) (fun _ _ => True) (Untouched I) := by
  have hkeep : ∀ (e : SessionErr) (t : σ), I t → Untouched I e t := fun _ _ h _ => h
  refine (untouched_of_reads (keeps_call (hr.isTrustedIdentity _ _ _))).bind fun trusted => ?_
  split
  · exact triple_fail (hkeep _)
  · refine (untouched_of_reads (keeps_call (hr.loadSession _))).bind fun stored => ?_
    refine Triple.lift_bind hkeep fun working _ => ?_
    refine (untouched_of_reads (preKeyRecord_reads hr m working)).bind fun ⟨matched, working, state⟩ => ?_
    refine Triple.of_fact fun _ => Triple.lift_bind hkeep fun ⟨ptext, state'⟩ _ => ?_
    refine Triple.bind ((commitPreKey_untouched m remote matched _).imp (fun _ _ => trivial) (fun _ _ h => h)
      fun _ _ h => h) fun _ => triple_pure fun _ _ => trivial

/-- An error that is not that of a write leaves everything that can be observed in the stores as it was, for
every host whose reading calls do. -/
theorem rejected_unchanged {τ : Type} {obs : σ → τ} (hr : ∀ o, host.Reads fun t => obs t = o) :
    (∀ m remote rng t e t', decrypt host m remote rng t = (.error e, t') → e.ofWrite = false → obs t' = obs t) ∧
    ∀ m remote rng t e t', decryptPreKey host m remote rng t = (.error e, t') → e.ofWrite = false →
      obs t' = obs t :=
  ⟨fun m remote rng t e t' h he => (decrypt_untouched (hr (obs t)) m remote rng t rfl).2 e t' h he,
    fun m remote rng t e t' h he => (decryptPreKey_untouched (hr (obs t)) m remote rng t rfl).2 e t' h he⟩

end

section
attribute [local instance] zeroHash oneX25519 zeroKem Spqr.unaryCodec plainAes Kem.zeroKyber freePoints
attribute [local instance] unaryWire

def sampleMessage : SignalMessage :=
  ⟨4, Stores.sampleKeys.publicKey, 0, 0, [], [], [], []⟩

def samplePreKeyMessage : PreKeySignalMessage :=
  ⟨4, 1, none, 2, some 3, [8], Stores.sampleKeys.publicKey, Stores.sampleKeys.publicKey, sampleMessage, []⟩

/-- With aliased records and empty stores both messages are refused, and everything is as before. -/
theorem rejected_unchanged_alias :
    (∃ t', decrypt Stores.InMem.aliasHost sampleMessage Stores.samplePeer zeroReader (.new Stores.sampleKeys 7) =
      (.error (.sessionNotFound .noRecord), t') ∧ t' = .new Stores.sampleKeys 7) ∧
    ∃ t', decryptPreKey Stores.InMem.aliasHost samplePreKeyMessage Stores.samplePeer zeroReader
      (.new Stores.sampleKeys 7) = (.error (.store .signedPreKey), t') ∧ t' = .new Stores.sampleKeys 7 := by
  have hreads : ∀ o, Stores.InMem.aliasHost.Reads fun t => id t = o := fun o => Stores.InMem.aliasHost_reads _
  have hnone : decrypt Stores.InMem.aliasHost sampleMessage Stores.samplePeer zeroReader
      (.new Stores.sampleKeys 7) = (.error (.sessionNotFound .noRecord), .new Stores.sampleKeys 7) := rfl
  have hprekey : decryptPreKey Stores.InMem.aliasHost samplePreKeyMessage Stores.samplePeer zeroReader
      (.new Stores.sampleKeys 7) = (.error (.store .signedPreKey), .new Stores.sampleKeys 7) := rfl
  exact ⟨⟨_, hnone, (rejected_unchanged hreads).1 _ _ _ _ _ _ hnone rfl⟩,
    ⟨_, hprekey, (rejected_unchanged hreads).2 _ _ _ _ _ _ hprekey rfl⟩⟩

end

end LibSignal.Session
