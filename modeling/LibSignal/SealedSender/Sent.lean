import LibSignal.SealedSender.RoundTrip

/-!
# The SENT form of version 2

`parseSent` is a parser of the documented grammar of the SENT form: version, number of groups, per group a
service id, device records up to the first one without the has-more bit, masked seed and tag, then the
ephemeral key and the ciphertext.
-/

namespace LibSignal.SealedSender
open Chunked (Bytes)
open Crypto Curve Proto Lib Address

/-- A group of a SENT message: a service id, its devices as pairs of device id and registration id, the
masked seed and the tag. -/
structure ParsedGroup where
  serviceID : ServiceID
  devices : List (Nat × Nat)
  encryptedMessageKey : Bytes
  authTag : Bytes
deriving DecidableEq

structure ParsedSent where
  groups : List ParsedGroup
  ephemeral : Bytes
  ciphertext : Bytes
deriving DecidableEq

def readBytes (n : Nat) (b : Bytes) : Option (Bytes × Bytes) :=
  if b.length < n then none else some (b.take n, b.drop n)

def parseDevices : Bytes → Option (List (Nat × Nat) × Bytes)
  | d :: hi :: lo :: rest =>
    let reg := ofBe [hi, lo]
    if reg < 0x8000 then some ([(d.toNat, reg)], rest)
    else do
      let (devices, rest) ← parseDevices rest
      return ((d.toNat, reg - 0x8000) :: devices, rest)
  | _ => none

def parseGroup (b : Bytes) : Option (ParsedGroup × Bytes) := do
  let (sid, b) ← readBytes 17 b
  let serviceID ← parseServiceIDFixedWidthBinary sid
  let (devices, b) ← parseDevices b
  let (c, b) ← readBytes 32 b
  let (tag, b) ← readBytes 16 b
  return (⟨serviceID, devices, c, tag⟩, b)

def parseGroups : Nat → Bytes → Option (List ParsedGroup × Bytes)
  | 0, b => some ([], b)
  | n + 1, b => do
    let (g, b) ← parseGroup b
    let (gs, b) ← parseGroups n b
    return (g :: gs, b)

def parseSent (b : Bytes) : Option ParsedSent := do
  let (version, _) ← readBytes 1 b
  if version ≠ [0x23] then none
  else do
    let (count, start) ← Spqr.decodeVarint b 1
    let (groups, rest) ← parseGroups count.toNat (b.drop start)
    let (ephemeral, ciphertext) ← readBytes 32 rest
    return ⟨groups, ephemeral, ciphertext⟩

def ParsedSent.assemble (p : ParsedSent) (g : ParsedGroup) : Bytes :=
  0x22 :: (g.encryptedMessageKey ++ g.authTag ++ p.ephemeral ++ p.ciphertext)

def ParsedSent.fanOut (p : ParsedSent) : List Bytes :=
  p.groups.flatMap fun g => g.devices.map fun _ => p.assemble g

/-- Device id and registration id are in range. -/
def SealV2Recipient.InRange (r : SealV2Recipient) : Prop :=
  1 ≤ r.deviceID.toNat ∧ r.deviceID.toNat ≤ 255 ∧ r.registrationID.toNat < 2 ^ 14

/-- Consecutive entries with one service id carry one identity key. -/
def OneKeyPerRun (recipients : List SealV2Recipient) : Prop :=
  recipients.IsChain fun r r' => r.serviceID = r'.serviceID → r.identityKey = r'.identityKey

def sameService (r r' : SealV2Recipient) : Bool := r.serviceID == r'.serviceID

def SealV2Recipient.device (r : SealV2Recipient) : Nat × Nat :=
  (r.deviceID.toNat, r.registrationID.toNat)

/-! ## Device records -/

lemma deviceId_range {id : UInt32} : ¬ (id = 0 ∨ id > 0xFF) ↔ 1 ≤ id.toNat ∧ id.toNat ≤ 255 := by
  rw [gt_iff_lt, UInt32.lt_iff_toNat_lt, ← UInt32.toNat_inj]
  change ¬ (id.toNat = 0 ∨ 255 < id.toNat) ↔ _
  omega

lemma registrationId_range {id : UInt32} : ¬ (id &&& validRegistrationIDMask ≠ id) ↔ id.toNat < 2 ^ 14 := by
  rw [not_not, ← UInt32.toNat_inj, UInt32.toNat_and]
  change id.toNat &&& (2 ^ 14 - 1) = id.toNat ↔ _
  rw [Nat.and_two_pow_sub_one_eq_mod]
  constructor
  · intro h
    rw [← h]
    exact Nat.mod_lt _ (by decide)
  · exact Nat.mod_eq_of_lt

lemma flagged_toNat {reg : UInt16} (h : reg.toNat < 2 ^ 14) :
    (reg ||| hasMoreDevicesFlag).toNat = 0x8000 + reg.toNat := by
  rw [UInt16.toNat_or]
  change reg.toNat ||| 2 ^ 15 = 2 ^ 15 + reg.toNat
  rw [Nat.or_comm]
  have h15 : reg.toNat < 2 ^ 15 := lt_trans h (by decide)
  exact (Nat.two_pow_add_eq_or_of_lt h15 1).symm

lemma parseDevices_record (d : UInt8) {v : Nat} (hv : v < 65536) (t : Bytes) :
    parseDevices (d :: (beBytes 2 v ++ t)) =
      if v < 0x8000 then some ([(d.toNat, v)], t)
      else (parseDevices t).map fun r => ((d.toNat, v - 0x8000) :: r.1, r.2) := by
  have hback : ofBe (beBytes 2 v) = v := ofBe_beBytes hv
  change ofBe [(v / 256).toUInt8, v.toUInt8] = v at hback
  change parseDevices (d :: (v / 256).toUInt8 :: v.toUInt8 :: t) = _
  rw [parseDevices, hback]
  cases parseDevices t <;> rfl

lemma encodeDevices_spec (first : SealV2Recipient) {count d : Nat} {ds : List SealV2Recipient}
    (hcount : d + ds.length = count) (hds : ∀ r ∈ ds, r.identityKey = first.identityKey ∧ r.InRange) :
    ∃ out, encodeDevices first count d ds = .ok out ∧
      (ds ≠ [] → ∀ t, parseDevices (out ++ t) = some (ds.map SealV2Recipient.device, t)) := by
  induction ds generalizing d with
  | nil => exact ⟨[], rfl, fun h => absurd rfl h⟩
  | cons r rest ih =>
    obtain ⟨hkey, hdev, hdev', hreg⟩ := hds r (by simp)
    have hrest := fun r' hr' => hds r' (List.mem_cons_of_mem r hr')
    rw [List.length_cons] at hcount
    obtain ⟨out, hout, hparse⟩ := ih (d := d + 1) (by omega) hrest
    have hlow : r.registrationID.toUInt16.toNat = r.registrationID.toNat := by
      rw [UInt32.toNat_toUInt16]
      exact Nat.mod_eq_of_lt (by omega)
    have hbyte : r.deviceID.toUInt8.toNat = r.deviceID.toNat := by
      rw [UInt32.toNat_toUInt8]
      exact Nat.mod_eq_of_lt (by omega)
    rw [encodeDevices, if_neg (not_not.mpr (PublicKey.equal_iff.mpr hkey)),
      if_neg (deviceId_range.mpr ⟨hdev, hdev'⟩), if_neg (registrationId_range.mpr hreg)]
    dsimp only
    rw [hout]
    refine ⟨_, rfl, fun _ t => ?_⟩
    rw [List.cons_append, List.append_assoc]
    cases hlist : rest with
    | nil =>
      -- the last device carries no flag
      have hlast : ¬ d ≠ count - 1 := by rw [hlist] at hcount; simp at hcount; omega
      have hnil : out = [] := by rw [hlist] at hout; cases hout; rfl
      rw [if_neg hlast, parseDevices_record _ (by omega), hlow, if_pos (by omega), hnil, hbyte]
      rfl
    | cons r' rest' =>
      have hmore : d ≠ count - 1 := by rw [hlist, List.length_cons] at hcount; omega
      have hne : rest ≠ [] := by rw [hlist]; exact List.cons_ne_nil _ _
      have hflag : (r.registrationID.toUInt16 ||| hasMoreDevicesFlag).toNat =
          0x8000 + r.registrationID.toUInt16.toNat := flagged_toNat (by omega)
      rw [if_pos hmore, hflag, parseDevices_record _ (by omega), if_neg (by omega), hparse hne t,
        Nat.add_sub_cancel_left, hlow, hbyte, ← hlist]
      rfl

lemma encodeDevices_inv {first : SealV2Recipient} {count d : Nat} {ds : List SealV2Recipient}
    {out : Bytes} (h : encodeDevices first count d ds = .ok out) :
    ∀ r ∈ ds, r.identityKey = first.identityKey ∧ r.InRange := by
  induction ds generalizing d out with
  | nil => exact fun r hr => absurd hr List.not_mem_nil
  | cons r rest ih =>
    by_cases hkey : r.identityKey.equal first.identityKey = true
    · by_cases hdev : r.deviceID = 0 ∨ r.deviceID > 0xFF
      · rw [encodeDevices, if_neg (not_not.mpr hkey), if_pos hdev] at h
        cases h
      · by_cases hreg : r.registrationID &&& validRegistrationIDMask ≠ r.registrationID
        · rw [encodeDevices, if_neg (not_not.mpr hkey), if_neg hdev, if_pos hreg] at h
          cases h
        · rw [encodeDevices, if_neg (not_not.mpr hkey), if_neg hdev, if_neg hreg] at h
          obtain ⟨out', hout', _⟩ := bind_eq_ok h
          obtain ⟨hdev1, hdev2⟩ := deviceId_range.mp hdev
          intro r' hr'
          rcases List.mem_cons.mp hr' with rfl | hr'
          · exact ⟨PublicKey.equal_iff.mp hkey, hdev1, hdev2, registrationId_range.mp hreg⟩
          · exact ih hout' r' hr'
    · rw [encodeDevices, if_pos hkey] at h
      cases h

/-! ## Runs -/

lemma runLength_le (s : ServiceID) (rest : List SealV2Recipient) : runLength s rest ≤ rest.length := by
  induction rest with
  | nil => exact Nat.le_refl _
  | cons r rest ih =>
    rw [runLength]
    split
    · exact Nat.succ_le_succ ih
    · exact Nat.zero_le _

variable {rest : List SealV2Recipient}

lemma runLength_mem {s : ServiceID} : ∀ x ∈ rest.take (runLength s rest), x.serviceID = s := by
  induction rest with
  | nil => exact fun x hx => absurd hx List.not_mem_nil
  | cons r rest ih =>
    rw [runLength]
    split
    · rename_i hr
      intro x hx
      rcases List.mem_cons.mp hx with rfl | hx
      · exact hr
      · exact ih x hx
    · exact fun x hx => absurd hx List.not_mem_nil

lemma run_serviceID (r : SealV2Recipient) (rest : List SealV2Recipient) :
    ∀ x ∈ r :: rest.take (runLength r.serviceID rest), x.serviceID = r.serviceID := by
  intro x hx
  rcases List.mem_cons.mp hx with rfl | hx
  · rfl
  · exact runLength_mem x hx

lemma runLength_next {s : ServiceID} : ∀ x ∈ (rest.drop (runLength s rest)).head?, x.serviceID ≠ s := by
  induction rest with
  | nil => exact fun x hx => by cases hx
  | cons r rest ih =>
    rw [runLength]
    split
    · exact ih
    · rename_i hr
      intro x hx
      cases hx
      exact hr

lemma OneKeyPerRun.run {r : SealV2Recipient} (h : OneKeyPerRun (r :: rest)) :
    ∀ x ∈ rest.take (runLength r.serviceID rest), x.identityKey = r.identityKey := by
  induction rest generalizing r with
  | nil => exact fun x hx => absurd hx List.not_mem_nil
  | cons r' rest ih =>
    rw [OneKeyPerRun, List.isChain_cons_cons] at h
    rw [runLength]
    split
    · rename_i hsid
      have hkey : r.identityKey = r'.identityKey := h.1 hsid.symm
      intro x hx
      rcases List.mem_cons.mp hx with rfl | hx
      · exact hkey.symm
      · rw [← hsid] at hx
        rw [ih h.2 x hx, hkey]
    · exact fun x hx => absurd hx List.not_mem_nil

lemma splitBy_run (r : SealV2Recipient) (rest : List SealV2Recipient) : (r :: rest).splitBy sameService =
      (r :: rest.take (runLength r.serviceID rest)) ::
        (rest.drop (runLength r.serviceID rest)).splitBy sameService := by
  set run := r :: rest.take (runLength r.serviceID rest) with hrun
  have hmem : ∀ x ∈ run, x.serviceID = r.serviceID := run_serviceID r rest
  have hchain : run.IsChain fun x y => sameService x y := by
    refine List.Pairwise.isChain ?_
    refine List.pairwise_of_forall_mem_list fun x hx y hy => ?_
    exact beq_iff_eq.mpr ((hmem x hx).trans (hmem y hy).symm)
  have hsplit : r :: rest = run ++ rest.drop (runLength r.serviceID rest) := by
    rw [hrun, List.cons_append, List.take_append_drop]
  rw [hsplit, List.splitBy_append, List.splitBy_of_isChain (List.cons_ne_nil _ _) hchain]
  · rw [List.singleton_append]
  · intro x hx y hy
    have hx' : x.serviceID = r.serviceID := hmem x (List.mem_of_mem_getLast? hx)
    exact beq_eq_false_iff_ne.mpr fun heq => runLength_next y hy (by rw [← heq, hx'])

lemma OneKeyPerRun.cons_run {r : SealV2Recipient}
    (hrun : ∀ x ∈ rest.take (runLength r.serviceID rest), x.identityKey = r.identityKey)
    (hrest : OneKeyPerRun (rest.drop (runLength r.serviceID rest))) : OneKeyPerRun (r :: rest) := by
  have hkeys : ∀ x ∈ r :: rest.take (runLength r.serviceID rest), x.identityKey = r.identityKey := by
    intro x hx
    rcases List.mem_cons.mp hx with rfl | hx
    · rfl
    · exact hrun x hx
  have hsplit : r :: rest =
      (r :: rest.take (runLength r.serviceID rest)) ++ rest.drop (runLength r.serviceID rest) := by
    rw [List.cons_append, List.take_append_drop]
  rw [OneKeyPerRun, hsplit, List.isChain_append]
  refine ⟨?_, hrest, ?_⟩
  · refine List.Pairwise.isChain ?_
    exact List.pairwise_of_forall_mem_list fun x hx y hy _ => (hkeys x hx).trans (hkeys y hy).symm
  · intro x hx y hy heq
    refine absurd ?_ (runLength_next y hy)
    rw [← heq]
    exact run_serviceID r rest x (List.mem_of_mem_getLast? hx)

/-! ## Groups -/

lemma readBytes_append {n : Nat} {a : Bytes} (h : a.length = n) (t : Bytes) :
    readBytes n (a ++ t) = some (a, t) := by
  have hlong : ¬ (a ++ t).length < n := by
    rw [List.length_append]
    omega
  rw [readBytes, if_neg hlong, List.take_left' h, List.drop_left' h]

lemma parseGroup_append {sid : ServiceID} {records c tag : Bytes} {devices : List (Nat × Nat)}
    (hrecords : ∀ t, parseDevices (records ++ t) = some (devices, t)) (hc : c.length = 32)
    (htag : tag.length = 16) (t : Bytes) :
    parseGroup (sid.serviceIDFixedWidthBinary ++ records ++ c ++ tag ++ t)
      = some (⟨sid, devices, c, tag⟩, t) := by
  simp only [List.append_assoc]
  simp [parseGroup, readBytes_append sid.length_fixedWidth, parse_fixedWidth, hrecords,
    readBytes_append hc, readBytes_append htag]

section
variable [Hash] [X25519] {ours e : KeyPair} {m : Bytes}

variable {pr : V2PerRecipient} {r : SealV2Recipient} {recipients : List SealV2Recipient} {rng : Reader}
  {usmc : USMC}

lemma sealFor_congr {r' : SealV2Recipient} {pr' : V2PerRecipient} (hkey : r.identityKey = r'.identityKey)
    (h : sealFor ours e m r = .ok pr) (h' : sealFor ours e m r' = .ok pr') :
    pr.encryptedMessageKey = pr'.encryptedMessageKey ∧ pr.authTag = pr'.authTag := by
  obtain ⟨hc, htag⟩ := sealFor_inv h
  obtain ⟨hc', htag'⟩ := sealFor_inv h'
  rw [hkey, hc'] at hc
  have hceq := Except.ok.inj hc
  rw [hkey, ← hceq, htag'] at htag
  exact ⟨hceq.symm, (Except.ok.inj htag).symm⟩

lemma sealFor_length (hm : m.length = 32) (h : sealFor ours e m r = .ok pr) :
    pr.encryptedMessageKey.length = 32 ∧ pr.authTag.length = 16 := by
  obtain ⟨hc, htag⟩ := sealFor_inv h
  obtain ⟨ikm, _, htageq⟩ := computeAuthenticationTag_inv htag
  refine ⟨?_, by rw [htageq]; exact hkdfSHA256_length _ _ _ _ (by decide)⟩
  rw [applyAgreementXor, if_neg (not_not.mpr (show m.length = v2MessageKeyLen from hm))] at hc
  obtain ⟨s, _, hc⟩ := bind_eq_ok hc
  rw [← Except.ok.inj hc, length_xorBytes, hkdfSHA256_length _ _ _ _ (by decide), hm]
  rfl

/-- What a list of parsed groups says about the recipients and their sealed devices. -/
def Recovers (gs : List ParsedGroup) (suf : List SealV2Recipient) (sufP : List V2PerRecipient) : Prop :=
  gs.map (fun g => g.devices.map fun d => (g.serviceID, d)) =
      (suf.splitBy sameService).map (fun run => run.map fun r => (r.serviceID, r.device)) ∧
    gs.flatMap (fun g => g.devices.map fun _ => (g.encryptedMessageKey, g.authTag)) =
      sufP.map fun pr => (pr.encryptedMessageKey, pr.authTag)

lemma sealed_run (hpr : sealFor ours e m r = .ok pr) {xs : List SealV2Recipient} {ps : List V2PerRecipient}
    (hpar : List.Forall₂ (fun r pr => sealFor ours e m r = .ok pr) xs ps)
    (hkeys : ∀ x ∈ xs, x.identityKey = r.identityKey) : xs.map (fun _ => (pr.encryptedMessageKey, pr.authTag)) =
      ps.map fun p => (p.encryptedMessageKey, p.authTag) := by
  induction hpar with
  | nil => rfl
  | cons hx _ ih =>
    obtain ⟨hc, htag⟩ := sealFor_congr (hkeys _ List.mem_cons_self) hx hpr
    rw [List.map_cons, List.map_cons, hc, htag, ih fun x hx => hkeys x (List.mem_cons_of_mem _ hx)]

lemma Recovers.cons {rest : List SealV2Recipient} {restP : List V2PerRecipient} {gs : List ParsedGroup}
    (hpr : sealFor ours e m r = .ok pr)
    (hpar : List.Forall₂ (fun r pr => sealFor ours e m r = .ok pr) rest restP)
    (hkeys : ∀ x ∈ rest.take (runLength r.serviceID rest), x.identityKey = r.identityKey)
    (h : Recovers gs (rest.drop (runLength r.serviceID rest)) (restP.drop (runLength r.serviceID rest))) :
    Recovers (⟨r.serviceID, (r :: rest.take (runLength r.serviceID rest)).map SealV2Recipient.device,
      pr.encryptedMessageKey, pr.authTag⟩ :: gs) (r :: rest) (pr :: restP) := by
  obtain ⟨hdevices, hblocks⟩ := h
  refine ⟨?_, ?_⟩
  · rw [splitBy_run, List.map_cons, hdevices, List.map_cons]
    refine congrArg (· :: _) ?_
    change ((r :: rest.take _).map SealV2Recipient.device).map (fun d => (r.serviceID, d)) = _
    rw [List.map_map]
    refine List.map_congr_left fun x hx => ?_
    rw [Function.comp_apply, run_serviceID r rest x hx]
  · have hrun := sealed_run hpr (List.forall₂_take (runLength r.serviceID rest) hpar) hkeys
    rw [List.flatMap_cons, hblocks, List.map_map]
    change (pr.encryptedMessageKey, pr.authTag) ::
      (rest.take _).map (fun _ => (pr.encryptedMessageKey, pr.authTag)) ++ _ = _
    rw [hrun, List.cons_append, ← List.map_append, List.take_append_drop]
    rfl

omit [Hash] [X25519] in
lemma encodeGroup_at {pre rest : List SealV2Recipient} {preP restP : List V2PerRecipient}
    (hpre : preP.length = pre.length) (n : Nat) :
    encodeGroup (pre ++ r :: rest) (preP ++ pr :: restP) ⟨pre.length, n + 1⟩ =
      (encodeDevices r (n + 1) 0 (r :: rest.take n) >>= fun devices =>
        .ok (r.serviceID.serviceIDFixedWidthBinary ++ devices ++ pr.encryptedMessageKey ++
          pr.authTag)) := by
  have hfirst : (pre ++ r :: rest)[pre.length]? = some r := by simp
  have hpr : (preP ++ pr :: restP)[pre.length]? = some pr := by simp [← hpre]
  rw [encodeGroup, hfirst, hpr, List.drop_left, List.take_succ_cons]
  rfl

omit [Hash] [X25519] in
lemma split_after_run {α : Type} (pre : List α) (x : α) (rest : List α) (n : Nat) :
    pre ++ x :: rest = (pre ++ x :: rest.take n) ++ rest.drop n := by
  rw [List.append_assoc, List.cons_append, List.take_append_drop]

lemma encodeGroups_spec (hm : m.length = 32) {fuel : Nat} (pre : List SealV2Recipient)
    (preP : List V2PerRecipient) {suf : List SealV2Recipient} {sufP : List V2PerRecipient}
    (hfuel : suf.length ≤ fuel) (hpre : preP.length = pre.length)
    (hpar : List.Forall₂ (fun r pr => sealFor ours e m r = .ok pr) suf sufP)
    (hrange : ∀ r ∈ suf, r.InRange) (hkeys : OneKeyPerRun suf) :
    ∃ out gs, encodeGroups (pre ++ suf) (preP ++ sufP) (groupLoop fuel pre.length suf) = .ok out ∧
      (∀ t, parseGroups (groupLoop fuel pre.length suf).length (out ++ t) = some (gs, t)) ∧
      Recovers gs suf sufP := by
  -- one round of the grouping loop takes a whole run, so the induction is on the fuel
  induction fuel generalizing pre suf preP sufP with
  | zero =>
    obtain rfl : suf = [] := List.eq_nil_of_length_eq_zero (Nat.le_zero.mp hfuel)
    cases hpar
    exact ⟨[], [], rfl, fun t => rfl, rfl, rfl⟩
  | succ fuel ih =>
    cases hpar with
    | nil => exact ⟨[], [], rfl, fun t => rfl, rfl, rfl⟩
    | @cons r pr rest restP hpr hpar =>
      set n := runLength r.serviceID rest with hn
      have hnle : n ≤ rest.length := runLength_le _ _
      have hsuf : OneKeyPerRun (rest.drop n) := List.IsChain.drop hkeys (n + 1)
      -- the records of the run
      have hds : ∀ x ∈ r :: rest.take n, x.identityKey = r.identityKey ∧ x.InRange := by
        intro x hx
        rcases List.mem_cons.mp hx with rfl | hx
        · exact ⟨rfl, hrange _ List.mem_cons_self⟩
        · exact ⟨hkeys.run x hx, hrange x (List.mem_cons_of_mem _ (List.mem_of_mem_take hx))⟩
      have hcount : 0 + (r :: rest.take n).length = n + 1 := by
        rw [List.length_cons, List.length_take, Nat.min_eq_left hnle]
        omega
      obtain ⟨records, hrecords, hparse⟩ := encodeDevices_spec r hcount hds
      -- the runs after it
      have hpre' : (preP ++ pr :: restP.take n).length = (pre ++ r :: rest.take n).length := by
        simp [hpre, hpar.length_eq]
      have hlen : (pre ++ r :: rest.take n).length = pre.length + (n + 1) := by
        rw [List.length_append, ← hcount]
        omega
      have hfuel' : (rest.drop n).length ≤ fuel := by
        rw [List.length_cons] at hfuel
        rw [List.length_drop]
        omega
      obtain ⟨out, gs, hout, hgs, hrec⟩ := ih _ _ hfuel' hpre' (List.forall₂_drop n hpar)
        (fun x hx => hrange x (List.mem_cons_of_mem _ (List.mem_of_mem_drop hx))) hsuf
      rw [hlen, ← split_after_run, ← split_after_run] at hout
      rw [hlen] at hgs
      obtain ⟨hc, htag⟩ := sealFor_length hm hpr
      refine ⟨r.serviceID.serviceIDFixedWidthBinary ++ records ++ pr.encryptedMessageKey ++ pr.authTag ++
        out, _, ?_, ?_, hrec.cons hpr hpar hkeys.run⟩
      · rw [groupLoop]
        rw [encodeGroups, encodeGroup_at hpre, ← hn, hrecords, hout]
        rfl
      · intro t
        rw [groupLoop, List.length_cons, parseGroups, List.append_assoc,
          parseGroup_append (hparse (List.cons_ne_nil _ _)) hc htag]
        change (parseGroups _ (out ++ t)).bind _ = _
        rw [← hn, hgs]
        rfl

omit [Hash] [X25519] in
lemma encodeGroups_inv {fuel : Nat} (pre : List SealV2Recipient) (preP : List V2PerRecipient)
    {suf : List SealV2Recipient} {sufP : List V2PerRecipient} (hfuel : suf.length ≤ fuel) (hpre : preP.length = pre.length)
    (hlen : suf.length = sufP.length) {out : Bytes}
    (h : encodeGroups (pre ++ suf) (preP ++ sufP) (groupLoop fuel pre.length suf) = .ok out) :
    (∀ r ∈ suf, r.InRange) ∧ OneKeyPerRun suf := by
  induction fuel generalizing pre suf preP sufP out with
  | zero =>
    obtain rfl : suf = [] := List.eq_nil_of_length_eq_zero (Nat.le_zero.mp hfuel)
    exact ⟨fun r hr => absurd hr List.not_mem_nil, .nil⟩
  | succ fuel ih =>
    match suf, sufP, hlen with
    | [], [], _ => exact ⟨fun r hr => absurd hr List.not_mem_nil, .nil⟩
    | r :: rest, pr :: restP, hlen =>
      set n := runLength r.serviceID rest with hn
      have hnle : n ≤ rest.length := runLength_le _ _
      simp only [List.length_cons, Nat.add_right_cancel_iff] at hlen hfuel
      rw [groupLoop] at h
      rw [encodeGroups, encodeGroup_at hpre, ← hn] at h
      obtain ⟨block, hblock, h⟩ := bind_eq_ok h
      obtain ⟨records, hrecords, _⟩ := bind_eq_ok hblock
      obtain ⟨blocks, hblocks, _⟩ := bind_eq_ok h
      have hds := encodeDevices_inv hrecords
      have hpre' : (preP ++ pr :: restP.take n).length = (pre ++ r :: rest.take n).length := by
        simp [hpre, hlen]
      have hplen : (pre ++ r :: rest.take n).length = pre.length + (n + 1) := by
        rw [List.length_append, List.length_cons, List.length_take, Nat.min_eq_left hnle]
      rw [split_after_run pre, split_after_run preP, ← hplen] at hblocks
      obtain ⟨hrange, hkeys⟩ := ih _ _ (by rw [List.length_drop]; omega) hpre'
        (by rw [List.length_drop, List.length_drop, hlen]) hblocks
      refine ⟨?_, OneKeyPerRun.cons_run (fun x hx => (hds x (List.mem_cons_of_mem _ hx)).1) hkeys⟩
      intro x hx
      rw [← List.take_append_drop n rest] at hx
      rcases List.mem_append.mp (List.cons_append ▸ hx) with hx | hx
      · exact (hds x hx).2
      · exact hrange x hx

omit [Hash] [X25519] in
lemma length_groupLoop_le (fuel i : Nat) (suf : List SealV2Recipient) :
    (groupLoop fuel i suf).length ≤ suf.length := by
  induction fuel generalizing i suf with
  | zero => exact Nat.zero_le _
  | succ fuel ih =>
    cases suf with
    | nil => exact Nat.le_refl _
    | cons r rest =>
      rw [groupLoop, List.length_cons, List.length_cons]
      refine Nat.succ_le_succ ((ih _ _).trans ?_)
      rw [List.length_drop]
      exact Nat.sub_le _ _

/-! ## Whole messages -/

omit [Hash] [X25519] in
lemma parseSent_append {blocks raw ct : Bytes} {gs : List ParsedGroup} {n : Nat} (hn : n < 2 ^ 64)
    (hgs : ∀ t, parseGroups n (blocks ++ t) = some (gs, t)) (hraw : raw.length = 32) :
    parseSent (Spqr.appendVarint [sealedSenderV2ServiceIDSentVersion] n.toUInt64 ++ blocks ++ raw ++ ct) =
      some ⟨gs, raw, ct⟩ := by
  set head := Spqr.appendVarint [sealedSenderV2ServiceIDSentVersion] n.toUInt64 with hhead
  have hcount : n.toUInt64.toNat = n := by
    rw [Nat.toUInt64_eq, UInt64.toNat_ofNat']
    exact Nat.mod_eq_of_lt hn
  have hversion : readBytes 1 (head ++ blocks ++ raw ++ ct) =
      some ([0x23], (head ++ blocks ++ raw ++ ct).drop 1) := by
    rw [hhead, Spqr.appendVarint]
    simp only [List.append_assoc]
    exact readBytes_append rfl _
  have hvarint : Spqr.decodeVarint (head ++ blocks ++ raw ++ ct) 1 = some (n.toUInt64, head.length) := by
    rw [List.append_assoc, List.append_assoc, hhead]
    exact Spqr.decodeVarint_append [sealedSenderV2ServiceIDSentVersion] n.toUInt64 _
  have hdrop : (head ++ blocks ++ raw ++ ct).drop head.length = blocks ++ (raw ++ ct) := by
    rw [List.append_assoc, List.append_assoc, List.drop_left]
  generalize head ++ blocks ++ raw ++ ct = msg at hversion hvarint hdrop
  simp [parseSent, hversion, hvarint, hdrop, hcount, hgs, readBytes_append hraw]

lemma sealForAll_ok (hm : m.length = v2MessageKeyLen)
    (hagree : ∀ r ∈ recipients, (∃ s, e.privateKey.calculateAgreement r.identityKey = .ok s) ∧
      ∃ s, ours.privateKey.calculateAgreement r.identityKey = .ok s) :
    ∃ prs, sealForAll ours e m recipients = .ok prs := by
  induction recipients with
  | nil => exact ⟨[], rfl⟩
  | cons r rest ih =>
    obtain ⟨⟨s, hs⟩, s', hs'⟩ := hagree r List.mem_cons_self
    obtain ⟨prs, hprs⟩ := ih fun x hx => hagree x (List.mem_cons_of_mem r hx)
    have hxor : ∃ c, applyAgreementXor e r.identityKey .sending m = .ok c := by
      rw [applyAgreementXor, if_neg (not_not.mpr hm), hs]
      exact ⟨_, rfl⟩
    obtain ⟨c, hc⟩ := hxor
    have htag : ∃ tag, computeAuthenticationTag ours r.identityKey .sending e.publicKey c = .ok tag := by
      rw [computeAuthenticationTag, authTagInput, hs']
      exact ⟨_, rfl⟩
    obtain ⟨tag, htag⟩ := htag
    refine ⟨⟨r.serviceID, r.deviceID, c, tag⟩ :: prs, ?_⟩
    rw [sealForAll, sealFor, hc, ok_bind, htag, ok_bind, pure_eq_ok, ok_bind, hprs]
    rfl

variable [Aes]

omit [X25519] [Hash] in
lemma gcmSivSeal_iff {k nonce pt : Bytes} (hk : k.length = 32) (hnonce : nonce.length = 12) :
    (∃ ct, gcmSivSeal k nonce pt [] = .ok ct) ↔ pt.length ≤ maxPlaintextLen := by
  have had : ¬ ([] : Bytes).length > maxADLen := Nat.not_lt_zero _
  rw [gcmSivSeal, if_neg (not_not.mpr hk), if_neg (not_not.mpr hnonce)]
  by_cases hlong : pt.length > maxPlaintextLen
  · rw [if_pos (.inl hlong)]
    exact ⟨by rintro ⟨_, ⟨⟩⟩, fun h => absurd h (not_le.mpr hlong)⟩
  · rw [if_neg (not_or.mpr ⟨hlong, had⟩)]
    exact ⟨fun _ => not_lt.mp hlong, fun _ => ⟨_, rfl⟩⟩

lemma parseSent_sealV2 {out : SealV2SentMessage} (hlen : recipients.length < 2 ^ 63)
    (h : sealV2 (some usmc) recipients ours rng = .ok out) :
    ((∀ r ∈ recipients, r.InRange) ∧ OneKeyPerRun recipients) ∧ ∃ p, parseSent out.serialized = some p ∧
      p.ephemeral = out.ephemeralPublic.publicKeyBytes ∧ p.ciphertext = out.encryptedMessage ∧
      Recovers p.groups recipients out.perRecipient ∧ out.perRecipient.length = recipients.length := by
  obtain ⟨m, e, hm, _, heph, _, hall, henc⟩ := sealV2_inv h
  have hpar := sealForAll_inv hall
  obtain ⟨blocks, hblocks, henc⟩ := bind_eq_ok henc
  obtain ⟨hrange, hkeys⟩ := encodeGroups_inv [] [] le_rfl rfl hpar.length_eq hblocks
  obtain ⟨blocks', gs, hblocks', hgs, hrec⟩ :=
    encodeGroups_spec hm [] [] le_rfl rfl hpar hrange hkeys
  rw [List.nil_append, List.nil_append, List.length_nil, hblocks] at hblocks'
  cases hblocks'
  refine ⟨⟨hrange, hkeys⟩, ⟨gs, out.ephemeralPublic.publicKeyBytes, out.encryptedMessage⟩, ?_, rfl, rfl,
    hrec, hpar.length_eq.symm⟩
  have hcount : (groupLoop recipients.length 0 recipients).length < 2 ^ 64 :=
    lt_trans (lt_of_le_of_lt (length_groupLoop_le _ _ _) hlen) (by decide)
  rw [← Except.ok.inj henc, ← heph]
  exact parseSent_append hcount hgs out.ephemeralPublic.length_data

omit [Hash] [X25519] [Aes] in
lemma fanOut_eq {p : ParsedSent} {out : SealV2SentMessage}
    (heph : p.ephemeral = out.ephemeralPublic.publicKeyBytes) (hct : p.ciphertext = out.encryptedMessage)
    (hrec : Recovers p.groups recipients out.perRecipient) :
    p.fanOut = out.perRecipient.map (receivedMessage out) := by
  have hblocks := congrArg
    (List.map fun ct : Bytes × Bytes => (0x22 :: (ct.1 ++ ct.2 ++ p.ephemeral ++ p.ciphertext) : Bytes))
    hrec.2
  rw [List.map_map, List.map_flatMap] at hblocks
  simp only [List.map_map, Function.comp_def] at hblocks
  rw [heph, hct] at hblocks
  rw [ParsedSent.fanOut]
  simp only [ParsedSent.assemble, heph, hct]
  exact hblocks

lemma sealV2_eq (hne : recipients ≠ []) (hread : rng.read v2MessageKeyLen = some m) (he : deriveE m = .ok e) :
    sealV2 (some usmc) recipients ours rng =
      ((gcmSivSeal (deriveK m) (zeros gcmsivNonceLen) usmc.serialized []).mapError SealErr.v2Seal >>=
        fun ct => sealForAll ours e m recipients >>= fun prs =>
          encodeV2SentMessage recipients prs e.publicKey ct >>= fun bytes =>
            .ok ⟨bytes, e.publicKey, ct, prs⟩) := by
  have hlen : ¬ recipients.length = 0 := fun h => hne (List.eq_nil_of_length_eq_zero h)
  change (if recipients.length = 0 then _ else _) = _
  rw [if_neg hlen, hread]
  change (deriveE m >>= _) = _
  rw [he]
  rfl

lemma sealV2_ok (hne : recipients ≠ []) (hread : rng.read v2MessageKeyLen = some m) (he : deriveE m = .ok e)
    (hagree : ∀ r ∈ recipients, (∃ s, e.privateKey.calculateAgreement r.identityKey = .ok s) ∧
      ∃ s, ours.privateKey.calculateAgreement r.identityKey = .ok s) (hrange : ∀ r ∈ recipients, r.InRange)
    (hkeys : OneKeyPerRun recipients) (hshort : usmc.serialized.length ≤ maxPlaintextLen) :
    ∃ out, sealV2 (some usmc) recipients ours rng = .ok out := by
  have hm : m.length = v2MessageKeyLen := rng.read_length _ _ hread
  have hk : (deriveK m).length = 32 := hkdfSHA256_length _ _ _ _ (by decide)
  obtain ⟨ct, hct⟩ := (gcmSivSeal_iff hk (length_zeros gcmsivNonceLen)).mpr hshort
  obtain ⟨prs, hprs⟩ := sealForAll_ok hm hagree
  obtain ⟨blocks, _, hblocks, _⟩ :=
    encodeGroups_spec hm [] [] le_rfl rfl (sealForAll_inv hprs) hrange hkeys
  have henc : ∃ bytes, encodeV2SentMessage recipients prs e.publicKey ct = .ok bytes :=
    ⟨_, by rw [encodeV2SentMessage]; exact congrArg (· >>= _) hblocks⟩
  obtain ⟨bytes, henc⟩ := henc
  refine ⟨⟨bytes, e.publicKey, ct, prs⟩, ?_⟩
  rw [sealV2_eq hne hread he, hct, mapError_ok, ok_bind, hprs, ok_bind, henc]
  rfl

/-- The SENT form. Sealing succeeds exactly when ids are in range, consecutive entries of one service id
carry one identity key and the content is not too long for the cipher; a parser of the grammar then
recovers the maximal runs of equal service ids with their devices, and what a server assembles for the
`i`-th device is the RECEIVED form of recipient `i`. -/
theorem sent_form_exact {usmc : USMC} {recipients : List SealV2Recipient} {rng : Reader}
    (hne : recipients ≠ []) (hlen : recipients.length < 2 ^ 63)
    (hread : rng.read v2MessageKeyLen = some m) (he : deriveE m = .ok e)
    (hagree : ∀ r ∈ recipients, (∃ s, e.privateKey.calculateAgreement r.identityKey = .ok s) ∧
      ∃ s, ours.privateKey.calculateAgreement r.identityKey = .ok s) :
    ((∃ out, sealV2 (some usmc) recipients ours rng = .ok out) ↔
      (∀ r ∈ recipients, r.InRange) ∧ OneKeyPerRun recipients ∧ usmc.serialized.length ≤ maxPlaintextLen) ∧
    ∀ out, sealV2 (some usmc) recipients ours rng = .ok out → ∃ p, parseSent out.serialized = some p ∧
        p.groups.map (fun g => g.devices.map fun d => (g.serviceID, d)) =
          (recipients.splitBy sameService).map (fun run => run.map fun r => (r.serviceID, r.device)) ∧
        p.fanOut.length = recipients.length ∧
        ∀ i < recipients.length, ∃ msg, out.receivedMessageForRecipient i = .ok msg ∧
          p.fanOut[i]? = some msg := by
  refine ⟨⟨?_, ?_⟩, ?_⟩
  · rintro ⟨out, hout⟩
    obtain ⟨⟨hrange, hkeys⟩, _⟩ := parseSent_sealV2 hlen hout
    obtain ⟨m', _, _, _, _, hct, _⟩ := sealV2_inv hout
    have hk' : (deriveK m').length = 32 := hkdfSHA256_length _ _ _ _ (by decide)
    exact ⟨hrange, hkeys, (gcmSivSeal_iff hk' (length_zeros gcmsivNonceLen)).mp ⟨_, hct⟩⟩
  · rintro ⟨hrange, hkeys, hshort⟩
    exact sealV2_ok hne hread he hagree hrange hkeys hshort
  · intro out hout
    obtain ⟨_, p, hp, heph, hct, hrec, hcount⟩ := parseSent_sealV2 hlen hout
    have hfan := fanOut_eq heph hct hrec
    refine ⟨p, hp, hrec.1, by rw [hfan, List.length_map, hcount], fun i hi => ?_⟩
    have hpr : out.perRecipient[i]? = some (out.perRecipient[i]) := List.getElem?_eq_getElem (by omega)
    refine ⟨receivedMessage out out.perRecipient[i], ?_, ?_⟩
    · rw [SealV2SentMessage.receivedMessageForRecipient, if_neg (by omega), Int.toNat_natCast, hpr]
      rfl
    · rw [hfan, List.getElem?_map, hpr]
      rfl

end

/-! ## Instances -/

def zeroService : ServiceID := ⟨.aci, zeros 16, length_zeros_16⟩

def zeroDevice (deviceID registrationID : UInt32) : SealV2Recipient :=
  ⟨zeroService, oneKeyPair.publicKey, deviceID, registrationID⟩

def shortContent : USMC :=
  ⟨messageTypeWhisper, ⟨none, some 0, oneKeyPair.publicKey, 1, "alice", none, ⟨0⟩, [], [], []⟩, some [1], 0,
    none, [1, 2, 3]⟩

lemma agreement_zeroDevice (keys : KeyPair) (deviceID registrationID : UInt32) :
    ∃ s, @PrivateKey.calculateAgreement oneX25519 keys.privateKey
      (zeroDevice deviceID registrationID).identityKey = .ok s := ⟨_, rfl⟩

/-- Two devices of one recipient share a group. -/
theorem sent_form_exact_two : ∃ out p,
    @sealV2 zeroHash oneX25519 plainAes (some shortContent) [zeroDevice 1 7, zeroDevice 2 9] oneKeyPair
      zeroSource = .ok out ∧ parseSent out.serialized = some p ∧
    p.groups.map (fun g => g.devices.map fun d => (g.serviceID, d)) =
      [[(zeroService, 1, 7), (zeroService, 2, 9)]] := by
  let _ := zeroHash
  let _ := oneX25519
  let _ := plainAes
  obtain ⟨e, he⟩ := deriveE_ok oneX25519_commutes (zeros 32)
  have hagree : ∀ r ∈ [zeroDevice 1 7, zeroDevice 2 9],
      (∃ s, e.privateKey.calculateAgreement r.identityKey = .ok s) ∧
        ∃ s, oneKeyPair.privateKey.calculateAgreement r.identityKey = .ok s := by
    intro r hr
    rcases List.mem_pair.mp hr with rfl | rfl
    · exact ⟨agreement_zeroDevice e 1 7, agreement_zeroDevice oneKeyPair 1 7⟩
    · exact ⟨agreement_zeroDevice e 2 9, agreement_zeroDevice oneKeyPair 2 9⟩
  have hrange : ∀ r ∈ [zeroDevice 1 7, zeroDevice 2 9], r.InRange := by
    intro r hr
    rcases List.mem_pair.mp hr with rfl | rfl
    · exact ⟨by decide, by decide, by decide⟩
    · exact ⟨by decide, by decide, by decide⟩
  have hkeys : OneKeyPerRun [zeroDevice 1 7, zeroDevice 2 9] := List.isChain_pair.mpr fun _ => rfl
  have hform := @sent_form_exact zeroHash oneX25519 oneKeyPair e (zeros 32) plainAes shortContent
    [zeroDevice 1 7, zeroDevice 2 9] zeroSource (List.cons_ne_nil _ _) (by decide) rfl he hagree
  obtain ⟨out, hout⟩ := hform.1.mpr ⟨hrange, hkeys, by decide⟩
  obtain ⟨p, hp, hgroups, _⟩ := hform.2 out hout
  exact ⟨out, p, hout, hp, hgroups⟩

@[reducible] noncomputable def contentWire : Wire UsmcPB :=
  let _ := Encodable.ofCountable UsmcPB
  { marshal := fun m => zeros (Encodable.encode m) ++ 1 :: m.content.getD []
    unmarshal := fun b => Encodable.decode (b.takeWhile (· == 0)).length
    unmarshal_marshal := fun m => by
      have hzeros : ∀ b ∈ zeros (Encodable.encode m), (b == 0) = true := fun b hb => by
        rw [List.eq_of_mem_replicate hb]
        rfl
      rw [List.takeWhile_append_of_pos hzeros]
      simp }

/-- A content over the cipher's limit is not sealed, although the recipient meets the conditions. -/
theorem sealV2_content_too_long : ∃ (sender : SenderCertificate) (u : USMC),
    @newUSMC contentWire messageTypeWhisper (some sender) (some (zeros (2 ^ 36))) 0 [] = .ok u ∧
    (zeroDevice 1 7).InRange ∧ OneKeyPerRun [zeroDevice 1 7] ∧
    @sealV2 zeroHash oneX25519 plainAes (some u) [zeroDevice 1 7] oneKeyPair zeroSource =
      .error (.v2Seal .inputTooLong) := by
  let _ := zeroHash
  let _ := oneX25519
  let _ := plainAes
  let _ := contentWire
  obtain ⟨u, hu, hserialized⟩ : ∃ u, newUSMC messageTypeWhisper (some shortContent.sender)
      (some (zeros (2 ^ 36))) 0 [] = .ok u ∧ zeros (2 ^ 36) <:+ u.serialized :=
    ⟨_, rfl, _, (List.append_assoc _ [1] (zeros (2 ^ 36))).trans rfl⟩
  have hlong : u.serialized.length > maxPlaintextLen := by
    have hle := hserialized.length_le
    rw [length_zeros] at hle
    exact lt_of_lt_of_le (by decide) hle
  obtain ⟨e, he⟩ := deriveE_ok oneX25519_commutes (zeros 32)
  refine ⟨shortContent.sender, u, hu, ⟨by decide, by decide, by decide⟩, List.isChain_singleton _, ?_⟩
  rw [sealV2_eq (List.cons_ne_nil _ _) rfl he, gcmSivSeal, if_neg (by decide), if_neg (by decide),
    if_pos (.inl hlong)]
  rfl

end LibSignal.SealedSender
