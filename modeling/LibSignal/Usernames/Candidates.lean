import LibSignal.Usernames.Hash

/-!
# Username candidates

Model of the candidate generation of `usernames/usernames.go`.
-/

namespace LibSignal.Usernames
open Chunked (Bytes)
open Crypto Lib

/-- The source of `rand.Int`: a draw is below its bound, and `none` is an error of the reader. -/
structure IntSource where
  State : Type
  int : State → (max : Nat) → Option (Nat × State)
  int_lt : ∀ {st max n st'}, int st max = some (n, st') → n < max

def discriminatorRanges : List (Nat × Nat) :=
  [(1, 100), (100, 1000), (1000, 10000), (10000, 100000), (100000, 1000000), (1000000, 10000000),
    (10000000, 100000000), (100000000, 1000000000)]

def candidatesPerRange : List Nat := [4, 3, 3, 2, 2, 2, 2, 2]

structure HashCandidate where
  username : Bytes
  hash : Bytes
  hashHex : Bytes
deriving DecidableEq, Repr

def hexDigit (n : Nat) : UInt8 := (if n < 10 then 0x30 + n else 0x57 + n).toUInt8

def encodeToString (b : Bytes) : Bytes := b.flatMap fun x => [hexDigit (x.toNat / 16), hexDigit (x.toNat % 16)]

section
variable (src : IntSource)

def sampleLoop (start length amount : Nat) :
    Nat → src.State → List Nat → List Nat → Option (Except UsernameErr (List Nat × src.State))
  | 0, _, _, _ => none
  | fuel + 1, st, seen, out =>
    if out.length < amount then
      match src.int st length with
      | none => some (.error .randomSource)
      | some (n, st) =>
        let v := start + n
        if v ∈ seen then sampleLoop start length amount fuel st seen out
        else sampleLoop start length amount fuel st (v :: seen) (out ++ [v])
    else some (.ok (out, st))

def sampleRange (fuel : Nat) (st : src.State) (start stop amount : Nat) :
    Option (Except UsernameErr (List Nat × src.State)) :=
  sampleLoop src start (stop - start) amount fuel st [] []

def candidatesLoop (fuel : Nat) (nickname : Bytes) :
    List ((Nat × Nat) × Nat) → src.State → List Bytes → Option (Except UsernameErr (List Bytes))
  | [], _, out => some (.ok out)
  | ((start, stop), count) :: rest, st, out =>
    match sampleRange src fuel st start stop count with
    | none => none
    | some (.error e) => some (.error e)
    | some (.ok (values, st)) =>
      candidatesLoop fuel nickname rest st (out ++ values.map (formatParts nickname))

def candidatesFromReader (fuel : Nat) (st : src.State) (nickname : Bytes) (limits : NicknameLimits) :
    Option (Except UsernameErr (List Bytes)) :=
  match validateNickname nickname limits with
  | .error e => some (.error e)
  | .ok () => candidatesLoop src fuel nickname (discriminatorRanges.zip candidatesPerRange) st []

variable [Sha512] [Ristretto255] (bp : BasePoints)

def hashCandidate (candidate : Bytes) : Except UsernameErr HashCandidate := do
  let hash ← reserveUsernameHash bp candidate
  return ⟨candidate, hash, encodeToString hash⟩

def candidatesWithHashesFromReader (fuel : Nat) (st : src.State) (nickname : Bytes) (limits : NicknameLimits) :
    Option (Except UsernameErr (List HashCandidate)) :=
  match candidatesFromReader src fuel st nickname limits with
  | none => none
  | some (.error e) => some (.error e)
  | some (.ok candidates) => some (candidates.mapM (hashCandidate bp))

end

/-! ## What is drawn -/

structure Drawn (range : Nat × Nat) (count : Nat) (values : List Nat) : Prop where
  length : values.length = count
  nodup : values.Nodup
  mem : ∀ v ∈ values, range.1 ≤ v ∧ v < range.2

variable {src : IntSource}

variable {fuel : Nat} {groups : List (List Nat)} {jobs : List ((Nat × Nat) × Nat)} {nickname : Bytes}
  {st : src.State}

lemma sampleLoop_drawn {start stop amount : Nat} {st' : src.State} {seen out values : List Nat}
    (hseen : ∀ v ∈ out, v ∈ seen) (hlength : out.length ≤ amount) (hnodup : out.Nodup)
    (hmem : ∀ v ∈ out, start ≤ v ∧ v < stop)
    (h : sampleLoop src start (stop - start) amount fuel st seen out = some (.ok (values, st'))) :
    Drawn (start, stop) amount values := by
  induction fuel generalizing st seen out with
  | zero => cases h
  | succ fuel ih =>
    rw [sampleLoop] at h
    split at h
    · rename_i hmore
      split at h
      · cases h
      · rename_i n st1 hint
        have hn := src.int_lt hint
        dsimp only at h
        split at h
        · exact ih hseen hlength hnodup hmem h
        · -- a value not seen before is appended
          rename_i hfresh
          apply ih _ _ _ _ h
          · intro v hv
            rcases List.mem_append.mp hv with hv | hv
            · exact List.mem_cons_of_mem _ (hseen v hv)
            · rw [List.mem_singleton.mp hv]
              exact List.mem_cons_self
          · rw [List.length_append, List.length_singleton]
            exact hmore
          · rw [List.nodup_append]
            refine ⟨hnodup, List.nodup_singleton _, ?_⟩
            intro a ha b hb heq
            rw [List.mem_singleton.mp hb] at heq
            exact hfresh (hseen _ (heq ▸ ha))
          · intro v hv
            rcases List.mem_append.mp hv with hv | hv
            · exact hmem v hv
            · rw [List.mem_singleton.mp hv]
              omega
    · rename_i hdone
      cases h
      exact ⟨by omega, hnodup, hmem⟩

lemma sampleRange_drawn {start stop amount : Nat} {st' : src.State} {values : List Nat}
    (h : sampleRange src fuel st start stop amount = some (.ok (values, st'))) :
    Drawn (start, stop) amount values :=
  sampleLoop_drawn (fun _ hv => hv) (Nat.zero_le _) List.nodup_nil nofun h

lemma candidatesLoop_drawn {out result : List Bytes}
    (h : candidatesLoop src fuel nickname jobs st out = some (.ok result)) :
    ∃ groups : List (List Nat), List.Forall₂ (fun job values => Drawn job.1 job.2 values) jobs groups ∧
      result = out ++ groups.flatten.map (formatParts nickname) := by
  induction jobs generalizing st out with
  | nil =>
    cases h
    exact ⟨[], List.Forall₂.nil, (List.append_nil _).symm⟩
  | cons job jobs ih =>
    obtain ⟨⟨start, stop⟩, count⟩ := job
    rw [candidatesLoop] at h
    split at h
    · cases h
    · cases h
    · rename_i values st1 hsample
      obtain ⟨groups, hgroups, hresult⟩ := ih h
      refine ⟨values :: groups, List.Forall₂.cons (sampleRange_drawn hsample) hgroups, ?_⟩
      rw [hresult, List.flatten_cons, List.map_append, List.append_assoc]

lemma nodup_flatten_of_drawn (hgroups : List.Forall₂ (fun job values => Drawn job.1 job.2 values) jobs groups)
    (hranges : jobs.Pairwise fun job job' => job.1.2 ≤ job'.1.1) : groups.flatten.Nodup := by
  induction hgroups with
  | nil => exact List.nodup_nil
  | @cons job values jobs groups hdrawn hrest ih =>
    rw [List.pairwise_cons] at hranges
    rw [List.flatten_cons, List.nodup_append]
    refine ⟨hdrawn.nodup, ih hranges.2, ?_⟩
    intro a ha b hb heq
    obtain ⟨group, hgroup, hb⟩ := List.mem_flatten.mp hb
    obtain ⟨i, hi, rfl⟩ := List.mem_iff_getElem.mp hgroup
    -- the group of `b` comes from a later range
    have hi' : i < jobs.length := by rw [hrest.length_eq]; exact hi
    have hlater := (hrest.get hi' hi).mem b hb
    have horder := hranges.1 _ (List.getElem_mem hi')
    have hbelow := (hdrawn.mem a ha).2
    have hlow : jobs[i].1.1 ≤ b := hlater.1
    omega

/-! ## The candidates -/

def rangeJobs : List ((Nat × Nat) × Nat) := discriminatorRanges.zip candidatesPerRange

lemma rangeJobs_ordered : rangeJobs.Pairwise fun job job' => job.1.2 ≤ job'.1.1 := by decide

lemma rangeJobs_bounds : ∀ job ∈ rangeJobs, 1 ≤ job.1.1 ∧ job.1.2 ≤ 10 ^ 9 := by decide

lemma length_flatten_of_drawn (hgroups : List.Forall₂ (fun job values => Drawn job.1 job.2 values) jobs groups) :
    groups.flatten.length = (jobs.map Prod.snd).sum := by
  induction hgroups with
  | nil => rfl
  | cons hdrawn _ ih => rw [List.flatten_cons, List.length_append, ih, hdrawn.length, List.map_cons, List.sum_cons]

lemma mem_flatten_of_drawn {v : Nat}
    (hgroups : List.Forall₂ (fun job values => Drawn job.1 job.2 values) jobs groups) (hv : v ∈ groups.flatten) :
    ∃ job ∈ jobs, job.1.1 ≤ v ∧ v < job.1.2 := by
  induction hgroups with
  | nil => cases hv
  | @cons job values jobs groups hdrawn hrest ih =>
    rw [List.flatten_cons, List.mem_append] at hv
    rcases hv with hv | hv
    · exact ⟨job, List.mem_cons_self, hdrawn.mem v hv⟩
    · obtain ⟨job', hjob, hrange⟩ := ih hv
      exact ⟨job', List.mem_cons_of_mem _ hjob, hrange⟩

lemma formatParts_injective (nickname : Bytes) : Function.Injective (formatParts nickname) := by
  intro m n h
  have htail := List.append_cancel_left h
  exact decimalPadded_injective 2 (List.cons.inj htail).2

lemma parse_formatParts {n : Nat} (hstart : validatePrefix nickname = .ok ())
    (hhard : validateNicknameHard nickname = .ok ()) (hpos : 0 < n) (hlt : n < 2 ^ 64) :
    ∃ d, parse (formatParts nickname n) = .ok ⟨nickname, d⟩ ∧ d.toNat = n := by
  obtain ⟨hdisc, hvalue⟩ := isDiscriminator_decimalPadded hpos hlt
  obtain ⟨d, hd⟩ := validateDiscriminator_ok.mpr hdisc
  refine ⟨d, ?_, ?_⟩
  · rw [formatParts, parse_split hdisc.dot_notMem, fromPartsWithoutSoftLimit, hstart, ok_bind, hd, ok_bind,
      hhard, ok_bind]
    rfl
  · rw [(validateDiscriminator_value hd).2.1, hvalue]

lemma validateNickname_inv {limits : NicknameLimits} (h : validateNickname nickname limits = .ok ()) :
    validatePrefix nickname = .ok () ∧ validateNicknameHard nickname = .ok () := by
  obtain ⟨_, hstart, h⟩ := bind_eq_ok h
  obtain ⟨_, hhard, _⟩ := bind_eq_ok h
  exact ⟨hstart, hhard⟩

lemma mapM_hashCandidate [Sha512] [Ristretto255] (bp : BasePoints) {candidates : List Bytes}
    (h : ∀ s ∈ candidates, ∃ u, parse s = .ok u) : ∃ hashed, candidates.mapM (hashCandidate bp) = .ok hashed ∧
      hashed.map HashCandidate.username = candidates := by
  induction candidates with
  | nil => exact ⟨[], rfl, rfl⟩
  | cons s candidates ih =>
    rw [List.forall_mem_cons] at h
    obtain ⟨⟨u, hu⟩, hrest⟩ := h
    obtain ⟨hashed, hmap, hnames⟩ := ih hrest
    obtain ⟨_, _, hstart, _, hhard⟩ := parse_inv hu
    obtain ⟨hash, hhash⟩ := reserveHash_ok bp (isLowerNickname_toLower hstart hhard)
    have hone : hashCandidate bp s = .ok ⟨s, hash, encodeToString hash⟩ := by
      rw [hashCandidate, reserveUsernameHash, hu, ok_bind, hhash, ok_bind]
      rfl
    refine ⟨⟨s, hash, encodeToString hash⟩ :: hashed, ?_, ?_⟩
    · rw [List.mapM_cons, hone, ok_bind, hmap, ok_bind]
      rfl
    · rw [List.map_cons, hnames]

/-- What `CandidatesFromReader` returns: twenty different strings, each accepted with the given nickname,
with discriminators drawn in order from the ranges and all below `10^9`. Hashing them then succeeds. -/
theorem candidates_valid [Sha512] [Ristretto255] (bp : BasePoints) {fuel : Nat} {st : src.State}
    {nickname : Bytes} {limits : NicknameLimits} {out : List Bytes}
    (h : candidatesFromReader src fuel st nickname limits = some (.ok out)) :
    out.length = 20 ∧ out.Nodup ∧ (∀ s ∈ out, ∃ d, parse s = .ok ⟨nickname, d⟩) ∧ (∃ groups : List (List Nat),
      List.Forall₂ (fun job values => Drawn job.1 job.2 values)
        (discriminatorRanges.zip candidatesPerRange) groups ∧
      out = groups.flatten.map (formatParts nickname) ∧ ∀ v ∈ groups.flatten, v < 10 ^ 9) ∧
    ∃ hashed, candidatesWithHashesFromReader src bp fuel st nickname limits = some (.ok hashed) ∧
      hashed.map HashCandidate.username = out := by
  have hcandidates := h
  rw [candidatesFromReader] at h
  split at h
  · cases h
  · rename_i hvalid
    obtain ⟨hstart, hhard⟩ := validateNickname_inv hvalid
    obtain ⟨groups, hgroups, hout⟩ := candidatesLoop_drawn h
    rw [List.nil_append] at hout
    have hbounds : ∀ v ∈ groups.flatten, 1 ≤ v ∧ v < 10 ^ 9 := by
      intro v hv
      obtain ⟨job, hjob, hlo, hhi⟩ := mem_flatten_of_drawn hgroups hv
      obtain ⟨hone, hmax⟩ := rangeJobs_bounds job hjob
      omega
    have hparse : ∀ s ∈ out, ∃ d, parse s = .ok ⟨nickname, d⟩ := by
      intro s hs
      rw [hout] at hs
      obtain ⟨v, hv, rfl⟩ := List.mem_map.mp hs
      have hv := hbounds v hv
      obtain ⟨d, hd, _⟩ := parse_formatParts hstart hhard hv.1 (by omega)
      exact ⟨d, hd⟩
    refine ⟨?_, ?_, hparse, ⟨groups, hgroups, hout, fun v hv => (hbounds v hv).2⟩, ?_⟩
    · rw [hout, List.length_map, length_flatten_of_drawn hgroups]
      rfl
    · rw [hout]
      exact (nodup_flatten_of_drawn hgroups rangeJobs_ordered).map (formatParts_injective nickname)
    · obtain ⟨hashed, hmap, hnames⟩ := mapM_hashCandidate bp fun s hs => ⟨_, (hparse s hs).choose_spec⟩
      refine ⟨hashed, ?_, hnames⟩
      rw [candidatesWithHashesFromReader, hcandidates]
      exact congrArg some hmap

def countingSource : IntSource where
  State := Nat
  int st max := if 0 < max then some (st % max, st + 1) else none
  int_lt := by
    intro st max n st' h
    split at h
    · cases h
      exact Nat.mod_lt _ ‹_›
    · cases h

def countedCandidates : List Bytes :=
  [1, 2, 3, 4, 104, 105, 106, 1007, 1008, 1009, 10010, 10011, 100012, 100013, 1000014, 1000015, 10000016,
    10000017, 100000018, 100000019].map (formatParts [0x61, 0x62, 0x63])

/-- The candidates of that source. -/
theorem candidates_valid_counted : countedCandidates.length = 20 ∧ countedCandidates.Nodup ∧
    (∀ s ∈ countedCandidates, ∃ d, parse s = .ok ⟨[0x61, 0x62, 0x63], d⟩) ∧ (∃ groups : List (List Nat),
      List.Forall₂ (fun job values => Drawn job.1 job.2 values)
        (discriminatorRanges.zip candidatesPerRange) groups ∧
      countedCandidates = groups.flatten.map (formatParts [0x61, 0x62, 0x63]) ∧
      ∀ v ∈ groups.flatten, v < 10 ^ 9) ∧
    ∃ hashed, @candidatesWithHashesFromReader countingSource zeroSha512 unitRistretto unitBasePoints 10
        (0 : Nat) [0x61, 0x62, 0x63] defaultNicknameLimits = some (.ok hashed) ∧
      hashed.map HashCandidate.username = countedCandidates :=
  @candidates_valid countingSource zeroSha512 unitRistretto unitBasePoints 10 (0 : Nat) [0x61, 0x62, 0x63]
    defaultNicknameLimits countedCandidates (by decide +kernel)

end LibSignal.Usernames
