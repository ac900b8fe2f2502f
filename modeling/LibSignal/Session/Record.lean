import LibSignal.Lib.Archive
import LibSignal.Session.State

/-!
# Session records

Model of `session/record.go`: the current session of a peer and the archived ones, each stored as the bytes of
its `SessionStructure`.
-/

namespace LibSignal.Session
open Chunked (Bytes)
open Proto Lib

structure RecordStructure where
  currentSession : Option SessionState
  previousSessions : List Bytes
deriving DecidableEq, Repr

@[ext]
structure SessionRecord where
  current : Option SessionState
  previousSessions : List Bytes
deriving DecidableEq, Repr

namespace SessionRecord

def fresh : SessionRecord := ⟨none, []⟩

section
variable [Wire SessionState]

def archiveCurrentState (r : SessionRecord) : SessionRecord :=
  match r.current with
  | none => r
  | some s =>
    let encoded := marshal s.clearUnacknowledgedPreKeyMessage
    let previous :=
      if r.previousSessions.length ≥ archivedStatesMaxLength then
        r.previousSessions.take (r.previousSessions.length - 1)
      else r.previousSessions
    ⟨none, encoded :: previous⟩

def promoteState (r : SessionRecord) (newState : SessionState) : SessionRecord :=
  { r.archiveCurrentState with current := some newState }

def promoteOldSession (r : SessionRecord) (oldIndex : Int) : Except SessionErr SessionRecord :=
  if oldIndex < 0 ∨ oldIndex ≥ r.previousSessions.length then
    .error (.archivedIndexOutOfRange oldIndex r.previousSessions.length)
  else
    match (r.previousSessions[oldIndex.toNat]?).bind unmarshal with
    | none => .error (.decodingArchivedSession oldIndex.toNat)
    | some s =>
      .ok (promoteState { r with previousSessions := r.previousSessions.eraseIdx oldIndex.toNat } s)

end

section
variable [Wire RecordStructure]

def serialize (r : SessionRecord) : Bytes :=
  marshal ({ currentSession := r.current, previousSessions := r.previousSessions } : RecordStructure)

def deserialize (b : Bytes) : Except SessionErr SessionRecord :=
  match unmarshal (α := RecordStructure) b with
  | none => .error .decodingRecord
  | some rec => .ok ⟨rec.currentSession, rec.previousSessions⟩

@[simp] lemma deserialize_serialize (r : SessionRecord) : deserialize r.serialize = .ok r := by
  rw [deserialize, serialize, unmarshal_marshal]

end

end SessionRecord

/-! ## Runs of operations -/

inductive RecordOp where
  | promoteState (newState : SessionState)
  | archiveCurrentState
  | promoteOldSession (oldIndex : Int)
  | reload

section
variable [Wire SessionState] [Wire RecordStructure]

def RecordOp.run (op : RecordOp) (r : SessionRecord) : Except SessionErr SessionRecord :=
  match op with
  | promoteState s => .ok (r.promoteState s)
  | archiveCurrentState => .ok r.archiveCurrentState
  | promoteOldSession i => r.promoteOldSession i
  | reload => SessionRecord.deserialize r.serialize

def RecordOp.apply (op : RecordOp) (r : SessionRecord) : SessionRecord :=
  match op.run r with
  | .ok r' => r'
  | .error _ => r

def runOps (ops : List RecordOp) : SessionRecord := ops.foldl (fun r op => op.apply r) .fresh

omit [Wire SessionState] [Wire RecordStructure] in
def RecordOp.track (op : RecordOp) (a : Archive) : Archive :=
  match op with
  | promoteState _ => a.promote archivedStatesMaxLength
  | archiveCurrentState => a.archive archivedStatesMaxLength
  | promoteOldSession i => if i < 0 then a else a.promoteOld archivedStatesMaxLength i.toNat
  | reload => a

omit [Wire SessionState] [Wire RecordStructure] in
def history (ops : List RecordOp) : Archive := ops.foldl (fun a op => op.track a) .start

omit [Wire SessionState] [Wire RecordStructure] in
def promoted (ops : List RecordOp) : List SessionState :=
  ops.filterMap fun op =>
    match op with
    | .promoteState s => some s
    | _ => none

omit [Wire SessionState] [Wire RecordStructure] in
def settled (ops : List RecordOp) (k : Nat) : SessionState :=
  ((promoted ops).getD k .empty).clearUnacknowledgedPreKeyMessage

/-- The record holds the sessions of the archive, apart from a pending pre-key message of the current one. -/
structure Holds (content : Nat → SessionState) (r : SessionRecord) (a : Archive) : Prop where
  current : r.current.map (·.clearUnacknowledgedPreKeyMessage) = a.current.map content
  previous : r.previousSessions = a.stored.map fun p => marshal (content p.1)

end

section
variable [Wire SessionState] {content : Nat → SessionState} {r : SessionRecord} {a : Archive}

namespace Holds

lemma length (h : Holds content r a) : r.previousSessions.length = a.stored.length := by
  rw [h.previous, List.length_map]

lemma congr (h : Holds content r a) {content' : Nat → SessionState}
    (heq : ∀ k ∈ a.held, content' k = content k) : Holds content' r a where
  current := by
    rw [h.current]
    refine Option.map_congr fun k hk => (heq k ?_).symm
    exact List.mem_append_left _ (Option.mem_toList.mpr hk)
  previous := by
    rw [h.previous]
    refine List.map_congr_left fun p hp => ?_
    rw [heq p.1 (List.mem_append_right _ (List.mem_map_of_mem hp))]

lemma current_eq_none (h : Holds content r a) : r.current = none ↔ a.current = none := by
  rw [← Option.map_eq_none_iff, h.current, Option.map_eq_none_iff]

lemma kept (h : Holds content r a) :
    (if r.previousSessions.length ≥ archivedStatesMaxLength then
        r.previousSessions.take (r.previousSessions.length - 1)
      else r.previousSessions)
      = (a.kept archivedStatesMaxLength).map fun p => marshal (content p.1) := by
  rw [Archive.kept, h.length]
  split
  · rw [h.previous, List.dropLast_eq_take, List.map_take]
  · exact h.previous

lemma archive (h : Holds content r a) :
    Holds content r.archiveCurrentState (a.archive archivedStatesMaxLength) := by
  have hcur := h.current
  cases hr : r.current with
  | none =>
    rw [SessionRecord.archiveCurrentState, hr, Archive.archive, h.current_eq_none.mp hr]
    exact h
  | some s =>
    cases ha : a.current with
    | none =>
      rw [h.current_eq_none.mpr ha] at hr
      cases hr
    | some k =>
      rw [hr, ha] at hcur
      have hs : s.clearUnacknowledgedPreKeyMessage = content k := Option.some.inj hcur
      rw [SessionRecord.archiveCurrentState, hr, Archive.archive, ha]
      refine ⟨rfl, ?_⟩
      dsimp only
      rw [h.kept, hs]
      rfl

lemma install (h : Holds content r a) {a' : Archive} {s : SessionState} {k : Nat}
    (hs : s.clearUnacknowledgedPreKeyMessage = content k) (hcur : a'.current = some k)
    (hstored : a'.stored = a.stored) : Holds content { r with current := some s } a' where
  current := by
    rw [hcur]
    exact congrArg some hs
  previous := by
    rw [hstored]
    exact h.previous

lemma erase (h : Holds content r a) (i : Nat) :
    Holds content { r with previousSessions := r.previousSessions.eraseIdx i }
      { a with stored := a.stored.eraseIdx i } where
  current := h.current
  previous := by
    dsimp only
    rw [h.previous, List.eraseIdx_map]

lemma promoteOldSession_eq (h : Holds content r a)
    (hsettled : ∀ k, (content k).clearUnacknowledgedPreKeyMessage = content k)
    (hsound : a.Sound archivedStatesMaxLength) {i : Nat} {p : Nat × Nat} (hp : a.stored[i]? = some p) :
    r.promoteOldSession i = .ok ⟨some (content p.1),
        (r.current.map fun s => marshal s.clearUnacknowledgedPreKeyMessage).toList ++
          r.previousSessions.eraseIdx i⟩ ∧ Holds content ⟨some (content p.1),
        (r.current.map fun s => marshal s.clearUnacknowledgedPreKeyMessage).toList ++
          r.previousSessions.eraseIdx i⟩ (a.promoteOld archivedStatesMaxLength i) := by
  obtain ⟨hi, -⟩ := List.getElem?_eq_some_iff.mp hp
  have hroom : (r.previousSessions.eraseIdx i).length < archivedStatesMaxLength := by
    rw [(h.erase i).length]
    exact Archive.length_eraseIdx_lt hsound hp
  have hget : (r.previousSessions[i]?).bind unmarshal = some (content p.1) := by
    rw [h.previous, List.getElem?_map, hp]
    exact unmarshal_marshal _
  have hvalid : ¬ ((i : Int) < 0 ∨ (i : Int) ≥ r.previousSessions.length) := by
    rw [h.length]
    omega
  -- with room in the archive nothing is dropped
  have hresult : SessionRecord.promoteState { r with previousSessions := r.previousSessions.eraseIdx i }
      (content p.1) = ⟨some (content p.1),
        (r.current.map fun s => marshal s.clearUnacknowledgedPreKeyMessage).toList ++
          r.previousSessions.eraseIdx i⟩ := by
    rw [SessionRecord.promoteState, SessionRecord.archiveCurrentState]
    cases r.current with
    | none => rfl
    | some s =>
      dsimp only
      rw [if_neg (not_le.mpr hroom)]
      rfl
  refine ⟨?_, ?_⟩
  · rw [SessionRecord.promoteOldSession, if_neg hvalid, Int.toNat_natCast, hget]
    exact congrArg Except.ok hresult
  · rw [← hresult, Archive.promoteOld_some hp]
    exact (h.erase i).archive.install (hsettled p.1) rfl rfl

lemma promoteOldSession_invalid (r : SessionRecord) {i : Int} (hi : i < 0 ∨ i ≥ r.previousSessions.length) :
    r.promoteOldSession i = .error (.archivedIndexOutOfRange i r.previousSessions.length) := if_pos hi

end Holds

omit [Wire SessionState] in
lemma settled_settled (ops : List RecordOp) (k : Nat) :
    (settled ops k).clearUnacknowledgedPreKeyMessage = settled ops k := rfl

omit [Wire SessionState] in
lemma promoted_append (ops : List RecordOp) (op : RecordOp) :
    promoted (ops ++ [op]) = promoted ops ++ promoted [op] := List.filterMap_append

omit [Wire SessionState] in
lemma settled_append (ops : List RecordOp) (op : RecordOp) {k : Nat} (hk : k < (promoted ops).length) :
    settled (ops ++ [op]) k = settled ops k := by
  rw [settled, settled, promoted_append, List.getD_append _ _ _ _ hk]

omit [Wire SessionState] in
lemma lt_count (h : a.Sound archivedStatesMaxLength) {k : Nat} (hk : k ∈ a.held) : k < a.count :=
  List.mem_range.mp ((h.complete.mem_iff).mp (List.mem_append_left _ hk))

variable [Wire RecordStructure]

structure Kept (ops : List RecordOp) (r : SessionRecord) (a : Archive) : Prop where
  sound : a.Sound archivedStatesMaxLength
  count : a.count = (promoted ops).length
  holds : Holds (settled ops) r a

omit [Wire SessionState] [Wire RecordStructure] in
lemma length_promoted_append (ops : List RecordOp) (op : RecordOp) :
    (promoted (ops ++ [op])).length = (promoted ops).length + (promoted [op]).length := by
  rw [promoted_append, List.length_append]

lemma RecordOp.apply_ok {op : RecordOp} {r' : SessionRecord} (h : op.run r = .ok r') : op.apply r = r' := by
  rw [apply, h]

lemma Kept.step {ops : List RecordOp} (h : Kept ops r a) (op : RecordOp) :
    Kept (ops ++ [op]) (op.apply r) (op.track a) := by
  have hcap : 0 < archivedStatesMaxLength := by decide
  have hsame : Holds (settled (ops ++ [op])) r a :=
    h.holds.congr fun k hk => settled_append ops op (h.count ▸ lt_count h.sound hk)
  have hlen := length_promoted_append ops op
  cases op with
  | promoteState s =>
    refine ⟨h.sound.promote hcap, ?_, hsame.archive.install ?_ rfl rfl⟩
    · rw [hlen, ← h.count]
      rfl
    · rw [settled, promoted_append, h.count, List.getD_append_right _ _ _ _ le_rfl, Nat.sub_self]
      rfl
  | archiveCurrentState =>
    refine ⟨h.sound.archive hcap, ?_, hsame.archive⟩
    rw [hlen, ← h.count]
    exact Archive.archive_count _ _
  | promoteOldSession i =>
    have hcount : a.count = (promoted (ops ++ [.promoteOldSession i])).length := by
      rw [hlen, ← h.count]
      rfl
    by_cases hi : i < 0 ∨ i ≥ r.previousSessions.length
    · -- the index is refused, and the archive has no session there either
      have hrecord : (RecordOp.promoteOldSession i).apply r = r := by
        rw [RecordOp.apply, RecordOp.run, Holds.promoteOldSession_invalid r hi]
      have harchive : (RecordOp.promoteOldSession i).track a = a := by
        rw [RecordOp.track]
        split
        · rfl
        · rename_i hneg
          have hout : a.stored[i.toNat]? = none := by
            rw [List.getElem?_eq_none_iff, ← h.holds.length]
            omega
          rw [Archive.promoteOld, hout]
      rw [hrecord, harchive]
      exact ⟨h.sound, hcount, hsame⟩
    · obtain ⟨hneg, hlt⟩ := not_or.mp hi
      lift i to Nat using not_lt.mp hneg
      rw [not_le, Nat.cast_lt, h.holds.length] at hlt
      have hp : a.stored[i]? = some a.stored[i] := List.getElem?_eq_getElem hlt
      obtain ⟨hrun, hholds⟩ := hsame.promoteOldSession_eq (settled_settled _) h.sound hp
      have hrecord := RecordOp.apply_ok (show (RecordOp.promoteOldSession i).run r = _ from hrun)
      have harchive : (RecordOp.promoteOldSession i).track a = a.promoteOld archivedStatesMaxLength i := by
        rw [RecordOp.track, if_neg hneg, Int.toNat_natCast]
      rw [hrecord, harchive]
      refine ⟨h.sound.promoteOld hcap i, ?_, hholds⟩
      rw [Archive.promoteOld_some hp]
      exact (Archive.archive_count _ _).trans hcount
  | reload =>
    have hrecord : RecordOp.reload.apply r = r := by
      rw [RecordOp.apply, RecordOp.run, SessionRecord.deserialize_serialize]
    rw [hrecord]
    refine ⟨h.sound, ?_, hsame⟩
    rw [hlen, ← h.count]
    rfl

lemma kept_run (ops : List RecordOp) : Kept ops (runOps ops) (history ops) := by
  induction ops using List.reverseRecOn with
  | nil => exact ⟨Archive.sound_start _, rfl, rfl, rfl⟩
  | append_singleton ops op ih =>
    have hrun : runOps (ops ++ [op]) = op.apply (runOps ops) := List.foldl_concat ..
    have hhist : history (ops ++ [op]) = op.track (history ops) := List.foldl_concat ..
    rw [hrun, hhist]
    exact ih.step op

omit [Wire SessionState] [Wire RecordStructure] in
def RecordOp.archives : RecordOp → Bool
  | promoteState _ | archiveCurrentState => true
  | _ => false

omit [Wire SessionState] [Wire RecordStructure] in
lemma track_lost (h : a.Sound archivedStatesMaxLength) (op : RecordOp) :
    (op.track a).lost = a.lost ++
      if op.archives ∧ a.current ≠ none ∧ a.stored.length = archivedStatesMaxLength then
        (a.stored.getLast?.map (·.1)).toList else [] := by
  have harchive : (a.archive archivedStatesMaxLength).lost = a.lost ++
      if a.current ≠ none ∧ a.stored.length = archivedStatesMaxLength then
        (a.stored.getLast?.map (·.1)).toList else [] := by
    rw [Archive.archive]
    split
    · rename_i hnone
      rw [if_neg fun hc => hc.1 hnone, List.append_nil]
    · rename_i k hk
      have hfull : archivedStatesMaxLength ≤ a.stored.length ↔
          a.current ≠ none ∧ a.stored.length = archivedStatesMaxLength := by
        rw [hk]
        exact ⟨fun hle => ⟨Option.some_ne_none _, le_antisymm h.length_le hle⟩, fun hc => hc.2.ge⟩
      dsimp only
      rw [Archive.dropped]
      simp only [hfull]
      split
      · cases a.stored.getLast? <;> rfl
      · rfl
  cases op with
  | promoteState s =>
    simp only [RecordOp.archives, true_and]
    exact harchive
  | archiveCurrentState =>
    simp only [RecordOp.archives, true_and]
    exact harchive
  | promoteOldSession i =>
    simp only [RecordOp.archives, Bool.false_eq_true, false_and, if_false, List.append_nil]
    rw [RecordOp.track]
    split
    · rfl
    · cases hp : a.stored[i.toNat]? with
      | none => rw [Archive.promoteOld, hp]
      | some p => exact (h.promoteOld_eq hp).1
  | reload => exact (List.append_nil _).symm

/-- For every sequence of operations on a fresh record, with the archive that follows it: the record holds the
sessions of the archive; at most 40 are archived, the latest archived first and none with a pending pre-key
message; promoting a valid index makes that session current and keeps all others in order; an invalid index is
refused and changes nothing; every promoted session is current, archived or lost, exactly once; and one is lost
exactly when a session is archived while 40 are stored: the oldest. -/
theorem archive_discipline (ops : List RecordOp) :
    Holds (settled ops) (runOps ops) (history ops) ∧
      (runOps ops).previousSessions.length ≤ 40 ∧
      ((history ops).stored.map (·.2)).Pairwise (· > ·) ∧
      (∀ b ∈ (runOps ops).previousSessions, ∃ s : SessionState,
        unmarshal b = some s ∧ s.pendingPreKey = none ∧ s.pendingKyberPreKey = none) ∧
      (∀ i < (runOps ops).previousSessions.length, ∃ s : SessionState,
        (runOps ops).previousSessions[i]? = some (marshal s) ∧
        (RecordOp.promoteOldSession i).run (runOps ops) = .ok ⟨some s,
          ((runOps ops).current.map fun s => marshal s.clearUnacknowledgedPreKeyMessage).toList ++
            (runOps ops).previousSessions.eraseIdx i⟩) ∧
      (∀ i : Int, i < 0 ∨ i ≥ (runOps ops).previousSessions.length →
        (∃ e, (RecordOp.promoteOldSession i).run (runOps ops) = .error e) ∧
        (RecordOp.promoteOldSession i).apply (runOps ops) = runOps ops) ∧
      ((history ops).held ++ (history ops).lost).Perm (List.range (promoted ops).length) ∧
      (∀ op : RecordOp, (history (ops ++ [op])).lost = (history ops).lost ++
        if op.archives ∧ (runOps ops).current ≠ none ∧ (runOps ops).previousSessions.length = 40 then
          ((history ops).stored.getLast?.map (·.1)).toList else []) := by
  have h := kept_run ops
  refine ⟨h.holds, ?_, h.sound.sorted, ?_, ?_, ?_, ?_, ?_⟩
  · rw [h.holds.length]
    exact h.sound.length_le
  · intro b hb
    rw [h.holds.previous] at hb
    obtain ⟨p, -, rfl⟩ := List.mem_map.mp hb
    exact ⟨settled ops p.1, unmarshal_marshal _, rfl, rfl⟩
  · intro i hi
    rw [h.holds.length] at hi
    have hp : (history ops).stored[i]? = some (history ops).stored[i] := List.getElem?_eq_getElem hi
    refine ⟨settled ops (history ops).stored[i].1, ?_, ?_⟩
    · rw [h.holds.previous, List.getElem?_map, hp]
      rfl
    · exact (h.holds.promoteOldSession_eq (settled_settled ops) h.sound hp).1
  · intro i hi
    have hrun : (RecordOp.promoteOldSession i).run (runOps ops) = .error _ :=
      Holds.promoteOldSession_invalid _ hi
    refine ⟨⟨_, hrun⟩, ?_⟩
    rw [RecordOp.apply, hrun]
  · rw [← h.count]
    exact h.sound.complete
  · intro op
    have hhist : history (ops ++ [op]) = op.track (history ops) := List.foldl_concat ..
    rw [hhist, track_lost h.sound op, h.holds.length]
    simp only [ne_eq, h.holds.current_eq_none]
    rfl

end

end LibSignal.Session
