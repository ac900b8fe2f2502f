import LibSignal.Session.Stored

/-!
# The sessions of a record, with labels

A `Roster` is a session record whose archived sessions are decoded and whose sessions carry labels; `record`
forgets the labels.
-/

namespace LibSignal.Session
open Chunked (Bytes)
open Lib Proto Protocol

structure Roster (β : Type) where
  current : Option (β × SessionState)
  archived : List (β × SessionState)

namespace Roster
variable {β : Type}

def empty : Roster β := ⟨none, []⟩

def settle (e : β × SessionState) : β × SessionState := (e.1, e.2.clearUnacknowledgedPreKeyMessage)

variable (ro : Roster β)

def entries : List (β × SessionState) := ro.current.toList ++ ro.archived

def labels : List β := ro.entries.map (·.1)

def settled : List (β × SessionState) := ro.entries.map settle

def archive : Roster β :=
  match ro.current with
  | none => ro
  | some e =>
    ⟨none, settle e ::
      if ro.archived.length ≥ archivedStatesMaxLength then ro.archived.take (ro.archived.length - 1)
      else ro.archived⟩

def promote (b : β) (s : SessionState) : Roster β := { ro.archive with current := some (b, s) }

def promoteOld (i : Nat) : Roster β :=
  match ro.archived[i]? with
  | none => ro
  | some e => { archive { ro with archived := ro.archived.eraseIdx i } with current := some e }

lemma settled_map_fst : ro.settled.map (·.1) = ro.labels := by
  rw [settled, List.map_map]
  rfl

variable {ro}

lemma mem_entries_current {e : β × SessionState} (h : ro.current = some e) : e ∈ ro.entries :=
  List.mem_append_left _ (Option.mem_toList.mpr h)

lemma mem_entries_archived {e : β × SessionState} (h : e ∈ ro.archived) : e ∈ ro.entries :=
  List.mem_append_right _ h

/-! ## What becomes of the sessions -/

lemma archive_settled (ro : Roster β) : ro.archive.settled.Sublist ro.settled := by
  rw [archive, settled, settled, entries, entries]
  cases hcur : ro.current with
  | none => simp only [hcur, List.Sublist.refl]
  | some e =>
    refine List.Sublist.cons_cons (settle e) (List.Sublist.map _ ?_)
    split
    · exact List.take_sublist _ _
    · exact List.Sublist.refl _

lemma archive_settled_of_lt (h : ro.archived.length < archivedStatesMaxLength) :
    ro.archive.settled = ro.settled := by
  rw [archive, settled, settled, entries, entries]
  cases hcur : ro.current with
  | none => simp only [hcur]
  | some e =>
    rw [if_neg (not_le.mpr h)]
    rfl

lemma archive_length_le (h : ro.archived.length ≤ archivedStatesMaxLength) :
    ro.archive.archived.length ≤ archivedStatesMaxLength := by
  rw [archive]
  split
  · exact h
  · dsimp only
    split
    · rw [List.length_cons, List.length_take]
      have hpos : 0 < archivedStatesMaxLength := by decide
      omega
    · rename_i hlt
      exact not_le.mp hlt

lemma archive_current (ro : Roster β) : ro.archive.current = none := by
  rw [archive]
  split
  · assumption
  · rfl

lemma settled_withCurrent (h : ro.current = none) (e : β × SessionState) :
    settled { ro with current := some e } = settle e :: ro.settled := by
  rw [settled, settled, entries, entries, h]
  rfl

lemma settled_of_current {e : β × SessionState} (h : ro.current = some e) :
    ro.settled = settle e :: ro.archived.map settle := by
  rw [settled, entries, h]
  rfl

lemma promote_settled (ro : Roster β) (b : β) (s : SessionState) :
    (ro.promote b s).settled = settle (b, s) :: ro.archive.settled :=
  settled_withCurrent ro.archive_current (b, s)

variable {i : Nat}

lemma promoteOld_settled {e : β × SessionState} (he : ro.archived[i]? = some e)
    (h : ro.archived.length ≤ archivedStatesMaxLength) : (ro.promoteOld i).settled.Perm ro.settled := by
  obtain ⟨hi, hget⟩ := List.getElem?_eq_some_iff.mp he
  have hroom : (ro.archived.eraseIdx i).length < archivedStatesMaxLength := by
    rw [List.length_eraseIdx_of_lt hi]
    omega
  have hpick : (e :: ro.archived.eraseIdx i).Perm ro.archived := hget ▸ List.getElem_cons_eraseIdx_perm hi
  rw [promoteOld, he]
  dsimp only
  rw [settled_withCurrent (archive_current _), archive_settled_of_lt hroom]
  -- the session goes past the old current one to the place it had
  have hperm : (e :: (ro.current.toList ++ ro.archived.eraseIdx i)).Perm (ro.current.toList ++ ro.archived) :=
    List.perm_middle.symm.trans (hpick.append_left ro.current.toList)
  exact hperm.map settle

lemma promoteOld_length_le {e : β × SessionState} (he : ro.archived[i]? = some e)
    (h : ro.archived.length ≤ archivedStatesMaxLength) :
    (ro.promoteOld i).archived.length ≤ archivedStatesMaxLength := by
  rw [promoteOld, he]
  refine archive_length_le (le_trans ?_ h)
  exact (List.eraseIdx_sublist ro.archived i).length_le

lemma promoteOld_current {e : β × SessionState} (he : ro.archived[i]? = some e) :
    (ro.promoteOld i).current = some e := by
  rw [promoteOld, he]

section
variable [Wire SessionState]

def record (ro : Roster β) : SessionRecord := ⟨ro.current.map (·.2), ro.archived.map fun e => marshal e.2⟩

lemma record_archive (ro : Roster β) : ro.archive.record = ro.record.archiveCurrentState := by
  obtain ⟨current, archived⟩ := ro
  cases current with
  | none => rfl
  | some e =>
    rw [SessionRecord.archiveCurrentState]
    simp only [archive, record, Option.map_some, Option.map_none, List.map_cons, List.length_map, settle]
    split
    · rw [List.map_take]
    · rfl

lemma record_promote (ro : Roster β) (b : β) (s : SessionState) :
    (ro.promote b s).record = ro.record.promoteState s := by
  rw [SessionRecord.promoteState, ← record_archive]
  rfl

lemma record_promoteOld {i : Nat} {e : β × SessionState} (he : ro.archived[i]? = some e) :
    ro.record.promoteOldSession i = .ok (ro.promoteOld i).record := by
  obtain ⟨hi, _⟩ := List.getElem?_eq_some_iff.mp he
  have hrange : ¬((i : Int) < 0 ∨ (i : Int) ≥ ro.record.previousSessions.length) := by
    rw [record, List.length_map]
    omega
  have hread : (ro.record.previousSessions[(i : Int).toNat]?).bind unmarshal = some e.2 := by
    rw [Int.toNat_natCast, record, List.getElem?_map, he]
    exact unmarshal_marshal e.2
  rw [SessionRecord.promoteOldSession, if_neg hrange, hread]
  dsimp only
  rw [promoteOld, he]
  dsimp only
  rw [SessionRecord.promoteState, Int.toNat_natCast]
  have hrest : SessionRecord.archiveCurrentState
      { ro.record with previousSessions := ro.record.previousSessions.eraseIdx i } =
        (archive { ro with archived := ro.archived.eraseIdx i }).record := by
    rw [record_archive, record, record, List.eraseIdx_map]
  rw [hrest]
  rfl

/-! ## The session of a pre-key message -/

lemma findArchived_map (m : PreKeySignalMessage) (l : List (β × SessionState)) (k : Nat) :
    (∃ i e, findArchived m (l.map fun e => marshal e.2) k = .ok (some (k + i)) ∧ l[i]? = some e ∧
      matchesPreKey m e.2 = true) ∨
    (findArchived m (l.map fun e => marshal e.2) k = .ok none ∧ ∀ e ∈ l, matchesPreKey m e.2 = false) := by
  induction l generalizing k with
  | nil => exact .inr ⟨rfl, fun _ h => absurd h List.not_mem_nil⟩
  | cons e l ih =>
    rw [List.map_cons, findArchived, unmarshal_marshal]
    dsimp only
    cases hm : matchesPreKey m e.2 with
    | true => exact .inl ⟨0, e, rfl, rfl, hm⟩
    | false =>
      rcases ih (k + 1) with ⟨i, e', hfind, he', hm'⟩ | ⟨hfind, hnone⟩
      · refine .inl ⟨i + 1, e', ?_, he', hm'⟩
        rw [if_neg Bool.false_ne_true, hfind, Nat.add_assoc, Nat.add_comm 1 i]
      · exact .inr ⟨hfind, List.forall_mem_cons.mpr ⟨hm, hnone⟩⟩

/-- A pre-key message is decrypted with a session of its handshake: the current one, or else the first archived
one that matches. -/
structure Finds (ro : Roster β) (m : PreKeySignalMessage) (e : β × SessionState) (ro' : Roster β) : Prop where
  promoted : promoteMatchingPreKeySession ro.record m = .ok (true, ro'.record)
  current : ro'.current = some e
  isMatch : matchesPreKey m e.2 = true
  moved : (ro.record.current.any (matchesPreKey m) = true ∧ ro' = ro) ∨
    (ro.record.current.any (matchesPreKey m) = false ∧
      ∃ i, findArchived m ro.record.previousSessions 0 = .ok (some i) ∧ ro.archived[i]? = some e ∧
        ro' = ro.promoteOld i)

variable {m : PreKeySignalMessage}

lemma Finds.settled {e : β × SessionState} {ro' : Roster β} (h : ro.Finds m e ro')
    (hle : ro.archived.length ≤ archivedStatesMaxLength) : ro'.settled.Perm ro.settled := by
  rcases h.moved with ⟨_, rfl⟩ | ⟨_, i, _, he, rfl⟩
  · exact List.Perm.refl _
  · exact promoteOld_settled he hle

lemma Finds.length_le {e : β × SessionState} {ro' : Roster β} (h : ro.Finds m e ro')
    (hle : ro.archived.length ≤ archivedStatesMaxLength) : ro'.archived.length ≤ archivedStatesMaxLength := by
  rcases h.moved with ⟨_, rfl⟩ | ⟨_, i, _, he, rfl⟩
  · exact hle
  · exact promoteOld_length_le he hle

lemma Finds.mem {e : β × SessionState} {ro' : Roster β} (h : ro.Finds m e ro') : e ∈ ro.entries := by
  rcases h.moved with ⟨_, rfl⟩ | ⟨_, i, _, he, rfl⟩
  · exact mem_entries_current h.current
  · exact mem_entries_archived (List.mem_of_getElem? he)

lemma find (ro : Roster β) (m : PreKeySignalMessage) : (∃ e ro', ro.Finds m e ro') ∨
      (promoteMatchingPreKeySession ro.record m = .ok (false, ro.record) ∧
        (∀ e ∈ ro.entries, matchesPreKey m e.2 = false) ∧ ro.record.current.any (matchesPreKey m) = false ∧
        findArchived m ro.record.previousSessions 0 = .ok none) := by
  have hmap : ro.record.current.any (matchesPreKey m) = ro.current.any fun e => matchesPreKey m e.2 := by
    rw [record, Option.any_map]
  cases hany : ro.current.any fun e => matchesPreKey m e.2 with
  | true =>
    obtain ⟨e, he, hm⟩ := (Option.any_eq_true _ _).mp hany
    refine .inl ⟨e, ro, ?_, he, hm, .inl ⟨hmap.trans hany, rfl⟩⟩
    rw [promoteMatchingPreKeySession, hmap, hany, if_pos rfl]
  | false =>
    have hcurrent : ∀ e ∈ ro.current.toList, matchesPreKey m e.2 = false :=
      fun e he => (Option.any_eq_false _ _).mp hany e (Option.mem_toList.mp he)
    rcases findArchived_map m ro.archived 0 with ⟨i, e, hfind, he, hm⟩ | ⟨hfind, hnone⟩
    · rw [Nat.zero_add] at hfind
      refine .inl ⟨e, ro.promoteOld i, ?_, promoteOld_current he, hm, .inr ⟨hmap.trans hany, i, hfind, he, rfl⟩⟩
      rw [promoteMatchingPreKeySession, hmap, hany, if_neg Bool.false_ne_true, record, hfind]
      change (do let r ← ro.record.promoteOldSession _; return (true, r)) = _
      rw [record_promoteOld he]
      rfl
    · refine .inr ⟨?_, fun e he => (List.mem_append.mp he).elim (hcurrent e) (hnone e), hmap.trans hany, hfind⟩
      rw [promoteMatchingPreKeySession, hmap, hany, if_neg Bool.false_ne_true, record, hfind]
      rfl

end

end Roster

end LibSignal.Session
