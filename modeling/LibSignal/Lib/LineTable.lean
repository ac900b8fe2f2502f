import LibSignal.Lib.SkipWindow

/-!
# A bounded table of receive windows

A receiver that follows several numbered lines keeps one `Window` for each and, of the lines it opened, only
the newest ones.
-/

namespace LibSignal.Lib

variable {κ ο : Type} {bound cap : Nat}

lemma keepLast_append_keepLast {α : Type} (cap : Nat) (l m : List α) :
    keepLast cap (keepLast cap l ++ m) = keepLast cap (l ++ m) := by
  rw [keepLast, keepLast, keepLast, List.length_append, List.length_append, List.length_drop]
  rcases Nat.le_total l.length cap with h | h
  · rw [Nat.sub_eq_zero_of_le h, List.drop_zero, Nat.sub_zero]
  · rw [← List.drop_append_of_le_length (Nat.sub_le _ _), List.drop_drop]
    congr 1
    omega

lemma keepLast_sublist {α : Type} (cap : Nat) (l : List α) : (keepLast cap l).Sublist l :=
  List.drop_sublist _ _

lemma keepLast_concat {α : Type} {cap : Nat} (h : 0 < cap) (l : List α) (x : α) :
    keepLast cap (l ++ [x]) = l.drop (l.length + 1 - cap) ++ [x] := by
  have hle : l.length + 1 - cap ≤ l.length := by omega
  rw [keepLast, List.length_append, List.length_singleton, List.drop_append_of_le_length hle]

lemma reverse_keepLast {α : Type} (cap : Nat) (l : List α) : (keepLast cap l).reverse = l.reverse.take cap := by
  rw [keepLast, List.take_reverse]

lemma reverse_erase {l : List Nat} (h : l.Nodup) (k : Nat) : (l.erase k).reverse = l.reverse.erase k := by
  rw [h.erase_eq_filter, (List.nodup_reverse.mpr h).erase_eq_filter, List.filter_reverse]

lemma Window.use_next {w w' : Window} {k : Nat} (h : w.use cap k = some w') : w'.next = max w.next (k + 1) := by
  rw [Window.use] at h
  split at h
  · rename_i hk
    split at h
    · cases h
      exact (max_eq_left hk).symm
    · cases h
  · rename_i hk
    cases h
    change (w.skipMany cap (k - w.next)).next + 1 = _
    rw [skipMany_next]
    omega

structure Line (κ ο : Type) where
  key : κ
  origin : ο
  window : Window

inductive LineEvent (κ ο : Type) where
  | opened (key : κ) (origin : ο)
  | used (key : κ) (index : Nat)

def openings : List (LineEvent κ ο) → List (κ × ο)
  | [] => []
  | .opened k o :: log => (k, o) :: openings log
  | .used _ _ :: log => openings log

lemma openings_append (log log' : List (LineEvent κ ο)) :
    openings (log ++ log') = openings log ++ openings log' := by
  induction log with
  | nil => rfl
  | cons e log ih =>
    cases e with
    | opened k o => exact congrArg _ ih
    | used k i => exact ih

/-- An index of a key is used in a log, and the line of the key is not opened again after that. -/
def UsedSince (k : κ) (i : Nat) (log : List (LineEvent κ ο)) : Prop :=
  ∃ pre post, log = pre ++ .used k i :: post ∧ ∀ o, .opened k o ∉ post

lemma split_concat {α : Type} {l pre post : List α} {x e : α} (h : l ++ [e] = pre ++ x :: post) :
    (post = [] ∧ l = pre ∧ e = x) ∨ ∃ post', post = post' ++ [e] ∧ l = pre ++ x :: post' := by
  rcases List.eq_nil_or_concat post with rfl | ⟨post, e', rfl⟩
  · obtain ⟨hl, he⟩ := List.append_inj' h rfl
    exact .inl ⟨rfl, hl, List.singleton_inj.mp he⟩
  · rw [List.concat_eq_append, ← List.cons_append, ← List.append_assoc] at h
    obtain ⟨hl, he⟩ := List.append_inj' h rfl
    exact .inr ⟨post, by rw [List.concat_eq_append, List.singleton_inj.mp he], hl⟩

lemma UsedSince.concat {k : κ} {i : Nat} {log : List (LineEvent κ ο)} {e : LineEvent κ ο}
    (h : UsedSince k i (log ++ [e])) : e = .used k i ∨ (UsedSince k i log ∧ ∀ o, e ≠ .opened k o) := by
  obtain ⟨pre, post, hlog, hpost⟩ := h
  rcases split_concat hlog with ⟨_, _, he⟩ | ⟨post, rfl, hpre⟩
  · exact .inl he
  · refine .inr ⟨⟨pre, post, hpre, fun o ho => hpost o (List.mem_append_left _ ho)⟩, fun o ho => ?_⟩
    exact hpost o (List.mem_append_right _ (List.mem_singleton.mpr ho.symm))

lemma UsedSince.snoc {k : κ} {i : Nat} {log : List (LineEvent κ ο)} {e : LineEvent κ ο}
    (h : UsedSince k i log) (he : ∀ o, e ≠ .opened k o) : UsedSince k i (log ++ [e]) := by
  obtain ⟨pre, post, rfl, hpost⟩ := h
  refine ⟨pre, post ++ [e], List.append_assoc _ _ _, fun o ho => ?_⟩
  rcases List.mem_append.mp ho with ho | ho
  · exact hpost o ho
  · exact he o (List.mem_singleton.mp ho).symm

lemma usedSince_used (k : κ) (i : Nat) (log : List (LineEvent κ ο)) : UsedSince k i (log ++ [.used k i]) :=
  ⟨log, [], rfl, fun _ h => absurd h List.not_mem_nil⟩

lemma not_usedSince_nil (k : κ) (i : Nat) : ¬ UsedSince k i ([] : List (LineEvent κ ο)) := by
  rintro ⟨pre, post, h, _⟩
  exact absurd h.symm (List.append_ne_nil_of_right_ne_nil _ (List.cons_ne_nil _ _))

lemma not_usedSince_opened (k : κ) (i : Nat) (o : ο) (log : List (LineEvent κ ο)) :
    ¬ UsedSince k i (log ++ [.opened k o]) := by
  intro h
  rcases h.concat with he | ⟨_, hne⟩
  · cases he
  · exact hne o rfl

/-- One move of a table of at most `bound` lines that cache at most `cap` skipped indices each. -/
inductive LineStep (bound cap : Nat) : List (Line κ ο) → LineEvent κ ο → List (Line κ ο) → Prop
  | opened {t : List (Line κ ο)} {k : κ} (o : ο) (hnew : ∀ l ∈ t, l.key ≠ k) :
      LineStep bound cap t (.opened k o) (keepLast bound (t ++ [⟨k, o, .start 0⟩]))
  | used {a b : List (Line κ ο)} {l : Line κ ο} {i : Nat} {w : Window} (huse : l.window.use cap i = some w) :
      LineStep bound cap (a ++ l :: b) (.used l.key i) (a ++ { l with window := w } :: b)

inductive LineRun (bound cap : Nat) : List (LineEvent κ ο) → List (Line κ ο) → Prop
  | nil : LineRun bound cap [] []
  | snoc {log : List (LineEvent κ ο)} {t t' : List (Line κ ο)} {e : LineEvent κ ο}
      (hrun : LineRun bound cap log t) (hstep : LineStep bound cap t e t') :
      LineRun bound cap (log ++ [e]) t'

lemma LineStep.forall_lines {t t' : List (Line κ ο)} {e : LineEvent κ ο} {P : Line κ ο → Prop}
    (hstep : LineStep bound cap t e t') (h : ∀ l ∈ t, P l) (hopen : ∀ k o, e = .opened k o → P ⟨k, o, .start 0⟩)
    (huse : ∀ l i w, e = .used l.key i → P l → l.window.use cap i = some w → P { l with window := w }) :
    ∀ l ∈ t', P l := by
  cases hstep with
  | opened o hnew =>
    intro l hl
    rcases List.mem_append.mp ((keepLast_sublist _ _).mem hl) with hl | hl
    · exact h l hl
    · rw [List.mem_singleton.mp hl]
      exact hopen _ o rfl
  | @used a b l0 i w hw =>
    intro l hl
    rcases List.mem_append.mp hl with hl | hl
    · exact h l (List.mem_append_left _ hl)
    · rcases List.mem_cons.mp hl with rfl | hl
      · exact huse l0 i w rfl (h l0 (List.mem_append_right _ List.mem_cons_self)) hw
      · exact h l (List.mem_append_right _ (List.mem_cons_of_mem _ hl))

namespace LineRun

variable {log : List (LineEvent κ ο)} {t : List (Line κ ο)}

lemma lines_eq (h : LineRun bound cap log t) :
    t.map (fun l => (l.key, l.origin)) = keepLast bound (openings log) := by
  induction h with
  | nil => exact (keepLast_of_le (Nat.zero_le _)).symm
  | @snoc log t t' e _ hstep ih =>
    rw [openings_append]
    cases hstep with
    | opened o hnew =>
      rw [map_keepLast, List.map_append, ih]
      exact keepLast_append_keepLast _ _ _
    | @used a b l i w huse =>
      rw [show openings [LineEvent.used l.key i] = ([] : List (κ × ο)) from rfl, List.append_nil, ← ih,
        List.map_append, List.map_append]
      rfl

lemma length_le (h : LineRun bound cap log t) : t.length ≤ bound := by
  have hlen := length_keepLast_le bound (openings log)
  rwa [← h.lines_eq, List.length_map] at hlen

lemma nodup (h : LineRun bound cap log t) : (t.map (·.key)).Nodup := by
  induction h with
  | nil => exact List.nodup_nil
  | @snoc log t t' e _ hstep ih =>
    cases hstep with
    | @opened t k o hnew =>
      refine List.Nodup.sublist ((keepLast_sublist _ _).map _) ?_
      rw [List.map_append]
      refine ih.append (List.nodup_singleton _) fun x hx hx' => ?_
      obtain ⟨l, hl, rfl⟩ := List.mem_map.mp hx
      exact hnew l hl (List.mem_singleton.mp hx')
    | @used a b l i w huse =>
      rw [List.map_append, List.map_cons] at ih ⊢
      exact ih

lemma sound (h : LineRun bound cap log t) : ∀ l ∈ t, l.window.Sound cap 0 := by
  induction h with
  | nil => exact fun _ hl => absurd hl List.not_mem_nil
  | snoc _ hstep ih =>
    exact hstep.forall_lines ih (fun _ _ _ => Window.sound_start cap 0) fun _ _ _ _ hl hw => hl.use hw

lemma next_le {n : Nat} (h : LineRun bound cap log t) (hlog : ∀ k i, .used k i ∈ log → i < n) :
    ∀ l ∈ t, l.window.next ≤ n := by
  induction h with
  | nil => exact fun _ hl => absurd hl List.not_mem_nil
  | snoc _ hstep ih =>
    refine hstep.forall_lines (ih fun k i hi => hlog k i (List.mem_append_left _ hi))
      (fun _ _ _ => Nat.zero_le _) fun l i w he hl hw => ?_
    have hi : i < n := hlog l.key i (List.mem_append_right _ (List.mem_singleton.mpr he.symm))
    change w.next ≤ n
    rw [Window.use_next hw]
    exact max_le hl hi

end LineRun

end LibSignal.Lib
