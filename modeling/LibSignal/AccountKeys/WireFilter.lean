import LibSignal.Crypto.Primitives
import LibSignal.Lib.ProtoWire

/-!
# The wire filter of MFA metadata

Model of `mfaProtoPlaintext` in `accountkeys/mfa_metadata.go`, which walks over the elements of a protobuf
message, counts the nesting of groups and keeps what lies outside of them.
-/

namespace LibSignal.AccountKeys
open Chunked (Bytes)
open Lib.ProtoWire

def sliceFrom (b : Bytes) (n : Nat) : Option Bytes := if n ≤ b.length then some (b.drop n) else none

def sliceTo (b : Bytes) (n : Nat) : Option Bytes := if n ≤ b.length then some (b.take n) else none

def valueLength (num : Int) (typ : WireType) (raw : Bytes) : Option Nat :=
  match typ with
  | .bytes =>
    match consumeVarint raw with
    | none => none
    | some (length, lead) =>
      if lead > 5 ∨ length > 2 ^ 32 - 1 ∨ length > raw.length - lead then none else some (lead + length)
  | _ => consumeFieldValue num typ raw

/-- The loop of `mfaProtoPlaintext`; every round consumes a byte. -/
def filterLoop : Nat → Bytes → Bytes → Nat → Option (Bytes × Bool)
  | 0, raw, encoded, groups => if raw.length > 0 then none else some (encoded, groups == 0)
  | fuel + 1, raw, encoded, groups =>
    if raw.length > 0 then
      let field := raw
      match consumeVarint raw with
      | none => some (encoded, false)
      | some (tag, n) =>
        if n > 5 ∨ tag > 2 ^ 32 - 1 then some (encoded, false)
        else
          let (num, typ) := decodeTag tag
          if ¬ isValid num then some (encoded, false)
          else do
            let raw ← sliceFrom raw n
            match typ with
            | .startGroup => filterLoop fuel raw encoded (groups + 1)
            | .endGroup => if groups = 0 then some (encoded, false) else filterLoop fuel raw encoded (groups - 1)
            | typ =>
              match valueLength num typ raw with
              | none => some (encoded, false)
              | some n => do
                let encoded ←
                  if groups = 0 then (sliceTo field (field.length - raw.length + n)).map (encoded ++ ·)
                  else some encoded
                let raw ← sliceFrom raw n
                filterLoop fuel raw encoded groups
    else some (encoded, groups == 0)

def mfaProtoPlaintext (raw : Bytes) : Option (Bytes × Bool) := filterLoop raw.length raw [] 0

inductive ElementKind where
  | start
  | stop
  | field
deriving DecidableEq, Repr

/-- A tag: a varint of at most five bytes and 32 bits with a valid field number. -/
def IsTag (t : Bytes) (num : Int) (typ : WireType) : Prop :=
  t.length ≤ 5 ∧ ∃ v, consumeVarint t = some (v, t.length) ∧ v ≤ 2 ^ 32 - 1 ∧ decodeTag v = (num, typ) ∧
    isValid num = true

/-- A well-formed value of a type; a length is a varint of at most five bytes and 32 bits. -/
def IsValue (typ : WireType) (v : Bytes) : Prop :=
  match typ with
  | .varint => ∃ x, consumeVarint v = some (x, v.length)
  | .fixed64 => v.length = 8
  | .fixed32 => v.length = 4
  | .bytes => ∃ l payload, v = l ++ payload ∧ l.length ≤ 5 ∧
      consumeVarint l = some (payload.length, l.length) ∧ payload.length ≤ 2 ^ 32 - 1
  | _ => False

inductive IsElement : ElementKind → Bytes → Prop where
  | start {t num} : IsTag t num .startGroup → IsElement .start t
  | stop {t num} : IsTag t num .endGroup → IsElement .stop t
  | field {t num typ v} : IsTag t num typ → IsValue typ v → IsElement .field (t ++ v)

/-- The nesting depth never becomes negative and is zero at the end. -/
def balanced : Nat → List (ElementKind × Bytes) → Bool
  | depth, [] => depth == 0
  | depth, (.start, _) :: es => balanced (depth + 1) es
  | 0, (.stop, _) :: _ => false
  | depth + 1, (.stop, _) :: es => balanced depth es
  | depth, (.field, _) :: es => balanced depth es

def outsideGroups : Nat → List (ElementKind × Bytes) → List (ElementKind × Bytes)
  | _, [] => []
  | depth, (.start, _) :: es => outsideGroups (depth + 1) es
  | depth, (.stop, _) :: es => outsideGroups (depth - 1) es
  | depth, (.field, e) :: es =>
    if depth = 0 then (.field, e) :: outsideGroups depth es else outsideGroups depth es

def Elements (es : List (ElementKind × Bytes)) : Prop := ∀ e ∈ es, IsElement e.1 e.2

def joined (es : List (ElementKind × Bytes)) : Bytes := (es.map Prod.snd).flatten

def nextElement (raw : Bytes) : Option (ElementKind × Nat) :=
  match consumeVarint raw with
  | none => none
  | some (tag, n) =>
    if n > 5 ∨ tag > 2 ^ 32 - 1 then none
    else if ¬ isValid (decodeTag tag).1 then none
    else
      match (decodeTag tag).2 with
      | .startGroup => some (.start, n)
      | .endGroup => some (.stop, n)
      | typ => (valueLength (decodeTag tag).1 typ (raw.drop n)).map fun m => (.field, n + m)

/-! ## Reading one element -/

variable {es : List (ElementKind × Bytes)} {kind : ElementKind} {n : Nat} {raw : Bytes} {typ : WireType}

lemma valueLength_sound {num : Int} {b : Bytes} {m : Nat} (hstart : typ ≠ .startGroup)
    (h : valueLength num typ b = some m) : m ≤ b.length ∧ IsValue typ (b.take m) := by
  cases typ with
  | varint =>
    obtain ⟨⟨x, n⟩, hread, rfl⟩ := Option.map_eq_some_iff.mp h
    obtain ⟨_, hle⟩ := consumeVarint_length hread
    refine ⟨hle, x, ?_⟩
    rw [List.length_take_of_le hle]
    exact consumeVarint_congr hread (List.take_take.trans (by rw [Nat.min_self]))
  | fixed64 =>
    change (if b.length < 8 then none else some 8) = some m at h
    split at h
    · cases h
    · cases h
      exact ⟨by omega, List.length_take_of_le (by omega)⟩
  | fixed32 =>
    change (if b.length < 4 then none else some 4) = some m at h
    split at h
    · cases h
    · cases h
      exact ⟨by omega, List.length_take_of_le (by omega)⟩
  | bytes =>
    rw [valueLength] at h
    split at h
    · cases h
    · rename_i length lead hread
      split at h
      · cases h
      · rename_i hbounds
        cases h
        obtain ⟨_, hle⟩ := consumeVarint_length hread
        have hpayload : ((b.drop lead).take length).length = length :=
          List.length_take_of_le (by rw [List.length_drop]; omega)
        refine ⟨by omega, b.take lead, (b.drop lead).take length, List.take_add, ?_, ?_, by omega⟩
        · rw [List.length_take_of_le hle]
          omega
        · rw [hpayload, List.length_take_of_le hle]
          exact consumeVarint_congr hread (List.take_take.trans (by rw [Nat.min_self]))
  | startGroup => exact absurd rfl hstart
  | endGroup => cases h
  | reserved n => cases h

lemma valueLength_complete (num : Int) {v : Bytes} (h : IsValue typ v) (rest : Bytes) :
    valueLength num typ (v ++ rest) = some v.length := by
  cases typ with
  | varint =>
    obtain ⟨x, hread⟩ := h
    have hlonger : consumeVarint (v ++ rest) = some (x, v.length) :=
      consumeVarint_congr hread (by rw [List.take_left, List.take_length])
    change (consumeVarint (v ++ rest)).map Prod.snd = _
    rw [hlonger]
    rfl
  | fixed64 =>
    have hlen : v.length = 8 := h
    change (if (v ++ rest).length < 8 then none else some 8) = some v.length
    rw [if_neg (by rw [List.length_append]; omega), hlen]
  | fixed32 =>
    have hlen : v.length = 4 := h
    change (if (v ++ rest).length < 4 then none else some 4) = some v.length
    rw [if_neg (by rw [List.length_append]; omega), hlen]
  | bytes =>
    obtain ⟨l, payload, rfl, hl, hread, hpayload⟩ := h
    have hlonger : consumeVarint (l ++ payload ++ rest) = some (payload.length, l.length) :=
      consumeVarint_congr hread (by rw [List.append_assoc, List.take_left, List.take_length])
    rw [valueLength, hlonger]
    dsimp only
    rw [if_neg (by simp only [List.length_append]; omega), List.length_append]
  | startGroup => exact h.elim
  | endGroup => exact h.elim
  | reserved n => exact h.elim

lemma IsTag.consume {t : Bytes} {num : Int} (h : IsTag t num typ) (rest : Bytes) :
    ∃ v, consumeVarint (t ++ rest) = some (v, t.length) ∧ ¬ (t.length > 5 ∨ v > 2 ^ 32 - 1) ∧
      decodeTag v = (num, typ) ∧ isValid num = true := by
  obtain ⟨hlen, v, hread, hv, hdecode, hvalid⟩ := h
  refine ⟨v, ?_, by omega, hdecode, hvalid⟩
  exact consumeVarint_congr hread (by rw [List.take_left, List.take_length])

lemma nextElement_sound (h : nextElement raw = some (kind, n)) :
    0 < n ∧ n ≤ raw.length ∧ IsElement kind (raw.take n) := by
  rw [nextElement] at h
  split at h
  · cases h
  · rename_i tag lead hread
    obtain ⟨hpos, hle⟩ := consumeVarint_length hread
    split at h
    · cases h
    · rename_i hbounds
      split at h
      · cases h
      · rename_i hvalid
        have htag : IsTag (raw.take lead) (decodeTag tag).1 (decodeTag tag).2 := by
          refine ⟨by rw [List.length_take_of_le hle]; omega, tag, ?_, by omega, rfl, not_not.mp hvalid⟩
          rw [List.length_take_of_le hle]
          exact consumeVarint_congr hread (List.take_take.trans (by rw [Nat.min_self]))
        split at h
        · rename_i htyp
          cases h
          rw [htyp] at htag
          exact ⟨hpos, hle, .start htag⟩
        · rename_i htyp
          cases h
          rw [htyp] at htag
          exact ⟨hpos, hle, .stop htag⟩
        · rename_i hnotStart hnotStop
          obtain ⟨m, hvalue, heq⟩ := Option.map_eq_some_iff.mp h
          cases heq
          obtain ⟨hm, hisValue⟩ := valueLength_sound hnotStart hvalue
          rw [List.length_drop] at hm
          refine ⟨by omega, by omega, ?_⟩
          rw [List.take_add]
          exact .field htag hisValue

lemma nextElement_complete {e : Bytes} (h : IsElement kind e) (rest : Bytes) :
    nextElement (e ++ rest) = some (kind, e.length) := by
  cases h with
  | @start _ num htag =>
    obtain ⟨v, hread, hbounds, hdecode, hvalid⟩ := htag.consume rest
    rw [nextElement, hread]
    dsimp only
    rw [if_neg hbounds, hdecode, if_neg (not_not.mpr hvalid)]
  | @stop _ num htag =>
    obtain ⟨v, hread, hbounds, hdecode, hvalid⟩ := htag.consume rest
    rw [nextElement, hread]
    dsimp only
    rw [if_neg hbounds, hdecode, if_neg (not_not.mpr hvalid)]
  | @field t num typ v htag hvalue =>
    obtain ⟨x, hread, hbounds, hdecode, hvalid⟩ := htag.consume (v ++ rest)
    have hlen := valueLength_complete num hvalue rest
    rw [List.append_assoc, nextElement, hread]
    dsimp only
    rw [if_neg hbounds, hdecode, if_neg (not_not.mpr hvalid), List.drop_left]
    dsimp only
    split
    · exact hvalue.elim
    · exact hvalue.elim
    · rw [hlen, Option.map_some, List.length_append]

/-! ## The loop -/

def afterElement (fuel : Nat) (raw encoded : Bytes) (groups : Nat) : ElementKind × Nat → Option (Bytes × Bool)
  | (.start, n) => filterLoop fuel (raw.drop n) encoded (groups + 1)
  | (.stop, n) => if groups = 0 then some (encoded, false) else filterLoop fuel (raw.drop n) encoded (groups - 1)
  | (.field, n) => filterLoop fuel (raw.drop n) (if groups = 0 then encoded ++ raw.take n else encoded) groups

lemma filterLoop_value (fuel : Nat) (hle : n ≤ raw.length) (num : Int) (htyp : typ ≠ .startGroup)
    (encoded : Bytes) (groups : Nat) : (match valueLength num typ (raw.drop n) with
      | none => some (encoded, false)
      | some m =>
        if groups = 0 then do
          let encoded ← (sliceTo raw (raw.length - (raw.drop n).length + m)).map (encoded ++ ·)
          let raw ← sliceFrom (raw.drop n) m
          filterLoop fuel raw encoded groups
        else do
          let encoded ← some encoded
          let raw ← sliceFrom (raw.drop n) m
          filterLoop fuel raw encoded groups) =
      match (valueLength num typ (raw.drop n)).map fun m => (ElementKind.field, n + m) with
      | none => some (encoded, false)
      | some next => afterElement fuel raw encoded groups next := by
  cases hlength : valueLength num typ (raw.drop n) with
  | none => rfl
  | some m =>
    obtain ⟨hm, _⟩ := valueLength_sound htyp hlength
    rw [List.length_drop] at hm
    have hend : raw.length - (raw.drop n).length + m = n + m := by
      rw [List.length_drop]
      omega
    have hrest : sliceFrom (raw.drop n) m = some (raw.drop (n + m)) := by
      rw [sliceFrom, if_pos (by rw [List.length_drop]; exact hm), List.drop_drop]
    have htaken : sliceTo raw (n + m) = some (raw.take (n + m)) := by
      rw [sliceTo, if_pos (by omega)]
    rw [Option.map_some]
    dsimp only [afterElement]
    rw [hend, hrest, htaken]
    split
    · rfl
    · rfl

lemma filterLoop_step (fuel : Nat) (hraw : raw.length > 0) (encoded : Bytes) (groups : Nat) :
    filterLoop (fuel + 1) raw encoded groups =
      match nextElement raw with
      | none => some (encoded, false)
      | some next => afterElement fuel raw encoded groups next := by
  rw [filterLoop, if_pos hraw, nextElement]
  cases hread : consumeVarint raw with
  | none => rfl
  | some result =>
    obtain ⟨tag, n⟩ := result
    obtain ⟨_, hle⟩ := consumeVarint_length hread
    dsimp only
    by_cases hbounds : n > 5 ∨ tag > 2 ^ 32 - 1
    · rw [if_pos hbounds, if_pos hbounds]
    · rw [if_neg hbounds, if_neg hbounds]
      obtain ⟨num, typ⟩ := decodeTag tag
      dsimp only
      by_cases hvalid : isValid num
      · rw [if_neg (not_not.mpr hvalid), if_neg (not_not.mpr hvalid), sliceFrom, if_pos hle, Option.bind_eq_bind,
          Option.bind_some]
        cases typ with
        | startGroup => rfl
        | endGroup => rfl
        | varint => exact filterLoop_value fuel hle num (by decide) encoded groups
        | fixed64 => exact filterLoop_value fuel hle num (by decide) encoded groups
        | fixed32 => exact filterLoop_value fuel hle num (by decide) encoded groups
        | bytes => exact filterLoop_value fuel hle num (by decide) encoded groups
        | reserved k => exact filterLoop_value fuel hle num (show WireType.reserved k ≠ .startGroup from nofun) encoded groups
      · rw [if_pos hvalid, if_pos hvalid]

lemma joined_cons (kind : ElementKind) (e : Bytes) (es : List (ElementKind × Bytes)) :
    joined ((kind, e) :: es) = e ++ joined es := by
  rw [joined, List.map_cons, List.flatten_cons, joined]

lemma IsElement.pos {e : Bytes} (h : IsElement kind e) : 0 < e.length := by
  have hnext := nextElement_complete h []
  exact (nextElement_sound hnext).1

lemma Elements.eq_nil (h : Elements es) (hempty : joined es = []) : es = [] := by
  cases es with
  | nil => rfl
  | cons head es =>
    obtain ⟨kind, e⟩ := head
    have hpos := (h (kind, e) List.mem_cons_self).pos
    rw [joined_cons] at hempty
    rw [(List.append_eq_nil_iff.mp hempty).1] at hpos
    exact absurd hpos (Nat.lt_irrefl 0)

lemma elements_iff_of_next (h : nextElement raw = some (kind, n)) (P : List (ElementKind × Bytes) → Prop) :
    (∃ es, Elements es ∧ raw = joined es ∧ P es) ↔
      ∃ es, Elements es ∧ raw.drop n = joined es ∧ P ((kind, raw.take n) :: es) := by
  obtain ⟨hpos, hle, helement⟩ := nextElement_sound h
  constructor
  · rintro ⟨es, hes, hraw, hP⟩
    cases es with
    | nil =>
      rw [show raw = [] from hraw] at hle
      exact absurd (Nat.lt_of_lt_of_le hpos hle) (Nat.lt_irrefl 0)
    | cons head es =>
      obtain ⟨kind', e⟩ := head
      rw [joined_cons] at hraw
      have hnext := nextElement_complete (hes (kind', e) List.mem_cons_self) (joined es)
      rw [← hraw, h] at hnext
      cases hnext
      have htake : raw.take e.length = e := by rw [hraw, List.take_left]
      have hdrop : raw.drop e.length = joined es := by rw [hraw, List.drop_left]
      exact ⟨es, fun e he => hes e (List.mem_cons_of_mem _ he), hdrop, by rw [htake]; exact hP⟩
  · rintro ⟨es, hes, hdrop, hP⟩
    refine ⟨(kind, raw.take n) :: es, ?_, ?_, hP⟩
    · intro e he
      rcases List.mem_cons.mp he with rfl | he
      · exact helement
      · exact hes e he
    · rw [joined_cons, ← hdrop, List.take_append_drop]

/-- The loop has an answer, and accepts the balanced sequences of elements. -/
def Filters (fuel : Nat) (raw encoded : Bytes) (groups : Nat) : Prop :=
  (∃ r, filterLoop fuel raw encoded groups = some r) ∧
    ∀ out, filterLoop fuel raw encoded groups = some (out, true) ↔
      ∃ es, Elements es ∧ raw = joined es ∧ balanced groups es = true ∧
        out = encoded ++ joined (outsideGroups groups es)

lemma Filters.nil (fuel : Nat) (encoded : Bytes) (groups : Nat) : Filters fuel [] encoded groups := by
  have hloop : filterLoop fuel [] encoded groups = some (encoded, groups == 0) := by cases fuel <;> rfl
  refine ⟨⟨_, hloop⟩, fun out => ?_⟩
  rw [hloop]
  constructor
  · intro h
    obtain ⟨hout, hgroups⟩ := Prod.mk.inj (Option.some.inj h)
    exact ⟨[], nofun, rfl, hgroups, by rw [← hout]; exact (List.append_nil encoded).symm⟩
  · rintro ⟨es, hes, hraw, hbalanced, rfl⟩
    cases hes.eq_nil hraw.symm
    rw [show (groups == 0) = true from hbalanced, show joined (outsideGroups groups []) = [] from rfl,
      List.append_nil]

lemma Filters.cons {fuel : Nat} (hraw : raw.length > 0) (hnext : nextElement raw = some (kind, n))
    (ih : ∀ encoded groups, Filters fuel (raw.drop n) encoded groups) (encoded : Bytes) (groups : Nat) :
    Filters (fuel + 1) raw encoded groups := by
  have hstep := filterLoop_step fuel hraw encoded groups
  rw [hnext] at hstep
  dsimp only at hstep
  unfold Filters
  rw [hstep]
  cases kind with
  | start =>
    obtain ⟨hanswer, hiff⟩ := ih encoded (groups + 1)
    refine ⟨hanswer, fun out => (hiff out).trans ?_⟩
    rw [elements_iff_of_next hnext]
    rfl
  | stop =>
    cases groups with
    | zero =>
      refine ⟨⟨_, rfl⟩, fun out => ?_⟩
      constructor
      · intro h
        cases h
      · intro h
        obtain ⟨es, _, _, hbalanced, _⟩ := (elements_iff_of_next hnext _).mp h
        cases hbalanced
    | succ groups =>
      obtain ⟨hanswer, hiff⟩ := ih encoded groups
      refine ⟨hanswer, fun out => (hiff out).trans ?_⟩
      rw [elements_iff_of_next hnext]
      rfl
  | field =>
    obtain ⟨hanswer, hiff⟩ := ih (if groups = 0 then encoded ++ raw.take n else encoded) groups
    refine ⟨hanswer, fun out => (hiff out).trans ?_⟩
    rw [elements_iff_of_next hnext]
    apply exists_congr
    intro es
    have hout : encoded ++ joined (outsideGroups groups ((.field, raw.take n) :: es)) =
        (if groups = 0 then encoded ++ raw.take n else encoded) ++ joined (outsideGroups groups es) := by
      rw [outsideGroups]
      split
      · rw [joined_cons, List.append_assoc]
      · rfl
    rw [hout, show balanced groups ((.field, raw.take n) :: es) = balanced groups es by cases groups <;> rfl]

end LibSignal.AccountKeys
