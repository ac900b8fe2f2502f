import LibSignal.Lib.StateExcept

/-!
# Pre- and postconditions of computations that may fail

`Triple P x Q E`: started in a state with `P`, the computation `x` ends with `Q` if it returns and with `E` if
it fails.
-/

namespace LibSignal.Lib.Op

variable {σ ε ε' α β : Type} {P P' : σ → Prop} {E : ε → σ → Prop}

/-- From `P` the computation returns with `Q` or fails with `E`. -/
def Triple (P : σ → Prop) (x : Op σ ε α) (Q : α → σ → Prop) (E : ε → σ → Prop) : Prop :=
  ∀ s, P s → (∀ a s', x s = (.ok a, s') → Q a s') ∧ ∀ e s', x s = (.error e, s') → E e s'

lemma triple_pure {a : α} {Q : α → σ → Prop} (h : ∀ s, P s → Q a s) : Triple P (pure a : Op σ ε α) Q E := by
  intro s hs
  refine ⟨fun a' s' hrun => ?_, fun e s' hrun => nomatch hrun⟩
  cases hrun
  exact h s hs

lemma triple_fail {e : ε} {Q : α → σ → Prop} (h : ∀ s, P s → E e s) : Triple P (fail e : Op σ ε α) Q E := by
  intro s hs
  refine ⟨fun a s' hrun => (nomatch hrun), fun e' s' hrun => ?_⟩
  cases hrun
  exact h s hs

lemma triple_lift {x : Except ε α} {Q : α → σ → Prop} (hok : ∀ a, x = .ok a → ∀ s, P s → Q a s)
    (herr : ∀ e, x = .error e → ∀ s, P s → E e s) : Triple P (lift x : Op σ ε α) Q E := by
  intro s hs
  refine ⟨fun a s' hrun => ?_, fun e s' hrun => ?_⟩
  · obtain ⟨hx, rfl⟩ := Prod.mk.inj hrun
    exact hok a hx _ hs
  · obtain ⟨hx, rfl⟩ := Prod.mk.inj hrun
    exact herr e hx _ hs

lemma triple_modify {f : σ → σ} {Q : Unit → σ → Prop} (h : ∀ s, P s → Q () (f s)) :
    Triple P (modify f : Op σ ε Unit) Q E := by
  intro s hs
  refine ⟨fun a s' hrun => ?_, fun e s' hrun => nomatch hrun⟩
  cases hrun
  exact h s hs

lemma Triple.bind {x : Op σ ε α} {f : α → Op σ ε β} {R : α → σ → Prop} {Q : β → σ → Prop}
    (hx : Triple P x R E) (hf : ∀ a, Triple (R a) (f a) Q E) : Triple P (x >>= f) Q E := by
  intro s hs
  refine ⟨fun b s' hrun => ?_, fun e s' hrun => ?_⟩
  · obtain ⟨a, s1, h1, h2⟩ := bind_ok hrun
    exact (hf a s1 ((hx s hs).1 a s1 h1)).1 b s' h2
  · rcases bind_error hrun with h | ⟨a, s1, h1, h2⟩
    · exact (hx s hs).2 e s' h
    · exact (hf a s1 ((hx s hs).1 a s1 h1)).2 e s' h2

lemma mapErr_ok {f : ε → ε'} {x : Op σ ε α} {s s' : σ} {a : α} (h : mapErr f x s = (.ok a, s')) :
    x s = (.ok a, s') := by
  rw [mapErr] at h
  split at h <;> cases h
  assumption

lemma mapErr_error {f : ε → ε'} {x : Op σ ε α} {s s' : σ} {e' : ε'} (h : mapErr f x s = (.error e', s')) :
    ∃ e, f e = e' ∧ x s = (.error e, s') := by
  rw [mapErr] at h
  split at h
  · cases h
  · cases h
    exact ⟨_, rfl, ‹_›⟩

lemma Triple.mapErr {f : ε → ε'} {x : Op σ ε α} {Q : α → σ → Prop} {E : ε' → σ → Prop}
    (hx : Triple P x Q fun e s => E (f e) s) : Triple P (mapErr f x) Q E := by
  intro s hs
  refine ⟨fun a s' hrun => (hx s hs).1 a s' (mapErr_ok hrun), fun e' s' hrun => ?_⟩
  obtain ⟨e, rfl, hx'⟩ := mapErr_error hrun
  exact (hx s hs).2 e s' hx'

lemma Triple.imp {x : Op σ ε α} {Q Q' : α → σ → Prop} {E' : ε → σ → Prop} (hx : Triple P x Q E)
    (hpre : ∀ s, P' s → P s) (hpost : ∀ a s, Q a s → Q' a s) (herr : ∀ e s, E e s → E' e s) :
    Triple P' x Q' E' :=
  fun s hs => ⟨fun a s' hrun => hpost a s' ((hx s (hpre s hs)).1 a s' hrun),
    fun e s' hrun => herr e s' ((hx s (hpre s hs)).2 e s' hrun)⟩

lemma Triple.of_fact {p : Prop} {x : Op σ ε α} {Q : α → σ → Prop} (h : p → Triple P x Q E) :
    Triple (fun s => P s ∧ p) x Q E := fun s hs => h hs.2 s hs.1

lemma Triple.lift_bind {x : Except ε α} {f : α → Op σ ε β} {Q : β → σ → Prop} (herr : ∀ e s, P s → E e s)
    (h : ∀ a, x = .ok a → Triple P (f a) Q E) : Triple P (lift x >>= f) Q E := by
  refine Triple.bind (R := fun a s => P s ∧ x = .ok a)
    (triple_lift (fun a hx s hs => ⟨hs, hx⟩) fun e _ s hs => herr e s hs) fun a => ?_
  exact Triple.of_fact (h a)

abbrev Keeps (P : σ → Prop) (x : Op σ ε α) : Prop := Triple P x (fun _ => P) fun _ => P

lemma Keeps.fail (e : ε) : Keeps P (fail e : Op σ ε α) := triple_fail fun _ h => h

lemma Keeps.pure (a : α) : Keeps P (pure a : Op σ ε α) := triple_pure fun _ h => h

lemma Keeps.lift_bind {x : Except ε α} {f : α → Op σ ε β} (h : ∀ a, x = .ok a → Keeps P (f a)) :
    Keeps P (lift x >>= f) := Triple.lift_bind (fun _ _ hs => hs) h

lemma Keeps.of_run {x : Op σ ε α} (h : ∀ s, P s → P (x s).2) : Keeps P x := by
  intro s hs
  have hrun := h s hs
  refine ⟨fun a s' hx => ?_, fun e s' hx => ?_⟩ <;> rwa [hx] at hrun

lemma Keeps.run {x : Op σ ε α} (h : Keeps P x) {s : σ} (hs : P s) : P (x s).2 := by
  cases hx : x s with
  | mk r s' =>
    cases r with
    | ok a => exact (h s hs).1 a s' hx
    | error e => exact (h s hs).2 e s' hx

end LibSignal.Lib.Op
