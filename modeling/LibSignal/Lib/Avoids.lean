import LibSignal.Lib.ExceptBind

/-!
# Computations that avoid an error

`Avoids bad x P` says that the computation `x` does not end in the error `bad` and that its result, if there
is one, satisfies `P`; the rules follow the structure of a computation.
-/

namespace LibSignal.Lib
variable {ε ε' α β : Type} {bad : ε}

structure Avoids (bad : ε) (x : Except ε α) (P : α → Prop) : Prop where
  ne : x ≠ .error bad
  post : ∀ a, x = .ok a → P a

namespace Avoids

lemma ok {a : α} {P : α → Prop} (h : P a) : Avoids bad (.ok a) P :=
  ⟨nofun, fun _ heq => Except.ok.inj heq ▸ h⟩

lemma error {e : ε} (P : α → Prop) (h : e ≠ bad) : Avoids bad (.error e) P :=
  ⟨fun heq => h (Except.error.inj heq), nofun⟩

lemma imp {x : Except ε α} {P Q : α → Prop} (h : Avoids bad x P) (himp : ∀ a, P a → Q a) : Avoids bad x Q :=
  ⟨h.ne, fun a ha => himp a (h.post a ha)⟩

lemma bind {x : Except ε α} {f : α → Except ε β} {P : α → Prop} {Q : β → Prop} (h : Avoids bad x P)
    (hf : ∀ a, x = .ok a → P a → Avoids bad (f a) Q) : Avoids bad (x >>= f) Q := by
  cases x with
  | error e => exact error Q fun heq => h.ne (congrArg Except.error heq)
  | ok a => exact hf a rfl (h.post a rfl)

lemma mapError {bad : ε'} (x : Except ε α) {g : ε → ε'} (h : ∀ e, g e ≠ bad) :
    Avoids bad (x.mapError g) fun _ => True := by
  cases x with
  | error e => exact error _ (h e)
  | ok a => exact ok trivial

lemma map {x : Except ε α} {g : α → β} {P : α → Prop} {Q : β → Prop} (h : Avoids bad x P)
    (hg : ∀ a, P a → Q (g a)) : Avoids bad (x.map g) Q := by
  cases x with
  | error e => exact error Q fun heq => h.ne (congrArg Except.error heq)
  | ok a => exact ok (hg a (h.post a rfl))

lemma mapM {f : α → Except ε β} (xs : List α) (h : ∀ a ∈ xs, Avoids bad (f a) fun _ => True) :
    Avoids bad (xs.mapM f) fun _ => True := by
  induction xs with
  | nil => exact ok trivial
  | cons a xs ih =>
    obtain ⟨ha, hxs⟩ := List.forall_mem_cons.mp h
    rw [List.mapM_cons]
    exact ha.bind fun _ _ _ => (ih hxs).bind fun _ _ _ => ok trivial

end Avoids

/-- `x` ends in `bad` or does what `y` does. -/
def Guards (bad : ε) (x y : Except ε α) : Prop := x = .error bad ∨ x = y

namespace Guards

lemma refl (x : Except ε α) : Guards bad x x := .inr rfl

lemma stop (y : Except ε α) : Guards bad (.error bad) y := .inl rfl

lemma bind {x y : Except ε α} {f g : α → Except ε β} (h : Guards bad x y)
    (hf : ∀ a, Guards bad (f a) (g a)) : Guards bad (x >>= f) (y >>= g) := by
  rcases h with rfl | rfl
  · exact stop _
  · cases x with
    | error e => exact refl _
    | ok a => exact hf a

lemma eq {x y : Except ε α} (h : Guards bad x y) (hne : x ≠ .error bad) : x = y :=
  h.resolve_left hne

end Guards

end LibSignal.Lib
