import LibSignal.Lib.ExceptBind

/-!
# Two fallible computations that agree

`Agree R x y` says that `x` and `y` fail with the same error or succeed with results related by `R`.
-/

namespace LibSignal.Lib
variable {ε ε' α α' β β' : Type}

inductive Agree (R : α → α' → Prop) : Except ε α → Except ε α' → Prop
  | error (e : ε) : Agree R (.error e) (.error e)
  | ok {a : α} {a' : α'} (h : R a a') : Agree R (.ok a) (.ok a')

namespace Agree
variable {R : α → α' → Prop} {S : β → β' → Prop} {x : Except ε α} {y : Except ε α'}

lemma bind {f : α → Except ε β} {g : α' → Except ε β'} (h : Agree R x y)
    (hfg : ∀ a a', x = .ok a → y = .ok a' → R a a' → Agree S (f a) (g a')) : Agree S (x >>= f) (y >>= g) := by
  cases h with
  | error e => exact .error e
  | ok h => exact hfg _ _ rfl rfl h

lemma bindRight {S : α → β' → Prop} {g : α' → Except ε β'} (h : Agree R x y)
    (hg : ∀ a a', R a a' → Agree S (.ok a : Except ε α) (g a')) : Agree S x (y >>= g) := by
  cases h with
  | error e => exact .error e
  | ok h => exact hg _ _ h

lemma ite {c : Prop} [Decidable c] {x' : Except ε α} {y' : Except ε α'} (h : Agree R x y)
    (h' : Agree R x' y') : Agree R (if c then x else x') (if c then y else y') := by
  split
  · exact h
  · exact h'

lemma self {R : α → α → Prop} (h : ∀ a, x = .ok a → R a a) : Agree R x x := by
  cases x with
  | error e => exact .error e
  | ok a => exact .ok (h a rfl)

lemma sameBind {f : α → Except ε β} {g : α → Except ε β'}
    (hfg : ∀ a, x = .ok a → Agree S (f a) (g a)) : Agree S (x >>= f) (x >>= g) := by
  refine bind (R := Eq) (self fun _ _ => rfl) ?_
  rintro a _ hx _ rfl
  exact hfg a hx

end Agree

end LibSignal.Lib
