import Mathlib.Tactic

/-!
# Computations that may fail and change a state

`Op σ ε α` is a computation over a state of type `σ` that returns a value or fails; what it did to the state
before it failed stays done.
-/

namespace LibSignal.Lib

def Op (σ ε α : Type) : Type := σ → Except ε α × σ

namespace Op
variable {σ ε α β : Type}

instance : Monad (Op σ ε) where
  pure a := fun s => (.ok a, s)
  bind x f := fun s =>
    match x s with
    | (.ok a, s') => f a s'
    | (.error e, s') => (.error e, s')

def fail (e : ε) : Op σ ε α := fun s => (.error e, s)

def lift (x : Except ε α) : Op σ ε α := fun s => (x, s)

def ofOption (e : ε) : Option α → Op σ ε α
  | some a => fun s => (.ok a, s)
  | none => fun s => (.error e, s)

def mapErr {ε' : Type} (f : ε → ε') (x : Op σ ε α) : Op σ ε' α := fun s =>
  match x s with
  | (.ok a, s') => (.ok a, s')
  | (.error e, s') => (.error (f e), s')

def modify (f : σ → σ) : Op σ ε Unit := fun s => (.ok (), f s)

def get : Op σ ε σ := fun s => (.ok s, s)

def put (s' : σ) : Op σ ε Unit := fun _ => (.ok (), s')

@[simp] lemma pure_run (a : α) (s : σ) : (pure a : Op σ ε α) s = (.ok a, s) := rfl

@[simp] lemma fail_run (e : ε) (s : σ) : (fail e : Op σ ε α) s = (.error e, s) := rfl

@[simp] lemma lift_run (x : Except ε α) (s : σ) : (lift x : Op σ ε α) s = (x, s) := rfl

@[simp] lemma get_bind (f : σ → Op σ ε β) (s : σ) : (get >>= f) s = f s s := rfl

lemma bind_run_ok {x : Op σ ε α} {f : α → Op σ ε β} {s s1 : σ} {a : α} (h : x s = (.ok a, s1)) :
    (x >>= f) s = f a s1 := by
  change (match x s with | (.ok a, s') => f a s' | (.error e, s') => (.error e, s')) = _
  rw [h]

lemma bind_run_error {x : Op σ ε α} {f : α → Op σ ε β} {s s1 : σ} {e : ε} (h : x s = (.error e, s1)) :
    (x >>= f) s = (.error e, s1) := by
  change (match x s with | (.ok a, s') => f a s' | (.error e, s') => (.error e, s')) = _
  rw [h]

lemma bind_ok {x : Op σ ε α} {f : α → Op σ ε β} {s s' : σ} {b : β} (h : (x >>= f) s = (.ok b, s')) :
    ∃ a s1, x s = (.ok a, s1) ∧ f a s1 = (.ok b, s') := by
  cases hx : x s with
  | mk r s1 =>
    cases r with
    | ok a => exact ⟨a, s1, rfl, by rwa [bind_run_ok hx] at h⟩
    | error e => rw [bind_run_error hx] at h; cases h

lemma bind_error {x : Op σ ε α} {f : α → Op σ ε β} {s s' : σ} {e : ε} (h : (x >>= f) s = (.error e, s')) :
    x s = (.error e, s') ∨ ∃ a s1, x s = (.ok a, s1) ∧ f a s1 = (.error e, s') := by
  cases hx : x s with
  | mk r s1 =>
    cases r with
    | ok a => exact .inr ⟨a, s1, rfl, by rwa [bind_run_ok hx] at h⟩
    | error e' => rw [bind_run_error hx] at h; cases h; exact .inl rfl

lemma lift_bind_ok {x : Except ε α} {f : α → Op σ ε β} {s s' : σ} {b : β}
    (h : (lift x >>= f) s = (.ok b, s')) : ∃ a, x = .ok a ∧ f a s = (.ok b, s') := by
  cases x with
  | ok a => exact ⟨a, rfl, h⟩
  | error e => cases h

lemma ofOption_bind_ok {e : ε} {o : Option α} {f : α → Op σ ε β} {s s' : σ} {b : β}
    (h : (ofOption e o >>= f) s = (.ok b, s')) : ∃ a, o = some a ∧ f a s = (.ok b, s') := by
  cases o with
  | some a => exact ⟨a, rfl, h⟩
  | none => cases h

/-- The computation does not change the state. -/
def Reads (x : Op σ ε α) : Prop := ∀ s, (x s).2 = s

lemma reads_pure (a : α) : Reads (pure a : Op σ ε α) := fun _ => rfl

lemma reads_fail (e : ε) : Reads (fail e : Op σ ε α) := fun _ => rfl

lemma reads_lift (x : Except ε α) : Reads (lift x : Op σ ε α) := fun _ => rfl

lemma reads_ofOption (e : ε) (o : Option α) : Reads (ofOption e o : Op σ ε α) := by
  cases o with
  | none => exact fun _ => rfl
  | some a => exact fun _ => rfl

lemma reads_get : Reads (get : Op σ ε σ) := fun _ => rfl

lemma Reads.run {x : Op σ ε α} (hx : Reads x) {s s' : σ} {r : Except ε α} (h : x s = (r, s')) : s' = s := by
  have hs := hx s
  rwa [h] at hs

lemma Reads.bind {x : Op σ ε α} {f : α → Op σ ε β} (hx : Reads x) (hf : ∀ a, Reads (f a)) :
    Reads (x >>= f) := by
  intro s
  cases hrun : x s with
  | mk r s1 =>
    obtain rfl := hx.run hrun
    cases r with
    | ok a => rw [bind_run_ok hrun]; exact hf a _
    | error e => rw [bind_run_error hrun]

/-- A failed run leaves the state as it was. -/
def Atomic (x : Op σ ε α) : Prop := ∀ s e s', x s = (.error e, s') → s' = s

lemma Reads.atomic {x : Op σ ε α} (hx : Reads x) : Atomic x := fun _ _ _ h => hx.run h

lemma atomic_put (s1 : σ) : Atomic (put s1 : Op σ ε Unit) := fun _ _ _ h => by cases h

lemma Reads.bind_atomic {x : Op σ ε α} {f : α → Op σ ε β} (hx : Reads x) (hf : ∀ a, Atomic (f a)) :
    Atomic (x >>= f) := by
  intro s e s' h
  rcases bind_error h with h | ⟨a, s1, h1, h2⟩
  · exact hx.run h
  · rw [← hx.run h1]
    exact hf a s1 e s' h2

lemma Atomic.bind_pure {x : Op σ ε α} (hx : Atomic x) (f : α → β) :
    Atomic (x >>= fun a => (pure (f a) : Op σ ε β)) := by
  intro s e s' h
  rcases bind_error h with h | ⟨a, s1, _, h2⟩
  · exact hx s e s' h
  · cases h2

end Op

end LibSignal.Lib
