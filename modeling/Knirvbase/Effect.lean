import Mathlib.Logic.Basic

/-!
# Calls that fail and change state

Fallible pure code returns `Except String α`. A call of the storage layer or of the network
manager runs in `EStateM String σ`: it returns a value or an error message together with the
state it leaves, so a call that fails part way keeps what it has already done. The lemmas here
take such a call apart one step at a time; `finalState` is the state a call leaves whatever its
`outcome`. `Preserves I x` says that every run of `x` keeps the invariant `I`; its combinators
follow the shape of a `do` block.
-/

set_option autoImplicit false

namespace Knirvbase

section Except

variable {ε α β : Type}

@[simp] theorem except_ok_bind (a : α) (f : α → Except ε β) : (Except.ok a >>= f) = f a := rfl

@[simp] theorem except_error_bind (e : ε) (f : α → Except ε β) :
    (Except.error e >>= f) = .error e := rfl

@[simp] theorem except_pure (a : α) : (pure a : Except ε α) = .ok a := rfl

@[simp] theorem except_throw (e : ε) : (throw e : Except ε α) = .error e := rfl

end Except

section Run

variable {σ α β : Type} {x : EStateM String σ α} {f : α → EStateM String σ β} {d d' : σ}

theorem bind_apply (x : EStateM String σ α) (f : α → EStateM String σ β) (d : σ) :
    (x >>= f) d = EStateM.bind x f d := rfl

theorem map_apply (g : α → β) (x : EStateM String σ α) (d : σ) :
    (g <$> x) d = EStateM.map g x d := rfl

theorem bind_eq_ok {b : β} :
    (x >>= f) d = .ok b d' ↔ ∃ a d₁, x d = .ok a d₁ ∧ f a d₁ = .ok b d' := by
  show EStateM.bind x f d = _ ↔ _
  unfold EStateM.bind
  cases x d <;> simp [and_assoc]

theorem bind_eq_error {e : String} :
    (x >>= f) d = .error e d' ↔
      x d = .error e d' ∨ ∃ a d₁, x d = .ok a d₁ ∧ f a d₁ = .error e d' := by
  show EStateM.bind x f d = _ ↔ _
  unfold EStateM.bind
  cases x d <;> simp [and_assoc]

/-- A step that fails stops the computation. -/
theorem bind_of_error {e : String} {d₁ : σ} (h : x d = .error e d₁) :
    (x >>= f) d = .error e d₁ := by
  show EStateM.bind x f d = _
  unfold EStateM.bind
  rw [h]

/-- A step that succeeds passes its result and state on. -/
theorem bind_of_ok {a : α} {d₁ : σ} (h : x d = .ok a d₁) : (x >>= f) d = f a d₁ := by
  show EStateM.bind x f d = _
  unfold EStateM.bind
  rw [h]

@[simp] theorem pure_apply (a : α) (d : σ) : (pure a : EStateM String σ α) d = .ok a d := rfl

@[simp] theorem throw_apply (e : String) (d : σ) :
    (throw e : EStateM String σ α) d = .error e d := rfl

@[simp] theorem get_apply (d : σ) : (get : EStateM String σ σ) d = .ok d d := rfl

@[simp] theorem set_apply (d₁ d : σ) : (set d₁ : EStateM String σ PUnit) d = .ok ⟨⟩ d₁ := rfl

/-- The state a call leaves, whether it succeeded or failed. -/
def finalState : EStateM.Result String σ α → σ
  | .ok _ d => d
  | .error _ d => d

@[simp] theorem finalState_ok (a : α) (d : σ) :
    finalState (.ok a d : EStateM.Result String σ α) = d := rfl

@[simp] theorem finalState_error (e : String) (d : σ) :
    finalState (.error e d : EStateM.Result String σ α) = d := rfl


/-- The outcome of a call, without the state it leaves. -/
def outcome : EStateM.Result String σ α → Except String α
  | .ok a _ => .ok a
  | .error e _ => .error e

theorem finalState_bind (x : EStateM String σ α) (f : α → EStateM String σ β) (d : σ) :
    finalState ((x >>= f) d) =
      match x d with
      | .ok a d₁ => finalState (f a d₁)
      | .error _ d₁ => d₁ := by
  show finalState (EStateM.bind x f d) = _
  unfold EStateM.bind
  cases x d <;> rfl

/-! ## Invariants of calls -/

/-- Every run of `x` from a state where `I` holds leaves a state where `I` holds, whether it
succeeds or fails. -/
def Preserves (I : σ → Prop) (x : EStateM String σ α) : Prop :=
  ∀ d, I d → I (finalState (x d))

variable {I : σ → Prop}

theorem Preserves.bind (hx : Preserves I x) (hf : ∀ a, Preserves I (f a)) :
    Preserves I (x >>= f) := fun d hd => by
  rw [finalState_bind]
  have h := hx d hd
  cases e : x d with
  | ok a d₁ => rw [e] at h; exact hf a d₁ h
  | error _ d₁ => rw [e] at h; exact h

theorem Preserves.get_bind {f : σ → EStateM String σ β}
    (hf : ∀ d, I d → I (finalState (f d d))) : Preserves I (get >>= f) := fun d hd => by
  rw [finalState_bind]
  exact hf d hd

theorem Preserves.pure (a : α) : Preserves I (pure a : EStateM String σ α) := fun _ hd => hd

theorem Preserves.throw (e : String) : Preserves I (throw e : EStateM String σ α) :=
  fun _ hd => hd

theorem Preserves.set {d₁ : σ} (h : I d₁) : Preserves I (set d₁ : EStateM String σ PUnit) :=
  fun _ _ => h

theorem Preserves.ite {c : Prop} [Decidable c] {y : EStateM String σ α} (hx : Preserves I x)
    (hy : Preserves I y) : Preserves I (if c then x else y) := by
  split <;> assumption

end Run

end Knirvbase
