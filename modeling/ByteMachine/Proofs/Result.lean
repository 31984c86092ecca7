/-!
# Computations that may fail

Inversion of sequenced computations: when a chain of steps succeeds, each of
its steps succeeded.  The readers of source text and the effects of
instructions are such chains.  Other chains work on a state, which the step that
fails leaves behind as well.
-/

namespace ByteMachine
namespace Result

variable {ε α β : Type}

@[simp] theorem ok_bind (a : α) (f : α → Except ε β) :
    (Except.ok a >>= f) = f a := rfl

@[simp] theorem error_bind (e : ε) (f : α → Except ε β) :
    (Except.error e >>= f) = .error e := rfl

@[simp] theorem pure_eq_ok (a : α) : (pure a : Except ε α) = .ok a := rfl

@[simp] theorem throw_eq_error (e : ε) :
    (throw e : Except ε α) = .error e := rfl

@[simp] theorem map_ok_eq (f : α → β) (a : α) :
    (Except.ok a : Except ε α).map f = .ok (f a) := rfl

@[simp] theorem map_error_eq (f : α → β) (e : ε) :
    (Except.error e : Except ε α).map f = .error e := rfl

@[simp] theorem map_bind {γ : Type} (x : Except ε α) (f : α → β)
    (g : β → Except ε γ) : (x.map f >>= g) = x >>= fun a => g (f a) := by
  cases x <;> rfl

@[simp] theorem bind_map {γ : Type} (x : Except ε α) (f : α → Except ε β)
    (g : β → γ) : (x >>= f).map g = x >>= fun a => (f a).map g := by
  cases x <;> rfl

theorem bind_eq_ok_iff
    {x : Except ε α} {f : α → Except ε β} {b : β} :
    (x >>= f) = .ok b ↔ ∃ a, x = .ok a ∧ f a = .ok b := by
  cases x with
  | error e => simp
  | ok a => simp

theorem bind_eq_error_iff
    {x : Except ε α} {f : α → Except ε β} {e : ε} :
    (x >>= f) = .error e ↔
      x = .error e ∨ ∃ a, x = .ok a ∧ f a = .error e := by
  cases x with
  | error other => simp
  | ok a => simp

theorem bind_ne_error
    {x : Except ε α} {f : α → Except ε β} {e : ε} (hx : x ≠ .error e)
    (hf : ∀ a, f a ≠ .error e) : (x >>= f) ≠ .error e := by
  intro h
  rcases bind_eq_error_iff.mp h with hfirst | ⟨a, -, hlater⟩
  · exact hx hfirst
  · exact hf a hlater

theorem map_eq_ok_iff
    {x : Except ε α} {f : α → β} {b : β} :
    x.map f = .ok b ↔ ∃ a, x = .ok a ∧ f a = b := by
  cases x with
  | error e => simp
  | ok a => simp

theorem map_eq_error_iff
    {x : Except ε α} {f : α → β} {e : ε} :
    x.map f = .error e ↔ x = .error e := by
  cases x with
  | error other => simp
  | ok a => simp

theorem toOption_eq_some_iff
    {x : Except ε α} {a : α} : x.toOption = some a ↔ x = .ok a := by
  cases x with
  | error e => simp [Except.toOption]
  | ok b => simp [Except.toOption]

/-- A computation over a list succeeds when it does on every entry. -/
theorem mapM_eq_ok_iff
    {f : α → Except ε β} {xs : List α} {ys : List β} :
    xs.mapM f = .ok ys ↔ xs.map f = ys.map .ok := by
  induction xs generalizing ys with
  | nil => cases ys <;> simp
  | cons x xs ih =>
      rw [List.mapM_cons, bind_eq_ok_iff]
      simp only [bind_eq_ok_iff, pure_eq_ok, Except.ok.injEq, ih]
      cases ys with
      | nil => simp
      | cons y ys => simp [eq_comm]

/-- When success and result are known for each entry, they are known for the
list. -/
theorem mapM_eq_ok_iff_of_forall
    {f : α → Except ε β} {p : α → Prop} {g : α → β}
    (hf : ∀ a b, f a = .ok b ↔ p a ∧ b = g a)
    {xs : List α} {ys : List β} :
    xs.mapM f = .ok ys ↔ (∀ x ∈ xs, p x) ∧ ys = xs.map g := by
  rw [mapM_eq_ok_iff]
  induction xs generalizing ys with
  | nil => cases ys <;> simp
  | cons x xs ih =>
      cases ys with
      | nil => simp
      | cons y ys =>
          simp only [List.map_cons, List.cons.injEq, ih, hf,
            List.forall_mem_cons]
          constructor
          · rintro ⟨⟨hx, rfl⟩, hxs, rfl⟩
            exact ⟨⟨hx, hxs⟩, rfl, rfl⟩
          · rintro ⟨⟨hx, hxs⟩, rfl, rfl⟩
            exact ⟨⟨hx, rfl⟩, hxs, rfl⟩

/-- A computation over a list fails as it does on the first entry where it
fails. -/
theorem exists_of_mapM_eq_error
    {f : α → Except ε β} {xs : List α} {e : ε} (h : xs.mapM f = .error e) :
    ∃ front x back, xs = front ++ x :: back ∧ f x = .error e ∧
      ∀ y ∈ front, ∃ b, f y = .ok b := by
  induction xs with
  | nil => cases h
  | cons x xs ih =>
      rw [List.mapM_cons, bind_eq_error_iff] at h
      rcases h with hfirst | ⟨b, hfirst, hrest⟩
      · exact ⟨[], x, xs, rfl, hfirst, by simp⟩
      · rcases bind_eq_error_iff.mp hrest with hlater | ⟨_, -, hdone⟩
        · obtain ⟨front, y, back, rfl, hy, hfront⟩ := ih hlater
          exact ⟨x :: front, y, back, rfl, hy,
            List.forall_mem_cons.mpr ⟨⟨b, hfirst⟩, hfront⟩⟩
        · cases hdone

/-! ## Computations on a state -/

section State

variable {σ : Type} {x : ExceptT ε (StateM σ) α} {state after : σ}

theorem run_get (state : σ) :
    (get : ExceptT ε (StateM σ) σ).run.run state = (.ok state, state) := rfl

theorem run_bind_of_ok
    {a : α} (h : x.run.run state = (.ok a, after))
    (f : α → ExceptT ε (StateM σ) β) :
    (x >>= f).run.run state = (f a).run.run after := by
  simp only [ExceptT.run_bind, StateT.run_bind]
  rw [h]
  rfl

theorem run_bind_of_error
    {failure : ε} (h : x.run.run state = (.error failure, after))
    (f : α → ExceptT ε (StateM σ) β) :
    (x >>= f).run.run state = (.error failure, after) := by
  simp only [ExceptT.run_bind, StateT.run_bind]
  rw [h]
  rfl

theorem run_map_of_ok
    {a : α} (h : x.run.run state = (.ok a, after)) (f : α → β) :
    (f <$> x).run.run state = (.ok (f a), after) := by
  rw [map_eq_pure_bind, run_bind_of_ok h]
  rfl

theorem run_map_of_error
    {failure : ε} (h : x.run.run state = (.error failure, after))
    (f : α → β) :
    (f <$> x).run.run state = (.error failure, after) := by
  rw [map_eq_pure_bind, run_bind_of_error h]

end State

end Result
end ByteMachine
