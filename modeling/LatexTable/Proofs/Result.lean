import LatexTable.Error
/-! When a computation that may fail succeeds: every step of it has. -/
namespace LatexTable.Result

variable {ε α β : Type} {x : Except ε α} {f : α → Except ε β} {a a' : α} {b : β}

theorem bind_eq_ok : x >>= f = .ok b ↔ ∃ a, x = .ok a ∧ f a = .ok b := by
  cases x <;> simp [bind, Except.bind]

/-- A check has no result. -/
theorem check_bind_eq_ok {x : Except ε Unit} {f : Unit → Except ε β} :
    x >>= f = .ok b ↔ x = .ok () ∧ f () = .ok b := by
  rw [bind_eq_ok]
  exact ⟨fun ⟨_, h⟩ => h, fun h => ⟨(), h⟩⟩

theorem pure_eq_ok : (pure a : Except ε α) = .ok a' ↔ a' = a :=
  ⟨fun h => (Except.ok.inj h).symm, fun h => h ▸ rfl⟩

/-- A computation fails in one of its steps, and with the error of that step. -/
theorem bind_eq_error {e : ε} :
    x >>= f = .error e ↔ x = .error e ∨ ∃ a, x = .ok a ∧ f a = .error e := by
  cases x <;> simp [bind, Except.bind]

theorem check_bind_eq_error {x : Except ε Unit} {f : Unit → Except ε β} {e : ε} :
    x >>= f = .error e ↔ x = .error e ∨ x = .ok () ∧ f () = .error e := by
  rw [bind_eq_error]
  exact or_congr_right ⟨fun ⟨_, h⟩ => h, fun h => ⟨(), h⟩⟩

theorem pure_ne_error {e : ε} : (pure a : Except ε α) ≠ .error e := nofun

theorem bind_pure_eq_error {g : α → β} {e : ε} :
    (x >>= fun a => pure (g a)) = .error e ↔ x = .error e := by
  cases x <;> simp [bind, Except.bind, pure, Except.pure]

theorem map_eq_error {g : α → β} {e : ε} : x.map g = .error e ↔ x = .error e := by
  cases x <;> simp [Except.map]

/-- What every step keeps, a fold keeps. -/
theorem foldlM_invariant {P : β → Prop} {step : β → α → Except ε β}
    (hstep : ∀ b a b', P b → step b a = .ok b' → P b') :
    ∀ {as : List α} {b b' : β}, P b → as.foldlM step b = .ok b' → P b' := by
  intro as
  induction as with
  | nil =>
    intro b b' hb hfold
    rwa [pure_eq_ok.mp hfold]
  | cons a as ih =>
    intro b b' hb hfold
    rw [List.foldlM_cons] at hfold
    obtain ⟨c, hc, hrest⟩ := bind_eq_ok.mp hfold
    exact ih (hstep b a c hb hc) hrest

/-- A fold whose steps succeed wherever those of another do succeeds with it. -/
theorem foldlM_eq_ok_of_imp {f g : β → α → Except ε β}
    (hstep : ∀ b a b', f b a = .ok b' → g b a = .ok b') :
    ∀ {as : List α} {b b' : β}, as.foldlM f b = .ok b' → as.foldlM g b = .ok b' := by
  intro as
  induction as with
  | nil => exact fun h => h
  | cons a as ih =>
    intro b b' hfold
    rw [List.foldlM_cons] at hfold ⊢
    obtain ⟨c, hc, hrest⟩ := bind_eq_ok.mp hfold
    exact bind_eq_ok.mpr ⟨c, hstep b a c hc, ih hrest⟩

end LatexTable.Result
