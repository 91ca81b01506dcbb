import RouteBook.Warning
/-! # Steps that may fail

A computation in `Except` that goes on succeeds iff each of its steps does, and fails with the fault
of the first step that fails.  A fold is such a computation: what all of its steps keep is kept by
the whole (`foldlM_ok_of_step`), and if it depends on the elements alone which step fails, then the
fold fails iff one of its elements makes a step fail (`foldlM_eq_error_iff`).

What may warn besides has the same results: which steps succeed, and with what, does not depend on
the warnings before them (`value_run_bind`).
-/
namespace RouteBook

variable {α β ε : Type}

theorem bind_eq_ok {x : Except ε α} {f : α → Except ε β} {b : β}
    (h : x >>= f = .ok b) : ∃ a, x = .ok a ∧ f a = .ok b := by
  cases x with
  | error fault => cases h
  | ok a => exact ⟨a, rfl, h⟩

theorem bind_eq_error_iff {x : Except ε α} {f : α → Except ε β} {fault : ε} :
    x >>= f = .error fault ↔ x = .error fault ∨ ∃ a, x = .ok a ∧ f a = .error fault := by
  cases x with
  | error other =>
    refine ⟨fun h => .inl ?_, fun h => ?_⟩
    · cases h
      rfl
    · obtain h | ⟨a, h, -⟩ := h
      · cases h
        rfl
      · cases h
  | ok a =>
    refine ⟨fun h => .inr ⟨a, rfl, h⟩, fun h => ?_⟩
    obtain h | ⟨a', h, hf⟩ := h
    · cases h
    · cases h
      exact hf

/-- A step that only checks something, and what follows it. -/
theorem check_bind_eq_ok_iff {x : Except ε Unit} {y : Except ε β} {b : β} :
    (x >>= fun _ => y) = .ok b ↔ x = .ok () ∧ y = .ok b := by
  cases x with
  | error fault =>
    constructor
    · intro h
      cases h
    · rintro ⟨h, -⟩
      cases h
  | ok u => exact ⟨fun h => ⟨rfl, h⟩, fun h => h.2⟩

theorem forM_eq_ok_iff {f : α → Except ε Unit} {as : List α} :
    as.forM f = .ok () ↔ ∀ a ∈ as, f a = .ok () := by
  induction as with
  | nil => exact ⟨fun _ a ha => absurd ha List.not_mem_nil, fun _ => rfl⟩
  | cons a as ih =>
    rw [List.forall_mem_cons]
    exact check_bind_eq_ok_iff.trans (and_congr_right fun _ => ih)

theorem ok_of_toOption {x : Except ε α} {a : α} (h : x.toOption = some a) : x = .ok a := by
  cases x with
  | error fault => cases h
  | ok a' => exact congrArg Except.ok (Option.some.inj h)

theorem eq_ok_of_isOk {x : Except ε α} (h : x.isOk = true) (fallback : α) :
    x = .ok (x.toOption.getD fallback) := by
  cases x with
  | error fault => cases h
  | ok a => rfl

theorem eq_ok_of_mapError {ε' : Type} {x : Except ε α} {f : ε → ε'} {a : α}
    (h : x.mapError f = .ok a) : x = .ok a := by
  cases x with
  | error fault => cases h
  | ok a' => exact congrArg Except.ok (Except.ok.inj h)

/-- What fails differently still fails differently under other names. -/
theorem mapError_inj {ε' : Type} {f : ε → ε'} (inj : ∀ x y, f x = f y → x = y)
    {x y : Except ε α} : x.mapError f = y.mapError f ↔ x = y := by
  cases x with
  | error fault =>
    cases y with
    | error fault' =>
      show Except.error _ = Except.error _ ↔ _
      rw [Except.error.injEq, Except.error.injEq]
      exact ⟨inj fault fault', congrArg f⟩
    | ok a => exact ⟨nofun, nofun⟩
  | ok a =>
    cases y with
    | error fault => exact ⟨nofun, nofun⟩
    | ok b =>
      show Except.ok _ = Except.ok _ ↔ _
      rw [Except.ok.injEq, Except.ok.injEq]

theorem mapM_eq_ok {f : α → Except ε β} {as : List α} {bs : List β}
    (h : as.mapM f = .ok bs) : as.map f = bs.map .ok := by
  induction as generalizing bs with
  | nil =>
    cases h
    rfl
  | cons a as ih =>
    rw [List.mapM_cons] at h
    obtain ⟨b, hb, h⟩ := bind_eq_ok h
    obtain ⟨rest, hrest, h⟩ := bind_eq_ok h
    cases h
    rw [List.map_cons, List.map_cons, hb, ih hrest]

/-- Several steps succeed iff each of them does. -/
theorem exists_mapM_eq_ok_iff {f : α → Except ε β} {as : List α} :
    (∃ bs, as.mapM f = .ok bs) ↔ ∀ a ∈ as, ∃ b, f a = .ok b := by
  constructor
  · rintro ⟨bs, h⟩ a ha
    have hmem : f a ∈ bs.map Except.ok := by
      rw [← mapM_eq_ok h]
      exact List.mem_map_of_mem ha
    obtain ⟨b, -, hb⟩ := List.mem_map.mp hmem
    exact ⟨b, hb.symm⟩
  · intro h
    induction as with
    | nil => exact ⟨[], rfl⟩
    | cons a as ih =>
      obtain ⟨⟨b, hb⟩, hothers⟩ := List.forall_mem_cons.mp h
      obtain ⟨bs, hbs⟩ := ih hothers
      refine ⟨b :: bs, ?_⟩
      rw [List.mapM_cons, hb, hbs]
      rfl

/-- What every step keeps is kept by all of them together. -/
theorem foldl_of_step {Keeps : β → β → Prop} (refl : ∀ b, Keeps b b)
    (trans : ∀ {b₁ b₂ b₃}, Keeps b₁ b₂ → Keeps b₂ b₃ → Keeps b₁ b₃) {f : β → α → β}
    (step : ∀ b a, Keeps b (f b a)) (as : List α) (b : β) : Keeps b (as.foldl f b) := by
  induction as generalizing b with
  | nil => exact refl b
  | cons a as ih => exact trans (step b a) (ih (f b a))

/-- So it is if the steps may fail. -/
theorem foldlM_ok_of_step {Keeps : β → β → Prop} (refl : ∀ b, Keeps b b)
    (trans : ∀ {b₁ b₂ b₃}, Keeps b₁ b₂ → Keeps b₂ b₃ → Keeps b₁ b₃) {f : β → α → Except ε β}
    (step : ∀ {b a b'}, f b a = .ok b' → Keeps b b') {as : List α} {b b' : β}
    (h : as.foldlM f b = .ok b') : Keeps b b' := by
  induction as generalizing b with
  | nil =>
    cases h
    exact refl _
  | cons a as ih =>
    rw [List.foldlM_cons] at h
    obtain ⟨next, hnext, h⟩ := bind_eq_ok h
    exact trans (step hnext) (ih h)

/-- If a step fails with a given fault for certain elements, wherever it starts from, then a run
fails with it iff it meets one of them. -/
theorem foldlM_eq_error_iff {IsBad : α → Prop} {fault : ε} {f : β → α → Except ε β}
    (step : ∀ b a other, f b a = .error other ↔ IsBad a ∧ other = fault) (as : List α) (b : β)
    (other : ε) : as.foldlM f b = .error other ↔ (∃ a ∈ as, IsBad a) ∧ other = fault := by
  induction as generalizing b with
  | nil =>
    refine ⟨fun h => ?_, fun ⟨⟨a, ha, _⟩, _⟩ => absurd ha List.not_mem_nil⟩
    cases h
  | cons a as ih =>
    rw [List.foldlM_cons, bind_eq_error_iff, step]
    simp only [List.mem_cons, exists_eq_or_imp]
    constructor
    · rintro (⟨hbad, rfl⟩ | ⟨next, -, h⟩)
      · exact ⟨.inl hbad, rfl⟩
      · obtain ⟨hbad, hfault⟩ := (ih next).mp h
        exact ⟨.inr hbad, hfault⟩
    · rintro ⟨hbad, rfl⟩
      -- if the first step goes on, its element is none of the bad ones
      cases hfirst : f b a with
      | error other =>
        obtain ⟨ha, rfl⟩ := (step b a other).mp hfirst
        exact .inl ⟨ha, rfl⟩
      | ok next =>
        refine .inr ⟨next, rfl, (ih next).mpr ⟨hbad.resolve_left fun ha => ?_, rfl⟩⟩
        rw [(step b a other).mpr ⟨ha, rfl⟩] at hfirst
        cases hfirst

/-! ### Steps that may also warn -/

theorem value_run_bind (x : ExceptT ε Logged α) (f : α → ExceptT ε Logged β) :
    (x >>= f).run.value = x.run.value >>= fun a => (f a).run.value := by
  rw [ExceptT.run_bind, Logged.value_bind]
  cases x.run.value with
  | error fault => rfl
  | ok a => rfl

/-- A step that cannot warn. -/
theorem value_run_liftM (x : Except ε α) : (liftM x : ExceptT ε Logged α).run.value = x := by
  cases x <;> rfl

/-- A step that cannot fail. -/
theorem value_run_lift (x : Logged α) : (liftM x : ExceptT ε Logged α).run.value = .ok x.value :=
  rfl

end RouteBook
