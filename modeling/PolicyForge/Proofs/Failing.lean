import PolicyForge.Proofs.Lists

namespace PolicyForge.Failing

theorem bind_eq_ok {ε α β : Type} {x : Except ε α} {next : α → Except ε β} {result : β} :
    x >>= next = .ok result ↔ ∃ a, x = .ok a ∧ next a = .ok result := by
  cases x with
  | error e => simp [bind, Except.bind]
  | ok a => simp [bind, Except.bind]

/-- The whole fails with the error of the step, or with that of what follows once the step went
through. -/
theorem bind_eq_error {ε α β : Type} {x : Except ε α} {next : α → Except ε β} {e : ε} :
    x >>= next = .error e ↔ x = .error e ∨ ∃ a, x = .ok a ∧ next a = .error e := by
  cases x with
  | error reason => simp [bind, Except.bind]
  | ok a => simp [bind, Except.bind]

theorem toOption_eq_some_iff {ε α : Type} {x : Except ε α} {a : α} :
    x.toOption = some a ↔ x = .ok a := by
  cases x with
  | error e => simp [Except.toOption]
  | ok own => simp [Except.toOption]

theorem exists_eq_ok_of_isSome {ε α : Type} {x : Except ε α} (hsome : x.toOption.isSome = true) :
    ∃ a, x = .ok a := by
  cases x with
  | error e => cases hsome
  | ok a => exact ⟨a, rfl⟩

theorem exists_of_toOption_map_eq_some {ε α β : Type} {x : Except ε α} {f : α → β} {b : β}
    (hx : x.toOption.map f = some b) : ∃ a, x = .ok a ∧ f a = b := by
  cases x with
  | error e => cases hx
  | ok a => exact ⟨a, rfl, Option.some.inj hx⟩

/-- A list is mapped when each of its elements is, one to one and in order. -/
theorem mapM_eq_ok_iff {ε α β : Type} {f : α → Except ε β} {xs : List α} {ys : List β} :
    xs.mapM f = .ok ys ↔ List.Forall₂ (fun x y => f x = .ok y) xs ys := by
  induction xs generalizing ys with
  | nil =>
    rw [List.mapM_nil, List.forall₂_nil_left_iff]
    exact ⟨fun h => (Except.ok.inj h).symm, fun h => h ▸ rfl⟩
  | cons x xs ih =>
    rw [List.mapM_cons, bind_eq_ok, List.forall₂_cons_left_iff]
    simp only [bind_eq_ok, ih]
    constructor
    · rintro ⟨y, hy, rest, hrest, heq⟩
      exact ⟨y, rest, hy, hrest, (Except.ok.inj heq).symm⟩
    · rintro ⟨y, rest, hy, hrest, rfl⟩
      exact ⟨y, hy, rest, hrest, rfl⟩

/-- A traversal goes through just when all elements pass, and then every one has its own result. -/
theorem mapM_eq_ok_iff_forall {ε α β : Type} {f : α → Except ε β} {passes : α → Prop} {g : α → β}
    (hf : ∀ x y, f x = .ok y ↔ passes x ∧ y = g x) {xs : List α} {ys : List β} :
    xs.mapM f = .ok ys ↔ (∀ x ∈ xs, passes x) ∧ ys = xs.map g := by
  rw [mapM_eq_ok_iff]
  induction xs generalizing ys with
  | nil => simp
  | cons x xs ih =>
    rw [List.forall₂_cons_left_iff, List.forall_mem_cons, List.map_cons]
    simp only [ih, hf x]
    constructor
    · rintro ⟨_, _, ⟨hx, rfl⟩, ⟨hxs, rfl⟩, rfl⟩
      exact ⟨⟨hx, hxs⟩, rfl⟩
    · rintro ⟨⟨hx, hxs⟩, rfl⟩
      exact ⟨_, _, ⟨hx, rfl⟩, ⟨hxs, rfl⟩, rfl⟩

theorem exists_mem_of_mapM_eq_ok {ε α β : Type} {f : α → Except ε β} {xs : List α} {ys : List β}
    (hok : xs.mapM f = .ok ys) {x : α} (hx : x ∈ xs) : ∃ y ∈ ys, f x = .ok y :=
  Lists.exists_of_mem_forall₂ (mapM_eq_ok_iff.mp hok).flip hx

theorem exists_mapM_eq_ok {ε α β : Type} {f : α → Except ε β} {xs : List α}
    (hok : ∀ x ∈ xs, ∃ y, f x = .ok y) : ∃ ys, xs.mapM f = .ok ys := by
  induction xs with
  | nil => exact ⟨[], rfl⟩
  | cons x xs ih =>
    obtain ⟨y, hy⟩ := hok x List.mem_cons_self
    obtain ⟨ys, hys⟩ := ih fun other hother => hok other (List.mem_cons_of_mem x hother)
    refine ⟨y :: ys, ?_⟩
    rw [List.mapM_cons, hy, hys]
    rfl

/-- A traversal fails with the error of the first element that does not pass. -/
theorem mapM_eq_error_iff {ε α β : Type} {f : α → Except ε β} {xs : List α} {e : ε} :
    xs.mapM f = .error e ↔ ∃ before x behind, xs = before ++ x :: behind ∧
      (∀ other ∈ before, ∃ y, f other = .ok y) ∧ f x = .error e := by
  induction xs with
  | nil => simp [pure, Except.pure]
  | cons own xs ih =>
    have hstep : (own :: xs).mapM f = .error e ↔
        f own = .error e ∨ ∃ y, f own = .ok y ∧ xs.mapM f = .error e := by
      rw [List.mapM_cons]
      simp [bind_eq_error, pure, Except.pure]
    rw [hstep, ih]
    constructor
    · rintro (hown | ⟨y, hown, before, x, behind, rfl, hbefore, hx⟩)
      · exact ⟨[], own, xs, rfl, by simp, hown⟩
      · exact ⟨own :: before, x, behind, rfl, List.forall_mem_cons.mpr ⟨⟨y, hown⟩, hbefore⟩, hx⟩
    · rintro ⟨_ | ⟨first, before⟩, x, behind, heq, hbefore, hx⟩
      · obtain ⟨rfl, -⟩ := List.cons.inj heq
        exact .inl hx
      · obtain ⟨rfl, rfl⟩ := List.cons.inj heq
        obtain ⟨⟨y, hown⟩, hrest⟩ := List.forall_mem_cons.mp hbefore
        exact .inr ⟨y, hown, before, x, behind, rfl, hrest, hx⟩

/-- Computations that fail with the same error, or both go through with related results. -/
inductive Agree {ε α β : Type} (related : α → β → Prop) : Except ε α → Except ε β → Prop where
  | ok {a : α} {b : β} (hrelated : related a b) : Agree related (.ok a) (.ok b)
  | error (e : ε) : Agree related (.error e) (.error e)

/-- A computation that fails with the first of the listed errors, and goes through when there is
none. -/
inductive FailsFirst {ε α : Type} : Except ε α → List ε → Prop where
  | ok (a : α) : FailsFirst (.ok a) []
  | error (e : ε) (others : List ε) : FailsFirst (.error e) (e :: others)

namespace FailsFirst

variable {ε α β : Type} {x : Except ε α} {errors : List ε}

/-- The computation goes through just when no error is listed. -/
theorem exists_ok_iff (hx : FailsFirst x errors) : (∃ a, x = .ok a) ↔ errors = [] := by
  cases hx <;> simp

/-- The computation fails with the first listed error and with no other. -/
theorem eq_error_iff (hx : FailsFirst x errors) (e : ε) : x = .error e ↔ errors.head? = some e := by
  cases hx <;> simp

/-- What comes after a step counts when the step goes through. -/
theorem bind (hx : FailsFirst x errors) {next : α → Except ε β} {more : List ε}
    (hnext : ∀ a, x = .ok a → FailsFirst (next a) more) :
    FailsFirst (x >>= next) (errors ++ more) := by
  cases hx with
  | ok a => exact hnext a rfl
  | error e others => exact .error e (others ++ more)

theorem bind_pure (hx : FailsFirst x errors) (f : α → β) :
    FailsFirst (x >>= fun a => pure (f a)) errors := by
  rw [← List.append_nil errors]
  exact hx.bind fun a _ => .ok (f a)

/-- The error is listed just when the test for it fails the computation. -/
theorem ite {fails : Prop} [Decidable fails] {e : ε} (hx : ¬ fails → FailsFirst x errors) :
    FailsFirst (if fails then .error e else x) ((if fails then [e] else []) ++ errors) := by
  split
  · exact .error e errors
  · rename_i hpasses
    exact hx hpasses

/-- Over a list, the errors of the elements are listed in the order of the elements. -/
theorem mapM {f : α → Except ε β} {own : α → List ε} (hf : ∀ a, FailsFirst (f a) (own a))
    (as : List α) : FailsFirst (as.mapM f) (as.flatMap own) := by
  induction as with
  | nil => exact .ok []
  | cons a as ih =>
    rw [List.mapM_cons, List.flatMap_cons]
    exact (hf a).bind fun b _ => ih.bind_pure (b :: ·)

end FailsFirst

theorem mapM_eq_pure_map {m : Type → Type} [Monad m] [LawfulMonad m] {α β : Type} {f : α → m β}
    {g : α → β} {xs : List α} (heq : ∀ x ∈ xs, f x = pure (g x)) : xs.mapM f = pure (xs.map g) := by
  induction xs with
  | nil => rfl
  | cons x xs ih =>
    have hxs := ih fun y hy => heq y (List.mem_cons_of_mem x hy)
    simp [heq x List.mem_cons_self, hxs]

/-- A list is read when each of its elements is, one to one and in order. -/
theorem mapM_eq_some_iff {α β : Type} {f : α → Option β} {xs : List α} {ys : List β} :
    xs.mapM f = some ys ↔ List.Forall₂ (fun x y => f x = some y) xs ys := by
  induction xs generalizing ys with
  | nil => simp [eq_comm]
  | cons x xs ih =>
    simp only [List.mapM_cons, Option.bind_eq_bind, Option.bind_eq_some_iff, ih,
      List.forall₂_cons_left_iff]
    constructor
    · rintro ⟨y, hy, rest, hrest, heq⟩
      exact ⟨y, rest, hy, hrest, (Option.some.inj heq).symm⟩
    · rintro ⟨y, rest, hy, hrest, rfl⟩
      exact ⟨y, hy, rest, hrest, rfl⟩

theorem mapM_eq_none {α β : Type} {f : α → Option β} {xs : List α} {x : α} (hmem : x ∈ xs)
    (hnone : f x = none) : xs.mapM f = none := by
  induction xs with
  | nil => simp at hmem
  | cons y ys ih =>
    rw [List.mapM_cons]
    obtain rfl | hys := List.mem_cons.mp hmem
    · rw [hnone]
      rfl
    · rw [ih hys]
      cases f y <;> rfl

end PolicyForge.Failing
