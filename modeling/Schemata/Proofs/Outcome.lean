/-!
# Steps that may fail

How a chain of steps in `Except` succeeds: a bind succeeds when both its steps do, and a list of
steps when each of them does, so that what one step keeps a whole list keeps.

The lemmas about a bind are equivalences, and a proof takes a chain apart with them from the left:
each use gives the value of one step and leaves the rest of the chain.  For lists of steps there is
one lemma for each thing that is said of a run: that it keeps a property
(`foldlM_ok_induction`), that each item or some item has a step with the outcome of the run
(`exists_of_foldlM_eq_ok`, `exists_of_foldlM_eq_error`), and that checks succeed one by one
(`forM_eq_ok_iff`).
-/

namespace Schemata

variable {α β ε : Type}

@[simp] theorem except_ok_bind (value : α) (next : α → Except ε β) :
    (.ok value >>= next) = next value := rfl

@[simp] theorem except_error_bind (error : ε) (next : α → Except ε β) :
    (.error error >>= next) = .error error := rfl

@[simp] theorem except_functor_map (change : α → β) (first : Except ε α) :
    change <$> first = first.map change := rfl

@[simp] theorem except_map_ok (change : α → β) (value : α) :
    (Except.ok value : Except ε α).map change = .ok (change value) := rfl

@[simp] theorem except_map_error (change : α → β) (error : ε) :
    (Except.error error : Except ε α).map change = .error error := rfl

/-- Two steps succeed when the first does and the second does on its value. -/
@[simp] theorem except_bind_eq_ok {first : Except ε α} {second : α → Except ε β} {result : β} :
    (first >>= second) = .ok result ↔ ∃ value, first = .ok value ∧ second value = .ok result := by
  cases first with
  | error error => simp [bind, Except.bind]
  | ok value => simp [bind, Except.bind]

/-- Two steps fail when the first does or the second does on its value. -/
theorem except_bind_eq_error {first : Except ε α} {second : α → Except ε β} {error : ε} :
    (first >>= second) = .error error ↔
      first = .error error ∨ ∃ value, first = .ok value ∧ second value = .error error := by
  cases first with
  | error error => simp [bind, Except.bind]
  | ok value => simp [bind, Except.bind]

/-- What is made of a value in the end does not fail. -/
theorem except_return_eq_error {first : Except ε α} {change : α → β} {error : ε} :
    (do return change (← first) : Except ε β) = .error error ↔ first = .error error := by
  rw [except_bind_eq_error]
  refine ⟨?_, Or.inl⟩
  rintro (hfirst | ⟨value, -, hpure⟩)
  · exact hfirst
  · cases hpure

@[simp] theorem except_pure_eq_ok {value result : α} :
    (pure value : Except ε α) = .ok result ↔ value = result := by
  simp [pure, Except.pure]

@[simp] theorem except_map_eq_ok {first : Except ε α} {change : α → β} {result : β} :
    first.map change = .ok result ↔ ∃ value, first = .ok value ∧ change value = result := by
  cases first with
  | error error => simp
  | ok value => simp

/-- What every step keeps, a list of steps keeps. -/
theorem foldlM_ok_induction {step : α → β → Except ε α} {P : α → Prop} {items : List β}
    (hstep : ∀ start item next, item ∈ items → P start → step start item = .ok next →
      P next)
    {start result : α} (hstart : P start) (hrun : items.foldlM step start = .ok result) :
    P result := by
  induction items generalizing start with
  | nil =>
      rw [List.foldlM_nil, except_pure_eq_ok] at hrun
      exact hrun ▸ hstart
  | cons item rest ih =>
      rw [List.foldlM_cons, except_bind_eq_ok] at hrun
      obtain ⟨next, hnext, hrun⟩ := hrun
      refine ih (fun start item next hitem => hstep start item next (List.mem_cons_of_mem _ hitem))
        (hstep start item next List.mem_cons_self hstart hnext) hrun

/-- In a list of steps that succeeds, each item has a step that succeeds. -/
theorem exists_of_foldlM_eq_ok {step : α → β → Except ε α} {items : List β} {start result : α}
    (hrun : items.foldlM step start = .ok result) {item : β} (hitem : item ∈ items) :
    ∃ current next, step current item = .ok next := by
  induction items generalizing start with
  | nil => exact absurd hitem List.not_mem_nil
  | cons first rest ih =>
      rw [List.foldlM_cons, except_bind_eq_ok] at hrun
      obtain ⟨middle, hmiddle, hrun⟩ := hrun
      rcases List.mem_cons.mp hitem with rfl | hitem
      · exact ⟨start, middle, hmiddle⟩
      · exact ih hrun hitem

/-- In a list of steps that fails, some item has a step that fails. -/
theorem exists_of_foldlM_eq_error {step : α → β → Except ε α} {items : List β} {start : α}
    {error : ε} (hrun : items.foldlM step start = .error error) :
    ∃ current, ∃ item ∈ items, step current item = .error error := by
  induction items generalizing start with
  | nil => cases hrun
  | cons first rest ih =>
      rw [List.foldlM_cons] at hrun
      rcases except_bind_eq_error.mp hrun with hfirst | ⟨middle, -, hrest⟩
      · exact ⟨start, first, List.mem_cons_self, hfirst⟩
      · obtain ⟨current, item, hitem, herror⟩ := ih hrest
        exact ⟨current, item, List.mem_cons_of_mem _ hitem, herror⟩

/-- What one list of steps gives, another gives whose steps give what the first ones do. -/
theorem foldlM_ok_mono {first second : α → β → Except ε α} {items : List β}
    (hstep : ∀ start item next, first start item = .ok next → second start item = .ok next)
    {start result : α} (hrun : items.foldlM first start = .ok result) :
    items.foldlM second start = .ok result := by
  induction items generalizing start with
  | nil => exact hrun
  | cons item rest ih =>
      obtain ⟨next, hnext, hrun⟩ := except_bind_eq_ok.mp hrun
      exact except_bind_eq_ok.mpr ⟨next, hstep _ _ _ hnext, ih hrun⟩

/-- A list of checks succeeds when each of them does. -/
theorem forM_eq_ok_iff {check : α → Except ε Unit} {items : List α} :
    items.forM check = .ok () ↔ ∀ item ∈ items, check item = .ok () := by
  rw [List.forM_eq_forM]
  induction items with
  | nil => simp
  | cons item rest ih =>
      rw [List.forM_cons, except_bind_eq_ok, List.forall_mem_cons, ← ih]
      constructor
      · rintro ⟨⟨⟩, hitem, hrest⟩
        exact ⟨hitem, hrest⟩
      · rintro ⟨hitem, hrest⟩
        exact ⟨(), hitem, hrest⟩

/-- The results of a list of steps are results of its items. -/
theorem mem_of_mapM_eq_ok {step : α → Except ε β} {items : List α} {results : List β}
    (hrun : items.mapM step = .ok results) {result : β} (hresult : result ∈ results) :
    ∃ item ∈ items, step item = .ok result := by
  induction items generalizing results with
  | nil =>
      rw [List.mapM_nil, except_pure_eq_ok] at hrun
      exact absurd (hrun ▸ hresult) List.not_mem_nil
  | cons item rest ih =>
      rw [List.mapM_cons] at hrun
      simp only [except_bind_eq_ok, except_pure_eq_ok] at hrun
      obtain ⟨first, hfirst, others, hothers, rfl⟩ := hrun
      rcases List.mem_cons.mp hresult with rfl | hresult
      · exact ⟨item, List.mem_cons_self, hfirst⟩
      · obtain ⟨source, hsource, hstep⟩ := ih hothers hresult
        exact ⟨source, List.mem_cons_of_mem _ hsource, hstep⟩

end Schemata
