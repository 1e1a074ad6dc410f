import Schemata.Proofs.Text.Balance

/-!
# Checking texts

Whether a text closes what it opens is said of scans that start in any number of groups.  A scan
that starts in one of them is enough to tell (`Chars.balanced_iff`), so that the property can be
decided, as can be whether a separator stands at the top.  A scan that starts outside of all groups
can tell as well, if it watches for brackets that close nothing
(`Chars.balanced_iff_uncut_closesGroup`).

A scan that stays inside of one group runs in parallel to the scans inside of any number of them
(`Chars.run_deepen`).  A balanced text keeps a scan inside of the groups that it started in, so what
is seen of it in one group is seen in all.
-/

namespace Schemata

/-- The scan with more groups open. -/
def Nesting.deepen (nesting : Nesting) (more : Nat) : Nesting :=
  ⟨nesting.quote, nesting.depth + more⟩

namespace Chars

variable {nesting : Nesting} {text : List Char} {c : Char}

instance decidableUncut (cut : Char → Bool) :
    ∀ (nesting : Nesting) (text : List Char), Decidable (Uncut cut nesting text)
  | _, [] => inferInstanceAs (Decidable True)
  | nesting, c :: rest =>
      have := decidableUncut cut (nesting.step c) rest
      inferInstanceAs (Decidable (_ ∧ _))

/-- A character does the same deeper in, if it does not close the outermost group. -/
theorem step_deepen (hopen : ((nesting.deepen 1).step c).depth ≠ 0) (more : Nat) :
    (nesting.deepen more).step c = (nesting.step c).deepen more := by
  obtain ⟨quote, depth⟩ := nesting
  unfold Nesting.deepen Nesting.step at *
  cases quote with
  | some quote =>
      dsimp only
      split <;> rfl
  | none =>
      dsimp only at hopen ⊢
      split
      · rfl
      split
      · simp only [Nesting.mk.injEq, true_and]
        omega
      split
      · rename_i hquote hopens hcloses
        rw [if_neg hquote, if_neg hopens, if_pos hcloses] at hopen
        dsimp only at hopen
        simp only [Nesting.mk.injEq, true_and]
        omega
      · rfl

/-- Inside of a group a scan stays inside until nothing is open. -/
theorem depth_step_ne_zero (hinside : nesting.depth ≠ 0) (hstep : (nesting.step c).isTop = false) :
    (nesting.step c).depth ≠ 0 := by
  obtain ⟨quote, depth⟩ := nesting
  unfold Nesting.step at *
  cases quote with
  | some quote =>
      dsimp only at hstep ⊢
      split <;> exact hinside
  | none =>
      dsimp only at hinside hstep ⊢
      split
      · exact hinside
      split
      · exact Nat.succ_ne_zero _
      split
      · rename_i hquote hopens hcloses
        rw [if_neg hquote, if_neg hopens, if_pos hcloses] at hstep
        simpa [Nesting.isTop] using hstep
      · exact hinside

/-- A text that stays inside of one group is scanned alike inside of any number of them. -/
theorem run_deepen (hinside : Uncut (fun _ => true) (nesting.deepen 1) text)
    (hrun : ((nesting.deepen 1).run text).depth ≠ 0) (more : Nat) :
    (nesting.deepen more).run text = (nesting.run text).deepen more ∧
      Uncut (fun _ => true) (nesting.deepen (more + 1)) text := by
  induction text generalizing nesting with
  | nil => exact ⟨rfl, trivial⟩
  | cons c rest ih =>
      obtain ⟨hkeep, hrest⟩ := hinside
      have hopen : ((nesting.deepen 1).step c).depth ≠ 0 := by
        cases rest with
        | nil => exact hrun
        | cons d others =>
            refine depth_step_ne_zero (Nat.succ_ne_zero _) ?_
            have hd := hrest.1
            rwa [Bool.and_true] at hd
      rw [Nesting.run_cons, step_deepen hopen] at hrun
      rw [step_deepen hopen] at hrest
      obtain ⟨hsame, hdeeper⟩ := ih hrest hrun
      refine ⟨?_, ?_, ?_⟩
      · rw [Nesting.run_cons, step_deepen hopen, hsame, Nesting.run_cons]
      · simp [Nesting.isTop, Nesting.deepen]
      · rw [step_deepen hopen]
        exact hdeeper

/-- Whether a text is balanced shows in one group. -/
theorem balanced_iff : Balanced text ↔
    Nesting.run ⟨none, 1⟩ text = ⟨none, 1⟩ ∧ Uncut (fun _ => true) ⟨none, 1⟩ text := by
  constructor
  · exact fun hbalanced => ⟨hbalanced.run_eq 1, hbalanced.inside 0⟩
  · rintro ⟨hrun, hinside⟩
    have hone : (Nesting.top.deepen 1).run text = ⟨none, 1⟩ := hrun
    have hdeepen : ∀ depth, Nesting.top.deepen depth = ⟨none, depth⟩ := by
      simp [Nesting.deepen, Nesting.top]
    have huncut : Uncut (fun _ => true) (Nesting.top.deepen 1) text := hinside
    -- the scan at depth one never comes to the top, so scans at all depths run in parallel to it
    have hall := run_deepen huncut (by rw [hone]; exact Nat.one_ne_zero)
    -- its end tells where the scan from the top ends
    have htop : Nesting.top.run text = .top := by
      have hlast := (hall 1).1
      rw [hone] at hlast
      generalize Nesting.top.run text = last at hlast
      obtain ⟨quote, depth⟩ := last
      simp only [Nesting.deepen, Nesting.mk.injEq] at hlast
      simp only [Nesting.top, Nesting.mk.injEq]
      exact ⟨hlast.1.symm, by omega⟩
    constructor
    · intro depth
      have hdepth := (hall depth).1
      rwa [htop, hdeepen] at hdepth
    · intro depth
      have hdepth := (hall depth).2
      rwa [hdeepen] at hdepth

/-- A character that does not close a group at the top leaves a group around the text open. -/
theorem depth_step_deepen_ne_zero (hkeep : (nesting.isTop && Nesting.closesGroup c) = false) :
    ((nesting.deepen 1).step c).depth ≠ 0 := by
  obtain ⟨quote, depth⟩ := nesting
  unfold Nesting.deepen Nesting.step
  cases quote with
  | some quote =>
      dsimp only
      split <;> exact Nat.succ_ne_zero depth
  | none =>
      dsimp only
      split
      · exact Nat.succ_ne_zero depth
      split
      · exact Nat.succ_ne_zero _
      split
      · rename_i hcloses
        rw [hcloses, Bool.and_true] at hkeep
        simpa [Nesting.isTop] using hkeep
      · exact Nat.succ_ne_zero depth

/-- No bracket at the top closes a group exactly when a group around the text stays open. -/
theorem uncut_closesGroup_iff : Uncut Nesting.closesGroup nesting text ↔
    ((nesting.deepen 1).run text).depth ≠ 0 ∧ Uncut (fun _ => true) (nesting.deepen 1) text := by
  induction text generalizing nesting with
  | nil => exact ⟨fun _ => ⟨Nat.succ_ne_zero _, trivial⟩, fun _ => trivial⟩
  | cons c rest ih =>
      have hinside : ((nesting.deepen 1).isTop && true) = false := by
        simp [Nesting.isTop, Nesting.deepen]
      cases hcut : nesting.isTop && Nesting.closesGroup c with
      | false =>
          have hstep := step_deepen (depth_step_deepen_ne_zero hcut) 1
          simp only [Uncut, hcut, hinside, Nesting.run_cons, hstep, ih, true_and]
      | true =>
          obtain ⟨htop, hcloses⟩ := (Bool.and_eq_true _ _).mp hcut
          obtain rfl := Nesting.eq_top_of_isTop htop
          have hstep : (Nesting.top.deepen 1).step c = .top := by
            simp only [Nesting.closesGroup, Bool.or_eq_true, beq_iff_eq] at hcloses
            rcases hcloses with rfl | rfl <;> rfl
          -- The group around is closed as well, so that the text can neither end here nor go on.
          constructor
          · intro huncut
            rw [Uncut, hcut] at huncut
            cases huncut.1
          · rintro ⟨hrun, -, hrest⟩
            rw [hstep] at hrest
            rw [Nesting.run_cons, hstep] at hrun
            cases rest with
            | nil => exact absurd rfl hrun
            | cons d others => cases hrest.1

/-- A text is balanced exactly when a scan from the top closes only groups that it has opened, and
ends at the top. -/
theorem balanced_iff_uncut_closesGroup : Balanced text ↔
    Uncut Nesting.closesGroup .top text ∧ Nesting.top.run text = .top := by
  have hone : Nesting.top.deepen 1 = ⟨none, 1⟩ := rfl
  constructor
  · intro hbalanced
    refine ⟨uncut_closesGroup_iff.mpr ⟨?_, hbalanced.inside 0⟩, hbalanced.run_top⟩
    rw [hone, hbalanced.run_eq 1]
    exact Nat.one_ne_zero
  · rintro ⟨hclosing, hrun⟩
    obtain ⟨hdepth, hinside⟩ := uncut_closesGroup_iff.mp hclosing
    refine balanced_iff.mpr ⟨?_, hinside⟩
    have hsame := (run_deepen hinside hdepth 1).1
    rwa [hrun, hone] at hsame

instance (text : List Char) : Decidable (Balanced text) :=
  decidable_of_iff _ balanced_iff.symm

instance (text : List Char) : Decidable (IsEntry text) :=
  decidable_of_iff (Balanced text ∧ Uncut (· == ',') .top text)
    ⟨fun hboth => ⟨hboth.1, hboth.2⟩, fun hentry => ⟨hentry.toBalanced, hentry.uncut⟩⟩

/-- A closing parenthesis in quotes closes nothing, and one at the top leaves the text. -/
example : Balanced "a (b, 'c)') [d]".toList ∧ ¬Balanced "a) (b".toList := by decide

end Chars

end Schemata
