import GoLayout.Command.Run

/-! # How a run ends

    A run that was ended before its last file leaves nothing but the exit status one
    (`finish_ended`).  Any other one leaves its report, and the exit status tells three things
    apart: that a file failed, that a reported struct would shrink where that is asked for, and
    neither (`status_eq_one_iff`, `status_eq_two_iff`, `status_cases`). -/

namespace GoLayout.Command.Run

variable {r : Run}

/-- The text of a report with the given entries. -/
def reportOf (r : Run) (entries : List FileReport) : Text := { r with reports := entries }.output

/-- A report of some files is never empty: each of them has a line of its own. -/
theorem reportOf_ne_nil {entries : List FileReport} (h : entries ≠ []) : r.reportOf entries ≠ [] := by
  rw [reportOf, output]
  split
  · simp
  · rw [if_neg (fun hempty => h (List.isEmpty_iff.mp hempty))]
    simp

/-- A run that has broken down prints nothing and ends with one. -/
theorem finish_ended (h : r.fatal.isSome = true) (megabytes : Float) :
    (r.finish megabytes).status = 1 ∧ (r.finish megabytes).output = [] := by
  obtain ⟨e, he⟩ := Option.isSome_iff_exists.mp h
  have hend : r.endOperation.fatal = some e := he
  rw [finish, hend]
  exact ⟨rfl, rfl⟩

/-- Finishing a run prints its reports and changes neither them nor the status. -/
theorem finish_going (h : r.fatal = none) (megabytes : Float) :
    (r.finish megabytes).status = r.status ∧ (r.finish megabytes).output = r.output := by
  have hend : r.endOperation.fatal = none := h
  rw [finish, hend]
  exact ⟨rfl, rfl⟩

/-- A struct is counted as optimizable where warnings are on and it is among the reported ones. -/
theorem optimizable_ne_nil_iff (r : Run) :
    Analysis.optimizable r.config.warnings r.reported ≠ [] ↔ r.config.warnings = true ∧
      ∃ entry ∈ r.reports, ∃ a ∈ entry.analyses, a.optimality.isOptimizable = true := by
  rw [Analysis.optimizable]
  cases r.config.warnings with
  | false => simp
  | true =>
      refine ⟨fun h => ?_, ?_⟩
      · obtain ⟨a, ha⟩ := List.exists_mem_of_ne_nil _ h
        obtain ⟨hreported, hshrinks⟩ := List.mem_filter.mp ha
        obtain ⟨entry, hentry, hmem⟩ := List.mem_flatMap.mp hreported
        exact ⟨rfl, entry, hentry, a, hmem, hshrinks⟩
      · rintro ⟨-, entry, hentry, a, hmem, hshrinks⟩
        have hreported : a ∈ r.reported := List.mem_flatMap.mpr ⟨entry, hentry, hmem⟩
        exact List.ne_nil_of_mem (List.mem_filter.mpr ⟨hreported, hshrinks⟩)

/-- A failed file comes before a struct that can be made smaller. -/
theorem status_eq (r : Run) :
    r.status =
      if r.failures ≠ [] then 1
      else if r.options.failOnOptimizable = true ∧
        Analysis.optimizable r.config.warnings r.reported ≠ [] then 2
      else 0 := by
  simp only [status, Bool.not_eq_true', List.isEmpty_eq_false_iff, Bool.and_eq_true]

/-- The status one stands for failed files. -/
theorem status_eq_one_iff : r.status = 1 ↔ r.failures ≠ [] := by
  rw [status_eq]
  by_cases h : r.failures = []
  · rw [if_neg (not_not_intro h)]
    refine iff_of_false ?_ (not_not_intro h)
    split
    · decide
    · decide
  · rw [if_pos h]
    exact iff_of_true rfl h

/-- The status two stands for a struct that can be made smaller, where no file failed and it is
    asked for. -/
theorem status_eq_two_iff :
    r.status = 2 ↔ r.failures = [] ∧ r.options.failOnOptimizable = true ∧ r.config.warnings = true ∧
      ∃ entry ∈ r.reports, ∃ a ∈ entry.analyses, a.optimality.isOptimizable = true := by
  rw [← optimizable_ne_nil_iff, status_eq]
  by_cases h : r.failures = []
  · rw [if_neg (not_not_intro h), and_iff_right h]
    split
    · next hshrinks => exact iff_of_true rfl hshrinks
    · next hshrinks => exact iff_of_false (by decide) hshrinks
  · rw [if_pos h]
    exact iff_of_false (by decide) fun ⟨hnone, _⟩ => h hnone

theorem status_cases (r : Run) : r.status = 0 ∨ r.status = 1 ∨ r.status = 2 := by
  rw [status_eq]
  split
  · exact .inr (.inl rfl)
  · split
    · exact .inr (.inr rfl)
    · exact .inl rfl

end GoLayout.Command.Run
